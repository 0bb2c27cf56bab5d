import TelafSim.NetVlan

/-!
# The L2TP tables of the modem

`NetL2tpAO` of `sml/mpss/net/l2tp.py` in its Ready state: tunnels with their sessions, the bindings
of sessions to backhauls and the system flags. A binding names a session by its `locId`, and a
session is looked up by it through all tunnels; within one tunnel only `add_session` checks that a
`locId` is new.
-/

namespace TelafSim.Net

structure L2tpSession where
  locId : ℤ
  peerId : ℤ
  deriving DecidableEq, Repr

inductive L2tpProtocol
  | none
  | ip
  | udp
  deriving DecidableEq, Repr

structure L2tpTunnel where
  locId : ℤ
  prot : L2tpProtocol
  peerId : ℤ
  localUdpPort : ℤ
  peerUdpPort : ℤ
  peerIpv6Addr : String
  peerIpv6GwAddr : String
  peerIpv4Addr : String
  peerIpv4GwAddr : String
  locIface : String
  ipType : IpFamilyType
  sessions : List L2tpSession
  deriving DecidableEq, Repr

/-- `add_tunnel.req`, in which only the id and the protocol are required. -/
structure AddTunnel where
  locId : ℤ
  prot : L2tpProtocol
  peerId : Option ℤ
  localUdpPort : Option ℤ
  peerUdpPort : Option ℤ
  peerIpv6Addr : Option String
  peerIpv6GwAddr : Option String
  peerIpv4Addr : Option String
  peerIpv4GwAddr : Option String
  locIface : Option String
  ipType : Option IpFamilyType
  sessions : Option (List L2tpSession)
  deriving DecidableEq, Repr

def AddTunnel.tunnel (d : AddTunnel) : L2tpTunnel where
  locId := d.locId
  prot := d.prot
  peerId := d.peerId.getD 0
  localUdpPort := d.localUdpPort.getD 0
  peerUdpPort := d.peerUdpPort.getD 0
  peerIpv6Addr := d.peerIpv6Addr.getD ""
  peerIpv6GwAddr := d.peerIpv6GwAddr.getD ""
  peerIpv4Addr := d.peerIpv4Addr.getD ""
  peerIpv4GwAddr := d.peerIpv4GwAddr.getD ""
  locIface := d.locIface.getD ""
  ipType := d.ipType.getD .unknown
  sessions := d.sessions.getD []

structure L2tpSessionBinding where
  locId : ℤ
  backhaul : BackhaulType
  slot : Option ℤ
  profileId : Option ℤ
  bhVlanId : Option ℤ
  deriving DecidableEq, Repr

def L2tpSessionBinding.key (b : L2tpSessionBinding) : ℤ × BackhaulType := (b.locId, b.backhaul)

namespace L2tpTunnel

def locIds (t : L2tpTunnel) : List ℤ := t.sessions.map L2tpSession.locId

def getSession (locId : ℤ) (t : L2tpTunnel) : Option L2tpSession :=
  t.sessions.find? (fun x => x.locId = locId)

def append (x : L2tpSession) (t : L2tpTunnel) : L2tpTunnel :=
  { t with sessions := t.sessions ++ [x] }

/-- The session removed is the one that `getSession` has found. -/
def removeSession (locId : ℤ) (t : L2tpTunnel) : L2tpTunnel :=
  { t with sessions := t.sessions.eraseP (fun x => x.locId = locId) }

@[simp] theorem locIds_append (x : L2tpSession) (t : L2tpTunnel) :
    (t.append x).locIds = t.locIds ++ [x.locId] := by
  simp [append, locIds]

theorem locIds_removeSession (locId : ℤ) (t : L2tpTunnel) :
    (t.removeSession locId).locIds = t.locIds.erase locId := by
  unfold removeSession locIds
  induction t.sessions with
  | nil => rfl
  | cons x l ih =>
    by_cases h : x.locId = locId
    · simp [h]
    · rw [List.eraseP_cons_of_neg (by simpa using h), List.map_cons, List.map_cons, ih,
        List.erase_cons_tail (by simpa using h)]

theorem isSome_getSession {locId : ℤ} {t : L2tpTunnel} :
    (t.getSession locId).isSome = true ↔ locId ∈ t.locIds := by
  simp [getSession, locIds]

end L2tpTunnel

structure L2tpStore where
  enabled : Bool
  enableMss : Bool
  enableMtu : Bool
  mtuSize : ℤ
  tunnels : Dict ℤ L2tpTunnel
  bindings : Dict (ℤ × BackhaulType) L2tpSessionBinding
  deriving DecidableEq

/-- The size in force when `setConfig` leaves it out or gives 0. -/
def defaultMtu : ℤ := 1422

inductive L2tpRequest
  | setConfig (enable enableMss enableMtu : Bool) (mtuSize : Option ℤ)
  | requestConfig
  | addTunnel (data : AddTunnel)
  | removeTunnel (tunnelId : ℤ)
  | addSession (tunnelId locId peerId : ℤ)
  | removeSession (tunnelId sessionId : ℤ)
  | bindSession (locId : ℤ) (backhaul : BackhaulType) (slot profileId bhVlanId : Option ℤ)
  | unbindSession (locId : ℤ) (backhaul : BackhaulType)
  | queryBindings (backhaul : Option BackhaulType)
  deriving DecidableEq, Repr

inductive L2tpRsp
  | done
  | config (enableMtu enableTcpMss : Bool) (mtuSize : ℤ) (tunnels : List L2tpTunnel)
  | bindings (bindings : List L2tpSessionBinding)
  | error (code : ErrorCode) (detail : String)
  deriving DecidableEq, Repr

def L2tpRsp.isError : L2tpRsp → Bool
  | .error _ _ => true
  | _ => false

namespace L2tpStore

def empty : L2tpStore := ⟨false, false, false, 0, .empty, .empty⟩

/-- The first session with this id, through all tunnels. -/
def findSession (locId : ℤ) (s : L2tpStore) : Option L2tpSession :=
  s.tunnels.values.findSome? (L2tpTunnel.getSession locId)

def setTunnel (id : ℤ) (t : L2tpTunnel) (s : L2tpStore) : L2tpStore :=
  { s with tunnels := s.tunnels.set id t }

def removeTunnel (id : ℤ) (s : L2tpStore) : L2tpStore := { s with tunnels := s.tunnels.pop id }

def addBinding (b : L2tpSessionBinding) (s : L2tpStore) : L2tpStore :=
  { s with bindings := s.bindings.set b.key b }

def removeBinding (locId : ℤ) (backhaul : BackhaulType) (s : L2tpStore) : L2tpStore :=
  { s with bindings := s.bindings.pop (locId, backhaul) }

def removeBindingsForSessions (locIds : List ℤ) (s : L2tpStore) : L2tpStore :=
  { s with bindings := s.bindings.keep (fun k => k.1 ∉ locIds) }

def handleSetConfig (enable enableMss enableMtu : Bool) (mtuSize : Option ℤ) (s : L2tpStore) :
    L2tpStore × L2tpRsp :=
  ({ s with
    enabled := enable
    enableMss := enableMss
    enableMtu := enableMtu
    mtuSize := if mtuSize.getD 0 ≠ 0 then mtuSize.getD 0 else defaultMtu }, .done)

def handleAddTunnel (d : AddTunnel) (s : L2tpStore) : L2tpStore × L2tpRsp :=
  if (s.tunnels.get d.locId).isSome then
    (s, .error .invalidOperation s!"tunnel {d.locId} already exists")
  else
    (s.setTunnel d.locId d.tunnel, .done)

def handleRemoveTunnel (tunnelId : ℤ) (s : L2tpStore) : L2tpStore × L2tpRsp :=
  match s.tunnels.get tunnelId with
  | none => (s, .error .invalidArguments s!"no tunnel {tunnelId}")
  | some t => ((s.removeTunnel tunnelId).removeBindingsForSessions t.locIds, .done)

def handleAddSession (tunnelId locId peerId : ℤ) (s : L2tpStore) : L2tpStore × L2tpRsp :=
  match s.tunnels.get tunnelId with
  | none => (s, .error .invalidArguments s!"no tunnel {tunnelId}")
  | some t =>
    if (t.getSession locId).isSome then
      (s, .error .invalidOperation s!"session {locId} already in tunnel")
    else
      (s.setTunnel tunnelId (t.append ⟨locId, peerId⟩), .done)

def handleRemoveSession (tunnelId sessionId : ℤ) (s : L2tpStore) : L2tpStore × L2tpRsp :=
  match s.tunnels.get tunnelId with
  | none => (s, .error .invalidArguments s!"no tunnel {tunnelId}")
  | some t =>
    if (t.getSession sessionId).isSome then
      ((s.setTunnel tunnelId (t.removeSession sessionId)).removeBindingsForSessions [sessionId],
        .done)
    else
      (s, .error .invalidArguments s!"no session {sessionId} in tunnel")

/-- Slot and profile are kept for WWAN only. -/
def handleBindSession (locId : ℤ) (backhaul : BackhaulType) (slot profileId bhVlanId : Option ℤ)
    (s : L2tpStore) : L2tpStore × L2tpRsp :=
  if s.findSession locId = none then
    (s, .error .invalidArguments s!"no session with locId {locId}")
  else if (s.bindings.get (locId, backhaul)).isSome then
    (s, .error .invalidOperation s!"session {locId} already bound to {fromBackhaul backhaul}")
  else
    (s.addBinding ⟨locId, backhaul, if backhaul = .wwan then slot else none,
      if backhaul = .wwan then profileId else none, bhVlanId⟩, .done)

def handleUnbindSession (locId : ℤ) (backhaul : BackhaulType) (s : L2tpStore) :
    L2tpStore × L2tpRsp :=
  if (s.bindings.get (locId, backhaul)).isSome then
    (s.removeBinding locId backhaul, .done)
  else
    (s, .error .invalidArguments s!"session {locId} not bound to {fromBackhaul backhaul}")

def handle (s : L2tpStore) : L2tpRequest → L2tpStore × L2tpRsp
  | .setConfig enable enableMss enableMtu mtuSize =>
    s.handleSetConfig enable enableMss enableMtu mtuSize
  | .requestConfig => (s, .config s.enableMtu s.enableMss s.mtuSize s.tunnels.values)
  | .addTunnel data => s.handleAddTunnel data
  | .removeTunnel tunnelId => s.handleRemoveTunnel tunnelId
  | .addSession tunnelId locId peerId => s.handleAddSession tunnelId locId peerId
  | .removeSession tunnelId sessionId => s.handleRemoveSession tunnelId sessionId
  | .bindSession locId backhaul slot profileId bhVlanId =>
    s.handleBindSession locId backhaul slot profileId bhVlanId
  | .unbindSession locId backhaul => s.handleUnbindSession locId backhaul
  | .queryBindings backhaul =>
    (s, .bindings (s.bindings.values.filter (fun b => backhaul.all (b.backhaul = ·))))

def step (s : L2tpStore) (q : L2tpRequest) : Option L2tpStore := some (s.handle q).1

/-! ### What a request does -/

/-- What a handler makes of the tables, and how it answers. -/
inductive Change (s : L2tpStore) : L2tpStore × L2tpRsp → Prop
  | same (r : L2tpRsp) : Change s (s, r)
  | config (enable enableMss enableMtu : Bool) (mtuSize : Option ℤ) :
      Change s (s.handleSetConfig enable enableMss enableMtu mtuSize)
  | addTunnel (d : AddTunnel) (hnew : s.tunnels.get d.locId = none) :
      Change s (s.setTunnel d.locId d.tunnel, .done)
  | removeTunnel (id : ℤ) (t : L2tpTunnel) (hold : s.tunnels.get id = some t) :
      Change s ((s.removeTunnel id).removeBindingsForSessions t.locIds, .done)
  | addSession (id : ℤ) (t : L2tpTunnel) (x : L2tpSession) (hold : s.tunnels.get id = some t)
      (hfresh : x.locId ∉ t.locIds) : Change s (s.setTunnel id (t.append x), .done)
  | removeSession (id : ℤ) (t : L2tpTunnel) (locId : ℤ) (hold : s.tunnels.get id = some t)
      (hmem : locId ∈ t.locIds) :
      Change s ((s.setTunnel id (t.removeSession locId)).removeBindingsForSessions [locId], .done)
  | bind (b : L2tpSessionBinding) (hlive : s.findSession b.locId ≠ none) :
      Change s (s.addBinding b, .done)
  | unbind (locId : ℤ) (backhaul : BackhaulType) : Change s (s.removeBinding locId backhaul, .done)

theorem handle_change (s : L2tpStore) (q : L2tpRequest) : Change s (s.handle q) := by
  cases q with
  | setConfig enable enableMss enableMtu mtuSize => exact .config _ _ _ _
  | requestConfig => exact .same _
  | addTunnel data =>
    simp only [handle, handleAddTunnel]
    split
    · exact .same _
    · next hnew => exact .addTunnel _ (by simpa using hnew)
  | removeTunnel tunnelId =>
    simp only [handle, handleRemoveTunnel]
    split
    · exact .same _
    · next t hold => exact .removeTunnel _ _ hold
  | addSession tunnelId locId peerId =>
    simp only [handle, handleAddSession]
    split
    · exact .same _
    · next t hold =>
      split
      · exact .same _
      · next hfresh =>
        rw [L2tpTunnel.isSome_getSession] at hfresh
        exact .addSession _ _ _ hold hfresh
  | removeSession tunnelId sessionId =>
    simp only [handle, handleRemoveSession]
    split
    · exact .same _
    · next t hold =>
      split
      · next hmem => exact .removeSession _ _ _ hold (L2tpTunnel.isSome_getSession.mp hmem)
      · exact .same _
  | bindSession locId backhaul slot profileId bhVlanId =>
    simp only [handle, handleBindSession]
    split
    · exact .same _
    · next hlive =>
      split
      · exact .same _
      · exact .bind _ hlive
  | unbindSession locId backhaul =>
    simp only [handle, handleUnbindSession]
    split
    · exact .unbind _ _
    · exact .same _
  | queryBindings backhaul => exact .same _

theorem handle_rejected {s : L2tpStore} {q : L2tpRequest} (h : (s.handle q).2.isError = true) :
    (s.handle q).1 = s := by
  have hchange := handle_change s q
  generalize s.handle q = r at h hchange
  cases hchange with
  | same r => rfl
  | config | addTunnel | removeTunnel | addSession | removeSession | bind | unbind => cases h

/-! ### Bindings and the sessions they name -/

def liveIds (tunnels : Dict ℤ L2tpTunnel) : Set ℤ :=
  {n | ∃ id t, tunnels.get id = some t ∧ n ∈ t.locIds}

def bound (s : L2tpStore) : Set (ℤ × BackhaulType) := {k | (s.bindings.get k).isSome = true}

theorem findSession_ne_none_iff {s : L2tpStore} {locId : ℤ} :
    s.findSession locId ≠ none ↔ locId ∈ liveIds s.tunnels := by
  rw [findSession, Ne, List.findSome?_eq_none_iff]
  push Not
  simp only [Dict.mem_values_iff, ← Option.isSome_iff_ne_none, L2tpTunnel.isSome_getSession]
  constructor
  · rintro ⟨t, ⟨id, hget⟩, hmem⟩
    exact ⟨id, t, hget, hmem⟩
  · rintro ⟨id, t, hget, hmem⟩
    exact ⟨t, ⟨id, hget⟩, hmem⟩

/-- Every binding is for a session of some tunnel. -/
def Sound (s : L2tpStore) : Prop := Set.MapsTo Prod.fst s.bound (liveIds s.tunnels)

/-- No tunnel has two sessions with one id. -/
def Unique (s : L2tpStore) : Prop := ∀ id, ∀ t ∈ s.tunnels.get id, t.locIds.Nodup

structure Integrity (s : L2tpStore) : Prop where
  unique : s.Unique
  sound : s.Sound

theorem integrity_empty : Integrity empty where
  unique := by
    intro id t ht
    cases ht
  sound := by
    intro k hk
    cases hk

theorem mem_liveIds_set {tunnels : Dict ℤ L2tpTunnel} {id n : ℤ} {t : L2tpTunnel} :
    n ∈ liveIds (tunnels.set id t) ↔ n ∈ t.locIds ∨ n ∈ liveIds (tunnels.pop id) := by
  simp only [liveIds, Set.mem_ofPred_eq, Dict.get_set, Dict.get_pop]
  constructor
  · rintro ⟨j, u, hget, hmem⟩
    by_cases h : j = id
    · rw [if_pos h] at hget
      exact .inl (Option.some.inj hget ▸ hmem)
    · rw [if_neg h] at hget
      exact .inr ⟨j, u, by rw [if_neg h, hget], hmem⟩
  · rintro (hmem | ⟨j, u, hget, hmem⟩)
    · exact ⟨id, t, if_pos rfl, hmem⟩
    · by_cases h : j = id
      · rw [if_pos h] at hget
        cases hget
      · rw [if_neg h] at hget
        exact ⟨j, u, by rw [if_neg h, hget], hmem⟩

theorem mem_liveIds_iff {tunnels : Dict ℤ L2tpTunnel} {id n : ℤ} {t : L2tpTunnel}
    (hold : tunnels.get id = some t) :
    n ∈ liveIds tunnels ↔ n ∈ t.locIds ∨ n ∈ liveIds (tunnels.pop id) := by
  rw [← mem_liveIds_set]
  simp only [liveIds, Dict.get_set_of_get hold]

theorem liveIds_pop_of_none {tunnels : Dict ℤ L2tpTunnel} {id : ℤ}
    (hnew : tunnels.get id = none) : liveIds (tunnels.pop id) = liveIds tunnels := by
  simp only [liveIds, Dict.get_pop_of_none hnew]

theorem bound_removeBindingsForSessions (locIds : List ℤ) (s : L2tpStore) :
    (s.removeBindingsForSessions locIds).bound =
      References.cascade Prod.fst {n | n ∈ locIds} s.bound := by
  ext k
  by_cases h : k.1 ∈ locIds <;>
    simp [bound, removeBindingsForSessions, References.cascade, Dict.get_keep, h]

/-- Removing a tunnel takes the ids of its sessions from the table, and no others. -/
theorem liveIds_removeTunnel {s : L2tpStore} {id : ℤ} {t : L2tpTunnel}
    (hold : s.tunnels.get id = some t) :
    liveIds s.tunnels \ {n | n ∈ t.locIds} ⊆ liveIds (s.removeTunnel id).tunnels := by
  rintro n ⟨hn, hne⟩
  exact ((mem_liveIds_iff hold).mp hn).resolve_left hne

theorem liveIds_removeSession {s : L2tpStore} {id : ℤ} {t : L2tpTunnel} (locId : ℤ)
    (hold : s.tunnels.get id = some t) :
    liveIds s.tunnels \ {n | n ∈ [locId]} ⊆
      liveIds (s.setTunnel id (t.removeSession locId)).tunnels := by
  rintro n ⟨hn, hne⟩
  refine mem_liveIds_set.mpr ?_
  rw [L2tpTunnel.locIds_removeSession, List.mem_erase_of_ne (by simpa using hne)]
  exact (mem_liveIds_iff hold).mp hn

theorem Change.sound {s : L2tpStore} {r : L2tpStore × L2tpRsp} (h : Change s r) (hs : Sound s) :
    Sound r.1 := by
  cases h with
  | same r => exact hs
  | config => exact hs
  | addTunnel d hnew =>
    intro k hk
    refine mem_liveIds_set.mpr (.inr ?_)
    rw [liveIds_pop_of_none hnew]
    exact hs hk
  | removeTunnel id t hold =>
    change Set.MapsTo Prod.fst (removeBindingsForSessions t.locIds s).bound
      (liveIds (s.removeTunnel id).tunnels)
    rw [bound_removeBindingsForSessions]
    exact References.mapsTo_cascade hs (liveIds_removeTunnel hold)
  | addSession id t x hold hfresh =>
    intro k hk
    refine mem_liveIds_set.mpr ?_
    rw [L2tpTunnel.locIds_append, List.mem_append, or_right_comm]
    exact .inl ((mem_liveIds_iff hold).mp (hs hk))
  | removeSession id t locId hold hmem =>
    change Set.MapsTo Prod.fst (removeBindingsForSessions [locId] s).bound
      (liveIds (s.setTunnel id (t.removeSession locId)).tunnels)
    rw [bound_removeBindingsForSessions]
    exact References.mapsTo_cascade hs (liveIds_removeSession locId hold)
  | bind b hlive =>
    intro k hk
    change (Option.isSome ((s.bindings.set b.key b).get k)) = true at hk
    rw [Dict.get_set] at hk
    by_cases hkey : k = b.key
    · rw [hkey]
      exact findSession_ne_none_iff.mp hlive
    · rw [if_neg hkey] at hk
      exact hs hk
  | unbind locId backhaul =>
    intro k hk
    change (Option.isSome ((s.bindings.pop (locId, backhaul)).get k)) = true at hk
    rw [Dict.get_pop] at hk
    by_cases hkey : k = (locId, backhaul)
    · rw [if_pos hkey] at hk
      cases hk
    · rw [if_neg hkey] at hk
      exact hs hk

theorem Unique.setTunnel {s : L2tpStore} {id : ℤ} {t : L2tpTunnel} (hs : s.Unique) :
    (s.setTunnel id t).Unique ↔ t.locIds.Nodup := by
  constructor
  · intro h
    exact h id t (Dict.get_set_self id t s.tunnels)
  · intro ht j u hu
    change (s.tunnels.set id t).get j = some u at hu
    rw [Dict.get_set] at hu
    split_ifs at hu
    · exact Option.some.inj hu ▸ ht
    · exact hs j u hu

theorem Unique.removeTunnel {s : L2tpStore} (id : ℤ) (hs : s.Unique) :
    (s.removeTunnel id).Unique := by
  intro j u hu
  change (s.tunnels.pop id).get j = some u at hu
  rw [Dict.get_pop] at hu
  split_ifs at hu
  exact hs j u hu

/-! ### When the cascade is exact -/

def isBound (locId : ℤ) (s : L2tpStore) : Bool := s.bindings.keys.any (fun k => k.1 = locId)

theorem isBound_iff {locId : ℤ} {s : L2tpStore} :
    s.isBound locId = true ↔ ∃ k ∈ s.bound, k.1 = locId := by
  simp [isBound, bound, Dict.mem_keys_iff, Option.isSome_iff_exists]

def heldElsewhere (id locId : ℤ) (s : L2tpStore) : Bool :=
  (s.tunnels.pop id).values.any (fun t => locId ∈ t.locIds)

theorem heldElsewhere_eq_false_iff {id locId : ℤ} {s : L2tpStore} :
    s.heldElsewhere id locId = false ↔ locId ∉ liveIds (s.tunnels.pop id) := by
  rw [← Bool.not_eq_true, not_iff_not, heldElsewhere, List.any_eq_true]
  simp only [Dict.mem_values_iff, decide_eq_true_eq]
  constructor
  · rintro ⟨t, ⟨j, hget⟩, hmem⟩
    exact ⟨j, t, hget, hmem⟩
  · rintro ⟨j, t, hget, hmem⟩
    exact ⟨t, ⟨j, hget⟩, hmem⟩

/-- The bindings that are left are those whose id occurs in some tunnel. -/
def DropsUnnamed (s s' : L2tpStore) : Prop :=
  ∀ k, s'.bindings.get k = if (s'.findSession k.1).isSome then s.bindings.get k else none

def Right (s : L2tpStore) (q : L2tpRequest) : Prop :=
  ((s.handle q).2.isError = true → (s.handle q).1 = s) ∧
    ((∃ id, q = .removeTunnel id) ∨ (∃ id locId, q = .removeSession id locId) →
      (s.handle q).2.isError = false → DropsUnnamed s (s.handle q).1)

/-- A new tunnel brings no id twice, and no bound session is removed, alone or with its tunnel,
while another tunnel has a session with its id. -/
def Distinct (s : L2tpStore) : L2tpRequest → Prop
  | .addTunnel d => s.tunnels.get d.locId = none → d.tunnel.locIds.Nodup
  | .removeTunnel id => ∀ t ∈ s.tunnels.get id, ∀ n ∈ t.locIds,
      s.isBound n = true → s.heldElsewhere id n = false
  | .removeSession id n => ∀ t ∈ s.tunnels.get id, n ∈ t.locIds →
      s.isBound n = true → s.heldElsewhere id n = false
  | _ => True

/-- The cascade after sessions with the ids `gone` have left the tunnels of `s`. -/
theorem dropsUnnamed_iff {s u : L2tpStore} {gone : List ℤ} (hs : Sound s)
    (hsame : u.bindings = s.bindings)
    (hkept : liveIds s.tunnels \ {n | n ∈ gone} ⊆ liveIds u.tunnels) :
    DropsUnnamed s (u.removeBindingsForSessions gone) ↔
      ∀ n ∈ gone, s.isBound n = true → n ∉ liveIds u.tunnels := by
  have hget : ∀ k, (u.removeBindingsForSessions gone).bindings.get k =
      if k.1 ∉ gone then s.bindings.get k else none := by
    intro k
    simp [removeBindingsForSessions, Dict.get_keep, hsame]
  have hlive : ∀ k : ℤ × BackhaulType,
      ((u.removeBindingsForSessions gone).findSession k.1).isSome = true ↔
        k.1 ∈ liveIds u.tunnels := by
    intro k
    rw [Option.isSome_iff_ne_none, findSession_ne_none_iff]
    rfl
  have hexact : DropsUnnamed s (u.removeBindingsForSessions gone) ↔
      References.cascade Prod.fst {n | n ∈ gone} s.bound =
        {k ∈ s.bound | k.1 ∈ liveIds u.tunnels} := by
    rw [Set.ext_iff]
    refine forall_congr' ?_
    intro k
    rw [hget]
    simp only [References.cascade, bound, Set.mem_ofPred_eq, ← hlive]
    generalize (findSession k.1 (u.removeBindingsForSessions gone)).isSome = held
    cases s.bindings.get k with
    | none => simp
    | some b => by_cases h : k.1 ∈ gone <;> cases held <;> simp [h]
  rw [hexact, References.cascade_exact_iff hs hkept]
  simp only [isBound_iff]
  constructor
  · rintro h n hn ⟨k, hk, rfl⟩
    exact h k hk hn
  · intro h k hk hn
    exact h k.1 hn ⟨k, hk, rfl⟩

theorem dropsUnnamed_removeTunnel {s : L2tpStore} {id : ℤ} {t : L2tpTunnel} (hs : Sound s)
    (hold : s.tunnels.get id = some t) :
    DropsUnnamed s ((s.removeTunnel id).removeBindingsForSessions t.locIds) ↔
      ∀ n ∈ t.locIds, s.isBound n = true → s.heldElsewhere id n = false := by
  rw [dropsUnnamed_iff (u := s.removeTunnel id) hs rfl (liveIds_removeTunnel hold)]
  simp only [heldElsewhere_eq_false_iff]
  rfl

theorem dropsUnnamed_removeSession {s : L2tpStore} {id locId : ℤ} {t : L2tpTunnel}
    (hs : Integrity s) (hold : s.tunnels.get id = some t) :
    DropsUnnamed s ((s.setTunnel id (t.removeSession locId)).removeBindingsForSessions [locId]) ↔
      (s.isBound locId = true → s.heldElsewhere id locId = false) := by
  -- the tunnel itself has the id once only
  have honce : locId ∉ (t.removeSession locId).locIds := by
    rw [L2tpTunnel.locIds_removeSession]
    exact (hs.unique id t hold).not_mem_erase
  rw [dropsUnnamed_iff (u := s.setTunnel id (t.removeSession locId)) hs.sound rfl
    (liveIds_removeSession locId hold), heldElsewhere_eq_false_iff]
  simp only [List.mem_singleton, forall_eq]
  refine imp_congr_right fun _ => not_congr ?_
  exact mem_liveIds_set.trans (or_iff_right honce)

theorem handle_right_iff {s : L2tpStore} (hs : Integrity s) (q : L2tpRequest) :
    Integrity (s.handle q).1 ∧ Right s q ↔ Distinct s q := by
  have hsound := (handle_change s q).sound hs.sound
  have hintegrity : Integrity (s.handle q).1 ↔ (s.handle q).1.Unique :=
    ⟨Integrity.unique, fun h => ⟨h, hsound⟩⟩
  rw [hintegrity, Right, and_iff_right handle_rejected]
  cases q with
  | addTunnel d =>
    simp only [handle, handleAddTunnel, Distinct, reduceCtorEq, exists_false, or_self,
      false_imp_iff, and_true]
    split
    · next hold =>
      refine iff_of_true hs.unique ?_
      intro hnew
      rw [hnew] at hold
      cases hold
    · next hnew =>
      rw [hs.unique.setTunnel]
      exact ⟨fun h _ => h, fun h => h (by simpa using hnew)⟩
  | removeTunnel id =>
    simp only [handle, handleRemoveTunnel, Distinct]
    cases hold : s.tunnels.get id with
    | none => simp [hs.unique, L2tpRsp.isError]
    | some t =>
      have hunique : ((s.removeTunnel id).removeBindingsForSessions t.locIds).Unique :=
        hs.unique.removeTunnel id
      simp [hunique, L2tpRsp.isError, dropsUnnamed_removeTunnel hs.sound hold]
  | removeSession id locId =>
    simp only [handle, handleRemoveSession, Distinct]
    cases hold : s.tunnels.get id with
    | none => simp [hs.unique, L2tpRsp.isError]
    | some t =>
      by_cases hmem : locId ∈ t.locIds
      · have hnodup : (t.removeSession locId).locIds.Nodup := by
          rw [L2tpTunnel.locIds_removeSession]
          exact (hs.unique id t hold).erase locId
        have hunique : ((s.setTunnel id (t.removeSession locId)).removeBindingsForSessions
            [locId]).Unique := hs.unique.setTunnel.mpr hnodup
        simp [L2tpTunnel.isSome_getSession.mpr hmem, hunique, L2tpRsp.isError, hmem,
          dropsUnnamed_removeSession hs hold]
      · have hnone : (t.getSession locId).isSome = false := by
          rw [← Bool.not_eq_true, L2tpTunnel.isSome_getSession]
          exact hmem
        simp [hnone, hs.unique, L2tpRsp.isError, hmem]
  | addSession id locId peerId =>
    have hunique : (s.handle (.addSession id locId peerId)).1.Unique := by
      simp only [handle, handleAddSession]
      split
      · exact hs.unique
      · next t hold =>
        split
        · exact hs.unique
        · next hfresh =>
          rw [L2tpTunnel.isSome_getSession] at hfresh
          refine hs.unique.setTunnel.mpr ?_
          rw [L2tpTunnel.locIds_append, ← List.concat_eq_append]
          exact (hs.unique id t hold).concat hfresh
    simp [hunique, Distinct]
  | setConfig | requestConfig | queryBindings => exact iff_of_true ⟨hs.unique, by simp⟩ trivial
  | bindSession locId backhaul slot profileId bhVlanId =>
    have hunique : (s.handle (.bindSession locId backhaul slot profileId bhVlanId)).1.Unique := by
      simp only [handle, handleBindSession]
      split_ifs <;> exact hs.unique
    simp [hunique, Distinct]
  | unbindSession locId backhaul =>
    have hunique : (s.handle (.unbindSession locId backhaul)).1.Unique := by
      simp only [handle, handleUnbindSession]
      split_ifs <;> exact hs.unique
    simp [hunique, Distinct]

/-- From empty tables, ids stay unique within each tunnel, every binding names a session and every
request does what it should if and only if no tunnel brings an id twice and no bound session is
removed whose id another tunnel has as well. -/
theorem table_integrity_iff (l : List L2tpRequest) :
    (Trace.Always step Integrity empty l ∧ Trace.AllSteps step Right empty l) ↔
      Trace.AllSteps step Distinct empty l := by
  refine Trace.always_and_allSteps_iff (J := fun _ => True) (fun _ _ => rfl)
    (fun _ _ _ _ _ => trivial) ?_ l trivial integrity_empty
  intro s q s' _ hs hstep
  obtain rfl : (s.handle q).1 = s' := Option.some.inj hstep
  exact handle_right_iff hs q

def plainTunnel (locId : ℤ) (sessions : List L2tpSession) : AddTunnel :=
  ⟨locId, .ip, none, none, none, none, none, none, none, none, none, some sessions⟩

def sharedSessionRun : List L2tpRequest :=
  [.addTunnel (plainTunnel 1 [⟨5, 50⟩]), .addTunnel (plainTunnel 2 [⟨5, 60⟩]),
    .bindSession 5 .eth none none none, .removeSession 2 5]

/-- Removing it from one tunnel drops the binding that names the session of the other. -/
theorem binding_dropped_with_session_left :
    ¬ (Trace.Always step Integrity empty sharedSessionRun ∧
      Trace.AllSteps step Right empty sharedSessionRun) := by
  rintro ⟨-, hright⟩
  have hdrops := (((hright.2 _ rfl).2 _ rfl).2 _ rfl).1.2 (.inr ⟨2, 5, rfl⟩) (by decide)
  exact absurd (hdrops (5, .eth)) (by decide)

end L2tpStore

end TelafSim.Net
