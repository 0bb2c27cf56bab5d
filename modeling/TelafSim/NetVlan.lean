import TelafSim.Trace
import TelafSim.Dict
import TelafSim.NetWire

/-!
# The VLAN tables of the modem

`NetVlanAO` of `sml/mpss/net/vlan.py` in its Ready state: the two tables of `VlanStore` and the six
requests on them. A request is one that has passed its schema. The VLAN table is keyed by id and
interface, the bindings by id and backhaul.
-/

namespace TelafSim.Net

/-- `nwType` in `create_vlan.req`. -/
inductive NetworkType
  | unknown
  | lan
  | wan
  deriving DecidableEq, Repr

structure VlanEntry where
  vlanId : ℤ
  ifaceType : InterfaceType
  isAccelerated : Bool
  priority : ℤ
  nwType : NetworkType
  createBridge : Bool
  deriving DecidableEq, Repr

/-- An id is unique per interface only. -/
def VlanEntry.key (e : VlanEntry) : ℤ × InterfaceType := (e.vlanId, e.ifaceType)

structure VlanBinding where
  vlanId : ℤ
  backhaul : BackhaulType
  slot : Option ℤ
  profileId : Option ℤ
  bhVlanId : Option ℤ
  deriving DecidableEq, Repr

def VlanBinding.key (b : VlanBinding) : ℤ × BackhaulType := (b.vlanId, b.backhaul)

structure VlanStore where
  vlans : Dict (ℤ × InterfaceType) VlanEntry
  bindings : Dict (ℤ × BackhaulType) VlanBinding
  deriving DecidableEq

inductive ErrorCode
  | invalidOperation
  | invalidArguments
  | operationNotAllowed
  | notSupported
  deriving DecidableEq, Repr

inductive VlanRequest
  | createVlan (vlanId : ℤ) (ifaceType : InterfaceType) (isAccelerated : Option Bool)
      (priority : Option ℤ) (nwType : Option NetworkType) (createBridge : Option Bool)
  | removeVlan (vlanId : ℤ) (ifaceType : InterfaceType)
  | queryVlanInfo
  | bindVlan (vlanId : ℤ) (backhaul : BackhaulType) (slot profileId bhVlanId : Option ℤ)
  | unbindVlan (vlanId : ℤ) (backhaul : BackhaulType)
  | queryVlanBindings (backhaul : Option BackhaulType) (slot : Option ℤ)
  deriving DecidableEq, Repr

inductive VlanRsp
  | created (isAccelerated : Bool)
  | done
  | vlans (vlans : List VlanEntry)
  | bindings (bindings : List VlanBinding)
  | error (code : ErrorCode) (detail : String)
  deriving DecidableEq, Repr

def VlanRsp.isError : VlanRsp → Bool
  | .error _ _ => true
  | _ => false

namespace VlanStore

def empty : VlanStore := ⟨.empty, .empty⟩

def add (e : VlanEntry) (s : VlanStore) : VlanStore := { s with vlans := s.vlans.set e.key e }

def remove (vlanId : ℤ) (ifaceType : InterfaceType) (s : VlanStore) : VlanStore :=
  { s with vlans := s.vlans.pop (vlanId, ifaceType) }

def hasVlanId (vlanId : ℤ) (s : VlanStore) : Bool := s.vlans.keys.any (fun k => k.1 = vlanId)

def addBinding (b : VlanBinding) (s : VlanStore) : VlanStore :=
  { s with bindings := s.bindings.set b.key b }

def removeBinding (vlanId : ℤ) (backhaul : BackhaulType) (s : VlanStore) : VlanStore :=
  { s with bindings := s.bindings.pop (vlanId, backhaul) }

def removeBindingsForVlan (vlanId : ℤ) (s : VlanStore) : VlanStore :=
  { s with bindings := s.bindings.keep (fun k => k.1 ≠ vlanId) }

def handleCreateVlan (vlanId : ℤ) (ifaceType : InterfaceType) (isAccelerated : Option Bool)
    (priority : Option ℤ) (nwType : Option NetworkType) (createBridge : Option Bool)
    (s : VlanStore) : VlanStore × VlanRsp :=
  if (s.vlans.get (vlanId, ifaceType)).isSome then
    (s, .error .invalidOperation s!"VLAN {vlanId} already exists on {fromIfaceType ifaceType}")
  else if nwType.getD .lan = .wan ∧ createBridge.getD true = true then
    (s, .error .invalidArguments "createBridge is not allowed for NetworkType.WAN")
  else
    (s.add ⟨vlanId, ifaceType, isAccelerated.getD false, priority.getD 0, nwType.getD .lan,
      createBridge.getD true⟩, .created (isAccelerated.getD false))

def handleRemoveVlan (vlanId : ℤ) (ifaceType : InterfaceType) (s : VlanStore) :
    VlanStore × VlanRsp :=
  if (s.vlans.get (vlanId, ifaceType)).isSome then
    ((s.remove vlanId ifaceType).removeBindingsForVlan vlanId, .done)
  else
    (s, .error .invalidArguments s!"no VLAN {vlanId} on {fromIfaceType ifaceType}")

/-- Slot and profile are kept for WWAN only. -/
def handleBindVlan (vlanId : ℤ) (backhaul : BackhaulType) (slot profileId bhVlanId : Option ℤ)
    (s : VlanStore) : VlanStore × VlanRsp :=
  if s.hasVlanId vlanId = false then
    (s, .error .invalidArguments s!"no VLAN with id {vlanId}")
  else if (s.bindings.get (vlanId, backhaul)).isSome then
    (s, .error .invalidOperation s!"VLAN {vlanId} already bound to {fromBackhaul backhaul}")
  else
    (s.addBinding ⟨vlanId, backhaul, if backhaul = .wwan then slot else none,
      if backhaul = .wwan then profileId else none, bhVlanId⟩, .done)

def handleUnbindVlan (vlanId : ℤ) (backhaul : BackhaulType) (s : VlanStore) :
    VlanStore × VlanRsp :=
  if (s.bindings.get (vlanId, backhaul)).isSome then
    (s.removeBinding vlanId backhaul, .done)
  else
    (s, .error .invalidArguments s!"VLAN {vlanId} is not bound to {fromBackhaul backhaul}")

def queryVlanBindings (backhaul : Option BackhaulType) (slot : Option ℤ) (s : VlanStore) :
    List VlanBinding :=
  (s.bindings.values.filter (fun b => backhaul.all (b.backhaul = ·))).filter
    (fun b => slot.all (fun n => b.slot = none ∨ b.slot = some n))

def handle (s : VlanStore) : VlanRequest → VlanStore × VlanRsp
  | .createVlan vlanId ifaceType isAccelerated priority nwType createBridge =>
    s.handleCreateVlan vlanId ifaceType isAccelerated priority nwType createBridge
  | .removeVlan vlanId ifaceType => s.handleRemoveVlan vlanId ifaceType
  | .queryVlanInfo => (s, .vlans s.vlans.values)
  | .bindVlan vlanId backhaul slot profileId bhVlanId =>
    s.handleBindVlan vlanId backhaul slot profileId bhVlanId
  | .unbindVlan vlanId backhaul => s.handleUnbindVlan vlanId backhaul
  | .queryVlanBindings backhaul slot => (s, .bindings (s.queryVlanBindings backhaul slot))

def step (s : VlanStore) (q : VlanRequest) : Option VlanStore := some (s.handle q).1

/-! ### What a request does -/

/-- What a handler makes of the tables, and how it answers. -/
inductive Change (s : VlanStore) : VlanStore × VlanRsp → Prop
  | same (r : VlanRsp) : Change s (s, r)
  | add (e : VlanEntry) (hnew : s.vlans.get e.key = none) (isAccelerated : Bool) :
      Change s (s.add e, .created isAccelerated)
  | remove (vlanId : ℤ) (ifaceType : InterfaceType)
      (hold : (s.vlans.get (vlanId, ifaceType)).isSome = true) :
      Change s ((s.remove vlanId ifaceType).removeBindingsForVlan vlanId, .done)
  | bind (b : VlanBinding) (hlive : s.hasVlanId b.vlanId = true) :
      Change s (s.addBinding b, .done)
  | unbind (vlanId : ℤ) (backhaul : BackhaulType) :
      Change s (s.removeBinding vlanId backhaul, .done)

theorem handle_change (s : VlanStore) (q : VlanRequest) : Change s (s.handle q) := by
  cases q with
  | createVlan vlanId ifaceType isAccelerated priority nwType createBridge =>
    simp only [handle, handleCreateVlan]
    split_ifs with hold
    · exact .same _
    · exact .same _
    · exact .add _ (by simpa [VlanEntry.key] using hold) _
  | removeVlan vlanId ifaceType =>
    simp only [handle, handleRemoveVlan]
    split_ifs with hold
    · exact .remove _ _ hold
    · exact .same _
  | queryVlanInfo => exact .same _
  | bindVlan vlanId backhaul slot profileId bhVlanId =>
    simp only [handle, handleBindVlan]
    split
    · exact .same _
    · next hlive =>
      split
      · exact .same _
      · exact .bind _ (by simpa using hlive)
  | unbindVlan vlanId backhaul =>
    simp only [handle, handleUnbindVlan]
    split_ifs
    · exact .unbind _ _
    · exact .same _
  | queryVlanBindings backhaul slot => exact .same _

theorem handle_rejected {s : VlanStore} {q : VlanRequest} (h : (s.handle q).2.isError = true) :
    (s.handle q).1 = s := by
  have hchange := handle_change s q
  generalize s.handle q = r at h hchange
  cases hchange with
  | same r => rfl
  | add | remove | bind | unbind => cases h

theorem hasVlanId_iff {vlanId : ℤ} {s : VlanStore} :
    s.hasVlanId vlanId = true ↔ ∃ i, (s.vlans.get (vlanId, i)).isSome := by
  simp only [hasVlanId, List.any_eq_true, decide_eq_true_eq, Prod.exists, Dict.mem_keys_iff,
    Option.isSome_iff_exists]
  constructor
  · rintro ⟨v, i, hget, rfl⟩
    exact ⟨i, hget⟩
  · rintro ⟨i, hget⟩
    exact ⟨vlanId, i, hget, rfl⟩

/-! ### Bindings and the ids they name -/

def liveIds (s : VlanStore) : Set ℤ := {v | s.hasVlanId v = true}

def bound (s : VlanStore) : Set (ℤ × BackhaulType) := {k | (s.bindings.get k).isSome = true}

/-- Every binding is for an id that some interface carries. -/
def Sound (s : VlanStore) : Prop := Set.MapsTo Prod.fst s.bound s.liveIds

theorem sound_empty : Sound empty := by
  intro k hk
  cases hk

theorem bound_removeBindingsForVlan (vlanId : ℤ) (s : VlanStore) :
    (s.removeBindingsForVlan vlanId).bound = References.cascade Prod.fst {vlanId} s.bound := by
  ext k
  by_cases h : k.1 = vlanId <;>
    simp [bound, removeBindingsForVlan, References.cascade, Dict.get_keep, h]

theorem liveIds_remove (vlanId : ℤ) (ifaceType : InterfaceType) (s : VlanStore) :
    s.liveIds \ {vlanId} ⊆ (s.remove vlanId ifaceType).liveIds := by
  rintro v ⟨hv, hne⟩
  obtain ⟨i, hi⟩ := hasVlanId_iff.mp hv
  refine hasVlanId_iff.mpr ⟨i, ?_⟩
  have hkey : (v, i) ≠ (vlanId, ifaceType) := by
    intro h
    exact hne (congrArg Prod.fst h)
  rw [remove, Dict.get_pop_of_ne hkey]
  exact hi

theorem liveIds_add (e : VlanEntry) (s : VlanStore) : s.liveIds ⊆ (s.add e).liveIds := by
  intro v hv
  obtain ⟨i, hi⟩ := hasVlanId_iff.mp hv
  refine hasVlanId_iff.mpr ⟨i, ?_⟩
  rw [add, Dict.get_set]
  split_ifs
  · rfl
  · exact hi

theorem Change.sound {s : VlanStore} {r : VlanStore × VlanRsp} (h : Change s r) (hs : Sound s) :
    Sound r.1 := by
  cases h with
  | same r => exact hs
  | add e hnew isAccelerated =>
    intro k hk
    exact liveIds_add e s (hs hk)
  | remove vlanId ifaceType hold =>
    change Set.MapsTo Prod.fst (VlanStore.removeBindingsForVlan vlanId s).bound
      (s.remove vlanId ifaceType).liveIds
    rw [bound_removeBindingsForVlan]
    exact References.mapsTo_cascade hs (liveIds_remove vlanId ifaceType s)
  | bind b hlive =>
    intro k hk
    change (Option.isSome ((s.bindings.set b.key b).get k)) = true at hk
    rw [Dict.get_set] at hk
    by_cases hkey : k = b.key
    · rw [hkey]
      exact hlive
    · rw [if_neg hkey] at hk
      exact hs hk
  | unbind vlanId backhaul =>
    intro k hk
    change (Option.isSome ((s.bindings.pop (vlanId, backhaul)).get k)) = true at hk
    rw [Dict.get_pop] at hk
    by_cases hkey : k = (vlanId, backhaul)
    · rw [if_pos hkey] at hk
      cases hk
    · rw [if_neg hkey] at hk
      exact hs hk

def onOther (vlanId : ℤ) (ifaceType : InterfaceType) (s : VlanStore) : Bool :=
  s.vlans.keys.any (fun k => k.1 = vlanId ∧ k.2 ≠ ifaceType)

def isBound (vlanId : ℤ) (s : VlanStore) : Bool := s.bindings.keys.any (fun k => k.1 = vlanId)

theorem isBound_of_get {k : ℤ × BackhaulType} {s : VlanStore} {b : VlanBinding}
    (h : s.bindings.get k = some b) : s.isBound k.1 = true :=
  List.any_eq_true.mpr ⟨k, Dict.mem_keys_iff.mpr ⟨b, h⟩, decide_eq_true rfl⟩

/-- A removal that does what it should: the VLAN goes, its id's bindings go if and only if no other
interface carries the id, and everything else stays. -/
structure RemovesRight (vlanId : ℤ) (ifaceType : InterfaceType) (s s' : VlanStore) : Prop where
  vlans : ∀ k, s'.vlans.get k = if k = (vlanId, ifaceType) then none else s.vlans.get k
  bindings : ∀ k, s'.bindings.get k =
    if k.1 = vlanId ∧ s.onOther vlanId ifaceType = false then none else s.bindings.get k

def Right (s : VlanStore) (q : VlanRequest) : Prop :=
  ((s.handle q).2.isError = true → (s.handle q).1 = s) ∧
    ∀ vlanId ifaceType, q = .removeVlan vlanId ifaceType → (s.handle q).2.isError = false →
      RemovesRight vlanId ifaceType s (s.handle q).1

/-- A VLAN is removed only when its id is not bound or is on no other interface. -/
def RemovesLast (s : VlanStore) : VlanRequest → Prop
  | .removeVlan vlanId ifaceType => (s.vlans.get (vlanId, ifaceType)).isSome = true →
      s.isBound vlanId = true → s.onOther vlanId ifaceType = false
  | _ => True

theorem removesRight_iff {vlanId : ℤ} {ifaceType : InterfaceType} {s : VlanStore} :
    RemovesRight vlanId ifaceType s ((s.remove vlanId ifaceType).removeBindingsForVlan vlanId) ↔
      (s.isBound vlanId = true → s.onOther vlanId ifaceType = false) := by
  have hget : ∀ k, ((s.remove vlanId ifaceType).removeBindingsForVlan vlanId).bindings.get k =
      if k.1 = vlanId then none else s.bindings.get k := by
    intro k
    by_cases h : k.1 = vlanId <;> simp [removeBindingsForVlan, remove, Dict.get_keep, h]
  constructor
  · intro h hbound
    obtain ⟨k, hk, hid⟩ := List.any_eq_true.mp hbound
    obtain ⟨b, hb⟩ := Dict.mem_keys_iff.mp hk
    have hkey := h.bindings k
    rw [hget, if_pos (of_decide_eq_true hid), hb] at hkey
    by_contra hother
    rw [if_neg (not_and_of_not_right _ hother)] at hkey
    cases hkey
  · intro h
    refine ⟨fun k => Dict.get_pop _ _ _, ?_⟩
    intro k
    rw [hget]
    by_cases hk : k.1 = vlanId
    · cases hb : s.bindings.get k with
      | none => simp
      | some b =>
        rw [if_pos hk, if_pos ⟨hk, h (hk ▸ isBound_of_get hb)⟩]
    · rw [if_neg hk, if_neg (not_and_of_not_left _ hk)]

theorem right_iff (s : VlanStore) (q : VlanRequest) : Right s q ↔ RemovesLast s q := by
  rw [Right, and_iff_right handle_rejected]
  cases q with
  | removeVlan vlanId ifaceType =>
    simp only [VlanRequest.removeVlan.injEq, RemovesLast]
    constructor
    · intro h hold
      have hright := h vlanId ifaceType ⟨rfl, rfl⟩
      simp only [handle, handleRemoveVlan, if_pos hold] at hright
      exact removesRight_iff.mp (hright rfl)
    · rintro h _ _ ⟨rfl, rfl⟩ hok
      by_cases hold : (s.vlans.get (vlanId, ifaceType)).isSome = true
      · simp only [handle, handleRemoveVlan, if_pos hold]
        exact removesRight_iff.mpr (h hold)
      · simp only [handle, handleRemoveVlan, if_neg hold] at hok
        cases hok
  | createVlan | queryVlanInfo | bindVlan | unbindVlan | queryVlanBindings =>
    simp [RemovesLast]

/-- From empty tables, every binding names an existing VLAN and every request does what it should
if and only if no VLAN is removed whose id is bound and still on another interface. -/
theorem binding_integrity_iff (l : List VlanRequest) :
    (Trace.Always step Sound empty l ∧ Trace.AllSteps step Right empty l) ↔
      Trace.AllSteps step RemovesLast empty l := by
  refine Trace.always_and_allSteps_iff (J := fun _ => True) (fun _ _ => rfl)
    (fun _ _ _ _ _ => trivial) ?_ l trivial sound_empty
  intro s q s' _ hs hstep
  obtain rfl : (s.handle q).1 = s' := Option.some.inj hstep
  rw [and_iff_right ((handle_change s q).sound hs)]
  exact right_iff s q

def sharedIdRun : List VlanRequest :=
  [.createVlan 5 .eth none none none none, .createVlan 5 .wlan none none none none,
    .bindVlan 5 .wwan none none none, .removeVlan 5 .wlan]

/-- Removing it from one interface drops the binding of the id that the other still carries. -/
theorem binding_dropped_with_id_left :
    ¬ (Trace.Always step Sound empty sharedIdRun ∧
      Trace.AllSteps step Right empty sharedIdRun) := by
  rintro ⟨-, hright⟩
  have hlast := (right_iff _ _).mp ((((hright.2 _ rfl).2 _ rfl).2 _ rfl).1)
  exact absurd (hlast (by decide) (by decide)) (by decide)

end VlanStore

end TelafSim.Net
