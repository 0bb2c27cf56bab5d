import TelafSim.SimIdentity
import TelafSim.Trace

/-!
# The card that the manager mirrors

The card manager of the PA (`sim/CardManager.cpp`) keeps a copy of the state of the modem's card.
It follows the indications, which nothing retains, and asks with `get_state` each time that it
enters Ready; outside Ready it drops what comes. The modem answers and acts as `SimSubsystem` does,
and all it publishes takes one way. Requests, indications and answers may be lost on it, and an
answer that comes after its timeout is dropped. The layer above is told at each change of the
presence that it has to read the slot status again (`notifyIfPresenceChanged_`), from the moment on
at which the factory has both managers and sets the callback: changes before it are told to nobody.
-/

namespace TelafSim.Newest

variable {α : Type*} {copy a : α} {l l' : List α}

/-- What a copy becomes when the updates, the oldest first, have all replaced it. -/
def newest (copy : α) (l : List α) : α := l.getLast?.getD copy

@[simp] theorem newest_nil : newest copy [] = copy := rfl

@[simp] theorem newest_concat : newest copy (l ++ [a]) = a := by
  simp [newest]

@[simp] theorem newest_cons : newest copy (a :: l) = newest a l := by
  cases l <;> simp [newest, List.getLast?_cons]

theorem newest_append : newest copy (l ++ l') = newest (newest copy l) l' := by
  induction l generalizing copy with
  | nil => rfl
  | cons a l ih => rw [List.cons_append, newest_cons, newest_cons, ih]

end TelafSim.Newest

namespace TelafSim.Sim

inductive Down
  | cardState (cardState : CardState) (appState : AppState)
  | getStateRsp (id : ℕ) (answer : Except RpcError (CardState × AppState))
  | subsysReady (ready : Bool)

inductive CardEvt
  | readinessEvt (available : Bool)
  | bridgeConnectivityChanged (operational : Bool)
  | cardStateEvt (cardState : CardState) (appState : AppState)

structure Mirror where
  modem : SimSubsystem
  wire : List Down
  /-- The requests of `resyncCardState_` on their way, and those whose answer is awaited. -/
  requests : List ℕ
  waiting : List ℕ
  nextId : ℕ
  fifo : List CardEvt
  /-- The chart is in Ready. -/
  ready : Bool
  cardState : CardState
  appState : AppState
  lastPresent : Bool
  /-- `presence_cb_` is set; with the presence that it knows of then, for the statements. -/
  presenceCb : Option Bool
  /-- What the presence callback has been told. -/
  presence : List Bool

def Publication.down : Publication → Option Down
  | .cardState c a => some (.cardState c a)
  | .subsysReadyCard ready => some (.subsysReady ready)
  | _ => none

def cardIsPresent (c : CardState) : Bool := c ≠ .absent ∧ c ≠ .unknown

namespace Mirror

/-- The modem has been started with the card of the configuration. -/
def initial (installedSim : Option SimCard) : Mirror where
  modem := .start installedSim
  wire := (SimSubsystem.start installedSim).published.filterMap Publication.down
  requests := []
  waiting := []
  nextId := 0
  fifo := []
  ready := false
  cardState := .absent
  appState := .unknown
  lastPresent := false
  presenceCb := none
  presence := []

def act (a : Action) (s : Mirror) : Mirror :=
  let modem := s.modem.handle a
  let new := modem.published.drop s.modem.published.length
  { s with modem := modem, wire := s.wire ++ new.filterMap Publication.down }

def resyncCardState (s : Mirror) : Mirror :=
  { s with
    requests := s.requests ++ [s.nextId]
    waiting := s.waiting ++ [s.nextId]
    nextId := s.nextId + 1 }

/-- The modem handles a request of the manager, whose slot is its own. -/
def getState (id : ℕ) (s : Mirror) : Mirror :=
  { s with
    modem := s.modem.handleGetState 1
    requests := s.requests.erase id
    wire := s.wire ++ [.getStateRsp id (if 1 ≠ s.modem.card.slot
      then .error (unsupportedSlot 1 s.modem.card.slot)
      else .ok (s.modem.card.cardState, s.modem.card.appState))] }

def notifyIfPresenceChanged (s : Mirror) : Mirror :=
  let now := cardIsPresent s.cardState
  if now = s.lastPresent then s
  else if s.presenceCb.isSome then
    { s with lastPresent := now, presence := s.presence ++ [now] }
  else { s with lastPresent := now }

/-- The factory sets it once, with the second of the two managers. -/
def setPresenceChangedCb (s : Mirror) : Mirror := { s with presenceCb := some s.lastPresent }

/-- `CardNotReady_St` and `CardReady_St` -/
def dispatch (s : Mirror) : CardEvt → Mirror
  | .readinessEvt available =>
    match s.ready, available with
    | false, true => { s with ready := true }.resyncCardState
    | true, false => { s with ready := false }
    | _, _ => s
  | .bridgeConnectivityChanged operational =>
    if s.ready ∧ operational = false then { s with ready := false } else s
  | .cardStateEvt c a =>
    if s.ready then { s with cardState := c, appState := a }.notifyIfPresenceChanged else s

/-- The bridge hands over an indication, or an answer to the callback of its request. -/
def deliver (s : Mirror) : Down → Mirror
  | .cardState c a => { s with fifo := s.fifo ++ [.cardStateEvt c a] }
  | .subsysReady ready => { s with fifo := s.fifo ++ [.readinessEvt ready] }
  | .getStateRsp id answer =>
    if id ∈ s.waiting then
      match answer with
      | .ok (c, a) =>
        { s with waiting := s.waiting.erase id, fifo := s.fifo ++ [.cardStateEvt c a] }
      | .error _ => { s with waiting := s.waiting.erase id }
    else s

inductive Label
  | act (a : Action)
  | getState (id : ℕ)
  /-- The readiness, retained by the broker, comes once more. -/
  | retained (ready : Bool)
  | deliver
  | connectivity (operational : Bool)
  | take
  | timeout (id : ℕ)
  | loseRequest (id : ℕ)
  | loseDown (i : ℕ)
  | setPresenceChangedCb
  deriving DecidableEq

def step (s : Mirror) : Label → Option Mirror
  | .act a => some (s.act a)
  | .getState id => if id ∈ s.requests then some (s.getState id) else none
  | .retained ready => some { s with wire := s.wire ++ [.subsysReady ready] }
  | .deliver =>
    match s.wire with
    | [] => none
    | d :: wire => some ({ s with wire := wire }.deliver d)
  | .connectivity operational =>
    some { s with fifo := s.fifo ++ [.bridgeConnectivityChanged operational] }
  | .take =>
    match s.fifo with
    | [] => none
    | e :: fifo => some ({ s with fifo := fifo }.dispatch e)
  | .timeout id => if id ∈ s.waiting then some { s with waiting := s.waiting.erase id } else none
  | .loseRequest id =>
    if id ∈ s.requests then some { s with requests := s.requests.erase id } else none
  | .loseDown i => if i < s.wire.length then some { s with wire := s.wire.eraseIdx i } else none
  | .setPresenceChangedCb => if s.presenceCb = none then some s.setPresenceChangedCb else none

/-! ### What is on its way -/

end Mirror

def CardEvt.update : CardEvt → Option (CardState × AppState)
  | .cardStateEvt c a => some (c, a)
  | _ => none

/-- The state that an indication or an awaited answer brings. -/
def Down.update (waiting : List ℕ) : Down → Option (CardState × AppState)
  | .cardState c a => some (c, a)
  | .subsysReady _ => none
  | .getStateRsp id answer => if id ∈ waiting then answer.toOption else none

def Down.id : Down → Option ℕ
  | .getStateRsp id _ => some id
  | _ => none

namespace Mirror

def updates (s : Mirror) : List (CardState × AppState) :=
  s.fifo.filterMap CardEvt.update ++ s.wire.filterMap (Down.update s.waiting)

/-- What the copy becomes when nothing on its way is dropped. -/
def newest (s : Mirror) : CardState × AppState :=
  Newest.newest (s.cardState, s.appState) s.updates

def Mirrors (s : Mirror) : Prop :=
  s.newest = (s.modem.card.cardState, s.modem.card.appState)

/-- A step drops no state that would have been the newest, unless the one before is the same. -/
def KeepsNewest (s : Mirror) : Label → Prop
  | .take => s.ready ∨ { s with fifo := s.fifo.tail }.newest = s.newest
  | .timeout id => { s with waiting := s.waiting.erase id }.newest = s.newest
  | .loseDown i => { s with wire := s.wire.eraseIdx i }.newest = s.newest
  | _ => True

instance (s : Mirror) : ∀ l, Decidable (s.KeepsNewest l)
  | .take => inferInstanceAs (Decidable (_ ∨ _))
  | .timeout _ => inferInstanceAs (Decidable (_ = _))
  | .loseDown _ => inferInstanceAs (Decidable (_ = _))
  | .act _ | .getState _ | .retained _ | .deliver | .connectivity _ | .loseRequest _
  | .setPresenceChangedCb => isTrue trivial

/-! ### The modem -/

section Published

variable {m : SimSubsystem} {l : List Publication}

theorem prefix_publish (h : l <+: m.published) (p : Publication) : l <+: (m.publish p).published :=
  h.trans (List.prefix_append _ _)

theorem prefix_publishIdentity (h : l <+: m.published) (iccid imsi : String) :
    l <+: (m.publishIdentity iccid imsi).published := by
  unfold SimSubsystem.publishIdentity
  split
  · exact h
  · exact h.trans (List.prefix_append _ _)

theorem prefix_setCardAvailable (h : l <+: m.published) (available : Bool) :
    l <+: (m.setCardAvailable available).published := by
  unfold SimSubsystem.setCardAvailable
  dsimp only
  split
  · exact h
  · exact prefix_publishIdentity (by exact h) _ _

theorem prefix_publishCardState (h : l <+: m.published) : l <+: m.publishCardState.published := by
  unfold SimSubsystem.publishCardState
  dsimp only
  split
  · exact prefix_setCardAvailable (prefix_publish h _) _
  · exact prefix_publish h _

theorem prefix_setCardAppState (h : l <+: m.published) (c : CardState) (a : AppState)
    (powerOn : Option Bool) : l <+: (m.setCardAppState c a powerOn).published :=
  prefix_publishCardState (by exact h)

theorem published_handle (m : SimSubsystem) (a : Action) :
    m.published <+: (m.handle a).published := by
  cases a with
  | forceCardState cardState appState =>
    change m.published <+: (m.forceCardState cardState appState).published
    exact prefix_publishCardState (by exact List.prefix_rfl)
  | forcePower powerOn =>
    change m.published <+: (m.forcePower powerOn).published
    exact prefix_publishCardState (by exact List.prefix_rfl)
  | hotswap iccid imsi =>
    change m.published <+: (m.hotswap iccid imsi).published
    have habsent := prefix_setCardAppState (l := m.published)
      (m := (m.setHotswapActive true).setCardInstalled false) List.prefix_rfl .absent .unknown none
    have hinserted := prefix_setCardAppState
      (m := SimSubsystem.setCardInstalled true _) habsent .present .unknown (some true)
    have hready := prefix_setCardAppState hinserted .present .ready none
    exact prefix_publishIdentity (by exact hready) _ _
  | setPower slot powerOn =>
    change m.published <+: (m.handleSetPower slot powerOn).published
    unfold SimSubsystem.handleSetPower
    split
    · exact prefix_publish List.prefix_rfl _
    · exact prefix_publishCardState (prefix_publish (by exact List.prefix_rfl) _)
  | getState slot => exact prefix_publish List.prefix_rfl _
  | getIccid slot => exact prefix_publish List.prefix_rfl _
  | getImsi slot => exact prefix_publish List.prefix_rfl _
  | resubscribe =>
    change m.published <+: m.resubscribe.published
    have hready : m.published <+: m.enterReadyCard.published :=
      prefix_publish (prefix_publishCardState List.prefix_rfl) _
    exact prefix_publish (prefix_publishIdentity (by exact hready) _ _) _

end Published

theorem card_publishCardState (m : SimSubsystem) : m.publishCardState.card = m.card := by
  unfold SimSubsystem.publishCardState
  dsimp only
  split
  · rw [SimSubsystem.card_setCardAvailable]
    rfl
  · rfl

theorem slot_applyPowerState (powerOn : Bool) (c : CardAO) :
    (c.applyPowerState powerOn).slot = c.slot := by
  unfold CardAO.applyPowerState
  split_ifs <;> rfl

theorem slot_force (cardState : Option CardState) (appState : Option AppState) (c : CardAO) :
    (c.force cardState appState).slot = c.slot := by
  unfold CardAO.force
  dsimp only
  split_ifs <;> rfl

theorem slot_handle (m : SimSubsystem) (a : Action) : (m.handle a).card.slot = m.card.slot := by
  cases a with
  | forceCardState cardState appState =>
    change (m.forceCardState cardState appState).card.slot = _
    rw [SimSubsystem.forceCardState, card_publishCardState]
    exact slot_force cardState appState m.card
  | forcePower powerOn =>
    change (m.forcePower powerOn).card.slot = _
    rw [SimSubsystem.forcePower, card_publishCardState]
    exact slot_applyPowerState powerOn m.card
  | hotswap iccid imsi =>
    change (m.hotswap iccid imsi).card.slot = _
    simp only [SimSubsystem.hotswap, SimSubsystem.announce, SimSubsystem.card_publishIdentity,
      SimSubsystem.setHotswapActive, SimSubsystem.setCardAppState, SimSubsystem.setCardInstalled,
      SimSubsystem.onCard, card_publishCardState, CardAO.setState]
  | setPower slot powerOn =>
    change (m.handleSetPower slot powerOn).card.slot = _
    unfold SimSubsystem.handleSetPower
    split
    · rfl
    · rw [card_publishCardState]
      exact slot_applyPowerState _ m.card
  | getState slot => rfl
  | getIccid slot => rfl
  | getImsi slot => rfl
  | resubscribe =>
    change m.resubscribe.card.slot = _
    simp only [SimSubsystem.resubscribe, SimSubsystem.enterReadySub,
      SimSubsystem.publishSubInfoChanged, SimSubsystem.publish, SimSubsystem.card_publishIdentity,
      SimSubsystem.enterReadyCard, card_publishCardState]

/-! ### Steps -/

def asked (s : Mirror) : List ℕ := s.requests ++ s.wire.filterMap Down.id

/-- The modem is between actions, and each request is asked once. -/
structure Wired (s : Mirror) : Prop where
  settled : ∃ identity, s.modem.Settled identity
  slot : s.modem.card.slot = 1
  fresh : ∀ id ∈ s.asked, id < s.nextId
  once : s.asked.Nodup

section Steps

variable {s t : Mirror}

theorem filterMap_down_id (l : List Publication) :
    (l.filterMap Publication.down).filterMap Down.id = [] := by
  rw [List.filterMap_filterMap, List.filterMap_eq_nil_iff]
  intro p _
  cases p <;> rfl

theorem filterMap_down_update (waiting : List ℕ) (l : List Publication) :
    (l.filterMap Publication.down).filterMap (Down.update waiting) =
      l.filterMap Publication.asCardState := by
  rw [List.filterMap_filterMap]
  apply List.filterMap_congr
  intro p _
  cases p <;> rfl

theorem wired_initial (installedSim : Option SimCard) : (initial installedSim).Wired where
  settled := ⟨_, SimSubsystem.settled_start installedSim⟩
  slot := by
    simp only [initial, SimSubsystem.start, SimSubsystem.onCard,
      SimSubsystem.card_setCardAvailable, SimSubsystem.enterReadySub,
      SimSubsystem.publishSubInfoChanged, SimSubsystem.publish, SimSubsystem.card_publishIdentity,
      SimSubsystem.enterReadyCard, card_publishCardState, CardAO.init]
  fresh := by simp [asked, initial, filterMap_down_id]
  once := by simp [asked, initial, filterMap_down_id]

theorem Wired.act (h : s.Wired) (a : Action) : (s.act a).Wired where
  settled := by
    obtain ⟨identity, hsettled⟩ := h.settled
    exact ⟨_, SimSubsystem.settled_handle hsettled a⟩
  slot := (slot_handle s.modem a).trans h.slot
  fresh := by simpa [asked, Mirror.act, filterMap_down_id] using h.fresh
  once := by simpa [asked, Mirror.act, filterMap_down_id] using h.once

/-- The states that an action publishes end with the new one, and where it publishes none the state
is the old one. -/
theorem newest_act (h : s.Wired) (hs : s.Mirrors) (a : Action) : (s.act a).Mirrors := by
  obtain ⟨identity, hsettled⟩ := h.settled
  obtain ⟨new, hnew⟩ := published_handle s.modem a
  have hlast := (SimSubsystem.settled_handle hsettled a).shown
  rw [← hnew] at hlast
  have hdrop : (s.modem.handle a).published.drop s.modem.published.length = new := by
    rw [← hnew, List.drop_left]
  have hupdates : (s.act a).updates = s.updates ++ new.filterMap Publication.asCardState := by
    simp only [updates, Mirror.act, hdrop, List.filterMap_append, filterMap_down_update,
      List.append_assoc]
  unfold Mirrors newest at hs ⊢
  rw [hupdates, Newest.newest_append]
  change Newest.newest (Newest.newest (s.cardState, s.appState) s.updates) _ = _
  rw [hs]
  rcases List.eq_nil_or_concat (new.filterMap Publication.asCardState) with hnil | ⟨l, u, hl⟩
  · have hold := hsettled.shown
    rw [hnil, Newest.newest_nil]
    rw [lastCardState, List.filterMap_append, hnil, List.append_nil] at hlast
    exact Option.some.inj (hold.symm.trans hlast)
  · rw [hl, List.concat_eq_append, Newest.newest_concat]
    rw [lastCardState, List.filterMap_append, hl, List.concat_eq_append, ← List.append_assoc,
      List.getLast?_concat] at hlast
    exact Option.some.inj hlast

theorem Wired.getState (h : s.Wired) {id : ℕ} (hid : id ∈ s.requests) :
    (s.getState id).Wired where
  settled := by
    obtain ⟨identity, hsettled⟩ := h.settled
    exact ⟨identity, hsettled.publish rfl rfl⟩
  slot := h.slot
  fresh := by
    intro id' hmem
    apply h.fresh
    simp only [asked, Mirror.getState, List.filterMap_append, List.mem_append] at hmem ⊢
    rcases hmem with hmem | hmem | hmem
    · exact Or.inl (List.mem_of_mem_erase hmem)
    · exact Or.inr hmem
    · simp only [List.filterMap_cons, Down.id, List.filterMap_nil, List.mem_singleton] at hmem
      exact Or.inl (hmem ▸ hid)
  once := by
    have hperm : (s.getState id).asked.Perm s.asked := by
      simp only [asked, Mirror.getState, List.filterMap_append, List.filterMap_cons, Down.id,
        List.filterMap_nil]
      rw [← List.append_assoc]
      refine (List.perm_append_singleton _ _).trans ?_
      rw [← List.cons_append]
      exact (List.perm_cons_erase hid).symm.append_right _
    exact hperm.nodup_iff.mpr h.once

theorem mirrors_getState (h : s.Wired) {id : ℕ} (hwait : id ∈ s.waiting) :
    (s.getState id).Mirrors := by
  simp [Mirrors, newest, updates, Mirror.getState, h.slot, Down.update, hwait, Except.toOption,
    ← List.append_assoc, SimSubsystem.handleGetState, SimSubsystem.publish]

theorem newest_getState {id : ℕ} (hwait : id ∉ s.waiting) : (s.getState id).newest = s.newest := by
  simp [newest, updates, Mirror.getState, Down.update, hwait]

theorem Wired.of_sublist (h : s.Wired) (hmodem : t.modem = s.modem)
    (hasked : t.asked.Sublist s.asked) (hnext : t.nextId = s.nextId) : t.Wired where
  settled := by
    rw [hmodem]
    exact h.settled
  slot := by
    rw [hmodem]
    exact h.slot
  fresh := by
    intro id hid
    rw [hnext]
    exact h.fresh id (hasked.subset hid)
  once := h.once.sublist hasked

/-- Who is awaited matters only for the answers on their way. -/
theorem filterMap_update_congr {waiting waiting' : List ℕ} {wire : List Down}
    (h : ∀ id ∈ wire.filterMap Down.id, id ∈ waiting ↔ id ∈ waiting') :
    wire.filterMap (Down.update waiting) = wire.filterMap (Down.update waiting') := by
  apply List.filterMap_congr
  intro d hd
  cases d with
  | cardState c a => rfl
  | subsysReady ready => rfl
  | getStateRsp id answer =>
    have hid := h id (List.mem_filterMap.mpr ⟨_, hd, rfl⟩)
    simp [Down.update, hid]

theorem Wired.resyncCardState (h : s.Wired) : s.resyncCardState.Wired where
  settled := h.settled
  slot := h.slot
  fresh := by
    intro id hid
    have hmem : id ∈ s.asked ∨ id = s.nextId := by
      simp only [asked, Mirror.resyncCardState, List.mem_append, List.mem_singleton] at hid ⊢
      tauto
    change id < s.nextId + 1
    rcases hmem with hmem | rfl
    · have := h.fresh id hmem
      omega
    · omega
  once := by
    have hnot : s.nextId ∉ s.asked := fun hmem => lt_irrefl _ (h.fresh _ hmem)
    have hperm : s.resyncCardState.asked.Perm (s.nextId :: s.asked) := by
      simp only [asked, Mirror.resyncCardState, List.append_assoc]
      exact List.perm_middle
    exact hperm.nodup_iff.mpr (List.nodup_cons.mpr ⟨hnot, h.once⟩)

theorem newest_resyncCardState (h : s.Wired) : s.resyncCardState.newest = s.newest := by
  have hwire : s.wire.filterMap (Down.update (s.waiting ++ [s.nextId])) =
      s.wire.filterMap (Down.update s.waiting) := by
    apply filterMap_update_congr
    intro id hid
    have hlt : id < s.nextId := h.fresh id (List.mem_append_right _ hid)
    simp only [List.mem_append, List.mem_singleton]
    constructor
    · rintro (hmem | rfl)
      · exact hmem
      · omega
    · exact Or.inl
  simp only [newest, updates, Mirror.resyncCardState, hwire]

theorem Wired.not_mem_wire (h : s.Wired) {id : ℕ} {answer : Except RpcError (CardState × AppState)}
    {wire : List Down} (hwire : s.wire = .getStateRsp id answer :: wire) :
    id ∉ wire.filterMap Down.id := by
  have honce := (List.nodup_append.mp h.once).2.1
  rw [hwire, List.filterMap_cons] at honce
  exact (List.nodup_cons.mp honce).1

/-- An answer that is taken from the awaited ones is the only one to its request. -/
theorem Wired.filterMap_erase (h : s.Wired) {id : ℕ}
    {answer : Except RpcError (CardState × AppState)} {wire : List Down}
    (hwire : s.wire = .getStateRsp id answer :: wire) :
    wire.filterMap (Down.update (s.waiting.erase id)) = wire.filterMap (Down.update s.waiting) := by
  apply filterMap_update_congr
  intro id' hid'
  have hne : id' ≠ id := by
    rintro rfl
    exact h.not_mem_wire hwire hid'
  exact List.mem_erase_of_ne hne

theorem deliver_spec (h : s.Wired) {d : Down} {wire : List Down} (hwire : s.wire = d :: wire) :
    ({ s with wire := wire }.deliver d).Wired ∧
      ({ s with wire := wire }.deliver d).modem = s.modem ∧
      ({ s with wire := wire }.deliver d).newest = s.newest := by
  have hsub : (s.requests ++ wire.filterMap Down.id).Sublist s.asked := by
    unfold asked
    rw [hwire]
    exact ((List.sublist_cons_self d wire).filterMap Down.id).append_left _
  cases d with
  | cardState c a =>
    refine ⟨h.of_sublist rfl hsub rfl, rfl, ?_⟩
    simp [newest, updates, Mirror.deliver, hwire, Down.update, CardEvt.update]
  | subsysReady ready =>
    refine ⟨h.of_sublist rfl hsub rfl, rfl, ?_⟩
    simp [newest, updates, Mirror.deliver, hwire, Down.update, CardEvt.update,
      List.filterMap_cons]
  | getStateRsp id answer =>
    have herase := h.filterMap_erase hwire
    unfold Mirror.deliver
    dsimp only
    split
    · next hwait =>
      cases answer with
      | ok u =>
        refine ⟨h.of_sublist rfl hsub rfl, rfl, ?_⟩
        simp [newest, updates, hwire, Down.update, CardEvt.update, hwait, herase, Except.toOption]
      | error e =>
        refine ⟨h.of_sublist rfl hsub rfl, rfl, ?_⟩
        simp [newest, updates, hwire, Down.update, hwait, herase, Except.toOption]
    · next hwait =>
      refine ⟨h.of_sublist rfl hsub rfl, rfl, ?_⟩
      simp [newest, updates, hwire, Down.update, hwait]

theorem notifyIfPresenceChanged_eq : ∃ lastPresent presence, s.notifyIfPresenceChanged =
    { s with lastPresent := lastPresent, presence := presence } := by
  unfold notifyIfPresenceChanged
  dsimp only
  split
  · exact ⟨s.lastPresent, s.presence, rfl⟩
  · split
    · exact ⟨_, _, rfl⟩
    · exact ⟨_, s.presence, rfl⟩

theorem dispatch_spec (h : s.Wired) (e : CardEvt) :
    (s.dispatch e).Wired ∧ (s.dispatch e).modem = s.modem ∧ (s.dispatch e).newest =
      if s.ready then ({ s with fifo := e :: s.fifo } : Mirror).newest else s.newest := by
  obtain ⟨modem, wire, requests, waiting, nextId, fifo, ready, cardState, appState, lastPresent,
    presenceCb, presence⟩ := s
  cases e with
  | readinessEvt available =>
    cases ready <;> cases available
    · exact ⟨h, rfl, rfl⟩
    · have hready : Mirror.Wired ⟨modem, wire, requests, waiting, nextId, fifo, true, cardState,
        appState, lastPresent, presenceCb, presence⟩ := { h with }
      exact ⟨hready.resyncCardState, rfl, newest_resyncCardState hready⟩
    · exact ⟨{ h with }, rfl, rfl⟩
    · exact ⟨h, rfl, rfl⟩
  | bridgeConnectivityChanged operational =>
    cases ready <;> cases operational
    · exact ⟨h, rfl, rfl⟩
    · exact ⟨h, rfl, rfl⟩
    · exact ⟨{ h with }, rfl, rfl⟩
    · exact ⟨h, rfl, rfl⟩
  | cardStateEvt c a =>
    cases ready with
    | false => exact ⟨h, rfl, rfl⟩
    | true =>
      obtain ⟨lastPresent', presence', heq⟩ := notifyIfPresenceChanged_eq
        (s := ⟨modem, wire, requests, waiting, nextId, fifo, true, c, a, lastPresent, presenceCb,
          presence⟩)
      simp only [Mirror.dispatch, if_true, heq]
      refine ⟨{ h with }, trivial, ?_⟩
      simp [newest, updates, CardEvt.update]

theorem mirrors_iff (hmodem : t.modem = s.modem) (hs : s.Mirrors) :
    t.Mirrors ↔ t.newest = s.newest := by
  unfold Mirrors at hs ⊢
  rw [hmodem, hs]

theorem wired_step {l : Label} (h : s.Wired) (hstep : step s l = some t) : t.Wired := by
  cases l with
  | act a =>
    obtain rfl := Option.some.inj hstep
    exact h.act a
  | getState id =>
    obtain ⟨hid, ⟨⟩⟩ := Option.ite_none_right_eq_some.mp hstep
    exact h.getState hid
  | retained ready =>
    obtain rfl := Option.some.inj hstep
    refine h.of_sublist rfl ?_ rfl
    simp [asked, Down.id]
  | deliver =>
    cases hwire : s.wire with
    | nil => simp [step, hwire] at hstep
    | cons d wire =>
      simp only [step, hwire, Option.some.injEq] at hstep
      exact hstep ▸ (deliver_spec h hwire).1
  | connectivity operational =>
    obtain rfl := Option.some.inj hstep
    exact { h with }
  | take =>
    cases hfifo : s.fifo with
    | nil => simp [step, hfifo] at hstep
    | cons e fifo =>
      simp only [step, hfifo, Option.some.injEq] at hstep
      exact hstep ▸ (dispatch_spec (s := { s with fifo := fifo }) { h with } e).1
  | timeout id =>
    obtain ⟨-, ⟨⟩⟩ := Option.ite_none_right_eq_some.mp hstep
    exact { h with }
  | loseRequest id =>
    obtain ⟨-, ⟨⟩⟩ := Option.ite_none_right_eq_some.mp hstep
    exact h.of_sublist rfl (List.erase_sublist.append_right _) rfl
  | loseDown i =>
    obtain ⟨-, ⟨⟩⟩ := Option.ite_none_right_eq_some.mp hstep
    exact h.of_sublist rfl (((List.eraseIdx_sublist s.wire i).filterMap _).append_left _) rfl
  | setPresenceChangedCb =>
    obtain ⟨-, ⟨⟩⟩ := Option.ite_none_right_eq_some.mp hstep
    exact { h with }

theorem mirrors_step {l : Label} (h : s.Wired) (hs : s.Mirrors) (hstep : step s l = some t) :
    KeepsNewest s l ↔ t.Mirrors := by
  cases l with
  | act a =>
    obtain rfl := Option.some.inj hstep
    exact iff_of_true trivial (newest_act h hs a)
  | getState id =>
    obtain ⟨-, ⟨⟩⟩ := Option.ite_none_right_eq_some.mp hstep
    refine iff_of_true trivial ?_
    by_cases hwait : id ∈ s.waiting
    · exact mirrors_getState h hwait
    · exact (newest_getState hwait).trans hs
  | retained ready =>
    obtain rfl := Option.some.inj hstep
    refine iff_of_true trivial ((mirrors_iff (by rfl) hs).mpr ?_)
    simp [newest, updates, Down.update, List.filterMap_cons]
  | deliver =>
    cases hwire : s.wire with
    | nil => simp [step, hwire] at hstep
    | cons d wire =>
      simp only [step, hwire, Option.some.injEq] at hstep
      obtain ⟨-, hmodem, hnewest⟩ := deliver_spec h hwire
      subst hstep
      exact iff_of_true trivial ((mirrors_iff hmodem hs).mpr hnewest)
  | connectivity operational =>
    obtain rfl := Option.some.inj hstep
    refine iff_of_true trivial ((mirrors_iff (by rfl) hs).mpr ?_)
    simp [newest, updates, CardEvt.update, List.filterMap_cons]
  | take =>
    cases hfifo : s.fifo with
    | nil => simp [step, hfifo] at hstep
    | cons e fifo =>
      simp only [step, hfifo, Option.some.injEq] at hstep
      obtain ⟨-, hmodem, hnewest⟩ := dispatch_spec (s := { s with fifo := fifo }) { h with } e
      subst hstep
      rw [mirrors_iff (s := s) hmodem hs, hnewest, KeepsNewest, hfifo, List.tail_cons]
      have hwhole : ({ s with fifo := e :: fifo } : Mirror) = s := by rw [← hfifo]
      by_cases hready : s.ready = true
      · rw [if_pos hready, hwhole]
        exact iff_of_true (Or.inl hready) rfl
      · rw [if_neg hready]
        exact or_iff_right hready
  | timeout id =>
    obtain ⟨-, ⟨⟩⟩ := Option.ite_none_right_eq_some.mp hstep
    exact (mirrors_iff (by rfl) hs).symm
  | loseRequest id =>
    obtain ⟨-, ⟨⟩⟩ := Option.ite_none_right_eq_some.mp hstep
    exact iff_of_true trivial ((mirrors_iff (by rfl) hs).mpr rfl)
  | loseDown i =>
    obtain ⟨-, ⟨⟩⟩ := Option.ite_none_right_eq_some.mp hstep
    exact (mirrors_iff (by rfl) hs).symm
  | setPresenceChangedCb =>
    obtain ⟨-, ⟨⟩⟩ := Option.ite_none_right_eq_some.mp hstep
    exact iff_of_true trivial ((mirrors_iff (by rfl) hs).mpr rfl)

/-! ### The presence -/

/-- Since it was set the presence callback has been told each change of the presence, and nothing
else. -/
structure Noted (s : Mirror) : Prop where
  last : ∀ b, s.presenceCb = some b → (b :: s.presence).getLast? = some s.lastPresent
  changes : ∀ b, s.presenceCb = some b → (b :: s.presence).IsChain (· ≠ ·)
  unset : s.presenceCb = none → s.presence = []
  now : s.lastPresent = cardIsPresent s.cardState

theorem noted_initial (installedSim : Option SimCard) : (initial installedSim).Noted where
  last := by
    intro b hb
    cases hb
  changes := by
    intro b hb
    cases hb
  unset := fun _ => rfl
  now := rfl

theorem Noted.notifyIfPresenceChanged (h : s.Noted) (c : CardState) (a : AppState) :
    ({ s with cardState := c, appState := a } : Mirror).notifyIfPresenceChanged.Noted := by
  unfold Mirror.notifyIfPresenceChanged
  dsimp only
  split
  · next hsame => exact { h with now := hsame.symm }
  · next hdiff =>
    split
    · next hset =>
      exact
        { last := by
            intro b _
            rw [← List.cons_append, List.getLast?_concat]
          changes := by
            intro b hb
            rw [← List.cons_append, List.isChain_append]
            refine ⟨h.changes b hb, List.isChain_singleton _, ?_⟩
            intro x hx y hy
            rw [h.last b hb] at hx
            obtain rfl := Option.some.inj hx
            obtain rfl := Option.some.inj hy
            exact fun heq => hdiff heq.symm
          unset := by
            intro hnone
            rw [hnone] at hset
            cases hset
          now := rfl }
    · next hunset =>
      have hnone : s.presenceCb = none := by simpa using hunset
      exact
        { last := by
            intro b hb
            rw [hnone] at hb
            cases hb
          changes := h.changes
          unset := h.unset
          now := rfl }

theorem Noted.setPresenceChangedCb (h : s.Noted) (hnone : s.presenceCb = none) :
    s.setPresenceChangedCb.Noted where
  last := by
    rintro b ⟨⟩
    change (s.lastPresent :: s.presence).getLast? = some s.lastPresent
    rw [h.unset hnone]
    rfl
  changes := by
    rintro b ⟨⟩
    change (s.lastPresent :: s.presence).IsChain (· ≠ ·)
    rw [h.unset hnone]
    exact List.isChain_singleton _
  unset := by
    intro hset
    cases hset
  now := h.now

theorem Noted.dispatch (h : s.Noted) (e : CardEvt) : (s.dispatch e).Noted := by
  obtain ⟨modem, wire, requests, waiting, nextId, fifo, ready, cardState, appState, lastPresent,
    presenceCb, presence⟩ := s
  cases e with
  | readinessEvt available => cases ready <;> cases available <;> exact { h with }
  | bridgeConnectivityChanged operational =>
    cases ready <;> cases operational <;> exact { h with }
  | cardStateEvt c a =>
    cases ready with
    | false => exact h
    | true => exact h.notifyIfPresenceChanged c a

theorem noted_deliver (h : s.Noted) (d : Down) : (s.deliver d).Noted := by
  cases d with
  | cardState c a => exact { h with }
  | subsysReady ready => exact { h with }
  | getStateRsp id answer =>
    unfold Mirror.deliver
    dsimp only
    split
    · cases answer <;> exact { h with }
    · exact h

theorem noted_step {l : Label} (h : s.Noted) (hstep : step s l = some t) : t.Noted := by
  cases l with
  | act a =>
    obtain rfl := Option.some.inj hstep
    exact { h with }
  | getState id =>
    obtain ⟨-, ⟨⟩⟩ := Option.ite_none_right_eq_some.mp hstep
    exact { h with }
  | retained ready =>
    obtain rfl := Option.some.inj hstep
    exact { h with }
  | deliver =>
    cases hwire : s.wire with
    | nil => simp [step, hwire] at hstep
    | cons d wire =>
      simp only [step, hwire, Option.some.injEq] at hstep
      exact hstep ▸ noted_deliver (s := { s with wire := wire }) { h with } d
  | connectivity operational =>
    obtain rfl := Option.some.inj hstep
    exact { h with }
  | take =>
    cases hfifo : s.fifo with
    | nil => simp [step, hfifo] at hstep
    | cons e fifo =>
      simp only [step, hfifo, Option.some.injEq] at hstep
      exact hstep ▸ Noted.dispatch (s := { s with fifo := fifo }) { h with } e
  | timeout id =>
    obtain ⟨-, ⟨⟩⟩ := Option.ite_none_right_eq_some.mp hstep
    exact { h with }
  | loseRequest id =>
    obtain ⟨-, ⟨⟩⟩ := Option.ite_none_right_eq_some.mp hstep
    exact { h with }
  | loseDown i =>
    obtain ⟨-, ⟨⟩⟩ := Option.ite_none_right_eq_some.mp hstep
    exact { h with }
  | setPresenceChangedCb =>
    obtain ⟨hnone, ⟨⟩⟩ := Option.ite_none_right_eq_some.mp hstep
    exact h.setPresenceChangedCb hnone

end Steps

section Runs

variable {installedSim : Option SimCard} {ls₀ ls : List Label} {s₀ s : Mirror}

theorem wired_run (hrun : Trace.run step (initial installedSim) ls₀ = some s₀) : s₀.Wired :=
  Trace.run_invariant (fun _ _ _ h hstep => wired_step h hstep) hrun (wired_initial installedSim)

/-- From a state in which the manager has, or is to have, the state of the card, that stays so if
and only if no step drops the newest state on its way. In every run the presence callback is told
nothing before it is set, and from then on each change of the presence once, last the presence of
the copy. -/
theorem mirrored_run (hrun₀ : Trace.run step (initial installedSim) ls₀ = some s₀)
    (hs₀ : s₀.Mirrors) (hrun : Trace.run step s₀ ls = some s) :
    (Trace.Always step Mirrors s₀ ls ↔ Trace.AllSteps step KeepsNewest s₀ ls) ∧
    (s.presenceCb = none → s.presence = []) ∧
    (∀ b, s.presenceCb = some b → (b :: s.presence).IsChain (· ≠ ·) ∧
      (b :: s.presence).getLast? = some (cardIsPresent s.cardState)) := by
  have hnoted₀ : s₀.Noted :=
    Trace.run_invariant (fun _ _ _ h hstep => noted_step h hstep) hrun₀
      (noted_initial installedSim)
  have hnoted : s.Noted :=
    Trace.run_invariant (fun _ _ _ h hstep => noted_step h hstep) hrun hnoted₀
  refine ⟨?_, hnoted.unset, ?_⟩
  · exact Trace.always_iff_allSteps (fun _ _ _ h hstep => wired_step h hstep)
      (fun _ _ _ h hs hstep => mirrors_step h hs hstep) hrun (wired_run hrun₀) hs₀
  · intro b hb
    rw [← hnoted.now]
    exact ⟨hnoted.changes b hb, hnoted.last b hb⟩

/-- After the modem has answered an awaited request, whatever was lost before, the copy of the
manager is the state of the card as soon as nothing is on its way, if no step since has dropped the
newest state. -/
theorem resynced_run {id : ℕ} (hrun₀ : Trace.run step (initial installedSim) ls₀ = some s₀)
    (hwait : id ∈ s₀.waiting) (hrun : Trace.run step s₀ (.getState id :: ls) = some s)
    (hkept : Trace.AllSteps step KeepsNewest s₀ (.getState id :: ls)) (hrest : s.updates = []) :
    s.cardState = s.modem.card.cardState ∧ s.appState = s.modem.card.appState := by
  have hwired := wired_run hrun₀
  obtain ⟨s₁, hstep, hrun₁⟩ := (Trace.run_cons_eq_some step).mp hrun
  have hanswer := hstep
  obtain ⟨-, ⟨⟩⟩ := Option.ite_none_right_eq_some.mp hanswer
  have hinv := Trace.run_invariant_of (I := fun s => s.Wired ∧ s.Mirrors) ?_ (hkept.2 _ hstep)
    hrun₁ ⟨wired_step hwired hstep, mirrors_getState hwired hwait⟩
  · have hnewest := hinv.2
    rw [Mirrors, newest, hrest, Newest.newest_nil] at hnewest
    exact Prod.mk.inj hnewest
  · rintro s l t ⟨hw, hs⟩ hok hstep
    exact ⟨wired_step hw hstep, (mirrors_step hw hs hstep).mp hok⟩

def startRun : List Label := [.deliver, .deliver, .take, .take]

def powerRun : List Label :=
  [.getState 0, .act (.forcePower false), .deliver, .take, .deliver, .take]

theorem resynced_power : ∃ s₀ s, Trace.run step (initial (some ⟨"1", "2"⟩)) startRun = some s₀ ∧
    Trace.run step s₀ powerRun = some s ∧ s₀.cardState = .absent ∧
    s.cardState = .present ∧ s.cardState = s.modem.card.cardState := by
  obtain ⟨s₀, hrun₀, habsent, hwait, s, hrun, hkept, hrest, hpresent⟩ :
      ∃ s₀, Trace.run step (initial (some ⟨"1", "2"⟩)) startRun = some s₀ ∧
        s₀.cardState = .absent ∧ 0 ∈ s₀.waiting ∧ ∃ s, Trace.run step s₀ powerRun = some s ∧
        Trace.AllSteps step KeepsNewest s₀ powerRun ∧ s.updates = [] ∧ s.cardState = .present :=
    ⟨_, rfl, rfl, by decide, _, rfl, by decide, rfl, rfl⟩
  exact ⟨s₀, s, hrun₀, hrun, habsent, hpresent, (resynced_run hrun₀ hwait hrun hkept hrest).1⟩

/-- The card is there before the callback is set; then it is taken out and put in again. -/
def presenceRun : List Label :=
  [.getState 0, .deliver, .take, .setPresenceChangedCb, .act (.forceCardState (some .absent) none),
    .deliver, .take, .act (.forceCardState (some .present) none), .deliver, .take]

theorem mirrored_presence : ∃ s₀ s, Trace.run step (initial (some ⟨"1", "2"⟩)) [] = some s₀ ∧
    Trace.run step s₀ (startRun ++ presenceRun) = some s ∧
    ¬ Trace.Always step Mirrors s₀ (startRun ++ presenceRun) ∧
    s.presence = [false, true] ∧ [true, false, true].IsChain (· ≠ ·) ∧
    cardIsPresent s.cardState = true := by
  obtain ⟨s₀, hrun₀, hmirrors, s, hrun, hset, hpresence, hdrops⟩ :
      ∃ s₀, Trace.run step (initial (some ⟨"1", "2"⟩)) [] = some s₀ ∧ s₀.Mirrors ∧
        ∃ s, Trace.run step s₀ (startRun ++ presenceRun) = some s ∧ s.presenceCb = some true ∧
        s.presence = [false, true] ∧
        ¬ Trace.AllSteps step KeepsNewest s₀ (startRun ++ presenceRun) :=
    ⟨_, rfl, rfl, _, rfl, rfl, rfl, by decide⟩
  obtain ⟨hiff, -, htold⟩ := mirrored_run hrun₀ hmirrors hrun
  obtain ⟨hchain, hlast⟩ := htold true hset
  rw [hpresence] at hchain hlast
  exact ⟨s₀, s, hrun₀, hrun, fun halways => hdrops (hiff.mp halways), hpresence, hchain,
    (Option.some.inj hlast).symm⟩

end Runs

end Mirror

end TelafSim.Sim
