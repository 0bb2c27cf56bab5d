import Mathlib.Tactic

/-!
# The SIM slot of the modem

`SimSubsystem` of `sml/mpss/sim` once it is started: the card of `card.py`, the subscription of
`subscription.py` that hides the identity of a card that cannot be read, and the actions of
`action_dispatcher.py`. A request or an action is one that has passed its schema. All that is
published is kept, the oldest first.
-/

namespace TelafSim.Sim

inductive CardState
  | absent
  | present
  | error
  | restricted
  | unknown
  deriving DecidableEq, Repr

inductive AppState
  | ready
  | illegal
  | unknown
  deriving DecidableEq, Repr

/-- The installed card of the configuration. -/
structure SimCard where
  iccid : String
  imsi : String
  deriving DecidableEq, Repr

structure CardAO where
  slot : ℤ
  cardInstalled : Bool
  cardState : CardState
  appState : AppState
  powerOn : Bool
  /-- The observer of the card is registered. -/
  stateChangedCb : Bool
  deriving DecidableEq, Repr

structure SubscriptionAO where
  slot : ℤ
  iccid : String
  imsi : String
  cardAvailable : Bool
  lastPublished : Option (String × String)
  hotswapActive : Bool
  deriving DecidableEq, Repr

structure RpcError where
  code : String
  detail : String
  deriving DecidableEq, Repr

inductive Publication
  | cardState (cardState : CardState) (appState : AppState)
  | subInfoChanged (iccid imsi : String)
  | subsysReadyCard (ready : Bool)
  | subsysReadySub (ready : Bool)
  | getStateRsp (answer : Except RpcError (CardState × AppState))
  | setPowerRsp (answer : Except RpcError Unit)
  | getIccidRsp (answer : Except RpcError String)
  | getImsiRsp (answer : Except RpcError String)

def Publication.asCardState : Publication → Option (CardState × AppState)
  | .cardState c a => some (c, a)
  | _ => none

def Publication.asSubInfo : Publication → Option (String × String)
  | .subInfoChanged iccid imsi => some (iccid, imsi)
  | _ => none

structure SimSubsystem where
  card : CardAO
  subscription : SubscriptionAO
  published : List Publication

/-! ### The card -/

namespace CardAO

def init (iccid imsi : String) : CardAO :=
  let installed := iccid ≠ "" ∨ imsi ≠ ""
  { slot := 1
    cardInstalled := installed
    cardState := if installed then .present else .absent
    appState := if installed then .ready else .unknown
    powerOn := true
    stateChangedCb := false }

def identityAvailable (c : CardAO) : Bool := c.cardState = .present ∧ c.appState = .ready

/-- Presence does not depend on the power rail. -/
def applyPowerState (powerOn : Bool) (c : CardAO) : CardAO :=
  if c.cardInstalled = false then
    { c with powerOn := powerOn, cardState := .absent, appState := .unknown }
  else if powerOn then
    { c with powerOn := powerOn, cardState := .present, appState := .ready }
  else
    { c with powerOn := powerOn, cardState := .present, appState := .unknown }

def force (cardState : Option CardState) (appState : Option AppState) (c : CardAO) : CardAO :=
  let c := { c with cardState := cardState.getD c.cardState, appState := appState.getD c.appState }
  if c.appState = .ready ∧ c.cardState = .present then { c with powerOn := true } else c

def setState (cardState : CardState) (appState : AppState) (powerOn : Option Bool) (c : CardAO) :
    CardAO :=
  { c with cardState := cardState, appState := appState, powerOn := powerOn.getD c.powerOn }

@[simp] theorem applyPowerState_stateChangedCb (powerOn : Bool) (c : CardAO) :
    (c.applyPowerState powerOn).stateChangedCb = c.stateChangedCb := by
  unfold applyPowerState
  split_ifs <;> rfl

@[simp] theorem force_stateChangedCb (cardState : Option CardState) (appState : Option AppState)
    (c : CardAO) : (c.force cardState appState).stateChangedCb = c.stateChangedCb := by
  unfold force
  dsimp only
  split_ifs <;> rfl

end CardAO

/-! ### The subscription -/

namespace SubscriptionAO

def init (iccid imsi : String) : SubscriptionAO :=
  ⟨1, iccid, imsi, true, none, false⟩

def visibleIccid (a : SubscriptionAO) : String := if a.cardAvailable then a.iccid else ""

def visibleImsi (a : SubscriptionAO) : String := if a.cardAvailable then a.imsi else ""

end SubscriptionAO

def unsupportedSlot (slot ownSlot : ℤ) : RpcError :=
  ⟨"INVALID_PARAMETER",
    s!"slot {slot} not supported; this simulation models slot {ownSlot} only"⟩

namespace SimSubsystem

def publish (p : Publication) (s : SimSubsystem) : SimSubsystem :=
  { s with published := s.published ++ [p] }

def onCard (f : CardAO → CardAO) (s : SimSubsystem) : SimSubsystem := { s with card := f s.card }

/-- What was sent last is not sent again. -/
def publishIdentity (iccid imsi : String) (s : SimSubsystem) : SimSubsystem :=
  if s.subscription.lastPublished = some (iccid, imsi) then s
  else publish (.subInfoChanged iccid imsi)
    { s with subscription := { s.subscription with lastPublished := some (iccid, imsi) } }

def publishSubInfoChanged (s : SimSubsystem) : SimSubsystem :=
  s.publishIdentity s.subscription.visibleIccid s.subscription.visibleImsi

/-- Silent while a swap is under way. -/
def setCardAvailable (available : Bool) (s : SimSubsystem) : SimSubsystem :=
  let s := { s with subscription := { s.subscription with cardAvailable := available } }
  if s.subscription.hotswapActive then s else s.publishSubInfoChanged

def publishCardState (s : SimSubsystem) : SimSubsystem :=
  let s := s.publish (.cardState s.card.cardState s.card.appState)
  if s.card.stateChangedCb then s.setCardAvailable s.card.identityAvailable else s

def enterReadyCard (s : SimSubsystem) : SimSubsystem :=
  s.publishCardState.publish (.subsysReadyCard true)

def enterReadySub (s : SimSubsystem) : SimSubsystem :=
  s.publishSubInfoChanged.publish (.subsysReadySub true)

/-- Both objects are started before the one observes the other. -/
def start (installedSim : Option SimCard) : SimSubsystem :=
  let iccid := (installedSim.map SimCard.iccid).getD ""
  let imsi := (installedSim.map SimCard.imsi).getD ""
  let s : SimSubsystem := ⟨.init iccid imsi, .init iccid imsi, []⟩
  let s := s.enterReadyCard.enterReadySub
  let s := s.setCardAvailable s.card.identityAvailable
  s.onCard (fun c => { c with stateChangedCb := true })

def forceCardState (cardState : Option CardState) (appState : Option AppState)
    (s : SimSubsystem) : SimSubsystem :=
  (s.onCard (CardAO.force cardState appState)).publishCardState

def forcePower (powerOn : Bool) (s : SimSubsystem) : SimSubsystem :=
  (s.onCard (CardAO.applyPowerState powerOn)).publishCardState

def setCardAppState (cardState : CardState) (appState : AppState) (powerOn : Option Bool)
    (s : SimSubsystem) : SimSubsystem :=
  (s.onCard (CardAO.setState cardState appState powerOn)).publishCardState

def setCardInstalled (installed : Bool) (s : SimSubsystem) : SimSubsystem :=
  s.onCard (fun c => { c with cardInstalled := installed })

def setHotswapActive (active : Bool) (s : SimSubsystem) : SimSubsystem :=
  { s with subscription := { s.subscription with hotswapActive := active } }

/-- `SubscriptionAO.hotswap` -/
def announce (iccid imsi : String) (s : SimSubsystem) : SimSubsystem :=
  publishIdentity iccid imsi
    { s with subscription :=
        { s.subscription with iccid := iccid, imsi := imsi, lastPublished := none } }

/-- `SimActionDispatcher._hotswap` -/
def hotswap (iccid imsi : String) (s : SimSubsystem) : SimSubsystem :=
  let s := (s.setHotswapActive true).setCardInstalled false
  let s := (s.setCardAppState .absent .unknown none).setCardInstalled true
  let s := s.setCardAppState .present .unknown (some true)
  let s := s.setCardAppState .present .ready none
  (s.setHotswapActive false).announce iccid imsi

def handleSetPower (slot : ℤ) (powerOn : Option Bool) (s : SimSubsystem) : SimSubsystem :=
  if slot ≠ s.card.slot then s.publish (.setPowerRsp (.error (unsupportedSlot slot s.card.slot)))
  else
    let s := s.onCard (CardAO.applyPowerState (powerOn.getD true))
    (s.publish (.setPowerRsp (.ok ()))).publishCardState

def handleGetState (slot : ℤ) (s : SimSubsystem) : SimSubsystem :=
  s.publish (.getStateRsp (if slot ≠ s.card.slot then .error (unsupportedSlot slot s.card.slot)
    else .ok (s.card.cardState, s.card.appState)))

def handleGetIccid (slot : ℤ) (s : SimSubsystem) : SimSubsystem :=
  s.publish (.getIccidRsp (if slot ≠ s.subscription.slot
    then .error (unsupportedSlot slot s.subscription.slot) else .ok s.subscription.visibleIccid))

def handleGetImsi (slot : ℤ) (s : SimSubsystem) : SimSubsystem :=
  s.publish (.getImsiRsp (if slot ≠ s.subscription.slot
    then .error (unsupportedSlot slot s.subscription.slot) else .ok s.subscription.visibleImsi))

/-- The card first, as in the start. -/
def resubscribe (s : SimSubsystem) : SimSubsystem :=
  let s := s.enterReadyCard
  enterReadySub { s with subscription := { s.subscription with lastPublished := none } }

end SimSubsystem

inductive Action
  | forceCardState (cardState : Option CardState) (appState : Option AppState)
  | forcePower (powerOn : Bool)
  | hotswap (iccid imsi : String)
  | setPower (slot : ℤ) (powerOn : Option Bool)
  | getState (slot : ℤ)
  | getIccid (slot : ℤ)
  | getImsi (slot : ℤ)
  | resubscribe
  deriving DecidableEq, Repr

def SimSubsystem.handle (s : SimSubsystem) : Action → SimSubsystem
  | .forceCardState cardState appState => s.forceCardState cardState appState
  | .forcePower powerOn => s.forcePower powerOn
  | .hotswap iccid imsi => s.hotswap iccid imsi
  | .setPower slot powerOn => s.handleSetPower slot powerOn
  | .getState slot => s.handleGetState slot
  | .getIccid slot => s.handleGetIccid slot
  | .getImsi slot => s.handleGetImsi slot
  | .resubscribe => s.resubscribe

/-! ### What was published last -/

def lastCardState (l : List Publication) : Option (CardState × AppState) :=
  (l.filterMap Publication.asCardState).getLast?

def lastSubInfo (l : List Publication) : Option (String × String) :=
  (l.filterMap Publication.asSubInfo).getLast?

theorem lastCardState_concat (l : List Publication) (p : Publication) :
    lastCardState (l ++ [p]) = p.asCardState.or (lastCardState l) := by
  unfold lastCardState
  cases h : p.asCardState <;> simp [List.filterMap_append, h]

theorem lastSubInfo_concat (l : List Publication) (p : Publication) :
    lastSubInfo (l ++ [p]) = p.asSubInfo.or (lastSubInfo l) := by
  unfold lastSubInfo
  cases h : p.asSubInfo <;> simp [List.filterMap_append, h]

namespace SimSubsystem

/-- No swap is under way, and the subscription remembers what it published last. -/
structure Linked (identity : String × String) (s : SimSubsystem) : Prop where
  ownSlot : s.subscription.slot = 1
  idle : s.subscription.hotswapActive = false
  identity : (s.subscription.iccid, s.subscription.imsi) = identity
  remembered : ∀ id, s.subscription.lastPublished = some id → lastSubInfo s.published = some id

/-- Who looks at the card, who asks the subscription and who listens to it learn the same. -/
structure Agrees (identity : String × String) (s : SimSubsystem) : Prop
    extends Linked identity s where
  available : s.subscription.cardAvailable = s.card.identityAvailable
  shown : lastCardState s.published = some (s.card.cardState, s.card.appState)
  told : lastSubInfo s.published = some (s.subscription.visibleIccid, s.subscription.visibleImsi)

/-- Between actions. -/
structure Settled (identity : String × String) (s : SimSubsystem) : Prop
    extends Agrees identity s where
  observed : s.card.stateChangedCb = true

variable {identity : String × String} {s : SimSubsystem}

/-- Whether it is sent or not, the identity is then what was published last. -/
theorem lastSubInfo_publishIdentity (iccid imsi : String)
    (h : ∀ id, s.subscription.lastPublished = some id → lastSubInfo s.published = some id) :
    lastSubInfo (s.publishIdentity iccid imsi).published = some (iccid, imsi) := by
  unfold publishIdentity
  split
  · next hsame => exact h _ hsame
  · simp [publish, lastSubInfo_concat, Publication.asSubInfo]

theorem lastCardState_publishIdentity (iccid imsi : String) (s : SimSubsystem) :
    lastCardState (s.publishIdentity iccid imsi).published = lastCardState s.published := by
  unfold publishIdentity
  split
  · rfl
  · simp [publish, lastCardState_concat, Publication.asCardState]

theorem subscription_publishIdentity (iccid imsi : String) (s : SimSubsystem) :
    (s.publishIdentity iccid imsi).subscription =
      { s.subscription with lastPublished := some (iccid, imsi) } := by
  unfold publishIdentity
  split
  · next hsame => rw [← hsame]
  · rfl

theorem card_publishIdentity (iccid imsi : String) (s : SimSubsystem) :
    (s.publishIdentity iccid imsi).card = s.card := by
  unfold publishIdentity
  split <;> rfl

theorem Linked.publish (h : Linked identity s) {p : Publication} (hp : p.asSubInfo = none) :
    Linked identity (s.publish p) where
  ownSlot := h.ownSlot
  idle := h.idle
  identity := h.identity
  remembered := by
    intro id hid
    rw [SimSubsystem.publish, lastSubInfo_concat, hp, Option.none_or]
    exact h.remembered id hid

theorem Agrees.publish (h : Agrees identity s) {p : Publication} (hinfo : p.asSubInfo = none)
    (hcard : p.asCardState = none) : Agrees identity (s.publish p) where
  toLinked := h.toLinked.publish hinfo
  available := h.available
  shown := by
    rw [SimSubsystem.publish, lastCardState_concat, hcard, Option.none_or]
    exact h.shown
  told := by
    rw [SimSubsystem.publish, lastSubInfo_concat, hinfo, Option.none_or]
    exact h.told

theorem Settled.publish (h : Settled identity s) {p : Publication} (hinfo : p.asSubInfo = none)
    (hcard : p.asCardState = none) : Settled identity (s.publish p) :=
  ⟨h.toAgrees.publish hinfo hcard, h.observed⟩

theorem Linked.publishSubInfoChanged (h : Linked identity s) :
    Linked identity s.publishSubInfoChanged := by
  have htold := lastSubInfo_publishIdentity s.subscription.visibleIccid s.subscription.visibleImsi
    h.remembered
  refine ⟨?_, ?_, ?_, ?_⟩
  · rw [SimSubsystem.publishSubInfoChanged, subscription_publishIdentity]
    exact h.ownSlot
  · rw [SimSubsystem.publishSubInfoChanged, subscription_publishIdentity]
    exact h.idle
  · rw [SimSubsystem.publishSubInfoChanged, subscription_publishIdentity]
    exact h.identity
  · rw [SimSubsystem.publishSubInfoChanged, subscription_publishIdentity, htold]
    exact fun _ hid => hid

theorem card_publishSubInfoChanged (s : SimSubsystem) : s.publishSubInfoChanged.card = s.card :=
  card_publishIdentity _ _ s

/-- An announcement of what can be seen puts all in agreement. -/
theorem Linked.agrees_publishSubInfoChanged (h : Linked identity s)
    (havailable : s.subscription.cardAvailable = s.card.identityAvailable)
    (hshown : lastCardState s.published = some (s.card.cardState, s.card.appState)) :
    Agrees identity s.publishSubInfoChanged := by
  have htold := lastSubInfo_publishIdentity s.subscription.visibleIccid s.subscription.visibleImsi
    h.remembered
  refine ⟨h.publishSubInfoChanged, ?_, ?_, ?_⟩
  · rw [card_publishSubInfoChanged, SimSubsystem.publishSubInfoChanged,
      subscription_publishIdentity]
    exact havailable
  · rw [card_publishSubInfoChanged, SimSubsystem.publishSubInfoChanged,
      lastCardState_publishIdentity]
    exact hshown
  · rw [SimSubsystem.publishSubInfoChanged, htold, subscription_publishIdentity]
    rfl

theorem Linked.setCardAvailable (h : Linked identity s)
    (hshown : lastCardState s.published = some (s.card.cardState, s.card.appState)) :
    Agrees identity (s.setCardAvailable s.card.identityAvailable) := by
  unfold SimSubsystem.setCardAvailable
  dsimp only
  rw [if_neg (by simp [h.idle])]
  exact Linked.agrees_publishSubInfoChanged (s := { s with subscription :=
    { s.subscription with cardAvailable := s.card.identityAvailable } })
    ⟨h.ownSlot, h.idle, h.identity, h.remembered⟩ rfl hshown

theorem card_setCardAvailable (available : Bool) (s : SimSubsystem) :
    (s.setCardAvailable available).card = s.card := by
  unfold SimSubsystem.setCardAvailable
  dsimp only
  split
  · rfl
  · exact card_publishSubInfoChanged _

theorem lastCardState_publish_cardState (s : SimSubsystem) (c : CardState) (a : AppState) :
    lastCardState (s.publish (.cardState c a)).published = some (c, a) := by
  simp [SimSubsystem.publish, lastCardState_concat, Publication.asCardState]

/-- Every indication of the card brings the identity along. -/
theorem Linked.publishCardState (h : Linked identity s) (hobserved : s.card.stateChangedCb = true) :
    Settled identity s.publishCardState := by
  have hlinked := h.publish (p := .cardState s.card.cardState s.card.appState) rfl
  unfold SimSubsystem.publishCardState
  dsimp only
  rw [if_pos (by exact hobserved)]
  refine ⟨hlinked.setCardAvailable (lastCardState_publish_cardState s _ _), ?_⟩
  rw [card_setCardAvailable]
  exact hobserved

theorem Linked.onCard (h : Linked identity s) (f : CardAO → CardAO) :
    Linked identity (s.onCard f) := ⟨h.ownSlot, h.idle, h.identity, h.remembered⟩

/-! ### Actions -/

/-- The card indicates itself before it is observed, and is observed once both are started. -/
theorem settled_start (installedSim : Option SimCard) :
    Settled ((installedSim.map SimCard.iccid).getD "", (installedSim.map SimCard.imsi).getD "")
      (start installedSim) := by
  unfold start
  generalize (installedSim.map SimCard.iccid).getD "" = iccid
  generalize (installedSim.map SimCard.imsi).getD "" = imsi
  dsimp only
  have hlinked : Linked (iccid, imsi) (enterReadyCard ⟨.init iccid imsi, .init iccid imsi, []⟩) :=
    ⟨rfl, rfl, rfl, fun _ hid => by cases hid⟩
  have hshown : lastCardState (enterReadyCard ⟨.init iccid imsi, .init iccid imsi, []⟩).published =
    some ((CardAO.init iccid imsi).cardState, (CardAO.init iccid imsi).appState) := rfl
  have hcard : (enterReadyCard ⟨.init iccid imsi, .init iccid imsi, []⟩).card =
    CardAO.init iccid imsi := rfl
  generalize enterReadyCard ⟨.init iccid imsi, .init iccid imsi, []⟩ = s at hlinked hshown hcard
  rw [← hcard] at hshown
  have hready : Linked (iccid, imsi) s.enterReadySub := hlinked.publishSubInfoChanged.publish rfl
  have hstill : lastCardState s.enterReadySub.published =
      some (s.enterReadySub.card.cardState, s.enterReadySub.card.appState) := by
    have hnone : (Publication.subsysReadySub true).asCardState = none := rfl
    rw [enterReadySub, SimSubsystem.publish, lastCardState_concat, hnone, Option.none_or,
      SimSubsystem.publishSubInfoChanged, lastCardState_publishIdentity,
      card_publishIdentity]
    exact hshown
  have hagrees := hready.setCardAvailable hstill
  exact ⟨⟨hagrees.toLinked.onCard _, hagrees.available, hagrees.shown, hagrees.told⟩, rfl⟩

theorem publish_cardState_hotswap (h : s.card.stateChangedCb = true)
    (hactive : s.subscription.hotswapActive = true) :
    s.publishCardState = { s with
      published := s.published ++ [.cardState s.card.cardState s.card.appState]
      subscription := { s.subscription with cardAvailable := s.card.identityAvailable } } := by
  simp [SimSubsystem.publishCardState, SimSubsystem.setCardAvailable, SimSubsystem.publish, h,
    hactive]

theorem hotswap_eq (h : Settled identity s) (iccid imsi : String) :
    s.hotswap iccid imsi =
      { card := { s.card with
          cardInstalled := true, cardState := .present, appState := .ready, powerOn := true }
        subscription := { s.subscription with
          iccid := iccid, imsi := imsi, cardAvailable := true, lastPublished := some (iccid, imsi) }
        published := s.published ++
          [.cardState .absent .unknown, .cardState .present .unknown, .cardState .present .ready,
            .subInfoChanged iccid imsi] } := by
  have hidle : s.subscription =
    { s.subscription with hotswapActive := false } := by rw [← h.idle]
  rw [hidle]
  simp [hotswap, announce, publishIdentity, SimSubsystem.publish, setHotswapActive,
    setCardAppState, setCardInstalled, SimSubsystem.onCard, publish_cardState_hotswap,
    CardAO.setState, CardAO.identityAvailable, h.observed]

theorem settled_hotswap (h : Settled identity s) (iccid imsi : String) :
    Settled (iccid, imsi) (s.hotswap iccid imsi) := by
  rw [hotswap_eq h]
  refine ⟨⟨⟨h.ownSlot, h.idle, rfl, ?_⟩, ?_, ?_, ?_⟩, h.observed⟩
  · simp [lastSubInfo, Publication.asSubInfo, List.findSome?_cons]
  · simp [CardAO.identityAvailable]
  · simp [lastCardState, Publication.asCardState, List.filterMap_cons]
  · simp [lastSubInfo, Publication.asSubInfo, List.findSome?_cons, SubscriptionAO.visibleIccid,
      SubscriptionAO.visibleImsi]

theorem settled_resubscribe (h : Settled identity s) : Settled identity s.resubscribe := by
  have hcard : Settled identity s.enterReadyCard :=
    (h.toLinked.publishCardState h.observed).publish rfl rfl
  have hforgot : Linked identity { s.enterReadyCard with
      subscription := { s.enterReadyCard.subscription with lastPublished := none } } :=
    ⟨hcard.ownSlot, hcard.idle, hcard.identity, fun _ hid => by cases hid⟩
  have hagrees := (hforgot.agrees_publishSubInfoChanged hcard.available hcard.shown).publish
    (p := .subsysReadySub true) rfl rfl
  refine ⟨hagrees, ?_⟩
  exact (congrArg CardAO.stateChangedCb (card_publishSubInfoChanged _)).trans hcard.observed

/-- The identity that is in the slot after the action. -/
def installs (identity : String × String) : Action → String × String
  | .hotswap iccid imsi => (iccid, imsi)
  | _ => identity

theorem settled_handle (h : Settled identity s) (a : Action) :
    Settled (installs identity a) (s.handle a) := by
  cases a with
  | forceCardState cardState appState =>
    exact (h.toLinked.onCard _).publishCardState
      ((CardAO.force_stateChangedCb cardState appState s.card).trans h.observed)
  | forcePower powerOn =>
    exact (h.toLinked.onCard _).publishCardState
      ((CardAO.applyPowerState_stateChangedCb powerOn s.card).trans h.observed)
  | hotswap iccid imsi => exact settled_hotswap h iccid imsi
  | setPower slot powerOn =>
    change Settled identity (s.handleSetPower slot powerOn)
    unfold handleSetPower
    split
    · exact h.publish rfl rfl
    · exact ((h.toLinked.onCard _).publish rfl).publishCardState
        ((CardAO.applyPowerState_stateChangedCb _ s.card).trans h.observed)
  | getState slot => exact h.publish rfl rfl
  | getIccid slot => exact h.publish rfl rfl
  | getImsi slot => exact h.publish rfl rfl
  | resubscribe => exact settled_resubscribe h

/-! ### Whole runs -/

def runActions (installedSim : Option SimCard) (l : List Action) : SimSubsystem :=
  l.foldl handle (start installedSim)

/-- The identity of the card that is in the slot after the actions. -/
def currentIdentity (installedSim : Option SimCard) (l : List Action) : String × String :=
  l.foldl installs
    ((installedSim.map SimCard.iccid).getD "", (installedSim.map SimCard.imsi).getD "")

theorem settled_runActions (installedSim : Option SimCard) (l : List Action) :
    Settled (currentIdentity installedSim l) (runActions installedSim l) := by
  unfold currentIdentity runActions
  induction l using List.reverseRecOn with
  | nil => exact settled_start installedSim
  | append_singleton l a ih =>
    rw [List.foldl_append, List.foldl_append]
    exact settled_handle ih a

/-- The identity that the last indication of the card on the wire lets be seen. -/
def visibleIdentity (identity : String × String) (l : List Publication) : String × String :=
  if lastCardState l = some (.present, .ready) then identity else ("", "")

theorem Agrees.visible (h : Agrees identity s) :
    (s.subscription.visibleIccid, s.subscription.visibleImsi) =
      visibleIdentity identity s.published := by
  rw [visibleIdentity, h.shown, ← h.identity, SubscriptionAO.visibleIccid,
    SubscriptionAO.visibleImsi, h.available, CardAO.identityAvailable]
  by_cases hready : s.card.cardState = .present ∧ s.card.appState = .ready
  · simp [hready]
  · have hne : ¬ some (s.card.cardState, s.card.appState) = some (.present, .ready) := by
      simpa using hready
    simp only [hready, hne, decide_false, Bool.false_eq_true, if_false]

/-- After any actions, subscription and card agree, what was announced last and what a request is
answered is the identity of the current card if the card was last indicated ready, nothing
otherwise, and a swap is three indications of the card and one of the new identity. -/
theorem identity_visible (installedSim : Option SimCard) (l : List Action) :
    (runActions installedSim l).subscription.cardAvailable =
      (runActions installedSim l).card.identityAvailable ∧
    lastSubInfo (runActions installedSim l).published =
      some (visibleIdentity (currentIdentity installedSim l)
        (runActions installedSim l).published) ∧
    ((runActions installedSim l).handle (.getIccid 1)).published =
      (runActions installedSim l).published ++ [.getIccidRsp (.ok
        (visibleIdentity (currentIdentity installedSim l)
          (runActions installedSim l).published).1)] ∧
    ((runActions installedSim l).handle (.getImsi 1)).published =
      (runActions installedSim l).published ++ [.getImsiRsp (.ok
        (visibleIdentity (currentIdentity installedSim l)
          (runActions installedSim l).published).2)] ∧
    ∀ iccid imsi, ((runActions installedSim l).handle (.hotswap iccid imsi)).published =
      (runActions installedSim l).published ++
        [.cardState .absent .unknown, .cardState .present .unknown, .cardState .present .ready,
          .subInfoChanged iccid imsi] := by
  have h := settled_runActions installedSim l
  have hvisible := h.visible
  refine ⟨h.available, ?_, ?_, ?_, ?_⟩
  · rw [h.told, hvisible]
  · simp only [handle, handleGetIccid, SimSubsystem.publish, h.ownSlot, ne_eq, not_true_eq_false,
      if_false, ← hvisible]
  · simp only [handle, handleGetImsi, SimSubsystem.publish, h.ownSlot, ne_eq, not_true_eq_false,
      if_false, ← hvisible]
  · intro iccid imsi
    exact congrArg SimSubsystem.published (hotswap_eq h iccid imsi)

end SimSubsystem

end TelafSim.Sim
