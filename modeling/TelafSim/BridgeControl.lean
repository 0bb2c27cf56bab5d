import TelafSim.BridgeAO
import TelafSim.HsmControl
import Mathlib.Tactic.DeriveFintype

/-!
# What the chart of the bridge does with a request

The control of the bridge's chart does not read its data, so the actions of a dispatch are known
from the leaf state and the signal. A request is held while it is deferred, in flight or in an
effect still to be performed. Every action keeps the requests held, except that a leaf other than
ShuttingDown takes one up with SendReq.
-/

namespace TelafSim.ModemBridge

variable {δ : Type}

inductive Signal
  | start
  | stop
  | linkUp (ok : Bool)
  | linkDown
  | connectTimeout
  | allSubAcked
  | sendReq
  | publishOneway
  | evtRecv
  | rspTimeout
  | subscribeEvent
  | unsubscribeEvent
  | subscribeConnectivity
  | unsubscribeConnectivity
  | drain
  deriving DecidableEq, Fintype

def BridgeEvent.signal : BridgeEvent δ → Signal
  | .start => .start
  | .stop => .stop
  | .linkUp ok => .linkUp ok
  | .linkDown => .linkDown
  | .connectTimeout => .connectTimeout
  | .allSubAcked => .allSubAcked
  | .sendReq _ => .sendReq
  | .publishOneway _ _ _ => .publishOneway
  | .evtRecv _ => .evtRecv
  | .rspTimeout _ => .rspTimeout
  | .subscribeEvent _ _ _ => .subscribeEvent
  | .unsubscribeEvent _ => .unsubscribeEvent
  | .subscribeConnectivity _ => .subscribeConnectivity
  | .unsubscribeConnectivity _ => .unsubscribeConnectivity
  | .drain _ => .drain

def Signal.event : Signal → BridgeEvent Unit
  | .start => .start
  | .stop => .stop
  | .linkUp ok => .linkUp ok
  | .linkDown => .linkDown
  | .connectTimeout => .connectTimeout
  | .allSubAcked => .allSubAcked
  | .sendReq => .sendReq ⟨"", "", ⟨"", none, none⟩, 0⟩
  | .publishOneway => .publishOneway "" "" ⟨"", none, none⟩
  | .evtRecv => .evtRecv ⟨"", none⟩
  | .rspTimeout => .rspTimeout ""
  | .subscribeEvent => .subscribeEvent "" "" 0
  | .unsubscribeEvent => .unsubscribeEvent ""
  | .subscribeConnectivity => .subscribeConnectivity 0
  | .unsubscribeConnectivity => .unsubscribeConnectivity 0
  | .drain => .drain 0

instance : Fintype BridgeState where
  elems := {.notOperational, .disconnected, .connecting, .connected, .subscribing, .operational,
    .backoff, .shuttingDown}
  complete st := by cases st <;> decide

def control : Chart BridgeState Signal Unit :=
  (chart (fun _ _ => true)).bare Signal.event ⟨"", [], [], [], [], 0, ⟨0, true, true⟩, []⟩

theorem chart_controlled (valid : String → δ → Bool) :
    (chart valid).Controlled control BridgeEvent.signal where
  status s ev b := by
    cases s <;> rcases ev with _ | _ | _ | _ | e <;> try rfl
    all_goals rcases e with _ | _ | ok | _ | _ | _ | _ | _ | _ | _ | _ | _ | _ | _ | _ <;> try rfl
    all_goals cases ok <;> rfl
  temp s ev b := by
    cases s <;> rcases ev with _ | _ | _ | _ | e <;> try rfl
    all_goals rcases e with _ | _ | ok | _ | _ | _ | _ | _ | _ | _ | _ | _ | _ | _ | _ <;> try rfl
    all_goals cases ok <;> rfl
  empty s b := by cases s <;> rfl

def isLeaf : BridgeState → Bool
  | .notOperational => false
  | .connected => false
  | _ => true

/-- The bare machine on one signal from a leaf. -/
def bareDispatch (st : BridgeState) (sg : Signal) : Option (Hsm BridgeState Signal Unit) :=
  control.dispatch (kMaxNest + 1) sg ⟨some st, some st, false, (), []⟩

/-- Leads from a leaf to a leaf, to ShuttingDown by Stop or from there only. -/
def goodTarget (st : BridgeState) (sg : Signal) (k : Hsm BridgeState Signal Unit) : Bool :=
  match k.state with
  | none => false
  | some st' => isLeaf st' && (st' = .shuttingDown ↔ st = .shuttingDown ∨ sg = .stop)

theorem bareDispatch_target :
    ∀ st sg, isLeaf st → (bareDispatch st sg).any (goodTarget st sg) := by
  decide +kernel

theorem bareDispatch_sendReq :
    ∀ st, isLeaf st → (bareDispatch st .sendReq).all
      (fun k => k.state = some st ∧ k.log = [(st, .user .sendReq)]) := by
  decide +kernel

theorem bareDispatch_shuttingDown :
    ∀ sg, (bareDispatch .shuttingDown sg).all (fun k => k.log = [(.shuttingDown, .user sg)]) := by
  decide +kernel

/-- ShuttingDown is entered last, and nothing else is entered. -/
theorem bareDispatch_stop :
    ∀ st, isLeaf st → st ≠ .shuttingDown → (bareDispatch st .stop).all (fun k =>
      [(.shuttingDown, .entry), (.shuttingDown, .init)] <:+ k.log ∧
        ∀ a ∈ k.log, a.2 = .entry → a.1 = .shuttingDown) := by
  decide +kernel

def Effect.req : Effect δ → Option String
  | .postFifo e => reqOf e
  | .invoke corrId _ => some corrId
  | _ => none

namespace Bridge

/-- How often the request `c` is held. -/
def held (c : String) (b : Bridge δ) : ℕ :=
  (b.deferred.filterMap reqOf).count c + (b.inFlight.map InFlight.corrId).count c +
    (b.effects.filterMap Effect.req).count c

variable (c : String) (b : Bridge δ)

theorem held_emit (es : List (Effect δ)) :
    (b.emit es).held c = b.held c + (es.filterMap Effect.req).count c := by
  simp only [held, emit, List.filterMap_append, List.count_append]
  omega

theorem held_fail (corrId : String) : (b.fail corrId).held c = b.held c + [corrId].count c :=
  b.held_emit c _

theorem held_defer (e : BridgeEvent δ) :
    (b.defer e).held c = b.held c + (reqOf e).toList.count c := by
  cases h : reqOf e <;> simp [held, defer, h]
  omega

@[simp] theorem held_notifyConnectivity (up : Bool) : (b.notifyConnectivity up).held c = b.held c := by
  have hnone : (b.observers.map (fun t => (.connectivity t up : Effect δ))).filterMap Effect.req = [] := by
    simp [List.filterMap_map, Function.comp_def, Effect.req]
  rw [notifyConnectivity, held_emit, hnone]
  rfl

theorem held_emit_plain {f : Effect δ} (hf : f.req = none) : (b.emit [f]).held c = b.held c := by
  rw [held_emit, List.filterMap_cons_none hf]
  rfl

@[simp] theorem held_issueAllSubscribes : b.issueAllSubscribes.held c = b.held c := by
  have hnone : (b.topics.map (Effect.mqttSubscribe : String → Effect δ)).filterMap Effect.req = [] := by
    simp [List.filterMap_map, Function.comp_def, Effect.req]
  rw [issueAllSubscribes, held_emit, hnone]
  rfl

theorem req_postFifo_map (es : List (BridgeEvent δ)) :
    (es.map Effect.postFifo).filterMap Effect.req = es.filterMap reqOf := by
  rw [List.filterMap_map]
  rfl

@[simp] theorem held_recallAll : b.recallAll.held c = b.held c := by
  simp only [held, recallAll, emit, List.filterMap_append, List.count_append, req_postFifo_map]
  simp
  omega

theorem req_failDeferred (es : List (BridgeEvent δ)) :
    (es.filterMap failDeferred).filterMap Effect.req = es.filterMap reqOf := by
  rw [List.filterMap_filterMap]
  congr 1
  funext e
  cases e <;> rfl

@[simp] theorem held_failAllInFlight : b.failAllInFlight.held c = b.held c := by
  have hinv : (b.inFlight.map (fun i => (.invoke i.corrId none : Effect δ))).filterMap Effect.req =
      b.inFlight.map InFlight.corrId := by
    simp [List.filterMap_map, Function.comp_def, Effect.req]
  simp only [held, failAllInFlight, emit, List.filterMap_append, List.count_append,
    req_failDeferred, hinv]
  simp
  omega

@[simp] theorem held_complete (corrId : String) (reply : InFlight → Option (Envelope δ)) :
    (b.complete corrId reply).held c = b.held c := by
  unfold complete
  cases hfind : b.inFlight.find? (fun i => i.corrId = corrId) with
  | none => rfl
  | some i =>
    obtain ⟨hi, pre, post, heq, hpre⟩ := List.find?_eq_some_iff_append.mp hfind
    have herase : b.inFlight.eraseP (fun i => i.corrId = corrId) = pre ++ post := by
      rw [heq, List.eraseP_append_right _ (fun j hj => by simpa using hpre j hj), List.eraseP_cons,
        hi, cond_true]
    simp only [held, herase]
    simp only [heq, List.map_append, List.map_cons, List.filterMap_append, List.count_append,
      List.count_cons, Effect.req, List.filterMap_cons, List.filterMap_nil, List.count_nil]
    omega

theorem held_emplace (i : InFlight) (hi : i.corrId ∉ b.inFlight.map InFlight.corrId) :
    (b.emplace i).held c = b.held c + [i.corrId].count c := by
  have hnone : ¬ b.inFlight.any (fun j => j.corrId = i.corrId) := by
    simpa using hi
  rw [emplace, if_neg hnone]
  simp only [held, List.map_append, List.count_append, List.map_cons, List.map_nil]
  omega

variable (valid : String → δ → Bool)

theorem held_doSendRequest (r : SendReq δ)
    (hr : r.envelope.corrId ∉ b.inFlight.map InFlight.corrId) :
    (b.doSendRequest valid r).held c = b.held c + [r.envelope.corrId].count c := by
  unfold doSendRequest
  split
  · exact b.held_fail c _
  · split
    · exact b.held_fail c _
    · dsimp only
      split
      · rw [held_emit, held_emplace c b _ hr]
        rfl
      · rw [held_complete, held_emplace c b _ hr]

@[simp] theorem held_doPublishOneway (topic schemaId : String) (envelope : Envelope δ) :
    (b.doPublishOneway valid topic schemaId envelope).held c = b.held c := by
  unfold doPublishOneway
  split
  · rfl
  · split
    · exact b.held_emit c _
    · rfl

@[simp] theorem held_receive (m : Message δ) : (b.receive valid m).held c = b.held c := by
  unfold receive
  repeat' split
  all_goals first | rfl | exact held_complete c b _ _ | exact b.held_emit c _

end Bridge

open Bridge

variable (valid : String → δ → Bool)

theorem handler_held (c : String) (s : BridgeState) {ev : Event (BridgeEvent δ)} (b : Bridge δ)
    (hev : ∀ r, ev ≠ .user (.sendReq r)) :
    ((chart valid).handler s ev b).ext.held c = b.held c := by
  cases s <;> dsimp only [chart]
  case notOperational => unfold notOperationalSt; split <;> first | rfl | exact held_emit c b _
  case disconnected => unfold disconnectedSt; split <;> first | rfl | exact absurd rfl (hev _)
  case connecting =>
    unfold connectingSt
    split <;> first | rfl | exact absurd rfl (hev _) | exact held_defer c b _ | skip
    dsimp only [Reply.handled]
    split
    · rfl
    · exact held_emit c b _
  case connected => unfold connectedSt; split <;> first | rfl | exact held_emit c b _
  case subscribing =>
    unfold subscribingSt
    split <;> first | rfl | exact absurd rfl (hev _) | exact held_defer c b _ | skip
    exact (held_emit_plain c _ rfl).trans (held_issueAllSubscribes c b)
  case operational =>
    unfold operationalSt
    split <;> first | exact absurd rfl (hev _) | simp [Reply.handled, Reply.super]
    exact held_emit c b _
  case backoff =>
    unfold backoffSt
    split <;> first | exact absurd rfl (hev _) | simp [Reply.handled, Reply.super, Reply.toState]
    rfl
  case shuttingDown =>
    unfold shuttingDownSt
    split
    · refine (held_emit_plain c _ rfl).trans ?_
      simp
    · exact held_emit c b _
    · rfl

theorem handler_sendReq_held (c : String) {s : BridgeState} (hs : isLeaf s)
    (hne : s ≠ .shuttingDown) (r : SendReq δ) (b : Bridge δ)
    (hr : r.envelope.corrId ∉ b.inFlight.map InFlight.corrId) :
    ((chart valid).handler s (.user (.sendReq r)) b).ext.held c =
      b.held c + [r.envelope.corrId].count c := by
  cases s with
  | notOperational => cases hs
  | connected => cases hs
  | shuttingDown => exact absurd rfl hne
  | disconnected => exact held_fail c b _
  | connecting => exact held_defer c b _
  | subscribing => exact held_defer c b _
  | backoff => exact held_defer c b _
  | operational => exact held_doSendRequest c b valid r hr

/-- Events that are deferred or that the chart posts to itself. -/
def deferrable : BridgeEvent δ → Bool
  | .linkDown => true
  | .allSubAcked => true
  | .sendReq _ => true
  | .publishOneway _ _ _ => true
  | _ => false

/-- Neither a post into the own queue nor a fence. -/
def Effect.outward : Effect δ → Bool
  | .postFifo _ => false
  | .fulfil _ => false
  | _ => true

/-- The effects the action `ev` of the state `s` may leave: deferred events are recalled on entry
only, and a fence is fulfilled when it is taken. -/
def mayEmit (s : BridgeState) (ev : Event (BridgeEvent δ)) (b : Bridge δ) : Effect δ → Prop
  | .postFifo e => ev = .entry ∧ s ≠ .shuttingDown ∧
      (e = .linkDown ∨ e = .allSubAcked ∨ e ∈ b.deferred)
  | .fulfil w => ev = .user (.drain w)
  | _ => True

namespace Bridge

theorem deferred_complete (corrId : String) (reply : InFlight → Option (Envelope δ)) (b : Bridge δ) :
    (b.complete corrId reply).deferred = b.deferred := by
  unfold complete
  split <;> rfl

theorem deferred_doSendRequest (r : SendReq δ) (b : Bridge δ) :
    (b.doSendRequest valid r).deferred = b.deferred := by
  have hemplace : ∀ i, (b.emplace i).deferred = b.deferred := by
    intro i
    unfold emplace
    split <;> rfl
  unfold doSendRequest
  dsimp only
  repeat' split
  · rfl
  · rfl
  · exact hemplace _
  · rw [deferred_complete, hemplace]

theorem deferred_doPublishOneway (topic schemaId : String) (envelope : Envelope δ) (b : Bridge δ) :
    (b.doPublishOneway valid topic schemaId envelope).deferred = b.deferred := by
  unfold doPublishOneway
  repeat' split
  all_goals rfl

theorem deferred_receive (m : Message δ) (b : Bridge δ) :
    (b.receive valid m).deferred = b.deferred := by
  unfold receive
  repeat' split
  all_goals first | rfl | exact deferred_complete _ _ b

end Bridge

section Effects

variable {s : BridgeState} {ev : Event (BridgeEvent δ)} {b : Bridge δ} {f : Effect δ}

theorem mayEmit_of_outward (hf : f.outward) : mayEmit s ev b f := by
  cases f <;> trivial

theorem Bridge.mem_effects_failAllInFlight (hf : f ∈ b.failAllInFlight.effects) :
    f ∈ b.effects ∨ f.outward := by
  simp only [failAllInFlight, emit, List.mem_append, List.mem_map, List.mem_filterMap] at hf
  rcases hf with hf | ⟨i, -, rfl⟩ | ⟨e, -, he⟩
  · exact .inl hf
  · exact .inr rfl
  · cases e <;> simp only [failDeferred, reduceCtorEq, Option.some.injEq] at he
    subst he
    exact .inr rfl

theorem Bridge.mem_effects_notifyConnectivity {up : Bool}
    (hf : f ∈ (b.notifyConnectivity up).effects) : f ∈ b.effects ∨ f.outward := by
  simp only [notifyConnectivity, emit, List.mem_append, List.mem_map] at hf
  rcases hf with hf | ⟨i, -, rfl⟩
  · exact .inl hf
  · exact .inr rfl

/-- What entering Backoff or ShuttingDown and leaving Operational do. -/
theorem Bridge.mem_effects_disconnect
    (hf : f ∈ ((b.notifyConnectivity false).failAllInFlight).effects) :
    f ∈ b.effects ∨ f.outward := by
  rcases mem_effects_failAllInFlight hf with hf | hf
  · exact mem_effects_notifyConnectivity hf
  · exact .inr hf

theorem Bridge.mem_effects_recallAll (hf : f ∈ b.recallAll.effects) :
    f ∈ b.effects ∨ ∃ e ∈ b.deferred, f = .postFifo e := by
  simp only [recallAll, emit, List.mem_append, List.mem_map] at hf
  rcases hf with hf | ⟨e, he, rfl⟩
  · exact .inl hf
  · exact .inr ⟨e, he, rfl⟩

theorem Bridge.mem_effects_emit_one {g : Effect δ} {P : Effect δ → Prop}
    (hf : f ∈ (b.emit [g]).effects) (hg : P g) : f ∈ b.effects ∨ P f := by
  rcases List.mem_append.mp hf with hf | hf
  · exact .inl hf
  · rw [List.mem_singleton.mp hf]
    exact .inr hg

theorem Bridge.mem_effects_emit_outward {g : Effect δ} (hf : f ∈ (b.emit [g]).effects)
    (hg : g.outward) : f ∈ b.effects ∨ f.outward :=
  mem_effects_emit_one (P := fun f => f.outward) hf hg

theorem Bridge.mem_effects_issueAllSubscribes (hf : f ∈ b.issueAllSubscribes.effects) :
    f ∈ b.effects ∨ f.outward := by
  simp only [issueAllSubscribes, emit, List.mem_append, List.mem_map] at hf
  rcases hf with hf | ⟨t, -, rfl⟩
  · exact .inl hf
  · exact .inr rfl

theorem Bridge.mem_effects_complete {corrId : String} {reply : InFlight → Option (Envelope δ)}
    (hf : f ∈ (b.complete corrId reply).effects) : f ∈ b.effects ∨ f.outward := by
  unfold complete at hf
  split at hf
  · exact .inl hf
  · rcases List.mem_append.mp hf with hf | hf
    · exact .inl hf
    · rw [List.mem_singleton.mp hf]
      exact .inr rfl

theorem Bridge.mem_effects_doSendRequest {r : SendReq δ}
    (hf : f ∈ (b.doSendRequest valid r).effects) : f ∈ b.effects ∨ f.outward := by
  have hemplace : ∀ i, (b.emplace i).effects = b.effects := by
    intro i
    unfold emplace
    split <;> rfl
  unfold doSendRequest at hf
  dsimp only at hf
  repeat' split at hf
  · exact mem_effects_emit_outward hf rfl
  · exact mem_effects_emit_outward hf rfl
  · rw [← hemplace ⟨r.envelope.corrId, r.topic, r.rspSchemaId⟩]
    exact mem_effects_emit_outward hf rfl
  · rw [← hemplace ⟨r.envelope.corrId, r.topic, r.rspSchemaId⟩]
    exact mem_effects_complete hf

theorem Bridge.mem_effects_doPublishOneway {topic schemaId : String} {envelope : Envelope δ}
    (hf : f ∈ (b.doPublishOneway valid topic schemaId envelope).effects) :
    f ∈ b.effects ∨ f.outward := by
  unfold doPublishOneway at hf
  repeat' split at hf
  · exact .inl hf
  · exact mem_effects_emit_outward hf rfl
  · exact .inl hf

theorem Bridge.mem_effects_receive {m : Message δ} (hf : f ∈ (b.receive valid m).effects) :
    f ∈ b.effects ∨ f.outward := by
  unfold receive at hf
  repeat' split at hf
  all_goals first
    | exact .inl hf
    | exact mem_effects_complete hf
    | exact mem_effects_emit_outward hf rfl

theorem operationalSt_effects (hf : f ∈ (operationalSt valid ev b).ext.effects) :
    f ∈ b.effects ∨ mayEmit .operational ev b f := by
  unfold operationalSt at hf
  split at hf
  · rcases mem_effects_recallAll hf with hf | ⟨e, he, rfl⟩
    · exact (mem_effects_notifyConnectivity hf).imp_right mayEmit_of_outward
    · exact .inr ⟨rfl, by decide, .inr (.inr he)⟩
  · exact (mem_effects_disconnect hf).imp_right mayEmit_of_outward
  · exact (mem_effects_doSendRequest valid hf).imp_right mayEmit_of_outward
  · exact (mem_effects_doPublishOneway valid hf).imp_right mayEmit_of_outward
  · exact mem_effects_emit_one hf (by exact trivial)
  · exact (mem_effects_receive valid hf).imp_right mayEmit_of_outward
  · exact (mem_effects_complete hf).imp_right mayEmit_of_outward
  · exact .inl hf

theorem handler_effects (hf : f ∈ ((chart valid).handler s ev b).ext.effects) :
    f ∈ b.effects ∨ mayEmit s ev b f := by
  cases s <;> dsimp only [chart] at hf
  case operational => exact operationalSt_effects valid hf
  case notOperational =>
    unfold notOperationalSt at hf
    split at hf <;> first
      | exact .inl hf
      | exact mem_effects_emit_one hf (by exact rfl)
  case disconnected =>
    unfold disconnectedSt at hf
    split at hf <;> first
      | exact .inl hf
      | exact mem_effects_emit_one hf (by exact trivial)
  case connecting =>
    unfold connectingSt at hf
    split at hf <;> try exact .inl hf
    dsimp only [Reply.handled] at hf
    split at hf
    · exact .inl hf
    · exact mem_effects_emit_one hf (by exact ⟨rfl, by decide, .inl rfl⟩)
  case connected =>
    unfold connectedSt at hf
    split at hf <;> first
      | exact .inl hf
      | exact mem_effects_emit_one hf (by exact rfl)
      | exact mem_effects_emit_one hf (by exact trivial)
  case subscribing =>
    unfold subscribingSt at hf
    split at hf <;> try exact .inl hf
    rcases mem_effects_emit_one (P := mayEmit .subscribing .entry b) hf
      (by exact ⟨rfl, by decide, .inr (.inl rfl)⟩) with h | h
    · exact (mem_effects_issueAllSubscribes h).imp_right mayEmit_of_outward
    · exact .inr h
  case backoff =>
    unfold backoffSt at hf
    split at hf <;> first
      | exact .inl hf
      | exact (mem_effects_disconnect hf).imp_right mayEmit_of_outward
  case shuttingDown =>
    unfold shuttingDownSt at hf
    split at hf
    · rcases mem_effects_emit_outward hf rfl with h | h
      · exact (mem_effects_disconnect h).imp_right mayEmit_of_outward
      · exact .inr (mayEmit_of_outward h)
    · exact mem_effects_emit_one hf (by exact rfl)
    · exact .inl hf

theorem handler_deferred {e : BridgeEvent δ} (he : e ∈ ((chart valid).handler s ev b).ext.deferred) :
    e ∈ b.deferred ∨ deferrable e := by
  have hdefer : ∀ e', deferrable e' → e ∈ (b.defer e').deferred → e ∈ b.deferred ∨ deferrable e := by
    intro e' he' h
    rcases List.mem_append.mp h with h | h
    · exact .inl h
    · rw [List.mem_singleton.mp h]
      exact .inr he'
  cases s <;> dsimp only [chart] at he
  case operational =>
    unfold operationalSt at he
    split at he
    · cases he
    · cases he
    · exact .inl (deferred_doSendRequest valid _ b ▸ he)
    · exact .inl (deferred_doPublishOneway valid _ _ _ b ▸ he)
    · exact .inl he
    · exact .inl (deferred_receive valid _ b ▸ he)
    · exact .inl (deferred_complete _ _ b ▸ he)
    · exact .inl he
  case notOperational => unfold notOperationalSt at he; split at he <;> exact .inl he
  case disconnected => unfold disconnectedSt at he; split at he <;> exact .inl he
  case connecting =>
    unfold connectingSt at he
    split at he <;> first | exact .inl he | exact hdefer _ rfl he | skip
    dsimp only [Reply.handled] at he
    split at he <;> exact .inl he
  case connected => unfold connectedSt at he; split at he <;> exact .inl he
  case subscribing =>
    unfold subscribingSt at he
    split at he <;> first | exact .inl he | exact hdefer _ rfl he
  case backoff =>
    unfold backoffSt at he
    split at he <;> first | cases he | exact .inl he | exact hdefer _ rfl he
  case shuttingDown =>
    unfold shuttingDownSt at he
    split at he <;> first | cases he | exact .inl he

end Effects

end TelafSim.ModemBridge
