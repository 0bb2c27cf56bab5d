import TelafSim.BridgeControl

/-!
# Run to completion in the bridge

One event taken from the queue, as a function of the leaf state, the event and the data: either a
transition, with the exit and entry actions of the two leaves, or a handler that stays. The chart
agrees with it on every leaf.
-/

namespace TelafSim.ModemBridge

variable {δ : Type}

def target : BridgeState → Signal → Option BridgeState
  | .shuttingDown, _ => none
  | _, .stop => some .shuttingDown
  | .disconnected, .start => some .connecting
  | .connecting, .linkUp true => some .subscribing
  | .connecting, .linkUp false => some .backoff
  | .connecting, .connectTimeout => some .backoff
  | .connecting, .linkDown => some .backoff
  | .subscribing, .allSubAcked => some .operational
  | .subscribing, .linkDown => some .backoff
  | .operational, .linkDown => some .backoff
  | .backoff, .linkUp true => some .subscribing
  | _, _ => none

namespace Bridge

/-- The count of failures when a transition starts. -/
def note : Signal → Bridge δ → Bridge δ
  | .linkUp true, b => b.recovered
  | .linkUp false, b => b.failed
  | .connectTimeout, b => b.failed
  | .linkDown, b => b.failed
  | _, b => b

def leave : BridgeState → Bridge δ → Bridge δ
  | .operational, b => (b.notifyConnectivity false).failAllInFlight
  | _, b => b

def enter : BridgeState → Bridge δ → Bridge δ
  | .connecting, b => if b.world.connectOk then b else b.emit [.postFifo .linkDown]
  | .subscribing, b => b.issueAllSubscribes.emit [.postFifo .allSubAcked]
  | .operational, b => (b.notifyConnectivity true).recallAll
  | .backoff, b => (b.notifyConnectivity false).failAllInFlight
  | .shuttingDown, b => (b.notifyConnectivity false).failAllInFlight.emit [.mqttDisconnect]
  | _, b => b

end Bridge

open Bridge

def BridgeState.isConnected : BridgeState → Bool
  | .subscribing => true
  | .operational => true
  | _ => false

/-- An event that leads nowhere. -/
def handle (valid : String → δ → Bool) (st : BridgeState) (e : BridgeEvent δ) (b : Bridge δ) :
    Bridge δ :=
  match e with
  | .drain w => b.emit [.fulfil w]
  | .sendReq r =>
    match st with
    | .disconnected => b.fail r.envelope.corrId
    | .operational => b.doSendRequest valid r
    | .shuttingDown => b
    | _ => b.defer (.sendReq r)
  | .publishOneway t s env =>
    match st with
    | .connecting => b.defer (.publishOneway t s env)
    | .subscribing => b.defer (.publishOneway t s env)
    | .operational => b.doPublishOneway valid t s env
    | _ => b
  | .evtRecv m => if st = .operational then b.receive valid m else b
  | .rspTimeout corrId =>
    if st = .operational then b.complete corrId (fun _ => none) else b
  | .subscribeEvent topic schemaId cb =>
    if st = .shuttingDown then b
    else if st.isConnected then (b.subscribe ⟨topic, schemaId, cb⟩).emit [.mqttSubscribe topic]
    else b.subscribe ⟨topic, schemaId, cb⟩
  | .unsubscribeEvent topic =>
    if st = .shuttingDown then b
    else if st.isConnected then (b.unsubscribe topic).emit [.mqttUnsubscribe topic]
    else b.unsubscribe topic
  | .subscribeConnectivity token =>
    if st = .shuttingDown then b
    else if st = .operational then (b.emit [.connectivity token true]).observe token
    else b.observe token
  | .unsubscribeConnectivity token => if st = .shuttingDown then b else b.unobserve token
  | _ => b

def react (valid : String → δ → Bool) (st : BridgeState) (e : BridgeEvent δ) (b : Bridge δ) :
    BridgeState × Bridge δ :=
  match target st e.signal with
  | some st' => (st', enter st' (leave st (note e.signal b)))
  | none => (st, handle valid st e b)

/-- The composite a leaf lies in. -/
def composite : BridgeState → Option BridgeState
  | .disconnected => some .notOperational
  | .connecting => some .notOperational
  | .backoff => some .notOperational
  | .subscribing => some .connected
  | .operational => some .connected
  | _ => none

/-- The leaf answers the signal itself. -/
def answers : BridgeState → Signal → Bool
  | .shuttingDown, _ => true
  | .disconnected, sg => sg = .start || sg = .stop || sg = .sendReq || sg = .publishOneway
  | .connecting, .linkUp _ => true
  | .connecting, sg => sg = .connectTimeout || sg = .linkDown || sg = .stop || sg = .sendReq ||
      sg = .publishOneway
  | .subscribing, sg => sg = .allSubAcked || sg = .subscribeConnectivity || sg = .sendReq ||
      sg = .publishOneway
  | .operational, sg => sg = .sendReq || sg = .publishOneway || sg = .subscribeConnectivity ||
      sg = .evtRecv || sg = .rspTimeout
  | .backoff, .linkUp _ => true
  | .backoff, sg => sg = .stop || sg = .sendReq || sg = .linkDown
  | _, _ => false

/-- The states that see the signal. -/
def visits (st : BridgeState) (sg : Signal) : List (Action BridgeState Signal) :=
  (st, .user sg) :: if answers st sg then [] else (composite st).toList.map (·, .user sg)

/-- The exits and entries between two leaves; Connected is entered through its initial
transition. -/
def crossing (st st' : BridgeState) : List (Action BridgeState Signal) :=
  if composite st = composite st' then [(st, .exit), (st', .entry), (st', .init)]
  else (st, .exit) :: (composite st).toList.map (·, .exit) ++
    (composite st').toList.flatMap (fun c =>
      if c = .connected then [(c, .entry), (c, .init)] else [(c, .entry)]) ++
    [(st', .entry), (st', .init)]

/-- Where a run to completion leads from a leaf, and its actions. -/
def path (st : BridgeState) (sg : Signal) : BridgeState × List (Action BridgeState Signal) :=
  match target st sg with
  | some st' => (st', visits st sg ++ crossing st st')
  | none => (st, visits st sg)

theorem bareDispatch_eq : ∀ st sg, isLeaf st → (bareDispatch st sg).map (fun k => (k.state, k.log)) =
    some (some (path st sg).1, (path st sg).2) := by
  decide +kernel

theorem react_eq (valid : String → δ → Bool) {st : BridgeState} (hst : isLeaf st)
    (e : BridgeEvent δ) (b : Bridge δ) : react valid st e b = ((path st e.signal).1,
      (chart valid).applyAll b ((path st e.signal).2.map (Chart.liftAction e))) := by
  rcases e with _ | _ | ok | _ | _ | _ | _ | _ | _ | _ | _ | _ | _ | _ | _
  case linkUp => cases ok <;> cases st <;> rfl
  all_goals cases st <;> first | rfl | cases hst

theorem dispatch_react (valid : String → δ → Bool) {st : BridgeState} (hst : isLeaf st)
    (e : BridgeEvent δ) {h : Hsm BridgeState (BridgeEvent δ) (Bridge δ)} (hh : h.state = some st) :
    ∃ h', (chart valid).dispatch (kMaxNest + 1) e h = some h' ∧
      h'.state = some (react valid st e h.ext).1 ∧ h'.ext = (react valid st e h.ext).2 := by
  obtain ⟨k, hk, hpath⟩ := Option.map_eq_some_iff.mp (bareDispatch_eq st e.signal hst)
  obtain ⟨hstate, hlog⟩ := Prod.mk.inj hpath
  rw [react_eq valid hst e h.ext, ← hlog, ← hstate]
  exact ⟨_, Chart.dispatch_eq_of_bare (chart_controlled valid) _ (by rw [hh]; exact hk), rfl, rfl⟩

theorem react_fst (valid : String → δ → Bool) (st : BridgeState) (e : BridgeEvent δ)
    (b : Bridge δ) : (react valid st e b).1 = (target st e.signal).getD st := by
  unfold react
  split <;> simp [*]

/-- `b'` has the effects of `b`, and behind them some that meet `P`. -/
def Leaves (P : Effect δ → Prop) (b b' : Bridge δ) : Prop :=
  ∃ es, b'.effects = b.effects ++ es ∧ ∀ f ∈ es, P f

section Leaves

variable {P Q : Effect δ → Prop} {b b' b'' : Bridge δ}

theorem leaves_none (h : b'.effects = b.effects) : Leaves P b b' :=
  ⟨[], by rw [h, List.append_nil], by simp⟩

theorem leaves_emit {es : List (Effect δ)} (h : ∀ f ∈ es, P f) : Leaves P b (b.emit es) :=
  ⟨es, rfl, h⟩

theorem leaves_emit_one {f : Effect δ} (h : P f) : Leaves P b (b.emit [f]) :=
  leaves_emit (by simpa using h)

theorem Leaves.trans (h : Leaves P b b') (h' : Leaves P b' b'') : Leaves P b b'' := by
  obtain ⟨es, heq, hes⟩ := h
  obtain ⟨es', heq', hes'⟩ := h'
  refine ⟨es ++ es', by rw [heq', heq, List.append_assoc], ?_⟩
  intro f hf
  rcases List.mem_append.mp hf with hf | hf
  · exact hes f hf
  · exact hes' f hf

theorem Leaves.mono (h : Leaves P b b') (hPQ : ∀ f, P f → Q f) : Leaves Q b b' := by
  obtain ⟨es, heq, hes⟩ := h
  exact ⟨es, heq, fun f hf => hPQ f (hes f hf)⟩

def Effect.isInvoke : Effect δ → Bool
  | .invoke _ _ => true
  | _ => false

theorem leaves_notifyConnectivity (up : Bool) :
    Leaves (fun f => ∃ token ∈ b.observers, f = .connectivity token up) b
      (b.notifyConnectivity up) := by
  refine leaves_emit ?_
  intro f hf
  obtain ⟨token, htoken, rfl⟩ := List.mem_map.mp hf
  exact ⟨token, htoken, rfl⟩

theorem leaves_failAllInFlight : Leaves (fun f => f.isInvoke) b b.failAllInFlight := by
  refine ⟨_, rfl, ?_⟩
  intro f hf
  rcases List.mem_append.mp hf with hf | hf
  · obtain ⟨i, -, rfl⟩ := List.mem_map.mp hf
    rfl
  · obtain ⟨e, -, he⟩ := List.mem_filterMap.mp hf
    cases e <;> simp only [failDeferred, reduceCtorEq, Option.some.injEq] at he
    subst he
    rfl

theorem leaves_complete (corrId : String) (reply : InFlight → Option (Envelope δ)) :
    Leaves (fun f => f.isInvoke) b (b.complete corrId reply) := by
  unfold complete
  split
  · exact leaves_none rfl
  · exact ⟨_, rfl, by simp [Effect.isInvoke]⟩

end Leaves

/-- What an event may leave for later. -/
def emits (st : BridgeState) (e : BridgeEvent δ) (b : Bridge δ) : Effect δ → Prop
  | .postFifo e' => (target st e.signal = some .connecting ∧ b.world.connectOk = false ∧ e' = .linkDown) ∨
      (target st e.signal = some .subscribing ∧ e' = .allSubAcked) ∨
      (target st e.signal = some .operational ∧ e' ∈ b.deferred)
  | .invoke _ _ => True
  | .deliver cb topic _ => st = .operational ∧
      (∃ m, e = .evtRecv m ∧ m.topic = topic) ∧ ∃ s ∈ b.subscriptions, s.topic = topic ∧ s.cb = cb
  | .connectivity token _ => (token ∈ b.observers ∧ (target st e.signal).isSome) ∨
      (st = .operational ∧ e = .subscribeConnectivity token)
  | .publish _ _ => st = .operational ∧ (e.signal = .sendReq ∨ e.signal = .publishOneway)
  | .mqttSubscribe topic => (target st e.signal = some .subscribing ∧ topic ∈ b.topics) ∨
      (st.isConnected ∧ ∃ schemaId cb, e = .subscribeEvent topic schemaId cb)
  | .mqttUnsubscribe topic => st.isConnected ∧ e = .unsubscribeEvent topic
  | .mqttDisconnect => target st e.signal = some .shuttingDown
  | .fulfil w => e = .drain w

section Emits

variable {st st' : BridgeState} {e : BridgeEvent δ} {b b' : Bridge δ}

theorem emits_of_isInvoke {f : Effect δ} (h : f.isInvoke) : emits st e b f := by
  cases f <;> trivial

theorem disconnect_leaves (h : target st e.signal = some st') (hobs : b'.observers = b.observers)
    (up : Bool) : Leaves (emits st e b) b' (b'.notifyConnectivity up).failAllInFlight := by
  refine ((leaves_notifyConnectivity up).mono ?_).trans
    (leaves_failAllInFlight.mono fun f => emits_of_isInvoke)
  rintro f ⟨token, htoken, rfl⟩
  exact .inl ⟨hobs ▸ htoken, by rw [h]; rfl⟩

theorem leave_leaves (h : target st e.signal = some st') (hobs : b'.observers = b.observers) :
    Leaves (emits st e b) b' (leave st b') := by
  cases st <;> first | exact leaves_none rfl | exact disconnect_leaves h hobs false

theorem enter_leaves (h : target st e.signal = some st') (hobs : b'.observers = b.observers)
    (hsubs : b'.subscriptions = b.subscriptions) (hdefer : ∀ e ∈ b'.deferred, e ∈ b.deferred)
    (hworld : b'.world = b.world) : Leaves (emits st e b) b' (enter st' b') := by
  cases st' with
  | connecting =>
    dsimp only [enter]
    split
    · exact leaves_none rfl
    · rename_i hno
      exact leaves_emit_one (.inl ⟨h, by simpa [hworld] using hno, rfl⟩)
  | subscribing =>
    refine (leaves_emit ?_).trans (leaves_emit_one (.inr (.inl ⟨h, rfl⟩)))
    intro f hf
    obtain ⟨topic, htopic, rfl⟩ := List.mem_map.mp hf
    refine .inl ⟨h, ?_⟩
    rw [topics, ← hsubs]
    exact htopic
  | operational =>
    refine ((leaves_notifyConnectivity true).mono ?_).trans ⟨_, rfl, ?_⟩
    · rintro f ⟨token, htoken, rfl⟩
      exact .inl ⟨hobs ▸ htoken, by rw [h]; rfl⟩
    · intro f hf
      obtain ⟨e', he', rfl⟩ := List.mem_map.mp hf
      exact .inr (.inr ⟨h, hdefer e' he'⟩)
  | backoff => exact disconnect_leaves h hobs false
  | shuttingDown => exact (disconnect_leaves h hobs false).trans (leaves_emit_one h)
  | _ => exact leaves_none rfl

theorem note_frame (sg : Signal) (b : Bridge δ) : (note sg b).effects = b.effects ∧
    (note sg b).observers = b.observers ∧ (note sg b).subscriptions = b.subscriptions ∧
    (note sg b).deferred = b.deferred ∧ (note sg b).inFlight = b.inFlight ∧
    (note sg b).world = b.world := by
  rcases sg with _ | _ | ok | _ | _ | _ | _ | _ | _ | _ | _ | _ | _ | _ | _ <;>
    try exact ⟨rfl, rfl, rfl, rfl, rfl, rfl⟩
  cases ok <;> exact ⟨rfl, rfl, rfl, rfl, rfl, rfl⟩

theorem leave_frame (st : BridgeState) (b : Bridge δ) : (leave st b).observers = b.observers ∧
    (leave st b).subscriptions = b.subscriptions ∧
    (leave st b).deferred = (if st = .operational then [] else b.deferred) ∧
    (leave st b).world = b.world := by
  cases st <;> exact ⟨rfl, rfl, rfl, rfl⟩

variable (valid : String → δ → Bool)

theorem doSendRequest_leaves (r : SendReq δ) (he : e = .sendReq r) :
    Leaves (emits .operational e b) b' (b'.doSendRequest valid r) := by
  unfold doSendRequest
  split
  · exact leaves_emit_one trivial
  · split
    · exact leaves_emit_one trivial
    · have hemplace : ∀ i, (b'.emplace i).effects = b'.effects := by
        intro i
        unfold emplace
        split <;> rfl
      dsimp only
      refine (leaves_none (hemplace ⟨r.envelope.corrId, r.topic, r.rspSchemaId⟩)).trans ?_
      split
      · exact leaves_emit_one ⟨rfl, .inl (he ▸ rfl)⟩
      · exact (leaves_complete _ _).mono fun f => emits_of_isInvoke

theorem receive_leaves (m : Message δ) (he : e = .evtRecv m) :
    Leaves (emits .operational e b) b (b.receive valid m) := by
  unfold receive
  split
  · exact leaves_none rfl
  · split
    · split
      · exact leaves_none rfl
      · exact (leaves_complete _ _).mono fun f => emits_of_isInvoke
    · split
      · exact leaves_none rfl
      · rename_i s hs
        split
        · refine leaves_emit_one ⟨rfl, ⟨m, he, rfl⟩, s, List.mem_of_find?_eq_some hs, ?_, rfl⟩
          simpa using List.find?_some hs
        · exact leaves_none rfl

theorem handle_leaves (st : BridgeState) (e : BridgeEvent δ) (b : Bridge δ) :
    Leaves (emits st e b) b (handle valid st e b) := by
  cases e with
  | drain w => exact leaves_emit_one rfl
  | sendReq r =>
    cases st <;> first
      | exact leaves_none rfl
      | exact leaves_emit_one trivial
      | exact doSendRequest_leaves valid r rfl
  | publishOneway t sid env =>
    cases st <;> try exact leaves_none rfl
    change Leaves _ b (b.doPublishOneway valid t sid env)
    unfold doPublishOneway
    split
    · exact leaves_none rfl
    · split
      · exact leaves_emit_one ⟨rfl, .inr rfl⟩
      · exact leaves_none rfl
  | evtRecv m =>
    dsimp only [handle]
    split
    · rename_i hst
      subst hst
      exact receive_leaves valid m rfl
    · exact leaves_none rfl
  | rspTimeout corrId =>
    dsimp only [handle]
    split
    · exact (leaves_complete _ _).mono fun f => emits_of_isInvoke
    · exact leaves_none rfl
  | subscribeEvent topic schemaId cb =>
    dsimp only [handle]
    split
    · exact leaves_none rfl
    · split
      · rename_i hconn
        exact (leaves_none rfl).trans (leaves_emit_one (.inr ⟨hconn, schemaId, cb, rfl⟩))
      · exact leaves_none rfl
  | unsubscribeEvent topic =>
    dsimp only [handle]
    split
    · exact leaves_none rfl
    · split
      · rename_i hconn
        exact (leaves_none rfl).trans (leaves_emit_one ⟨hconn, rfl⟩)
      · exact leaves_none rfl
  | subscribeConnectivity token =>
    dsimp only [handle]
    split
    · exact leaves_none rfl
    · split
      · rename_i hop
        exact (leaves_emit_one (.inr ⟨hop, rfl⟩)).trans (leaves_none rfl)
      · exact leaves_none rfl
  | unsubscribeConnectivity token =>
    dsimp only [handle]
    split <;> exact leaves_none rfl
  | _ => exact leaves_none rfl

/-- Taking an event adds effects behind those that are there, and only what the event may leave. -/
theorem react_leaves (st : BridgeState) (e : BridgeEvent δ) (b : Bridge δ) :
    Leaves (emits st e b) b (react valid st e b).2 := by
  unfold react
  split
  · rename_i st' h
    obtain ⟨heff, hobs, hsubs, hdefer, -, hworld⟩ := note_frame e.signal b
    obtain ⟨hobs', hsubs', hdefer', hworld'⟩ := leave_frame st (note e.signal b)
    refine (leaves_none heff).trans ((leave_leaves h hobs).trans
      (enter_leaves h (hobs'.trans hobs) (hsubs'.trans hsubs) ?_ (hworld'.trans hworld)))
    intro e' he'
    rw [hdefer', hdefer] at he'
    split at he'
    · cases he'
    · exact he'
  · exact handle_leaves valid st e b

end Emits

def observersAfter (st : BridgeState) (e : BridgeEvent δ) (observers : List ℕ) : List ℕ :=
  match e with
  | .subscribeConnectivity token =>
    if st = .shuttingDown then observers else observers.filter (· ≠ token) ++ [token]
  | .unsubscribeConnectivity token =>
    if st = .shuttingDown then observers else observers.filter (· ≠ token)
  | _ => observers

def subscriptionsAfter (st : BridgeState) (e : BridgeEvent δ) (subscriptions : List Subscription) :
    List Subscription :=
  match e with
  | .subscribeEvent topic schemaId cb =>
    if st = .shuttingDown then subscriptions
    else subscriptions.filter (fun s => s.topic ≠ topic) ++ [⟨topic, schemaId, cb⟩]
  | .unsubscribeEvent topic =>
    if st = .shuttingDown then subscriptions else subscriptions.filter (fun s => s.topic ≠ topic)
  | _ => subscriptions

section Tables

variable (valid : String → δ → Bool)

theorem complete_tables (corrId : String) (reply : InFlight → Option (Envelope δ)) (b : Bridge δ) :
    (b.complete corrId reply).observers = b.observers ∧
      (b.complete corrId reply).subscriptions = b.subscriptions := by
  unfold complete
  split <;> exact ⟨rfl, rfl⟩

theorem doSendRequest_tables (r : SendReq δ) (b : Bridge δ) :
    (b.doSendRequest valid r).observers = b.observers ∧
      (b.doSendRequest valid r).subscriptions = b.subscriptions := by
  have hemplace : ∀ i, (b.emplace i).observers = b.observers ∧
      (b.emplace i).subscriptions = b.subscriptions := by
    intro i
    unfold emplace
    split <;> exact ⟨rfl, rfl⟩
  obtain ⟨hobs, hsubs⟩ := hemplace ⟨r.envelope.corrId, r.topic, r.rspSchemaId⟩
  unfold doSendRequest
  split
  · exact ⟨rfl, rfl⟩
  · split
    · exact ⟨rfl, rfl⟩
    · dsimp only
      split
      · exact ⟨hobs, hsubs⟩
      · obtain ⟨h, h'⟩ := complete_tables r.envelope.corrId (fun _ => none)
          (b.emplace ⟨r.envelope.corrId, r.topic, r.rspSchemaId⟩)
        exact ⟨h.trans hobs, h'.trans hsubs⟩

theorem receive_tables (m : Message δ) (b : Bridge δ) :
    (b.receive valid m).observers = b.observers ∧
      (b.receive valid m).subscriptions = b.subscriptions := by
  unfold receive
  repeat' split
  all_goals first | exact ⟨rfl, rfl⟩ | exact complete_tables _ _ b

theorem handle_tables (st : BridgeState) (e : BridgeEvent δ) (b : Bridge δ) :
    (handle valid st e b).observers = observersAfter st e b.observers ∧
    (handle valid st e b).subscriptions = subscriptionsAfter st e b.subscriptions := by
  cases e with
  | sendReq r =>
    cases st <;> first
      | exact ⟨rfl, rfl⟩
      | exact doSendRequest_tables valid r b
  | publishOneway t sid env =>
    cases st <;> try exact ⟨rfl, rfl⟩
    dsimp only [handle, doPublishOneway]
    repeat' split
    all_goals exact ⟨rfl, rfl⟩
  | evtRecv m =>
    dsimp only [handle]
    split
    · exact receive_tables valid m b
    · exact ⟨rfl, rfl⟩
  | rspTimeout corrId =>
    dsimp only [handle]
    split
    · exact complete_tables _ _ b
    · exact ⟨rfl, rfl⟩
  | subscribeEvent topic schemaId cb =>
    dsimp only [handle, observersAfter, subscriptionsAfter]
    repeat' split
    all_goals exact ⟨rfl, rfl⟩
  | unsubscribeEvent topic =>
    dsimp only [handle, observersAfter, subscriptionsAfter]
    repeat' split
    all_goals exact ⟨rfl, rfl⟩
  | subscribeConnectivity token =>
    dsimp only [handle, observersAfter, subscriptionsAfter]
    repeat' split
    all_goals exact ⟨rfl, rfl⟩
  | unsubscribeConnectivity token =>
    dsimp only [handle, observersAfter, subscriptionsAfter]
    split <;> exact ⟨rfl, rfl⟩
  | _ => exact ⟨rfl, rfl⟩

theorem tablesAfter_of_target {st st' : BridgeState} {e : BridgeEvent δ}
    (h : target st e.signal = some st') :
    (∀ observers, observersAfter st e observers = observers) ∧
      ∀ subscriptions, subscriptionsAfter st e subscriptions = subscriptions := by
  cases e <;> first | exact ⟨fun _ => rfl, fun _ => rfl⟩ | (cases st <;> cases h)

theorem enter_tables (st' : BridgeState) (b : Bridge δ) : (enter st' b).observers = b.observers ∧
    (enter st' b).subscriptions = b.subscriptions := by
  cases st' <;> try exact ⟨rfl, rfl⟩
  dsimp only [enter]
  split <;> exact ⟨rfl, rfl⟩

theorem react_tables (st : BridgeState) (e : BridgeEvent δ) (b : Bridge δ) :
    (react valid st e b).2.observers = observersAfter st e b.observers ∧
    (react valid st e b).2.subscriptions = subscriptionsAfter st e b.subscriptions := by
  unfold react
  split
  · rename_i st' h
    obtain ⟨hkeep, hkeep'⟩ := tablesAfter_of_target h
    obtain ⟨-, hobs, hsubs, -⟩ := note_frame e.signal b
    obtain ⟨hobs', hsubs', -⟩ := leave_frame st (note e.signal b)
    obtain ⟨hobs'', hsubs''⟩ := enter_tables st' (leave st (note e.signal b))
    rw [hkeep, hkeep']
    exact ⟨hobs''.trans (hobs'.trans hobs), hsubs''.trans (hsubs'.trans hsubs)⟩
  · exact handle_tables valid st e b

end Tables

/-- The leaf puts the event off. -/
def defers (st : BridgeState) : BridgeEvent δ → Bool
  | .sendReq _ => st ≠ .disconnected && st ≠ .operational && st ≠ .shuttingDown
  | .publishOneway _ _ _ => st = .connecting || st = .subscribing
  | _ => false

section Deferred

variable (valid : String → δ → Bool)

theorem handle_deferred (st : BridgeState) (e : BridgeEvent δ) (b : Bridge δ) :
    (handle valid st e b).deferred = b.deferred ++ if defers st e then [e] else [] := by
  have hsame : ∀ {b' : Bridge δ}, b'.deferred = b.deferred → b'.deferred = b.deferred ++ [] :=
    fun h => h.trans (List.append_nil _).symm
  cases e with
  | sendReq r =>
    cases st <;> first
      | rfl
      | exact hsame rfl
      | exact hsame (deferred_doSendRequest valid r b)
  | publishOneway t sid env =>
    cases st <;> first
      | rfl
      | exact hsame rfl
      | exact hsame (deferred_doPublishOneway valid t sid env b)
  | evtRecv m =>
    cases st <;> first
      | exact hsame rfl
      | exact hsame (deferred_receive valid m b)
  | rspTimeout corrId =>
    cases st <;> first
      | exact hsame rfl
      | exact hsame (deferred_complete corrId _ b)
  | _ => cases st <;> exact hsame rfl

theorem enter_deferred (st' : BridgeState) (b : Bridge δ) :
    (enter st' b).deferred.Sublist b.deferred := by
  cases st' with
  | connecting =>
    dsimp only [enter]
    split <;> exact List.Sublist.refl _
  | operational => exact List.nil_sublist _
  | backoff => exact List.nil_sublist _
  | shuttingDown => exact List.nil_sublist _
  | _ => exact List.Sublist.refl _

theorem react_deferred (st : BridgeState) (e : BridgeEvent δ) (b : Bridge δ) :
    (react valid st e b).2.deferred.Sublist (b.deferred ++ if defers st e then [e] else []) ∧
      (st = .operational → b.deferred = [] → (react valid st e b).2.deferred = []) := by
  unfold react
  split
  · rename_i st' h
    have henter := enter_deferred st' (leave st (note e.signal b))
    rw [(leave_frame st (note e.signal b)).2.2.1, (note_frame e.signal b).2.2.2.1] at henter
    refine ⟨?_, ?_⟩
    · refine henter.trans ?_
      split
      · exact List.nil_sublist _
      · exact List.sublist_append_left _ _
    · intro hst _
      rw [if_pos hst] at henter
      exact List.sublist_nil.mp henter
  · rw [handle_deferred]
    refine ⟨List.Sublist.refl _, ?_⟩
    rintro rfl hnil
    rw [hnil]
    cases e <;> rfl

end Deferred

end TelafSim.ModemBridge
