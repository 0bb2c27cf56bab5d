import TelafSim.BridgeNet

/-!
# The routing of responses

All processes share the response topics, and each counts its corrIds from 0, so the bridge hears
responses that are not its own. Those with another `dest` are put aside before the corrId is looked
up. What is left answers the request in flight under its corrId, and none other; a request that has
been completed is no longer in flight, so a response or a timeout that comes late finds nothing.
-/

namespace TelafSim.ModemBridge

variable {δ : Type}

open Bridge
open BridgeAO (calm)

def Effect.call : Effect δ → List (String × Option (Envelope δ))
  | .invoke corrId reply => [(corrId, reply)]
  | _ => []

/-- A reply is an envelope for this PA with the corrId of the request, or nothing. -/
def Routed (paId : String) (p : String × Option (Envelope δ)) : Prop :=
  ∀ env, p.2 = some env → env.dest = some paId ∧ env.corrId = p.1

def BridgeEvent.belongsTo : BridgeEvent δ → Option String
  | .rspTimeout corrId => some corrId
  | .evtRecv m => m.body.bind (fun env => if env.dest.isSome then some env.corrId else none)
  | _ => none

/-- An effect that gives a callback what it may be given. -/
def Effect.Routes (paId : String) (f : Effect δ) : Prop := ∀ p ∈ f.call, Routed paId p

section React

variable {paId : String} {b b' : Bridge δ}

theorem routed_none (corrId : String) :
    Routed paId ((corrId, none) : String × Option (Envelope δ)) := by
  intro env h
  cases h

theorem routes_of_call_nil {f : Effect δ} (h : f.call = []) : f.Routes paId := by
  intro p hp
  rw [h] at hp
  cases hp

theorem routes_invoke_none (corrId : String) :
    Effect.Routes paId (.invoke corrId none : Effect δ) := by
  intro p hp
  obtain rfl := List.mem_singleton.mp hp
  exact routed_none corrId

theorem routes_notifyConnectivity (up : Bool) :
    Leaves (Effect.Routes paId) b (b.notifyConnectivity up) := by
  refine (leaves_notifyConnectivity up).mono ?_
  rintro f ⟨token, -, rfl⟩
  exact routes_of_call_nil rfl

theorem routes_failAllInFlight : Leaves (Effect.Routes paId) b b.failAllInFlight := by
  refine ⟨_, rfl, ?_⟩
  intro f hf
  rcases List.mem_append.mp hf with hf | hf
  · obtain ⟨i, -, rfl⟩ := List.mem_map.mp hf
    exact routes_invoke_none i.corrId
  · obtain ⟨e, -, he⟩ := List.mem_filterMap.mp hf
    cases e <;> simp only [failDeferred, reduceCtorEq, Option.some.injEq] at he
    subst he
    exact routes_invoke_none _

theorem routes_complete {corrId : String} {reply : InFlight → Option (Envelope δ)}
    (hreply : ∀ i, Routed paId (corrId, reply i)) :
    Leaves (Effect.Routes paId) b (b.complete corrId reply) := by
  unfold complete
  split
  · exact leaves_none rfl
  · rename_i i hi
    have hcorrId : i.corrId = corrId := by simpa using List.find?_some hi
    refine ⟨_, rfl, ?_⟩
    intro f hf p hp
    obtain rfl := List.mem_singleton.mp hf
    obtain rfl := List.mem_singleton.mp hp
    rw [hcorrId]
    exact hreply i

theorem routes_disconnect (up : Bool) :
    Leaves (Effect.Routes paId) b (b.notifyConnectivity up).failAllInFlight :=
  (routes_notifyConnectivity up).trans routes_failAllInFlight

theorem routes_leave (st : BridgeState) : Leaves (Effect.Routes paId) b (leave st b) := by
  cases st <;> first | exact leaves_none rfl | exact routes_disconnect false

theorem routes_enter (st : BridgeState) : Leaves (Effect.Routes paId) b (enter st b) := by
  cases st with
  | connecting =>
    dsimp only [enter]
    split
    · exact leaves_none rfl
    · exact leaves_emit_one (routes_of_call_nil rfl)
  | subscribing =>
    refine (leaves_emit ?_).trans (leaves_emit_one (routes_of_call_nil rfl))
    intro f hf
    obtain ⟨topic, -, rfl⟩ := List.mem_map.mp hf
    exact routes_of_call_nil rfl
  | operational =>
    refine (routes_notifyConnectivity true).trans ⟨_, rfl, ?_⟩
    intro f hf
    obtain ⟨e, -, rfl⟩ := List.mem_map.mp hf
    exact routes_of_call_nil rfl
  | backoff => exact routes_disconnect false
  | shuttingDown => exact (routes_disconnect false).trans (leaves_emit_one (routes_of_call_nil rfl))
  | _ => exact leaves_none rfl

variable (valid : String → δ → Bool)

theorem routes_doSendRequest (r : SendReq δ) :
    Leaves (Effect.Routes paId) b (b.doSendRequest valid r) := by
  have hemplace : ∀ i, (b.emplace i).effects = b.effects := by
    intro i
    unfold emplace
    split <;> rfl
  unfold doSendRequest
  split
  · exact leaves_emit_one (routes_invoke_none _)
  · split
    · exact leaves_emit_one (routes_invoke_none _)
    · dsimp only
      refine (leaves_none (hemplace ⟨r.envelope.corrId, r.topic, r.rspSchemaId⟩)).trans ?_
      split
      · exact leaves_emit_one (routes_of_call_nil rfl)
      · exact routes_complete (fun _ => routed_none _)

/-- The envelope that is handed on is the one that was looked up by `dest` and corrId. -/
theorem routes_receive (m : Message δ) : Leaves (Effect.Routes b.paId) b (b.receive valid m) := by
  unfold receive
  split
  · exact leaves_none rfl
  · rename_i env _
    split
    · rename_i dest hdest
      split
      · exact leaves_none rfl
      · rename_i hpa
        refine routes_complete ?_
        intro i env' henv
        obtain ⟨-, heq⟩ := Option.ite_none_right_eq_some.mp henv
        obtain rfl := Option.some.inj heq
        exact ⟨hdest.trans (congrArg some (not_not.mp hpa)), rfl⟩
    · split
      · exact leaves_none rfl
      · split
        · exact leaves_emit_one (routes_of_call_nil rfl)
        · exact leaves_none rfl

theorem routes_handle (st : BridgeState) (e : BridgeEvent δ) (b : Bridge δ) :
    Leaves (Effect.Routes b.paId) b (handle valid st e b) := by
  cases e with
  | drain w => exact leaves_emit_one (routes_of_call_nil rfl)
  | sendReq r =>
    cases st <;> first
      | exact leaves_none rfl
      | exact leaves_emit_one (routes_invoke_none _)
      | exact routes_doSendRequest valid r
  | publishOneway t sid env =>
    cases st <;> try exact leaves_none rfl
    dsimp only [handle, doPublishOneway]
    split
    · exact leaves_none rfl
    · split
      · exact leaves_emit_one (routes_of_call_nil rfl)
      · exact leaves_none rfl
  | evtRecv m =>
    dsimp only [handle]
    split
    · exact routes_receive valid m
    · exact leaves_none rfl
  | rspTimeout corrId =>
    dsimp only [handle]
    split
    · exact routes_complete (fun _ => routed_none _)
    · exact leaves_none rfl
  | subscribeEvent topic schemaId cb =>
    dsimp only [handle]
    repeat' split
    all_goals first
      | exact leaves_none rfl
      | exact (leaves_none rfl).trans (leaves_emit_one (routes_of_call_nil rfl))
  | unsubscribeEvent topic =>
    dsimp only [handle]
    repeat' split
    all_goals first
      | exact leaves_none rfl
      | exact (leaves_none rfl).trans (leaves_emit_one (routes_of_call_nil rfl))
  | subscribeConnectivity token =>
    dsimp only [handle]
    repeat' split
    all_goals first
      | exact leaves_none rfl
      | exact (leaves_emit_one (routes_of_call_nil rfl)).trans (leaves_none rfl)
  | unsubscribeConnectivity token =>
    dsimp only [handle]
    split <;> exact leaves_none rfl
  | _ => exact leaves_none rfl

theorem routes_react (st : BridgeState) (e : BridgeEvent δ) (b : Bridge δ) :
    Leaves (Effect.Routes b.paId) b (react valid st e b).2 := by
  unfold react
  split
  · rename_i st' _
    refine (leaves_none (note_frame e.signal b).1).trans ?_
    exact (routes_leave st).trans (routes_enter st')
  · exact routes_handle valid st e b

end React

section Frame

variable (valid : String → δ → Bool)

theorem paId_complete (corrId : String) (reply : InFlight → Option (Envelope δ)) (b : Bridge δ) :
    (b.complete corrId reply).paId = b.paId := by
  unfold complete
  split <;> rfl

theorem paId_doSendRequest (r : SendReq δ) (b : Bridge δ) :
    (b.doSendRequest valid r).paId = b.paId := by
  have hemplace : ∀ i, (b.emplace i).paId = b.paId := by
    intro i
    unfold emplace
    split <;> rfl
  unfold doSendRequest
  split
  · rfl
  · split
    · rfl
    · dsimp only
      split
      · exact hemplace _
      · exact (paId_complete _ _ _).trans (hemplace _)

theorem paId_handle (st : BridgeState) (e : BridgeEvent δ) (b : Bridge δ) :
    (handle valid st e b).paId = b.paId := by
  cases e with
  | sendReq r =>
    cases st <;> first
      | rfl
      | exact paId_doSendRequest valid r b
  | rspTimeout corrId =>
    dsimp only [handle]
    split
    · exact paId_complete _ _ _
    · rfl
  | evtRecv m =>
    dsimp only [handle, receive]
    repeat' split
    all_goals first
      | rfl
      | exact paId_complete _ _ _
  | publishOneway t sid env =>
    cases st <;> try rfl
    dsimp only [handle, doPublishOneway]
    repeat' split
    all_goals rfl
  | _ =>
    dsimp only [handle]
    repeat' split
    all_goals rfl

theorem paId_react (st : BridgeState) (e : BridgeEvent δ) (b : Bridge δ) :
    (react valid st e b).2.paId = b.paId := by
  unfold react
  split
  · rename_i st' _
    have hnote : (note e.signal b).paId = b.paId := by
      unfold note
      split <;> rfl
    have hleave : (leave st (note e.signal b)).paId = (note e.signal b).paId := by
      unfold leave
      split <;> rfl
    refine Eq.trans ?_ (hleave.trans hnote)
    cases st' <;> try rfl
    dsimp only [enter]
    split <;> rfl
  · exact paId_handle valid st e b

theorem complete_of_not_mem {corrId : String} {b : Bridge δ}
    (h : corrId ∉ b.inFlight.map InFlight.corrId) (reply : InFlight → Option (Envelope δ)) :
    b.complete corrId reply = b := by
  have hnone : b.inFlight.find? (fun i => i.corrId = corrId) = none := by
    rw [List.find?_eq_none]
    intro i hi heq
    exact h (List.mem_map.mpr ⟨i, hi, of_decide_eq_true heq⟩)
  rw [complete, hnone]

/-- A response or a timeout whose request is not in flight is ignored. -/
theorem react_of_belongsTo {e : BridgeEvent δ} {corrId : String} {b : Bridge δ}
    (he : e.belongsTo = some corrId) (h : corrId ∉ b.inFlight.map InFlight.corrId)
    (st : BridgeState) : react valid st e b = (st, b) := by
  cases e with
  | rspTimeout c =>
    obtain rfl : c = corrId := Option.some.inj he
    have htarget : target st (.rspTimeout) = none := by cases st <;> rfl
    simp only [react, BridgeEvent.signal, htarget, handle, complete_of_not_mem h, ite_self]
  | evtRecv m =>
    have htarget : target st (.evtRecv) = none := by cases st <;> rfl
    obtain ⟨env, henv, hown⟩ := Option.bind_eq_some_iff.mp he
    obtain ⟨hsome, heq⟩ := Option.ite_none_right_eq_some.mp hown
    obtain ⟨dest, hdest⟩ := Option.isSome_iff_exists.mp hsome
    obtain rfl := Option.some.inj heq
    simp only [react, BridgeEvent.signal, htarget, handle, receive, henv, hdest,
      complete_of_not_mem h, ite_self]
  | _ => cases he

end Frame

namespace BridgeNet

def calls (n : BridgeNet δ) : List (String × Option (Envelope δ)) :=
  n.ao.invoked ++ n.ao.todo.flatMap Effect.call

/-- Every callback was given, and is about to be given, what is meant for it. -/
structure Routes (paId : String) (n : BridgeNet δ) : Prop where
  sound : n.Sound
  own : n.bridge.paId = paId
  calls : ∀ p ∈ n.calls, Routed paId p

section Runs

variable {valid : String → δ → Bool} {n n' : BridgeNet δ} {l : Label δ} {paId : String}

theorem postFifo_invoked (e : BridgeEvent δ) (a : BridgeAO δ) :
    (a.postFifo e).invoked = a.invoked := by
  unfold BridgeAO.postFifo
  split <;> rfl

theorem step_invoked (h : n.step valid l = some n') (hl : l ≠ .effect) :
    n'.ao.invoked = n.ao.invoked := by
  cases l with
  | effect => exact absurd rfl hl
  | start =>
    simp only [step, Option.ite_none_right_eq_some, Option.some.injEq] at h
    obtain ⟨-, rfl⟩ := h
    rfl
  | take w =>
    obtain ⟨ao, hao, rfl⟩ := Option.map_eq_some_iff.mp h
    simp only [BridgeAO.step] at hao
    split at hao
    · obtain ⟨hsm, -, rfl⟩ := Option.map_eq_some_iff.mp hao
      rfl
    · cases hao
  | stopCall =>
    obtain ⟨ao, hao, rfl⟩ := Option.map_eq_some_iff.mp h
    simp only [BridgeAO.step, Option.ite_none_right_eq_some, Option.some.injEq] at hao
    obtain ⟨-, rfl⟩ := hao
    exact postFifo_invoked _ _
  | stopDrain =>
    obtain ⟨ao, hao, rfl⟩ := Option.map_eq_some_iff.mp h
    simp only [BridgeAO.step, Option.ite_none_right_eq_some, Option.some.injEq] at hao
    obtain ⟨-, rfl⟩ := hao
    exact postFifo_invoked _ _
  | halt =>
    obtain ⟨ao, hao, rfl⟩ := Option.map_eq_some_iff.mp h
    simp only [BridgeAO.step, Option.ite_none_right_eq_some, Option.some.injEq] at hao
    obtain ⟨-, rfl⟩ := hao
    rfl
  | join =>
    obtain ⟨ao, hao, rfl⟩ := Option.map_eq_some_iff.mp h
    simp only [BridgeAO.step, Option.ite_none_right_eq_some, Option.some.injEq] at hao
    obtain ⟨-, rfl⟩ := hao
    rfl
  | _ =>
    obtain ⟨e, -, -, -, rfl⟩ := step_post rfl h
    dsimp only [BridgeAO.post]
    split
    · exact postFifo_invoked _ _
    · rfl

theorem invoked_perform (a : BridgeAO δ) (f : Effect δ) :
    (a.perform f).invoked = a.invoked ++ f.call := by
  cases f with
  | postFifo e =>
    dsimp only [BridgeAO.perform, Effect.call]
    split
    · rw [postFifo_invoked, List.append_nil]
    · exact (List.append_nil _).symm
  | fulfil w =>
    dsimp only [BridgeAO.perform, Effect.call]
    split <;> exact (List.append_nil _).symm
  | invoke corrId reply => rfl
  | _ => exact (List.append_nil _).symm

theorem calls_effect {f : Effect δ} {fs : List (Effect δ)} {m : BridgeNet δ}
    (htodo : n.ao.todo = f :: fs) (hm : m.ao = (n.ao.setTodo fs).perform f) :
    m.calls = n.calls := by
  have htodo' : m.ao.todo = fs := by
    rw [hm, BridgeAO.todo, BridgeAO.perform_hsm]
    rfl
  have hinvoked : m.ao.invoked = n.ao.invoked ++ f.call := by
    rw [hm, invoked_perform]
    rfl
  rw [calls, calls, htodo', hinvoked, htodo, List.flatMap_cons, List.append_assoc]

theorem step_routes (hn : n.Routes paId) (h : n.step valid l = some n') : n'.Routes paId := by
  have hsound := step_sound hn.sound h
  have hsame : n'.ao.hsm = n.ao.hsm → l ≠ .effect → n'.Routes paId := by
    intro hhsm hl
    refine ⟨hsound, ?_, ?_⟩
    · exact (congrArg (fun m => m.ext.paId) hhsm).trans hn.own
    · have hcalls : n'.calls = n.calls := by
        rw [calls, calls, step_invoked h hl, BridgeAO.todo, BridgeAO.todo, hhsm]
      rw [hcalls]
      exact hn.calls
  cases step_moves hn.sound h with
  | post hl he hen hstep =>
    refine hsame (BridgeAO.post_hsm _ _) ?_
    rintro rfl
    cases hl
  | @take w st e rest hsm hst hleaf htodo hq hstate hext =>
    refine ⟨hsound, ?_, ?_⟩
    · change hsm.ext.paId = paId
      rw [hext, paId_react]
      exact hn.own
    · obtain ⟨es, hes, hroutes⟩ := routes_react valid st e { n.bridge with world := w }
      have htodo' : hsm.ext.effects = es := by
        rw [hext, hes]
        change n.ao.todo ++ es = es
        rw [htodo, List.nil_append]
      intro p hp
      change p ∈ n.ao.invoked ++ hsm.ext.effects.flatMap Effect.call at hp
      rw [htodo'] at hp
      rcases List.mem_append.mp hp with hp | hp
      · exact hn.calls p (List.mem_append_left _ hp)
      · obtain ⟨f, hf, hpf⟩ := List.mem_flatMap.mp hp
        exact hn.own ▸ hroutes f hf p hpf
  | @effect f fs htodo =>
    refine ⟨hsound, ?_, ?_⟩
    · refine Eq.trans ?_ hn.own
      exact congrArg (fun m => m.ext.paId) (BridgeAO.perform_hsm _ f)
    · rw [calls_effect htodo rfl]
      exact hn.calls
  | control hl hhsm hent hdrained hhalt hq hkind heff => exact hsame hhsm heff
  | start hret => exact ⟨hsound, hn.own, hn.calls⟩

theorem started_routes (paId : String) : (started paId : BridgeNet δ).Routes paId := by
  refine ⟨started_sound paId, rfl, ?_⟩
  intro p hp
  cases hp

theorem Sound.not_inFlight (hn : n.Sound) {c : String} (hc : c ∈ n.ao.invoked.map Prod.fst) :
    c ∉ n.bridge.inFlight.map InFlight.corrId := by
  intro hmem
  have hcount := hn.accounted.count c
  have hle := List.nodup_iff_count_le_one.mp hn.accounted.nodup c
  have hinvoked := List.count_pos_iff.mpr hc
  have hflight := List.count_pos_iff.mpr hmem
  have hheld : (n.bridge.inFlight.map InFlight.corrId).count c ≤ n.ao.hsm.ext.held c := by
    simp only [held, bridge]
    omega
  omega

theorem Sound.entered (hn : n.Sound) {c : String} (hc : c ∈ n.ao.invoked.map Prod.fst) :
    c ∈ n.ao.entered := by
  have hcount := hn.accounted.count c
  have hinvoked := List.count_pos_iff.mpr hc
  exact List.count_pos_iff.mp (by omega)

/-- A callback is given an envelope for this PA with the corrId of its own request, or nothing. A
response or a timeout of a request that was called back leaves the requests in flight as they are
and calls nothing. -/
theorem routed_run {ls : List (Label δ)}
    (hrun : Trace.run (step valid) (started paId) ls = some n) :
    (∀ p ∈ n.ao.invoked, p.1 ∈ n.ao.entered ∧
      ∀ env, p.2 = some env → env.dest = some paId ∧ env.corrId = p.1) ∧
    ∀ {w e rest c n'}, n.ao.queue = e :: rest → e.belongsTo = some c →
      c ∈ n.ao.invoked.map Prod.fst → n.step valid (.take w) = some n' →
      n'.bridge.inFlight = n.bridge.inFlight ∧ n'.ao.todo = [] ∧ n'.ao.invoked = n.ao.invoked := by
  have hn : n.Routes paId := Trace.run_invariant (fun _ _ _ hn hstep => step_routes hn hstep) hrun
    (started_routes paId)
  refine ⟨?_, ?_⟩
  · intro p hp
    exact ⟨hn.sound.entered (List.mem_map_of_mem hp), hn.calls p (List.mem_append_left _ hp)⟩
  · intro w e rest c n' hqueue he hc hstep
    have hinvoked := step_invoked hstep (by simp)
    cases moves_take hn.sound hstep with
    | @take _ st e' rest' hsm hst hleaf htodo hq hstate hext =>
      obtain ⟨rfl, rfl⟩ := List.cons.inj (hqueue.symm.trans hq)
      have hignored := react_of_belongsTo valid (b := { n.bridge with world := w }) he
        (hn.sound.not_inFlight hc) st
      have hext : hsm.ext = { n.bridge with world := w } := hext.trans (congrArg Prod.snd hignored)
      refine ⟨?_, ?_, hinvoked⟩
      · change hsm.ext.inFlight = n.bridge.inFlight
        rw [hext]
      · change hsm.ext.effects = []
        rw [hext]
        exact htodo
    | control hl hhsm hent hdrained hhalt hq hkind heff => exact absurd rfl (hkind w)
    | post hl he hen hstep => cases hl

def response (c dest : String) : Message Unit := ⟨"mp/rsp/sim/get", some ⟨c, some dest, none⟩⟩

/-- Two requests are sent. The first one is answered twice, and a response with the corrId of the
second one is meant for another PA. -/
def answeredTwice : List (Label Unit) :=
  [.take calm, .onConnect true, .take calm, .effect, .effect, .effect, .take calm,
    .sendRequest 0 ⟨"mp/req/sim/get", "sim.get.rsp", ⟨"a", none, none⟩, 1000⟩, .take calm, .effect,
    .sendRequest 0 ⟨"mp/req/sim/get", "sim.get.rsp", ⟨"b", none, none⟩, 1000⟩, .take calm, .effect,
    .onMessage (response "b" "other"), .onMessage (response "a" "pa"),
    .onMessage (response "a" "pa"), .take calm, .take calm, .effect]

theorem routed_answeredTwice :
    ∃ n n', Trace.run (step (fun _ _ => true)) (started "pa") answeredTwice = some n ∧
      n.ao.invoked.map Prod.fst = ["a"] ∧ n.step (fun _ _ => true) (.take calm) = some n' ∧
      n'.bridge.inFlight = n.bridge.inFlight ∧ n'.ao.invoked = n.ao.invoked := by
  have hrun : (Trace.run (step (fun _ _ => true)) (started "pa") answeredTwice).any (fun n =>
      n.ao.invoked.map Prod.fst = ["a"] && n.ao.queue.head?.any (fun e => e.belongsTo = some "a") &&
        (n.step (fun _ _ => true) (.take calm)).isSome) = true := by
    decide +kernel
  simp only [Option.any_eq_true, Bool.and_eq_true, decide_eq_true_eq] at hrun
  obtain ⟨n, hn, ⟨hinvoked, e, hhead, hown⟩, hsome⟩ := hrun
  obtain ⟨n', hn'⟩ := Option.isSome_iff_exists.mp hsome
  obtain ⟨rest, hqueue⟩ := List.head?_eq_some_iff.mp hhead
  have hdone : "a" ∈ n.ao.invoked.map Prod.fst := by
    rw [hinvoked]
    exact List.mem_singleton_self _
  obtain ⟨hflight, -, hcalls⟩ := (routed_run hn).2 hqueue hown hdone hn'
  exact ⟨n, n', hn, hinvoked, hn', hflight, hcalls⟩

end Runs

end BridgeNet

end TelafSim.ModemBridge
