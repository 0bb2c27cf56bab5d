import TelafSim.BridgeCallbacks
import TelafSim.BridgeReact

/-!
# The bridge and its broker

The bridge with the MQTT client's network thread and the broker. The network thread posts LinkUp,
LinkDown and EvtRecv, and the worker takes them later: between the two the connection may be gone
again, and what the worker asks of the client then is refused, or lands on the next connection.
A connection starts a clean session. A bridge that was stopped may be started again; its tables
stay as they are.
-/

namespace TelafSim.ModemBridge

variable {δ : Type}

open Bridge

namespace BridgeAO

/-- `start()` after `stop()` has returned. -/
def restart (a : BridgeAO δ) : BridgeAO δ :=
  { a with
    hsm := { a.hsm with state := some .disconnected, temp := some .disconnected }
    queue := [.start]
    running := true
    stopPhase := .idle
    drained := false }

section Frame

variable (a : BridgeAO δ)

@[simp] theorem post_hsm (e : BridgeEvent δ) : (a.post e).hsm = a.hsm := by
  unfold post postFifo
  split <;> rfl

theorem post_queue (e : BridgeEvent δ) :
    (a.post e).queue = if a.running then a.queue ++ [e] else a.queue := by
  unfold post postFifo
  split <;> rfl

theorem perform_frame (f : Effect δ) :
    (a.perform f).hsm = a.hsm ∧ (a.perform f).entered = a.entered ∧
      (a.perform f).running = a.running ∧ (a.perform f).stopPhase = a.stopPhase := by
  cases f with
  | postFifo e =>
    dsimp only [perform, postFifo]
    split <;> exact ⟨rfl, rfl, rfl, rfl⟩
  | fulfil w =>
    dsimp only [perform]
    split <;> exact ⟨rfl, rfl, rfl, rfl⟩
  | _ => exact ⟨rfl, rfl, rfl, rfl⟩

@[simp] theorem perform_hsm (f : Effect δ) : (a.perform f).hsm = a.hsm := (a.perform_frame f).1

@[simp] theorem perform_entered (f : Effect δ) : (a.perform f).entered = a.entered :=
  (a.perform_frame f).2.1

theorem post_entered (e : BridgeEvent δ) :
    (a.post e).entered = if a.running then a.entered ++ (reqOf e).toList else a.entered := by
  unfold post postFifo
  split <;> rfl

theorem perform_queue (f : Effect δ) : (a.perform f).queue = a.queue ∨
    ∃ e, f = .postFifo e ∧ (a.perform f).queue = a.queue ++ [e] := by
  cases f with
  | postFifo e =>
    dsimp only [perform, postFifo]
    split
    · exact .inr ⟨e, rfl, rfl⟩
    · exact .inl rfl
  | fulfil w =>
    dsimp only [perform]
    split <;> exact .inl rfl
  | _ => exact .inl rfl

end Frame

end BridgeAO

structure BridgeNet (δ : Type) where
  ao : BridgeAO δ
  /-- The client's network thread is running. -/
  dialed : Bool
  link : Bool
  /-- How many connections there were. -/
  conn : ℕ
  /-- The topic filters the broker holds for the connection. -/
  filters : List String
  nextCb : ℕ
  nextToken : ℕ
  nextWaiter : ℕ

def admits (filter topic : String) : Bool :=
  filter = topic || (filter = kRspWildcard && topic.startsWith "mp/rsp/") ||
    (filter = kApRspWildcard && topic.startsWith "ap/rsp/")

namespace BridgeNet

inductive Label (δ : Type)
  | sendRequest (thread : ℕ) (r : SendReq δ)
  | publishOneway (topic schemaId : String) (envelope : Envelope δ)
  | subscribeEvent (topic schemaId : String)
  | unsubscribeEvent (topic : String)
  | subscribeConnectivity
  | unsubscribeConnectivity (token : ℕ)
  | drain
  | connectTimeout
  | rspTimeout (corrId : String)
  | onConnect (ok : Bool)
  | onDisconnect
  | onMessage (m : Message δ)
  | take (w : World)
  | effect
  | stopCall
  | stopDrain
  | halt
  | join
  | start

/-- After the first `start()`. The token 0 and the waiter 0 are taken. -/
def started (paId : String) : BridgeNet δ := ⟨.started paId, false, false, 0, [], 0, 1, 1⟩

def bridge (n : BridgeNet δ) : Bridge δ := n.ao.hsm.ext

def state (n : BridgeNet δ) : StateFn BridgeState := n.ao.hsm.state

/-- What a call of the MQTT client does. Without a connection it is refused. -/
def wire : Effect δ → BridgeNet δ → BridgeNet δ
  | .mqttSubscribe topic, n =>
    if n.link then { n with filters := topic :: n.filters } else n
  | .mqttUnsubscribe topic, n =>
    if n.link then { n with filters := n.filters.filter (· ≠ topic) } else n
  | .mqttDisconnect, n => { n with dialed := false, link := false, filters := [] }
  | _, n => n

def posts (n : BridgeNet δ) : Label δ → Option (BridgeEvent δ)
  | .sendRequest _ r => some (.sendReq r)
  | .publishOneway topic schemaId envelope => some (.publishOneway topic schemaId envelope)
  | .subscribeEvent topic schemaId => some (.subscribeEvent topic schemaId n.nextCb)
  | .unsubscribeEvent topic => some (.unsubscribeEvent topic)
  | .subscribeConnectivity => some (.subscribeConnectivity n.nextToken)
  | .unsubscribeConnectivity token => some (.unsubscribeConnectivity token)
  | .drain => some (.drain n.nextWaiter)
  | .connectTimeout => some .connectTimeout
  | .rspTimeout corrId => some (.rspTimeout corrId)
  | .onConnect ok => some (.linkUp ok)
  | .onDisconnect => some .linkDown
  | .onMessage m => some (.evtRecv m)
  | _ => none

/-- The network thread connects when it may, and hears what the broker sends. -/
def enabled (n : BridgeNet δ) : Label δ → Bool
  | .unsubscribeConnectivity token => token ≠ 0
  | .onConnect _ => n.dialed && !n.link
  | .onDisconnect => n.link
  | .onMessage m => n.link && n.filters.any (admits · m.topic)
  | _ => true

/-- What a post changes besides the queue. -/
def network (n : BridgeNet δ) : Label δ → BridgeNet δ
  | .subscribeEvent _ _ => { n with nextCb := n.nextCb + 1 }
  | .subscribeConnectivity => { n with nextToken := n.nextToken + 1 }
  | .drain => { n with nextWaiter := n.nextWaiter + 1 }
  | .onConnect true => { n with link := true, conn := n.conn + 1, filters := [] }
  | .onDisconnect => { n with link := false, filters := [] }
  | _ => n

/-- The worker is about to enter Connecting. -/
def dials (n : BridgeNet δ) : Bool :=
  n.state = some .disconnected &&
    match n.ao.queue with
    | .start :: _ => true
    | _ => false

variable (valid : String → δ → Bool)

def step (n : BridgeNet δ) : Label δ → Option (BridgeNet δ)
  | .take w => (n.ao.step valid (.take w)).map (fun ao =>
      { n with ao := ao, dialed := if n.dials then w.connectOk else n.dialed })
  | .effect => (n.ao.step valid .effect).map (fun ao =>
      { n.ao.todo.head?.elim n (fun f => n.wire f) with ao := ao })
  | .stopCall => (n.ao.step valid .stopCall).map (fun ao => { n with ao := ao })
  | .stopDrain => (n.ao.step valid .stopDrain).map (fun ao => { n with ao := ao })
  | .halt => (n.ao.step valid .halt).map (fun ao => { n with ao := ao })
  | .join => (n.ao.step valid .join).map (fun ao => { n with ao := ao })
  | .start =>
    if n.ao.stopPhase = .returned then some { n with ao := n.ao.restart } else none
  | l =>
    if n.enabled l then (n.posts l).bind (fun e => (n.ao.step valid (.post e)).map (fun ao =>
      { n.network l with ao := ao }))
    else none

/-- The calls that post an event. -/
def Label.isPost : Label δ → Bool
  | .take _ => false
  | .effect => false
  | .stopCall => false
  | .stopDrain => false
  | .halt => false
  | .join => false
  | .start => false
  | _ => true

/-- Every request is accounted for, and `stop()` goes on only when the chart is down. -/
structure Sound (n : BridgeNet δ) : Prop where
  accounted : n.ao.Accounted
  stopped : n.ao.Stopped

/-- What a step comes to. -/
inductive Moves (n : BridgeNet δ) : Label δ → BridgeNet δ → Prop
  | post {l : Label δ} {e : BridgeEvent δ} (hl : l.isPost) (he : n.posts l = some e)
    (hen : n.enabled l) (hstep : n.ao.step valid (.post e) = some (n.ao.post e)) :
    Moves n l { n.network l with ao := n.ao.post e }
  | take {w : World} {st : BridgeState} {e : BridgeEvent δ} {rest : List (BridgeEvent δ)}
    {h : Hsm BridgeState (BridgeEvent δ) (Bridge δ)} (hst : n.state = some st) (hleaf : isLeaf st)
    (htodo : n.ao.todo = []) (hq : n.ao.queue = e :: rest)
    (hstate : h.state = some (react valid st e { n.bridge with world := w }).1)
    (hext : h.ext = (react valid st e { n.bridge with world := w }).2) :
    Moves n (.take w) { n with
      ao := { n.ao with
        hsm := h
        queue := rest
        swallowed := n.ao.swallowed ++ if st = .shuttingDown then (reqOf e).toList else [] }
      dialed := if n.dials then w.connectOk else n.dialed }
  | effect {f : Effect δ} {fs : List (Effect δ)} (htodo : n.ao.todo = f :: fs) :
    Moves n .effect { n.wire f with ao := (n.ao.setTodo fs).perform f }
  | control {l : Label δ} {ao : BridgeAO δ} (hl : l.isPost = false) (hhsm : ao.hsm = n.ao.hsm)
    (hent : ao.entered = n.ao.entered) (hdrained : ao.drained = n.ao.drained)
    (hhalt : ao.running = n.ao.running ∨ n.ao.drained)
    (hq : ao.queue = n.ao.queue ∨ ao.queue = n.ao.queue ++ [.stop] ∨
      ao.queue = n.ao.queue ++ [.drain 0]) (hkind : ∀ w, l ≠ .take w) (heff : l ≠ .effect) :
    Moves n l { n with ao := ao }
  | start (hret : n.ao.stopPhase = .returned) : Moves n .start { n with ao := n.ao.restart }

section Inversion

variable {valid} {n n' : BridgeNet δ} {l : Label δ}

theorem step_post (hl : l.isPost) (h : n.step valid l = some n') : ∃ e, n.posts l = some e ∧
    n.enabled l ∧ n.ao.step valid (.post e) = some (n.ao.post e) ∧
    n' = { n.network l with ao := n.ao.post e } := by
  have hstep : (if n.enabled l then (n.posts l).bind (fun e => (n.ao.step valid (.post e)).map
      (fun ao => ({ n.network l with ao := ao } : BridgeNet δ))) else none) = some n' := by
    cases l <;> first | exact h | cases hl
  rw [Option.ite_none_right_eq_some] at hstep
  obtain ⟨hen, hbind⟩ := hstep
  obtain ⟨e, he, hmap⟩ := Option.bind_eq_some_iff.mp hbind
  obtain ⟨ao, hao, rfl⟩ := Option.map_eq_some_iff.mp hmap
  have hpost : ao = n.ao.post e := by
    simp only [BridgeAO.step, Option.ite_none_right_eq_some, Option.some.injEq] at hao
    exact hao.2.symm
  subst hpost
  exact ⟨e, he, hen, hao, rfl⟩

theorem moves_post (hl : l.isPost) (h : n.step valid l = some n') : Moves valid n l n' := by
  obtain ⟨e, he, hen, hstep, rfl⟩ := step_post hl h
  exact .post hl he hen hstep

theorem moves_effect (h : n.step valid .effect = some n') : Moves valid n .effect n' := by
  obtain ⟨ao, hao, rfl⟩ := Option.map_eq_some_iff.mp h
  simp only [BridgeAO.step] at hao
  split at hao
  · cases hao
  · rename_i f fs htodo
    obtain rfl := Option.some.inj hao
    rw [htodo]
    exact .effect htodo

theorem moves_take (hn : n.Sound) {w : World} (h : n.step valid (.take w) = some n') :
    Moves valid n (.take w) n' := by
  obtain ⟨ao, hao, rfl⟩ := Option.map_eq_some_iff.mp h
  simp only [BridgeAO.step] at hao
  split at hao
  · rename_i e rest htodo hq
    obtain ⟨st, hst, hleaf⟩ := hn.accounted.leaf
    obtain ⟨h', hh', hstate, hext⟩ := dispatch_react valid hleaf e
      (h := { n.ao.hsm with ext := { n.ao.hsm.ext with world := w } }) hst
    simp only [BridgeAO.takeEvent, hh', Option.map_some, Option.some.injEq] at hao
    have hmoves := Moves.take (h := h') hst hleaf htodo hq hstate hext
    rw [← hao]
    simpa only [hst, Option.some.injEq] using hmoves
  · cases hao

/-- A call of `stop()`. -/
theorem moves_control {l' : BridgeAO.Label δ} {e : BridgeEvent δ} (he : e = .stop ∨ e = .drain 0)
    (hl : l.isPost = false) (hkind : ∀ w, l ≠ .take w) (heff : l ≠ .effect)
    (h : (n.ao.step valid l').map (fun ao => ({ n with ao := ao } : BridgeNet δ)) = some n')
    (hao : ∀ ao, n.ao.step valid l' = some ao → ao.hsm = n.ao.hsm ∧ ao.entered = n.ao.entered ∧
      ao.drained = n.ao.drained ∧ (ao.running = n.ao.running ∨ n.ao.drained) ∧
      (ao.queue = n.ao.queue ∨ ao.queue = (n.ao.postFifo e).queue)) : Moves valid n l n' := by
  obtain ⟨ao, hstep, rfl⟩ := Option.map_eq_some_iff.mp h
  obtain ⟨hhsm, hent, hdrained, hhalt, hq⟩ := hao ao hstep
  refine .control hl hhsm hent hdrained hhalt ?_ hkind heff
  rcases hq with hq | hq
  · exact .inl hq
  · rw [hq]
    unfold BridgeAO.postFifo
    split
    · rcases he with rfl | rfl
      · exact .inr (.inl rfl)
      · exact .inr (.inr rfl)
    · exact .inl rfl

theorem step_moves (hn : n.Sound) (h : n.step valid l = some n') : Moves valid n l n' := by
  have hpostFifo : ∀ e, (n.ao.postFifo e).hsm = n.ao.hsm ∧
      (n.ao.postFifo e).entered = n.ao.entered ∧ (n.ao.postFifo e).drained = n.ao.drained ∧
      (n.ao.postFifo e).running = n.ao.running := by
    intro e
    unfold BridgeAO.postFifo
    split <;> exact ⟨rfl, rfl, rfl, rfl⟩
  cases l with
  | take w => exact moves_take hn h
  | effect => exact moves_effect h
  | start =>
    simp only [step, Option.ite_none_right_eq_some, Option.some.injEq] at h
    obtain ⟨hret, rfl⟩ := h
    exact .start hret
  | stopCall =>
    refine moves_control (.inl rfl) rfl (by simp) (by simp) h ?_
    intro ao hao
    simp only [BridgeAO.step, Option.ite_none_right_eq_some, Option.some.injEq] at hao
    obtain ⟨-, rfl⟩ := hao
    obtain ⟨hhsm, hent, hdrained, hrun⟩ := hpostFifo .stop
    exact ⟨hhsm, hent, hdrained, .inl hrun, .inr rfl⟩
  | stopDrain =>
    refine moves_control (.inr rfl) rfl (by simp) (by simp) h ?_
    intro ao hao
    simp only [BridgeAO.step, Option.ite_none_right_eq_some, Option.some.injEq] at hao
    obtain ⟨-, rfl⟩ := hao
    obtain ⟨hhsm, hent, hdrained, hrun⟩ := hpostFifo (.drain 0)
    exact ⟨hhsm, hent, hdrained, .inl hrun, .inr rfl⟩
  | halt =>
    refine moves_control (.inl rfl) rfl (by simp) (by simp) h ?_
    intro ao hao
    simp only [BridgeAO.step, Option.ite_none_right_eq_some, Option.some.injEq] at hao
    obtain ⟨⟨-, hdrained⟩, rfl⟩ := hao
    exact ⟨rfl, rfl, rfl, .inr hdrained, .inl rfl⟩
  | join =>
    refine moves_control (.inl rfl) rfl (by simp) (by simp) h ?_
    intro ao hao
    simp only [BridgeAO.step, Option.ite_none_right_eq_some, Option.some.injEq] at hao
    obtain ⟨-, rfl⟩ := hao
    exact ⟨rfl, rfl, rfl, .inl rfl, .inl rfl⟩
  | _ => exact moves_post rfl h

theorem Sound.restart (hn : n.Sound) (hret : n.ao.stopPhase = .returned) :
    Sound { n with ao := n.ao.restart } := by
  obtain ⟨hq, htodo⟩ := hn.stopped.returned hret
  have heff : n.ao.hsm.ext.effects = [] := htodo
  refine ⟨⟨⟨.disconnected, rfl, rfl⟩, hn.accounted.nodup, ?_, hn.accounted.orderly,
    (fun h => by cases h)⟩, ⟨.inr rfl, ?_, (fun h => by cases h), fun h => absurd rfl h,
    (fun h => by cases h), ?_, (fun h => by cases h)⟩⟩
  · intro c
    have hcount := hn.accounted.count c
    rw [hq] at hcount
    exact hcount
  · intro h
    change .fulfil 0 ∈ n.ao.hsm.ext.effects at h
    rw [heff] at h
    cases h
  · rintro (h | h) <;> cases h

theorem step_sound (hn : n.Sound) (h : n.step valid l = some n') : n'.Sound := by
  have hao : ∀ {l'} {ao : BridgeAO δ} {m : BridgeNet δ}, n.ao.step valid l' = some ao → m.ao = ao →
      m.Sound := by
    intro l' ao m hstep hm
    obtain ⟨hacc, hst⟩ := BridgeAO.step_accounted valid hn.accounted hn.stopped hstep
    exact ⟨hm ▸ hacc, hm ▸ hst⟩
  cases l with
  | start =>
    simp only [step, Option.ite_none_right_eq_some, Option.some.injEq] at h
    obtain ⟨hret, rfl⟩ := h
    exact hn.restart hret
  | take w =>
    obtain ⟨ao, hstep, rfl⟩ := Option.map_eq_some_iff.mp h
    exact hao hstep rfl
  | effect =>
    obtain ⟨ao, hstep, rfl⟩ := Option.map_eq_some_iff.mp h
    exact hao hstep rfl
  | stopCall =>
    obtain ⟨ao, hstep, rfl⟩ := Option.map_eq_some_iff.mp h
    exact hao hstep rfl
  | stopDrain =>
    obtain ⟨ao, hstep, rfl⟩ := Option.map_eq_some_iff.mp h
    exact hao hstep rfl
  | halt =>
    obtain ⟨ao, hstep, rfl⟩ := Option.map_eq_some_iff.mp h
    exact hao hstep rfl
  | join =>
    obtain ⟨ao, hstep, rfl⟩ := Option.map_eq_some_iff.mp h
    exact hao hstep rfl
  | _ =>
    obtain ⟨e, -, -, hstep, rfl⟩ := step_post rfl h
    exact hao hstep rfl

theorem started_sound (paId : String) : (started paId : BridgeNet δ).Sound :=
  ⟨BridgeAO.started_accounted paId, BridgeAO.started_stopped paId⟩

end Inversion

end BridgeNet

end TelafSim.ModemBridge
