import TelafSim.BridgeFence
import TelafSim.BridgeOrder

/-!
# One-way messages across a link flap

Connecting and Subscribing put a one-way message off as they do a request, and entering Operational
posts it again. Backoff puts off requests only: a one-way message that is taken there is dropped,
and so is one that is put off when Backoff is entered, since it has no callback that could be
failed. Nothing else is lost but what the MQTT client refuses to publish.
-/

namespace TelafSim.ModemBridge

variable {δ : Type}

open Bridge
open BridgeAO (calm)

def BridgeEvent.isOneway : BridgeEvent δ → Bool
  | .publishOneway _ _ _ => true
  | _ => false

/-- The payload of a one-way message passes its schema. -/
def BridgeEvent.fits (valid : String → δ → Bool) : BridgeEvent δ → Bool
  | .publishOneway _ schemaId envelope => schemaId = "" || payloadOk valid schemaId envelope
  | _ => true

def BridgeState.defersRequests : BridgeState → Bool
  | .connecting => true
  | .subscribing => true
  | .backoff => true
  | _ => false

def Effect.posted : Effect δ → Option (BridgeEvent δ)
  | .postFifo e => some e
  | _ => none

section React

variable (valid : String → δ → Bool) {st st' : BridgeState} {e : BridgeEvent δ} {b : Bridge δ}

theorem target_of_isOneway (he : e.isOneway) : target st e.signal = none := by
  cases e with
  | publishOneway topic schemaId envelope => cases st <;> rfl
  | _ => cases he

theorem target_cases (h : target st e.signal = some st') : (st' = .shuttingDown ∧ e = .stop) ∨
    st' = .connecting ∨ st' = .subscribing ∨ st' = .operational ∨ st' = .backoff := by
  have htable : ∀ st sg st', target st sg = some st' → (st' = .shuttingDown ∧ sg = .stop) ∨
      st' = .connecting ∨ st' = .subscribing ∨ st' = .operational ∨ st' = .backoff := by
    decide
  rcases htable st e.signal st' h with ⟨hst, hsg⟩ | h
  · exact .inl ⟨hst, signal_eq_stop.mp hsg⟩
  · exact .inr h

theorem target_ne_of_operational (h : target .operational e.signal = some st') :
    st' ≠ .connecting ∧ st' ≠ .subscribing ∧ st' ≠ .operational := by
  have htable : ∀ sg st', target .operational sg = some st' →
      st' ≠ .connecting ∧ st' ≠ .subscribing ∧ st' ≠ .operational := by
    decide
  exact htable e.signal st' h

theorem react_deferred_of_target (h : target st e.signal = some st') :
    (react valid st e b).2.deferred =
      if st' = .connecting ∨ st' = .subscribing then b.deferred else [] := by
  have henter : (enter st' (leave st (note e.signal b))).deferred =
      if st' = .connecting ∨ st' = .subscribing then (leave st (note e.signal b)).deferred
      else [] := by
    rcases target_cases h with ⟨rfl, -⟩ | rfl | rfl | rfl | rfl
    · rfl
    · dsimp only [enter]
      split <;> rfl
    · rfl
    · rfl
    · rfl
  simp only [react, h, henter]
  split
  · rename_i hkeeps
    have hst : st ≠ .operational := by
      rintro rfl
      obtain ⟨hne, hne', -⟩ := target_ne_of_operational h
      exact hkeeps.elim hne hne'
    rw [(leave_frame st (note e.signal b)).2.2.1, if_neg hst, (note_frame e.signal b).2.2.2.1]
  · rfl

/-- Entering Operational posts what was put off, and only that. -/
theorem posted_operational (h : target st e.signal = some .operational) :
    (react valid st e b).2.effects.filterMap Effect.posted =
      b.effects.filterMap Effect.posted ++ b.deferred := by
  obtain ⟨rfl, rfl⟩ := target_operational h
  have hnone : (b.observers.map (fun t => (.connectivity t true : Effect δ))).filterMap
      Effect.posted = [] := by
    simp [List.filterMap_map, Function.comp_def, Effect.posted]
  have hposts : (b.deferred.map (Effect.postFifo : _ → Effect δ)).filterMap Effect.posted =
      b.deferred := by
    simp [List.filterMap_map, Function.comp_def, Effect.posted]
  change ((b.effects ++ b.observers.map (fun t => (.connectivity t true : Effect δ))) ++
    b.deferred.map Effect.postFifo).filterMap Effect.posted = _
  rw [List.filterMap_append, List.filterMap_append, hnone, hposts, List.append_nil]

theorem posted_elsewhere (h : target st e.signal ≠ some .operational) (hb : b.effects = []) :
    ∀ e' ∈ (react valid st e b).2.effects.filterMap Effect.posted,
      target st e.signal ≠ none ∧ (e' = .linkDown ∨ e' = .allSubAcked) := by
  obtain ⟨es, heq, hes⟩ := react_leaves valid st e b
  intro e' he'
  obtain ⟨f, hf, hpost⟩ := List.mem_filterMap.mp he'
  rw [heq, hb, List.nil_append] at hf
  have hemits := hes f hf
  cases f with
  | postFifo e'' =>
    obtain rfl : e'' = e' := Option.some.inj hpost
    rcases hemits with ⟨htarget, -, rfl⟩ | ⟨htarget, rfl⟩ | ⟨htarget, -⟩
    · exact ⟨by rw [htarget]; simp, .inl rfl⟩
    · exact ⟨by rw [htarget]; simp, .inr rfl⟩
    · exact absurd htarget h
  | _ => cases hpost

/-- A one-way message that fits its schema is published in Operational, if the MQTT client takes
it. -/
theorem publish_of_isOneway (he : e.isOneway) (hfits : e.fits valid) (hb : b.world.publishOk) :
    (react valid .operational e b).2.effects.any Effect.isPublish := by
  cases e with
  | publishOneway topic schemaId envelope =>
    have hvalid : ¬ (schemaId ≠ "" ∧ payloadOk valid schemaId envelope = false) := by
      rintro ⟨hne, hno⟩
      simp [BridgeEvent.fits, hne, hno] at hfits
    change (b.doPublishOneway valid topic schemaId envelope).effects.any Effect.isPublish
    rw [doPublishOneway, if_neg hvalid, if_pos hb]
    simp [emit, Effect.isPublish]
  | _ => cases he

end React

/-- An event and the number of the call that posted it first. -/
abbrev Numbered (δ : Type) := ℕ × BridgeEvent δ

/-- A run of the bridge with every event numbered. -/
structure OnewayLog (δ : Type) where
  net : BridgeNet δ
  next : ℕ
  queue : List (Numbered δ)
  deferred : List (Numbered δ)
  /-- What the entry action of Operational is still to post again. -/
  due : List (Numbered δ)
  /-- The one-way messages that were taken in a state that puts requests off. -/
  parked : List (Numbered δ)
  published : List (Numbered δ)

namespace OnewayLog

def started (paId : String) : OnewayLog δ := ⟨.started paId, 1, [(0, .start)], [], [], [], []⟩

def grown (h : OnewayLog δ) (n : BridgeNet δ) : List (BridgeEvent δ) :=
  n.ao.queue.drop h.net.ao.queue.length

/-- The events put off, when their list in the bridge has become `new`: one more, or none. -/
def follow (old : List (Numbered δ)) (x : Numbered δ) (new : List (BridgeEvent δ)) :
    List (Numbered δ) :=
  if old.length < new.length then old ++ [x] else old.take new.length

def taken (h : OnewayLog δ) (n : BridgeNet δ) : OnewayLog δ :=
  match h.queue with
  | [] => { h with net := n }
  | x :: rest => { h with
      net := n
      queue := rest
      deferred := follow h.deferred x n.bridge.deferred
      due := if h.net.state ≠ some .operational ∧ n.state = some .operational then h.deferred else []
      parked := h.parked ++
        if x.2.isOneway && h.net.state.any BridgeState.defersRequests then [x] else []
      published := h.published ++ if x.2.isOneway && n.ao.todo.any Effect.isPublish then [x] else [] }

def after (h : OnewayLog δ) (n : BridgeNet δ) : BridgeNet.Label δ → OnewayLog δ
  | .take _ => h.taken n
  | .effect => { h with
      net := n
      next := h.next + 1
      queue := h.queue ++ (h.grown n).map ((h.due.head?.map Prod.fst).getD h.next, ·)
      due := h.due.drop (h.grown n).length }
  | _ => { h with
      net := n
      next := h.next + 1
      queue := h.queue ++ (h.grown n).map (h.next, ·) }

variable (valid : String → δ → Bool)

def step (h : OnewayLog δ) (l : BridgeNet.Label δ) : Option (OnewayLog δ) :=
  (h.net.step valid l).map (fun n => h.after n l)

/-- The events that are queued, put off or being posted again. -/
def waiting (h : OnewayLog δ) : List (Numbered δ) := h.queue ++ h.deferred ++ h.due

/-- No one-way message that should have been put off is lost: it waits, or it was published. -/
def NoneLost (h : OnewayLog δ) : Prop := ∀ x ∈ h.parked, x ∈ h.waiting ∨ x ∈ h.published

/-- No one-way message is taken in Backoff, one that was put off is published when its turn comes in
Operational, and Backoff is not entered while one is put off. -/
def careful (h : OnewayLog δ) : BridgeNet.Label δ → Bool
  | .take w =>
    match h.net.state, h.queue with
    | some st, x :: _ =>
      (!x.2.isOneway || st ≠ .backoff) &&
        (h.parked.all (·.1 ≠ x.1) || st ≠ .operational || w.publishOk) &&
        (target st x.2.signal ≠ some .backoff || h.deferred.all (!·.2.isOneway))
    | _, _ => true
  | _ => true

/-- Before `stop()`, and with payloads that pass their schemas. -/
def admitted : BridgeNet.Label δ → Bool
  | .stopCall => false
  | .publishOneway topic schemaId envelope =>
    (BridgeEvent.publishOneway topic schemaId envelope).fits valid
  | _ => true

/-- The numbered lists follow the bridge, which has not been stopped. -/
structure Kept (h : OnewayLog δ) : Prop where
  sound : h.net.Sound
  idle : h.net.ao.stopPhase = .idle
  running : h.net.ao.running
  up : h.net.state ≠ some .shuttingDown
  unstopped : ∀ e ∈ h.net.ao.queue, e ≠ .stop
  queue : h.queue.map Prod.snd = h.net.ao.queue
  deferred : h.deferred.map Prod.snd = h.net.bridge.deferred
  due : h.due.map Prod.snd =
    if h.net.state = some .operational then h.net.ao.todo.filterMap Effect.posted else []
  own : h.net.state ≠ some .operational →
    ∀ e ∈ h.net.ao.todo.filterMap Effect.posted, e = .linkDown ∨ e = .allSubAcked
  fits : ∀ x ∈ h.waiting, x.2.fits valid
  parked : ∀ x ∈ h.parked, x.2.isOneway
  fresh : h.net.state = some .disconnected → h.parked = []

section Steps

variable {valid} {h h' : OnewayLog δ} {n : BridgeNet δ} {l : BridgeNet.Label δ}

section Follow

variable {old : List (Numbered δ)} {x : Numbered δ} {new : List (BridgeEvent δ)}

theorem follow_concat (hnew : new = old.map Prod.snd ++ [x.2]) : follow old x new = old ++ [x] := by
  rw [follow, if_pos]
  rw [hnew]
  simp

theorem follow_same (hnew : new = old.map Prod.snd) : follow old x new = old := by
  rw [follow, if_neg, hnew, List.length_map, List.take_length]
  rw [hnew]
  simp

theorem follow_nil : follow old x [] = [] := by simp [follow]

end Follow

theorem kinds_of_idle (hidle : h.net.ao.stopPhase = .idle) (hl : admitted valid l)
    (hstep : h.net.step valid l = some n) : l.isPost ∨ (∃ w, l = .take w) ∨ l = .effect := by
  cases l with
  | take w => exact .inr (.inl ⟨w, rfl⟩)
  | effect => exact .inr (.inr rfl)
  | stopCall => cases hl
  | stopDrain =>
    obtain ⟨ao, hao, -⟩ := Option.map_eq_some_iff.mp hstep
    simp [BridgeAO.step, hidle] at hao
  | halt =>
    obtain ⟨ao, hao, -⟩ := Option.map_eq_some_iff.mp hstep
    simp [BridgeAO.step, hidle] at hao
  | join =>
    obtain ⟨ao, hao, -⟩ := Option.map_eq_some_iff.mp hstep
    simp [BridgeAO.step, hidle] at hao
  | start => simp [BridgeNet.step, hidle] at hstep
  | _ => exact .inl rfl

theorem post_stopPhase (e : BridgeEvent δ) (a : BridgeAO δ) :
    (a.post e).stopPhase = a.stopPhase := by
  unfold BridgeAO.post BridgeAO.postFifo
  split <;> rfl

theorem perform_stopPhase (f : Effect δ) (a : BridgeAO δ) :
    (a.perform f).stopPhase = a.stopPhase :=
  (a.perform_frame f).2.2.2

theorem fits_of_posts {e : BridgeEvent δ} (hl : admitted valid l) (he : h.net.posts l = some e)
    (hstep : h.net.ao.step valid (.post e) = some (h.net.ao.post e)) :
    e.fits valid ∧ e ≠ .stop := by
  refine ⟨?_, ?_⟩
  · cases l <;> simp only [BridgeNet.posts, Option.some.injEq, reduceCtorEq] at he <;> subst he <;>
      first | rfl | exact hl
  · rintro rfl
    simp [BridgeAO.step, BridgeAO.isExternal] at hstep

theorem kept_post (hk : h.Kept valid) (hl : l.isPost) (hadm : admitted valid l)
    (hstep : h.net.step valid l = some n) : (h.after n l).Kept valid ∧
      ∃ e, h.after n l = { h with
        net := n
        next := h.next + 1
        queue := h.queue ++ [(h.next, e)] } := by
  obtain ⟨e, he, hen, hpost, hn⟩ := BridgeNet.step_post hl hstep
  have hsound := BridgeNet.step_sound hk.sound hstep
  obtain ⟨hfits, hstop⟩ := fits_of_posts hadm he hpost
  have hao : n.ao = h.net.ao.post e := by rw [hn]
  have hqueue : n.ao.queue = h.net.ao.queue ++ [e] := by
    rw [hao, BridgeAO.post_queue, if_pos hk.running]
  have hafter : h.after n l = { h with
      net := n
      next := h.next + 1
      queue := h.queue ++ [(h.next, e)] } := by
    have hgrown : h.grown n = [e] := by rw [grown, hqueue, List.drop_left]
    cases l with
    | take w => cases hl
    | effect => cases hl
    | stopCall => cases hl
    | stopDrain => cases hl
    | halt => cases hl
    | join => cases hl
    | start => cases hl
    | _ =>
      dsimp only [after]
      rw [hgrown]
      rfl
  have hhsm : n.ao.hsm = h.net.ao.hsm := by rw [hao, BridgeAO.post_hsm]
  have hbridge : n.bridge = h.net.bridge := congrArg (fun m => m.ext) hhsm
  have hstate : n.state = h.net.state := congrArg (fun m => m.state) hhsm
  have htodo : n.ao.todo = h.net.ao.todo := congrArg (fun m => m.ext.effects) hhsm
  refine ⟨?_, e, hafter⟩
  rw [hafter]
  refine ⟨hsound, ?_, ?_, hstate ▸ hk.up, ?_, ?_, ?_, ?_, ?_, ?_, hk.parked, ?_⟩
  · rw [hao, post_stopPhase]
    exact hk.idle
  · rw [hao, (BridgeNet.post_frame h.net e).1]
    exact hk.running
  · intro e' he'
    rw [hqueue, List.mem_append] at he'
    rcases he' with he' | he'
    · exact hk.unstopped e' he'
    · obtain rfl := List.mem_singleton.mp he'
      exact hstop
  · rw [List.map_append, hk.queue, hqueue]
    rfl
  · rw [hbridge]
    exact hk.deferred
  · rw [hstate, htodo]
    exact hk.due
  · rw [hstate, htodo]
    exact hk.own
  · intro x hx
    simp only [waiting, List.mem_append, List.mem_singleton] at hx
    rcases hx with ((hx | rfl) | hx) | hx
    · exact hk.fits x (by simp [waiting, hx])
    · exact hfits
    · exact hk.fits x (by simp [waiting, hx])
    · exact hk.fits x (by simp [waiting, hx])
  · rw [hstate]
    exact hk.fresh

section Effect

variable {f : Effect δ} {fs : List (Effect δ)} {posted rest : List (Numbered δ)}

structure Performs (h : OnewayLog δ) (n : BridgeNet δ) (f : Effect δ) (fs : List (Effect δ))
    (posted rest : List (Numbered δ)) : Prop where
  todo : h.net.ao.todo = f :: fs
  ao : n.ao = (h.net.ao.setTodo fs).perform f
  after : h.after n .effect = { h with
    net := n
    next := h.next + 1
    queue := h.queue ++ posted
    due := rest }
  queue : n.ao.queue = h.net.ao.queue ++ posted.map Prod.snd
  events : posted.map Prod.snd = f.posted.toList
  operational : h.net.state = some .operational → h.due = posted ++ rest
  elsewhere : h.net.state ≠ some .operational → rest = []

theorem performs_of_todo (hk : h.Kept valid) (htodo : h.net.ao.todo = f :: fs)
    (hn : n.ao = (h.net.ao.setTodo fs).perform f) :
    ∃ posted rest, Performs h n f fs posted rest := by
  have hdue := hk.due
  have hqueue : n.ao.queue = h.net.ao.queue ++ f.posted.toList := by
    rw [hn]
    cases f with
    | postFifo e =>
      dsimp only [BridgeAO.perform, BridgeAO.postFifo, BridgeAO.setTodo]
      rw [if_pos hk.running, if_pos hk.running]
      rfl
    | fulfil w =>
      dsimp only [BridgeAO.perform]
      split <;> exact (List.append_nil _).symm
    | _ => exact (List.append_nil _).symm
  have hgrown : h.grown n = f.posted.toList := by rw [grown, hqueue, List.drop_left]
  refine ⟨_, _, htodo, hn, rfl, ?_, ?_, ?_, ?_⟩
  · rw [hqueue, hgrown]
    simp
  · rw [hgrown]
    simp
  · intro hop
    rw [if_pos hop, htodo] at hdue
    rw [hgrown]
    cases hf : f.posted with
    | none => rfl
    | some e =>
      rw [List.filterMap_cons_some hf] at hdue
      cases hd : h.due with
      | nil =>
        rw [hd] at hdue
        cases hdue
      | cons x ds =>
        rw [hd] at hdue
        obtain ⟨hx, -⟩ := List.cons.inj hdue
        simp [← hx]
  · intro hop
    rw [if_neg hop] at hdue
    rw [List.map_eq_nil_iff.mp hdue, List.drop_nil]

theorem step_performs (hk : h.Kept valid) (hstep : h.net.step valid .effect = some n) :
    ∃ f fs posted rest, Performs h n f fs posted rest := by
  cases BridgeNet.moves_effect hstep with
  | @effect f fs htodo =>
    exact ⟨f, fs, performs_of_todo hk htodo rfl⟩
  | post hl => cases hl
  | control _ _ _ _ _ _ _ heff => exact absurd rfl heff

theorem Performs.hsm (hp : Performs h n f fs posted rest) :
    n.ao.hsm = (h.net.ao.setTodo fs).hsm := by
  rw [hp.ao, BridgeAO.perform_hsm]

theorem Performs.state (hp : Performs h n f fs posted rest) : n.state = h.net.state :=
  congrArg (fun m => m.state) hp.hsm

theorem Performs.deferred (hp : Performs h n f fs posted rest) :
    n.bridge.deferred = h.net.bridge.deferred :=
  congrArg (fun m => m.ext.deferred) hp.hsm

theorem Performs.todo' (hp : Performs h n f fs posted rest) : n.ao.todo = fs :=
  congrArg (fun m => m.ext.effects) hp.hsm

theorem Performs.own (hp : Performs h n f fs posted rest) (hk : h.Kept valid)
    (hst : h.net.state ≠ some .operational) :
    ∀ x ∈ posted, x.2 = .linkDown ∨ x.2 = .allSubAcked := by
  intro x hx
  refine hk.own hst x.2 ?_
  rw [hp.todo, List.filterMap_cons]
  have hmem : x.2 ∈ f.posted.toList := hp.events ▸ List.mem_map_of_mem hx
  rw [Option.mem_toList] at hmem
  rw [hmem]
  exact List.mem_cons_self

theorem Performs.fits (hp : Performs h n f fs posted rest) (hk : h.Kept valid) :
    ∀ x ∈ posted ++ rest, x.2.fits valid := by
  intro x hx
  by_cases hst : h.net.state = some .operational
  · refine hk.fits x (List.mem_append_right _ ?_)
    rw [hp.operational hst]
    exact hx
  · rw [hp.elsewhere hst, List.append_nil] at hx
    rcases hp.own hk hst x hx with heq | heq <;> rw [heq] <;> rfl

theorem Performs.unstopped (hp : Performs h n f fs posted rest) (hk : h.Kept valid) :
    ∀ e ∈ n.ao.queue, e ≠ .stop := by
  intro e he
  rw [hp.queue, hp.events, List.mem_append, Option.mem_toList] at he
  rcases he with he | he
  · exact hk.unstopped e he
  · have hmem : f ∈ h.net.bridge.effects := by
      rw [show h.net.bridge.effects = f :: fs from hp.todo]
      exact List.mem_cons_self
    cases f with
    | postFifo e' =>
      obtain rfl : e' = e := Option.some.inj he
      have hdef := hk.sound.accounted.orderly.posts e' hmem
      rintro rfl
      cases hdef
    | _ => cases he

theorem Performs.due (hp : Performs h n f fs posted rest) (hk : h.Kept valid) :
    rest.map Prod.snd =
      if n.state = some .operational then n.ao.todo.filterMap Effect.posted else [] := by
  rw [hp.state, hp.todo']
  split
  · rename_i hst
    have hdue := hk.due
    rw [if_pos hst, hp.operational hst, hp.todo, List.map_append, hp.events] at hdue
    cases hf : f.posted with
    | none => simpa [hf] using hdue
    | some e => simpa [hf] using hdue
  · rename_i hst
    rw [hp.elsewhere hst]
    rfl

theorem Performs.waiting (hp : Performs h n f fs posted rest) (hk : h.Kept valid) :
    ∀ x ∈ h.waiting, x ∈ (h.after n .effect).waiting := by
  intro x hx
  rw [hp.after]
  simp only [OnewayLog.waiting, List.mem_append] at hx ⊢
  rcases hx with (hx | hx) | hx
  · exact .inl (.inl (.inl hx))
  · exact .inl (.inr hx)
  · have hst : h.net.state = some .operational := by
      by_contra hst
      have hdue := hk.due
      rw [if_neg hst, List.map_eq_nil_iff] at hdue
      rw [hdue] at hx
      cases hx
    rw [hp.operational hst, List.mem_append] at hx
    rcases hx with hx | hx
    · exact .inl (.inl (.inr hx))
    · exact .inr hx

theorem Performs.kept (hp : Performs h n f fs posted rest) (hk : h.Kept valid) (hsound : n.Sound) :
    (h.after n .effect).Kept valid := by
  rw [hp.after]
  refine ⟨hsound, ?_, ?_, hp.state ▸ hk.up, hp.unstopped hk, ?_, ?_, hp.due hk, ?_, ?_, hk.parked,
    ?_⟩
  · rw [hp.ao, perform_stopPhase]
    exact hk.idle
  · rw [hp.ao, BridgeNet.perform_running]
    exact hk.running
  · rw [List.map_append, hk.queue, hp.queue]
  · rw [hp.deferred]
    exact hk.deferred
  · rw [hp.state, hp.todo']
    intro hst e he
    refine hk.own hst e ?_
    rw [hp.todo, List.filterMap_cons]
    cases f.posted with
    | none => exact he
    | some e' => exact List.mem_cons_of_mem _ he
  · intro x hx
    simp only [OnewayLog.waiting, List.mem_append] at hx
    rcases hx with ((hx | hx) | hx) | hx
    · exact hk.fits x (by simp [OnewayLog.waiting, hx])
    · exact hp.fits hk x (List.mem_append_left _ hx)
    · exact hk.fits x (by simp [OnewayLog.waiting, hx])
    · exact hp.fits hk x (List.mem_append_right _ hx)
  · rw [hp.state]
    exact hk.fresh

end Effect

section Take

variable {w : World} {st : BridgeState} {x : Numbered δ} {rest : List (Numbered δ)}

structure Takes (valid : String → δ → Bool) (w : World) (h : OnewayLog δ) (n : BridgeNet δ)
    (st : BridgeState) (x : Numbered δ) (rest : List (Numbered δ)) : Prop where
  state : h.net.state = some st
  queue : h.queue = x :: rest
  todo : h.net.ao.todo = []
  due : h.due = []
  queue' : n.ao.queue = rest.map Prod.snd
  stopPhase : n.ao.stopPhase = h.net.ao.stopPhase
  running : n.ao.running = h.net.ao.running
  state' : n.state = some ((target st x.2.signal).getD st)
  bridge : n.bridge = (react valid st x.2 { h.net.bridge with world := w }).2

theorem step_takes (hk : h.Kept valid) (hstep : h.net.step valid (.take w) = some n) :
    ∃ st x rest, Takes valid w h n st x rest := by
  cases BridgeNet.moves_take hk.sound hstep with
  | @take _ st e es hsm hst hleaf htodo hq hstate hext =>
    have hqueue := hk.queue
    rw [hq] at hqueue
    obtain ⟨x, rest, hx, rfl, rfl⟩ := List.map_eq_cons_iff.mp hqueue
    have hdue : h.due = [] := by
      have hdue := hk.due
      rw [htodo] at hdue
      simpa using hdue
    refine ⟨st, x, rest, hst, hx, htodo, hdue, rfl, rfl, rfl, ?_, hext⟩
    rw [← react_fst valid st x.2 { h.net.bridge with world := w }]
    exact hstate
  | post hl => cases hl
  | control _ _ _ _ _ _ hkind => exact absurd rfl (hkind w)

/-- What is put off stays so or leaves for Operational, unless Backoff or ShuttingDown is entered. -/
theorem Takes.bridge_deferred (ht : Takes valid w h n st x rest) (hk : h.Kept valid) :
    n.bridge.deferred =
      if target st x.2.signal = none ∧ defers st x.2 then h.deferred.map Prod.snd ++ [x.2]
      else if target st x.2.signal = none ∨ target st x.2.signal = some .connecting ∨
        target st x.2.signal = some .subscribing then h.deferred.map Prod.snd
      else [] := by
  rw [hk.deferred, ht.bridge]
  cases htarget : target st x.2.signal with
  | none =>
    have hnew : (react valid st x.2 { h.net.bridge with world := w }).2.deferred =
        h.net.bridge.deferred ++ if defers st x.2 then [x.2] else [] := by
      simp only [react, htarget, handle_deferred]
    rw [hnew]
    by_cases hdefers : defers st x.2 <;> simp [hdefers]
  | some st' =>
    rw [react_deferred_of_target valid htarget]
    simp

theorem Takes.deferred (ht : Takes valid w h n st x rest) (hk : h.Kept valid) :
    follow h.deferred x n.bridge.deferred =
      if target st x.2.signal = none ∧ defers st x.2 then h.deferred ++ [x]
      else if target st x.2.signal = none ∨ target st x.2.signal = some .connecting ∨
        target st x.2.signal = some .subscribing then h.deferred
      else [] := by
  rw [ht.bridge_deferred hk]
  split
  · exact follow_concat rfl
  · split
    · exact follow_same rfl
    · exact follow_nil

theorem Takes.after (ht : Takes valid w h n st x rest) :
    h.after n (.take w) = { h with
      net := n
      queue := rest
      deferred := follow h.deferred x n.bridge.deferred
      due := if target st x.2.signal = some .operational then h.deferred else []
      parked := h.parked ++ if x.2.isOneway && st.defersRequests then [x] else []
      published := h.published ++
        if x.2.isOneway && n.ao.todo.any Effect.isPublish then [x] else [] } := by
  have hentered : (h.net.state ≠ some .operational ∧ n.state = some .operational) ↔
      target st x.2.signal = some .operational := by
    rw [ht.state, ht.state']
    cases htarget : target st x.2.signal with
    | none => simp
    | some st' =>
      simp only [Option.getD_some, Option.some.injEq, ne_eq, and_iff_right_iff_imp]
      rintro rfl rfl
      exact (target_ne_of_operational htarget).2.2 rfl
  rw [ht.state] at hentered
  simp only [OnewayLog.after, taken, ht.queue, ht.state, Option.any_some, hentered]

theorem mem_follow {old : List (Numbered δ)} {y : Numbered δ} {new : List (BridgeEvent δ)}
    (hy : y ∈ follow old x new) : y ∈ old ∨ y = x := by
  unfold follow at hy
  split at hy
  · simpa using hy
  · exact .inl (List.mem_of_mem_take hy)

theorem Takes.todo_eq (ht : Takes valid w h n st x rest) :
    n.ao.todo = (react valid st x.2 { h.net.bridge with world := w }).2.effects :=
  congrArg Bridge.effects ht.bridge

theorem Takes.up (ht : Takes valid w h n st x rest) (hk : h.Kept valid) :
    n.state ≠ some .shuttingDown := by
  have hstop : x.2 ≠ .stop := by
    refine hk.unstopped x.2 ?_
    rw [← hk.queue, ht.queue]
    exact List.mem_cons_self
  intro hdown
  rw [ht.state'] at hdown
  cases htarget : target st x.2.signal with
  | none =>
    rw [htarget] at hdown
    exact hk.up (ht.state.trans hdown)
  | some st' =>
    rw [htarget] at hdown
    obtain rfl : st' = .shuttingDown := Option.some.inj hdown
    rcases target_cases htarget with ⟨-, he⟩ | h | h | h | h
    · exact hstop he
    all_goals cases h

/-- Entering Operational posts again what was put off; nothing else posts there. -/
theorem Takes.due' (ht : Takes valid w h n st x rest) (hk : h.Kept valid) :
    (if target st x.2.signal = some .operational then h.deferred else []).map Prod.snd =
      if n.state = some .operational then n.ao.todo.filterMap Effect.posted else [] := by
  have hnil : ({ h.net.bridge with world := w } : Bridge δ).effects = [] := ht.todo
  rw [ht.todo_eq]
  by_cases htarget : target st x.2.signal = some .operational
  · have hst : n.state = some .operational := by
      rw [ht.state', htarget]
      rfl
    rw [if_pos htarget, if_pos hst, posted_operational valid htarget, hnil]
    exact hk.deferred
  · rw [if_neg htarget]
    split
    · rename_i hst
      refine (List.eq_nil_iff_forall_not_mem.mpr ?_).symm
      intro e he
      obtain ⟨hmoves, -⟩ := posted_elsewhere valid htarget hnil e he
      obtain ⟨st', hst'⟩ := Option.ne_none_iff_exists'.mp hmoves
      rw [ht.state', hst'] at hst
      exact htarget (hst'.trans hst)
    · rfl

theorem Takes.own (ht : Takes valid w h n st x rest) (hst : n.state ≠ some .operational) :
    ∀ e ∈ n.ao.todo.filterMap Effect.posted, e = .linkDown ∨ e = .allSubAcked := by
  intro e he
  have htarget : target st x.2.signal ≠ some .operational := by
    intro htarget
    rw [ht.state', htarget] at hst
    exact hst rfl
  have hnil : ({ h.net.bridge with world := w } : Bridge δ).effects = [] := ht.todo
  rw [ht.todo_eq] at he
  exact (posted_elsewhere valid htarget hnil e he).2

theorem Takes.waiting_sub (ht : Takes valid w h n st x rest) :
    ∀ y ∈ (h.after n (.take w)).waiting, y ∈ h.waiting := by
  intro y hy
  rw [ht.after] at hy
  simp only [waiting, List.mem_append] at hy ⊢
  rw [ht.queue]
  rcases hy with (hy | hy) | hy
  · exact .inl (.inl (List.mem_cons_of_mem _ hy))
  · rcases mem_follow hy with hy | rfl
    · exact .inl (.inr hy)
    · exact .inl (.inl List.mem_cons_self)
  · split at hy
    · exact .inl (.inr hy)
    · cases hy

theorem Takes.fresh (ht : Takes valid w h n st x rest) (hst : n.state = some .disconnected) :
    st = .disconnected := by
  rw [ht.state'] at hst
  cases htarget : target st x.2.signal with
  | none =>
    rw [htarget] at hst
    exact Option.some.inj hst
  | some st' =>
    rw [htarget] at hst
    obtain rfl : st' = .disconnected := Option.some.inj hst
    rcases target_cases htarget with ⟨h, -⟩ | h | h | h | h <;> cases h

theorem Takes.kept (ht : Takes valid w h n st x rest) (hk : h.Kept valid) (hsound : n.Sound) :
    (h.after n (.take w)).Kept valid := by
  have hfits : ∀ y ∈ (h.after n (.take w)).waiting, y.2.fits valid :=
    fun y hy => hk.fits y (ht.waiting_sub y hy)
  rw [ht.after] at hfits ⊢
  refine ⟨hsound, ht.stopPhase.trans hk.idle, ht.running.trans hk.running, ht.up hk, ?_,
    ht.queue'.symm, ?_, ht.due' hk, ht.own, hfits, ?_, ?_⟩
  · intro e he
    rw [ht.queue'] at he
    obtain ⟨y, hy, rfl⟩ := List.mem_map.mp he
    refine hk.unstopped y.2 ?_
    rw [← hk.queue, ht.queue]
    exact List.mem_map_of_mem (List.mem_cons_of_mem _ hy)
  · rw [ht.deferred hk, ht.bridge_deferred hk]
    split
    · simp
    · split <;> rfl
  · intro y hy
    rcases List.mem_append.mp hy with hy | hy
    · exact hk.parked y hy
    · split at hy
      · rename_i hpark
        obtain rfl := List.mem_singleton.mp hy
        exact (Bool.and_eq_true_iff.mp hpark).1
      · cases hy
  · intro hst
    obtain rfl := ht.fresh hst
    simp [hk.fresh ht.state, BridgeState.defersRequests]

theorem Takes.lands (ht : Takes valid w h n st x rest) (hk : h.Kept valid) (hx : x.2.isOneway)
    (hback : st ≠ .backoff) (hdis : st ≠ .disconnected) (hpub : st = .operational → w.publishOk) :
    x ∈ (h.after n (.take w)).waiting ∨ x ∈ (h.after n (.take w)).published := by
  have htarget : target st x.2.signal = none := target_of_isOneway hx
  have hleaf : isLeaf st := by
    obtain ⟨st', hst', hleaf⟩ := hk.sound.accounted.leaf
    obtain rfl : st = st' := Option.some.inj (ht.state.symm.trans hst')
    exact hleaf
  have hup : st ≠ .shuttingDown := by
    rintro rfl
    exact hk.up ht.state
  rw [ht.after, waiting, ht.deferred hk]
  by_cases hop : st = .operational
  · right
    subst hop
    have hfits : x.2.fits valid := hk.fits x (by simp [waiting, ht.queue])
    have hany := publish_of_isOneway valid hx hfits
      (b := { h.net.bridge with world := w }) (hpub rfl)
    rw [← ht.todo_eq] at hany
    simp [hx, hany]
  · left
    have hdefers : defers st x.2 := by
      cases hx' : x.2 with
      | publishOneway topic schemaId envelope => cases st <;> first | rfl | contradiction
      | _ =>
        rw [hx'] at hx
        cases hx
    simp [htarget, hdefers]

/-- A one-way message that is put off stays so, or is due again. -/
theorem Takes.remains (ht : Takes valid w h n st x rest) (hk : h.Kept valid) {y : Numbered δ}
    (hy : y ∈ h.deferred) (hoff : target st x.2.signal ≠ some .backoff)
    (hdown : target st x.2.signal ≠ some .shuttingDown) :
    y ∈ (h.after n (.take w)).waiting := by
  rw [ht.after, waiting, ht.deferred hk]
  cases htarget : target st x.2.signal with
  | none =>
    refine List.mem_append_left _ (List.mem_append_right _ ?_)
    split
    · exact List.mem_append_left _ hy
    · rw [if_pos (.inl rfl)]
      exact hy
  | some st' =>
    rcases target_cases htarget with ⟨rfl, -⟩ | rfl | rfl | rfl | rfl
    · exact absurd htarget hdown
    · simp [hy]
    · simp [hy]
    · simp [hy]
    · exact absurd htarget hoff

theorem Takes.noneLost (ht : Takes valid w h n st x rest) (hk : h.Kept valid) (hnone : h.NoneLost)
    (hcareful : h.careful (.take w)) : (h.after n (.take w)).NoneLost := by
  simp only [careful, ht.state, ht.queue, Bool.and_eq_true, Bool.or_eq_true, Bool.not_eq_true',
    decide_eq_true_eq, List.all_eq_true] at hcareful
  obtain ⟨⟨hback, hpub⟩, hoff⟩ := hcareful
  have hback : x.2.isOneway → st ≠ .backoff := by
    intro hx
    exact hback.resolve_left (by simp [hx])
  have hdown : target st x.2.signal ≠ some .shuttingDown := by
    intro htarget
    rcases target_cases htarget with ⟨-, he⟩ | h | h | h | h
    · refine hk.unstopped x.2 ?_ he
      rw [← hk.queue, ht.queue]
      exact List.mem_cons_self
    all_goals cases h
  have hold : ∀ y ∈ h.published, y ∈ (h.after n (.take w)).published := by
    intro y hy
    rw [ht.after]
    exact List.mem_append_left _ hy
  intro y hy
  rw [ht.after] at hy
  rcases List.mem_append.mp hy with hparked | hy
  · have honeway := hk.parked y hparked
    rcases hnone y hparked with hwait | hdone
    · simp only [waiting, ht.queue, ht.due, List.append_nil, List.mem_append,
        List.mem_cons] at hwait
      rcases hwait with (rfl | hrest) | hdeferred
      · refine ht.lands hk honeway (hback honeway) ?_ ?_
        · rintro rfl
          rw [hk.fresh ht.state] at hparked
          cases hparked
        · intro hop
          rcases hpub with (hnot | hne) | hok
          · exact absurd rfl (hnot y hparked)
          · exact absurd hop hne
          · exact hok
      · left
        rw [ht.after, waiting]
        exact List.mem_append_left _ (List.mem_append_left _ hrest)
      · refine .inl (ht.remains hk hdeferred ?_ hdown)
        intro htarget
        have hnot := (hoff.resolve_left (not_not.mpr htarget)) y hdeferred
        rw [honeway] at hnot
        cases hnot
    · exact .inr (hold y hdone)
  · split at hy
    · rename_i hpark
      obtain rfl := List.mem_singleton.mp hy
      obtain ⟨honeway, hdefers⟩ := Bool.and_eq_true_iff.mp hpark
      refine ht.lands hk honeway (hback honeway) ?_ ?_
      · rintro rfl
        cases hdefers
      · rintro rfl
        cases hdefers
    · cases hy

end Take

theorem step_kept (hk : h.Kept valid) (hadm : admitted valid l) (hcareful : h.careful l)
    (hnone : h.NoneLost) (hstep : h.step valid l = some h') : h'.Kept valid ∧ h'.NoneLost := by
  obtain ⟨n, hn, rfl⟩ := Option.map_eq_some_iff.mp hstep
  rcases kinds_of_idle hk.idle hadm hn with hpost | ⟨w, rfl⟩ | rfl
  · obtain ⟨hk', e, heq⟩ := kept_post hk hpost hadm hn
    refine ⟨hk', ?_⟩
    rw [heq]
    intro x hx
    refine (hnone x hx).imp_left ?_
    intro hwait
    simp only [waiting, List.mem_append] at hwait ⊢
    exact hwait.imp_left (Or.imp_left .inl)
  · obtain ⟨st, x, rest, ht⟩ := step_takes hk hn
    exact ⟨ht.kept hk (BridgeNet.step_sound hk.sound hn), ht.noneLost hk hnone hcareful⟩
  · obtain ⟨f, fs, posted, rest, hp⟩ := step_performs hk hn
    refine ⟨hp.kept hk (BridgeNet.step_sound hk.sound hn), ?_⟩
    intro x hx
    have hparked : (h.after n .effect).parked = h.parked := by rw [hp.after]
    have hpublished : (h.after n .effect).published = h.published := by rw [hp.after]
    rw [hparked] at hx
    rw [hpublished]
    exact (hnone x hx).imp_left (hp.waiting hk x)

theorem started_kept (paId : String) : (started paId : OnewayLog δ).Kept valid where
  sound := BridgeNet.started_sound paId
  idle := rfl
  running := rfl
  up h := by cases h
  unstopped e he := by
    obtain rfl := List.mem_singleton.mp he
    simp
  queue := rfl
  deferred := rfl
  due := rfl
  own _ e he := by cases he
  fits x hx := by
    obtain rfl := List.mem_singleton.mp hx
    rfl
  parked x hx := by cases hx
  fresh _ := rfl

/-- Before `stop()`, and if all payloads pass their schemas: the numbered events are those of the
queue and those put off, and no one-way message that was taken in Connecting, Subscribing or Backoff
is lost, in a run in which none is taken in Backoff, none is put off when Backoff is entered, and
the MQTT client takes those that were put off. -/
theorem noneLost_of_careful {paId : String} {ls : List (BridgeNet.Label δ)}
    (hadm : ∀ l ∈ ls, admitted valid l)
    (hcareful : Trace.AllSteps (step valid) (fun h l => h.careful l) (started paId) ls)
    (hrun : Trace.run (step valid) (started paId) ls = some h) :
    h.queue.map Prod.snd = h.net.ao.queue ∧ h.deferred.map Prod.snd = h.net.bridge.deferred ∧
      h.NoneLost := by
  have hok : Trace.AllSteps (step valid) (fun h l => admitted valid l ∧ h.careful l)
      (started paId) ls := hcareful.imp (fun _ l hl hc => ⟨hadm l hl, hc⟩)
  have hend : h.Kept valid ∧ h.NoneLost := Trace.run_invariant_of
    (fun _ _ _ hi hok hstep => step_kept hi.1 hok.1 hok.2 hi.2 hstep) hok hrun
    ⟨started_kept paId, fun x hx => by cases hx⟩
  exact ⟨hend.1.queue, hend.1.deferred, hend.2⟩

def slaveAck : BridgeNet.Label Unit :=
  .publishOneway "ap/req/power/slave_ack" "power.slave_ack.ff" ⟨"00000001", none, some ()⟩

def patientRun : List (BridgeNet.Label Unit) :=
  [.take calm, slaveAck, .take calm, .onConnect true, .take calm, .effect, .effect, .effect,
    .take calm, .effect, .take calm]

def flapRun : List (BridgeNet.Label Unit) :=
  [.take calm, .onConnect true, .take calm, .effect, .effect, .effect, .take calm, .onDisconnect,
    .take calm, slaveAck, .take calm, .onConnect true, .take calm, .effect, .effect, .effect,
    .take calm]

theorem noneLost_patientRun :
    ∃ h, Trace.run (step (fun _ _ => true)) (started "pa") patientRun = some h ∧
      h.parked.length = 1 ∧ h.NoneLost := by
  have hrun : (Trace.run (step (fun _ _ => true)) (started "pa") patientRun).any (fun h =>
      h.parked.length = 1) = true := by
    decide +kernel
  simp only [Option.any_eq_true, decide_eq_true_eq] at hrun
  obtain ⟨h, hh, hparked⟩ := hrun
  exact ⟨h, hh, hparked, (noneLost_of_careful (by decide +kernel) (by decide +kernel) hh).2.2⟩

/-- The message is gone when Operational is entered again, and was not published. -/
theorem flap_loses_oneway :
    ∃ h, Trace.run (step (fun _ _ => true)) (started "pa") flapRun = some h ∧
      h.net.state = some .operational ∧ ¬ h.NoneLost := by
  have hrun : (Trace.run (step (fun _ _ => true)) (started "pa") flapRun).any (fun h =>
      h.net.state = some .operational && h.parked.length = 1 && h.waiting.isEmpty &&
        h.published.isEmpty) = true := by
    decide +kernel
  simp only [Option.any_eq_true, Bool.and_eq_true, decide_eq_true_eq, List.isEmpty_iff] at hrun
  obtain ⟨h, hh, ⟨⟨hstate, hparked⟩, hwaiting⟩, hpublished⟩ := hrun
  refine ⟨h, hh, hstate, ?_⟩
  intro hnone
  obtain ⟨x, hx⟩ := List.length_eq_one_iff.mp hparked
  have hlost := hnone x (by rw [hx]; exact List.mem_singleton_self x)
  rw [hwaiting, hpublished] at hlost
  rcases hlost with hlost | hlost <;> cases hlost

end Steps

end OnewayLog

end TelafSim.ModemBridge
