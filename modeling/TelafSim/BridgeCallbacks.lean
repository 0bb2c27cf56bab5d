import TelafSim.BridgeControl

/-!
# RPC callbacks of the bridge

A request that entered is in the queue, held by the chart, called back or swallowed, and in one of
these once. ShuttingDown fails what it finds on entry and takes nothing up after that; the fence
of `stop()` stands behind Stop in the queue. So when `stop()` has returned every request was
called back or swallowed, and it is swallowed exactly when it is taken in ShuttingDown.
-/

namespace TelafSim.ModemBridge

variable {δ : Type} (valid : String → δ → Bool)

open Bridge

/-- What is deferred and posted came from SendReq, PublishOneway or the chart itself. -/
structure Bridge.Orderly (b : Bridge δ) : Prop where
  deferred : ∀ e ∈ b.deferred, deferrable e
  posts : ∀ e, .postFifo e ∈ b.effects → deferrable e

/-- ShuttingDown holds no request but in effects that call back. -/
structure Bridge.Settled (b : Bridge δ) : Prop where
  deferred : b.deferred = []
  inFlight : b.inFlight = []
  posts : ∀ e, .postFifo e ∉ b.effects

theorem handler_orderly {s : BridgeState} {ev : Event (BridgeEvent δ)} {b : Bridge δ}
    (hb : b.Orderly) : ((chart valid).handler s ev b).ext.Orderly where
  deferred e he := (handler_deferred valid he).elim (hb.deferred e) id
  posts e he := by
    rcases handler_effects valid he with h | ⟨-, -, rfl | rfl | h⟩
    · exact hb.posts e h
    · rfl
    · rfl
    · exact hb.deferred e h

/-- One run to completion: from the leaf `st` with data `b`, on `e`, to `st'` with data `b'`. -/
structure RunsTo (st : BridgeState) (e : BridgeEvent δ) (b : Bridge δ) (st' : BridgeState)
    (b' : Bridge δ) : Prop where
  leaf : isLeaf st'
  down : st' = .shuttingDown ↔ st = .shuttingDown ∨ e = .stop
  held : (∀ c ∈ reqOf e, c ∉ b.inFlight.map InFlight.corrId) → ∀ c, b'.held c =
    b.held c + if st = .shuttingDown then 0 else (reqOf e).toList.count c
  orderly : b.Orderly → b'.Orderly
  fulfil : ∀ w, .fulfil w ∈ b'.effects → .fulfil w ∈ b.effects ∨ e = .drain w
  settled : b.effects = [] → (st = .shuttingDown → b.Settled) → st' = .shuttingDown → b'.Settled

theorem signal_eq_sendReq {e : BridgeEvent δ} (he : e.signal = .sendReq) : ∃ r, e = .sendReq r := by
  cases e <;> first | cases he; done | exact ⟨_, rfl⟩

theorem signal_eq_stop {e : BridgeEvent δ} : e.signal = .stop ↔ e = .stop := by
  cases e <;> simp [BridgeEvent.signal]

theorem liftEvent_eq_user {e e' : BridgeEvent δ} {ev : Event Signal}
    (h : Chart.liftEvent e ev = .user e') : e = e' := by
  cases ev <;> simp_all [Chart.liftEvent]

/-- The actions of a dispatch from the leaf `st`, applied to the data. -/
def acted (e : BridgeEvent δ) (k : Hsm BridgeState Signal Unit) (b : Bridge δ) : Bridge δ :=
  (chart valid).applyAll b (k.log.map (Chart.liftAction e))

section Acted

variable {st : BridgeState} {e : BridgeEvent δ} {k : Hsm BridgeState Signal Unit} {b : Bridge δ}

theorem acted_keeps {P : Bridge δ → Prop}
    (hact : ∀ a ∈ k.log, ∀ b, P b →
      P ((chart valid).handler a.1 (Chart.liftEvent e a.2) b).ext) (hb : P b) :
    P (acted valid e k b) := by
  apply Chart.applyAll_keeps _ hb
  intro a ha
  obtain ⟨a', ha', rfl⟩ := List.mem_map.mp ha
  exact hact a' ha'

variable (hk : bareDispatch st e.signal = some k) (hst : isLeaf st)

include hk hst in
theorem acted_held (hfresh : ∀ c ∈ reqOf e, c ∉ b.inFlight.map InFlight.corrId) (c : String) :
    (acted valid e k b).held c =
      b.held c + if st = .shuttingDown then 0 else (reqOf e).toList.count c := by
  by_cases he : e.signal = .sendReq
  · obtain ⟨r, rfl⟩ := signal_eq_sendReq he
    have hlog := bareDispatch_sendReq st hst
    rw [he] at hk
    simp only [hk, Option.all_some, decide_eq_true_eq] at hlog
    have hact : acted valid (.sendReq r) k b =
        ((chart valid).handler st (.user (.sendReq r)) b).ext := by
      rw [acted, hlog.2]
      rfl
    rw [hact]
    split
    · rename_i hdown
      subst hdown
      rfl
    · rename_i hdown
      exact handler_sendReq_held valid c hst hdown r b (hfresh _ rfl)
  · have hnone : reqOf e = none := by
      cases e <;> first | rfl | exact absurd rfl he
    rw [hnone]
    have hheld : (acted valid e k b).held c = b.held c := by
      apply acted_keeps valid (P := fun b' => b'.held c = b.held c) _ rfl
      intro a ha b' hb'
      rw [handler_held valid c a.1 b' _, hb']
      intro r hr
      rw [liftEvent_eq_user hr] at he
      exact he rfl
    rw [hheld]
    split <;> simp

theorem acted_orderly (hb : b.Orderly) : (acted valid e k b).Orderly :=
  acted_keeps valid (fun _ _ _ => handler_orderly valid) hb

theorem acted_fulfil (w : ℕ) (hw : .fulfil w ∈ (acted valid e k b).effects) :
    .fulfil w ∈ b.effects ∨ e = .drain w := by
  revert hw
  apply acted_keeps valid (P := fun b' => .fulfil w ∈ b'.effects → .fulfil w ∈ b.effects ∨ e = .drain w)
    _ .inl
  intro a ha b' hb' hw
  rcases handler_effects valid hw with h | h
  · exact hb' h
  · exact .inr (liftEvent_eq_user h)

include hk hst in
theorem acted_settled (heff : b.effects = []) (hb : st = .shuttingDown → b.Settled)
    (hdown : st = .shuttingDown ∨ e = .stop) : (acted valid e k b).Settled := by
  by_cases hsd : st = .shuttingDown
  · subst hsd
    -- a single call of the handler, which emits at most the fulfilling of a fence
    have hlog := bareDispatch_shuttingDown e.signal
    rw [hk] at hlog
    simp only [Option.all_some, decide_eq_true_eq] at hlog
    have hset := hb rfl
    have hact : acted valid e k b = (shuttingDownSt (.user e) b).ext := by
      rw [acted, hlog]
      rfl
    rw [hact]
    cases e <;> first | exact hset | skip
    refine ⟨hset.deferred, hset.inFlight, ?_⟩
    intro e he
    rcases List.mem_append.mp he with he | he
    · exact hset.posts e he
    · cases List.mem_singleton.mp he
  · obtain rfl : e = .stop := hdown.resolve_left hsd
    have hlog := bareDispatch_stop st hst hsd
    rw [show Signal.stop = (BridgeEvent.stop : BridgeEvent δ).signal from rfl, hk] at hlog
    simp only [Option.all_some, decide_eq_true_eq] at hlog
    obtain ⟨⟨pre, hpre⟩, hentry⟩ := hlog
    have hact : acted valid .stop k b = (shuttingDownSt .entry
        ((chart valid).applyAll b (pre.map (Chart.liftAction .stop)))).ext := by
      rw [acted, ← hpre, List.map_append, Chart.applyAll_append]
      rfl
    refine ⟨?_, ?_, ?_⟩
    · rw [hact]
      rfl
    · rw [hact]
      rfl
    · intro e
      apply acted_keeps valid (P := fun b' => .postFifo e ∉ b'.effects) _ (by simp [heff])
      intro a ha b' hb' he
      rcases handler_effects valid he with h | ⟨h, hne, -⟩
      · exact hb' h
      · apply hne
        apply hentry a ha
        generalize a.2 = ev at h
        cases ev <;> first | rfl | cases h

end Acted

theorem dispatch_runsTo {st : BridgeState} (hst : isLeaf st) (e : BridgeEvent δ)
    {h : Hsm BridgeState (BridgeEvent δ) (Bridge δ)} (hh : h.state = some st) :
    ∃ h' st', (chart valid).dispatch (kMaxNest + 1) e h = some h' ∧ h'.state = some st' ∧
      RunsTo st e h.ext st' h'.ext := by
  have htarget := bareDispatch_target st e.signal hst
  obtain ⟨k, hk, hgood⟩ := (Option.any_eq_true _ _).mp htarget
  unfold goodTarget at hgood
  split at hgood
  · cases hgood
  · rename_i st' hst'
    simp only [Bool.and_eq_true, decide_eq_true_eq, signal_eq_stop] at hgood
    refine ⟨_, st', Chart.dispatch_eq_of_bare (chart_controlled valid) _ (by rw [hh]; exact hk),
      hst', ⟨hgood.1, hgood.2, acted_held valid hk hst, acted_orderly valid, acted_fulfil valid, ?_⟩⟩
    intro heff hb hdown
    exact acted_settled valid hk hst heff hb (hgood.2.mp hdown)

/-- The fence of `stop()` stands behind a Stop. -/
def fenced : List (BridgeEvent δ) → Bool
  | [] => true
  | .stop :: _ => true
  | .drain 0 :: _ => false
  | _ :: q => fenced q

theorem fenced_append {q : List (BridgeEvent δ)} {e : BridgeEvent δ} (hq : fenced q)
    (he : e = .drain 0 → .stop ∈ q) : fenced (q ++ [e]) := by
  fun_induction fenced q with
  | case1 =>
    unfold fenced
    split <;> simp_all [fenced]
  | case2 q => rfl
  | case3 q => cases hq
  | case4 x q hstop hdrain ih =>
    have hx : x ≠ .stop := fun h => hstop h
    rw [List.cons_append, fenced]
    · apply ih hq
      intro h
      rcases List.mem_cons.mp (he h) with h | h
      · exact absurd h.symm hx
      · exact h
    · exact hstop
    · exact hdrain

theorem fenced_of_cons {q : List (BridgeEvent δ)} {e : BridgeEvent δ} (hq : fenced (e :: q))
    (he : e ≠ .stop) : fenced q ∧ e ≠ .drain 0 := by
  unfold fenced at hq
  split at hq
  · rename_i h
    cases h
  · rename_i h
    exact absurd (List.cons.inj h).1 he
  · cases hq
  · rename_i x q' hstop hdrain h
    obtain ⟨rfl, rfl⟩ := List.cons.inj h
    exact ⟨hq, hdrain⟩

namespace BridgeAO

def down (a : BridgeAO δ) : Prop := a.hsm.state = some .shuttingDown

/-- Every request that entered is in one place. -/
structure Accounted (a : BridgeAO δ) : Prop where
  leaf : ∃ st, a.hsm.state = some st ∧ isLeaf st
  nodup : a.entered.Nodup
  count : ∀ c, a.entered.count c = (a.queue.filterMap reqOf).count c + a.hsm.ext.held c +
    (a.invoked.map Prod.fst).count c + a.swallowed.count c
  orderly : a.hsm.ext.Orderly
  settled : a.down → a.hsm.ext.Settled

/-- `stop()` goes on past its fence only when the chart is down. -/
structure Stopped (a : BridgeAO δ) : Prop where
  queue : a.down ∨ fenced a.queue
  fulfil : .fulfil 0 ∈ a.todo → a.down
  drained : a.drained → a.down
  posted : a.stopPhase ≠ .idle → a.down ∨ .stop ∈ a.queue
  running : a.running = false → a.down
  halted : a.stopPhase = .halted ∨ a.stopPhase = .returned → a.running = false
  returned : a.stopPhase = .returned → a.queue = [] ∧ a.todo = []

theorem started_accounted (paId : String) : (started paId : BridgeAO δ).Accounted where
  leaf := ⟨.disconnected, rfl, rfl⟩
  nodup := List.nodup_nil
  count _ := rfl
  orderly := ⟨(fun _ h => by cases h), (fun _ h => by cases h)⟩
  settled h := by cases h

theorem started_stopped (paId : String) : (started paId : BridgeAO δ).Stopped where
  queue := .inr rfl
  fulfil h := by cases h
  drained h := by cases h
  posted h := absurd rfl h
  running h := by cases h
  halted h := by rcases h with h | h <;> cases h
  returned h := by cases h

section Steps

variable {a a' : BridgeAO δ}

theorem Stopped.postFifo (ha : a.Stopped) {e : BridgeEvent δ}
    (he : e = .drain 0 → a.down ∨ .stop ∈ a.queue) : (a.postFifo e).Stopped := by
  unfold BridgeAO.postFifo
  split
  · rename_i hrun
    have hret : a.stopPhase ≠ .returned := by
      intro h
      rw [ha.halted (.inr h)] at hrun
      cases hrun
    refine ⟨?_, ha.fulfil, ha.drained, ?_, ha.running, ha.halted, fun h => absurd h hret⟩
    · by_cases hd : a.down
      · exact .inl hd
      · exact .inr (fenced_append (ha.queue.resolve_left hd) (fun h => (he h).resolve_left hd))
    · intro h
      exact (ha.posted h).imp_right (fun h => List.mem_append_left _ h)
  · exact ha

theorem Accounted.postFifo (ha : a.Accounted) {e : BridgeEvent δ} (he : reqOf e = none) :
    (a.postFifo e).Accounted := by
  unfold BridgeAO.postFifo
  split
  · refine ⟨ha.leaf, ha.nodup, ?_, ha.orderly, ha.settled⟩
    intro c
    simpa [List.filterMap_append, List.filterMap_cons, he] using ha.count c
  · exact ha

theorem Accounted.post (ha : a.Accounted) {e : BridgeEvent δ}
    (he : (reqOf e).all (· ∉ a.entered)) : (a.post e).Accounted := by
  unfold BridgeAO.post BridgeAO.postFifo
  split
  · refine ⟨ha.leaf, ?_, ?_, ha.orderly, ha.settled⟩
    · cases hr : reqOf e with
      | none => simpa [hr] using ha.nodup
      | some c =>
        have hc : c ∉ a.entered := by simpa [hr] using he
        simpa [hr, List.nodup_append] using ⟨ha.nodup, fun x hx h => hc (h ▸ hx)⟩
    · intro c
      have hcount := ha.count c
      cases hr : reqOf e <;>
        simp only [List.count_append, List.filterMap_append, List.filterMap_cons, hr,
          List.filterMap_nil, Option.toList] <;> omega
  · exact ha

theorem Stopped.post (ha : a.Stopped) {e : BridgeEvent δ} (he : isExternal e) :
    (a.post e).Stopped := by
  have hfifo : (a.postFifo e).Stopped := ha.postFifo (fun h => by simp [h, isExternal] at he)
  unfold BridgeAO.post
  split
  · exact ⟨hfifo.queue, hfifo.fulfil, hfifo.drained, hfifo.posted, hfifo.running, hfifo.halted,
      hfifo.returned⟩
  · exact ha

section Effect

variable {f : Effect δ} {fs : List (Effect δ)}

@[simp] theorem setTodo_entered : (a.setTodo fs).entered = a.entered := rfl

@[simp] theorem setTodo_queue : (a.setTodo fs).queue = a.queue := rfl

@[simp] theorem setTodo_invoked : (a.setTodo fs).invoked = a.invoked := rfl

@[simp] theorem setTodo_swallowed : (a.setTodo fs).swallowed = a.swallowed := rfl

theorem held_setTodo (htodo : a.todo = f :: fs) (c : String) :
    a.hsm.ext.held c = (a.setTodo fs).hsm.ext.held c + f.req.toList.count c := by
  have heff : a.hsm.ext.effects = f :: fs := htodo
  simp only [held, setTodo, heff]
  cases hr : f.req <;> simp only [List.filterMap_cons, hr, Option.toList, List.count_nil,
    List.count_cons] <;> omega

theorem Accounted.perform (ha : a.Accounted) (htodo : a.todo = f :: fs) :
    ((a.setTodo fs).perform f).Accounted := by
  have hsub : ∀ g ∈ (a.setTodo fs).hsm.ext.effects, g ∈ a.hsm.ext.effects := by
    intro g hg
    have heff : a.hsm.ext.effects = f :: fs := htodo
    rw [heff]
    exact List.mem_cons_of_mem f hg
  have horderly : (a.setTodo fs).hsm.ext.Orderly :=
    ⟨ha.orderly.deferred, fun e he => ha.orderly.posts e (hsub _ he)⟩
  have hsettled : a.down → (a.setTodo fs).hsm.ext.Settled := by
    intro hd
    have hset := ha.settled hd
    exact ⟨hset.deferred, hset.inFlight, fun e he => hset.posts e (hsub _ he)⟩
  have hcount : ∀ c, a.entered.count c = (a.queue.filterMap reqOf).count c +
      (a.setTodo fs).hsm.ext.held c + f.req.toList.count c + (a.invoked.map Prod.fst).count c +
      a.swallowed.count c := by
    intro c
    have hc := ha.count c
    rw [held_setTodo htodo] at hc
    omega
  cases f with
  | postFifo e =>
    simp only [Effect.req] at hcount
    unfold BridgeAO.perform BridgeAO.postFifo
    dsimp only
    split
    · refine ⟨ha.leaf, ha.nodup, ?_, horderly, hsettled⟩
      intro c
      have hc := hcount c
      cases hr : reqOf e <;> simp [hr] at hc ⊢ <;> omega
    · refine ⟨ha.leaf, ha.nodup, ?_, horderly, hsettled⟩
      intro c
      have hc := hcount c
      simp only [setTodo_entered, setTodo_queue, setTodo_invoked, setTodo_swallowed,
        List.count_append]
      omega
  | invoke corrId reply =>
    refine ⟨ha.leaf, ha.nodup, ?_, horderly, hsettled⟩
    intro c
    have hc := hcount c
    simp only [BridgeAO.perform, setTodo_entered, setTodo_queue, setTodo_invoked,
      setTodo_swallowed, Effect.req, Option.toList, List.map_append, List.count_append,
      List.map_cons, List.map_nil] at hc ⊢
    omega
  | fulfil w =>
    unfold BridgeAO.perform
    dsimp only
    split
    · exact ⟨ha.leaf, ha.nodup, hcount, horderly, hsettled⟩
    · exact ⟨ha.leaf, ha.nodup, hcount, horderly, hsettled⟩
  | _ => exact ⟨ha.leaf, ha.nodup, hcount, horderly, hsettled⟩

theorem Stopped.perform (ha : a.Stopped) (hacc : a.Accounted) (htodo : a.todo = f :: fs) :
    ((a.setTodo fs).perform f).Stopped := by
  have hf : f ∈ a.hsm.ext.effects := by
    rw [show a.hsm.ext.effects = f :: fs from htodo]
    exact List.mem_cons_self
  have hset : (a.setTodo fs).Stopped := by
    refine ⟨ha.queue, ?_, ha.drained, ha.posted, ha.running, ha.halted, ?_⟩
    · intro h
      apply ha.fulfil
      rw [htodo]
      exact List.mem_cons_of_mem f h
    · intro h
      have hnil := (ha.returned h).2
      rw [htodo] at hnil
      cases hnil
  cases f with
  | postFifo e =>
    unfold BridgeAO.perform
    dsimp only
    split
    · apply hset.postFifo
      rintro rfl
      cases hacc.orderly.posts _ hf
    · exact ⟨hset.queue, hset.fulfil, hset.drained, hset.posted, hset.running, hset.halted,
        hset.returned⟩
  | fulfil w =>
    unfold BridgeAO.perform
    dsimp only
    split
    · rename_i hw
      subst hw
      exact ⟨hset.queue, hset.fulfil, fun _ => ha.fulfil hf, hset.posted, hset.running, hset.halted,
        hset.returned⟩
    · exact hset
  | _ => exact ⟨hset.queue, hset.fulfil, hset.drained, hset.posted, hset.running, hset.halted,
      hset.returned⟩

/-- Nothing is posted once the worker is being joined, so a post is never lost. -/
theorem swallowed_perform (ha : a.Stopped) (hacc : a.Accounted) (htodo : a.todo = f :: fs) :
    ((a.setTodo fs).perform f).swallowed = a.swallowed := by
  have hf : f ∈ a.hsm.ext.effects := by
    rw [show a.hsm.ext.effects = f :: fs from htodo]
    exact List.mem_cons_self
  cases f with
  | postFifo e =>
    unfold BridgeAO.perform BridgeAO.postFifo
    dsimp only
    split
    · rfl
    · rename_i hrun
      have hdown := ha.running (by simpa [setTodo] using hrun)
      exact absurd hf ((hacc.settled hdown).posts e)
  | fulfil w =>
    unfold BridgeAO.perform
    dsimp only
    split <;> rfl
  | _ => rfl

end Effect

section Take

variable {w : World} {e : BridgeEvent δ} {rest : List (BridgeEvent δ)}

/-- What taking `e` does, in terms of one run to completion. -/
theorem takeEvent_cases (hacc : a.Accounted) (ha' : a.takeEvent valid w e rest = some a') :
    ∃ st st' h', a.hsm.state = some st ∧ h'.state = some st' ∧
      RunsTo st e { a.hsm.ext with world := w } st' h'.ext ∧
      a' = { a with
        hsm := h'
        queue := rest
        swallowed := a.swallowed ++ if st = .shuttingDown then (reqOf e).toList else [] } := by
  obtain ⟨st, hst, hleaf⟩ := hacc.leaf
  obtain ⟨h', st', hh', hst', hruns⟩ := dispatch_runsTo valid hleaf e
    (h := { a.hsm with ext := { a.hsm.ext with world := w } }) hst
  simp only [takeEvent, hh', Option.map_some, Option.some.injEq] at ha'
  refine ⟨st, st', h', hst, hst', hruns, ?_⟩
  rw [← ha']
  simp only [hst, Option.some.injEq]

theorem Accounted.fresh (hacc : a.Accounted) (hq : a.queue = e :: rest) :
    ∀ c ∈ reqOf e, c ∉ a.hsm.ext.inFlight.map InFlight.corrId := by
  intro c hc hmem
  have hcount := hacc.count c
  have hle := List.nodup_iff_count_le_one.mp hacc.nodup c
  have hpos := List.count_pos_iff.mpr hmem
  have hqc : (a.queue.filterMap reqOf).count c = 1 + (rest.filterMap reqOf).count c := by
    rw [hq, List.filterMap_cons, hc, List.count_cons_self, Nat.add_comm]
  simp only [held] at hcount
  omega

theorem Accounted.take (hacc : a.Accounted) (htodo : a.todo = []) (hq : a.queue = e :: rest)
    (ha' : a.takeEvent valid w e rest = some a') : a'.Accounted := by
  obtain ⟨st, st', h', hst, hst', hruns, rfl⟩ := takeEvent_cases valid hacc ha'
  refine ⟨⟨st', hst', hruns.leaf⟩, hacc.nodup, ?_, hruns.orderly ⟨hacc.orderly.deferred,
    hacc.orderly.posts⟩, ?_⟩
  · intro c
    have hcount := hacc.count c
    have hheld : h'.ext.held c = a.hsm.ext.held c +
        if st = .shuttingDown then 0 else (reqOf e).toList.count c :=
      hruns.held (hacc.fresh hq) c
    have hqc : (a.queue.filterMap reqOf).count c =
        (reqOf e).toList.count c + (rest.filterMap reqOf).count c := by
      rw [hq]
      cases hr : reqOf e <;> simp [hr, List.count_cons, Nat.add_comm]
    dsimp only
    rw [List.count_append]
    by_cases hdown : st = .shuttingDown
    · rw [if_pos hdown] at hheld ⊢
      omega
    · rw [if_neg hdown] at hheld ⊢
      rw [List.count_nil]
      omega
  · intro hdown
    obtain rfl : st' = .shuttingDown := Option.some.inj (hst'.symm.trans hdown)
    refine hruns.settled htodo ?_ rfl
    rintro rfl
    have hset := hacc.settled hst
    exact ⟨hset.deferred, hset.inFlight, hset.posts⟩

theorem Stopped.take (ha : a.Stopped) (hacc : a.Accounted) (htodo : a.todo = [])
    (hq : a.queue = e :: rest) (ha' : a.takeEvent valid w e rest = some a') : a'.Stopped := by
  obtain ⟨st, st', h', hst, hst', hruns, rfl⟩ := takeEvent_cases valid hacc ha'
  have hdown : h'.state = some .shuttingDown ↔ a.down ∨ e = .stop := by
    rw [BridgeAO.down, hst, hst', Option.some.injEq, Option.some.injEq]
    exact hruns.down
  have hret : a.stopPhase ≠ .returned := by
    intro h
    have hnil := (ha.returned h).1
    rw [hq] at hnil
    cases hnil
  by_cases hd : h'.state = some .shuttingDown
  · exact ⟨.inl hd, fun _ => hd, fun _ => hd, fun _ => .inl hd, fun _ => hd, ha.halted,
      fun h => absurd h hret⟩
  · obtain ⟨hnd, hns⟩ := not_or.mp (hdown.not.mp hd)
    have hfence : fenced (e :: rest) := hq ▸ ha.queue.resolve_left hnd
    refine ⟨.inr (fenced_of_cons hfence hns).1, ?_, fun h => absurd (ha.drained h) hnd, ?_,
      fun h => absurd (ha.running h) hnd, ha.halted, fun h => absurd h hret⟩
    · intro h
      have hnil : a.hsm.ext.effects = [] := htodo
      rcases hruns.fulfil 0 h with h | h
      · rw [show ({ a.hsm.ext with world := w } : Bridge δ).effects = [] from hnil] at h
        cases h
      · exact absurd h (fenced_of_cons hfence hns).2
    · intro h
      have hmem := (ha.posted h).resolve_left hnd
      rw [hq] at hmem
      exact .inr ((List.mem_cons.mp hmem).resolve_left (fun h => hns h.symm))

end Take

theorem step_accounted {l : Label δ} (hacc : a.Accounted) (ha : a.Stopped)
    (hstep : a.step valid l = some a') : a'.Accounted ∧ a'.Stopped := by
  cases l with
  | post e =>
    simp only [step, Option.ite_none_right_eq_some, Option.some.injEq] at hstep
    obtain ⟨⟨hext, hnew⟩, rfl⟩ := hstep
    exact ⟨hacc.post hnew, ha.post hext⟩
  | take w =>
    simp only [step] at hstep
    split at hstep
    · rename_i e rest htodo hq
      exact ⟨hacc.take valid htodo hq hstep, ha.take valid hacc htodo hq hstep⟩
    · cases hstep
  | effect =>
    simp only [step] at hstep
    split at hstep
    · cases hstep
    · rename_i f fs htodo
      obtain rfl := Option.some.inj hstep
      exact ⟨hacc.perform htodo, ha.perform hacc htodo⟩
  | stopCall =>
    simp only [step, Option.ite_none_right_eq_some, Option.some.injEq] at hstep
    obtain ⟨⟨hrun, hidle⟩, rfl⟩ := hstep
    have hfifo := ha.postFifo (e := .stop) (fun h => by cases h)
    have hacc' := hacc.postFifo (e := .stop) rfl
    have hmem : .stop ∈ (a.postFifo .stop).queue := by simp [BridgeAO.postFifo, hrun]
    refine ⟨⟨hacc'.leaf, hacc'.nodup, hacc'.count, hacc'.orderly, hacc'.settled⟩, hfifo.queue,
      hfifo.fulfil, hfifo.drained, fun _ => .inr hmem, hfifo.running, ?_, ?_⟩
    · rintro (h | h) <;> cases h
    · intro h
      cases h
  | stopDrain =>
    simp only [step, Option.ite_none_right_eq_some, Option.some.injEq] at hstep
    obtain ⟨hposted, rfl⟩ := hstep
    have hphase : a.stopPhase ≠ .idle := by
      rw [hposted]
      decide
    have hfifo := ha.postFifo (e := .drain 0) (fun _ => ha.posted hphase)
    have hacc' := hacc.postFifo (e := .drain 0) rfl
    have hbehind : (a.postFifo (.drain 0)).down ∨ .stop ∈ (a.postFifo (.drain 0)).queue := by
      apply hfifo.posted
      unfold BridgeAO.postFifo
      split <;> exact hphase
    refine ⟨⟨hacc'.leaf, hacc'.nodup, hacc'.count, hacc'.orderly, hacc'.settled⟩, hfifo.queue,
      hfifo.fulfil, hfifo.drained, fun _ => hbehind, hfifo.running, ?_, ?_⟩
    · rintro (h | h) <;> cases h
    · intro h
      cases h
  | halt =>
    simp only [step, Option.ite_none_right_eq_some, Option.some.injEq] at hstep
    obtain ⟨⟨hdrain, hdr⟩, rfl⟩ := hstep
    have hdown := ha.drained hdr
    refine ⟨⟨hacc.leaf, hacc.nodup, hacc.count, hacc.orderly, hacc.settled⟩, ha.queue, ha.fulfil,
      ha.drained, fun _ => .inl hdown, fun _ => hdown, fun _ => rfl, ?_⟩
    intro h
    cases h
  | join =>
    simp only [step, Option.ite_none_right_eq_some, Option.some.injEq] at hstep
    obtain ⟨⟨hhalt, hnil⟩, rfl⟩ := hstep
    have hrun := ha.halted (.inl hhalt)
    exact ⟨⟨hacc.leaf, hacc.nodup, hacc.count, hacc.orderly, hacc.settled⟩, ha.queue, ha.fulfil,
      ha.drained, fun _ => .inl (ha.running hrun), ha.running, fun _ => hrun, fun _ => hnil⟩

/-- A step that may swallow a request is one that takes it in ShuttingDown. -/
theorem step_swallowed {l : Label δ} (hacc : a.Accounted) (ha : a.Stopped)
    (hstep : a.step valid l = some a') :
    ∃ lost, a'.swallowed = a.swallowed ++ lost ∧ (lost = [] ↔ a.notSwallowing l) := by
  cases l with
  | take w =>
    simp only [step] at hstep
    split at hstep
    · rename_i e rest htodo hq
      obtain ⟨st, st', h', hst, -, -, rfl⟩ := takeEvent_cases valid hacc hstep
      refine ⟨_, rfl, ?_⟩
      simp only [notSwallowing, hst, hq]
      by_cases hdown : st = .shuttingDown <;> simp [hdown]
    · cases hstep
  | effect =>
    simp only [step] at hstep
    split at hstep
    · cases hstep
    · rename_i f fs htodo
      obtain rfl := Option.some.inj hstep
      exact ⟨[], by rw [swallowed_perform ha hacc htodo, List.append_nil], by simp [notSwallowing]⟩
  | post e =>
    simp only [step, Option.ite_none_right_eq_some, Option.some.injEq] at hstep
    obtain ⟨-, rfl⟩ := hstep
    refine ⟨[], ?_, by simp [notSwallowing]⟩
    simp only [BridgeAO.post, BridgeAO.postFifo, List.append_nil]
    split <;> rfl
  | stopCall =>
    simp only [step, Option.ite_none_right_eq_some, Option.some.injEq] at hstep
    obtain ⟨-, rfl⟩ := hstep
    refine ⟨[], ?_, by simp [notSwallowing]⟩
    simp only [BridgeAO.postFifo, List.append_nil]
    split <;> rfl
  | stopDrain =>
    simp only [step, Option.ite_none_right_eq_some, Option.some.injEq] at hstep
    obtain ⟨-, rfl⟩ := hstep
    refine ⟨[], ?_, by simp [notSwallowing]⟩
    simp only [BridgeAO.postFifo, List.append_nil]
    split <;> rfl
  | halt =>
    simp only [step, Option.ite_none_right_eq_some, Option.some.injEq] at hstep
    obtain ⟨-, rfl⟩ := hstep
    exact ⟨[], by simp, by simp [notSwallowing]⟩
  | join =>
    simp only [step, Option.ite_none_right_eq_some, Option.some.injEq] at hstep
    obtain ⟨-, rfl⟩ := hstep
    exact ⟨[], by simp, by simp [notSwallowing]⟩

end Steps

variable {paId : String} {l : List (Label δ)} {a : BridgeAO δ}

theorem run_accounted (hrun : Trace.run (step valid) (started paId) l = some a) :
    a.Accounted ∧ a.Stopped :=
  Trace.run_invariant (fun _ _ _ h hstep => step_accounted valid h.1 h.2 hstep) hrun
    ⟨started_accounted paId, started_stopped paId⟩

theorem run_swallowed (hrun : Trace.run (step valid) (started paId) l = some a) :
    Trace.AllSteps (step valid) (fun a l => a.notSwallowing l) (started paId) l ↔
      a.swallowed = [] := by
  apply Trace.allSteps_iff (I := fun a => a.swallowed = [])
    (J := fun a => a.Accounted ∧ a.Stopped) _ _ _ hrun
    ⟨started_accounted paId, started_stopped paId⟩ rfl
  · intro a l a' h hstep
    exact step_accounted valid h.1 h.2 hstep
  · intro a l a' h hnil hstep
    obtain ⟨lost, hlost, hiff⟩ := step_swallowed valid h.1 h.2 hstep
    rw [hlost, hnil, List.nil_append, hiff]
  · intro a l a' h hne hstep
    obtain ⟨lost, hlost, -⟩ := step_swallowed valid h.1 h.2 hstep
    rw [hlost]
    intro hnil
    exact hne (List.append_eq_nil_iff.mp hnil).1

/-- After `stop()` has returned nothing is queued or held. -/
theorem Accounted.count_returned (hacc : a.Accounted) (ha : a.Stopped)
    (hret : a.stopPhase = .returned) (c : String) :
    a.entered.count c = (a.invoked.map Prod.fst).count c + a.swallowed.count c := by
  obtain ⟨hq, htodo⟩ := ha.returned hret
  have hset := hacc.settled (ha.running (ha.halted (.inr hret)))
  have heff : a.hsm.ext.effects = [] := htodo
  have hheld : a.hsm.ext.held c = 0 := by
    simp [held, hset.deferred, hset.inFlight, heff]
  have hcount := hacc.count c
  rw [hq, hheld] at hcount
  simpa using hcount

/-- No callback is invoked twice; and when `stop()` has returned, every request that entered the
queue was called back once exactly when no request was taken in ShuttingDown. -/
theorem called_back_once_iff (hrun : Trace.run (step valid) (started paId) l = some a) :
    (a.invoked.map Prod.fst).Nodup ∧ (a.stopPhase = .returned →
      ((∀ c ∈ a.entered, (a.invoked.map Prod.fst).count c = 1) ↔
        Trace.AllSteps (step valid) (fun a l => a.notSwallowing l) (started paId) l)) := by
  obtain ⟨hacc, ha⟩ := run_accounted valid hrun
  have hone := List.nodup_iff_count_le_one.mp hacc.nodup
  refine ⟨?_, ?_⟩
  · apply List.nodup_iff_count_le_one.mpr
    intro c
    have hcount := hacc.count c
    have hle := hone c
    omega
  · intro hret
    have hcount := hacc.count_returned ha hret
    rw [run_swallowed valid hrun]
    constructor
    · intro hall
      apply List.eq_nil_iff_forall_not_mem.mpr
      intro c hc
      have hpos := List.count_pos_iff.mpr hc
      have hmem : c ∈ a.entered := by
        apply List.count_pos_iff.mp
        rw [hcount c]
        omega
      have hc1 := hall c hmem
      have hle := hone c
      have hcc := hcount c
      omega
    · intro hnil c hc
      have hcc := hcount c
      have hpos := List.count_pos_iff.mpr hc
      have hle := hone c
      rw [hnil, List.count_nil] at hcc
      omega

/-- A request with corrId `c` that never expires. -/
def request (c : String) : BridgeEvent Unit :=
  .sendReq ⟨"mp/req/sim/get", "sim.get.rsp", ⟨c, none, none⟩, 1000⟩

def calm : World := ⟨0, true, true⟩

/-- The bridge connects, sends one request and receives the reply twice; a second request is in
flight when `stop()` is called. -/
def answeredRun : List (Label Unit) :=
  [.take calm, .post (.linkUp true), .take calm, .effect, .effect, .effect, .take calm,
    .post (request "a"), .take calm, .effect, .post (request "b"), .take calm, .effect,
    .post (.evtRecv ⟨"ap/rsp", some ⟨"a", some "pa", none⟩⟩),
    .post (.evtRecv ⟨"ap/rsp", some ⟨"a", some "pa", none⟩⟩),
    .take calm, .effect, .take calm,
    .stopCall, .stopDrain, .take calm, .effect, .effect, .take calm, .effect, .halt, .join]

/-- One request is deferred while connecting and failed by Stop; a second one enters the queue
behind Stop. -/
def lateRun : List (Label Unit) :=
  [.post (request "a"), .take calm, .take calm, .stopCall, .post (request "b"), .stopDrain,
    .take calm, .effect, .effect, .take calm, .take calm, .effect, .halt, .join]

theorem called_back_once_answeredRun :
    ∃ a, Trace.run (step (fun _ _ => true)) (started "pa") answeredRun = some a ∧
      a.stopPhase = .returned ∧ a.entered = ["a", "b"] ∧
      ∀ c ∈ a.entered, (a.invoked.map Prod.fst).count c = 1 := by
  have hrun : (Trace.run (step (fun _ _ => true)) (started "pa") answeredRun).map
      (fun a => (a.stopPhase, a.entered)) = some (.returned, ["a", "b"]) := by
    decide +kernel
  obtain ⟨a, ha, heq⟩ := Option.map_eq_some_iff.mp hrun
  obtain ⟨hret, hent⟩ := Prod.mk.inj heq
  refine ⟨a, ha, hret, hent, ?_⟩
  exact ((called_back_once_iff (fun _ _ => true) ha).2 hret).mpr (by decide +kernel)

/-- A request that entered the queue behind Stop is never called back. -/
theorem request_behind_stop_lost :
    ∃ a, Trace.run (step (fun _ _ => true)) (started "pa") lateRun = some a ∧
      a.stopPhase = .returned ∧ "b" ∈ a.entered ∧ (a.invoked.map Prod.fst).count "b" = 0 := by
  have hrun : (Trace.run (step (fun _ _ => true)) (started "pa") lateRun).map
      (fun a => (a.stopPhase, a.entered, a.invoked.map Prod.fst)) =
        some (.returned, ["a", "b"], ["a"]) := by
    decide +kernel
  obtain ⟨a, ha, heq⟩ := Option.map_eq_some_iff.mp hrun
  obtain ⟨hret, heq⟩ := Prod.mk.inj heq
  obtain ⟨hent, hinv⟩ := Prod.mk.inj heq
  refine ⟨a, ha, hret, ?_, ?_⟩
  · rw [hent]
    decide
  · rw [hinv]
    decide

end BridgeAO
end TelafSim.ModemBridge
