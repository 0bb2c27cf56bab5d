import TelafSim.PowerAccounting

/-!
# Which round an ack timeout finishes

`PowerAckTimeout` carries no mark of the round it was scheduled for, and cancelling the post does
not remove an event that is already in the fifo. As long as no such event waits in the fifo when a
round begins to await ACKs, the only post scheduled or queued is the one of the round in progress,
and every timeout finishes its own round.
-/

namespace TelafSim.Power

namespace PowerSubsystem

/-- The answer of `m` finishes the round. -/
def finishedBy (p : Pending) (m : String) (r : Response) : Bool :=
  m ∈ p.expected ∧ (p.answer m r).finishes r

/-- The round in progress is finished by `e` and a request other than RESUME waits behind it, or
`e` is such a request and none is queued. -/
def startsRound (s : PowerSubsystem) : PowerEvent → Bool
  | .setState state _ _ _ => s.requestQueue = [] ∧ state ≠ .resume
  | .slaveAck m r =>
    s.pending.any (finishedBy · m r) && s.requestQueue.tail.any (·.state ≠ .resume)
  | .powerForceSlaveAck m r =>
    s.pending.any (finishedBy · m r) && s.requestQueue.tail.any (·.state ≠ .resume)
  | .powerAckTimeout _ => s.pending.isSome && s.requestQueue.tail.any (·.state ≠ .resume)
  | _ => false

def isAckTimeout : PowerEvent → Bool
  | .powerAckTimeout _ => true
  | _ => false

/-- No ack timeout waits in the fifo behind an event that starts a round. -/
def noneQueued (s : PowerSubsystem) : Label → Bool
  | .dispatch =>
    match s.fifo with
    | [] => true
    | e :: rest => !s.startsRound e || rest.all (fun x => !isAckTimeout x)
  | _ => true

theorem not_mem_of_noneQueued {s : PowerSubsystem} (h : s.noneQueued .dispatch = true)
    {e : PowerEvent} {rest : List PowerEvent} (hf : s.fifo = e :: rest)
    (he : s.startsRound e = true) (u : ℕ) : .powerAckTimeout u ∉ rest := by
  intro hu
  simp only [noneQueued, hf, he, Bool.not_true, Bool.false_or, List.all_eq_true] at h
  exact absurd (h _ hu) (by simp [isAckTimeout])

def isTimeoutStatus : Out → Bool
  | .slaveAckStatus .timeout _ _ _ => true
  | _ => false

structure Timers (s : PowerSubsystem) : Prop where
  armed_lt : ∀ a ∈ s.armed, a.1 < s.nextUuid
  queued_lt : ∀ u, .powerAckTimeout u ∈ s.fifo → u < s.nextUuid
  queued_not_armed : ∀ u, .powerAckTimeout u ∈ s.fifo → (u, .ackTimeout) ∉ s.armed
  armed_pending : ∀ u, (u, .ackTimeout) ∈ s.armed → s.pendingTimerUuid = some u
  timer_round : ∀ u, s.pendingTimerUuid = some u → ∃ p, s.pending = some p ∧ p.round = u
  queued_round : ∀ u p, .powerAckTimeout u ∈ s.fifo → s.pending = some p → p.round = u
  own : ∀ t ∈ s.timeouts, t.1 = t.2

/-- No round is in progress and no ack timeout is scheduled. -/
structure Idle (s : PowerSubsystem) : Prop where
  armed_lt : ∀ a ∈ s.armed, a.1 < s.nextUuid
  queued_lt : ∀ u, .powerAckTimeout u ∈ s.fifo → u < s.nextUuid
  unarmed : ∀ u, (u, .ackTimeout) ∉ s.armed
  no_timer : s.pendingTimerUuid = none
  own : ∀ t ∈ s.timeouts, t.1 = t.2

theorem mem_cancelEvent {uuid : Option ℕ} {armed : List (ℕ × Timer)} {a : ℕ × Timer}
    (h : a ∈ cancelEvent uuid armed) : a ∈ armed ∧ some a.1 ≠ uuid := by
  simpa [cancelEvent] using h

theorem Idle.scheduleFtimeoutRetry {s : PowerSubsystem} (h : s.Idle) :
    s.scheduleFtimeoutRetry.Idle := by
  refine ⟨?_, ?_, ?_, h.no_timer, h.own⟩
  · intro a ha
    rcases List.mem_append.mp ha with ha | ha
    · exact (h.armed_lt a (mem_cancelEvent ha).1).trans (Nat.lt_succ_self _)
    · rw [List.mem_singleton.mp ha]
      exact Nat.lt_succ_self _
  · intro u hu
    exact (h.queued_lt u hu).trans (Nat.lt_succ_self _)
  · intro u hu
    rcases List.mem_append.mp hu with hu | hu
    · exact h.unarmed u (mem_cancelEvent hu).1
    · simp at hu

theorem Idle.closeRound {s : PowerSubsystem} (h : s.Idle) (status : RoundStatus) (p : Pending) :
    (s.closeRound status p).Idle := by
  unfold PowerSubsystem.closeRound
  dsimp only
  split
  · exact Idle.scheduleFtimeoutRetry ⟨h.1, h.2, h.3, h.4, h.5⟩
  · exact ⟨h.1, h.2, h.3, h.4, h.5⟩

theorem Idle.await {s : PowerSubsystem} (h : s.Idle) {p : Pending} (hp : s.pending = some p)
    (hr : p.round = s.nextUuid) (hq : ∀ u, .powerAckTimeout u ∉ s.fifo) :
    s.scheduleAckTimeout.Timers := by
  have harmed : ∀ a ∈ s.scheduleAckTimeout.armed, a ∈ s.armed ∨ a = (s.nextUuid, .ackTimeout) := by
    intro a ha
    rcases List.mem_append.mp ha with ha | ha
    · exact Or.inl (mem_cancelEvent ha).1
    · exact Or.inr (List.mem_singleton.mp ha)
  refine ⟨?_, ?_, ?_, ?_, ?_, ?_, h.own⟩
  · intro a ha
    rcases harmed a ha with ha | rfl
    · exact (h.armed_lt a ha).trans (Nat.lt_succ_self _)
    · exact Nat.lt_succ_self _
  · intro u hu
    exact absurd hu (hq u)
  · intro u hu
    exact absurd hu (hq u)
  · intro u hu
    rcases harmed _ hu with hu | hu
    · exact absurd hu (h.unarmed u)
    · rw [(Prod.mk.inj hu).1]
      rfl
  · rintro u ⟨⟩
    exact ⟨p, hp, hr⟩
  · intro u q hu
    exact absurd hu (hq u)

/-- While no round is in progress the timers are in order whatever waits in the fifo. -/
theorem Idle.timers {s : PowerSubsystem} (h : s.Idle) (hp : s.pending = none) : s.Timers :=
  ⟨h.1, h.2, fun u _ => h.unarmed u, fun u hu => absurd hu (h.unarmed u),
    by simp [h.no_timer], by simp [hp], h.own⟩

theorem closeRound_fifo (status : RoundStatus) (p : Pending) (s : PowerSubsystem) :
    (s.closeRound status p).fifo = s.fifo := by
  unfold closeRound
  dsimp only
  split <;> rfl

theorem Idle.processNextQueued {s : PowerSubsystem} (q : List QueuedRequest) (h : s.Idle)
    (hp : q = [] → s.pending = none)
    (hq : q.any (·.state ≠ .resume) = true → ∀ u, .powerAckTimeout u ∉ s.fifo) :
    (processNextQueued q s).Timers := by
  induction q generalizing s with
  | nil => exact h.timers (hp rfl)
  | cons r rest ih =>
    have hb : (s.beginRound r).2.Idle := ⟨h.1, h.2, h.3, h.4, h.5⟩
    unfold PowerSubsystem.processNextQueued
    dsimp only
    split
    · refine ih (hb.closeRound .complete _) (fun _ => closeRound_pending _ _ _) ?_
      intro hany
      rw [closeRound_fifo]
      exact hq (by simp only [List.any_cons, hany, Bool.or_true])
    · rename_i hexp
      refine hb.await rfl rfl (hq ?_)
      have hr : r.state ≠ .resume := by
        intro hr
        exact hexp (by simp [beginRound, hr])
      simp [hr]

theorem Idle.finish {s : PowerSubsystem} (h : s.Idle) (status : RoundStatus) (p : Pending)
    (hq : s.requestQueue.tail.any (·.state ≠ .resume) = true → ∀ u, .powerAckTimeout u ∉ s.fifo) :
    (s.finishSetStateRound status p).Timers := by
  refine (h.closeRound status p).processNextQueued _ (fun _ => closeRound_pending _ _ _) ?_
  rw [closeRound_requestQueue, closeRound_fifo]
  exact hq

theorem Timers.pop {s : PowerSubsystem} (h : s.Timers) {e : PowerEvent} {rest : List PowerEvent}
    (hf : s.fifo = e :: rest) : { s with fifo := rest }.Timers := by
  have hmem : ∀ u, .powerAckTimeout u ∈ rest → .powerAckTimeout u ∈ s.fifo := by
    intro u hu
    rw [hf]
    exact List.mem_cons_of_mem _ hu
  exact ⟨h.armed_lt, fun u hu => h.queued_lt u (hmem u hu),
    fun u hu => h.queued_not_armed u (hmem u hu), h.armed_pending, h.timer_round,
    fun u p hu => h.queued_round u p (hmem u hu), h.own⟩

theorem Timers.cancelPendingTimer {s : PowerSubsystem} (h : s.Timers) :
    s.cancelPendingTimer.Idle := by
  refine ⟨?_, h.queued_lt, ?_, rfl, h.own⟩
  · intro a ha
    exact h.armed_lt a (mem_cancelEvent ha).1
  · intro u hu
    exact (mem_cancelEvent hu).2 (h.armed_pending u (mem_cancelEvent hu).1).symm

theorem Timers.setPending {s : PowerSubsystem} (h : s.Timers) {p p' : Pending}
    (hp : s.pending = some p) (hr : p'.round = p.round) : { s with pending := some p' }.Timers := by
  refine ⟨h.armed_lt, h.queued_lt, h.queued_not_armed, h.armed_pending, ?_, ?_, h.own⟩
  · intro u hu
    obtain ⟨q, hq, hqr⟩ := h.timer_round u hu
    obtain rfl : p = q := Option.some.inj (hp.symm.trans hq)
    exact ⟨p', rfl, hr.trans hqr⟩
  · rintro u q hu ⟨⟩
    exact hr.trans (h.queued_round u p hu hp)

theorem Timers.recordAck {s : PowerSubsystem} (h : s.Timers) (m : String) (r : Response)
    (hq : s.startsRound (.slaveAck m r) = true → ∀ u, .powerAckTimeout u ∉ s.fifo) :
    (s.recordAck m r).Timers := by
  unfold PowerSubsystem.recordAck
  split
  · exact h
  · rename_i p hp
    have hset := h.setPending hp (p.answer_round m r)
    by_cases hm : m ∈ p.expected
    · rw [if_neg (not_not.mpr hm)]
      dsimp only
      split
      · rename_i hfin
        refine hset.cancelPendingTimer.finish .complete _ (fun hany => hq ?_)
        have hby : s.pending.any (finishedBy · m r) = true := by
          rw [hp]
          exact decide_eq_true ⟨hm, hfin⟩
        exact Bool.and_eq_true_iff.mpr ⟨hby, hany⟩
      · exact hset
    · rw [if_pos hm]
      exact h

/-- The event is the timeout of the round in progress, and it was the only one. -/
theorem Timers.onAckTimeout {s : PowerSubsystem} (h : s.Timers) {u : ℕ} {rest : List PowerEvent}
    (hf : s.fifo = .powerAckTimeout u :: rest)
    (hq : s.startsRound (.powerAckTimeout u) = true → ∀ v, .powerAckTimeout v ∉ rest) :
    (PowerSubsystem.onAckTimeout u { s with fifo := rest }).Timers := by
  have hu : .powerAckTimeout u ∈ s.fifo := by simp [hf]
  unfold PowerSubsystem.onAckTimeout
  dsimp only
  split
  · exact h.pop hf
  · rename_i p hp
    have hround := h.queued_round u p hu hp
    have hidle : { s with
        fifo := rest
        pendingTimerUuid := none
        timeouts := s.timeouts ++ [(u, p.round)] }.Idle := by
      refine ⟨h.armed_lt, (h.pop hf).queued_lt, ?_, rfl, ?_⟩
      · intro v hv
        obtain ⟨q, hq', hqr⟩ := h.timer_round v (h.armed_pending v hv)
        obtain rfl : p = q := Option.some.inj (hp.symm.trans hq')
        exact h.queued_not_armed u hu (by rw [← hround, hqr]; exact hv)
      · intro t ht
        rcases List.mem_append.mp ht with ht | ht
        · exact h.own t ht
        · rw [List.mem_singleton.mp ht]
          exact hround.symm
    refine hidle.finish .timeout p (fun hany => hq ?_)
    exact Bool.and_eq_true_iff.mpr ⟨by rw [hp]; rfl, hany⟩

theorem Timers.handleSetState {s : PowerSubsystem} (h : s.Timers) (hacc : s.Accounted)
    (state : PowerState) (m corrId src : String)
    (hq : s.startsRound (.setState state m corrId src) = true → ∀ u, .powerAckTimeout u ∉ s.fifo) :
    (s.handleSetState state m corrId src).Timers := by
  obtain ⟨r, -, rfl, -, ⟨reason, heq⟩ | ⟨he, heq⟩ | ⟨hne, heq⟩⟩ :=
    handleSetState_cases state m corrId src s <;> rw [heq]
  · exact ⟨h.1, h.2, h.3, h.4, h.5, h.6, h.7⟩
  · have hp := hacc.pending_none he
    have ht : s.pendingTimerUuid = none := by
      by_contra hne
      obtain ⟨u, hu⟩ := Option.ne_none_iff_exists'.mp hne
      obtain ⟨q, hq', -⟩ := h.timer_round u hu
      exact absurd (hp.symm.trans hq') (by simp)
    have hidle : (s.enqueue r).Idle := by
      refine ⟨h.1, h.2, fun u hu => ?_, ht, h.7⟩
      exact absurd (ht.symm.trans (h.armed_pending u hu)) (by simp)
    refine hidle.processNextQueued _ (fun _ => hp) (fun hany => hq ?_)
    rw [enqueue, he, List.nil_append, List.any_cons, List.any_nil, Bool.or_false] at hany
    exact decide_eq_true ⟨he, of_decide_eq_true hany⟩
  · exact ⟨h.1, h.2, h.3, h.4, h.5, h.6, h.7⟩

theorem Timers.handle {s : PowerSubsystem} (h : s.Timers) (hacc : s.Accounted) {e : PowerEvent}
    {rest : List PowerEvent} (hf : s.fifo = e :: rest)
    (hq : s.startsRound e = true → ∀ u, .powerAckTimeout u ∉ rest) :
    (PowerSubsystem.handle e { s with fifo := rest }).Timers := by
  have hpop := h.pop hf
  cases e with
  | setState state m corrId src =>
    exact hpop.handleSetState ⟨hacc.1, hacc.2, hacc.3⟩ state m corrId src hq
  | getMachineNames corrId src =>
    exact ⟨hpop.1, hpop.2, hpop.3, hpop.4, hpop.5, hpop.6, hpop.7⟩
  | slaveAck m r => exact hpop.recordAck m r hq
  | powerForceSlaveAck m r => exact hpop.recordAck m r hq
  | powerAddMachine m =>
    simp only [PowerSubsystem.handle, applyAddMachine]
    split
    · exact hpop
    · exact ⟨hpop.1, hpop.2, hpop.3, hpop.4, hpop.5, hpop.6, hpop.7⟩
  | powerRemoveMachine m =>
    simp only [PowerSubsystem.handle, applyRemoveMachine]
    split
    · exact hpop
    · exact ⟨hpop.1, hpop.2, hpop.3, hpop.4, hpop.5, hpop.6, hpop.7⟩
  | powerAckTimeout u => exact h.onAckTimeout hf hq
  | powerFTimeout => exact ⟨hpop.1, hpop.2, hpop.3, hpop.4, hpop.5, hpop.6, hpop.7⟩

/-- A post that fires is the one scheduled for the round in progress. -/
theorem Timers.fire {s : PowerSubsystem} (h : s.Timers) {u : ℕ} {t : Timer}
    (hu : (u, t) ∈ s.armed) : { s with
      armed := s.armed.filter (fun a => a.1 ≠ u)
      fifo := s.fifo ++ [fired u t] }.Timers := by
  have hqueued : ∀ v, .powerAckTimeout v ∈ s.fifo ++ [fired u t] →
      .powerAckTimeout v ∈ s.fifo ∨ (v = u ∧ t = .ackTimeout) := by
    intro v hv
    rcases List.mem_append.mp hv with hv | hv
    · exact Or.inl hv
    · cases t with
      | ackTimeout => exact Or.inr ⟨by simpa [fired] using hv, rfl⟩
      | fTimeout => simp [fired] at hv
  have harmed : ∀ a ∈ s.armed.filter (fun a => a.1 ≠ u), a ∈ s.armed ∧ a.1 ≠ u := by
    intro a ha
    simpa using ha
  refine ⟨?_, ?_, ?_, ?_, h.timer_round, ?_, h.own⟩
  · intro a ha
    exact h.armed_lt a (harmed a ha).1
  · intro v hv
    rcases hqueued v hv with hv | ⟨rfl, -⟩
    · exact h.queued_lt v hv
    · exact h.armed_lt _ hu
  · intro v hv ha
    rcases hqueued v hv with hv | ⟨rfl, -⟩
    · exact h.queued_not_armed v hv (harmed _ ha).1
    · exact (harmed _ ha).2 rfl
  · intro v hv
    exact h.armed_pending v (harmed _ hv).1
  · intro v p hv hp
    rcases hqueued v hv with hv | ⟨rfl, rfl⟩
    · exact h.queued_round v p hv hp
    · obtain ⟨q, hq, hr⟩ := h.timer_round v (h.armed_pending v hu)
      obtain rfl : p = q := Option.some.inj (hp.symm.trans hq)
      exact hr

theorem Timers.step (s : PowerSubsystem) (l : Label) (s' : PowerSubsystem)
    (h : s.Accounted ∧ s.Timers) (hok : s.noneQueued l = true) (hs : s.step l = some s') :
    s'.Accounted ∧ s'.Timers := by
  refine ⟨Accounted.step s l s' h.1 hs, ?_⟩
  obtain ⟨e, rfl, hack, -, rfl⟩ | ⟨u, t, rfl, hu, rfl⟩ | ⟨e, rest, rfl, hf, rfl⟩ := step_cases hs
  · have hsame : ∀ u, .powerAckTimeout u ∈ s.fifo ++ [e] → .powerAckTimeout u ∈ s.fifo := by
      intro u hu
      rcases List.mem_append.mp hu with hu | hu
      · exact hu
      · exact absurd (List.mem_singleton.mp hu).symm (hack u)
    exact ⟨h.2.1, fun u hu => h.2.2 u (hsame u hu), fun u hu => h.2.3 u (hsame u hu), h.2.4, h.2.5,
      fun u p hu => h.2.6 u p (hsame u hu), h.2.7⟩
  · exact h.2.fire hu
  · exact h.2.handle h.1 hf (not_mem_of_noneQueued hok hf)

def timeoutReports (s : PowerSubsystem) : ℕ := s.out.countP isTimeoutStatus

/-- Every timeout that finished a round was reported, because a round in progress awaits ACKs. -/
structure Reported (s : PowerSubsystem) : Prop where
  reports : s.timeoutReports = s.timeouts.length
  awaits : ∀ p, s.pending = some p → p.expected ≠ []

theorem closeRound_reports (status : RoundStatus) (p : Pending) (s : PowerSubsystem) :
    (s.closeRound status p).timeoutReports =
      s.timeoutReports + if status = .timeout ∧ p.expected ≠ [] then 1 else 0 := by
  have hind : (p.statusInd status ++ [p.rsp]).countP isTimeoutStatus =
      if status = .timeout ∧ p.expected ≠ [] then 1 else 0 := by
    unfold Pending.statusInd
    by_cases he : p.expected = []
    · simp [he, Pending.rsp, isTimeoutStatus]
    · cases status <;> simp [he, Pending.rsp, isTimeoutStatus, List.countP_cons]
  unfold closeRound timeoutReports
  dsimp only
  split <;> simp only [scheduleFtimeoutRetry, List.countP_append, ← hind]

theorem closeRound_timeouts (status : RoundStatus) (p : Pending) (s : PowerSubsystem) :
    (s.closeRound status p).timeouts = s.timeouts := by
  unfold closeRound
  dsimp only
  split <;> rfl

theorem processNextQueued_reported (q : List QueuedRequest) (s : PowerSubsystem)
    (h : s.timeoutReports = s.timeouts.length) (hp : q = [] → s.pending = none) :
    (processNextQueued q s).Reported := by
  induction q generalizing s with
  | nil => exact ⟨h, by simp [processNextQueued, hp rfl]⟩
  | cons r rest ih =>
    have hb : (s.beginRound r).2.timeoutReports = s.timeoutReports := by
      simp [timeoutReports, beginRound, publish, List.countP_map, Function.comp_def,
        isTimeoutStatus]
    unfold processNextQueued
    dsimp only
    split
    · refine ih _ ?_ (fun _ => closeRound_pending _ _ _)
      rw [closeRound_reports, closeRound_timeouts, hb, if_neg (by simp), Nat.add_zero]
      exact h
    · rename_i hexp
      refine ⟨hb.trans h, ?_⟩
      rintro p ⟨⟩
      exact hexp

theorem Reported.recordAck {s : PowerSubsystem} (h : s.Reported) (m : String) (r : Response) :
    (s.recordAck m r).Reported := by
  have hfinish : ∀ p, (finishSetStateRound .complete p
      { s with pending := some p }.cancelPendingTimer).Reported := by
    intro p
    refine processNextQueued_reported _ _ ?_ (fun _ => closeRound_pending _ _ _)
    rw [closeRound_reports, closeRound_timeouts, if_neg (by simp), Nat.add_zero]
    exact h.reports
  unfold PowerSubsystem.recordAck
  split
  · exact h
  · rename_i p hp
    split
    · exact h
    · dsimp only
      split
      · exact hfinish _
      · refine ⟨h.reports, ?_⟩
        rintro q ⟨⟩
        rw [p.answer_expected]
        exact h.awaits p hp

theorem Reported.onAckTimeout {s : PowerSubsystem} (h : s.Reported) (u : ℕ) :
    (s.onAckTimeout u).Reported := by
  unfold PowerSubsystem.onAckTimeout
  split
  · exact h
  · rename_i p hp
    refine processNextQueued_reported _ _ ?_ (fun _ => closeRound_pending _ _ _)
    rw [closeRound_reports, closeRound_timeouts, if_pos ⟨rfl, h.awaits p hp⟩, List.length_append]
    exact congrArg (· + 1) h.reports

theorem Reported.publish {s t : PowerSubsystem} (h : s.Reported) {o : Out}
    (ho : isTimeoutStatus o = false) (hout : t.out = s.out ++ [o]) (hp : t.pending = s.pending)
    (ht : t.timeouts = s.timeouts) : t.Reported := by
  refine ⟨?_, by rw [hp]; exact h.awaits⟩
  rw [timeoutReports, hout, ht, List.countP_append, ← h.reports]
  simp [timeoutReports, ho]

theorem Reported.handle {s : PowerSubsystem} (h : s.Reported) (hacc : s.Accounted)
    (e : PowerEvent) : (PowerSubsystem.handle e s).Reported := by
  cases e with
  | setState state m corrId src =>
    obtain ⟨r, -, -, -, ⟨reason, heq⟩ | ⟨he, heq⟩ | ⟨hne, heq⟩⟩ :=
      handleSetState_cases state m corrId src s <;> rw [PowerSubsystem.handle, heq]
    · exact h.publish rfl rfl rfl rfl
    · exact processNextQueued_reported _ _ h.reports (fun _ => hacc.pending_none he)
    · exact ⟨h.reports, h.awaits⟩
  | getMachineNames corrId src => exact h.publish rfl rfl rfl rfl
  | slaveAck m r => exact h.recordAck m r
  | powerForceSlaveAck m r => exact h.recordAck m r
  | powerAddMachine m =>
    simp only [PowerSubsystem.handle, applyAddMachine]
    split
    · exact h
    · exact h.publish rfl rfl rfl rfl
  | powerRemoveMachine m =>
    simp only [PowerSubsystem.handle, applyRemoveMachine]
    split
    · exact h
    · exact h.publish rfl rfl rfl rfl
  | powerAckTimeout u => exact h.onAckTimeout u
  | powerFTimeout => exact h.publish rfl rfl rfl rfl

theorem Reported.step (s : PowerSubsystem) (l : Label) (s' : PowerSubsystem)
    (h : s.Accounted ∧ s.Reported) (hs : s.step l = some s') : s'.Accounted ∧ s'.Reported := by
  refine ⟨Accounted.step s l s' h.1 hs, ?_⟩
  obtain ⟨e, rfl, hack, -, rfl⟩ | ⟨u, t, rfl, hu, rfl⟩ | ⟨e, rest, rfl, hf, rfl⟩ := step_cases hs
  · exact ⟨h.2.reports, h.2.awaits⟩
  · exact ⟨h.2.reports, h.2.awaits⟩
  · exact Reported.handle (s := { s with fifo := rest }) ⟨h.2.reports, h.2.awaits⟩
      ⟨h.1.1, h.1.2, h.1.3⟩ e

/-- In every run in which no ack timeout waits in the fifo when a round starts to await ACKs, each
PowerAckTimeout that finished a round was the one scheduled for that round, and no other TIMEOUT
was reported. -/
theorem timeouts_own_round (localMachineName : String) (ls : List Label) (s : PowerSubsystem)
    (hrun : Trace.run step (initial localMachineName) ls = some s)
    (hok : Trace.AllSteps step (fun s l => s.noneQueued l = true) (initial localMachineName) ls) :
    s.timeoutReports = s.timeouts.length ∧ ∀ t ∈ s.timeouts, t.1 = t.2 := by
  have hacc := initial_accounted localMachineName
  have hinit : (initial localMachineName).Timers := by
    constructor <;> simp [initial]
  have hrep : (initial localMachineName).Reported := ⟨rfl, by simp [initial]⟩
  exact ⟨(Trace.run_invariant Reported.step hrun ⟨hacc, hrep⟩).2.reports,
    (Trace.run_invariant_of Timers.step hok hrun ⟨hacc, hinit⟩).2.own⟩

/-- A round that times out. -/
theorem timeouts_own_round_run : ∃ s, Trace.run step (initial "mdm")
      [.post (.setState .suspend "mdm" "c1" "pa-1"), .dispatch, .fire 0, .dispatch] = some s ∧
    s.timeouts = [(0, 0)] ∧ s.timeoutReports = s.timeouts.length ∧
    ∀ t ∈ s.timeouts, t.1 = t.2 := by
  have hrun : (Trace.run step (initial "mdm") [.post (.setState .suspend "mdm" "c1" "pa-1"),
      .dispatch, .fire 0, .dispatch]).map (fun s => s.timeouts) = some [(0, 0)] := by decide +kernel
  obtain ⟨s, hs, ht⟩ := Option.map_eq_some_iff.mp hrun
  exact ⟨s, hs, ht, timeouts_own_round "mdm" _ s hs (by decide +kernel)⟩

/-- The last ACK of the round for `mdm` and its timeout are both in the fifo while a request for
`tcu` waits: the timeout finishes the round for `tcu`. -/
theorem stale_timeout_finishes_next_round : ∃ s, Trace.run step (initial "mdm")
      [.post (.setState .suspend "mdm" "c1" "pa-1"), .post (.setState .suspend "tcu" "c2" "pa-1"),
        .dispatch, .dispatch, .post (.slaveAck "mdm" .ack), .fire 0, .dispatch, .dispatch] = some s ∧
    .slaveAckStatus .timeout "tcu" ["tcu"] [] ∈ s.out ∧ ¬ ∀ t ∈ s.timeouts, t.1 = t.2 := by
  have hrun : (Trace.run step (initial "mdm") [.post (.setState .suspend "mdm" "c1" "pa-1"),
      .post (.setState .suspend "tcu" "c2" "pa-1"), .dispatch, .dispatch,
      .post (.slaveAck "mdm" .ack), .fire 0, .dispatch, .dispatch]).map
        (fun s => (decide (.slaveAckStatus .timeout "tcu" ["tcu"] [] ∈ s.out), s.timeouts)) =
      some (true, [(0, 1)]) := by decide +kernel
  obtain ⟨s, hs, ht⟩ := Option.map_eq_some_iff.mp hrun
  obtain ⟨hout, ht⟩ := Prod.mk.inj ht
  refine ⟨s, hs, of_decide_eq_true hout, ?_⟩
  rw [ht]
  decide

end PowerSubsystem
end TelafSim.Power
