import TelafSim.ScenarioTimeline

/-!
# An aborted scenario

An abort sets a flag, which only Resume looks at, and posts Stop to the tail of the fifo. Until Stop
is handled a timer that has expired, a step request and a seek still dispatch actions. So an abort is
final if and only if nothing that was in the fifo ahead of its Stop plays a step.
-/

namespace TelafSim.Scenario

open Procedure

namespace ScenarioRunner

variable {r r' : ScenarioRunner} {w : World}

/-- A valid request that dispatches an action while a step is left: a seek does from `due` on. -/
def requestPlays (due : Ms) : Request → Bool
  | .step steps => (Request.step steps).valid
  | .seek at_ =>
    matchesAt at_ &&
      (match parseAt at_ with
      | .error _ => false
      | .ok targetMs => due ≤ targetMs)
  | _ => false

/-- The event dispatches an action while a step is left. -/
def plays (due : Ms) : RunnerState → Event → Bool
  | .done, _ => false
  | .running, .stepDue => true
  | _, .messageReceived q => requestPlays due q
  | _, _ => false

/-- Where an aborted runner goes on an event that dispatches nothing. -/
def onward : RunnerState → Event → RunnerState
  | .done, _ => .done
  | _, .stop => .done
  | .idle, .start => .running
  | .running, .pause => .paused
  | state, _ => state

/-- None of the events, which are handled in turn, dispatches an action. -/
def harmless (due : Ms) : RunnerState → List Event → Bool
  | _, [] => true
  | state, e :: ahead => !plays due state e && harmless due (onward state e) ahead

/-- What is in the fifo behind an abort, and so ahead of its Stop, dispatches nothing: no step is
left, or the clock is a number and the events are harmless. -/
def Halts (r : ScenarioRunner) (ahead : List Event) : Prop :=
  match r.timeline.steps[r.nextIdx]? with
  | none => True
  | some s => r.currentTimeMs ≠ ⊤ ∧ harmless (max r.currentTimeMs s.atMs) r.state ahead = true

/-- No publication raises. -/
def Label.Publishes : Label → Prop
  | .handle w => ∀ x, w.publishRaises x = false
  | _ => True

section Logs

variable {d : List Step}

/-- The calls of `dispatch_action` in `d` have been made and are not forgotten. -/
abbrev Logs (d : List Step) {α : Type} (x : Handler α) (r : ScenarioRunner) : Prop :=
  Leaves (fun r' => d <+: r'.dispatched) x r

theorem logs_of_still {α : Type} {x : Handler α} (hx : Still x) (h : d <+: r.dispatched) :
    Logs d x r :=
  (hx.of_eq (u := dispatched) Play.dispatched (fun _ => rfl)).leaves (P := fun l => d <+: l) h

theorem logs_dispatchOne (s : Step) : Logs (r.dispatched ++ [s]) (dispatchOne w s) r := by
  simp only [Logs, dispatchOne, wp_bind, wp_get, wp_modify]
  split
  · exact List.prefix_refl _
  · exact List.prefix_refl _

theorem Logs.dispatchOne (s : Step) (h : d <+: r.dispatched) : Logs d (dispatchOne w s) r := by
  have hd : d <+: r.dispatched ++ [s] := h.trans (List.prefix_append _ _)
  exact wp_mono (logs_dispatchOne s) (fun _ _ h' => hd.trans h') (fun _ _ h' => hd.trans h')

theorem Logs.stepLoop (n : ℕ) (h : d <+: r.dispatched) : Logs d (stepLoop w n) r := by
  refine wp_stepLoop (P := fun r => d <+: r.dispatched) ?_ n h
  intro r s h _
  exact Logs.dispatchOne (r := { r with currentTimeMs := s.atMs }) s h

theorem Logs.seekLoop (target : Ms) (rest : List Step) (h : d <+: r.dispatched) :
    Logs d (seekLoop w target rest) r := by
  induction rest generalizing r with
  | nil => exact h
  | cons s rest ih =>
    unfold ScenarioRunner.seekLoop
    split
    · refine (Logs.dispatchOne s h).bind ?_
      intro _ r h
      refine Leaves.bind (x := modify _) h ?_
      intro _ r h
      exact ih h
    · exact h

theorem still_respond {f : ℕ → Handler Unit} (hf : ∀ ms, Still (f ms)) : Still (intTime >>= f) :=
  (still_of_mute keeps_intTime).bind hf

theorem still_stepTail (executed : ℕ) :
    Still (intTime >>= fun ms => get >>= fun r =>
      publish w (.stepRsp executed ms (atEnd r)) >>= fun _ => carryOn) :=
  still_respond (fun _ => keeps_get.bind (fun _ =>
    (still_of_mute (keeps_publish _)).bind (fun _ => (Stays.still stays_carryOn))))

theorem still_seekTail :
    Still (intTime >>= fun ms => publish w (.seekRsp ms) >>= fun _ => carryOn) :=
  still_respond (fun _ =>
    (still_of_mute (keeps_publish _)).bind (fun _ => (Stays.still stays_carryOn)))

theorem Logs.doSeekSync (at_ : String) (h : d <+: r.dispatched) : Logs d (doSeekSync w at_) r := by
  unfold ScenarioRunner.doSeekSync
  refine (logs_of_still (Stays.still stays_cancelStepDue) h).bind ?_
  intro _ r h
  split
  · exact h
  · refine Leaves.bind (x := get) h ?_
    intro r₀ r h
    split
    · exact (Logs.seekLoop _ _ h).bind (fun _ _ h => h)
    · exact h

theorem Logs.onMessage (q : Request) (h : d <+: r.dispatched) : Logs d (onMessage w q) r := by
  unfold ScenarioRunner.onMessage
  split
  · cases q with
    | step steps =>
      have hsync : Logs d (doStepSync w (steps.getD 1).toNat) r :=
        (logs_of_still (Stays.still stays_cancelStepDue) h).bind (fun _ _ h => Logs.stepLoop _ h)
      exact hsync.bind (fun _ _ h => logs_of_still (still_stepTail _) h)
    | seek at_ => exact (Logs.doSeekSync at_ h).bind (fun _ _ h => logs_of_still still_seekTail h)
    | pause => exact logs_of_still (Stays.still (stays_postFifo _)) h
    | resume => exact logs_of_still (Stays.still (stays_postFifo _)) h
    | abort => exact h
    | malformed => exact h
  · exact h

theorem Logs.stepDue (h : d <+: r.dispatched) : Logs d (stepDue w) r := by
  unfold ScenarioRunner.stepDue
  refine (logs_of_still (Stays.still stays_cancelStepDue) h).bind ?_
  intro _ r h
  refine Leaves.bind (x := get) h ?_
  intro r₀ r h
  split
  · exact logs_of_still (still_trans _) h
  · rename_i s _
    refine Leaves.bind (x := modify _) h ?_
    intro _ r h
    refine (Logs.dispatchOne s h).bind ?_
    intro _ r h
    refine Leaves.bind (x := modify _) h ?_
    intro _ r h
    refine logs_of_still ((still_of_mute (keeps_publishProgress _)).bind (fun _ =>
      keeps_get.bind ?_)) h
    intro r
    exact Keeps.ite (still_trans _) (Stays.still stays_scheduleNextStepDue)

theorem Logs.handleEvent (e : Event) (h : d <+: r.dispatched) : Logs d (handleEvent w e) r := by
  unfold ScenarioRunner.handleEvent
  refine Leaves.bind (x := get) h ?_
  intro r₀ r h
  have hresubscribe : Logs d (doResubscribe w) r :=
    logs_of_still (still_of_mute keeps_doResubscribe) h
  split
  · cases e with
    | start => exact logs_of_still still_transPlaying h
    | stop => exact logs_of_still (still_trans _) h
    | messageReceived q => exact Logs.onMessage q h
    | resubscribe => exact hresubscribe
    | _ => exact h
  · cases e with
    | stepDue => exact Logs.stepDue h
    | pause => exact logs_of_still (still_trans _) h
    | stop => exact logs_of_still (still_trans _) h
    | messageReceived q => exact Logs.onMessage q h
    | resubscribe => exact hresubscribe
    | _ => exact h
  · cases e with
    | resume =>
      refine logs_of_still (keeps_get.bind ?_) h
      intro r
      exact Keeps.ite (keeps_pure _) still_transPlaying
    | stop => exact logs_of_still (still_trans _) h
    | messageReceived q => exact Logs.onMessage q h
    | resubscribe => exact hresubscribe
    | _ => exact h
  · exact h

end Logs

section Fires

theorem atEnd_eq_false : r.atEnd = false ↔ ∃ s, r.timeline.steps[r.nextIdx]? = some s := by
  simp [atEnd, List.getElem?_eq_some_iff]

theorem getElem?_of_atEnd (h : r.atEnd = true) : r.timeline.steps[r.nextIdx]? = none := by
  simpa [atEnd] using h

/-- The next step comes to be dispatched. -/
abbrev Dispatches (s : Step) {α : Type} (x : Handler α) (r : ScenarioRunner) : Prop :=
  Logs (r.dispatched ++ [s]) x r

theorem dispatches_stepLoop {s : Step} (hs : r.timeline.steps[r.nextIdx]? = some s) (n : ℕ) :
    Dispatches s (stepLoop w (n + 1)) r := by
  simp only [stepLoop, wp_bind, wp_get, hs, wp_modify]
  refine wp_mono (logs_dispatchOne (r := { r with currentTimeMs := s.atMs }) s) ?_
    (fun _ _ h => h)
  intro _ r' h
  simp only [wp_bind, wp_modify]
  exact Logs.stepLoop (r := { r' with nextIdx := r'.nextIdx + 1 }) n h

theorem dispatches_onStep {s : Step} (hs : r.timeline.steps[r.nextIdx]? = some s)
    {steps : Option ℤ} (hvalid : (Request.step steps).valid = true) :
    Dispatches s (onMessage w (.step steps)) r := by
  have hpos : ∃ n, (steps.getD 1).toNat = n + 1 := by
    refine Nat.exists_eq_succ_of_ne_zero ?_
    cases steps with
    | none => decide
    | some k =>
      have hk : 1 ≤ k := by simpa [Request.valid] using hvalid
      simp only [Option.getD_some]
      omega
  obtain ⟨n, hn⟩ := hpos
  simp only [onMessage, hvalid, if_true, rpcStep, doStepSync, hn, bind_assoc]
  have hsync : Dispatches s (cancelStepDue >>= fun _ => stepLoop w (n + 1)) r := by
    simp only [cancelStepDue, wp_bind, wp_modify]
    exact dispatches_stepLoop (r := { r with
      armed := r.armed.filter (some · ≠ r.stepDueUuid), stepDueUuid := none }) hs n
  rw [← bind_assoc]
  exact hsync.bind (fun _ _ h => logs_of_still (still_stepTail _) h)

theorem drop_eq_cons {s : Step} (hs : r.timeline.steps[r.nextIdx]? = some s) :
    r.timeline.steps.drop r.nextIdx = s :: r.timeline.steps.drop (r.nextIdx + 1) :=
  drop_next (p := r.play) hs

theorem dispatches_onSeek {s : Step} (hs : r.timeline.steps[r.nextIdx]? = some s) {at_ : String}
    (hmatches : matchesAt at_ = true) {target : Ms} (hat : parseAt at_ = .ok target)
    (hahead : r.currentTimeMs ≤ target) (hdue : s.atMs ≤ target) :
    Dispatches s (onMessage w (.seek at_)) r := by
  have hvalid : (Request.seek at_).valid = true := hmatches
  simp only [onMessage, hvalid, if_true, rpcSeek]
  have hseek : Dispatches s (doSeekSync w at_) r := by
    simp only [doSeekSync, cancelStepDue, hat, wp_bind, wp_modify, wp_get, hahead, if_true,
      drop_eq_cons hs, seekLoop, hdue]
    refine wp_mono (logs_dispatchOne (r := { r with
      armed := r.armed.filter (some · ≠ r.stepDueUuid), stepDueUuid := none }) s) ?_
      (fun _ _ h => h)
    intro _ r' h
    exact Logs.seekLoop (r := { r' with nextIdx := r'.nextIdx + 1 }) target _ h
  exact hseek.bind (fun _ _ h => logs_of_still still_seekTail h)

theorem dispatches_stepDue {s : Step} (hs : r.timeline.steps[r.nextIdx]? = some s) :
    Dispatches s (stepDue w) r := by
  simp only [stepDue, cancelStepDue, wp_bind, wp_modify, wp_get, hs]
  refine wp_mono (logs_dispatchOne (r := { r with
    armed := r.armed.filter (some · ≠ r.stepDueUuid)
    stepDueUuid := none
    currentTimeMs := s.atMs }) s) ?_ (fun _ _ h => h)
  intro _ r' h
  have htail : Still (publishProgress w .running >>= fun _ => get >>= fun r =>
      if atEnd r then trans w .done else scheduleNextStepDue) :=
    (still_of_mute (keeps_publishProgress _)).bind (fun _ => keeps_get.bind (fun _ =>
      Keeps.ite (still_trans _) (Stays.still stays_scheduleNextStepDue)))
  exact Leaves.bind (x := modify _) h (fun _ _ h => logs_of_still htail h)

theorem dispatches_of_plays {s : Step} (hs : r.timeline.steps[r.nextIdx]? = some s) {e : Event}
    (h : plays (max r.currentTimeMs s.atMs) r.state e = true) :
    Dispatches s (handleEvent w e) r := by
  simp only [handleEvent, wp_bind, wp_get]
  have hmessage : ∀ {q : Request}, requestPlays (max r.currentTimeMs s.atMs) q = true →
      Dispatches s (onMessage w q) r := by
    intro q hq
    cases q with
    | step steps => exact dispatches_onStep hs hq
    | seek at_ =>
      simp only [requestPlays, Bool.and_eq_true] at hq
      obtain ⟨hmatches, hq⟩ := hq
      cases hat : parseAt at_ with
      | error e =>
        rw [hat] at hq
        cases hq
      | ok target =>
        rw [hat] at hq
        obtain ⟨hahead, hdue⟩ := max_le_iff.mp (of_decide_eq_true hq)
        exact dispatches_onSeek hs hmatches hat hahead hdue
    | _ => cases hq
  cases hst : r.state with
  | idle =>
    rw [hst] at h
    cases e with
    | messageReceived q => exact hmessage h
    | _ => cases h
  | running =>
    rw [hst] at h
    cases e with
    | stepDue => exact dispatches_stepDue hs
    | messageReceived q => exact hmessage h
    | _ => cases h
  | paused =>
    rw [hst] at h
    cases e with
    | messageReceived q => exact hmessage h
    | _ => cases h
  | done =>
    rw [hst] at h
    cases h

end Fires

section Ended

/-- No step is left. -/
structure Ended (d : List Step) (r : ScenarioRunner) : Prop where
  next : r.timeline.steps[r.nextIdx]? = none
  dispatched : r.dispatched = d

variable {d : List Step}

theorem ended_of_still {α : Type} {x : Handler α} (hx : Still x) (h : r.Ended d) :
    Leaves (Ended d) x r := by
  have hkept := hx.leaves (s := r) (P := fun p : Play =>
    p.timeline.steps[p.nextIdx]? = none ∧ p.dispatched = d) ⟨h.next, h.dispatched⟩
  exact wp_mono hkept (fun _ _ h' => ⟨h'.1, h'.2⟩) (fun _ _ h' => ⟨h'.1, h'.2⟩)

theorem ended_cancelStepDue (h : r.Ended d) : Leaves (Ended d) cancelStepDue r :=
  ended_of_still (Stays.still stays_cancelStepDue) h

theorem ended_rpcStep (steps : Option ℤ) (h : r.Ended d) : Leaves (Ended d) (rpcStep w steps) r := by
  have hloop : ∀ {r : ScenarioRunner} n, r.Ended d → Leaves (Ended d) (stepLoop w n) r := by
    intro r n h
    cases n with
    | zero => exact h
    | succ n =>
      simp only [stepLoop, wp_bind, wp_get, h.next]
      exact h
  have hsync : Leaves (Ended d) (doStepSync w (steps.getD 1).toNat) r :=
    (ended_cancelStepDue h).bind (fun _ _ h => hloop _ h)
  exact hsync.bind (fun _ _ h => ended_of_still (still_stepTail _) h)

theorem ended_rpcSeek (at_ : String) (h : r.Ended d) : Leaves (Ended d) (rpcSeek w at_) r := by
  have hseek : Leaves (Ended d) (doSeekSync w at_) r := by
    refine (ended_cancelStepDue h).bind ?_
    intro _ r h
    have hdrop : r.timeline.steps.drop r.nextIdx = [] := by simpa using h.next
    cases hat : parseAt at_ with
    | error e => exact h
    | ok target =>
      simp only [wp_bind, wp_get, wp_ite, wp_pure, hdrop, seekLoop, wp_modify]
      split
      · exact ⟨h.next, h.dispatched⟩
      · exact h
  exact hseek.bind (fun _ _ h => ended_of_still still_seekTail h)

theorem ended_handleEvent (e : Event) (h : r.Ended d) : Leaves (Ended d) (handleEvent w e) r := by
  have hstill : ∀ {x : Handler Unit}, Still x → Leaves (Ended d) x r := fun hx => ended_of_still hx h
  have hmessage : ∀ q, Leaves (Ended d) (onMessage w q) r := by
    intro q
    unfold onMessage
    split
    · cases q with
      | step steps => exact ended_rpcStep steps h
      | seek at_ => exact ended_rpcSeek at_ h
      | pause => exact hstill (Stays.still (stays_postFifo _))
      | resume => exact hstill (Stays.still (stays_postFifo _))
      | abort => exact ⟨h.next, h.dispatched⟩
      | malformed => exact h
    · exact h
  have hresubscribe : Leaves (Ended d) (doResubscribe w) r :=
    hstill (still_of_mute keeps_doResubscribe)
  simp only [handleEvent, wp_bind, wp_get]
  cases hst : r.state with
  | idle =>
    cases e with
    | start => exact hstill still_transPlaying
    | stop => exact hstill (still_trans _)
    | messageReceived q => exact hmessage q
    | resubscribe => exact hresubscribe
    | _ => exact h
  | running =>
    cases e with
    | stepDue =>
      refine (ended_cancelStepDue h).bind ?_
      intro _ r h
      simp only [wp_bind, wp_get, h.next]
      exact ended_of_still (still_trans _) h
    | pause => exact hstill (still_trans _)
    | stop => exact hstill (still_trans _)
    | messageReceived q => exact hmessage q
    | resubscribe => exact hresubscribe
    | _ => exact h
  | paused =>
    cases e with
    | resume =>
      refine hstill (keeps_get.bind ?_)
      intro r
      exact Keeps.ite (keeps_pure _) still_transPlaying
    | stop => exact hstill (still_trans _)
    | messageReceived q => exact hmessage q
    | resubscribe => exact hresubscribe
    | _ => exact h
  | done => exact h

end Ended

section Waits

/-- The runner has been aborted with the step `s` left, the events of `q` are next in its fifo, and
the chart is in the state `c`. -/
structure Waits (s : Step) (due : Ms) (d : List Step) (q : List Event) (c : RunnerState)
    (r : ScenarioRunner) : Prop where
  next : r.timeline.steps[r.nextIdx]? = some s
  aborted : r.aborted = true
  clock : r.currentTimeMs ≠ ⊤
  due : max r.currentTimeMs s.atMs = due
  dispatched : r.dispatched = d
  fifo : q <+: r.fifo
  state : r.state = c

variable {s : Step} {due : Ms} {d : List Step} {q : List Event} {c : RunnerState}

theorem waits_postFifo (e : Event) (h : r.Waits s due d q c) :
    Yields (Waits s due d q c) (postFifo e) r :=
  ⟨h.next, h.aborted, h.clock, h.due, h.dispatched, h.fifo.trans (List.prefix_append _ _), h.state⟩

theorem waits_intTime (h : r.Waits s due d q c) : Yields (Waits s due d q c) intTime r := by
  simp only [intTime, wp_bind, wp_get]
  split
  · rename_i htop
    exact absurd htop h.clock
  · exact h

theorem waits_publish (hw : ∀ x, w.publishRaises x = false) (x : Publication)
    (h : r.Waits s due d q c) : Yields (Waits s due d q c) (publish w x) r := by
  simp only [publish, wp_bind, wp_get, wp_ite, hw, Bool.false_eq_true, if_false, wp_modify, wp_pure]
  split
  · exact ⟨h.next, h.aborted, h.clock, h.due, h.dispatched, h.fifo, h.state⟩
  · exact h

theorem waits_publishProgress (hw : ∀ x, w.publishRaises x = false) (label : ProgressLabel)
    (h : r.Waits s due d q c) : Yields (Waits s due d q c) (publishProgress w label) r := by
  simp only [publishProgress, wp_bind, wp_get, wp_ite, wp_pure]
  split
  · exact wp_mono (waits_intTime h) (fun _ _ h => waits_publish hw _ h) (fun _ _ h => h)
  · exact h

theorem waits_cancelStepDue (h : r.Waits s due d q c) :
    Yields (Waits s due d q c) cancelStepDue r :=
  ⟨h.next, h.aborted, h.clock, h.due, h.dispatched, h.fifo, h.state⟩

theorem waits_scheduleNextStepDue (h : r.Waits s due d q c) :
    Yields (Waits s due d q c) scheduleNextStepDue r := by
  refine (waits_cancelStepDue h).bind ?_
  intro _ r h
  simp only [wp_bind, wp_get, wp_ite, wp_pure, wp_modify]
  split
  · exact h
  · exact ⟨h.next, h.aborted, h.clock, h.due, h.dispatched, h.fifo, h.state⟩

theorem waits_stop (h : r.Waits s due d q c) : Yields (Waits s due d q c) stop r := by
  simp only [stop, wp_bind, wp_get, wp_ite, wp_pure]
  split
  · refine wp_mono (waits_postFifo .stop h) ?_ (fun _ _ h => h)
    intro _ r h
    exact ⟨h.next, h.aborted, h.clock, h.due, h.dispatched, h.fifo, h.state⟩
  · exact h

theorem waits_enterState (hw : ∀ x, w.publishRaises x = false) (target : RunnerState)
    (h : r.Waits s due d q c) : Yields (Waits s due d q c) (enterState w target) r := by
  cases target with
  | idle => exact waits_publishProgress hw _ h
  | running =>
    exact (waits_scheduleNextStepDue h).bind (fun _ _ h => waits_publishProgress hw _ h)
  | paused =>
    exact (waits_cancelStepDue h).bind (fun _ _ h => waits_publishProgress hw _ h)
  | done =>
    refine (waits_cancelStepDue h).bind ?_
    intro _ r h
    exact (waits_publishProgress hw _ h).bind (fun _ _ h => waits_stop h)

theorem waits_trans (hw : ∀ x, w.publishRaises x = false) (target : RunnerState)
    (h : r.Waits s due d q c) : Yields (Waits s due d q target) (trans w target) r := by
  have hexit : Yields (Waits s due d q c) (exitState r.state) r := by
    cases r.state with
    | running => exact waits_cancelStepDue h
    | _ => exact h
  refine hexit.bind ?_
  intro _ r h
  refine (waits_enterState hw target h).bind ?_
  intro _ r h
  exact ⟨h.next, h.aborted, h.clock, h.due, h.dispatched, h.fifo, rfl⟩

theorem Waits.atEnd (h : r.Waits s due d q c) : r.atEnd = false :=
  atEnd_eq_false.mpr ⟨s, h.next⟩

theorem waits_transPlaying (hw : ∀ x, w.publishRaises x = false) (h : r.Waits s due d q c) :
    Yields (Waits s due d q .running) (transPlaying w) r := by
  simp only [transPlaying, wp_bind, wp_get, h.atEnd, Bool.false_eq_true, if_false]
  exact waits_trans hw .running h

theorem waits_carryOn (h : r.Waits s due d q c) : Yields (Waits s due d q c) carryOn r := by
  simp only [carryOn, wp_bind, wp_get, wp_ite, wp_pure, h.atEnd, Bool.false_eq_true, if_false]
  split
  · exact waits_scheduleNextStepDue h
  · exact h

/-- A seek to an earlier time moves the clock, but not past the next step. -/
theorem waits_rpcSeek (hw : ∀ x, w.publishRaises x = false) {at_ : String}
    (hmatches : matchesAt at_ = true) (hplays : requestPlays due (.seek at_) = false)
    (h : r.Waits s due d q c) : Leaves (Waits s due d q c) (rpcSeek w at_) r := by
  have htail : ∀ {r : ScenarioRunner}, r.Waits s due d q c →
      Leaves (Waits s due d q c) (intTime >>= fun ms => publish w (.seekRsp ms) >>= fun _ => carryOn)
        r := by
    intro r h
    refine Yields.leaves ((waits_intTime h).bind ?_)
    intro _ r h
    exact (waits_publish hw _ h).bind (fun _ _ h => waits_carryOn h)
  have hseek : Leaves (Waits s due d q c) (doSeekSync w at_) r := by
    refine Leaves.bind (waits_cancelStepDue h).leaves ?_
    intro _ r h
    simp only [requestPlays, hmatches, Bool.true_and] at hplays
    cases hat : parseAt at_ with
    | error e => exact h
    | ok target =>
      rw [hat] at hplays
      have hearly : target < due := by simpa using hplays
      simp only [wp_bind, wp_get, wp_ite, wp_pure]
      split
      · rename_i hahead
        have hnext : target < s.atMs := by
          rcases lt_max_iff.mp (h.due ▸ hearly) with hlt | hlt
          · exact absurd hahead (not_le.mpr hlt)
          · exact hlt
        simp only [drop_eq_cons h.next, seekLoop, not_le.mpr hnext, if_false, wp_pure, wp_modify]
        refine ⟨h.next, h.aborted, (hearly.trans_le le_top).ne, ?_, h.dispatched, h.fifo, h.state⟩
        rw [← h.due, max_eq_right hnext.le, max_eq_right (hahead.trans hnext.le)]
      · exact h
  exact hseek.bind (fun _ _ h => htail h)

theorem waits_onMessage (hw : ∀ x, w.publishRaises x = false) {m : Request}
    (hplays : requestPlays due m = false) (h : r.Waits s due d q c) :
    Leaves (Waits s due d q c) (onMessage w m) r := by
  unfold onMessage
  split
  · rename_i hvalid
    cases m with
    | step steps =>
      rw [requestPlays, hvalid] at hplays
      cases hplays
    | seek at_ => exact waits_rpcSeek hw hvalid hplays h
    | pause => exact (waits_postFifo _ h).leaves
    | resume => exact (waits_postFifo _ h).leaves
    | abort =>
      exact ⟨h.next, rfl, h.clock, h.due, h.dispatched, h.fifo.trans (List.prefix_append _ _),
        h.state⟩
    | malformed => exact h
  · exact h

/-- An event that does not play leaves everything as it is, but for the state of the chart. -/
theorem waits_handleEvent (hw : ∀ x, w.publishRaises x = false) {e : Event}
    (hplays : plays due c e = false) (h : r.Waits s due d q c) :
    Leaves (Waits s due d q (onward c e)) (handleEvent w e) r := by
  have hresubscribe : Leaves (Waits s due d q c) (doResubscribe w) r :=
    (waits_publishProgress hw _ h).leaves
  simp only [handleEvent, wp_bind, wp_get]
  rw [h.state]
  cases c with
  | idle =>
    cases e with
    | start => exact (waits_transPlaying hw h).leaves
    | stop => exact (waits_trans hw .done h).leaves
    | messageReceived m => exact waits_onMessage hw hplays h
    | resubscribe => exact hresubscribe
    | _ => exact h
  | running =>
    cases e with
    | stepDue => cases hplays
    | pause => exact (waits_trans hw .paused h).leaves
    | stop => exact (waits_trans hw .done h).leaves
    | messageReceived m => exact waits_onMessage hw hplays h
    | resubscribe => exact hresubscribe
    | _ => exact h
  | paused =>
    cases e with
    | resume =>
      simp only [smfnPaused, wp_bind, wp_get, h.aborted, if_true]
      exact h
    | stop => exact (waits_trans hw .done h).leaves
    | messageReceived m => exact waits_onMessage hw hplays h
    | resubscribe => exact hresubscribe
    | _ => exact h
  | done => exact h

end Waits

section Stuck

/-- The clock is infinite with the step `s` left: no state can be entered any more, since none can
publish its progress. -/
structure Stuck (s : Step) (d : List Step) (q : List Event) (r : ScenarioRunner) : Prop where
  next : r.timeline.steps[r.nextIdx]? = some s
  aborted : r.aborted = true
  clock : r.currentTimeMs = ⊤
  wired : r.wired = true
  dispatched : r.dispatched = d
  fifo : q <+: r.fifo
  live : r.state ≠ .done

variable {s : Step} {d : List Step} {q : List Event}

/-- The runner raises, stuck as it was. -/
abbrev Jams (s : Step) (d : List Step) (q : List Event) {α : Type} (x : Handler α)
    (r : ScenarioRunner) : Prop :=
  wp x (fun _ _ => False) (fun _ r' => r'.Stuck s d q) r

theorem Jams.leaves {α : Type} {x : Handler α} (h : Jams s d q x r) : Leaves (Stuck s d q) x r :=
  wp_mono h (fun _ _ hfalse => hfalse.elim) (fun _ _ h => h)

theorem jams_intTime_bind {α : Type} {f : ℕ → Handler α} (h : r.Stuck s d q) :
    Jams s d q (intTime >>= f) r := by
  simp only [Jams, intTime, wp_bind, wp_get, h.clock]
  exact h

theorem jams_publishProgress (label : ProgressLabel) (h : r.Stuck s d q) :
    Jams s d q (publishProgress w label) r := by
  simp only [Jams, publishProgress, wp_bind, wp_get, h.wired, if_true]
  exact wp_bind.mp (jams_intTime_bind h)

theorem stuck_cancelStepDue (h : r.Stuck s d q) : Yields (Stuck s d q) cancelStepDue r :=
  ⟨h.next, h.aborted, h.clock, h.wired, h.dispatched, h.fifo, h.live⟩

theorem stuck_scheduleNextStepDue (h : r.Stuck s d q) :
    Yields (Stuck s d q) scheduleNextStepDue r := by
  refine (stuck_cancelStepDue h).bind ?_
  intro _ r h
  simp only [wp_bind, wp_get, wp_ite, wp_pure, wp_modify]
  split
  · exact h
  · exact ⟨h.next, h.aborted, h.clock, h.wired, h.dispatched, h.fifo, h.live⟩

theorem Jams.after {α β : Type} {x : Handler α} {f : α → Handler β} (hx : Yields (Stuck s d q) x r)
    (hf : ∀ a r', r'.Stuck s d q → Jams s d q (f a) r') : Jams s d q (x >>= f) r := by
  rw [Jams, wp_bind]
  exact wp_mono hx hf (fun _ _ hfalse => hfalse.elim)

theorem jams_enterState (target : RunnerState) (h : r.Stuck s d q) :
    Jams s d q (enterState w target) r := by
  cases target with
  | idle => exact jams_publishProgress _ h
  | running =>
    exact .after (stuck_scheduleNextStepDue h) (fun _ _ h => jams_publishProgress _ h)
  | paused => exact .after (stuck_cancelStepDue h) (fun _ _ h => jams_publishProgress _ h)
  | done =>
    refine .after (stuck_cancelStepDue h) ?_
    intro _ r h
    simp only [Jams, wp_bind, wp_get]
    exact wp_mono (jams_publishProgress _ h) (fun _ _ hfalse => hfalse.elim) (fun _ _ h => h)

theorem stuck_trans (target : RunnerState) (h : r.Stuck s d q) :
    Leaves (Stuck s d q) (trans w target) r := by
  have hexit : Yields (Stuck s d q) (exitState r.state) r := by
    cases r.state with
    | running => exact stuck_cancelStepDue h
    | _ => exact h
  have hjams : Jams s d q (exitState r.state >>= fun _ => enterState w target >>= fun _ =>
      modify (fun r => { r with state := target })) r := by
    refine .after hexit ?_
    intro _ r h
    rw [Jams, wp_bind]
    exact wp_mono (jams_enterState target h) (fun _ _ hfalse => hfalse.elim) (fun _ _ h => h)
  exact hjams.leaves

theorem stuck_onMessage {m : Request} (hplays : requestPlays ⊤ m = false) (h : r.Stuck s d q) :
    Leaves (Stuck s d q) (onMessage w m) r := by
  have hpost : ∀ e, Leaves (Stuck s d q) (postFifo e) r := fun _ =>
    ⟨h.next, h.aborted, h.clock, h.wired, h.dispatched, h.fifo.trans (List.prefix_append _ _),
      h.live⟩
  unfold onMessage
  split
  · rename_i hvalid
    cases m with
    | step steps =>
      rw [requestPlays, hvalid] at hplays
      cases hplays
    | seek at_ =>
      have hseek : Leaves (Stuck s d q) (doSeekSync w at_) r := by
        refine Leaves.bind (stuck_cancelStepDue h).leaves ?_
        intro _ r h
        have hmatches : matchesAt at_ = true := hvalid
        simp only [requestPlays, hmatches, Bool.true_and] at hplays
        cases hat : parseAt at_ with
        | error e => exact h
        | ok target =>
          rw [hat] at hplays
          have hback : ¬ r.currentTimeMs ≤ target := by
            rw [h.clock]
            simpa using hplays
          simp only [wp_bind, wp_get, wp_pure, hback, if_false]
          exact h
      exact hseek.bind (fun _ _ h => (jams_intTime_bind h).leaves)
    | pause => exact hpost _
    | resume => exact hpost _
    | abort =>
      exact ⟨h.next, rfl, h.clock, h.wired, h.dispatched, h.fifo.trans (List.prefix_append _ _),
        h.live⟩
    | malformed => exact h
  · exact h

theorem stuck_handleEvent {e : Event} (hplays : plays ⊤ r.state e = false)
    (h : r.Stuck s d q) : Leaves (Stuck s d q) (handleEvent w e) r := by
  have hresubscribe : Leaves (Stuck s d q) (doResubscribe w) r := (jams_publishProgress _ h).leaves
  simp only [handleEvent, wp_bind, wp_get]
  cases hst : r.state with
  | idle =>
    rw [hst] at hplays
    cases e with
    | start =>
      have hend : r.atEnd = false := atEnd_eq_false.mpr ⟨s, h.next⟩
      simp only [smfnIdle, transPlaying, wp_bind, wp_get, hend, Bool.false_eq_true, if_false]
      exact stuck_trans .running h
    | stop => exact stuck_trans .done h
    | messageReceived m => exact stuck_onMessage hplays h
    | resubscribe => exact hresubscribe
    | _ => exact h
  | running =>
    rw [hst] at hplays
    cases e with
    | stepDue => cases hplays
    | pause => exact stuck_trans .paused h
    | stop => exact stuck_trans .done h
    | messageReceived m => exact stuck_onMessage hplays h
    | resubscribe => exact hresubscribe
    | _ => exact h
  | paused =>
    rw [hst] at hplays
    cases e with
    | resume =>
      simp only [smfnPaused, wp_bind, wp_get, h.aborted, if_true]
      exact h
    | stop => exact stuck_trans .done h
    | messageReceived m => exact stuck_onMessage hplays h
    | resubscribe => exact hresubscribe
    | _ => exact h
  | done => exact absurd hst h.live

end Stuck

section Runs

variable {l : List Label} {a : Label} {s : Step} {due : Ms} {d : List Step} {ahead : List Event}

theorem step_handle_eq {e : Event} {fifo : List Event} (hfifo : r.fifo = e :: fifo) :
    r.step (.handle w) = some (after (handleEvent w e) { r with fifo := fifo }) := by
  simp only [step, handle, hfifo]

/-- Whatever is not the handling of an event at most posts one. -/
theorem step_posts (ha : ∀ w, a ≠ .handle w) (hstep : r.step a = some r') :
    r'.play = r.play ∧ r'.aborted = r.aborted ∧ r'.state = r.state ∧ r.fifo <+: r'.fifo := by
  have hpost : ∀ e, r.fifo <+: r.fifo ++ [e] := fun _ => List.prefix_append _ _
  cases a with
  | handle w => exact absurd rfl (ha w)
  | start subscribed =>
    cases hstep
    unfold ScenarioRunner.start
    split
    · exact ⟨rfl, rfl, rfl, hpost _⟩
    · exact ⟨rfl, rfl, rfl, List.prefix_refl _⟩
  | stop =>
    cases hstep
    have hstop : Leaves (fun r' => r'.play = r.play ∧ r'.aborted = r.aborted ∧
        r'.state = r.state ∧ r.fifo <+: r'.fifo) stop r := by
      simp only [Leaves, stop, postFifo, wp_bind, wp_get, wp_ite, wp_modify, wp_pure]
      split
      · exact ⟨rfl, trivial, trivial, hpost _⟩
      · exact ⟨trivial, trivial, trivial, List.prefix_refl _⟩
    exact hstop.after
  | resubscribe =>
    cases hstep
    exact ⟨rfl, rfl, rfl, hpost _⟩
  | handleMessage q =>
    cases hstep
    exact ⟨rfl, rfl, rfl, hpost _⟩
  | elapse uuid =>
    obtain ⟨-, heq⟩ := Option.ite_none_right_eq_some.mp hstep
    cases heq
    exact ⟨rfl, rfl, rfl, hpost _⟩

theorem ended_step (h : r.Ended d) (hstep : r.step a = some r') : r'.Ended d := by
  by_cases ha : ∃ w, a = .handle w
  · obtain ⟨w, rfl⟩ := ha
    cases hfifo : r.fifo with
    | nil =>
      simp only [step, handle, hfifo] at hstep
      cases hstep
    | cons e fifo =>
      rw [step_handle_eq hfifo] at hstep
      cases hstep
      exact (ended_handleEvent (r := { r with fifo := fifo }) e ⟨h.next, h.dispatched⟩).after
  · obtain ⟨hplay, -⟩ := step_posts (fun w hw => ha ⟨w, hw⟩) hstep
    have hnext : r'.timeline.steps[r'.nextIdx]? = r.timeline.steps[r.nextIdx]? :=
      congrArg (fun p : Play => p.timeline.steps[p.nextIdx]?) hplay
    exact ⟨hnext.trans h.next, (congrArg Play.dispatched hplay).trans h.dispatched⟩

/-- The runner is done, or Stop comes before anything that plays. -/
def Settled (s : Step) (due : Ms) (d : List Step) (r : ScenarioRunner) : Prop :=
  r.dispatched = d ∧ (r.state = .done ∨ ∃ ahead, r.Waits s due d (ahead ++ [.stop]) r.state ∧
    harmless due r.state ahead = true)

theorem settled_handle (hw : ∀ x, w.publishRaises x = false) (h : r.Settled s due d)
    (hstep : r.step (.handle w) = some r') : r'.Settled s due d := by
  obtain ⟨hdispatched, hdone | ⟨ahead, hwaits, hharmless⟩⟩ := h
  · cases hfifo : r.fifo with
    | nil =>
      simp only [step, handle, hfifo] at hstep
      cases hstep
    | cons e fifo =>
      have hidle : Leaves (fun r' => r'.dispatched = d ∧ r'.state = .done) (handleEvent w e)
          { r with fifo := fifo } := by
        simp only [Leaves, handleEvent, wp_bind, wp_get, hdone]
        exact ⟨hdispatched, rfl⟩
      rw [step_handle_eq hfifo] at hstep
      cases hstep
      exact ⟨hidle.after.1, .inl hidle.after.2⟩
  · obtain ⟨rest, hfifo⟩ := hwaits.fifo
    cases ahead with
    | nil =>
      rw [step_handle_eq (by rw [← hfifo]; rfl)] at hstep
      cases hstep
      have hnow : Waits s due d [] r.state { r with fifo := rest } :=
        { hwaits with fifo := List.nil_prefix }
      have hdone : onward r.state .stop = .done := by cases r.state <;> rfl
      have hplays : plays due r.state .stop = false := by cases r.state <;> rfl
      have hafter := (waits_handleEvent hw hplays hnow).after
      exact ⟨hafter.dispatched, .inl (hafter.state.trans hdone)⟩
    | cons e ahead =>
      simp only [harmless, Bool.and_eq_true, Bool.not_eq_true'] at hharmless
      rw [step_handle_eq (by rw [← hfifo]; rfl)] at hstep
      cases hstep
      have hnow : Waits s due d (ahead ++ [.stop]) r.state
          { r with fifo := ahead ++ [.stop] ++ rest } :=
        { hwaits with fifo := List.prefix_append _ _ }
      have hafter := (waits_handleEvent hw hharmless.1 hnow).after
      refine ⟨hafter.dispatched, .inr ⟨ahead, ?_, ?_⟩⟩
      · exact { hafter with state := rfl }
      · have hstate := hafter.state
        exact hstate ▸ hharmless.2

theorem settled_step (h : r.Settled s due d) (ha : a.Publishes) (hstep : r.step a = some r') :
    r'.Settled s due d := by
  by_cases hhandle : ∃ w, a = .handle w
  · obtain ⟨w, rfl⟩ := hhandle
    exact settled_handle ha h hstep
  · obtain ⟨hplay, haborted, hstate, hfifo⟩ := step_posts (fun w hw => hhandle ⟨w, hw⟩) hstep
    have hdispatched : r'.dispatched = r.dispatched := congrArg Play.dispatched hplay
    refine ⟨hdispatched.trans h.1, ?_⟩
    rw [hstate]
    refine h.2.imp_right ?_
    rintro ⟨ahead, hwaits, hharmless⟩
    have hnext : r'.timeline.steps[r'.nextIdx]? = r.timeline.steps[r.nextIdx]? :=
      congrArg (fun p : Play => p.timeline.steps[p.nextIdx]?) hplay
    have hclock : r'.currentTimeMs = r.currentTimeMs := congrArg Play.currentTimeMs hplay
    exact ⟨ahead, ⟨hnext.trans hwaits.next, haborted.trans hwaits.aborted, hclock ▸ hwaits.clock,
      hclock ▸ hwaits.due, hdispatched.trans hwaits.dispatched, hwaits.fifo.trans hfifo, hstate⟩,
      hharmless⟩

/-- An event at the head of the fifo that plays dispatches an action. -/
theorem dispatches_step {e : Event} {fifo : List Event} (hfifo : r.fifo = e :: fifo)
    (hs : r.timeline.steps[r.nextIdx]? = some s)
    (hplays : plays (max r.currentTimeMs s.atMs) r.state e = true) :
    ∃ r', r.step (.handle fairWorld) = some r' ∧ r.dispatched ++ [s] <+: r'.dispatched :=
  ⟨_, step_handle_eq hfifo,
    (dispatches_of_plays (r := { r with fifo := fifo }) hs hplays).after⟩

theorem ne_of_prefix {d' : List Step} (h : d ++ [s] <+: d') : d' ≠ d := by
  rintro rfl
  have hlength := h.length_le
  rw [List.length_append, List.length_singleton] at hlength
  omega

theorem publishes_cons (h : ∀ a ∈ l, a.Publishes) :
    ∀ a ∈ Label.handle fairWorld :: l, a.Publishes := by
  simpa [Label.Publishes, fairWorld] using h

theorem exists_of_not_harmless {c : RunnerState} (h : r.Waits s due d ahead c)
    (hnot : harmless due c ahead = false) :
    ∃ l r', (∀ a ∈ l, a.Publishes) ∧ Trace.run step r l = some r' ∧ r'.dispatched ≠ d := by
  induction ahead generalizing r c with
  | nil => cases hnot
  | cons e ahead ih =>
    obtain ⟨rest, hfifo⟩ := h.fifo
    cases hplays : plays due c e with
    | true =>
      have hplays' : plays (max r.currentTimeMs s.atMs) r.state e = true := by
        rw [h.due, h.state, hplays]
      obtain ⟨r', hstep, hprefix⟩ := dispatches_step hfifo.symm h.next hplays'
      rw [h.dispatched] at hprefix
      exact ⟨[.handle fairWorld], r', publishes_cons (by simp),
        (Trace.run_cons_eq_some step).mpr ⟨r', hstep, rfl⟩, ne_of_prefix hprefix⟩
    | false =>
      have hrest : harmless due (onward c e) ahead = false := by
        simpa [harmless, hplays] using hnot
      have hnow : Waits s due d ahead c { r with fifo := ahead ++ rest } :=
        { h with fifo := List.prefix_append _ _ }
      have hafter := (waits_handleEvent (w := fairWorld) (fun _ => rfl) hplays hnow).after
      obtain ⟨l, r', hl, hrun, hne⟩ := ih hafter hrest
      exact ⟨.handle fairWorld :: l, r', publishes_cons hl,
        (Trace.run_cons_eq_some step).mpr ⟨_, step_handle_eq hfifo.symm, hrun⟩, hne⟩

/-- A step request plays sooner or later, since Stop does not get the runner done. -/
theorem exists_of_stuck (h : r.Stuck s d ahead) (hmem : .messageReceived (.step none) ∈ ahead) :
    ∃ l r', (∀ a ∈ l, a.Publishes) ∧ Trace.run step r l = some r' ∧ r'.dispatched ≠ d := by
  induction ahead generalizing r with
  | nil => cases hmem
  | cons e ahead ih =>
    obtain ⟨rest, hfifo⟩ := h.fifo
    have hdue : max r.currentTimeMs s.atMs = ⊤ := by rw [h.clock, max_eq_left le_top]
    cases hplays : plays ⊤ r.state e with
    | true =>
      obtain ⟨r', hstep, hprefix⟩ := dispatches_step hfifo.symm h.next (hdue ▸ hplays)
      rw [h.dispatched] at hprefix
      exact ⟨[.handle fairWorld], r', publishes_cons (by simp),
        (Trace.run_cons_eq_some step).mpr ⟨r', hstep, rfl⟩, ne_of_prefix hprefix⟩
    | false =>
      have hother : .messageReceived (.step none) ≠ e := by
        rintro rfl
        have hlive := h.live
        cases hst : r.state <;> simp_all [plays, requestPlays, Request.valid]
      have hnow : Stuck s d ahead { r with fifo := ahead ++ rest } :=
        { h with fifo := List.prefix_append _ _ }
      have hafter := (stuck_handleEvent (w := fairWorld) (r := { r with fifo := ahead ++ rest })
        hplays hnow).after
      obtain ⟨l, r', hl, hrun, hne⟩ := ih hafter ((List.mem_cons.mp hmem).resolve_left hother)
      exact ⟨.handle fairWorld :: l, r', publishes_cons hl,
        (Trace.run_cons_eq_some step).mpr ⟨_, step_handle_eq hfifo.symm, hrun⟩, hne⟩

/-- The abort sets the flag and posts Stop behind what is in the fifo. -/
theorem step_abort (hfifo : r.fifo = .messageReceived .abort :: ahead) (hlive : r.state ≠ .done) :
    r.step (.handle w) = some { r with aborted := true, fifo := ahead ++ [.stop] } := by
  rw [step_handle_eq hfifo]
  have habort : Leaves (fun r' => r' = { r with aborted := true, fifo := ahead ++ [.stop] })
      (handleEvent w (.messageReceived .abort)) { r with fifo := ahead } := by
    simp only [Leaves, handleEvent, wp_bind, wp_get]
    cases hst : r.state with
    | done => exact absurd hst hlive
    | _ => exact rfl
  rw [habort.after]

/-- After an abort nothing further is dispatched, whatever comes, if and only if none of the events
that were in the fifo ahead of its Stop plays. -/
theorem aborted_final_iff (hfifo : r.fifo = .messageReceived .abort :: ahead)
    (hlive : r.state ≠ .done) (habort : r.step (.handle w) = some r') :
    (∀ l r'', (∀ a ∈ l, a.Publishes) → Trace.run step r' l = some r'' →
      r''.dispatched = r'.dispatched) ↔ r.Halts ahead := by
  rw [step_abort hfifo hlive] at habort
  obtain rfl := Option.some.inj habort
  unfold Halts
  cases hs : r.timeline.steps[r.nextIdx]? with
  | none =>
    refine iff_of_true ?_ trivial
    intro l r'' _ hrun
    have hend : Ended r.dispatched { r with aborted := true, fifo := ahead ++ [.stop] } := ⟨hs, rfl⟩
    exact (Trace.run_invariant (I := Ended r.dispatched)
      (fun _ _ _ h hstep => ended_step h hstep) hrun hend).dispatched
  | some s =>
    have hwaits : r.currentTimeMs ≠ ⊤ → Waits s (max r.currentTimeMs s.atMs) r.dispatched
        (ahead ++ [.stop]) r.state { r with aborted := true, fifo := ahead ++ [.stop] } :=
      fun hclock => ⟨hs, rfl, hclock, rfl, rfl, List.prefix_refl _, rfl⟩
    constructor
    · intro hfinal
      by_contra hnot
      by_cases hclock : r.currentTimeMs = ⊤
      · have hstuck : Stuck s r.dispatched
            (ahead ++ [.stop] ++ [.start] ++ [.messageReceived (.step none)])
            { r with
              aborted := true
              wired := true
              started := true
              fifo := ahead ++ [.stop] ++ [.start] ++ [.messageReceived (.step none)] } :=
          ⟨hs, rfl, hclock, rfl, rfl, List.prefix_refl _, hlive⟩
        obtain ⟨l, r'', hl, hrun, hne⟩ := exists_of_stuck hstuck (by simp)
        refine hne (hfinal (.start true :: .handleMessage (.step none) :: l) r'' ?_ ?_)
        · simpa [Label.Publishes] using hl
        · exact hrun
      · have hharmful : harmless (max r.currentTimeMs s.atMs) r.state ahead = false := by
          simpa [hclock] using hnot
        have hahead : Waits s (max r.currentTimeMs s.atMs) r.dispatched ahead r.state
            { r with aborted := true, fifo := ahead ++ [.stop] } :=
          { hwaits hclock with fifo := List.prefix_append _ _ }
        obtain ⟨l, r'', hl, hrun, hne⟩ := exists_of_not_harmless hahead hharmful
        exact hne (hfinal l r'' hl hrun)
    · rintro ⟨hclock, hharmless⟩ l r'' hl hrun
      have hsettled : Settled s (max r.currentTimeMs s.atMs) r.dispatched
          { r with aborted := true, fifo := ahead ++ [.stop] } :=
        ⟨rfl, .inr ⟨ahead, hwaits hclock, hharmless⟩⟩
      have hall : Trace.AllSteps step _ _ l :=
        Trace.allSteps_of_forall { r with aborted := true, fifo := ahead ++ [.stop] } hl
      exact (Trace.run_invariant_of (I := Settled s (max r.currentTimeMs s.atMs) r.dispatched)
        (fun _ _ _ h ha hstep => settled_step h ha hstep) hall hrun hsettled).1

/-- A scenario is started and aborted while its timer runs. -/
def abortedRun : List Label := [.start true, .handle fairWorld, .handleMessage .abort]

def lateStepDue : List Label := [.elapse 0, .handle fairWorld, .handle fairWorld]

/-- The timer has expired before the abort is handled. -/
def dueRun : List Label :=
  [.start true, .handle fairWorld, .handleMessage .abort, .elapse 0, .handle fairWorld]

theorem final_abortedRun :
    ∃ r r' r'', Trace.run step (loaded "two" twoSteps) abortedRun = some r ∧
      r.step (.handle fairWorld) = some r' ∧ Trace.run step r' lateStepDue = some r'' ∧
      r''.dispatched = r'.dispatched := by
  have hrun : (Trace.run step (loaded "two" twoSteps) abortedRun).any (fun r =>
      decide (r.fifo = [.messageReceived .abort]) && decide (r.state ≠ .done) &&
        decide (r.timeline.steps[r.nextIdx]?.isSome ∧ r.currentTimeMs ≠ ⊤) &&
        (r.step (.handle fairWorld)).any (fun r' =>
          (Trace.run step r' lateStepDue).isSome)) = true := by
    decide +kernel
  simp only [Option.any_eq_true, Bool.and_eq_true, decide_eq_true_eq] at hrun
  obtain ⟨r, hr, ⟨⟨hfifo, hlive⟩, hsome, hclock⟩, r', hr', hlate⟩ := hrun
  obtain ⟨r'', hr''⟩ := Option.isSome_iff_exists.mp hlate
  obtain ⟨s, hs⟩ := Option.isSome_iff_exists.mp hsome
  have hhalts : r.Halts [] := by
    unfold Halts
    rw [hs]
    exact ⟨hclock, rfl⟩
  have hpublishes : ∀ a ∈ lateStepDue, a.Publishes := by
    simp [lateStepDue, Label.Publishes, fairWorld]
  exact ⟨r, r', r'', hr, hr', hr'',
    (aborted_final_iff hfifo hlive hr').mpr hhalts lateStepDue r'' hpublishes hr''⟩

/-- A StepDue that was in the fifo before Stop still dispatches an action of an aborted scenario. -/
theorem abort_not_final :
    ∃ r r', Trace.run step (loaded "two" twoSteps) dueRun = some r ∧ r.aborted = true ∧
      Trace.run step r [.handle fairWorld] = some r' ∧
      r'.dispatched.length = r.dispatched.length + 1 := by
  have hrun : (Trace.run step (loaded "two" twoSteps) dueRun).any (fun r =>
      r.aborted && (Trace.run step r [.handle fairWorld]).any (fun r' =>
        r'.dispatched.length = r.dispatched.length + 1)) = true := by
    decide +kernel
  simp only [Option.any_eq_true, Bool.and_eq_true, decide_eq_true_eq] at hrun
  obtain ⟨r, hr, haborted, r', hr', hlength⟩ := hrun
  exact ⟨r, r', hr, haborted, hr', hlength⟩

end Runs

end ScenarioRunner

end TelafSim.Scenario
