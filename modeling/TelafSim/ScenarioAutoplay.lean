import TelafSim.ScenarioTimeline

/-!
# Autoplay

In smfn_running a StepDue is armed or queued, or Stop is. The handlers cancel the timer first and
arm it again last, so one that raises in between leaves the runner playing without a timer: on a
publication or a dispatch that raises, on a time with a newline at its end, and on one too large for
an integer. As long as none of this comes to be handled in smfn_running, autoplay never stalls.
-/

namespace TelafSim.Scenario

open Procedure

def Timeline.Finite (tl : Timeline) : Prop := ∀ s ∈ tl.steps, s.atMs ≠ ⊤

/-- Nothing that is called raises. -/
structure World.Fair (w : World) : Prop where
  returns : w.Returns
  publishes : ∀ x, w.publishRaises x = false

namespace ScenarioRunner

variable {r r' : ScenarioRunner} {w : World}

/-- A runner that plays has its timer armed or expired, or is about to stop. -/
def Plays (r : ScenarioRunner) : Prop :=
  r.state = .running → r.armed ≠ [] ∨ .stepDue ∈ r.fifo ∨ .stop ∈ r.fifo

/-- The event takes the timer away for a while. -/
def touchesTimer : Event → Bool
  | .stepDue => true
  | .pause => true
  | .stop => true
  | .messageReceived (.step steps) => (Request.step steps).valid
  | .messageReceived (.seek at_) => matchesAt at_
  | _ => false

/-- A time that is parsed to a number. -/
def seeksNumber : Event → Bool
  | .messageReceived (.seek at_) =>
    match parseAt at_ with
    | .error _ => false
    | .ok ms => ms ≠ ⊤
  | _ => true

/-- An event that takes the timer away while the timeline plays is handled without anything raising,
and seeks a time that is a number. -/
def Smooth (r : ScenarioRunner) : Label → Prop
  | .handle w =>
    ∀ e ∈ r.fifo.head?, r.state = .running → touchesTimer e = true → w.Fair ∧ seeksNumber e = true
  | _ => True

/-- The clock is infinite at the end of the timeline only, and never while the timeline plays. -/
structure Steady (r : ScenarioRunner) : Prop where
  finite : r.timeline.Finite
  plays : r.Plays
  timed : r.currentTimeMs = ⊤ → r.atEnd = true
  clocked : r.state = .running → r.currentTimeMs ≠ ⊤

section Clear

variable {c : RunnerState}

/-- The clock is a number, and the chart is in the given state. -/
structure Clear (c : RunnerState) (r : ScenarioRunner) : Prop where
  finite : r.timeline.Finite
  clock : r.currentTimeMs ≠ ⊤
  state : r.state = c

theorem Clear.steady (h : r.Clear c) (hst : c ≠ .running) : r.Steady := by
  refine ⟨h.finite, ?_, fun htop => absurd htop h.clock, fun _ => h.clock⟩
  intro hrunning
  exact absurd (h.state.symm.trans hrunning) hst

theorem Clear.steady_of_plays (h : r.Clear c)
    (hplays : r.armed ≠ [] ∨ .stepDue ∈ r.fifo ∨ .stop ∈ r.fifo) : r.Steady :=
  ⟨h.finite, fun _ => hplays, fun htop => absurd htop h.clock, fun _ => h.clock⟩

theorem clear_publish (hw : w.Fair) (x : Publication) (h : r.Clear c) :
    Yields (Clear c) (publish w x) r := by
  simp only [publish, wp_bind, wp_get, wp_ite, hw.publishes, Bool.false_eq_true, if_false,
    wp_modify, wp_pure]
  split
  · exact ⟨h.finite, h.clock, h.state⟩
  · exact h

theorem clear_intTime (h : r.Clear c) : Yields (Clear c) intTime r := by
  simp only [intTime, wp_bind, wp_get]
  split
  · rename_i htop
    exact absurd htop h.clock
  · exact h

theorem clear_publishProgress (hw : w.Fair) (label : ProgressLabel) (h : r.Clear c) :
    Yields (Clear c) (publishProgress w label) r := by
  simp only [publishProgress, wp_bind, wp_get, wp_ite, wp_pure]
  split
  · exact wp_mono (clear_intTime h) (fun _ _ h' => clear_publish hw _ h') (fun _ _ h' => h')
  · exact h

theorem clear_cancelStepDue (h : r.Clear c) : Yields (Clear c) cancelStepDue r :=
  ⟨h.finite, h.clock, h.state⟩

theorem clear_dispatchOne (hw : w.Fair) (s : Step) (h : r.Clear c) :
    Yields (Clear c) (dispatchOne w s) r :=
  wp_dispatchOne hw.returns ⟨h.finite, h.clock, h.state⟩

theorem clear_stepLoop (hw : w.Fair) (n : ℕ) (h : r.Clear c) :
    Yields (Clear c) (stepLoop w n) r := by
  refine wp_stepLoop ?_ n h
  intro r s h hs
  have hfinite : s.atMs ≠ ⊤ := h.finite s (List.mem_of_getElem? hs)
  have hset : Clear c { r with currentTimeMs := s.atMs } := ⟨h.finite, hfinite, h.state⟩
  refine wp_mono (clear_dispatchOne hw s hset) ?_ (fun _ _ h' => h')
  intro _ r' h'
  exact ⟨h'.finite, h'.clock, h'.state⟩

theorem clear_seekLoop (hw : w.Fair) (target : Ms) (rest : List Step) (h : r.Clear c) :
    Yields (Clear c) (seekLoop w target rest) r := by
  induction rest generalizing r with
  | nil => exact h
  | cons s rest ih =>
    unfold seekLoop
    split
    · refine (clear_dispatchOne hw s h).bind ?_
      intro _ r' h'
      simp only [wp_bind, wp_modify]
      exact ih (r := { r' with nextIdx := r'.nextIdx + 1 }) ⟨h'.finite, h'.clock, h'.state⟩
    · exact h

theorem clear_stop (h : r.Clear c) : Yields (Clear c) stop r := by
  simp only [stop, postFifo, wp_bind, wp_get, wp_ite, wp_modify, wp_pure]
  split
  · exact ⟨h.finite, h.clock, h.state⟩
  · exact h

theorem clear_exitState (state : RunnerState) (h : r.Clear c) :
    Yields (Clear c) (exitState state) r := by
  cases state
  · exact h
  · exact clear_cancelStepDue h
  · exact h
  · exact h

/-- The chart leaves smfn_running for one of the states that do not play. -/
theorem clear_trans (hw : w.Fair) {target : RunnerState} (htarget : target ≠ .running)
    (h : r.Clear c) : Yields (Clear target) (trans w target) r := by
  have henter : ∀ {r : ScenarioRunner}, r.Clear c → Yields (Clear c) (enterState w target) r := by
    intro r h
    cases target with
    | running => exact absurd rfl htarget
    | idle => exact clear_publishProgress hw _ h
    | paused =>
      refine (clear_cancelStepDue h).bind ?_
      intro _ r h
      exact clear_publishProgress hw _ h
    | done =>
      refine (clear_cancelStepDue h).bind ?_
      intro _ r h
      exact (clear_publishProgress hw _ h).bind (fun _ _ h => clear_stop h)
  refine (clear_exitState r.state h).bind ?_
  intro _ r h
  refine (henter h).bind ?_
  intro _ r h
  exact ⟨h.finite, h.clock, rfl⟩

/-- The timer is armed again, unless the end of the timeline is posted. -/
theorem steady_scheduleNextStepDue (h : r.Clear c) (hend : r.atEnd = false) :
    Yields Steady scheduleNextStepDue r := by
  have hend' : atEnd { r with
      armed := r.armed.filter (some · ≠ r.stepDueUuid), stepDueUuid := none } = false := hend
  simp only [scheduleNextStepDue, cancelStepDue, wp_bind, wp_modify, wp_get, hend',
    Bool.false_eq_true, if_false]
  refine Clear.steady_of_plays (c := c) ⟨h.finite, h.clock, h.state⟩ (.inl ?_)
  exact List.append_ne_nil_of_right_ne_nil _ (List.cons_ne_nil _ _)

theorem steady_carryOn (h : r.Clear .running) : Yields Steady carryOn r := by
  simp only [carryOn, wp_bind, wp_get, wp_ite, h.state, if_true]
  split
  · refine Clear.steady_of_plays (c := .running) ⟨h.finite, h.clock, h.state⟩ (.inr (.inr ?_))
    exact List.mem_append_right _ (List.mem_singleton_self _)
  · rename_i hend
    exact steady_scheduleNextStepDue h (Bool.eq_false_of_not_eq_true hend)

theorem steady_rpcStep (hw : w.Fair) (steps : Option ℤ) (h : r.Clear .running) :
    Yields Steady (rpcStep w steps) r := by
  have hsync : Yields (Clear .running) (doStepSync w (steps.getD 1).toNat) r :=
    (clear_cancelStepDue h).bind (fun _ _ h => clear_stepLoop hw _ h)
  refine hsync.bind ?_
  intro executed r h
  refine (clear_intTime h).bind ?_
  intro ms r h
  refine Yields.bind (x := get) (P := Clear .running) h ?_
  intro r₀ r h
  exact (clear_publish hw _ h).bind (fun _ _ h => steady_carryOn h)

theorem clear_doSeekSync (hw : w.Fair) {at_ : String} {target : Ms}
    (hat : parseAt at_ = .ok target) (htarget : target ≠ ⊤) (h : r.Clear c) :
    Yields (Clear c) (doSeekSync w at_) r := by
  refine (clear_cancelStepDue h).bind ?_
  intro _ r h
  simp only [hat, wp_bind, wp_get, wp_ite, wp_pure]
  split
  · refine wp_mono (clear_seekLoop hw target _ h) ?_ (fun _ _ h' => h')
    intro _ r' h'
    exact ⟨h'.finite, htarget, h'.state⟩
  · exact h

theorem steady_rpcSeek (hw : w.Fair) {at_ : String} {target : Ms}
    (hat : parseAt at_ = .ok target) (htarget : target ≠ ⊤) (h : r.Clear .running) :
    Yields Steady (rpcSeek w at_) r := by
  refine (clear_doSeekSync hw hat htarget h).bind ?_
  intro _ r h
  refine (clear_intTime h).bind ?_
  intro ms r h
  exact (clear_publish hw _ h).bind (fun _ _ h => steady_carryOn h)

theorem steady_stepDue (hw : w.Fair) (h : r.Clear .running) : Yields Steady (stepDue w) r := by
  have htrans : ∀ {r : ScenarioRunner}, r.Clear .running → Yields Steady (trans w .done) r :=
    fun h => wp_mono (clear_trans hw (by decide) h) (fun _ _ h => h.steady (by decide))
      (fun _ _ h => h)
  refine (clear_cancelStepDue h).bind ?_
  intro _ r h
  simp only [wp_bind, wp_get]
  split
  · exact htrans h
  · rename_i s hs
    have hfinite : s.atMs ≠ ⊤ := h.finite s (List.mem_of_getElem? hs)
    simp only [wp_bind, wp_modify]
    have hset : Clear .running { r with currentTimeMs := s.atMs } :=
      ⟨h.finite, hfinite, h.state⟩
    refine wp_mono (clear_dispatchOne hw s hset) ?_ (fun _ _ h => h)
    intro _ r h
    have hnext : Clear .running { r with nextIdx := r.nextIdx + 1 } :=
      ⟨h.finite, h.clock, h.state⟩
    simp only [wp_bind, wp_modify]
    refine wp_mono (clear_publishProgress hw .running hnext) ?_ (fun _ _ h => h)
    intro _ r h
    simp only [wp_bind, wp_get, wp_ite]
    split
    · exact htrans h
    · rename_i hend
      exact steady_scheduleNextStepDue h (Bool.eq_false_of_not_eq_true hend)

end Clear

section Calm

variable {c : RunnerState}

/-- The clock is infinite at the end of the timeline only, and the chart is in the given state. -/
structure Calm (c : RunnerState) (r : ScenarioRunner) : Prop where
  finite : r.timeline.Finite
  timed : r.currentTimeMs = ⊤ → r.atEnd = true
  state : r.state = c

theorem Calm.steady (h : r.Calm c) (hst : c ≠ .running) : r.Steady := by
  have hne : r.state ≠ .running := by
    rw [h.state]
    exact hst
  exact ⟨h.finite, fun hrunning => absurd hrunning hne, h.timed,
    fun hrunning => absurd hrunning hne⟩

/-- A call that neither plays the timeline nor leaves the state. -/
theorem calm_of_stays {α : Type} {x : Handler α} (hx : Stays x) (h : r.Calm c) :
    Leaves (Calm c) x r := by
  have hkept := hx.leaves (s := r) (P := fun p : Play × RunnerState =>
    p.1.timeline.Finite ∧ (p.1.currentTimeMs = ⊤ → p.1.timeline.steps.length ≤ p.1.nextIdx) ∧
      p.2 = c) ⟨h.finite, fun htop => of_decide_eq_true (h.timed htop), h.state⟩
  refine wp_mono hkept ?_ ?_
  · rintro _ r' ⟨hfinite, htimed, hstate⟩
    exact ⟨hfinite, fun htop => decide_eq_true (htimed htop), hstate⟩
  · rintro _ r' ⟨hfinite, htimed, hstate⟩
    exact ⟨hfinite, fun htop => decide_eq_true (htimed htop), hstate⟩

theorem calm_dispatchOne (s : Step) (h : r.Calm c) : Leaves (Calm c) (dispatchOne w s) r := by
  have hlog : Calm c { r with dispatched := r.dispatched ++ [s] } := ⟨h.finite, h.timed, h.state⟩
  simp only [dispatchOne, wp_bind, wp_get, wp_modify]
  split
  · exact hlog
  · exact hlog

theorem Calm.next (h : r.Calm c) : Calm c { r with nextIdx := r.nextIdx + 1 } := by
  refine ⟨h.finite, ?_, h.state⟩
  intro htop
  have hend : r.timeline.steps.length ≤ r.nextIdx := of_decide_eq_true (h.timed htop)
  exact decide_eq_true (Nat.le_succ_of_le hend)

theorem calm_stepLoop (n : ℕ) (h : r.Calm c) : Leaves (Calm c) (stepLoop w n) r := by
  refine wp_stepLoop ?_ n h
  intro r s h hs
  have hfinite : s.atMs ≠ ⊤ := h.finite s (List.mem_of_getElem? hs)
  have hset : Calm c { r with currentTimeMs := s.atMs } :=
    ⟨h.finite, fun htop => absurd htop hfinite, h.state⟩
  refine wp_mono (calm_dispatchOne s hset) ?_ (fun _ _ h' => h')
  intro _ r' h'
  exact h'.next

theorem calm_seekLoop (target : Ms) (rest : List Step)
    (hrest : r.timeline.steps.drop r.nextIdx = rest) (h : r.Calm c) :
    wp (seekLoop w target rest) (fun _ r' => Calm c r' ∧ (target = ⊤ → r'.atEnd = true))
      (fun _ => Calm c) r := by
  induction rest generalizing r with
  | nil => exact ⟨h, fun _ => decide_eq_true (List.drop_eq_nil_iff.mp hrest)⟩
  | cons s rest ih =>
    unfold seekLoop
    split
    · have hkeep : Keeps (fun r => (r.timeline, r.nextIdx)) (dispatchOne w s) := by
        refine keeps_get.bind (fun r => Keeps.bind (keeps_modify (fun _ => rfl)) (fun _ => ?_))
        split
        · exact keeps_throw _
        · exact keeps_pure _
      rw [wp_bind]
      refine wp_mono (wp_and (calm_dispatchOne s h) (hkeep r)) ?_ (fun _ _ h => h.1)
      rintro _ r' ⟨h', hsame⟩
      obtain ⟨htimeline, hidx⟩ := Prod.mk.inj hsame
      rw [wp_bind]
      refine ih ?_ h'.next
      change r'.timeline.steps.drop (r'.nextIdx + 1) = rest
      rw [htimeline, hidx, ← List.drop_drop, hrest]
      rfl
    · rename_i hlate
      refine ⟨h, ?_⟩
      rintro rfl
      exact absurd le_top hlate

theorem calm_doSeekSync (at_ : String) (h : r.Calm c) : Leaves (Calm c) (doSeekSync w at_) r := by
  refine (calm_of_stays stays_cancelStepDue h).bind ?_
  intro _ r h
  cases hat : parseAt at_ with
  | error e => exact h
  | ok target =>
    simp only [wp_bind, wp_get, wp_ite, wp_pure]
    split
    · refine wp_mono (calm_seekLoop target _ rfl h) ?_ (fun _ _ h => h)
      rintro _ r' ⟨h', hend⟩
      exact ⟨h'.finite, hend, h'.state⟩
    · exact h

theorem calm_onMessage (q : Request) (h : r.Calm c) : Leaves (Calm c) (onMessage w q) r := by
  have hrespond : ∀ {f : ℕ → Handler Unit} {r : ScenarioRunner}, (∀ ms, Stays (f ms)) →
      r.Calm c → Leaves (Calm c) (intTime >>= f) r :=
    fun hf h => calm_of_stays ((stays_of_mute keeps_intTime).bind hf) h
  unfold onMessage
  split
  · cases q with
    | step steps =>
      have hsync : Leaves (Calm c) (doStepSync w (steps.getD 1).toNat) r :=
        (calm_of_stays stays_cancelStepDue h).bind (fun _ _ h => calm_stepLoop _ h)
      refine hsync.bind (fun _ _ h => hrespond (fun _ => keeps_get.bind (fun _ => ?_)) h)
      exact (stays_of_mute (keeps_publish _)).bind (fun _ => stays_carryOn)
    | seek at_ =>
      refine (calm_doSeekSync at_ h).bind (fun _ _ h => hrespond (fun _ => ?_) h)
      exact (stays_of_mute (keeps_publish _)).bind (fun _ => stays_carryOn)
    | pause => exact calm_of_stays (stays_postFifo _) h
    | resume => exact calm_of_stays (stays_postFifo _) h
    | abort => exact ⟨h.finite, h.timed, h.state⟩
    | malformed => exact h
  · exact h

theorem eq_of_mute {α : Type} (f : ScenarioRunner → α) (hf : ∀ r, f r.mute = f r)
    (hmute : r'.mute = r.mute) : f r' = f r := by
  rw [← hf r', hmute, hf]

/-- Nothing but the last action of a transition changes the state. -/
theorem calm_trans {target : RunnerState} (htarget : target ≠ .running) (hst : c ≠ .running)
    (h : r.Calm c) : Leaves Steady (trans w target) r := by
  rw [trans, Leaves, wp_bind]
  have henter : Leaves (Calm c) (exitState r.state >>= fun _ => enterState w target) r :=
    calm_of_stays ((stays_exitState _).bind (fun _ => stays_enterState _)) h
  rw [Leaves, wp_bind] at henter
  simp only [wp_get, wp_bind]
  refine wp_mono henter ?_ (fun _ _ h => h.steady hst)
  intro _ r' h'
  rw [wp_bind]
  refine wp_mono h' ?_ (fun _ _ h => h.steady hst)
  intro _ r' h'
  exact Calm.steady (c := target) ⟨h'.finite, h'.timed, rfl⟩ htarget

theorem calm_trans_running (hst : c ≠ .running) (h : r.Calm c) (hend : r.atEnd = false) :
    Leaves Steady (trans w .running) r := by
  have hclock : r.currentTimeMs ≠ ⊤ := by
    intro htop
    rw [h.timed htop] at hend
    cases hend
  have hexit : exitState r.state = pure () := by
    rw [h.state]
    cases c with
    | running => exact absurd rfl hst
    | _ => rfl
  have hend' : atEnd { r with
      armed := r.armed.filter (some · ≠ r.stepDueUuid), stepDueUuid := none } = false := hend
  simp only [trans, hexit, enterState, scheduleNextStepDue, cancelStepDue, wp_bind, wp_get, wp_pure,
    wp_modify, hend', Bool.false_eq_true, if_false]
  refine wp_mono (keeps_publishProgress .running _) ?_ ?_
  · intro _ r' hmute
    refine Clear.steady_of_plays (c := .running) ⟨?_, ?_, rfl⟩ (.inl ?_)
    · change r'.timeline.Finite
      rw [eq_of_mute timeline (fun _ => rfl) hmute]
      exact h.finite
    · change r'.currentTimeMs ≠ ⊤
      rw [eq_of_mute currentTimeMs (fun _ => rfl) hmute]
      exact hclock
    · change r'.armed ≠ []
      rw [eq_of_mute armed (fun _ => rfl) hmute]
      exact List.append_ne_nil_of_right_ne_nil _ (List.cons_ne_nil _ _)
  · intro _ r' hmute
    refine Calm.steady (c := c) ⟨?_, ?_, ?_⟩ hst
    · rw [eq_of_mute timeline (fun _ => rfl) hmute]
      exact h.finite
    · intro htop
      rw [eq_of_mute currentTimeMs (fun _ => rfl) hmute] at htop
      exact absurd htop hclock
    · exact (eq_of_mute ScenarioRunner.state (fun _ => rfl) hmute).trans h.state

theorem calm_transPlaying (hst : c ≠ .running) (h : r.Calm c) :
    Leaves Steady (transPlaying w) r := by
  simp only [transPlaying, wp_bind, wp_get, wp_ite]
  split
  · exact calm_trans (by decide) hst h
  · rename_i hend
    exact calm_trans_running hst h (Bool.eq_false_of_not_eq_true hend)

theorem steady_resting (hst : c ≠ .running) (h : r.Calm c) (e : Event) :
    Leaves Steady (handleEvent w e) r := by
  have hsteady : ∀ {α : Type} {x : Handler α}, Leaves (Calm c) x r → Leaves Steady x r :=
    fun hx => wp_mono hx (fun _ _ h => h.steady hst) (fun _ _ h => h.steady hst)
  have hmessage : ∀ q, Leaves Steady (onMessage w q) r := fun q => hsteady (calm_onMessage q h)
  have hresubscribe : Leaves Steady (doResubscribe w) r :=
    hsteady (calm_of_stays (stays_of_mute keeps_doResubscribe) h)
  have hrest : Leaves Steady (pure () : Handler Unit) r := hsteady h
  simp only [handleEvent, wp_bind, wp_get]
  rw [h.state]
  cases c with
  | running => exact absurd rfl hst
  | idle =>
    cases e with
    | start => exact calm_transPlaying hst h
    | stop => exact calm_trans (by decide) hst h
    | messageReceived q => exact hmessage q
    | resubscribe => exact hresubscribe
    | _ => exact hrest
  | paused =>
    cases e with
    | resume =>
      simp only [smfnPaused, wp_bind, wp_get, wp_ite]
      split
      · exact hrest
      · exact calm_transPlaying hst h
    | stop => exact calm_trans (by decide) hst h
    | messageReceived q => exact hmessage q
    | resubscribe => exact hresubscribe
    | _ => exact hrest
  | done => exact hrest

end Calm

section Running

/-- The event leaves the timer alone: what is armed and queued stays. -/
structure Undisturbed (r r' : ScenarioRunner) : Prop where
  play : r'.play = r.play
  state : r'.state = r.state
  armed : r'.armed = r.armed
  fifo : r.fifo <+: r'.fifo

theorem Steady.undisturbed (h : r.Steady) (hu : Undisturbed r r') : r'.Steady := by
  have htimeline : r'.timeline = r.timeline := congrArg Play.timeline hu.play
  have hclock : r'.currentTimeMs = r.currentTimeMs := congrArg Play.currentTimeMs hu.play
  have hidx : r'.nextIdx = r.nextIdx := congrArg Play.nextIdx hu.play
  refine ⟨htimeline ▸ h.finite, ?_, ?_, ?_⟩
  · intro hrunning
    rw [hu.armed]
    exact (h.plays (hu.state.symm.trans hrunning)).imp_right
      (Or.imp (fun hm => hu.fifo.subset hm) (fun hm => hu.fifo.subset hm))
  · intro htop
    unfold atEnd
    rw [htimeline, hidx]
    exact h.timed (hclock.symm.trans htop)
  · intro hrunning
    rw [hclock]
    exact h.clocked (hu.state.symm.trans hrunning)

theorem undisturbed_of_mute {α : Type} {x : Handler α} (hx : Keeps mute x) :
    Leaves (Undisturbed r) x r := by
  have h : ∀ {r' : ScenarioRunner}, r'.mute = r.mute → Undisturbed r r' := by
    intro r' hmute
    refine ⟨eq_of_mute play (fun _ => rfl) hmute,
      eq_of_mute ScenarioRunner.state (fun _ => rfl) hmute,
      eq_of_mute armed (fun _ => rfl) hmute, ?_⟩
    rw [eq_of_mute fifo (fun _ => rfl) hmute]
  exact wp_mono (hx r) (fun _ _ heq => h heq) (fun _ _ heq => h heq)

theorem undisturbed_running {e : Event} (he : touchesTimer e = false) (hst : r.state = .running) :
    Leaves (Undisturbed r) (handleEvent w e) r := by
  have hrest : Undisturbed r r := ⟨rfl, rfl, rfl, List.prefix_refl _⟩
  simp only [handleEvent, wp_bind, wp_get]
  rw [hst]
  cases e with
  | start => exact hrest
  | resume => exact hrest
  | resubscribe => exact undisturbed_of_mute keeps_doResubscribe
  | stop => cases he
  | stepDue => cases he
  | pause => cases he
  | messageReceived q =>
    simp only [smfnRunning, onMessage]
    split
    · rename_i hvalid
      cases q with
      | step steps => rw [touchesTimer, hvalid] at he; cases he
      | seek at_ =>
        rw [touchesTimer, show matchesAt at_ = true from hvalid] at he
        cases he
      | pause => exact ⟨rfl, rfl, rfl, List.prefix_append _ _⟩
      | resume => exact ⟨rfl, rfl, rfl, List.prefix_append _ _⟩
      | abort => exact ⟨rfl, rfl, rfl, List.prefix_append _ _⟩
      | malformed => exact hrest
    · exact hrest

/-- An event that takes the timer away in smfn_running gives it back. -/
theorem steady_running (hw : w.Fair) {e : Event} (he : touchesTimer e = true)
    (hseek : seeksNumber e = true) (h : r.Clear .running) :
    Yields Steady (handleEvent w e) r := by
  have htrans : ∀ {target}, target ≠ .running → Yields Steady (trans w target) r :=
    fun htarget => wp_mono (clear_trans hw htarget h) (fun _ _ h => h.steady htarget)
      (fun _ _ h => h)
  simp only [handleEvent, wp_bind, wp_get, h.state]
  cases e with
  | start => cases he
  | resume => cases he
  | resubscribe => cases he
  | stop => exact htrans (by decide)
  | stepDue => exact steady_stepDue hw h
  | pause => exact htrans (by decide)
  | messageReceived q =>
    cases q with
    | step steps =>
      have hvalid : (Request.step steps).valid = true := he
      simp only [smfnRunning, onMessage, hvalid, if_true]
      exact steady_rpcStep hw steps h
    | seek at_ =>
      have hvalid : (Request.seek at_).valid = true := he
      simp only [smfnRunning, onMessage, hvalid, if_true]
      unfold seeksNumber at hseek
      split at hseek
      · rename_i a heq
        obtain rfl : a = at_ := by simpa using heq.symm
        cases hat : parseAt a with
        | error e =>
          rw [hat] at hseek
          cases hseek
        | ok target =>
          rw [hat] at hseek
          exact steady_rpcSeek hw hat (by simpa using hseek) h
      · rename_i hne
        exact absurd rfl (hne at_)
    | pause => cases he
    | resume => cases he
    | abort => cases he
    | malformed => cases he

end Running

section Runs

variable {l : List Label} {a : Label}

theorem step_handle (h : r.Steady) (hsmooth : r.Smooth (.handle w)) {e : Event} {fifo : List Event}
    (hfifo : r.fifo = e :: fifo) : Leaves Steady (handleEvent w e) { r with fifo := fifo } := by
  by_cases hst : r.state = .running
  · cases he : touchesTimer e with
    | true =>
      obtain ⟨hw, hseek⟩ := hsmooth e (by rw [hfifo]; rfl) hst he
      have hclear : Clear .running { r with fifo := fifo } := ⟨h.finite, h.clocked hst, hst⟩
      exact (steady_running hw he hseek hclear).leaves
    | false =>
      have htaken : Steady { r with fifo := fifo } := by
        refine ⟨h.finite, ?_, h.timed, h.clocked⟩
        intro hrunning
        refine (h.plays hrunning).imp_right (Or.imp ?_ ?_)
        · intro hmem
          rw [hfifo] at hmem
          rcases List.mem_cons.mp hmem with rfl | hmem
          · cases he
          · exact hmem
        · intro hmem
          rw [hfifo] at hmem
          rcases List.mem_cons.mp hmem with rfl | hmem
          · cases he
          · exact hmem
      exact wp_mono (undisturbed_running (r := { r with fifo := fifo }) he hst)
        (fun _ _ hu => htaken.undisturbed hu) (fun _ _ hu => htaken.undisturbed hu)
  · exact steady_resting hst (r := { r with fifo := fifo }) ⟨h.finite, h.timed, rfl⟩ e

theorem step_steady (h : r.Steady) (hsmooth : r.Smooth a) (hstep : r.step a = some r') :
    r'.Steady := by
  have hpost : ∀ {e : Event}, Undisturbed r { r with fifo := r.fifo ++ [e] } :=
    ⟨rfl, rfl, rfl, List.prefix_append _ _⟩
  cases a with
  | handle w =>
    simp only [step, handle] at hstep
    split at hstep
    · cases hstep
    · rename_i e fifo hfifo
      cases hstep
      exact (step_handle h hsmooth hfifo).after
  | elapse uuid =>
    simp only [step, elapse] at hstep
    obtain ⟨-, heq⟩ := Option.ite_none_right_eq_some.mp hstep
    cases heq
    exact ⟨h.finite, fun _ => .inr (.inl (List.mem_append_right _ (List.mem_singleton_self _))),
      h.timed, h.clocked⟩
  | start subscribed =>
    cases hstep
    unfold ScenarioRunner.start
    split
    · exact h.undisturbed ⟨rfl, rfl, rfl, List.prefix_append _ _⟩
    · exact h.undisturbed ⟨rfl, rfl, rfl, List.prefix_refl _⟩
  | stop =>
    cases hstep
    have hu : Leaves (Undisturbed r) stop r := by
      simp only [stop, postFifo, wp_bind, wp_get, wp_ite, wp_modify, wp_pure]
      split
      · exact ⟨rfl, rfl, rfl, List.prefix_append _ _⟩
      · exact ⟨rfl, rfl, rfl, List.prefix_refl _⟩
    exact h.undisturbed hu.after
  | resubscribe =>
    cases hstep
    exact h.undisturbed hpost
  | handleMessage q =>
    cases hstep
    exact h.undisturbed hpost

theorem loaded_steady (name : String) {tl : Timeline} (htl : tl.Finite) :
    (loaded name tl).Steady := by
  refine ⟨htl, ?_, ?_, ?_⟩
  · intro hrunning
    cases hrunning
  · intro htop
    cases htop
  · intro hrunning
    cases hrunning

/-- Autoplay does not stall in a run in which, while the timeline plays, no publication and no
dispatch raises in the handling of StepDue, Pause, Stop, a step request or a seek, and the times
that are sought are parsed to numbers. -/
theorem plays_of_smooth (name : String) {tl : Timeline} (htl : tl.Finite)
    (hsmooth : Trace.AllSteps step (fun r a => r.Smooth a) (loaded name tl) l)
    (hrun : Trace.run step (loaded name tl) l = some r) : r.Plays := by
  have h : r.Steady := Trace.run_invariant_of
    (fun _ _ _ h hsmooth hstep => step_steady h hsmooth hstep) hsmooth hrun (loaded_steady name htl)
  exact h.plays

/-- A step is played by its timer and the clock is sought on. -/
def smoothRun : List Label :=
  [.start true, .handle fairWorld, .elapse 0, .handle fairWorld, .handleMessage (.seek "1s"),
    .handle fairWorld]

/-- A seek to a time with a newline at its end. -/
def newlineRun : List Label :=
  [.start true, .handle fairWorld, .handleMessage (.seek "1s\n"), .handle fairWorld]

theorem fairWorld_fair : fairWorld.Fair := by
  refine ⟨?_, fun _ => rfl⟩
  intro idx h
  cases h

theorem twoSteps_finite : twoSteps.Finite := by
  intro s hs
  have hall : twoSteps.steps.all (fun s => decide (s.atMs ≠ ⊤)) = true := by decide +kernel
  exact of_decide_eq_true (List.all_eq_true.mp hall s hs)

theorem smoothRun_fair : ∀ a ∈ smoothRun, a = .handle w → w = fairWorld := by
  intro a ha heq
  simp only [smoothRun, List.mem_cons, List.not_mem_nil, or_false] at ha
  rcases ha with rfl | rfl | rfl | rfl | rfl | rfl <;> cases heq <;> rfl

theorem plays_smoothRun :
    ∃ r, Trace.run step (loaded "two" twoSteps) smoothRun = some r ∧ r.state = .running ∧
      r.Plays := by
  have hseeks : Trace.AllSteps step (fun r _ => r.fifo.head?.all seeksNumber = true)
      (loaded "two" twoSteps) smoothRun := by
    decide +kernel
  have hsmooth : Trace.AllSteps step (fun r a => r.Smooth a) (loaded "two" twoSteps) smoothRun := by
    refine hseeks.imp ?_
    intro r a ha hseek
    cases a with
    | handle w =>
      intro e he _ _
      obtain rfl := smoothRun_fair _ ha rfl
      rw [he] at hseek
      exact ⟨fairWorld_fair, hseek⟩
    | _ => trivial
  have hrun : (Trace.run step (loaded "two" twoSteps) smoothRun).map (·.state) =
      some .running := by
    decide +kernel
  obtain ⟨r, hr, hstate⟩ := Option.map_eq_some_iff.mp hrun
  exact ⟨r, hr, hstate, plays_of_smooth "two" twoSteps_finite hsmooth hr⟩

/-- The seek raises after the timer has been cancelled, and the runner plays on without one. -/
theorem newline_stalls :
    ∃ r, Trace.run step (loaded "two" twoSteps) newlineRun = some r ∧ ¬ r.Plays := by
  have hrun : (Trace.run step (loaded "two" twoSteps) newlineRun).map (fun r =>
      (r.state, r.armed, r.fifo)) = some (.running, [], []) := by
    decide +kernel
  obtain ⟨r, hr, heq⟩ := Option.map_eq_some_iff.mp hrun
  obtain ⟨hstate, hrest⟩ := Prod.mk.inj heq
  obtain ⟨harmed, hfifo⟩ := Prod.mk.inj hrest
  refine ⟨r, hr, ?_⟩
  intro hplays
  have h := hplays hstate
  rw [harmed, hfifo] at h
  simp at h

end Runs

end ScenarioRunner

end TelafSim.Scenario
