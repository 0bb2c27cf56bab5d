import TelafSim.ScenarioRecords

/-!
# The timer that a StepDue comes from

StepDue carries no index, and one that is in the fifo is not cancelled with the timer that has
posted it. A history keeps beside the runner which post each queued StepDue is, and the latest call
of `_schedule_next_step_due`. As long as no StepDue is in the fifo when a step or a seek is handled
in smfn_running, or when smfn_running is entered, a StepDue meets the step it was armed for.
-/

namespace TelafSim

namespace DeferredPosts

variable {κ : Type} [DecidableEq κ] {p p' : DeferredPosts κ}

theorem Orderly.kept (h : Orderly p p') (hk : p.Kept) : p'.Kept := by
  induction h with
  | refl => exact hk
  | @cancel p' k _ ih =>
    intro x hx
    obtain ⟨hx, hne⟩ := List.mem_filter.mp hx
    have hstored := ih x hx
    have hkey : x.2 ≠ k := by
      intro heq
      rw [heq] at hstored
      exact of_decide_eq_true hne hstored.symm
    rwa [uuids_cancel hkey]
  | @post p' k _ hfree ih =>
    intro x hx
    rcases List.mem_append.mp hx with hx | hx
    · have hstored := ih x hx
      have hkey : x.2 ≠ k := by
        intro heq
        rw [heq, hfree] at hstored
        cases hstored
      rwa [uuids_post hkey]
    · rw [List.mem_singleton.mp hx]
      exact uuids_post_self
  | cancelAll _ ih =>
    intro x hx
    obtain ⟨hx, hne⟩ := List.mem_filter.mp hx
    exact absurd (ih x hx) (of_decide_eq_true hne)

theorem Orderly.next_le (h : Orderly p p') : p.next ≤ p'.next := by
  induction h with
  | refl => exact le_rfl
  | cancel _ _ ih => exact ih
  | post _ _ _ ih => exact ih.trans (Nat.le_succ _)
  | cancelAll _ ih => exact ih

theorem Orderly.mem_records (h : Orderly p p') {x : ℕ × κ} (hx : x ∈ p'.records) :
    x ∈ p.records ∨ p.next ≤ x.1 := by
  induction h with
  | refl => exact .inl hx
  | cancel _ _ ih => exact ih (List.mem_of_mem_filter hx)
  | post _ h _ ih =>
    rcases List.mem_append.mp hx with hx | hx
    · exact ih hx
    · rw [List.mem_singleton.mp hx]
      exact .inr h.next_le
  | cancelAll _ ih => exact ih (List.mem_of_mem_filter hx)

/-- With a single key, the record is that of the latest post. -/
theorem Orderly.newest [Subsingleton κ] (h : Orderly p p') (hk : p.Kept)
    (hp : ∀ x ∈ p.records, x.1 + 1 = p.next) : ∀ x ∈ p'.records, x.1 + 1 = p'.next := by
  induction h with
  | refl => exact hp
  | cancel k _ ih => exact fun x hx => ih x (List.mem_of_mem_filter hx)
  | @post p' k h hfree ih =>
    intro x hx
    rcases List.mem_append.mp hx with hx | hx
    · have hstored := h.kept hk x hx
      rw [Subsingleton.elim x.2 k, hfree] at hstored
      cases hstored
    · rw [List.mem_singleton.mp hx]
      rfl
  | cancelAll _ ih => exact fun x hx => ih x (List.mem_of_mem_filter hx)

end DeferredPosts

namespace Scenario

open Procedure

/-- A runner with the posts that the queued StepDues are, and the latest call of
`_schedule_next_step_due`: its post, and `_next_idx` at the time. -/
structure TracedRunner where
  ao : ScenarioRunner
  dues : List ℕ
  latest : Option (ℕ × ℕ)

namespace TracedRunner

open ScenarioRunner

def loaded (scenarioName : String) (timeline : Timeline) : TracedRunner :=
  ⟨.loaded scenarioName timeline, [], none⟩

def duesAfter (t : TracedRunner) : Label → List ℕ
  | .elapse uuid => t.dues ++ [uuid]
  | .handle _ => if t.ao.fifo.head? = some .stepDue then t.dues.tail else t.dues
  | _ => t.dues

/-- A uuid is handed out by `_schedule_next_step_due` alone, and whoever calls it leaves `_next_idx`
as it is afterwards. -/
def latestAfter (t : TracedRunner) (r : ScenarioRunner) : Option (ℕ × ℕ) :=
  if r.nextUuid = t.ao.nextUuid then t.latest else some (r.nextUuid - 1, r.nextIdx)

def step (t : TracedRunner) (l : Label) : Option TracedRunner :=
  (t.ao.step l).map (fun r => ⟨r, t.duesAfter l, t.latestAfter r⟩)

/-- A StepDue that is about to dispatch a step was posted by the timer that the latest call has
armed, and that call was made for this step. -/
def FiresOwn (t : TracedRunner) : Prop :=
  t.ao.fifo.head? = some .stepDue → t.ao.state = .running → t.ao.atEnd = false →
    ∃ uuid, t.dues.head? = some uuid ∧ t.latest = some (uuid, t.ao.nextIdx)

/-- The event takes away the timer that is armed, or arms one where there is none. -/
def rearms (r : ScenarioRunner) : Event → Bool
  | .messageReceived (.step steps) => r.state = .running && (Request.step steps).valid
  | .messageReceived (.seek at_) => r.state = .running && (Request.seek at_).valid
  | .resume => r.state = .paused && !r.aborted && !r.atEnd
  | .start => r.state = .idle && !r.atEnd
  | _ => false

/-- No StepDue is left in the fifo by an event that arms the timer anew. -/
def heeds (t : TracedRunner) : Label → Bool
  | .handle _ =>
    match t.ao.fifo with
    | [] => true
    | e :: rest => !rearms t.ao e || .stepDue ∉ rest
  | _ => true

end TracedRunner

namespace ScenarioRunner

variable {r : ScenarioRunner} {w : World}

section Queue

def queued (r : ScenarioRunner) : ℕ := r.fifo.count .stepDue

/-- No StepDue is queued, and the chart stays in its state. -/
abbrev Queues {α : Type} (x : Handler α) : Prop := Keeps (fun r => (r.state, r.queued)) x

theorem Queues.queued {α : Type} {x : Handler α} (h : Queues x) : Keeps queued x :=
  h.of_eq Prod.snd (fun _ => rfl)

theorem Queues.state {α : Type} {x : Handler α} (h : Queues x) : Keeps ScenarioRunner.state x :=
  h.of_eq Prod.fst (fun _ => rfl)

theorem queues_of_mute {α : Type} {x : Handler α} (h : Keeps mute x) : Queues x :=
  h.of_eq (fun r => (r.state, r.queued)) (fun _ => rfl)

theorem queued_append {r' : ScenarioRunner} {e : Event} (he : e ≠ .stepDue)
    (hfifo : r'.fifo = r.fifo ++ [e]) : r'.queued = r.queued := by
  rw [queued, hfifo, List.count_append, List.count_singleton, if_neg (by simpa using he)]
  rfl

theorem queues_postFifo {e : Event} (he : e ≠ .stepDue) : Queues (postFifo e) :=
  keeps_modify (fun _ => Prod.ext rfl (queued_append he rfl))

theorem queues_cancelStepDue : Queues cancelStepDue := keeps_modify (fun _ => rfl)

theorem queues_scheduleNextStepDue : Queues scheduleNextStepDue := by
  refine queues_cancelStepDue.bind (fun _ => keeps_get.bind ?_)
  intro r
  exact Keeps.ite (keeps_pure _) (keeps_modify (fun _ => rfl))

theorem queues_dispatchOne (s : Step) : Queues (dispatchOne w s) := by
  refine keeps_get.bind (fun r => Keeps.bind (keeps_modify (fun _ => rfl)) (fun _ => ?_))
  split
  · exact keeps_throw _
  · exact keeps_pure _

theorem queues_playOne {α : Type} {s : Step} {x : Handler α} (hx : Queues x) :
    Queues (do
      dispatchOne w s
      modify (fun r => { r with nextIdx := r.nextIdx + 1 })
      x) :=
  (queues_dispatchOne s).bind (fun _ => Keeps.bind (keeps_modify (fun _ => rfl)) (fun _ => hx))

theorem queues_stepLoop (n : ℕ) : Queues (stepLoop w n) := by
  induction n with
  | zero => exact keeps_pure _
  | succ n ih =>
    refine keeps_get.bind ?_
    intro r
    split
    · exact keeps_pure _
    · exact Keeps.bind (keeps_modify (fun _ => rfl))
        (fun _ => queues_playOne (ih.bind (fun _ => keeps_pure _)))

theorem queues_seekLoop (targetMs : Ms) (steps : List Step) :
    Queues (seekLoop w targetMs steps) := by
  induction steps with
  | nil => exact keeps_pure _
  | cons s rest ih => exact Keeps.ite (queues_playOne ih) (keeps_pure _)

theorem queues_doSeekSync (at_ : String) : Queues (doSeekSync w at_) := by
  refine queues_cancelStepDue.bind ?_
  intro _
  split
  · exact keeps_throw _
  · refine keeps_get.bind (fun r => Keeps.ite ?_ (keeps_pure _))
    exact (queues_seekLoop _ _).bind (fun _ => keeps_modify (fun _ => rfl))

theorem queues_carryOn : Queues carryOn := by
  refine keeps_get.bind ?_
  intro r
  exact Keeps.ite (queues_postFifo (by decide))
    (Keeps.ite queues_scheduleNextStepDue (keeps_pure _))

theorem queues_onMessage (q : Request) : Queues (onMessage w q) := by
  have hintTime : Queues intTime := queues_of_mute keeps_intTime
  have hpublish : ∀ x, Queues (publish w x) := fun x => queues_of_mute (keeps_publish x)
  refine Keeps.ite ?_ (keeps_pure _)
  cases q with
  | step steps =>
    exact (queues_cancelStepDue.bind (fun _ => queues_stepLoop _)).bind (fun _ => hintTime.bind
      (fun _ => keeps_get.bind (fun _ => (hpublish _).bind (fun _ => queues_carryOn))))
  | seek at_ =>
    exact (queues_doSeekSync at_).bind (fun _ => hintTime.bind (fun _ => (hpublish _).bind
      (fun _ => queues_carryOn)))
  | pause => exact queues_postFifo (by decide)
  | resume => exact queues_postFifo (by decide)
  | abort =>
    exact Keeps.bind (keeps_modify (fun _ => rfl)) (fun _ => queues_postFifo (by decide))
  | malformed => exact keeps_pure _

theorem queues_stop : Queues stop := by
  refine keeps_get.bind ?_
  intro r
  exact Keeps.ite ((queues_postFifo (by decide)).bind (fun _ => keeps_modify (fun _ => rfl)))
    (keeps_pure _)

theorem queues_doResubscribe : Queues (doResubscribe w) := queues_of_mute keeps_doResubscribe

theorem queues_exitState (state : RunnerState) : Queues (exitState state) := by
  cases state with
  | running => exact queues_cancelStepDue
  | _ => exact keeps_pure _

theorem queues_enterState (target : RunnerState) : Queues (enterState w target) := by
  have hprogress : ∀ label, Queues (publishProgress w label) :=
    fun label => queues_of_mute (keeps_publishProgress label)
  cases target with
  | idle => exact hprogress _
  | running => exact queues_scheduleNextStepDue.bind (fun _ => hprogress _)
  | paused => exact queues_cancelStepDue.bind (fun _ => keeps_get.bind (fun _ => hprogress _))
  | done =>
    exact queues_cancelStepDue.bind (fun _ => keeps_get.bind (fun _ =>
      (hprogress _).bind (fun _ => queues_stop)))

theorem queued_trans (target : RunnerState) : Keeps queued (trans w target) :=
  keeps_get.bind (fun _ => (Queues.queued (queues_exitState _)).bind (fun _ =>
    (Queues.queued (queues_enterState _)).bind (fun _ => keeps_modify (fun _ => rfl))))

theorem queued_transPlaying : Keeps queued (transPlaying w) :=
  keeps_get.bind (fun _ => Keeps.ite (queued_trans _) (queued_trans _))

theorem queued_stepDue : Keeps queued (stepDue w) := by
  refine (Queues.queued queues_cancelStepDue).bind (fun _ => keeps_get.bind ?_)
  intro r
  split
  · exact queued_trans _
  · refine Keeps.bind (keeps_modify (fun _ => rfl)) (fun _ => ?_)
    refine (Queues.queued (queues_dispatchOne _)).bind (fun _ => ?_)
    refine Keeps.bind (keeps_modify (fun _ => rfl)) (fun _ => ?_)
    refine (Queues.queued (queues_of_mute (keeps_publishProgress _))).bind (fun _ => ?_)
    exact keeps_get.bind (fun _ => Keeps.ite (queued_trans _)
      (Queues.queued queues_scheduleNextStepDue))

theorem queued_handleEvent (e : Event) : Keeps queued (handleEvent w e) := by
  have hmessage : ∀ q, Keeps queued (onMessage w q) := fun q => (queues_onMessage q).queued
  have hresubscribe : Keeps queued (doResubscribe w) := queues_doResubscribe.queued
  refine keeps_get.bind ?_
  intro r
  cases r.state with
  | idle =>
    cases e with
    | start => exact queued_transPlaying
    | stop => exact queued_trans _
    | messageReceived q => exact hmessage q
    | resubscribe => exact hresubscribe
    | _ => exact keeps_pure _
  | running =>
    cases e with
    | stepDue => exact queued_stepDue
    | pause => exact queued_trans _
    | stop => exact queued_trans _
    | messageReceived q => exact hmessage q
    | resubscribe => exact hresubscribe
    | _ => exact keeps_pure _
  | paused =>
    cases e with
    | resume => exact keeps_get.bind (fun _ => Keeps.ite (keeps_pure _) queued_transPlaying)
    | stop => exact queued_trans _
    | messageReceived q => exact hmessage q
    | resubscribe => exact hresubscribe
    | _ => exact keeps_pure _
  | done => exact keeps_pure _

end Queue

section Resting

/-- The chart does not get into smfn_running. -/
abbrev Rests {α : Type} (x : Handler α) (r : ScenarioRunner) : Prop :=
  Leaves (fun r' => r'.state ≠ .running) x r

theorem rests_of_queues {α : Type} {x : Handler α} (hx : Queues x) (h : r.state ≠ .running) :
    Rests x r :=
  hx.state.leaves (P := (· ≠ .running)) h

theorem rests_trans {target : RunnerState} (htarget : target ≠ .running)
    (h : r.state ≠ .running) : Rests (trans w target) r := by
  refine Leaves.bind (x := get) h ?_
  intro _ r h
  refine (rests_of_queues (queues_exitState _) h).bind ?_
  intro _ r h
  refine (rests_of_queues (queues_enterState _) h).bind ?_
  intro _ r _
  exact htarget

theorem rests_transPlaying (h : r.state ≠ .running) (hend : r.atEnd = true) :
    Rests (transPlaying w) r := by
  simp only [transPlaying, wp_bind, wp_get, hend, if_true]
  exact rests_trans (by decide) h

/-- Only an event that arms the timer leads into smfn_running. -/
theorem rests_handleEvent {e : Event} (h : r.state ≠ .running)
    (hrearms : TracedRunner.rearms r e = false) : Rests (handleEvent w e) r := by
  have hmessage : ∀ q, Rests (onMessage w q) r := fun q => rests_of_queues (queues_onMessage q) h
  have hresubscribe : Rests (doResubscribe w) r := rests_of_queues queues_doResubscribe h
  have hrest : Rests (pure () : Handler Unit) r := h
  simp only [handleEvent, wp_bind, wp_get]
  cases hst : r.state with
  | running => exact absurd hst h
  | idle =>
    cases e with
    | start =>
      refine rests_transPlaying h ?_
      simpa [TracedRunner.rearms, hst] using hrearms
    | stop => exact rests_trans (by decide) h
    | messageReceived q => exact hmessage q
    | resubscribe => exact hresubscribe
    | _ => exact hrest
  | paused =>
    cases e with
    | resume =>
      simp only [smfnPaused, wp_bind, wp_get, wp_ite]
      split
      · exact hrest
      · rename_i hab
        refine rests_transPlaying h ?_
        simpa [TracedRunner.rearms, hst, hab] using hrearms
    | stop => exact rests_trans (by decide) h
    | messageReceived q => exact hmessage q
    | resubscribe => exact hresubscribe
    | _ => exact hrest
  | done => exact hrest

end Resting

section Fresh

variable {n : ℕ}

/-- Every timer that is armed has been since `n` uuids had been handed out. -/
structure Fresh (n : ℕ) (r : ScenarioRunner) : Prop where
  next : n ≤ r.nextUuid
  armed : ∀ u ∈ r.armed, n ≤ u

theorem mem_armed {r' : ScenarioRunner} (h : Orderly r r') {u : ℕ} (hu : u ∈ r'.armed) :
    u ∈ r.armed ∨ r.nextUuid ≤ u := by
  have hmem : (u, ()) ∈ r'.posts.records := List.mem_map_of_mem hu
  refine (h.mem_records hmem).imp_left ?_
  intro hold
  obtain ⟨v, hv, heq⟩ := List.mem_map.mp hold
  obtain rfl : v = u := congrArg Prod.fst heq
  exact hv

theorem fresh_of_goes {α : Type} {x : Handler α} (hx : Goes Orderly x) (h : r.Fresh n) :
    Leaves (Fresh n) x r := by
  have hfresh : ∀ {r' : ScenarioRunner}, Orderly r r' → r'.Fresh n := by
    intro r' horderly
    refine ⟨h.next.trans horderly.next_le, ?_⟩
    intro u hu
    rcases mem_armed horderly hu with hu | hu
    · exact h.armed u hu
    · exact h.next.trans hu
  exact wp_mono (hx r) (fun _ _ h' => hfresh h') (fun _ _ h' => hfresh h')

theorem fresh_cancelStepDue (hk : r.posts.Kept) (hn : n ≤ r.nextUuid) :
    Leaves (Fresh n) cancelStepDue r := by
  refine ⟨hn, ?_⟩
  intro u hu
  obtain ⟨hmem, hne⟩ := List.mem_filter.mp hu
  have hstored : r.stepDueUuid = some u := hk (u, ()) (by simpa [posts] using hmem)
  simp [hstored] at hne

theorem fresh_stepDue (hk : r.posts.Kept) : Leaves (Fresh r.nextUuid) (stepDue w) r := by
  refine (fresh_cancelStepDue hk le_rfl).bind (fun _ _ h => fresh_of_goes ?_ h)
  refine goes_get.bind ?_
  intro r
  split
  · exact goes_trans _
  · refine goes_playOne ?_ ((goes_publishProgress _).bind (fun _ => goes_get.bind ?_))
    · exact fun _ => rfl
    · exact fun _ => Goes.ite (goes_trans _) goes_scheduleNextStepDue

theorem fresh_rpcStep (steps : Option ℤ) (hk : r.posts.Kept) :
    Leaves (Fresh r.nextUuid) (rpcStep w steps) r := by
  have hrest : ∀ executed, Goes Orderly (intTime >>= fun ms => get >>= fun r =>
      publish w (.stepRsp executed ms (atEnd r)) >>= fun _ => carryOn) := fun executed =>
    (goes_of_mute keeps_intTime).bind (fun _ => goes_get.bind (fun _ =>
      (goes_of_mute (keeps_publish _)).bind (fun _ => goes_carryOn)))
  have hsync : Leaves (Fresh r.nextUuid) (doStepSync w (steps.getD 1).toNat) r :=
    (fresh_cancelStepDue hk le_rfl).bind (fun _ _ h => fresh_of_goes (goes_stepLoop _) h)
  exact hsync.bind (fun executed _ h => fresh_of_goes (hrest executed) h)

theorem fresh_rpcSeek (at_ : String) (hk : r.posts.Kept) :
    Leaves (Fresh r.nextUuid) (rpcSeek w at_) r := by
  have hrest : Goes Orderly (intTime >>= fun ms =>
      publish w (.seekRsp ms) >>= fun _ => carryOn) :=
    (goes_of_mute keeps_intTime).bind (fun _ =>
      (goes_of_mute (keeps_publish _)).bind (fun _ => goes_carryOn))
  have hsync : Leaves (Fresh r.nextUuid) (doSeekSync w at_) r := by
    refine (fresh_cancelStepDue hk le_rfl).bind (fun _ _ h => fresh_of_goes ?_ h)
    split
    · exact goes_throw _
    · refine goes_get.bind (fun r => Goes.ite ?_ (goes_pure _))
      exact (goes_seekLoop _ _).bind (fun _ => goes_still (fun _ => rfl))
  exact hsync.bind (fun _ _ h => fresh_of_goes hrest h)

theorem fresh_transPlaying (hst : r.state ≠ .running) (hend : r.atEnd = false)
    (hk : r.posts.Kept) : Leaves (Fresh r.nextUuid) (transPlaying w) r := by
  have hexit : exitState r.state = pure () := by
    cases hs : r.state with
    | running => exact absurd hs hst
    | _ => rfl
  have hschedule : Leaves (Fresh r.nextUuid) scheduleNextStepDue r := by
    refine (fresh_cancelStepDue hk le_rfl).bind ?_
    intro _ r h
    simp only [wp_bind, wp_get, wp_ite, wp_pure, wp_modify]
    split
    · exact h
    · refine ⟨Nat.le_succ_of_le h.next, ?_⟩
      intro u hu
      rcases List.mem_append.mp hu with hu | hu
      · exact h.armed u hu
      · rw [List.mem_singleton.mp hu]
        exact h.next
  have henter : Leaves (Fresh r.nextUuid) (enterState w .running) r :=
    hschedule.bind (fun _ _ h => fresh_of_goes (goes_publishProgress _) h)
  simp only [transPlaying, trans, wp_bind, wp_get, hend, Bool.false_eq_true, if_false, hexit,
    wp_pure]
  rw [Leaves] at henter
  exact wp_mono henter (fun _ _ h => ⟨h.next, h.armed⟩) (fun _ _ h => h)

theorem fresh_handleEvent {e : Event} (hk : r.posts.Kept)
    (he : e = .stepDue ∧ r.state = .running ∨ TracedRunner.rearms r e = true) :
    Leaves (Fresh r.nextUuid) (handleEvent w e) r := by
  simp only [handleEvent, wp_bind, wp_get]
  rcases he with ⟨rfl, hst⟩ | hrearms
  · rw [hst]
    exact fresh_stepDue hk
  · cases e with
    | start =>
      obtain ⟨hst, hend⟩ : r.state = .idle ∧ r.atEnd = false := by
        simpa [TracedRunner.rearms] using hrearms
      rw [hst]
      exact fresh_transPlaying (by simp [hst]) hend hk
    | resume =>
      obtain ⟨⟨hst, hab⟩, hend⟩ : (r.state = .paused ∧ r.aborted = false) ∧ r.atEnd = false := by
        simpa [TracedRunner.rearms] using hrearms
      rw [hst]
      simp only [smfnPaused, wp_bind, wp_get, hab, Bool.false_eq_true, if_false]
      exact fresh_transPlaying (by simp [hst]) hend hk
    | messageReceived q =>
      cases q with
      | step steps =>
        obtain ⟨hst, hvalid⟩ : r.state = .running ∧ (Request.step steps).valid = true := by
          simpa [TracedRunner.rearms] using hrearms
        rw [hst]
        simp only [smfnRunning, onMessage, hvalid, if_true]
        exact fresh_rpcStep steps hk
      | seek at_ =>
        obtain ⟨hst, hvalid⟩ : r.state = .running ∧ (Request.seek at_).valid = true := by
          simpa [TracedRunner.rearms] using hrearms
        rw [hst]
        simp only [smfnRunning, onMessage, hvalid, if_true]
        exact fresh_rpcSeek at_ hk
      | _ => cases hrearms
    | _ => cases hrearms

end Fresh

section Quiet

/-- No timer is armed, and the next step stays the next. -/
abbrev Quiet {α : Type} (x : Handler α) : Prop := Keeps (fun r => (r.nextUuid, r.nextIdx)) x

theorem quiet_of_mute {α : Type} {x : Handler α} (h : Keeps mute x) : Quiet x :=
  h.of_eq (fun r => (r.nextUuid, r.nextIdx)) (fun _ => rfl)

theorem quiet_cancelStepDue : Quiet cancelStepDue := keeps_modify (fun _ => rfl)

theorem quiet_trans {target : RunnerState} (htarget : target ≠ .running) :
    Quiet (trans w target) := by
  have hprogress : ∀ label, Quiet (publishProgress w label) :=
    fun label => quiet_of_mute (keeps_publishProgress label)
  have hstop : Quiet stop := keeps_get.bind (fun _ =>
    Keeps.ite (Keeps.bind (keeps_modify (fun _ => rfl)) (fun _ => keeps_modify (fun _ => rfl)))
      (keeps_pure _))
  have hexit : ∀ state, Quiet (exitState state) := by
    intro state
    cases state with
    | running => exact quiet_cancelStepDue
    | _ => exact keeps_pure _
  have henter : Quiet (enterState w target) := by
    cases target with
    | idle => exact hprogress _
    | running => exact absurd rfl htarget
    | paused => exact quiet_cancelStepDue.bind (fun _ => keeps_get.bind (fun _ => hprogress _))
    | done =>
      exact quiet_cancelStepDue.bind (fun _ => keeps_get.bind (fun _ =>
        (hprogress _).bind (fun _ => hstop)))
  exact keeps_get.bind (fun _ => (hexit _).bind (fun _ => henter.bind
    (fun _ => keeps_modify (fun _ => rfl))))

/-- While the timeline plays, the other events leave the next step and its timer alone, but for
cancelling it. -/
theorem quiet_handleEvent {e : Event} (hst : r.state = .running) (he : e ≠ .stepDue)
    (hrearms : TracedRunner.rearms r e = false) :
    Leaves (fun r' => (r'.nextUuid, r'.nextIdx) = (r.nextUuid, r.nextIdx)) (handleEvent w e) r := by
  have hquiet : ∀ {x : Handler Unit}, Quiet x →
      Leaves (fun r' => (r'.nextUuid, r'.nextIdx) = (r.nextUuid, r.nextIdx)) x r := fun hx => hx r
  simp only [handleEvent, wp_bind, wp_get]
  rw [hst]
  cases e with
  | stepDue => exact absurd rfl he
  | pause => exact hquiet (quiet_trans (by decide))
  | stop => exact hquiet (quiet_trans (by decide))
  | resubscribe => exact hquiet (quiet_of_mute keeps_doResubscribe)
  | start => exact hquiet (keeps_pure _)
  | resume => exact hquiet (keeps_pure _)
  | messageReceived q =>
    simp only [smfnRunning, onMessage, wp_ite, wp_pure]
    split
    · rename_i hvalid
      cases q with
      | step steps => simp [TracedRunner.rearms, hst, hvalid] at hrearms
      | seek at_ => simp [TracedRunner.rearms, hst, hvalid] at hrearms
      | pause => exact hquiet (keeps_modify (fun _ => rfl))
      | resume => exact hquiet (keeps_modify (fun _ => rfl))
      | abort =>
        exact hquiet (Keeps.bind (keeps_modify (fun _ => rfl)) (fun _ => keeps_modify (fun _ => rfl)))
      | malformed => exact hquiet (keeps_pure _)
    · trivial

end Quiet

end ScenarioRunner

namespace TracedRunner

open ScenarioRunner

variable {t t' : TracedRunner} {l : Label}

/-- The timer that is armed is the latest. While the timeline plays it is armed for the next step, or
it has expired and its StepDue is queued, and no other. -/
structure Traced (t : TracedRunner) : Prop where
  queued : t.dues.length = t.ao.queued
  kept : t.ao.posts.Kept
  newest : ∀ u ∈ t.ao.armed, u + 1 = t.ao.nextUuid
  own : t.ao.state = .running →
    (t.dues = [] ∧ ∀ u ∈ t.ao.armed, t.latest = some (u, t.ao.nextIdx)) ∨
    (t.ao.armed = [] ∧ ∃ u, t.dues = [u] ∧ t.latest = some (u, t.ao.nextIdx))

theorem traced_loaded (scenarioName : String) (timeline : Timeline) :
    (loaded scenarioName timeline).Traced := by
  refine ⟨rfl, ?_, ?_, ?_⟩
  · intro x hx
    cases hx
  · intro u hu
    cases hu
  · intro hst
    cases hst

theorem Traced.firesOwn (h : t.Traced) : t.FiresOwn := by
  intro hhead hst _
  rcases h.own hst with ⟨hdues, -⟩ | ⟨-, u, hdues, hlatest⟩
  · have hmem : .stepDue ∈ t.ao.fifo := List.mem_of_head? hhead
    have hpos := List.count_pos_iff.mpr hmem
    have hlength := h.queued
    rw [hdues, List.length_nil, ScenarioRunner.queued] at hlength
    omega
  · exact ⟨u, by rw [hdues]; rfl, hlatest⟩

/-- What an arrival in the fifo leaves alone. -/
def timer (r : ScenarioRunner) : RunnerState × ℕ × List ℕ × Option ℕ × ℕ × ℕ :=
  (r.state, r.queued, r.armed, r.stepDueUuid, r.nextUuid, r.nextIdx)

theorem Traced.still {r : ScenarioRunner} (h : t.Traced) (heq : timer r = timer t.ao) :
    Traced ⟨r, t.dues, t.latestAfter r⟩ := by
  simp only [timer, Prod.mk.injEq] at heq
  obtain ⟨hst, hqueued, harmed, huuid, hnext, hidx⟩ := heq
  have hlatest : t.latestAfter r = t.latest := if_pos hnext
  have hposts : r.posts = t.ao.posts := by rw [posts, posts, harmed, huuid, hnext]
  refine ⟨h.queued.trans hqueued.symm, ?_, ?_, ?_⟩
  · rw [hposts]
    exact h.kept
  · rw [harmed, hnext]
    exact h.newest
  · rw [hst, harmed, hlatest, hidx]
    exact h.own

theorem traced_elapse {u : ℕ} (h : t.Traced) (hstep : t.step (.elapse u) = some t') :
    t'.Traced := by
  obtain ⟨r, hr, rfl⟩ := Option.map_eq_some_iff.mp hstep
  obtain ⟨hu, hr⟩ := Option.ite_none_right_eq_some.mp hr
  obtain rfl := Option.some.inj hr
  refine ⟨?_, ?_, ?_, ?_⟩
  · simp [duesAfter, h.queued, ScenarioRunner.queued]
  · intro x hx
    obtain ⟨v, hv, rfl⟩ := List.mem_map.mp hx
    exact h.kept (v, ()) (List.mem_map_of_mem (List.mem_of_mem_filter hv))
  · exact fun v hv => h.newest v (List.mem_of_mem_filter hv)
  · intro hst
    rcases h.own hst with ⟨hdues, hlatest⟩ | ⟨harmed, -⟩
    · right
      refine ⟨?_, u, ?_, ?_⟩
      · refine List.filter_eq_nil_iff.mpr ?_
        intro v hv
        have hv' := h.newest v hv
        have hu' := h.newest u hu
        simpa using (by omega : v = u)
      · rw [duesAfter, hdues, List.nil_append]
      · exact (if_pos rfl).trans (hlatest u hu)
    · rw [harmed] at hu
      cases hu

theorem duesAfter_of_head {w : World} {e : Event} {rest : List Event}
    (hfifo : t.ao.fifo = e :: rest) :
    t.duesAfter (.handle w) = if e = .stepDue then t.dues.tail else t.dues := by
  simp [duesAfter, hfifo]

theorem Traced.length_dues (h : t.Traced) {e : Event} {rest : List Event}
    (hfifo : t.ao.fifo = e :: rest) : t.dues.length = (e :: rest).count .stepDue := by
  rw [h.queued, ScenarioRunner.queued, hfifo]

/-- Nothing is queued any more when the timer is armed anew. -/
theorem Traced.dues_of_rearms {w : World} {e : Event} {rest : List Event} (h : t.Traced)
    (hfifo : t.ao.fifo = e :: rest) (hok : t.heeds (.handle w) = true)
    (he : e = .stepDue ∧ t.ao.state = .running ∨ rearms t.ao e = true) :
    t.duesAfter (.handle w) = [] := by
  have hlength := h.length_dues hfifo
  rw [duesAfter_of_head hfifo]
  rcases he with ⟨rfl, hst⟩ | hrearms
  · rw [if_pos rfl]
    rcases h.own hst with ⟨hdues, -⟩ | ⟨-, u, hdues, -⟩
    · rw [hdues]
      rfl
    · rw [hdues]
      rfl
  · have he : e ≠ .stepDue := by
      rintro rfl
      cases hrearms
    have hrest : .stepDue ∉ rest := by simpa [heeds, hfifo, hrearms] using hok
    rw [List.count_cons_of_ne he, List.count_eq_zero_of_not_mem hrest] at hlength
    rw [if_neg he]
    exact List.length_eq_zero_iff.mp hlength

/-- Handling the head takes the oldest entry with it if the head is a StepDue. -/
theorem Traced.length_duesAfter (h : t.Traced) {w : World} {e : Event} {rest : List Event}
    (hfifo : t.ao.fifo = e :: rest) :
    (t.duesAfter (.handle w)).length = rest.count .stepDue := by
  have hlength := h.length_dues hfifo
  rw [duesAfter_of_head hfifo]
  split
  · rename_i he
    rw [List.length_tail, hlength, he, List.count_cons_self, Nat.add_sub_cancel]
  · rename_i he
    rw [hlength, List.count_cons_of_ne he]

theorem traced_handle {w : World} (h : t.Traced) (hok : t.heeds (.handle w) = true)
    (hstep : t.step (.handle w) = some t') : t'.Traced := by
  obtain ⟨r, hr, rfl⟩ := Option.map_eq_some_iff.mp hstep
  simp only [ScenarioRunner.step, ScenarioRunner.handle] at hr
  split at hr
  · cases hr
  rename_i e rest hfifo
  obtain rfl := Option.some.inj hr
  have horderly := (goes_handleEvent (w := w) e).after { t.ao with fifo := rest }
  have hqueued := (queued_handleEvent (w := w) e).after { t.ao with fifo := rest }
  have hrests : t.ao.state ≠ .running → rearms t.ao e = false →
      (after (handleEvent w e) { t.ao with fifo := rest }).state ≠ .running :=
    fun hst he => (rests_handleEvent (r := { t.ao with fifo := rest }) hst he).after
  have hquiet : t.ao.state = .running → e ≠ .stepDue → rearms t.ao e = false →
      ((after (handleEvent w e) { t.ao with fifo := rest }).nextUuid,
        (after (handleEvent w e) { t.ao with fifo := rest }).nextIdx) =
      (t.ao.nextUuid, t.ao.nextIdx) :=
    fun hst he hr => (quiet_handleEvent (r := { t.ao with fifo := rest }) hst he hr).after
  have hfresh : e = .stepDue ∧ t.ao.state = .running ∨ rearms t.ao e = true →
      Fresh t.ao.nextUuid (after (handleEvent w e) { t.ao with fifo := rest }) :=
    fun he => (fresh_handleEvent (r := { t.ao with fifo := rest }) h.kept he).after
  generalize after (handleEvent w e) { t.ao with fifo := rest } = r at *
  have hnewest : ∀ u ∈ r.armed, u + 1 = r.nextUuid := by
    have hposts := horderly.newest h.kept (by simpa [posts] using h.newest)
    simpa [posts] using hposts
  refine ⟨?_, horderly.kept h.kept, hnewest, ?_⟩
  · change (t.duesAfter (.handle w)).length = r.queued
    rw [hqueued]
    exact h.length_duesAfter hfifo
  · intro hst
    by_cases he : e = .stepDue ∧ t.ao.state = .running ∨ rearms t.ao e = true
    · refine .inl ⟨h.dues_of_rearms hfifo hok he, ?_⟩
      intro u hu
      have hnext := hnewest u hu
      have hnew := (hfresh he).armed u hu
      have hne : r.nextUuid ≠ t.ao.nextUuid := by omega
      refine (if_neg hne).trans ?_
      rw [← hnext, Nat.add_sub_cancel]
    · rw [not_or, not_and, Bool.not_eq_true] at he
      obtain ⟨hdue, hrearms⟩ := he
      by_cases hrun : t.ao.state = .running
      · -- the event at most cancels the timer
        have hne : e ≠ .stepDue := fun he => hdue he hrun
        obtain ⟨hnext, hidx⟩ := Prod.mk.inj (hquiet hrun hne hrearms)
        have hlatest : t.latestAfter r = t.latest := if_pos hnext
        have hdues : t.duesAfter (.handle w) = t.dues := by
          rw [duesAfter_of_head hfifo, if_neg hne]
        have harmed : ∀ u ∈ r.armed, u ∈ t.ao.armed := by
          intro u hu
          refine (mem_armed horderly hu).resolve_right ?_
          have hu' := hnewest u hu
          change ¬ t.ao.nextUuid ≤ u
          omega
        change (t.duesAfter (.handle w) = [] ∧
            ∀ u ∈ r.armed, t.latestAfter r = some (u, r.nextIdx)) ∨
          (r.armed = [] ∧ ∃ u, t.duesAfter (.handle w) = [u] ∧
            t.latestAfter r = some (u, r.nextIdx))
        rw [hlatest, hdues, hidx]
        rcases h.own hrun with ⟨hnil, hown⟩ | ⟨hnil, hown⟩
        · exact .inl ⟨hnil, fun u hu => hown u (harmed u hu)⟩
        · refine .inr ⟨List.eq_nil_iff_forall_not_mem.mpr ?_, hown⟩
          intro u hu
          have hmem := harmed u hu
          rw [hnil] at hmem
          cases hmem
      · exact absurd hst (hrests hrun hrearms)

theorem timer_postFifo {e : Event} (he : e ≠ .stepDue) : Keeps timer (postFifo e) := by
  refine keeps_modify ?_
  intro r
  have hqueued : ScenarioRunner.queued { r with fifo := r.fifo ++ [e] } = r.queued :=
    queued_append he rfl
  rw [timer, hqueued]
  rfl

theorem traced_step (h : t.Traced) (hok : t.heeds l = true) (hstep : t.step l = some t') :
    t'.Traced := by
  cases l with
  | elapse u => exact traced_elapse h hstep
  | handle w => exact traced_handle h hok hstep
  | start subscribed =>
    obtain rfl := Option.some.inj hstep
    apply h.still
    cases subscribed
    · rfl
    · exact (timer_postFifo (by decide)).after t.ao
  | stop =>
    have hstop : Keeps timer stop := keeps_get.bind (fun _ =>
      Keeps.ite ((timer_postFifo (by decide)).bind (fun _ => keeps_modify (fun _ => rfl)))
        (keeps_pure _))
    obtain rfl := Option.some.inj hstep
    exact h.still (hstop.after t.ao)
  | resubscribe =>
    obtain rfl := Option.some.inj hstep
    exact h.still ((timer_postFifo (by decide)).after t.ao)
  | handleMessage q =>
    obtain rfl := Option.some.inj hstep
    exact h.still ((timer_postFifo (e := .messageReceived q) Event.noConfusion).after t.ao)

/-- A StepDue meets the step that its timer was armed for, and no timer has been armed since, as long
as no StepDue is in the fifo when an event arms the timer anew. -/
theorem firesOwn_run (scenarioName : String) (timeline : Timeline) {ls : List Label}
    (hheeds : Trace.AllSteps step (fun t l => t.heeds l = true) (loaded scenarioName timeline) ls) :
    Trace.Always step FiresOwn (loaded scenarioName timeline) ls :=
  Trace.always_of_allSteps (J := Traced) (fun _ h => h.firesOwn)
    (fun _ _ _ h hok hstep => traced_step h hok hstep) hheeds (traced_loaded scenarioName timeline)

/-- The runner pauses after its first step and plays on. -/
def pausedRun : List Label :=
  [.start true, .handle fairWorld, .elapse 0, .handle fairWorld, .handleMessage .pause,
    .handle fairWorld, .handle fairWorld, .handleMessage .resume, .handle fairWorld,
    .handle fairWorld, .elapse 2]

/-- The timer expires before a step request is handled, which has been posted before. -/
def staleRun : List Label :=
  [.start true, .handle fairWorld, .handleMessage (.step none), .elapse 0, .handle fairWorld]

theorem firesOwn_pausedRun :
    Trace.Always step FiresOwn (loaded "two" twoSteps) pausedRun ∧
      ∃ t, Trace.run step (loaded "two" twoSteps) pausedRun = some t ∧
        t.ao.fifo.head? = some .stepDue ∧ t.latest = some (2, 1) := by
  refine ⟨firesOwn_run "two" twoSteps (by decide +kernel), ?_⟩
  have hrun : (Trace.run step (loaded "two" twoSteps) pausedRun).any (fun t =>
      t.ao.fifo.head? = some .stepDue && t.latest = some (2, 1)) = true := by
    decide +kernel
  simp only [Option.any_eq_true, Bool.and_eq_true, decide_eq_true_eq] at hrun
  exact hrun

/-- The StepDue of the first step dispatches the second, for which the timer has just been armed. -/
theorem stepDue_stale :
    ∃ t t', Trace.run step (loaded "two" twoSteps) staleRun = some t ∧
      t.dues = [0] ∧ t.latest = some (1, 1) ∧ ¬ t.FiresOwn ∧
      t.step (.handle fairWorld) = some t' ∧ t'.ao.dispatched = twoSteps.steps := by
  have hrun : (Trace.run step (loaded "two" twoSteps) staleRun).any (fun t =>
      decide (t.ao.fifo.head? = some .stepDue ∧ t.ao.state = .running ∧ t.ao.atEnd = false ∧
        t.dues = [0] ∧ t.latest = some (1, 1)) &&
      (t.step (.handle fairWorld)).any (fun t' => t'.ao.dispatched = twoSteps.steps)) = true := by
    decide +kernel
  simp only [Option.any_eq_true, Bool.and_eq_true, decide_eq_true_eq] at hrun
  obtain ⟨t, ht, ⟨hhead, hst, hend, hdues, hlatest⟩, t', ht', hdispatched⟩ := hrun
  refine ⟨t, t', ht, hdues, hlatest, ?_, ht', hdispatched⟩
  intro hfires
  obtain ⟨u, hu, hown⟩ := hfires hhead hst hend
  rw [hdues] at hu
  obtain rfl := Option.some.inj hu
  rw [hlatest] at hown
  cases hown

end TracedRunner

end Scenario

end TelafSim
