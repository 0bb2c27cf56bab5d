import TelafSim.ScenarioRunner

/-!
# The integrity of a timeline

In every state a run reaches, the actions dispatched are those of the steps before the next one, in
their order and once each; the clock lies between the steps that have been fired and those that
have not, and it never goes back.
-/

namespace TelafSim.Scenario

open Procedure

/-- The validator raises nothing but ValidationError. -/
def World.Returns (w : World) : Prop := ∀ idx, w.validate idx ≠ .fault

theorem World.Returns.dispatchAction {w : World} (h : w.Returns) (idx : ℕ) :
    ∃ handled, w.dispatchAction idx = some handled := by
  unfold World.dispatchAction
  split
  · exact ⟨_, rfl⟩
  · split
    · exact ⟨_, rfl⟩
    · exact ⟨_, rfl⟩
    · rename_i hfault
      exact absurd hfault (h idx)

namespace ScenarioRunner

section Play

variable {p : Play} {tl : Timeline} {c : Ms} {s : Step}

/-- The steps before the next one have been dispatched, and the clock separates them from those
that follow. -/
structure Play.Integrity (p : Play) : Prop where
  inRange : p.nextIdx ≤ p.timeline.steps.length
  dispatched : p.dispatched = p.timeline.steps.take p.nextIdx
  fired : ∀ s ∈ p.timeline.steps.take p.nextIdx, s.atMs ≤ p.currentTimeMs
  unfired : ∀ s ∈ p.timeline.steps.drop p.nextIdx, p.currentTimeMs ≤ s.atMs

/-- The timeline `tl` is played with integrity, from `c` on. -/
structure Play.Sound (tl : Timeline) (c : Ms) (p : Play) : Prop where
  timeline : p.timeline = tl
  integrity : p.Integrity
  forward : c ≤ p.currentTimeMs

theorem take_next (hs : p.timeline.steps[p.nextIdx]? = some s) :
    p.timeline.steps.take (p.nextIdx + 1) = p.timeline.steps.take p.nextIdx ++ [s] := by
  rw [List.take_add_one, hs]
  rfl

theorem drop_next (hs : p.timeline.steps[p.nextIdx]? = some s) :
    p.timeline.steps.drop p.nextIdx = s :: p.timeline.steps.drop (p.nextIdx + 1) := by
  obtain ⟨hlt, rfl⟩ := List.getElem?_eq_some_iff.mp hs
  exact List.drop_eq_getElem_cons hlt

theorem le_of_mem_rest (hs : p.timeline.steps[p.nextIdx]? = some s) {t : Step}
    (ht : t ∈ p.timeline.steps.drop (p.nextIdx + 1)) : s.atMs ≤ t.atMs := by
  have hsorted := p.timeline.sorted.sublist (List.drop_sublist p.nextIdx _)
  rw [drop_next hs] at hsorted
  exact (List.pairwise_cons.mp hsorted).1 t ht

theorem Play.Sound.fire (h : p.Sound tl c) (hs : p.timeline.steps[p.nextIdx]? = some s) :
    Play.Sound tl c ⟨p.timeline, p.nextIdx + 1, s.atMs, p.dispatched ++ [s]⟩ := by
  have hnow : p.currentTimeMs ≤ s.atMs := by
    refine h.integrity.unfired s ?_
    rw [drop_next hs]
    exact List.mem_cons_self
  refine ⟨h.timeline, ⟨?_, ?_, ?_, ?_⟩, h.forward.trans hnow⟩
  · exact (List.getElem?_eq_some_iff.mp hs).1
  · rw [take_next hs, ← h.integrity.dispatched]
  · rw [take_next hs]
    intro t ht
    rcases List.mem_append.mp ht with ht | ht
    · exact (h.integrity.fired t ht).trans hnow
    · obtain rfl := List.mem_singleton.mp ht
      exact le_rfl
  · exact fun t ht => le_of_mem_rest hs ht

/-- The clock is being moved to `target`: the steps up to there are fired before it is. -/
structure Play.Seeks (tl : Timeline) (c target : Ms) (p : Play) : Prop where
  timeline : p.timeline = tl
  inRange : p.nextIdx ≤ p.timeline.steps.length
  dispatched : p.dispatched = p.timeline.steps.take p.nextIdx
  fired : ∀ s ∈ p.timeline.steps.take p.nextIdx, s.atMs ≤ target
  forward : c ≤ p.currentTimeMs
  ahead : p.currentTimeMs ≤ target

variable {target : Ms}

theorem Play.Sound.seeks (h : p.Sound tl c) (ht : p.currentTimeMs ≤ target) :
    p.Seeks tl c target :=
  ⟨h.timeline, h.integrity.inRange, h.integrity.dispatched,
    fun s hs => (h.integrity.fired s hs).trans ht, h.forward, ht⟩

theorem Play.Seeks.fire (h : p.Seeks tl c target) (hs : p.timeline.steps[p.nextIdx]? = some s)
    (ht : s.atMs ≤ target) :
    Play.Seeks tl c target ⟨p.timeline, p.nextIdx + 1, p.currentTimeMs, p.dispatched ++ [s]⟩ := by
  refine ⟨h.timeline, (List.getElem?_eq_some_iff.mp hs).1, ?_, ?_, h.forward, h.ahead⟩
  · rw [take_next hs, ← h.dispatched]
  · rw [take_next hs]
    intro t hmem
    rcases List.mem_append.mp hmem with hmem | hmem
    · exact h.fired t hmem
    · obtain rfl := List.mem_singleton.mp hmem
      exact ht

/-- The clock arrives once no step up to the target is left. -/
theorem Play.Seeks.arrive (h : p.Seeks tl c target)
    (hleft : ∀ s ∈ p.timeline.steps.drop p.nextIdx, target ≤ s.atMs) :
    Play.Sound tl c { p with currentTimeMs := target } :=
  ⟨h.timeline, ⟨h.inRange, h.dispatched, h.fired, hleft⟩, h.forward.trans h.ahead⟩

end Play

section Handlers

variable {r : ScenarioRunner} {w : World} {tl : Timeline} {c : Ms}

/-- The play of the timeline stays sound. -/
abbrev SoundAfter (tl : Timeline) (c : Ms) {α : Type} (x : Handler α) (r : ScenarioRunner) : Prop :=
  Leaves (fun r' => r'.play.Sound tl c) x r

theorem soundAfter_of_still {α : Type} {x : Handler α} (hx : Still x) (h : r.play.Sound tl c) :
    SoundAfter tl c x r := hx.leaves h

theorem wp_dispatchOne (hw : w.Returns) {s : Step} {Q : Unit → ScenarioRunner → Prop}
    {R : Exn → ScenarioRunner → Prop} (h : Q () { r with dispatched := r.dispatched ++ [s] }) :
    wp (dispatchOne w s) Q R r := by
  obtain ⟨handled, hdispatch⟩ := hw.dispatchAction r.nextIdx
  simp only [dispatchOne, wp_bind, wp_get, wp_modify, hdispatch]
  exact h

theorem wp_stepLoop {P : ScenarioRunner → Prop} {R : Exn → ScenarioRunner → Prop}
    (hstep : ∀ r s, P r → r.timeline.steps[r.nextIdx]? = some s →
      wp (dispatchOne w s) (fun _ r' => P { r' with nextIdx := r'.nextIdx + 1 }) R
        { r with currentTimeMs := s.atMs })
    (n : ℕ) (h : P r) : wp (stepLoop w n) (fun _ => P) R r := by
  induction n generalizing r with
  | zero => exact h
  | succ n ih =>
    simp only [stepLoop, wp_bind, wp_get]
    split
    · exact h
    · rename_i s hs
      simp only [wp_bind, wp_modify]
      refine wp_mono (hstep r s h hs) ?_ (fun _ _ h' => h')
      intro _ r' h'
      simp only [wp_bind, wp_modify]
      exact ih h'

theorem sound_stepLoop (hw : w.Returns) (n : ℕ) (h : r.play.Sound tl c) :
    SoundAfter tl c (stepLoop w n) r := by
  refine wp_stepLoop (P := fun r => r.play.Sound tl c) ?_ n h
  intro r s h hs
  exact wp_dispatchOne hw (h.fire hs)

theorem sound_seekLoop (hw : w.Returns) {target : Ms} (rest : List Step)
    (hrest : r.timeline.steps.drop r.nextIdx = rest) (h : r.play.Seeks tl c target) :
    wp (seekLoop w target rest)
      (fun _ r' => r'.play.Seeks tl c target ∧
        ∀ s ∈ r'.timeline.steps.drop r'.nextIdx, target ≤ s.atMs)
      (fun _ _ => False) r := by
  induction rest generalizing r with
  | nil =>
    refine ⟨h, ?_⟩
    rw [hrest]
    intro s hs
    cases hs
  | cons s rest ih =>
    have hs : r.timeline.steps[r.nextIdx]? = some s := by
      rw [← List.head?_drop, hrest]
      rfl
    have hnext := drop_next (p := r.play) hs
    simp only [seekLoop]
    split
    · rename_i ht
      simp only [wp_bind]
      refine wp_dispatchOne hw ?_
      exact ih (List.cons.inj (hnext.symm.trans hrest)).2 (h.fire hs ht)
    · rename_i ht
      refine ⟨h, ?_⟩
      rw [hrest]
      intro t hmem
      rcases List.mem_cons.mp hmem with rfl | hmem
      · exact (not_le.mp ht).le
      · rw [← (List.cons.inj (hnext.symm.trans hrest)).2] at hmem
        have hle := le_of_mem_rest (p := r.play) hs hmem
        exact (not_le.mp ht).le.trans hle

theorem sound_doSeekSync (hw : w.Returns) (at_ : String) (h : r.play.Sound tl c) :
    SoundAfter tl c (doSeekSync w at_) r := by
  refine Leaves.bind (soundAfter_of_still (Stays.still stays_cancelStepDue) h) ?_
  intro _ r h
  cases hat : parseAt at_ with
  | error e => exact h
  | ok target =>
    simp only [wp_bind, wp_get, wp_ite, wp_pure]
    split
    · rename_i ht
      refine wp_mono (sound_seekLoop hw _ rfl (h.seeks ht)) ?_ (fun _ _ hfalse => hfalse.elim)
      rintro _ r' ⟨hseeks, hleft⟩
      exact hseeks.arrive hleft
    · exact h

theorem sound_rpcStep (hw : w.Returns) (steps : Option ℤ) (h : r.play.Sound tl c) :
    SoundAfter tl c (rpcStep w steps) r := by
  have hsync : SoundAfter tl c (doStepSync w (steps.getD 1).toNat) r :=
    Leaves.bind (soundAfter_of_still (Stays.still stays_cancelStepDue) h)
      (fun _ _ h => sound_stepLoop hw _ h)
  refine hsync.bind ?_
  intro executed r h
  refine Leaves.bind (soundAfter_of_still (still_of_mute keeps_intTime) h) ?_
  intro ms r h
  refine soundAfter_of_still (keeps_get.bind ?_) h
  intro r
  exact (still_of_mute (keeps_publish _)).bind (fun _ => (Stays.still stays_carryOn))

theorem sound_rpcSeek (hw : w.Returns) (at_ : String) (h : r.play.Sound tl c) :
    SoundAfter tl c (rpcSeek w at_) r := by
  refine (sound_doSeekSync hw at_ h).bind ?_
  intro _ r h
  refine soundAfter_of_still ((still_of_mute keeps_intTime).bind ?_) h
  intro ms
  exact (still_of_mute (keeps_publish _)).bind (fun _ => (Stays.still stays_carryOn))

theorem sound_onMessage (hw : w.Returns) (q : Request) (h : r.play.Sound tl c) :
    SoundAfter tl c (onMessage w q) r := by
  unfold onMessage
  split
  · cases q with
    | step steps => exact sound_rpcStep hw steps h
    | seek at_ => exact sound_rpcSeek hw at_ h
    | pause => exact soundAfter_of_still (Stays.still (stays_postFifo _)) h
    | resume => exact soundAfter_of_still (Stays.still (stays_postFifo _)) h
    | abort =>
      refine soundAfter_of_still (Keeps.bind ?_ (fun _ => Stays.still (stays_postFifo .stop))) h
      exact keeps_modify (fun _ => rfl)
    | malformed => exact h
  · exact h

theorem sound_stepDue (hw : w.Returns) (h : r.play.Sound tl c) :
    SoundAfter tl c (stepDue w) r := by
  refine Leaves.bind (soundAfter_of_still (Stays.still stays_cancelStepDue) h) ?_
  intro _ r h
  simp only [wp_bind, wp_get]
  cases hs : r.timeline.steps[r.nextIdx]? with
  | none => exact soundAfter_of_still (still_trans _) h
  | some s =>
    simp only [wp_bind, wp_modify]
    refine wp_dispatchOne hw ?_
    simp only [wp_bind, wp_modify]
    refine wp_mono ((still_of_mute (keeps_publishProgress .running)).leaves (h.fire hs)) ?_
      (fun _ _ h => h)
    intro _ r' h'
    refine soundAfter_of_still (keeps_get.bind ?_) h'
    intro r
    exact Keeps.ite (still_trans _) (Stays.still stays_scheduleNextStepDue)

theorem sound_handleEvent (hw : w.Returns) (e : Event) (h : r.play.Sound tl c) :
    SoundAfter tl c (handleEvent w e) r := by
  simp only [SoundAfter, handleEvent, wp_bind, wp_get]
  have htrans : ∀ target, SoundAfter tl c (trans w target) r :=
    fun _ => soundAfter_of_still (still_trans _) h
  have hplaying : SoundAfter tl c (transPlaying w) r := soundAfter_of_still still_transPlaying h
  have hresubscribe : SoundAfter tl c (doResubscribe w) r :=
    soundAfter_of_still (still_of_mute keeps_doResubscribe) h
  cases r.state with
  | idle =>
    cases e with
    | start => exact hplaying
    | stop => exact htrans _
    | messageReceived q => exact sound_onMessage hw q h
    | resubscribe => exact hresubscribe
    | _ => exact h
  | running =>
    cases e with
    | stepDue => exact sound_stepDue hw h
    | pause => exact htrans _
    | stop => exact htrans _
    | messageReceived q => exact sound_onMessage hw q h
    | resubscribe => exact hresubscribe
    | _ => exact h
  | paused =>
    cases e with
    | resume =>
      refine soundAfter_of_still (keeps_get.bind ?_) h
      intro r
      exact Keeps.ite (keeps_pure _) still_transPlaying
    | stop => exact htrans _
    | messageReceived q => exact sound_onMessage hw q h
    | resubscribe => exact hresubscribe
    | _ => exact h
  | done => exact h

end Handlers

section Runs

variable {r r' : ScenarioRunner} {tl : Timeline} {c : Ms} {l l' : List Label}

/-- No dispatch raises while the label's event is handled. -/
def Label.Returns : Label → Prop
  | .handle w => w.Returns
  | _ => True

theorem step_sound {a : Label} (hreturns : a.Returns) (h : r.play.Sound tl c)
    (hstep : r.step a = some r') : r'.play.Sound tl c := by
  cases a with
  | handle w =>
    simp only [step, handle] at hstep
    split at hstep
    · cases hstep
    · rename_i e fifo hfifo
      cases hstep
      exact (sound_handleEvent (r := { r with fifo := fifo }) hreturns e h).after
  | elapse uuid =>
    simp only [step, elapse] at hstep
    obtain ⟨-, heq⟩ := Option.ite_none_right_eq_some.mp hstep
    cases heq
    exact h
  | start subscribed =>
    cases hstep
    unfold ScenarioRunner.start
    split
    · exact h
    · exact h
  | stop =>
    cases hstep
    exact (soundAfter_of_still (Stays.still stays_stop) h).after
  | resubscribe =>
    cases hstep
    exact h
  | handleMessage q =>
    cases hstep
    exact h

theorem loaded_sound (name : String) (tl : Timeline) : (loaded name tl).play.Sound tl 0 :=
  by
  refine ⟨rfl, ⟨Nat.zero_le _, rfl, ?_, fun _ _ => bot_le⟩, le_rfl⟩
  intro s hs
  cases hs

theorem run_sound (hreturns : ∀ a ∈ l, a.Returns) (hrun : Trace.run step r l = some r')
    (h : r.play.Sound tl c) : r'.play.Sound tl c := by
  induction l generalizing r with
  | nil =>
    obtain rfl : r = r' := by simpa using hrun
    exact h
  | cons a l ih =>
    obtain ⟨r₁, hr₁, hrest⟩ := (Trace.run_cons_eq_some step).mp hrun
    exact ih (fun b hb => hreturns b (List.mem_cons_of_mem _ hb)) hrest
      (step_sound (hreturns a List.mem_cons_self) h hr₁)

/-- Timeline integrity: whatever is handled and in whichever order, the actions dispatched are those
of the first steps of the timeline, in order and once each, the clock lies between those steps and
the others, and it never goes back from one state to a later one. -/
theorem timeline_integrity (name : String) (tl : Timeline) (hreturns : ∀ a ∈ l ++ l', a.Returns)
    (hrun : Trace.run step (loaded name tl) l = some r) (hrun' : Trace.run step r l' = some r') :
    r'.timeline = tl ∧ r'.play.Integrity ∧ r.currentTimeMs ≤ r'.currentTimeMs := by
  have h := run_sound (fun a ha => hreturns a (List.mem_append_left _ ha)) hrun
    (loaded_sound name tl)
  have h' := run_sound (c := r.currentTimeMs)
    (fun a ha => hreturns a (List.mem_append_right _ ha)) hrun' ⟨h.timeline, h.integrity, le_rfl⟩
  exact ⟨h'.timeline, h'.integrity, h'.forward⟩

/-- Every action is known and valid, and every publication goes through. -/
def fairWorld : World := ⟨fun _ => true, fun _ => .valid, fun _ => false⟩

/-- Two steps, one of which is fired by its timer and the other one by a seek. -/
def playedRun : List Label :=
  [.start true, .handle fairWorld, .elapse 0, .handle fairWorld, .handleMessage (.seek "2s"),
    .handle fairWorld]

def twoSteps : Timeline := .sort [⟨(2000 : ℚ≥0), "b", ""⟩, ⟨(500 : ℚ≥0), "a", ""⟩]

theorem integrity_playedRun :
    ∃ r, Trace.run step (loaded "two" twoSteps) playedRun = some r ∧ r.nextIdx = 2 ∧
      r.dispatched = twoSteps.steps.take 2 := by
  have hrun : (Trace.run step (loaded "two" twoSteps) playedRun).map (·.nextIdx) = some 2 := by
    decide +kernel
  obtain ⟨r, hr, hidx⟩ := Option.map_eq_some_iff.mp hrun
  have hreturns : ∀ a ∈ playedRun ++ [], a.Returns := by
    intro a ha
    simp only [playedRun, List.append_nil, List.mem_cons, List.not_mem_nil, or_false] at ha
    rcases ha with rfl | rfl | rfl | rfl | rfl | rfl <;>
      first | trivial | exact fun _ h => by cases h
  obtain ⟨htl, hintegrity, -⟩ := timeline_integrity "two" twoSteps hreturns hr rfl
  refine ⟨r, hr, hidx, ?_⟩
  have hdispatched := hintegrity.dispatched
  change r.dispatched = r.timeline.steps.take r.nextIdx at hdispatched
  rw [hdispatched, htl, hidx]

end Runs

end ScenarioRunner

end TelafSim.Scenario
