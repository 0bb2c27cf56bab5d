import TelafSim.DeferredPosts
import TelafSim.ScenarioTimeline

/-!
# The records of the scenario runner's timer

`ScenarioRunner` with the record that miros keeps of each deferred post. Every path that arms the
timer or leaves it behind cancels the stored uuid first, also when a handler raises on its way.
-/

namespace TelafSim

open DeferredPosts

namespace Scenario

open Procedure

namespace ScenarioRunner

variable {w : World}

def posts (r : ScenarioRunner) : DeferredPosts Unit :=
  ⟨fun _ => r.stepDueUuid, r.armed.map (·, ()), r.nextUuid⟩

/-- The timer is cancelled and armed again. -/
abbrev Orderly (r r' : ScenarioRunner) : Prop := DeferredPosts.Orderly r.posts r'.posts

instance : Std.Refl Orderly := ⟨fun r => .refl r.posts⟩

instance : IsTrans ScenarioRunner Orderly := ⟨fun _ _ _ h h' => DeferredPosts.Orderly.trans h h'⟩

theorem goes_of_mute {α : Type} {x : Handler α} (h : Keeps mute x) : Goes Orderly x :=
  goes_of_keeps (fun r r' (heq : r'.mute = r.mute) => .of_eq (congrArg posts heq).symm) h

theorem goes_still {g : ScenarioRunner → ScenarioRunner} (h : ∀ r, (g r).posts = r.posts) :
    Goes Orderly (modify g : Handler PUnit) := goes_modify (fun r => .of_eq (h r).symm)

theorem posts_cancel (r : ScenarioRunner) :
    ({ r with armed := r.armed.filter (some · ≠ r.stepDueUuid), stepDueUuid := none } :
      ScenarioRunner).posts = r.posts.cancel () := by
  simp only [posts, DeferredPosts.cancel, List.filter_map, DeferredPosts.mk.injEq, and_true]
  exact ⟨funext (fun _ => rfl), rfl⟩

theorem goes_cancelStepDue : Goes Orderly cancelStepDue := by
  refine goes_modify ?_
  intro r
  rw [Orderly, posts_cancel]
  exact .cancel () (.refl r.posts)

theorem goes_scheduleNextStepDue : Goes Orderly scheduleNextStepDue := by
  intro r
  have hcancel := posts_cancel r
  simp only [scheduleNextStepDue, cancelStepDue, wp_bind, wp_modify, wp_get]
  generalize ({ r with armed := r.armed.filter (some · ≠ r.stepDueUuid), stepDueUuid := none } :
    ScenarioRunner) = r₁ at hcancel ⊢
  rw [wp_ite]
  split
  · rw [wp_pure, Orderly, hcancel]
    exact .cancel () (.refl r.posts)
  · rw [wp_modify, Orderly]
    have hpost : ({ r₁ with
        armed := r₁.armed ++ [r₁.nextUuid]
        stepDueUuid := some r₁.nextUuid
        nextUuid := r₁.nextUuid + 1 } : ScenarioRunner).posts = r₁.posts.post () := by
      simp only [posts, DeferredPosts.post, List.map_append, List.map_cons, List.map_nil,
        DeferredPosts.mk.injEq, and_true]
      exact funext (fun _ => rfl)
    rw [hpost, hcancel]
    exact orderly_replace () r.posts

theorem goes_postFifo (e : Event) : Goes Orderly (postFifo e) := goes_still (fun _ => rfl)

theorem goes_publishProgress (label : ProgressLabel) : Goes Orderly (publishProgress w label) :=
  goes_of_mute (keeps_publishProgress label)

theorem goes_dispatchOne (s : Step) : Goes Orderly (dispatchOne w s) := by
  refine goes_get.bind (fun r => Goes.bind (goes_still ?_) ?_)
  · exact fun _ => rfl
  · intro _
    split
    · exact goes_throw _
    · exact goes_pure _

theorem goes_playOne {α : Type} {g : ScenarioRunner → ScenarioRunner} {s : Step}
    {x : Handler α} (hg : ∀ r, (g r).posts = r.posts) (hx : Goes Orderly x) :
    Goes Orderly (do
      modify g
      dispatchOne w s
      modify (fun r => { r with nextIdx := r.nextIdx + 1 })
      x) := by
  refine (goes_still hg).bind (fun _ => (goes_dispatchOne s).bind (fun _ =>
    Goes.bind (goes_still ?_) (fun _ => hx)))
  exact fun _ => rfl

theorem goes_stepLoop (n : ℕ) : Goes Orderly (stepLoop w n) := by
  induction n with
  | zero => exact goes_pure _
  | succ n ih =>
    refine goes_get.bind ?_
    intro r
    split
    · exact goes_pure _
    · refine goes_playOne ?_ (ih.bind (fun _ => goes_pure _))
      exact fun _ => rfl

theorem goes_seekLoop (targetMs : Ms) (steps : List Step) :
    Goes Orderly (seekLoop w targetMs steps) := by
  induction steps with
  | nil => exact goes_pure _
  | cons s rest ih =>
    refine Goes.ite ?_ (goes_pure _)
    refine (goes_dispatchOne s).bind (fun _ => Goes.bind (goes_still ?_) ?_)
    · exact fun _ => rfl
    · exact fun _ => ih

theorem goes_doSeekSync (at_ : String) : Goes Orderly (doSeekSync w at_) := by
  refine goes_cancelStepDue.bind ?_
  intro _
  split
  · exact goes_throw _
  · refine goes_get.bind (fun r => Goes.ite ?_ (goes_pure _))
    exact (goes_seekLoop _ _).bind (fun _ => goes_still (fun _ => rfl))

theorem goes_carryOn : Goes Orderly carryOn := by
  refine goes_get.bind ?_
  intro r
  exact Goes.ite (goes_postFifo _) (Goes.ite goes_scheduleNextStepDue (goes_pure _))

theorem goes_onMessage (q : Request) : Goes Orderly (onMessage w q) := by
  have hintTime : Goes Orderly intTime := goes_of_mute keeps_intTime
  have hpublish : ∀ x, Goes Orderly (publish w x) := fun x => goes_of_mute (keeps_publish x)
  refine Goes.ite ?_ (goes_pure _)
  cases q with
  | step steps =>
    exact (goes_cancelStepDue.bind (fun _ => goes_stepLoop _)).bind (fun _ => hintTime.bind
      (fun _ => goes_get.bind (fun _ => (hpublish _).bind (fun _ => goes_carryOn))))
  | seek at_ =>
    exact (goes_doSeekSync at_).bind (fun _ => hintTime.bind (fun _ => (hpublish _).bind
      (fun _ => goes_carryOn)))
  | pause => exact goes_postFifo _
  | resume => exact goes_postFifo _
  | abort =>
    refine Goes.bind (goes_still ?_) (fun _ => goes_postFifo _)
    exact fun _ => rfl
  | malformed => exact goes_pure _

theorem goes_stop : Goes Orderly stop := by
  refine goes_get.bind ?_
  intro r
  exact Goes.ite ((goes_postFifo _).bind (fun _ => goes_still (fun _ => rfl))) (goes_pure _)

theorem goes_trans (target : RunnerState) : Goes Orderly (trans w target) := by
  have hexit : ∀ state, Goes Orderly (exitState state) := by
    intro state
    cases state with
    | running => exact goes_cancelStepDue
    | _ => exact goes_pure _
  have henter : Goes Orderly (enterState w target) := by
    cases target with
    | idle => exact goes_publishProgress _
    | running => exact goes_scheduleNextStepDue.bind (fun _ => goes_publishProgress _)
    | paused => exact goes_cancelStepDue.bind (fun _ => goes_get.bind
        (fun _ => goes_publishProgress _))
    | done => exact goes_cancelStepDue.bind (fun _ => goes_get.bind
        (fun _ => (goes_publishProgress _).bind (fun _ => goes_stop)))
  exact goes_get.bind (fun r => (hexit r.state).bind (fun _ => henter.bind
    (fun _ => goes_still (fun _ => rfl))))

theorem goes_transPlaying : Goes Orderly (transPlaying w) :=
  goes_get.bind (fun _ => Goes.ite (goes_trans _) (goes_trans _))

theorem goes_stepDue : Goes Orderly (stepDue w) := by
  refine goes_cancelStepDue.bind (fun _ => goes_get.bind ?_)
  intro r
  split
  · exact goes_trans _
  · refine goes_playOne ?_ ((goes_publishProgress _).bind (fun _ => goes_get.bind ?_))
    · exact fun _ => rfl
    · exact fun _ => Goes.ite (goes_trans _) goes_scheduleNextStepDue

theorem goes_handleEvent (e : Event) : Goes Orderly (handleEvent w e) := by
  have hresubscribe : Goes Orderly (doResubscribe w) := goes_of_mute keeps_doResubscribe
  refine goes_get.bind ?_
  intro r
  cases r.state with
  | idle =>
    cases e with
    | start => exact goes_transPlaying
    | stop => exact goes_trans _
    | messageReceived q => exact goes_onMessage q
    | resubscribe => exact hresubscribe
    | _ => exact goes_pure _
  | running =>
    cases e with
    | stepDue => exact goes_stepDue
    | pause => exact goes_trans _
    | stop => exact goes_trans _
    | messageReceived q => exact goes_onMessage q
    | resubscribe => exact hresubscribe
    | _ => exact goes_pure _
  | paused =>
    cases e with
    | resume => exact goes_get.bind (fun _ => Goes.ite (goes_pure _) goes_transPlaying)
    | stop => exact goes_trans _
    | messageReceived q => exact goes_onMessage q
    | resubscribe => exact hresubscribe
    | _ => exact goes_pure _
  | done => exact goes_pure _

theorem orderly_step {r r' : ScenarioRunner} {l : Label} (hl : ∀ uuid, l ≠ .elapse uuid)
    (h : r.step l = some r') : Orderly r r' := by
  cases l with
  | elapse uuid => exact absurd rfl (hl uuid)
  | handle w =>
    simp only [step, handle] at h
    split at h
    · cases h
    · rename_i e rest hfifo
      obtain rfl := Option.some.inj h
      exact (goes_handleEvent e).after { r with fifo := rest }
  | start subscribed =>
    obtain rfl := Option.some.inj h
    cases subscribed <;> exact .refl r.posts
  | stop =>
    obtain rfl := Option.some.inj h
    exact goes_stop.after r
  | resubscribe =>
    obtain rfl := Option.some.inj h
    exact .refl r.posts
  | handleMessage q =>
    obtain rfl := Option.some.inj h
    exact .refl r.posts

end ScenarioRunner

/-- A runner whose deferred posts are recorded: `armed` has the record of each, also of those that
have been made. -/
structure RecordedRunner where
  ao : ScenarioRunner
  made : List ℕ

namespace RecordedRunner

open ScenarioRunner

def loaded (scenarioName : String) (timeline : Timeline) : RecordedRunner :=
  ⟨.loaded scenarioName timeline, []⟩

def posts (r : RecordedRunner) : DeferredPosts Unit := r.ao.posts

/-- A post is made once, and its record stays. -/
def step (r : RecordedRunner) : Label → Option RecordedRunner
  | .elapse uuid =>
    if uuid ∈ r.ao.armed ∧ uuid ∉ r.made then
      some ⟨{ r.ao with fifo := r.ao.fifo ++ [.stepDue] }, uuid :: r.made⟩
    else none
  | l => (r.ao.step l).map (fun ao => { r with ao := ao })

theorem step_posts {r r' : RecordedRunner} {l : Label} (h : r.step l = some r') :
    DeferredPosts.Orderly r.posts r'.posts := by
  have hlift : ∀ {l : Label}, (∀ uuid, l ≠ .elapse uuid) →
      (r.ao.step l).map (fun ao => { r with ao := ao }) = some r' →
      DeferredPosts.Orderly r.posts r'.posts := by
    intro l hl h
    obtain ⟨ao, hao, rfl⟩ := Option.map_eq_some_iff.mp h
    exact ScenarioRunner.orderly_step hl hao
  cases l with
  | elapse uuid =>
    obtain ⟨-, h⟩ := Option.ite_none_right_eq_some.mp h
    obtain rfl := Option.some.inj h
    exact .refl r.posts
  | start subscribed => exact hlift (l := .start subscribed) (by simp) h
  | stop => exact hlift (l := .stop) (by simp) h
  | resubscribe => exact hlift (l := .resubscribe) (by simp) h
  | handleMessage q => exact hlift (l := .handleMessage q) (by simp) h
  | handle w => exact hlift (l := .handle w) (by simp) h

end RecordedRunner

end Scenario

end TelafSim
