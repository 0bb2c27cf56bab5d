import Mathlib.Data.List.Sort
import TelafSim.Procedure
import TelafSim.ScenarioTime
import TelafSim.Trace

/-!
# The scenario runner

`ScenarioRunner` of `sml/runtime/scenario_runner.py`: the timeline it has loaded, its clock, its four
states and the events of its fifo, which are handled one at a time. A handler may raise: what it has
done stays done, the state chart stays in its state, and the next event is handled. Its timer is a
deferred post of StepDue, which waits among `armed` until its time has come or it is cancelled; a
StepDue that is in the fifo cannot be cancelled any more.
-/

namespace TelafSim.Scenario

open Procedure

/-- A step as it is written in the scenario. -/
structure TimelineStep where
  at_ : String
  action : String
  args : String
  deriving DecidableEq

structure Step where
  atMs : Ms
  action : String
  args : String
  deriving DecidableEq

/-- Steps in the order of their times. -/
structure Timeline where
  steps : List Step
  sorted : steps.Pairwise (·.atMs ≤ ·.atMs)

/-- Steps of one time stay in the order they are written in. -/
def Timeline.sort (steps : List Step) : Timeline where
  steps := steps.insertionSort (fun s t => s.atMs ≤ t.atMs)
  sorted := by
    have : Std.Total (fun s t : Step => s.atMs ≤ t.atMs) := ⟨fun s t => le_total s.atMs t.atMs⟩
    have : IsTrans Step (fun s t => s.atMs ≤ t.atMs) := ⟨fun _ _ _ h h' => h.trans h'⟩
    exact List.pairwise_insertionSort _ steps

def stageStep (step : TimelineStep) : Except ParseError Step :=
  (parseAt step.at_).map (fun atMs => ⟨atMs, step.action, step.args⟩)

def stageTimeline (timeline : List TimelineStep) : Except ParseError Timeline :=
  (timeline.mapM stageStep).map Timeline.sort

inductive RunnerState
  | idle
  | running
  | paused
  | done
  deriving DecidableEq, Repr

/-- The owned topics, with the fields of their messages. -/
inductive Request
  | step (steps : Option ℤ)
  | seek (at_ : String)
  | pause
  | resume
  | abort
  -- no JSON, or fields that the topic's schema does not have
  | malformed
  deriving DecidableEq

/-- `_validate` with the schemas of `sml/control/schemas/scenario`. -/
def Request.valid : Request → Bool
  | .step steps => steps.all (1 ≤ ·)
  | .seek at_ => matchesAt at_
  | .pause | .resume | .abort => true
  | .malformed => false

inductive Event
  | start
  | stop
  | stepDue
  | pause
  | resume
  | messageReceived (q : Request)
  | resubscribe
  deriving DecidableEq

inductive ProgressLabel
  | running
  | paused
  | done
  | aborted
  deriving DecidableEq, Repr

inductive Publication
  | stepRsp (executedSteps currentTimeMs : ℕ) (reachedEnd : Bool)
  | seekRsp (reachedAtMs : ℕ)
  | progress (scenarioName : String) (currentTimeMs : ℕ) (state : ProgressLabel)
    (reachedEnd : Bool)
  deriving DecidableEq

inductive Exn
  | parse (e : ParseError)
  | overflow
  | dispatch
  | publish
  deriving DecidableEq

/-- What the validator makes of an action's arguments: a fault is any exception but
ValidationError. -/
inductive Validation
  | valid
  | invalid
  | fault
  deriving DecidableEq, Repr

/-- What lies outside the runner while an event is handled. The actions go by their places in the
timeline. -/
structure World where
  /-- The domain has its dispatcher, and the dispatcher knows the action. -/
  owned : ℕ → Bool
  validate : ℕ → Validation
  publishRaises : Publication → Bool

/-- `dispatch_action` of the action dispatcher and of a domain's dispatcher, which catch a
ValidationError and whatever the action itself raises: `none` is an exception. -/
def World.dispatchAction (w : World) (idx : ℕ) : Option Bool :=
  if !w.owned idx then some false
  else
    match w.validate idx with
    | .valid => some true
    | .invalid => some true
    | .fault => none

structure ScenarioRunner where
  scenarioName : String
  timeline : Timeline
  nextIdx : ℕ
  currentTimeMs : Ms
  aborted : Bool
  stepDueUuid : Option ℕ
  started : Bool
  /-- `start` has handed over the publish and subscribe functions. -/
  wired : Bool
  state : RunnerState
  fifo : List Event
  /-- The deferred posts of StepDue that have not been made yet. -/
  armed : List ℕ
  nextUuid : ℕ
  /-- The calls of `dispatch_action`. -/
  dispatched : List Step
  published : List Publication

namespace ScenarioRunner

abbrev Handler := EStateM Exn ScenarioRunner

/-- A scenario has been loaded and nothing has been started. -/
def loaded (scenarioName : String) (timeline : Timeline) : ScenarioRunner where
  scenarioName := scenarioName
  timeline := timeline
  nextIdx := 0
  currentTimeMs := 0
  aborted := false
  stepDueUuid := none
  started := false
  wired := false
  state := .idle
  fifo := []
  armed := []
  nextUuid := 0
  dispatched := []
  published := []

def atEnd (r : ScenarioRunner) : Bool := r.timeline.steps.length ≤ r.nextIdx

def postFifo (e : Event) : Handler Unit := modify (fun r => { r with fifo := r.fifo ++ [e] })

def publish (w : World) (x : Publication) : Handler Unit := do
  let r ← get
  if r.wired then
    if w.publishRaises x then throw .publish
    else modify (fun r => { r with published := r.published ++ [x] })
  else pure ()

/-- `int(self._current_time_ms)` -/
def intTime : Handler ℕ := do
  let r ← get
  match r.currentTimeMs with
  | ⊤ => throw .overflow
  | (ms : ℚ≥0) => pure ⌊ms⌋₊

def publishProgress (w : World) (label : ProgressLabel) : Handler Unit := do
  let r ← get
  if r.wired then
    let ms ← intTime
    publish w (.progress r.scenarioName ms label r.atEnd)
  else pure ()

def dispatchOne (w : World) (s : Step) : Handler Unit := do
  let r ← get
  modify (fun r => { r with dispatched := r.dispatched ++ [s] })
  match w.dispatchAction r.nextIdx with
  | none => throw .dispatch
  | some _ => pure ()

def cancelStepDue : Handler Unit :=
  modify (fun r =>
    { r with armed := r.armed.filter (some · ≠ r.stepDueUuid), stepDueUuid := none })

def scheduleNextStepDue : Handler Unit := do
  cancelStepDue
  let r ← get
  if r.atEnd then pure ()
  else
    modify (fun r =>
      { r with
        armed := r.armed ++ [r.nextUuid]
        stepDueUuid := some r.nextUuid
        nextUuid := r.nextUuid + 1 })

/-- The loop of `_do_step_sync`, with the number of steps that have been executed. -/
def stepLoop (w : World) : ℕ → Handler ℕ
  | 0 => pure 0
  | n + 1 => do
    let r ← get
    match r.timeline.steps[r.nextIdx]? with
    | none => pure 0
    | some s =>
      modify (fun r => { r with currentTimeMs := s.atMs })
      dispatchOne w s
      modify (fun r => { r with nextIdx := r.nextIdx + 1 })
      let executed ← stepLoop w n
      pure (executed + 1)

def doStepSync (w : World) (n : ℕ) : Handler ℕ := do
  cancelStepDue
  stepLoop w n

/-- The loop of `_do_seek_sync` over the steps that are left. -/
def seekLoop (w : World) (targetMs : Ms) : List Step → Handler Unit
  | [] => pure ()
  | s :: rest =>
    if s.atMs ≤ targetMs then do
      dispatchOne w s
      modify (fun r => { r with nextIdx := r.nextIdx + 1 })
      seekLoop w targetMs rest
    else pure ()

def doSeekSync (w : World) (at_ : String) : Handler Unit := do
  cancelStepDue
  match parseAt at_ with
  | .error e => throw (.parse e)
  | .ok targetMs =>
    let r ← get
    if r.currentTimeMs ≤ targetMs then
      seekLoop w targetMs (r.timeline.steps.drop r.nextIdx)
      modify (fun r => { r with currentTimeMs := targetMs })
    else pure ()

/-- The timer is armed again while the timeline plays, and the end of the timeline is posted. -/
def carryOn : Handler Unit := do
  let r ← get
  if r.atEnd then postFifo .stop
  else if r.state = .running then scheduleNextStepDue
  else pure ()

def rpcStep (w : World) (steps : Option ℤ) : Handler Unit := do
  let executed ← doStepSync w (steps.getD 1).toNat
  let ms ← intTime
  let r ← get
  publish w (.stepRsp executed ms r.atEnd)
  carryOn

def rpcSeek (w : World) (at_ : String) : Handler Unit := do
  doSeekSync w at_
  let ms ← intTime
  publish w (.seekRsp ms)
  carryOn

def onMessage (w : World) (q : Request) : Handler Unit :=
  if q.valid then
    match q with
    | .step steps => rpcStep w steps
    | .seek at_ => rpcSeek w at_
    | .pause => postFifo .pause
    | .resume => postFifo .resume
    | .abort => do
      modify (fun r => { r with aborted := true })
      postFifo .stop
    | .malformed => pure ()
  else pure ()

/-- `stop`, apart from the subscriptions. -/
def stop : Handler Unit := do
  let r ← get
  if r.started then
    postFifo .stop
    modify (fun r => { r with started := false })
  else pure ()

def endLabel (aborted : Bool) (label : ProgressLabel) : ProgressLabel :=
  if aborted then .aborted else label

def resubscribeLabel (r : ScenarioRunner) : ProgressLabel :=
  endLabel r.aborted
    (match r.state with
    | .running => .running
    | .done => .done
    | .idle | .paused => .paused)

def doResubscribe (w : World) : Handler Unit := do
  let r ← get
  publishProgress w r.resubscribeLabel

def exitState : RunnerState → Handler Unit
  | .running => cancelStepDue
  | .idle | .paused | .done => pure ()

def enterState (w : World) : RunnerState → Handler Unit
  | .idle => publishProgress w .paused
  | .running => do
    scheduleNextStepDue
    publishProgress w .running
  | .paused => do
    cancelStepDue
    let r ← get
    publishProgress w (endLabel r.aborted .paused)
  | .done => do
    cancelStepDue
    let r ← get
    publishProgress w (endLabel r.aborted .done)
    stop

/-- The chart is in the target once its entry has been run. -/
def trans (w : World) (target : RunnerState) : Handler Unit := do
  let r ← get
  exitState r.state
  enterState w target
  modify (fun r => { r with state := target })

/-- Where the timeline plays on from. -/
def transPlaying (w : World) : Handler Unit := do
  let r ← get
  if r.atEnd then trans w .done else trans w .running

/-- StepDue in smfn_running. -/
def stepDue (w : World) : Handler Unit := do
  cancelStepDue
  let r ← get
  match r.timeline.steps[r.nextIdx]? with
  | none => trans w .done
  | some s =>
    modify (fun r => { r with currentTimeMs := s.atMs })
    dispatchOne w s
    modify (fun r => { r with nextIdx := r.nextIdx + 1 })
    publishProgress w .running
    let r ← get
    if r.atEnd then trans w .done else scheduleNextStepDue

def smfnIdle (w : World) : Event → Handler Unit
  | .start => transPlaying w
  | .stop => trans w .done
  | .messageReceived q => onMessage w q
  | .resubscribe => doResubscribe w
  | .stepDue | .pause | .resume => pure ()

def smfnRunning (w : World) : Event → Handler Unit
  | .stepDue => stepDue w
  | .pause => trans w .paused
  | .stop => trans w .done
  | .messageReceived q => onMessage w q
  | .resubscribe => doResubscribe w
  | .start | .resume => pure ()

def smfnPaused (w : World) : Event → Handler Unit
  | .resume => do
    let r ← get
    if r.aborted then pure () else transPlaying w
  | .stop => trans w .done
  | .messageReceived q => onMessage w q
  | .resubscribe => doResubscribe w
  | .start | .stepDue | .pause => pure ()

/-- Late requests are dropped. -/
def smfnDone (_ : Event) : Handler Unit := pure ()

def handleEvent (w : World) (e : Event) : Handler Unit := do
  let r ← get
  match r.state with
  | .idle => smfnIdle w e
  | .running => smfnRunning w e
  | .paused => smfnPaused w e
  | .done => smfnDone e

/-- The event at the head of the fifo is handled, to the end or to an exception. -/
def handle (w : World) (r : ScenarioRunner) : Option ScenarioRunner :=
  match r.fifo with
  | [] => none
  | e :: fifo => some (after (handleEvent w e) { r with fifo := fifo })

def elapse (uuid : ℕ) (r : ScenarioRunner) : Option ScenarioRunner :=
  if uuid ∈ r.armed then
    some { r with armed := r.armed.filter (· ≠ uuid), fifo := r.fifo ++ [.stepDue] }
  else none

/-- `start`: a subscription that raises keeps Start from being posted. -/
def start (subscribed : Bool) (r : ScenarioRunner) : ScenarioRunner :=
  if subscribed then { r with wired := true, started := true, fifo := r.fifo ++ [.start] }
  else { r with wired := true }

/-- The public methods, and what happens by itself. -/
inductive Label
  | start (subscribed : Bool)
  | stop
  | resubscribe
  | handleMessage (q : Request)
  | elapse (uuid : ℕ)
  | handle (w : World)

def step (r : ScenarioRunner) : Label → Option ScenarioRunner
  | .start subscribed => some (r.start subscribed)
  | .stop => some (after stop r)
  | .resubscribe => some (after (postFifo .resubscribe) r)
  | .handleMessage q => some (after (postFifo (.messageReceived q)) r)
  | .elapse uuid => r.elapse uuid
  | .handle w => r.handle w

section Frames

variable {w : World}

/-- How far the timeline has been played. -/
structure Play where
  timeline : Timeline
  nextIdx : ℕ
  currentTimeMs : Ms
  dispatched : List Step

def play (r : ScenarioRunner) : Play := ⟨r.timeline, r.nextIdx, r.currentTimeMs, r.dispatched⟩

/-- All but what has been published. -/
def mute (r : ScenarioRunner) : ScenarioRunner := { r with published := [] }

theorem keeps_publish (x : Publication) : Keeps mute (publish w x) := by
  refine keeps_get.bind ?_
  intro r
  refine Keeps.ite (Keeps.ite ?_ ?_) ?_
  · exact keeps_throw _
  · exact keeps_modify (fun _ => rfl)
  · exact keeps_pure _

theorem keeps_intTime : Keeps mute intTime := by
  refine keeps_get.bind ?_
  intro r
  split
  · exact keeps_throw _
  · exact keeps_pure _

theorem keeps_publishProgress (label : ProgressLabel) : Keeps mute (publishProgress w label) := by
  refine keeps_get.bind ?_
  intro r
  refine Keeps.ite ?_ (keeps_pure _)
  exact keeps_intTime.bind (fun _ => keeps_publish _)

theorem keeps_doResubscribe : Keeps mute (doResubscribe w) :=
  keeps_get.bind (fun _ => keeps_publishProgress _)

/-- The timeline does not play. -/
abbrev Still {α : Type} (x : Handler α) : Prop := Keeps play x

/-- Nor does the chart change its state. -/
abbrev Stays {α : Type} (x : Handler α) : Prop := Keeps (fun r => (r.play, r.state)) x

theorem Stays.still {α : Type} {x : Handler α} (h : Stays x) : Still x :=
  h.of_eq Prod.fst (fun _ => rfl)

theorem stays_of_mute {α : Type} {x : Handler α} (h : Keeps mute x) : Stays x :=
  h.of_eq (fun r => (r.play, r.state)) (fun _ => rfl)

theorem still_of_mute {α : Type} {x : Handler α} (h : Keeps mute x) : Still x :=
  Stays.still (stays_of_mute h)

theorem stays_postFifo (e : Event) : Stays (postFifo e) := keeps_modify (fun _ => rfl)

theorem stays_cancelStepDue : Stays cancelStepDue := keeps_modify (fun _ => rfl)

theorem stays_scheduleNextStepDue : Stays scheduleNextStepDue := by
  refine stays_cancelStepDue.bind (fun _ => keeps_get.bind ?_)
  intro r
  exact Keeps.ite (keeps_pure _) (keeps_modify (fun _ => rfl))

theorem stays_stop : Stays stop := by
  refine keeps_get.bind ?_
  intro r
  exact Keeps.ite ((stays_postFifo _).bind (fun _ => keeps_modify (fun _ => rfl))) (keeps_pure _)

theorem stays_carryOn : Stays carryOn := by
  refine keeps_get.bind ?_
  intro r
  exact Keeps.ite (stays_postFifo _) (Keeps.ite stays_scheduleNextStepDue (keeps_pure _))

theorem stays_exitState (state : RunnerState) : Stays (exitState state) := by
  cases state
  · exact keeps_pure _
  · exact stays_cancelStepDue
  · exact keeps_pure _
  · exact keeps_pure _

theorem stays_enterState (state : RunnerState) : Stays (enterState w state) := by
  have hprogress : ∀ label, Stays (publishProgress w label) :=
    fun label => stays_of_mute (keeps_publishProgress label)
  cases state
  · exact hprogress _
  · exact stays_scheduleNextStepDue.bind (fun _ => hprogress _)
  · exact stays_cancelStepDue.bind (fun _ => keeps_get.bind (fun _ => hprogress _))
  · exact stays_cancelStepDue.bind (fun _ => keeps_get.bind (fun _ =>
      (hprogress _).bind (fun _ => stays_stop)))

theorem still_trans (target : RunnerState) : Still (trans w target) := by
  refine keeps_get.bind ?_
  intro r
  exact (Stays.still (stays_exitState _)).bind (fun _ =>
    (Stays.still (stays_enterState _)).bind (fun _ => keeps_modify (fun _ => rfl)))

theorem still_transPlaying : Still (transPlaying w) :=
  keeps_get.bind (fun _ => Keeps.ite (still_trans _) (still_trans _))

end Frames

end ScenarioRunner

end TelafSim.Scenario
