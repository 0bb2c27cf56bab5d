import TelafSim.CallRecords
import TelafSim.EcallRecords
import TelafSim.PowerRecords
import TelafSim.ScenarioRecords

/-!
# The records of the timers

An active object that runs out of records can post no more. The four objects with timers of their
own, side by side: two of them never have more records than uuids that they store, and two do as
soon as a timer is fired in earnest.
-/

namespace TelafSim

open DeferredPosts

/-- The connections and the scenario runner never have more records of timers than uuids of timers
that they store. The eCall manager and the power subsystem do in a run if and only if some expiry or
timeout is handled while the uuid of its timer is stored: they forget the uuid and do not cancel. -/
theorem records_le_uuids (timing : Mpss.CallTimingPreset) (stem : String) (poolSize : ℕ)
    (addrInfo : String → Option String) {calls : List Mpss.RecordedConnections.Label}
    {c : Mpss.RecordedConnections}
    (hcalls : Trace.run Mpss.RecordedConnections.step (.start timing stem poolSize addrInfo) calls =
      some c)
    (scenarioName : String) (timeline : Scenario.Timeline)
    {scenario : List Scenario.ScenarioRunner.Label} {r : Scenario.RecordedRunner}
    (hscenario : Trace.run Scenario.RecordedRunner.step (.loaded scenarioName timeline) scenario =
      some r)
    (isNgEcallDevice : Bool) {ecalls : List Ecall.EcallManagerAO.Label} {m : Ecall.RecordedManager}
    (hecalls : Trace.run Ecall.RecordedManager.step (.ready isNgEcallDevice) ecalls = some m)
    (localMachineName : String) {rounds : List Power.RecordedSubsystem.Label}
    {s : Power.RecordedSubsystem}
    (hrounds : Trace.run Power.RecordedSubsystem.step (.initial localMachineName) rounds = some s) :
    c.posts.Bounded ∧ r.posts.Bounded ∧
    (Trace.Always Ecall.RecordedManager.step (fun m => m.posts.Bounded) (.ready isNgEcallDevice)
        ecalls ↔
      Trace.AllSteps Ecall.RecordedManager.step (fun m l => m.ao.expiresReleased l = true)
        (.ready isNgEcallDevice) ecalls) ∧
    (Trace.Always Power.RecordedSubsystem.step (fun s => s.posts.Bounded)
        (.initial localMachineName) rounds ↔
      Trace.AllSteps Power.RecordedSubsystem.step (fun s l => s.timesOutReleased l = true)
        (.initial localMachineName) rounds) := by
  refine ⟨?_, ?_, ?_, ?_⟩
  · refine bounded_of_orderly Mpss.RecordedConnections.posts
      (fun _ _ _ h hstep => (Mpss.RecordedConnections.step_posts h hstep).1)
      (fun _ _ _ h hstep => (Mpss.RecordedConnections.step_posts h hstep).2) hcalls
      (Mpss.RecordedConnections.fitting_start timing stem poolSize addrInfo) sound_empty kept_empty
  · exact bounded_of_orderly Scenario.RecordedRunner.posts (J := fun _ => True)
      (fun _ _ _ _ _ => trivial) (fun _ _ _ _ h => Scenario.RecordedRunner.step_posts h) hscenario
      trivial sound_empty kept_empty
  · exact Ecall.RecordedManager.orderlyBut_step.always_bounded_iff hecalls sound_empty kept_empty
  · have hempty := Power.RecordedSubsystem.posts_initial localMachineName
    exact Power.RecordedSubsystem.orderlyBut_step.always_bounded_iff hrounds
      (hempty ▸ sound_empty) (hempty ▸ kept_empty)

section Examples

/-- A call that is set up and ended while T2 runs. -/
def endedRun : List Ecall.EcallManagerAO.Label :=
  [.handleMessage 0 (.startEcall 1 .manual true "" ""), .handle, .handle,
    .handleMessage 1 (.endEcall 1 1), .handle]

def expiredRun : List Ecall.EcallManagerAO.Label :=
  [.handleMessage 0 (.startEcall 1 .manual true "" ""), .handle, .handle, .elapse 0, .handle]

def suspended : List Power.RecordedSubsystem.Label :=
  [.ready (.post (.setState .suspend Power.allMachines "c" "pa")), .ready .dispatch]

def ackedRun : List Power.RecordedSubsystem.Label :=
  suspended ++ [.ready (.post (.slaveAck "local" .ack)), .ready .dispatch, .stop]

def timedOutRun : List Power.RecordedSubsystem.Label :=
  suspended ++ [.ready (.fire 0), .ready .dispatch]

/-- A call that is up once its timer has been fired. -/
def connectedRun : List Mpss.RecordedConnections.Label :=
  [.ready (.handleMessage ⟨0, .startDataCall, 1, ""⟩), .ready .handle, .ready (.elapse 1),
    .ready .handle]

theorem bounded_runs :
    (∃ c, Trace.run Mpss.RecordedConnections.step
      (.start ⟨5, 5⟩ "rmnet_data" 2 (fun _ => none)) connectedRun = some c ∧ c.posts.Bounded) ∧
    (∃ r, Trace.run Scenario.RecordedRunner.step (.loaded "two" Scenario.ScenarioRunner.twoSteps)
      Scenario.ScenarioRunner.playedRun = some r ∧ r.posts.Bounded) ∧
    Trace.Always Ecall.RecordedManager.step (fun m => m.posts.Bounded) (.ready false) endedRun ∧
    Trace.Always Power.RecordedSubsystem.step (fun s => s.posts.Bounded) (.initial "local")
      ackedRun := by
  have hc : (Trace.run Mpss.RecordedConnections.step
      (.start ⟨5, 5⟩ "rmnet_data" 2 (fun _ => none)) connectedRun).isSome := by
    decide +kernel
  have hr : (Trace.run Scenario.RecordedRunner.step
      (.loaded "two" Scenario.ScenarioRunner.twoSteps)
      Scenario.ScenarioRunner.playedRun).isSome := by
    decide +kernel
  have hm : (Trace.run Ecall.RecordedManager.step (.ready false) endedRun).isSome := by
    decide +kernel
  have hs : (Trace.run Power.RecordedSubsystem.step (.initial "local") ackedRun).isSome := by
    decide +kernel
  obtain ⟨c, hc⟩ := Option.isSome_iff_exists.mp hc
  obtain ⟨r, hr⟩ := Option.isSome_iff_exists.mp hr
  obtain ⟨m, hm⟩ := Option.isSome_iff_exists.mp hm
  obtain ⟨s, hs⟩ := Option.isSome_iff_exists.mp hs
  obtain ⟨hconnections, hscenario, hecall, hpower⟩ :=
    records_le_uuids _ _ _ _ hc _ _ hr _ hm _ hs
  refine ⟨⟨c, hc, hconnections⟩, ⟨r, hr, hscenario⟩, hecall.mpr ?_, hpower.mpr ?_⟩
  · decide +kernel
  · decide +kernel

/-- The uuid of a timer that expires, or of a round that times out, is forgotten and its record is
left behind. -/
theorem records_left_behind :
    (∃ m, Trace.run Ecall.RecordedManager.step (.ready false) expiredRun = some m ∧
      m.posts.records = [(0, .hlap 1 .t2), (1, .hlap 1 .t9)] ∧
      m.posts.uuids (.hlap 1 .t2) = none ∧ ¬ m.posts.Bounded) ∧
    ∃ s, Trace.run Power.RecordedSubsystem.step (.initial "local") timedOutRun = some s ∧
      s.posts.records = [(0, .ackTimeout), (1, .fTimeout)] ∧
      s.posts.uuids .ackTimeout = none ∧ ¬ s.posts.Bounded := by
  have hm : (Trace.run Ecall.RecordedManager.step (.ready false) expiredRun).map
      (fun m => (m.ao.scheduled, m.ao.timerUuids (.hlap 1 .t2))) =
      some ([(0, .hlap 1 .t2), (1, .hlap 1 .t9)], none) := by
    decide +kernel
  have hs : (Trace.run Power.RecordedSubsystem.step (.initial "local") timedOutRun).map
      (fun s => (s.ao.armed, s.ao.pendingTimerUuid)) =
      some ([(0, .ackTimeout), (1, .fTimeout)], none) := by
    decide +kernel
  obtain ⟨m, hm, heq⟩ := Option.map_eq_some_iff.mp hm
  obtain ⟨hrecords, huuid⟩ := Prod.mk.inj heq
  obtain ⟨s, hs, heq'⟩ := Option.map_eq_some_iff.mp hs
  obtain ⟨hrecords', huuid'⟩ := Prod.mk.inj heq'
  refine ⟨⟨m, hm, hrecords, huuid, ?_⟩, ⟨s, hs, hrecords', huuid', ?_⟩⟩
  · intro hbounded
    have hsound := Ecall.RecordedManager.orderlyBut_step.sound_run hm sound_empty
    have hrecords : m.posts.records = _ := hrecords
    have hkept := hsound.kept hbounded (0, .hlap 1 .t2) (hrecords ▸ List.mem_cons_self)
    exact absurd (huuid.symm.trans hkept) (by simp)
  · intro hbounded
    have hsound := Power.RecordedSubsystem.orderlyBut_step.sound_run hs
      (Power.RecordedSubsystem.posts_initial "local" ▸ sound_empty)
    have hrecords : s.posts.records = _ := hrecords'
    have hkept := hsound.kept hbounded (0, .ackTimeout) (hrecords ▸ List.mem_cons_self)
    exact absurd (huuid'.symm.trans hkept) (by simp)

end Examples

end TelafSim
