import TelafSim.Trace

/-!
# The activity state of the machine

`SimulaTcuActivityManager` of the power component: the chart NotReady, Ready and the one field that
both forms of `getActivityState` report. The coordinator addresses its indications to single
machines; Ready stores the state of every one of them, whichever machine it names. Requests, ACKs
and the indications of the registry leave the field alone and are left out.

`updates` is recorded for the statements: the indications that were handled, as the listeners get
them.
-/

namespace TelafSim.TcuActivity

inductive TcuActivityState
  | unknown
  | suspend
  | resume
  | shutdown
  deriving DecidableEq, Repr

def wireToTcuActivityState (wire : String) : TcuActivityState :=
  if wire = "SUSPEND" then .suspend
  else if wire = "RESUME" then .resume
  else if wire = "SHUTDOWN" then .shutdown
  else .unknown

/-- `line` is the first line of `~/.machine_name`, if there is one to read. -/
def readLocalMachineName (line : Option String) : String :=
  match line with
  | none => "mdm"
  | some line =>
    let name := (line.toList.reverse.dropWhile (fun c => c = '\n' || c = '\r' || c = ' ')).reverse
    if name = [] then "mdm" else String.ofList name

/-- The data of a `state_update.ind`. An absent field is read as an empty string. -/
structure StateUpdate where
  state : Option String
  machineName : Option String
  deriving DecidableEq, Repr

inductive Signal
  /-- `status` of the data, none without data. -/
  | readinessEvt (status : Option String)
  | bridgeConnectivityChanged (operational : Bool)
  | stateUpdateInd (data : Option StateUpdate)
  deriving DecidableEq, Repr

inductive ManagerState
  | notReady
  | ready
  deriving DecidableEq, Repr

inductive Service
  | initCb
  | available
  | unavailable
  deriving DecidableEq, Repr

structure SimulaTcuActivityManager where
  state : ManagerState
  initCbFired : Bool
  localState : TcuActivityState
  services : List Service
  updates : List (TcuActivityState × String)
  deriving DecidableEq, Repr

namespace SimulaTcuActivityManager

def initial : SimulaTcuActivityManager := ⟨.notReady, false, .unknown, [], []⟩

/-- The first time the client's callback is called, later the listeners are told. -/
def enterReady (m : SimulaTcuActivityManager) : SimulaTcuActivityManager :=
  if m.initCbFired then { m with state := .ready, services := m.services ++ [.available] }
  else { m with state := .ready, initCbFired := true, services := m.services ++ [.initCb] }

def leaveReady (m : SimulaTcuActivityManager) : SimulaTcuActivityManager :=
  { m with state := .notReady, services := m.services ++ [.unavailable] }

def notReadySt (e : Signal) (m : SimulaTcuActivityManager) : SimulaTcuActivityManager :=
  match e with
  | .readinessEvt status => if status = some "AVAILABLE" then m.enterReady else m
  | _ => m

def readySt (e : Signal) (m : SimulaTcuActivityManager) : SimulaTcuActivityManager :=
  match e with
  | .readinessEvt status => if status = some "UNAVAILABLE" then m.leaveReady else m
  | .bridgeConnectivityChanged operational => if operational then m else m.leaveReady
  | .stateUpdateInd none => m
  | .stateUpdateInd (some data) =>
    let state := wireToTcuActivityState (data.state.getD "")
    { m with
      localState := state
      updates := m.updates ++ [(state, data.machineName.getD "")] }

def step (m : SimulaTcuActivityManager) (e : Signal) : Option SimulaTcuActivityManager :=
  match m.state with
  | .notReady => some (m.notReadySt e)
  | .ready => some (m.readySt e)

/-- The deprecated form. The other one reports the same for every machine name. -/
def getActivityState (m : SimulaTcuActivityManager) : TcuActivityState := m.localState

def getActivityStateOf (_machineName : String) (m : SimulaTcuActivityManager) :
    TcuActivityState := m.localState

def lastUpdate (machineName : String) (m : SimulaTcuActivityManager) : TcuActivityState :=
  (((m.updates.filter (fun u => u.2 = machineName)).getLast?).map Prod.fst).getD .unknown

/-- The documented meaning of `getActivityState`. -/
def ReportsLocal (line : Option String) (m : SimulaTcuActivityManager) : Prop :=
  m.getActivityState = m.lastUpdate (readLocalMachineName line)

instance (line : Option String) : DecidablePred (ReportsLocal line) :=
  fun _ => inferInstanceAs (Decidable (_ = _))

/-- An indication that is handled names the local machine, or brings the state that the local
machine was told last. -/
def heeds (line : Option String) (m : SimulaTcuActivityManager) : Signal → Prop
  | .stateUpdateInd (some data) =>
    m.state = .ready → data.machineName.getD "" = readLocalMachineName line ∨
      wireToTcuActivityState (data.state.getD "") = m.lastUpdate (readLocalMachineName line)
  | _ => True

variable {m m' : SimulaTcuActivityManager} {e : Signal} {machineName : String}

theorem step_isSome (m : SimulaTcuActivityManager) (e : Signal) : (m.step e).isSome := by
  unfold step
  split <;> rfl

theorem step_cases (h : m.step e = some m') :
    (∃ data, e = .stateUpdateInd (some data) ∧ m.state = .ready ∧
        m'.localState = wireToTcuActivityState (data.state.getD "") ∧
        m'.updates = m.updates ++
          [(wireToTcuActivityState (data.state.getD ""), data.machineName.getD "")]) ∨
      (∀ data, e = .stateUpdateInd (some data) → m.state = .notReady) ∧
        m'.localState = m.localState ∧ m'.updates = m.updates := by
  unfold step at h
  cases hst : m.state with
  | notReady =>
    rw [hst] at h
    obtain rfl := Option.some.inj h
    refine .inr ⟨fun _ _ => rfl, ?_⟩
    unfold notReadySt enterReady
    cases e with
    | readinessEvt status =>
      dsimp only
      split
      · split <;> exact ⟨rfl, rfl⟩
      · exact ⟨rfl, rfl⟩
    | _ => exact ⟨rfl, rfl⟩
  | ready =>
    rw [hst] at h
    obtain rfl := Option.some.inj h
    cases e with
    | stateUpdateInd data =>
      cases data with
      | none => exact .inr ⟨by simp, rfl, rfl⟩
      | some data => exact .inl ⟨data, rfl, rfl, rfl, rfl⟩
    | readinessEvt status =>
      refine .inr ⟨by simp, ?_⟩
      unfold readySt leaveReady
      dsimp only
      split <;> exact ⟨rfl, rfl⟩
    | bridgeConnectivityChanged operational =>
      refine .inr ⟨by simp, ?_⟩
      unfold readySt leaveReady
      dsimp only
      split <;> exact ⟨rfl, rfl⟩

theorem lastUpdate_of_updates {state : TcuActivityState} {name : String}
    (h : m'.updates = m.updates ++ [(state, name)]) :
    m'.lastUpdate machineName = if name = machineName then state else m.lastUpdate machineName := by
  unfold lastUpdate
  rw [h, List.filter_append]
  by_cases hname : name = machineName
  · rw [if_pos hname, List.filter_cons_of_pos (by simpa using hname), List.filter_nil,
      List.getLast?_concat]
    rfl
  · rw [if_neg hname, List.filter_cons_of_neg (by simpa using hname), List.filter_nil,
      List.append_nil]

theorem reportsLocal_step (line : Option String) (hm : m.ReportsLocal line)
    (h : m.step e = some m') : m.heeds line e ↔ m'.ReportsLocal line := by
  unfold ReportsLocal getActivityState at hm ⊢
  obtain ⟨data, rfl, hready, hstate, hupdates⟩ | ⟨hnot, hstate, hupdates⟩ := step_cases h
  · rw [hstate, lastUpdate_of_updates hupdates]
    simp only [heeds, hready, true_imp_iff]
    by_cases hname : data.machineName.getD "" = readLocalMachineName line
    · simp [hname]
    · simp [hname]
  · have hlast : m'.lastUpdate (readLocalMachineName line) =
        m.lastUpdate (readLocalMachineName line) := by
      unfold lastUpdate
      rw [hupdates]
    rw [hstate, hlast]
    refine iff_of_true ?_ hm
    unfold heeds
    split
    · rename_i data
      intro hready
      rw [hnot data rfl] at hready
      cases hready
    · trivial

/-- For every local machine and every sequence of signals, `getActivityState` reports the state of
the local machine in every state that is reached if and only if every indication for another machine
that is handled on the way brings the state that the local machine has. -/
theorem reportsLocal_iff (line : Option String) (es : List Signal) :
    Trace.Always step (ReportsLocal line) initial es ↔
      Trace.AllSteps step (heeds line) initial es :=
  Trace.always_iff_allSteps_of_total step_isSome
    (fun _ _ _ hm h => reportsLocal_step line hm h) es rfl

/-- The local machine is suspended, and then another one is resumed. -/
def resumedElsewhere : List Signal :=
  [.readinessEvt (some "AVAILABLE"), .stateUpdateInd (some ⟨some "SUSPEND", some "mdm"⟩),
    .stateUpdateInd (some ⟨some "RESUME", some "televm"⟩)]

theorem resumed_elsewhere : ∃ m, Trace.run step initial resumedElsewhere = some m ∧
    m.lastUpdate (readLocalMachineName none) = .suspend ∧ m.getActivityState = .resume ∧
    ¬ Trace.Always step (ReportsLocal none) initial resumedElsewhere := by
  have hrun : (Trace.run step initial resumedElsewhere).any (fun m =>
      m.lastUpdate (readLocalMachineName none) = .suspend ∧ m.getActivityState = .resume) =
      true := by
    decide +kernel
  simp only [Option.any_eq_true, decide_eq_true_eq] at hrun
  obtain ⟨m, hm, hlast, hstate⟩ := hrun
  refine ⟨m, hm, hlast, hstate, ?_⟩
  intro hall
  have hreports : m.getActivityState = m.lastUpdate (readLocalMachineName none) := hall.run hm
  rw [hlast, hstate] at hreports
  cases hreports

end SimulaTcuActivityManager

end TelafSim.TcuActivity
