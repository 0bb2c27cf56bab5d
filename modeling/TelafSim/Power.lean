import TelafSim.Trace
import Mathlib.Data.List.Sort

/-!
# The power coordinator

`PowerSubsystem` of `sml/apss/power` in Ready: the registry of machines, the queue of `set_state`
requests and the round in progress. A round announces the new state to the targets whose recorded
state differs, awaits their ACKs and on completion records the state, answers the request and
starts the next one.

Scheduled posts are kept in `armed` until they fire into the fifo; cancelling one that has fired
removes nothing. Three things are recorded for the statements only: `seq`, the number of a
`set_state` request, `received` and `accepted`, the requests handled and admitted so far, and
`timeouts`, for every PowerAckTimeout that finished a round the scheduled post it came from and
the one of the round.
-/

namespace TelafSim.Power

inductive PowerState
  | unknown
  | suspend
  | resume
  | shutdown
  deriving DecidableEq, Repr

inductive Response
  | ack
  | nack
  deriving DecidableEq, Repr

inductive RoundStatus
  | complete
  | timeout
  deriving DecidableEq, Repr

def allMachines : String := "ALL_MACHINES"

def localMachine : String := "LOCAL_MACHINE"

structure QueuedRequest where
  machineName : String
  state : PowerState
  corrId : String
  src : String
  seq : ℕ
  deriving DecidableEq, Repr

/-- The `_pending_*` fields. `targets` are the targets when the round started and `round` is the
post scheduled for it. -/
structure Pending where
  request : QueuedRequest
  targets : List String
  expected : List String
  acked : List String
  nacked : List String
  round : ℕ
  deriving DecidableEq, Repr

inductive Timer
  | ackTimeout
  | fTimeout
  deriving DecidableEq, Repr

inductive Out
  | stateUpdate (state : PowerState) (machineName : String)
  | slaveAckStatus (status : RoundStatus) (machineName : String) (unresponsive nack : List String)
  | setStateRsp (seq : ℕ) (corrId dest : String) (ok : Bool) (errorMessage : Option String)
  | getMachineNamesRsp (corrId dest : String) (machineNames : List String)
  | machineUpdate (machineName : String) (available : Bool)
  deriving DecidableEq, Repr

inductive PowerEvent
  | setState (state : PowerState) (machineName corrId src : String)
  | getMachineNames (corrId src : String)
  | slaveAck (machineName : String) (response : Response)
  | powerForceSlaveAck (machineName : String) (response : Response)
  | powerAddMachine (machineName : String)
  | powerRemoveMachine (machineName : String)
  | powerAckTimeout (uuid : ℕ)
  | powerFTimeout
  deriving DecidableEq, Repr

structure PowerSubsystem where
  localMachineName : String
  machinesState : String → Option PowerState
  registeredMachines : List String
  requestQueue : List QueuedRequest
  pending : Option Pending
  pendingTimerUuid : Option ℕ
  ftimeoutTimerUuid : Option ℕ
  fifo : List PowerEvent
  armed : List (ℕ × Timer)
  nextUuid : ℕ
  out : List Out
  received : List QueuedRequest
  accepted : List QueuedRequest
  timeouts : List (ℕ × ℕ)

def sorted (l : List String) : List String := l.insertionSort (· ≤ ·)

def addTo (m : String) (l : List String) : List String := if m ∈ l then l else l ++ [m]

namespace Pending

def answer (p : Pending) (m : String) : Response → Pending
  | .ack => { p with acked := addTo m p.acked }
  | .nack => { p with nacked := addTo m p.nacked }

/-- The last missing ACK finishes the round, the first NACK at once. -/
def finishes (p : Pending) : Response → Bool
  | .ack => p.expected.all (· ∈ p.acked)
  | .nack => true

theorem answer_request (p : Pending) (m : String) (r : Response) :
    (p.answer m r).request = p.request := by
  cases r <;> rfl

theorem answer_targets (p : Pending) (m : String) (r : Response) :
    (p.answer m r).targets = p.targets := by
  cases r <;> rfl

theorem answer_expected (p : Pending) (m : String) (r : Response) :
    (p.answer m r).expected = p.expected := by
  cases r <;> rfl

theorem answer_round (p : Pending) (m : String) (r : Response) :
    (p.answer m r).round = p.round := by
  cases r <;> rfl

def noack (p : Pending) : List String :=
  p.expected.filter (fun m => m ∉ p.acked ∧ m ∉ p.nacked)

def ok (p : Pending) : Bool := p.noack = [] ∧ p.nacked = []

/-- The `slave_ack_status.ind` of a round that awaited ACKs. -/
def statusInd (p : Pending) (status : RoundStatus) : List Out :=
  if p.expected = [] then []
  else [.slaveAckStatus status p.request.machineName (sorted p.noack) (sorted p.nacked)]

def rsp (p : Pending) : Out :=
  .setStateRsp p.request.seq p.request.corrId p.request.src p.ok
    (if p.ok then none else some "one or more machines nacked or did not respond")

end Pending

namespace PowerSubsystem

def initial (localMachineName : String) : PowerSubsystem where
  localMachineName := localMachineName
  machinesState m := if m = localMachineName ∨ m = allMachines then some .resume else none
  registeredMachines := [localMachineName]
  requestQueue := []
  pending := none
  pendingTimerUuid := none
  ftimeoutTimerUuid := none
  fifo := []
  armed := []
  nextUuid := 0
  out := []
  received := []
  accepted := []
  timeouts := []

def publish (os : List Out) (s : PowerSubsystem) : PowerSubsystem := { s with out := s.out ++ os }

def cancelEvent (uuid : Option ℕ) (armed : List (ℕ × Timer)) : List (ℕ × Timer) :=
  armed.filter (fun a => some a.1 ≠ uuid)

def cancelPendingTimer (s : PowerSubsystem) : PowerSubsystem :=
  { s with armed := cancelEvent s.pendingTimerUuid s.armed, pendingTimerUuid := none }

def scheduleAckTimeout (s : PowerSubsystem) : PowerSubsystem :=
  let s := s.cancelPendingTimer
  { s with
    armed := s.armed ++ [(s.nextUuid, .ackTimeout)]
    pendingTimerUuid := some s.nextUuid
    nextUuid := s.nextUuid + 1 }

def scheduleFtimeoutRetry (s : PowerSubsystem) : PowerSubsystem :=
  { s with
    armed := cancelEvent s.ftimeoutTimerUuid s.armed ++ [(s.nextUuid, .fTimeout)]
    ftimeoutTimerUuid := some s.nextUuid
    nextUuid := s.nextUuid + 1 }

def resolveTargets (s : PowerSubsystem) (machineName : String) : List String :=
  if machineName = allMachines then sorted s.registeredMachines
  else if machineName = localMachine then [s.localMachineName]
  else [machineName]

def recorded (s : PowerSubsystem) (t : String) : PowerState := (s.machinesState t).getD .unknown

def lastQueuedState (s : PowerSubsystem) (target : String) : PowerState :=
  match s.requestQueue.reverse.find? (fun r => target ∈ s.resolveTargets r.machineName) with
  | some r => r.state
  | none => s.recorded target

def shouldEnqueue (s : PowerSubsystem) (machineName : String) (state : PowerState) : Bool :=
  let targets := s.resolveTargets machineName
  if s.requestQueue = [] then targets.any (fun t => s.recorded t ≠ state)
  else targets.any (fun t => s.lastQueuedState t ≠ state)

/-- The recorded states after `_apply_state_update`: ALL_MACHINES overwrites every entry there is. -/
def applyStateUpdate (s : PowerSubsystem) (machineName : String) (state : PowerState) :
    String → Option PowerState :=
  if machineName = allMachines then fun m => (s.machinesState m).map (fun _ => state)
  else fun m => if m ∈ s.resolveTargets machineName then some state else s.machinesState m

def involvesLocal (s : PowerSubsystem) (machineName : String) : Bool :=
  machineName = allMachines ∨ machineName = localMachine ∨ machineName = s.localMachineName

/-- `_finish_set_state_round` up to the point where it starts the next round. -/
def closeRound (status : RoundStatus) (p : Pending) (s : PowerSubsystem) : PowerSubsystem :=
  let s := { s with
    out := s.out ++ (p.statusInd status ++ [p.rsp])
    machinesState := s.applyStateUpdate p.request.machineName p.request.state
    pending := none
    requestQueue := s.requestQueue.tail }
  if !p.ok && s.involvesLocal p.request.machineName then s.scheduleFtimeoutRetry else s

/-- The targets of a round whose recorded state is not the requested one. -/
def changed (s : PowerSubsystem) (r : QueuedRequest) : List String :=
  (s.resolveTargets r.machineName).filter (fun t => s.recorded t ≠ r.state)

/-- `_process_next_queued` up to the point where it finishes the round or awaits ACKs. -/
def beginRound (r : QueuedRequest) (s : PowerSubsystem) : Pending × PowerSubsystem :=
  let p : Pending :=
    { request := r
      targets := s.resolveTargets r.machineName
      expected := if r.state = .resume then [] else s.changed r
      acked := []
      nacked := []
      round := s.nextUuid }
  (p, { s.publish ((s.changed r).map (.stateUpdate r.state)) with pending := some p })

/-- `_process_next_queued` and `_finish_set_state_round` call each other, each time with one request
less; the argument is the queue. -/
def processNextQueued : List QueuedRequest → PowerSubsystem → PowerSubsystem
  | [], s => s
  | r :: rest, s =>
    let (p, s) := s.beginRound r
    if p.expected = [] then processNextQueued rest (s.closeRound .complete p)
    else s.scheduleAckTimeout

def finishSetStateRound (status : RoundStatus) (p : Pending) (s : PowerSubsystem) :
    PowerSubsystem :=
  let s := s.closeRound status p
  processNextQueued s.requestQueue s

def rejection (r : QueuedRequest) (reason : String) : Out :=
  .setStateRsp r.seq r.corrId r.src false (some reason)

def reject (r : QueuedRequest) (reason : String) (s : PowerSubsystem) : PowerSubsystem :=
  { s with received := s.received ++ [r], out := s.out ++ [rejection r reason] }

def enqueue (r : QueuedRequest) (s : PowerSubsystem) : PowerSubsystem :=
  { s with
    received := s.received ++ [r]
    requestQueue := s.requestQueue ++ [r]
    accepted := s.accepted ++ [r] }

def handleSetState (state : PowerState) (machineName corrId src : String) (s : PowerSubsystem) :
    PowerSubsystem :=
  let r : QueuedRequest := ⟨machineName, state, corrId, src, s.received.length⟩
  if s.requestQueue.head?.map QueuedRequest.state = some .shutdown then
    s.reject r "shutdown in progress, cannot be interrupted"
  else if s.shouldEnqueue machineName state = false then
    s.reject r "duplicate of already-queued/current state for this target"
  else if s.requestQueue = [] then processNextQueued (s.enqueue r).requestQueue (s.enqueue r)
  else s.enqueue r

theorem handleSetState_cases (state : PowerState) (machineName corrId src : String)
    (s : PowerSubsystem) : ∃ r : QueuedRequest, r.seq = s.received.length ∧ r.state = state ∧
      r.machineName = machineName ∧
      ((∃ reason, s.handleSetState state machineName corrId src = s.reject r reason) ∨
        (s.requestQueue = [] ∧ s.handleSetState state machineName corrId src =
          processNextQueued (s.enqueue r).requestQueue (s.enqueue r)) ∨
        (s.requestQueue ≠ [] ∧ s.handleSetState state machineName corrId src = s.enqueue r)) := by
  refine ⟨⟨machineName, state, corrId, src, s.received.length⟩, rfl, rfl, rfl, ?_⟩
  unfold handleSetState
  dsimp only
  split
  · exact Or.inl ⟨_, rfl⟩
  · split
    · exact Or.inl ⟨_, rfl⟩
    · split
      · exact Or.inr (Or.inl ⟨by assumption, rfl⟩)
      · exact Or.inr (Or.inr ⟨by assumption, rfl⟩)

def handleGetMachineNames (corrId src : String) (s : PowerSubsystem) : PowerSubsystem :=
  s.publish [.getMachineNamesRsp corrId src (sorted s.registeredMachines)]

def recordAck (machineName : String) (response : Response) (s : PowerSubsystem) :
    PowerSubsystem :=
  match s.pending with
  | none => s
  | some p =>
    if machineName ∉ p.expected then s
    else
      let p := p.answer machineName response
      let s := { s with pending := some p }
      if p.finishes response then s.cancelPendingTimer.finishSetStateRound .complete p else s

def onAckTimeout (uuid : ℕ) (s : PowerSubsystem) : PowerSubsystem :=
  match s.pending with
  | none => s
  | some p =>
    let s := { s with pendingTimerUuid := none, timeouts := s.timeouts ++ [(uuid, p.round)] }
    s.finishSetStateRound .timeout p

def retryLocalConfirm (s : PowerSubsystem) : PowerSubsystem :=
  s.publish [.stateUpdate (s.recorded s.localMachineName) s.localMachineName]

def applyAddMachine (m : String) (s : PowerSubsystem) : PowerSubsystem :=
  if m ∈ s.registeredMachines then s
  else
    let s := { s with
      registeredMachines := s.registeredMachines ++ [m]
      machinesState := fun t =>
        if t = m then some ((s.machinesState m).getD .resume) else s.machinesState t }
    s.publish [.machineUpdate m true]

def applyRemoveMachine (m : String) (s : PowerSubsystem) : PowerSubsystem :=
  if m ∉ s.registeredMachines then s
  else
    let s := { s with registeredMachines := s.registeredMachines.erase m }
    s.publish [.machineUpdate m false]

/-- The branches of `smfn_ready`. -/
def handle : PowerEvent → PowerSubsystem → PowerSubsystem
  | .setState state m corrId src, s => s.handleSetState state m corrId src
  | .getMachineNames corrId src, s => s.handleGetMachineNames corrId src
  | .slaveAck m r, s => s.recordAck m r
  | .powerForceSlaveAck m r, s => s.recordAck m r
  | .powerAddMachine m, s => s.applyAddMachine m
  | .powerRemoveMachine m, s => s.applyRemoveMachine m
  | .powerAckTimeout uuid, s => s.onAckTimeout uuid
  | .powerFTimeout, s => { s with ftimeoutTimerUuid := none }.retryLocalConfirm

/-- Posts from outside, a scheduled post firing, and the object's thread taking the next event. -/
inductive Label
  | post (e : PowerEvent)
  | fire (uuid : ℕ)
  | dispatch
  deriving DecidableEq, Repr

/-- What a scheduled post puts into the fifo. -/
def fired (uuid : ℕ) : Timer → PowerEvent
  | .ackTimeout => .powerAckTimeout uuid
  | .fTimeout => .powerFTimeout

def step (s : PowerSubsystem) : Label → Option PowerSubsystem
  | .post (.powerAckTimeout _) => none
  | .post .powerFTimeout => none
  | .post e => some { s with fifo := s.fifo ++ [e] }
  | .fire uuid =>
    match s.armed.find? (fun a => a.1 = uuid) with
    | none => none
    | some (_, t) => some { s with
        armed := s.armed.filter (fun a => a.1 ≠ uuid)
        fifo := s.fifo ++ [fired uuid t] }
  | .dispatch =>
    match s.fifo with
    | [] => none
    | e :: rest => some (handle e { s with fifo := rest })

theorem step_cases {s s' : PowerSubsystem} {l : Label} (h : s.step l = some s') :
    (∃ e, l = .post e ∧ (∀ uuid, e ≠ .powerAckTimeout uuid) ∧ e ≠ .powerFTimeout ∧
      s' = { s with fifo := s.fifo ++ [e] }) ∨
    (∃ uuid t, l = .fire uuid ∧ (uuid, t) ∈ s.armed ∧ s' = { s with
      armed := s.armed.filter (fun a => a.1 ≠ uuid)
      fifo := s.fifo ++ [fired uuid t] }) ∨
    ∃ e rest, l = .dispatch ∧ s.fifo = e :: rest ∧ s' = handle e { s with fifo := rest } := by
  cases l with
  | post e =>
    left
    cases e <;> simp only [step, Option.some.injEq, reduceCtorEq] at h <;>
      exact ⟨_, rfl, by simp, by simp, h.symm⟩
  | fire uuid =>
    right
    left
    simp only [step] at h
    split at h
    · cases h
    · rename_i u t hf
      have hu : u = uuid := by simpa using List.find?_some hf
      exact ⟨uuid, t, rfl, hu ▸ List.mem_of_find?_eq_some hf, (Option.some.inj h).symm⟩
  | dispatch =>
    right
    right
    simp only [step] at h
    split at h
    · cases h
    · exact ⟨_, _, rfl, by assumption, (Option.some.inj h).symm⟩

end PowerSubsystem
end TelafSim.Power
