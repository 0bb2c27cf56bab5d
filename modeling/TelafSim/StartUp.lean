import TelafSim.Trace

/-!
# Start-up of the miros active objects

The chart Off, Operating (Starting, Ready), Stopping that `DataConnectionAO`, `PowerSubsystem` and
`EcallManagerAO` share. While it is in Starting the active object defers messages; entering Ready
it calls `recall()`, which moves the oldest deferred event to the end of the fifo.

The three objects differ in the signals of their own and in what `smfn_operating` does with them.
Events carry the number of their arrival. `held` remembers the defer queue and the fifo as they
were when Ready was entered, and so the messages that reached the object in Starting.
-/

namespace TelafSim.StartUp

inductive Signal (ω μ : Type)
  | start
  | stop
  | resubscribe
  | startingDone
  | messageReceived (m : μ)
  | own (o : ω)
  deriving DecidableEq, Repr

structure Posted (ω μ : Type) where
  seq : ℕ
  sig : Signal ω μ
  deriving DecidableEq, Repr

inductive Disposition
  | defer
  | drop
  deriving DecidableEq, Repr

/-- What `smfn_operating` does with the object's own signals. In Ready each of them has a branch. -/
structure StartUpChart (ω : Type) where
  operating : ω → Disposition

inductive Phase
  | off
  | starting
  | ready
  | stopping
  deriving DecidableEq, Repr

structure AO (ω μ : Type) where
  phase : Phase
  fifo : List (Posted ω μ)
  deferQueue : List (Posted ω μ)
  nextSeq : ℕ
  dispatched : List (Posted ω μ)
  held : Option (List (Posted ω μ) × List (Posted ω μ))
  deriving DecidableEq

namespace AO

variable {ω μ : Type}

def initial : AO ω μ := ⟨.off, [], [], 0, [], none⟩

def postFifo (sig : Signal ω μ) (ao : AO ω μ) : AO ω μ :=
  { ao with fifo := ao.fifo ++ [⟨ao.nextSeq, sig⟩], nextSeq := ao.nextSeq + 1 }

def defer (e : Posted ω μ) (ao : AO ω μ) : AO ω μ :=
  { ao with deferQueue := ao.deferQueue ++ [e] }

def recallOldest (ao : AO ω μ) : AO ω μ :=
  match ao.deferQueue with
  | [] => ao
  | e :: rest => { ao with fifo := ao.fifo ++ [e], deferQueue := rest }

theorem recallOldest_eq (ao : AO ω μ) : ao.recallOldest =
    { ao with fifo := ao.fifo ++ ao.deferQueue.take 1, deferQueue := ao.deferQueue.tail } := by
  obtain ⟨_, _, d, _, _, _⟩ := ao
  cases d <;> simp [recallOldest]

def enterStarting (ao : AO ω μ) : AO ω μ := postFifo .startingDone { ao with phase := .starting }

def enterReady (ao : AO ω μ) : AO ω μ :=
  recallOldest { ao with phase := .ready, held := some (ao.deferQueue, ao.fifo) }

def enterStopping (ao : AO ω μ) : AO ω μ := { ao with phase := .stopping }

/-- `_dispatch_message`. -/
def dispatchMessage (e : Posted ω μ) (ao : AO ω μ) : AO ω μ :=
  { ao with dispatched := ao.dispatched ++ [e] }

variable (C : StartUpChart ω)

def smfnOff (e : Posted ω μ) (ao : AO ω μ) : AO ω μ :=
  match e.sig with
  | .start => ao.enterStarting
  | _ => ao

def smfnOperating (e : Posted ω μ) (ao : AO ω μ) : AO ω μ :=
  match e.sig with
  | .stop => ao.enterStopping
  | .messageReceived _ => ao.defer e
  | .own o => match C.operating o with
    | .defer => ao.defer e
    | .drop => ao
  | _ => ao

def smfnStarting (e : Posted ω μ) (ao : AO ω μ) : AO ω μ :=
  match e.sig with
  | .startingDone => ao.enterReady
  | _ => smfnOperating C e ao

def smfnReady (e : Posted ω μ) (ao : AO ω μ) : AO ω μ :=
  match e.sig with
  | .messageReceived _ => ao.dispatchMessage e
  | .resubscribe => ao
  | .own _ => ao
  | _ => smfnOperating C e ao

def smfnStopping (_ : Posted ω μ) (ao : AO ω μ) : AO ω μ := ao

def handle (e : Posted ω μ) (ao : AO ω μ) : AO ω μ :=
  match ao.phase with
  | .off => smfnOff e ao
  | .starting => smfnStarting C e ao
  | .ready => smfnReady C e ao
  | .stopping => smfnStopping e ao

/-- Posts from outside, and the object's thread taking the next event. -/
inductive Label (ω μ : Type)
  | post (sig : Signal ω μ)
  | dispatch
  deriving DecidableEq, Repr

/-- Only the entry of `smfn_starting` posts StartingDone. -/
def step (ao : AO ω μ) : Label ω μ → Option (AO ω μ)
  | .post .startingDone => none
  | .post sig => some (ao.postFifo sig)
  | .dispatch =>
    match ao.fifo with
    | [] => none
    | e :: rest => some (handle C e { ao with fifo := rest })

def isMessage (e : Posted ω μ) : Bool :=
  match e.sig with
  | .messageReceived _ => true
  | _ => false

def messages (l : List (Posted ω μ)) : List (Posted ω μ) := l.filter isMessage

/-- The messages that reached the object in Starting, deferred or still in the fifo. -/
def reached (ao : AO ω μ) : List (Posted ω μ) :=
  match ao.held with
  | none => []
  | some (d, f) => messages (d ++ f)

def among (l : List (Posted ω μ)) (e : Posted ω μ) : Bool := e.seq ∈ l.map Posted.seq

/-- Those of them that were dispatched, in the order of dispatch. -/
def delivered (ao : AO ω μ) : List (Posted ω μ) :=
  ao.dispatched.filter (among ao.reached)

/-- Each message that reached the object in Starting was dispatched exactly once, and they were
dispatched in the order of their arrival. -/
def DeliveredInOrder (ao : AO ω μ) : Prop :=
  ao.delivered.Perm ao.reached ∧ ao.delivered.Pairwise (fun a b => a.seq < b.seq)

/-- What the single `recall()` gets right: no message stands behind the oldest deferred event, and
if that event is a message none waits in the fifo. -/
def RecallSuffices (d f : List (Posted ω μ)) : Prop :=
  messages d.tail = [] ∧ (messages (d.take 1) = [] ∨ messages f = [])

/-- The condition on a step that enters Ready. -/
def Recallable (ao : AO ω μ) (l : Label ω μ) : Prop :=
  ∀ e rest, l = .dispatch → ao.phase = .starting → ao.fifo = e :: rest → e.sig = .startingDone →
    RecallSuffices ao.deferQueue rest

end AO

inductive DataConnectionSignal
  | forceCallDrop
  | forceThroughput
  | forceQos
  | forceHwAccel
  | forceThrottle
  | forceDns
  | networkRatChanged
  | throughputTick
  | callConnectTimeout
  | callDisconnectTimeout
  deriving DecidableEq, Repr

def dataConnectionAO : StartUpChart DataConnectionSignal := ⟨fun _ => .drop⟩

inductive PowerSignal
  | powerAddMachine
  | powerRemoveMachine
  | powerForceSlaveAck
  | powerSuspendSystem
  | powerResumeSystem
  | powerAckTimeout
  | powerFTimeout
  deriving DecidableEq, Repr

def powerSubsystem : StartUpChart PowerSignal where
  operating
    | .powerAckTimeout => .drop
    | .powerFTimeout => .drop
    | _ => .defer

inductive EcallManagerSignal
  | sessionStart
  | sessionHangup
  | sessionHangupFromPsap
  | sessionMsdPull
  | hlapTimerExpiry
  | forceTimerFailure
  | redialTimerExpiry
  | forceRedialMode
  deriving DecidableEq, Repr

def ecallManagerAO : StartUpChart EcallManagerSignal := ⟨fun _ => .drop⟩

end TelafSim.StartUp
