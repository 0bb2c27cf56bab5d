import TelafSim.ModemBridge
import TelafSim.Trace

/-!
# The bridge as an active object

The worker takes one event at a time from the queue, runs the chart to completion and performs the
effects it left one by one, while other threads post. `stop()` posts Stop, posts its own drain
fence and waits for it, clears the running flag and joins the worker, which first empties the
queue. A request enters when its event is queued; requests have distinct corrIds. `swallowed`
remembers the requests whose event was dropped without calling back.
-/

namespace TelafSim.ModemBridge

variable {δ : Type}

inductive StopPhase
  | idle
  | posted
  | draining
  | halted
  | returned
  deriving DecidableEq, Repr

structure BridgeAO (δ : Type) where
  hsm : Hsm BridgeState (BridgeEvent δ) (Bridge δ)
  queue : List (BridgeEvent δ)
  running : Bool
  stopPhase : StopPhase
  drained : Bool
  entered : List String
  invoked : List (String × Option (Envelope δ))
  swallowed : List String

def reqOf : BridgeEvent δ → Option String
  | .sendReq r => some r.envelope.corrId
  | _ => none

namespace BridgeAO

/-- After `start()`: the chart rests in Disconnected with Start in the queue. -/
def started (paId : String) : BridgeAO δ where
  hsm := ⟨some .disconnected, some .disconnected, false,
    ⟨paId, [], [], [], [], 0, ⟨0, true, true⟩, []⟩, []⟩
  queue := [.start]
  running := true
  stopPhase := .idle
  drained := false
  entered := []
  invoked := []
  swallowed := []

/-- What other threads may post: not what only the bridge itself does. The waiter 0 is `stop()`. -/
def isExternal : BridgeEvent δ → Bool
  | .start => false
  | .stop => false
  | .allSubAcked => false
  | .drain w => w ≠ 0
  | _ => true

def postFifo (e : BridgeEvent δ) (a : BridgeAO δ) : BridgeAO δ :=
  if a.running then { a with queue := a.queue ++ [e] } else a

def post (e : BridgeEvent δ) (a : BridgeAO δ) : BridgeAO δ :=
  if a.running then { a.postFifo e with entered := a.entered ++ (reqOf e).toList } else a

def todo (a : BridgeAO δ) : List (Effect δ) := a.hsm.ext.effects

def setTodo (es : List (Effect δ)) (a : BridgeAO δ) : BridgeAO δ :=
  { a with hsm := { a.hsm with ext := { a.hsm.ext with effects := es } } }

def perform (a : BridgeAO δ) : Effect δ → BridgeAO δ
  | .postFifo e =>
    if a.running then a.postFifo e else { a with swallowed := a.swallowed ++ (reqOf e).toList }
  | .invoke corrId reply => { a with invoked := a.invoked ++ [(corrId, reply)] }
  | .fulfil w => if w = 0 then { a with drained := true } else a
  | .deliver _ _ _ => a
  | .connectivity _ _ => a
  | .publish _ _ => a
  | .mqttSubscribe _ => a
  | .mqttUnsubscribe _ => a
  | .mqttDisconnect => a

inductive Label (δ : Type)
  | post (e : BridgeEvent δ)
  | take (w : World)
  | effect
  | stopCall
  | stopDrain
  | halt
  | join

variable (valid : String → δ → Bool)

/-- The worker takes `e` from the queue. -/
def takeEvent (w : World) (e : BridgeEvent δ) (rest : List (BridgeEvent δ)) (a : BridgeAO δ) :
    Option (BridgeAO δ) :=
  let h := { a.hsm with ext := { a.hsm.ext with world := w } }
  ((chart valid).dispatch (kMaxNest + 1) e h).map (fun h' => { a with
    hsm := h'
    queue := rest
    swallowed := a.swallowed ++
      if a.hsm.state = some .shuttingDown then (reqOf e).toList else [] })

def step (a : BridgeAO δ) : Label δ → Option (BridgeAO δ)
  | .post e =>
    if isExternal e ∧ (reqOf e).all (· ∉ a.entered) then some (a.post e) else none
  | .take w =>
    match a.todo, a.queue with
    | [], e :: rest => a.takeEvent valid w e rest
    | _, _ => none
  | .effect =>
    match a.todo with
    | [] => none
    | f :: fs => some ((a.setTodo fs).perform f)
  | .stopCall =>
    if a.running ∧ a.stopPhase = .idle then some { a.postFifo .stop with stopPhase := .posted }
    else none
  | .stopDrain =>
    if a.stopPhase = .posted then some { a.postFifo (.drain 0) with stopPhase := .draining }
    else none
  | .halt =>
    if a.stopPhase = .draining ∧ a.drained then
      some { a with running := false, stopPhase := .halted }
    else none
  | .join =>
    if a.stopPhase = .halted ∧ a.queue = [] ∧ a.todo = [] then
      some { a with stopPhase := .returned }
    else none

/-- No request is taken from the queue once the chart has entered ShuttingDown. -/
def notSwallowing (a : BridgeAO δ) : Label δ → Bool
  | .take _ => a.hsm.state ≠ some .shuttingDown || (a.queue.head?.bind reqOf).isNone
  | _ => true

end BridgeAO
end TelafSim.ModemBridge
