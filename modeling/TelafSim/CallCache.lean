import TelafSim.EcallWire

/-!
# The eCall cache of the platform adaptor

`SimulaCallManager` keeps one `SimulaCall` for each phone in `calls_`. Two threads write to it
through `findOrCreateCall_`: its own, when it takes a CallStateEvt from the fifo in Ready, and the
bridge's, when the response to a start_ecall comes. Only the search in the map is made under the
lock; the call that is replaced is ended, and the state of the new one is set, after the lock is
released. Between the modem and the adaptor there are two streams, the responses and the
indications, which keep their own order and nothing else; a message may be lost.

The messages taken in, and a log of what happens to the calls, are kept for the statements only.
-/

namespace TelafSim.PaCall

open Ecall (WireCall EcallManagerAO)

inductive CallState
  | idle
  | active
  | onHold
  | dialing
  | incoming
  | waiting
  | alerting
  | ended
  deriving DecidableEq, Repr

inductive CallDirection
  | incoming
  | outgoing
  deriving DecidableEq, Repr

def wireToCallState : Ecall.CallState → CallState
  | .dialing => .dialing
  | .alerting => .alerting
  | .active => .active
  | .ended => .ended

def wireToCallDirection : Ecall.Direction → CallDirection
  | .mt => .incoming
  | .mo => .outgoing

/-- The constant part of a call object; `id` tells it from other objects. -/
structure SimulaCall where
  id : ℕ
  phoneId : ℤ
  callIndex : ℕ
  direction : CallDirection
  remotePartyNumber : String
  deriving DecidableEq

/-- A thread that has released the lock: the message it handles, the call it has found or created,
and the call it has yet to end. -/
structure Running where
  msg : WireCall
  call : SimulaCall
  stale : Option SimulaCall

inductive AoEvent
  | callStateEvt (c : WireCall)
  | readinessEvt (status : Option String)
  | bridgeConnectivityChanged (operational : Bool)
  deriving DecidableEq

/-- Why a call is set to CALL_ENDED: a message with an index says so, or a call with an index has
replaced it. -/
inductive EndCause
  | message (callIndex : ℕ)
  | replacement (callIndex : ℕ)
  deriving DecidableEq

inductive Happening
  | replaced (phoneId : ℤ) (old new : ℕ)
  | ended (callIndex : ℕ) (cause : EndCause)
  deriving DecidableEq

structure SimulaCallManager where
  ready : Bool
  fifo : List AoEvent
  calls : ℤ → Option SimulaCall
  states : ℕ → CallState
  nextId : ℕ
  ao : Option Running
  bridge : Option Running
  indsTaken : List WireCall
  rspsHandled : List WireCall
  log : List Happening

namespace SimulaCallManager

def started : SimulaCallManager where
  ready := false
  fifo := []
  calls := fun _ => none
  states := fun _ => .idle
  nextId := 0
  ao := none
  bridge := none
  indsTaken := []
  rspsHandled := []
  log := []

def postFifo (e : AoEvent) (m : SimulaCallManager) : SimulaCallManager :=
  { m with fifo := m.fifo ++ [e] }

def getCallState (m : SimulaCallManager) (call : SimulaCall) : CallState := m.states call.id

def setCallState (call : SimulaCall) (state : CallState) (cause : EndCause)
    (m : SimulaCallManager) : SimulaCallManager :=
  { m with
    states := Function.update m.states call.id state
    log := m.log ++ if state = .ended then [.ended call.callIndex cause] else [] }

def createCall (c : WireCall) (m : SimulaCallManager) : SimulaCall × SimulaCallManager :=
  let call : SimulaCall :=
    { id := m.nextId
      phoneId := c.phoneId
      callIndex := c.callIndex
      direction := wireToCallDirection c.direction
      remotePartyNumber := c.remotePartyNumber }
  (call, { m with
    calls := Function.update m.calls c.phoneId (some call)
    states := Function.update m.states call.id .idle
    nextId := m.nextId + 1 })

def findOrCreateCall (c : WireCall) (m : SimulaCallManager) : Running × SimulaCallManager :=
  match m.calls c.phoneId with
  | none => (⟨c, (m.createCall c).1, none⟩, (m.createCall c).2)
  | some call =>
    if call.callIndex = c.callIndex then (⟨c, call, none⟩, m)
    else
      (⟨c, (m.createCall c).1, if m.getCallState call ≠ .ended then some call else none⟩,
        { (m.createCall c).2 with
          log := m.log ++ [.replaced c.phoneId call.callIndex c.callIndex] })

/-- What is left to a thread: the stale call is ended, then the state of the call is set. -/
def proceed (r : Running) (m : SimulaCallManager) : Option Running × SimulaCallManager :=
  match r.stale with
  | some stale =>
    (some { r with stale := none },
      m.setCallState stale .ended (.replacement r.call.callIndex))
  | none =>
    (none, m.setCallState r.call (wireToCallState r.msg.callState) (.message r.msg.callIndex))

/-- The response to a start_ecall, on the bridge's thread. -/
def handleStartRsp (c : WireCall) (m : SimulaCallManager) : SimulaCallManager :=
  { (m.findOrCreateCall c).2 with
    bridge := some (m.findOrCreateCall c).1
    rspsHandled := m.rspsHandled ++ [c] }

def handleCallState (c : WireCall) (m : SimulaCallManager) : SimulaCallManager :=
  { (m.findOrCreateCall c).2 with
    ao := some (m.findOrCreateCall c).1
    indsTaken := m.indsTaken ++ [c] }

def handle (m : SimulaCallManager) : AoEvent → SimulaCallManager
  | .callStateEvt c => if m.ready then m.handleCallState c else m
  | .readinessEvt status =>
    if m.ready then
      if status = some "UNAVAILABLE" then { m with ready := false } else m
    else if status = some "AVAILABLE" then { m with ready := true } else m
  | .bridgeConnectivityChanged operational =>
    if m.ready ∧ operational = false then { m with ready := false } else m

end SimulaCallManager

/-- The modem, the messages under way and the adaptor. -/
structure CallNet where
  modem : EcallManagerAO
  rsps : List WireCall
  inds : List WireCall
  pa : SimulaCallManager

namespace CallNet

def started (isNgEcallDevice : Bool) : CallNet where
  modem := .ready isNgEcallDevice
  rsps := []
  inds := []
  pa := .started

/-- The bridge's thread takes messages from the streams and posts events; the manager's thread
takes events from its fifo; both go on with what they have begun. -/
inductive Label
  | modem (l : EcallManagerAO.Label)
  | startRsp
  | loseRsp
  | callStateInd
  | loseInd
  | readinessInd (status : Option String)
  | connectivity (operational : Bool)
  | dispatch
  | proceedAo
  | proceedBridge

def step (n : CallNet) : Label → Option CallNet
  | .modem l =>
    (n.modem.step l).map (fun modem =>
      let new := modem.published.drop n.modem.published.length
      { n with
        modem := modem
        rsps := n.rsps ++ new.filterMap Ecall.Publication.startRsp
        inds := n.inds ++ new.filterMap Ecall.Publication.callStateInd })
  | .startRsp =>
    match n.rsps, n.pa.bridge with
    | c :: rest, none => some { n with rsps := rest, pa := n.pa.handleStartRsp c }
    | _, _ => none
  | .loseRsp => some { n with rsps := n.rsps.tail }
  | .callStateInd =>
    match n.inds, n.pa.bridge with
    | c :: rest, none => some { n with inds := rest, pa := n.pa.postFifo (.callStateEvt c) }
    | _, _ => none
  | .loseInd => some { n with inds := n.inds.tail }
  | .readinessInd status => some { n with pa := n.pa.postFifo (.readinessEvt status) }
  | .connectivity operational =>
    some { n with pa := n.pa.postFifo (.bridgeConnectivityChanged operational) }
  | .dispatch =>
    match n.pa.fifo, n.pa.ao with
    | e :: rest, none => some { n with pa := { n.pa with fifo := rest }.handle e }
    | _, _ => none
  | .proceedAo =>
    n.pa.ao.map (fun r => { n with pa := { (n.pa.proceed r).2 with ao := (n.pa.proceed r).1 } })
  | .proceedBridge =>
    n.pa.bridge.map (fun r =>
      { n with pa := { (n.pa.proceed r).2 with bridge := (n.pa.proceed r).1 } })

end CallNet

end TelafSim.PaCall
