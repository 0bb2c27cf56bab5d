import TelafSim.CallPool
import TelafSim.StartUp

/-!
# The bearer of the modem's calls

`DataServingSystemAO` and `DataConnectionAO` of `sml/mpss/data` with what the network's RAT means to
the calls. The serving system owns the RAT and tells the connections of a change through their fifo;
a call that comes up reads the RAT of the serving system itself. Each object has a thread of its
own, and a handler that deals with the other object does so between two of that object's steps: the
serving system changes the RAT and tells of it later, a connect timer reads the RAT and publishes
later.

The connections of `Mpss` are used as they are, with the bearers beside them; the events that their
handlers post go to the one fifo. `announced` is recorded for the statements only: the indication
that was published last for each profile.
-/

namespace TelafSim.Mpss

open Data StartUp

/-- `RAT_TO_BEARER_TECH`, with the default of its readers. -/
def ratToBearerTech : String → String
  | "GSM" => "GSM"
  | "WCDMA" => "WCDMA"
  | "LTE" => "LTE"
  | "NR5G" => "BEARER_TECH_5G"
  | "CDMA_1X" => "CDMA_1X"
  | "CDMA_EVDO" => "EVDO_REV0"
  | _ => "UNKNOWN"

structure ForceServState where
  serviceState : Option String
  networkRat : Option String
  drbStatus : Option String
  deriving DecidableEq, Repr

structure ServState where
  serviceState : String
  networkRat : String
  drbStatus : String
  deriving DecidableEq, Repr

inductive ServEvent
  | start
  | startingDone
  | stop
  | forceServState (data : ForceServState)
  deriving DecidableEq, Repr

structure DataServingSystemAO where
  phase : Phase
  state : ServState
  fifo : List ServEvent
  /-- The call of `on_rat_changed` that the handler under way has still to make. -/
  telling : Option String
  published : List ServState

namespace DataServingSystemAO

def initial : DataServingSystemAO where
  phase := .off
  state := ⟨"IN_SERVICE", "LTE", "DORMANT"⟩
  fifo := []
  telling := none
  published := []

def postFifo (e : ServEvent) (s : DataServingSystemAO) : DataServingSystemAO :=
  { s with fifo := s.fifo ++ [e] }

def publishServState (s : DataServingSystemAO) : DataServingSystemAO :=
  { s with published := s.published ++ [s.state] }

def applyForceServState (data : ForceServState) (s : DataServingSystemAO) :
    DataServingSystemAO :=
  let ratChanged := data.networkRat.any (· ≠ s.state.networkRat)
  let state : ServState :=
    ⟨data.serviceState.getD s.state.serviceState, data.networkRat.getD s.state.networkRat,
      data.drbStatus.getD s.state.drbStatus⟩
  { { s with state := state }.publishServState with
    telling := if ratChanged then some state.networkRat else none }

def handle (e : ServEvent) (s : DataServingSystemAO) : DataServingSystemAO :=
  match s.phase, e with
  | .off, .start => { s with phase := .starting }.postFifo .startingDone
  | .starting, .startingDone => { s with phase := .ready }.publishServState
  | .starting, .stop => { s with phase := .stopping }
  | .ready, .forceServState data => s.applyForceServState data
  | .ready, .stop => { s with phase := .stopping }
  | _, _ => s

end DataServingSystemAO

inductive ConnEvent
  | start
  | startingDone
  | stop
  | call (e : MpssEvent)
  | networkRatChanged (rat : String)
  | forceDns (profileId : ℤ) (patch : Option (String → String))

structure Announced where
  data : CallState
  bearerTech : Option String
  deriving DecidableEq

structure BearerConnections where
  phase : Phase
  ao : DataConnectionAO
  /-- The field of each session. -/
  bearerTech : ℤ → Option String
  fifo : List ConnEvent
  deferQueue : List MpssEvent
  /-- The connect timer that is being handled, and the RAT that was read for it. -/
  connecting : Option (ℤ × String)
  announced : ℤ → Option Announced

namespace BearerConnections

def initial (timing : CallTimingPreset) (stem : String) (poolSize : ℕ)
    (addrInfo : String → Option String) : BearerConnections where
  phase := .off
  ao := .start timing stem poolSize addrInfo
  bearerTech := fun _ => none
  fifo := []
  deferQueue := []
  connecting := none
  announced := fun _ => none

def postFifo (e : ConnEvent) (c : BearerConnections) : BearerConnections :=
  { c with fifo := c.fifo ++ [e] }

def publishCallState (c : BearerConnections) : Message → BearerConnections
  | .ind data => { c with
      announced := Function.update c.announced data.profileId
        (some ⟨data, c.bearerTech data.profileId⟩) }
  | .rsp _ _ => c

/-- A handler of the sessions has run: its bearers are in place when it publishes. -/
def settle (r : DataConnectionAO × List Message) (bearerTech : ℤ → Option String)
    (c : BearerConnections) : BearerConnections :=
  r.2.foldl publishCallState { c with
    ao := { r.1 with fifo := [] }
    bearerTech := bearerTech
    fifo := c.fifo ++ r.1.fifo.map .call }

/-- The field `bearer_tech`: none in a new session, set by `connected`, and gone with
`disconnected` and `force_drop`. -/
def bearerAfter (rat : String) (m : DataConnectionAO) (bearerTech : ℤ → Option String) :
    MpssEvent → ℤ → Option String
  | .messageReceived q =>
    if q.kind = .startDataCall ∧ m.opens q then Function.update bearerTech q.profileId none
    else bearerTech
  | .timeout .connect p =>
    if m.status p = some .connecting then
      Function.update bearerTech p (some (ratToBearerTech rat))
    else bearerTech
  | .timeout .disconnect p =>
    if m.status p = none then bearerTech else Function.update bearerTech p none
  | .forceCallDrop p =>
    if m.status p = none then bearerTech else Function.update bearerTech p none

def handleCall (rat : String) (e : MpssEvent) (c : BearerConnections) : BearerConnections :=
  c.settle (c.ao.dispatch e) (bearerAfter rat c.ao c.bearerTech e)

def applyNetworkRatChanged (rat : String) (c : BearerConnections) : BearerConnections :=
  c.settle c.ao.applyNetworkRatChanged (fun p =>
    if c.ao.status p = some .connected then some (ratToBearerTech rat) else c.bearerTech p)

def applyForceDns (p : ℤ) (patch : Option (String → String)) (c : BearerConnections) :
    BearerConnections :=
  c.settle (c.ao.applyForceDns p patch) c.bearerTech

def recallOldest (c : BearerConnections) : BearerConnections :=
  match c.deferQueue with
  | [] => c
  | e :: rest => { c with fifo := c.fifo ++ [.call e], deferQueue := rest }

/-- `rat` is what the serving system has at the moment. -/
def handleReady (rat : String) (c : BearerConnections) : ConnEvent → BearerConnections
  | .call (.timeout .connect p) =>
    if c.ao.status p = some .connecting then { c with connecting := some (p, rat) } else c
  | .call e => c.handleCall rat e
  | .networkRatChanged rat => c.applyNetworkRatChanged rat
  | .forceDns p patch => c.applyForceDns p patch
  | .stop => { c with phase := .stopping, ao := { c.ao with sessions := ∅ } }
  | _ => c

def handleStarting (c : BearerConnections) : ConnEvent → BearerConnections
  | .startingDone => { c with phase := .ready }.recallOldest
  | .call (.messageReceived q) => { c with deferQueue := c.deferQueue ++ [.messageReceived q] }
  | .stop => { c with phase := .stopping, ao := { c.ao with sessions := ∅ } }
  | _ => c

def handle (rat : String) (e : ConnEvent) (c : BearerConnections) : BearerConnections :=
  match c.phase with
  | .off =>
    match e with
    | .start => { c with phase := .starting }.postFifo .startingDone
    | _ => c
  | .starting => c.handleStarting e
  | .ready => c.handleReady rat e
  | .stopping => c

end BearerConnections

structure RatSystem where
  serving : DataServingSystemAO
  connections : BearerConnections

namespace RatSystem

def initial (timing : CallTimingPreset) (stem : String) (poolSize : ℕ)
    (addrInfo : String → Option String) : RatSystem :=
  ⟨.initial, .initial timing stem poolSize addrInfo⟩

inductive Label
  | startServing
  | stopServing
  | forceServState (data : ForceServState)
  | startConnections
  | stopConnections
  | handleMessage (q : Request)
  | forceCallDrop (profileId : ℤ)
  | forceDns (profileId : ℤ) (patch : Option (String → String))
  | elapse (profileId : ℤ)
  | serving
  | connections

def postServing (e : ServEvent) (s : RatSystem) : RatSystem :=
  { s with serving := s.serving.postFifo e }

def postConnections (e : ConnEvent) (s : RatSystem) : RatSystem :=
  { s with connections := s.connections.postFifo e }

/-- The serving system's thread: `on_rat_changed` posts to the connections. -/
def stepServing (s : RatSystem) : Option RatSystem :=
  match s.serving.telling with
  | some rat =>
    some ({ s with serving := { s.serving with telling := none } }.postConnections
      (.networkRatChanged rat))
  | none =>
    match s.serving.fifo with
    | [] => none
    | e :: rest => some { s with serving := { s.serving with fifo := rest }.handle e }

/-- The connections' thread: the rest of a connect timer, or the next event. -/
def stepConnections (s : RatSystem) : Option RatSystem :=
  match s.connections.connecting with
  | some (p, rat) => some { s with
      connections := { s.connections with connecting := none }.handleCall rat
        (.timeout .connect p) }
  | none =>
    match s.connections.fifo with
    | [] => none
    | e :: rest => some { s with
        connections := { s.connections with fifo := rest }.handle s.serving.state.networkRat e }

def step (s : RatSystem) : Label → Option RatSystem
  | .startServing => some (s.postServing .start)
  | .stopServing => some (s.postServing .stop)
  | .forceServState data => some (s.postServing (.forceServState data))
  | .startConnections => some (s.postConnections .start)
  | .stopConnections => some (s.postConnections .stop)
  | .handleMessage q => some (s.postConnections (.call (.messageReceived q)))
  | .forceCallDrop p => some (s.postConnections (.call (.forceCallDrop p)))
  | .forceDns p patch => some (s.postConnections (.forceDns p patch))
  | .elapse p => (s.connections.ao.elapse p).map (fun m => { s with
      connections := s.connections.settle (m, []) s.connections.bearerTech })
  | .serving => s.stepServing
  | .connections => s.stepConnections

def Quiet (s : RatSystem) : Prop :=
  s.serving.fifo = [] ∧ s.serving.telling = none ∧ s.connections.fifo = [] ∧
    s.connections.connecting = none

end RatSystem

end TelafSim.Mpss
