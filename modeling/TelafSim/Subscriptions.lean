import TelafSim.MqttLink

/-!
# The subscriptions of the data subsystem

`DataSubsystem` of `sml/mpss/data` with the three active objects that it starts, under the MQTT
client: which topics they subscribe on which broker session. The four objects have one chart,
Off, Operating with Starting and Ready, and Stopping; they differ in what their entry actions do.
Each has a thread and a fifo of its own, and a handler does one call at a time: between two of them
the link may go down and come back, and other objects may post. Messages, forced actions and what
the objects publish change no subscription and are left out; any thread may post a Publish to the
client.
-/

namespace TelafSim.Subscriptions

open Mqtt

inductive Ao
  | dataSubsystem
  | servingSystem
  | profile
  | connection
  deriving DecidableEq, Repr

/-- In start order. -/
def subAos : List Ao := [.servingSystem, .profile, .connection]

def aos : List Ao := .dataSubsystem :: subAos

theorem mem_aos (ao : Ao) : ao ∈ aos := by
  cases ao <;> decide

inductive AoEvent
  | start
  | startingDone
  | resubscribe
  | stop
  deriving DecidableEq, Repr

/-- Operating is left at once for Starting. -/
inductive AoState
  | off
  | starting
  | ready
  | stopping
  deriving DecidableEq, Repr

inductive Act
  | post (ao : Ao) (e : AoEvent)
  | subscribe (topic : String)
  | unsubscribe (topic : String)
  deriving DecidableEq, Repr

/-- The keys of the handler mappings; those of the data subsystem are the topics of its action
dispatcher. They are subscribed in the order of the mapping, where the source iterates a
frozenset. -/
def ownedTopics : Ao → List String
  | .dataSubsystem =>
    ["ctrl/cmd/action/data/force_serv_state", "ctrl/cmd/action/data/force_roaming",
      "ctrl/cmd/action/data/force_nr_icon_type", "ctrl/cmd/action/data/force_call_drop",
      "ctrl/cmd/action/data/force_throughput", "ctrl/cmd/action/data/force_qos",
      "ctrl/cmd/action/data/force_hw_accel", "ctrl/cmd/action/data/force_throttle",
      "ctrl/cmd/action/data/force_dns"]
  | .servingSystem =>
    ["mp/req/data/request_service_status", "mp/req/data/request_roaming_status",
      "mp/req/data/request_nr_icon_type", "mp/req/data/make_dormant"]
  | .profile =>
    ["mp/req/data/query_profile", "mp/req/data/request_profile_list",
      "mp/req/data/create_profile", "mp/req/data/modify_profile", "mp/req/data/delete_profile",
      "mp/req/data/get_default_profile", "mp/req/data/set_default_profile"]
  | .connection =>
    ["mp/req/data/start_data_call", "mp/req/data/stop_data_call", "mp/req/data/list_data_call",
      "mp/req/data/request_data_call_bitrate", "mp/req/data/set_throughput_interval",
      "mp/req/data/request_throughput_info", "mp/req/data/request_throttle_status"]

def subscribeOwned (ao : Ao) : List Act := (ownedTopics ao).map .subscribe

def doStart : Ao → List Act
  | .dataSubsystem => subAos.map (.post · .start) ++ subscribeOwned .dataSubsystem
  | ao => subscribeOwned ao

def doResubscribe : Ao → List Act
  | .dataSubsystem => subAos.map (.post · .resubscribe) ++ subscribeOwned .dataSubsystem
  | ao => subscribeOwned ao

/-- `_do_stop`. Only the serving system is given an `unsubscribe_fn`. -/
def doStop : Ao → List Act
  | .dataSubsystem =>
    (ownedTopics .dataSubsystem).map .unsubscribe ++ subAos.reverse.map (.post · .stop)
  | .servingSystem => (ownedTopics .servingSystem).map .unsubscribe
  | _ => []

structure Chart where
  state : AoState
  fifo : List AoEvent
  /-- What the handler under way has still to do. -/
  job : Option (List Act)

namespace Chart

def initial : Chart := ⟨.off, [], none⟩

def postFifo (e : AoEvent) (c : Chart) : Chart := { c with fifo := c.fifo ++ [e] }

/-- The state handlers: the state an event leads to and what is done on the way. An event with no
case is dropped, Resubscribe by the case of Operating that writes to the log. -/
def react (ao : Ao) : AoState → AoEvent → Option (AoState × List Act)
  | .off, .start => some (.starting, doStart ao)
  | .starting, .startingDone => some (.ready, [])
  | .ready, .resubscribe => some (.ready, doResubscribe ao)
  | .starting, .stop => some (.stopping, doStop ao)
  | .ready, .stop => some (.stopping, doStop ao)
  | _, _ => none

def handle (ao : Ao) (e : AoEvent) (c : Chart) : Chart :=
  match react ao c.state e with
  | some (state, job) => { c with state := state, job := some job }
  | none => c

def finish (c : Chart) : Chart :=
  { c with
    fifo := if c.state = .starting then c.fifo ++ [.startingDone] else c.fifo
    job := none }

end Chart

/-- `link` is the broker session, `subscribed` what the broker knows of it. -/
structure System where
  client : MqttClient
  dataSubsystem : Chart
  servingSystem : Chart
  profile : Chart
  connection : Chart
  link : Bool
  subscribed : List String

/-- The entry of `DataSubsystem` in the client's list. -/
def dataEntry : Subsystem := ⟨"DataSubsystem", true⟩

/-- What a call of the client posts to the data subsystem. -/
def received : SubCall → Option AoEvent
  | .start ds => if ds = dataEntry then some .start else none
  | .resubscribe ds => if ds = dataEntry then some .resubscribe else none
  | .stop ds => if ds = dataEntry then some .stop else none
  | .handleMessage _ _ => none

namespace System

def initial (connectTimeoutMs : ℤ) (before after : List Subsystem) : System where
  client := .initial connectTimeoutMs (before ++ dataEntry :: after)
  dataSubsystem := .initial
  servingSystem := .initial
  profile := .initial
  connection := .initial
  link := false
  subscribed := []

def chart (s : System) : Ao → Chart
  | .dataSubsystem => s.dataSubsystem
  | .servingSystem => s.servingSystem
  | .profile => s.profile
  | .connection => s.connection

def setChart (ao : Ao) (c : Chart) (s : System) : System :=
  match ao with
  | .dataSubsystem => { s with dataSubsystem := c }
  | .servingSystem => { s with servingSystem := c }
  | .profile => { s with profile := c }
  | .connection => { s with connection := c }

def postTo (ao : Ao) (e : AoEvent) (s : System) : System :=
  s.setChart ao ((s.chart ao).postFifo e)

/-- What a callback of the MQTT library tells of the broker session: a CONNACK that accepts begins
one, and the broker forgets its subscriptions when it ends. -/
def heedLink (l : MqttClient.Label) (s : System) : System :=
  match l with
  | .onConnect rc => { s with link := s.link || rc = 0 }
  | .onDisconnect _ => { s with link := false, subscribed := [] }
  | _ => s

def stepClient (l : MqttClient.Label) (s : System) : Option System :=
  (s.client.step l).map (fun m =>
    ((m.calls.drop s.client.calls.length).filterMap received).foldl
      (fun s e => s.postTo .dataSubsystem e) { s.heedLink l with client := m })

/-- `subscribe` and `unsubscribe` reach the broker when there is a session. -/
def act : Act → System → System
  | .post ao e, s => s.postTo ao e
  | .subscribe topic, s =>
    if s.link then { s with subscribed := topic :: s.subscribed } else s
  | .unsubscribe topic, s =>
    if s.link then { s with subscribed := s.subscribed.filter (· ≠ topic) } else s

/-- The thread of an object goes on with its handler, or takes the next event. -/
def stepAo (ao : Ao) (s : System) : Option System :=
  let c := s.chart ao
  match c.job with
  | some (a :: job) => some ((s.setChart ao { c with job := some job }).act a)
  | some [] => some (s.setChart ao c.finish)
  | none =>
    match c.fifo with
    | [] => none
    | e :: rest =>
      -- `chart.stop()` ends the thread
      if c.state = .stopping then none
      else some (s.setChart ao ({ c with fifo := rest }.handle ao e))

/-- Everything of the client, or a step of one of the four threads. -/
inductive Label
  | client (l : MqttClient.Label)
  | ao (ao : Ao)

def step (s : System) : Label → Option System
  | .client l => s.stepClient l
  | .ao ao => s.stepAo ao

end System

end TelafSim.Subscriptions
