import TelafSim.Hsm

/-!
# The chart of the MQTT bridge

The states of `ModemBridge.cpp` as handlers of the state machine engine. What a handler leaves for
later is a list of effects: posts into the bridge's own queue, calls of RPC callbacks, of
subscribers and of connectivity observers, publishes and the other calls of the MQTT client. The
clock, the return codes of the MQTT client and schema validation come from outside: the first two
with every event, the last as the parameter `valid`. A request is known by its corrId, a callback
of `subscribe_event` by a number.
-/

namespace TelafSim.ModemBridge

variable {δ : Type}

structure Envelope (δ : Type) where
  corrId : String
  dest : Option String
  data : Option δ

structure SendReq (δ : Type) where
  topic : String
  rspSchemaId : String
  envelope : Envelope δ
  deadline : ℕ

/-- A received message; the body is `none` when it is not an envelope. -/
structure Message (δ : Type) where
  topic : String
  body : Option (Envelope δ)

inductive BridgeEvent (δ : Type)
  | start
  | stop
  | linkUp (ok : Bool)
  | linkDown
  | connectTimeout
  | allSubAcked
  | sendReq (r : SendReq δ)
  | publishOneway (topic schemaId : String) (envelope : Envelope δ)
  | evtRecv (m : Message δ)
  | rspTimeout (corrId : String)
  | subscribeEvent (topic schemaId : String) (cb : ℕ)
  | unsubscribeEvent (topic : String)
  | subscribeConnectivity (token : ℕ)
  | unsubscribeConnectivity (token : ℕ)
  | drain (waiter : ℕ)

inductive Effect (δ : Type)
  | postFifo (e : BridgeEvent δ)
  | invoke (corrId : String) (reply : Option (Envelope δ))
  | deliver (cb : ℕ) (topic : String) (envelope : Envelope δ)
  | connectivity (token : ℕ) (operational : Bool)
  | publish (topic : String) (envelope : Envelope δ)
  | mqttSubscribe (topic : String)
  | mqttUnsubscribe (topic : String)
  | mqttDisconnect
  | fulfil (waiter : ℕ)

structure InFlight where
  corrId : String
  topic : String
  rspSchemaId : String

structure Subscription where
  topic : String
  schemaId : String
  cb : ℕ
  deriving DecidableEq

/-- What the world answers while an event is handled. -/
structure World where
  now : ℕ
  publishOk : Bool
  connectOk : Bool

structure Bridge (δ : Type) where
  paId : String
  deferred : List (BridgeEvent δ)
  inFlight : List InFlight
  subscriptions : List Subscription
  observers : List ℕ
  consecutiveFailures : ℕ
  world : World
  effects : List (Effect δ)

inductive BridgeState
  | notOperational
  | disconnected
  | connecting
  | connected
  | subscribing
  | operational
  | backoff
  | shuttingDown
  deriving DecidableEq, Repr

namespace Bridge

def emit (es : List (Effect δ)) (b : Bridge δ) : Bridge δ := { b with effects := b.effects ++ es }

def fail (corrId : String) (b : Bridge δ) : Bridge δ := b.emit [.invoke corrId none]

def defer (e : BridgeEvent δ) (b : Bridge δ) : Bridge δ := { b with deferred := b.deferred ++ [e] }

def recallAll (b : Bridge δ) : Bridge δ :=
  { b.emit (b.deferred.map .postFifo) with deferred := [] }

def notifyConnectivity (up : Bool) (b : Bridge δ) : Bridge δ :=
  b.emit (b.observers.map (.connectivity · up))

/-- The callback of a deferred request is failed; deferred publishes are dropped. -/
def failDeferred : BridgeEvent δ → Option (Effect δ)
  | .sendReq r => some (.invoke r.envelope.corrId none)
  | _ => none

def failAllInFlight (b : Bridge δ) : Bridge δ :=
  { b.emit (b.inFlight.map (fun i => .invoke i.corrId none) ++ b.deferred.filterMap failDeferred) with
    inFlight := []
    deferred := [] }

/-- Completes the request `corrId` if it is in flight. -/
def complete (corrId : String) (reply : InFlight → Option (Envelope δ)) (b : Bridge δ) : Bridge δ :=
  match b.inFlight.find? (fun i => i.corrId = corrId) with
  | none => b
  | some i => { b with
      inFlight := b.inFlight.eraseP (fun i => i.corrId = corrId)
      effects := b.effects ++ [.invoke i.corrId (reply i)] }

/-- `mp/req/<domain>/<method>` to `<domain>.<method>.req`. -/
def resolveReqSchemaId (topic : String) : String :=
  if topic.startsWith "mp/req/" ∨ topic.startsWith "ap/req/" then
    String.ofList ((topic.toList.drop 7).map (fun c => if c = '/' then '.' else c)) ++ ".req"
  else ""

def emplace (i : InFlight) (b : Bridge δ) : Bridge δ :=
  if b.inFlight.any (fun j => j.corrId = i.corrId) then b
  else { b with inFlight := b.inFlight ++ [i] }

variable (valid : String → δ → Bool)

def payloadOk (schemaId : String) (envelope : Envelope δ) : Bool :=
  envelope.data.all (valid schemaId)

def doSendRequest (r : SendReq δ) (b : Bridge δ) : Bridge δ :=
  if r.deadline ≤ b.world.now then b.fail r.envelope.corrId
  else if resolveReqSchemaId r.topic ≠ "" ∧
      payloadOk valid (resolveReqSchemaId r.topic) r.envelope = false then
    b.fail r.envelope.corrId
  else
    let b := b.emplace ⟨r.envelope.corrId, r.topic, r.rspSchemaId⟩
    if b.world.publishOk then b.emit [.publish r.topic r.envelope]
    else b.complete r.envelope.corrId (fun _ => none)

def doPublishOneway (topic schemaId : String) (envelope : Envelope δ) (b : Bridge δ) : Bridge δ :=
  if schemaId ≠ "" ∧ payloadOk valid schemaId envelope = false then b
  else if b.world.publishOk then b.emit [.publish topic envelope]
  else b

/-- A message with `dest` is a response, one without an indication. -/
def receive (m : Message δ) (b : Bridge δ) : Bridge δ :=
  match m.body with
  | none => b
  | some env =>
    match env.dest with
    | some dest =>
      if dest ≠ b.paId then b
      else b.complete env.corrId
        (fun i => if payloadOk valid i.rspSchemaId env then some env else none)
    | none =>
      match b.subscriptions.find? (fun s => s.topic = m.topic) with
      | none => b
      | some s =>
        if payloadOk valid s.schemaId env then b.emit [.deliver s.cb m.topic env] else b

def subscribe (s : Subscription) (b : Bridge δ) : Bridge δ :=
  { b with subscriptions := b.subscriptions.filter (fun s' => s'.topic ≠ s.topic) ++ [s] }

def unsubscribe (topic : String) (b : Bridge δ) : Bridge δ :=
  { b with subscriptions := b.subscriptions.filter (fun s => s.topic ≠ topic) }

def kRspWildcard : String := "mp/rsp/#"

def kApRspWildcard : String := "ap/rsp/#"

/-- The topic filters the bridge wants. -/
def topics (b : Bridge δ) : List String :=
  kRspWildcard :: kApRspWildcard :: b.subscriptions.map Subscription.topic

def issueAllSubscribes (b : Bridge δ) : Bridge δ := b.emit (b.topics.map .mqttSubscribe)

def observe (token : ℕ) (b : Bridge δ) : Bridge δ :=
  { b with observers := b.observers.filter (· ≠ token) ++ [token] }

def unobserve (token : ℕ) (b : Bridge δ) : Bridge δ :=
  { b with observers := b.observers.filter (· ≠ token) }

def failed (b : Bridge δ) : Bridge δ := { b with consecutiveFailures := b.consecutiveFailures + 1 }

def recovered (b : Bridge δ) : Bridge δ := { b with consecutiveFailures := 0 }

end Bridge

open Bridge

abbrev BridgeReply (δ : Type) := Reply BridgeState (Bridge δ)

def notOperationalSt : Event (BridgeEvent δ) → Bridge δ → BridgeReply δ
  | .entry, b => .handled b
  | .exit, b => .handled b
  | .user (.subscribeConnectivity token), b => .handled (b.observe token)
  | .user (.unsubscribeConnectivity token), b => .handled (b.unobserve token)
  | .user (.subscribeEvent topic schemaId cb), b => .handled (b.subscribe ⟨topic, schemaId, cb⟩)
  | .user (.unsubscribeEvent topic), b => .handled (b.unsubscribe topic)
  | .user (.drain w), b => .handled (b.emit [.fulfil w])
  | _, b => .super none b

def disconnectedSt : Event (BridgeEvent δ) → Bridge δ → BridgeReply δ
  | .entry, b => .handled b
  | .user .start, b => .toState (some .connecting) b
  | .user (.sendReq r), b => .handled (b.fail r.envelope.corrId)
  | .user (.publishOneway _ _ _), b => .handled b
  | .user .stop, b => .toState (some .shuttingDown) b
  | _, b => .super (some .notOperational) b

def connectingSt : Event (BridgeEvent δ) → Bridge δ → BridgeReply δ
  | .entry, b => .handled (if b.world.connectOk then b else b.emit [.postFifo .linkDown])
  | .exit, b => .handled b
  | .user (.linkUp true), b => .toState (some .connected) b.recovered
  | .user (.linkUp false), b => .toState (some .backoff) b.failed
  | .user .connectTimeout, b => .toState (some .backoff) b.failed
  | .user .linkDown, b => .toState (some .backoff) b.failed
  | .user .stop, b => .toState (some .shuttingDown) b
  | .user (.sendReq r), b => .handled (b.defer (.sendReq r))
  | .user (.publishOneway t s e), b => .handled (b.defer (.publishOneway t s e))
  | _, b => .super (some .notOperational) b

def connectedSt : Event (BridgeEvent δ) → Bridge δ → BridgeReply δ
  | .entry, b => .handled b
  | .init, b => .toState (some .subscribing) b
  | .user .linkDown, b => .toState (some .backoff) b.failed
  | .user .stop, b => .toState (some .shuttingDown) b
  | .user (.unsubscribeConnectivity token), b => .handled (b.unobserve token)
  | .user (.drain w), b => .handled (b.emit [.fulfil w])
  | .user (.subscribeEvent topic schemaId cb), b =>
    .handled ((b.subscribe ⟨topic, schemaId, cb⟩).emit [.mqttSubscribe topic])
  | .user (.unsubscribeEvent topic), b =>
    .handled ((b.unsubscribe topic).emit [.mqttUnsubscribe topic])
  | _, b => .super none b

def subscribingSt : Event (BridgeEvent δ) → Bridge δ → BridgeReply δ
  | .entry, b => .handled (b.issueAllSubscribes.emit [.postFifo .allSubAcked])
  | .user .allSubAcked, b => .toState (some .operational) b
  | .user (.subscribeConnectivity token), b => .handled (b.observe token)
  | .user (.sendReq r), b => .handled (b.defer (.sendReq r))
  | .user (.publishOneway t s e), b => .handled (b.defer (.publishOneway t s e))
  | _, b => .super (some .connected) b

def operationalSt (valid : String → δ → Bool) : Event (BridgeEvent δ) → Bridge δ → BridgeReply δ
  | .entry, b => .handled (b.notifyConnectivity true).recallAll
  | .exit, b => .handled (b.notifyConnectivity false).failAllInFlight
  | .user (.sendReq r), b => .handled (b.doSendRequest valid r)
  | .user (.publishOneway t s e), b => .handled (b.doPublishOneway valid t s e)
  | .user (.subscribeConnectivity token), b =>
    .handled ((b.emit [.connectivity token true]).observe token)
  | .user (.evtRecv m), b => .handled (b.receive valid m)
  | .user (.rspTimeout corrId), b => .handled (b.complete corrId (fun _ => none))
  | _, b => .super (some .connected) b

def backoffSt : Event (BridgeEvent δ) → Bridge δ → BridgeReply δ
  | .entry, b => .handled (b.notifyConnectivity false).failAllInFlight
  | .user (.linkUp true), b => .toState (some .connected) b.recovered
  | .user (.linkUp false), b => .handled b
  | .user .stop, b => .toState (some .shuttingDown) b
  | .user (.sendReq r), b => .handled (b.defer (.sendReq r))
  | .user .linkDown, b => .handled b
  | _, b => .super (some .notOperational) b

/-- Every event is swallowed, the empty one included: the engine takes a state that does not name
a super-state for a child of the root. -/
def shuttingDownSt : Event (BridgeEvent δ) → Bridge δ → BridgeReply δ
  | .entry, b =>
    .handled ((b.notifyConnectivity false).failAllInFlight.emit [.mqttDisconnect])
  | .user (.drain w), b => .handled (b.emit [.fulfil w])
  | _, b => .handled b

def chart (valid : String → δ → Bool) : Chart BridgeState (BridgeEvent δ) (Bridge δ) where
  handler
    | .notOperational => notOperationalSt
    | .disconnected => disconnectedSt
    | .connecting => connectingSt
    | .connected => connectedSt
    | .subscribing => subscribingSt
    | .operational => operationalSt valid
    | .backoff => backoffSt
    | .shuttingDown => shuttingDownSt

end TelafSim.ModemBridge
