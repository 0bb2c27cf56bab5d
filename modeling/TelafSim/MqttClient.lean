import TelafSim.Trace

/-!
# The MQTT client of the simulated modem

`MqttClient` of `sml/common`: the connection to the broker as an active object with the states Off,
Connecting, Connected with Operational, Disconnected with Reconnecting, and Stopping. The callbacks
of the MQTT library post events and do nothing else; the subsystems are started, resubscribed and
stopped by entry actions. What the library and the subsystems do while an event is handled comes
with the event: whether `connect_async` or the clean disconnect raises, which calls of subsystems
raise and which topics they own.

A scheduled post is kept in `armed` until it fires into the fifo; cancelling one that has fired
removes nothing. Three things are recorded for the statements only: `session`, whether `on_connect`
was called since the last `on_disconnect`, `lastLink`, the link event posted last, and `entries`,
the states entered with the calls that their entry actions made.
-/

namespace TelafSim.Mqtt

/-- A registered subsystem; one that predates the protocol has no `resubscribe()`. -/
structure Subsystem where
  name : String
  hasResubscribe : Bool
  deriving DecidableEq, Repr

inductive SubCall
  | start (ds : Subsystem)
  | resubscribe (ds : Subsystem)
  | stop (ds : Subsystem)
  | handleMessage (ds : Subsystem) (topic : String)
  deriving DecidableEq, Repr

/-- start, resubscribe and stop. -/
def SubCall.isLifecycle : SubCall → Bool
  | .handleMessage _ _ => false
  | _ => true

structure PublishPayload where
  topic : String
  payload : List UInt8
  qos : ℕ
  retain : Bool
  deriving DecidableEq, Repr

inductive ClientEvent
  | start
  | stop
  | linkUp (rc : ℤ)
  | linkDown (rc : ℤ)
  | connectTimeout
  | reconnectTimer
  | publish (p : PublishPayload)
  | messageReceived (topic : String) (payload : List UInt8)
  | disconnectedAck
  deriving DecidableEq, Repr

/-- LinkUp and LinkDown. -/
def ClientEvent.isLink : ClientEvent → Bool
  | .linkUp _ => true
  | .linkDown _ => true
  | _ => false

inductive ClientTimer
  | connectTimeout
  | reconnect
  deriving DecidableEq, Repr

def ClientTimer.event : ClientTimer → ClientEvent
  | .connectTimeout => .connectTimeout
  | .reconnect => .reconnectTimer

inductive ClientState
  | off
  | connecting
  | connected
  | operational
  | disconnected
  | reconnecting
  | stopping
  deriving DecidableEq, Repr

/-- What the outside does while an event is handled. -/
structure World where
  /-- `connect_async` or `loop_start` raises an OSError. -/
  connectRaises : Bool
  /-- `disconnect` or `loop_stop` raises. -/
  disconnectRaises : Bool
  /-- The call of a subsystem raises. -/
  raises : SubCall → Bool
  /-- `owns_topic`; `none` when it raises. -/
  ownsTopic : Subsystem → String → Option Bool

structure MqttClient where
  connectTimeoutMs : ℤ
  subsystems : List Subsystem
  state : ClientState
  paho : Bool
  firstConnectSeen : Bool
  failureCount : ℕ
  reconnectEventUuid : Option ℕ
  connectTimeoutUuid : Option ℕ
  stopComplete : Bool
  subAosStarted : Bool
  running : Bool
  fifo : List ClientEvent
  armed : List (ℕ × ClientTimer)
  nextUuid : ℕ
  published : List PublishPayload
  calls : List SubCall
  session : Bool
  lastLink : Option ClientEvent
  entries : List (ClientState × List SubCall)

/-- Neither empty nor with a wildcard. -/
def validatePublishTopic (topic : String) : Bool :=
  topic ≠ "" && topic.toList.all (fun c => c ≠ '+' && c ≠ '#')

namespace MqttClient

/-- In Off, with the subsystems registered. -/
def initial (connectTimeoutMs : ℤ) (subsystems : List Subsystem) : MqttClient where
  connectTimeoutMs := connectTimeoutMs
  subsystems := subsystems
  state := .off
  paho := false
  firstConnectSeen := false
  failureCount := 0
  reconnectEventUuid := none
  connectTimeoutUuid := none
  stopComplete := false
  subAosStarted := false
  running := true
  fifo := []
  armed := []
  nextUuid := 0
  published := []
  calls := []
  session := false
  lastLink := none
  entries := []

def postFifo (e : ClientEvent) (m : MqttClient) : MqttClient :=
  { m with
    fifo := m.fifo ++ [e]
    lastLink := if e.isLink then some e else m.lastLink }

def call (w : World) (c : SubCall) (m : MqttClient) : Except MqttClient MqttClient :=
  let m := { m with calls := m.calls ++ [c] }
  if w.raises c then .error m else .ok m

/-- The call in a `try` whose `except` writes to the log. -/
def tryCall (w : World) (c : SubCall) (m : MqttClient) : MqttClient :=
  match m.call w c with
  | .ok m => m
  | .error m => m

def startSubAos (w : World) (m : MqttClient) : MqttClient :=
  if m.subAosStarted then m
  else m.subsystems.foldl (fun m ds => m.tryCall w (.start ds)) { m with subAosStarted := true }

def resubscribeSubAos (w : World) (m : MqttClient) : MqttClient :=
  m.subsystems.foldl
    (fun m ds => if ds.hasResubscribe then m.tryCall w (.resubscribe ds) else m) m

def stopSubAos (w : World) (m : MqttClient) : MqttClient :=
  if m.subAosStarted then
    m.subsystems.reverse.foldl (fun m ds => m.tryCall w (.stop ds))
      { m with subAosStarted := false }
  else m

def cancelEvent (uuid : Option ℕ) (m : MqttClient) : MqttClient :=
  { m with armed := m.armed.filter (fun a => some a.1 ≠ uuid) }

def scheduleConnectTimeout (m : MqttClient) : MqttClient :=
  if m.connectTimeoutMs ≤ 0 then m
  else { m with
    armed := m.armed ++ [(m.nextUuid, .connectTimeout)]
    connectTimeoutUuid := some m.nextUuid
    nextUuid := m.nextUuid + 1 }

def cancelConnectTimeout (m : MqttClient) : MqttClient :=
  { m.cancelEvent m.connectTimeoutUuid with connectTimeoutUuid := none }

def scheduleReconnectTimer (m : MqttClient) : MqttClient :=
  { m with
    armed := m.armed ++ [(m.nextUuid, .reconnect)]
    reconnectEventUuid := some m.nextUuid
    nextUuid := m.nextUuid + 1 }

def cancelReconnectTimer (m : MqttClient) : MqttClient :=
  { m.cancelEvent m.reconnectEventUuid with reconnectEventUuid := none }

def ensurePahoClient (m : MqttClient) : MqttClient := { m with paho := true }

def initiateConnect (w : World) (m : MqttClient) : MqttClient :=
  if w.connectRaises then m.postFifo (.linkDown (-1)) else m

def initiateCleanDisconnect (w : World) (m : MqttClient) : MqttClient :=
  if m.paho = false ∨ w.disconnectRaises then { m with stopComplete := true } else m

def recordConnectFailure (m : MqttClient) : MqttClient :=
  { m with failureCount := m.failureCount + 1 }

def resetBackoff (m : MqttClient) : MqttClient :=
  { m with failureCount := 0, firstConnectSeen := true }

def doPublish (p : PublishPayload) (m : MqttClient) : MqttClient :=
  if m.paho then { m with published := m.published ++ [p] } else m

/-- The first subsystem that owns the topic and does not raise gets the message. -/
def onMessage (w : World) (topic : String) : List Subsystem → MqttClient → MqttClient
  | [], m => m
  | ds :: rest, m =>
    match w.ownsTopic ds topic with
    | some true =>
      match m.call w (.handleMessage ds topic) with
      | .ok m => m
      | .error m => onMessage w topic rest m
    | _ => onMessage w topic rest m

/-- The entry actions. Connected and Disconnected have none. -/
def enterState (w : World) : ClientState → MqttClient → MqttClient
  | .connecting, m => (m.ensurePahoClient.initiateConnect w).scheduleConnectTimeout
  | .operational, m => if m.subAosStarted then m.resubscribeSubAos w else m.startSubAos w
  | .reconnecting, m => m.scheduleReconnectTimer
  | .stopping, m => (m.stopSubAos w).initiateCleanDisconnect w
  | _, m => m

def exitState : ClientState → MqttClient → MqttClient
  | .connecting, m => m.cancelConnectTimeout
  | .reconnecting, m => m.cancelReconnectTimer
  | _, m => m

def trans (w : World) (target : ClientState) (m : MqttClient) : MqttClient :=
  let left := exitState m.state m
  let entered := enterState w target left
  { entered with
    state := target
    entries := m.entries ++ [(target, entered.calls.drop left.calls.length)] }

/-- What a state handler answers: the event is handled, leads to another state, or is left to the
super-state. -/
inductive Reply
  | handled (m : MqttClient)
  | trans (target : ClientState) (m : MqttClient)
  | super (parent : Option ClientState) (m : MqttClient)

def smfnOff : ClientEvent → MqttClient → Reply
  | .start, m => .trans .connecting m
  | _, m => .super none m

def smfnConnecting : ClientEvent → MqttClient → Reply
  | .linkUp rc, m =>
    if rc = 0 then .trans .operational m.resetBackoff
    else .trans .reconnecting m.recordConnectFailure
  | .linkDown _, m => .trans .reconnecting m.recordConnectFailure
  | .connectTimeout, m => .trans .reconnecting m.recordConnectFailure
  | .stop, m => .trans .stopping m
  | _, m => .super none m

def smfnConnected : ClientEvent → MqttClient → Reply
  | .linkDown _, m => .trans .reconnecting m.recordConnectFailure
  | .stop, m => .trans .stopping m
  | _, m => .super none m

def smfnOperational (w : World) : ClientEvent → MqttClient → Reply
  | .publish p, m => .handled (m.doPublish p)
  | .messageReceived topic _, m => .handled (m.onMessage w topic m.subsystems)
  | _, m => .super (some .connected) m

def smfnDisconnected : ClientEvent → MqttClient → Reply
  | .stop, m => .trans .stopping m
  | _, m => .super none m

def smfnReconnecting : ClientEvent → MqttClient → Reply
  | .reconnectTimer, m => .trans .connecting m
  | _, m => .super (some .disconnected) m

/-- `chart.stop()` ends the object's thread. -/
def smfnStopping : ClientEvent → MqttClient → Reply
  | .disconnectedAck, m => .handled { m with stopComplete := true, running := false }
  | .linkDown _, m => .handled { m with stopComplete := true, running := false }
  | _, m => .super none m

def handler (w : World) : ClientState → ClientEvent → MqttClient → Reply
  | .off => smfnOff
  | .connecting => smfnConnecting
  | .connected => smfnConnected
  | .operational => smfnOperational w
  | .disconnected => smfnDisconnected
  | .reconnecting => smfnReconnecting
  | .stopping => smfnStopping

/-- The event goes from the state to its super-state, until it is handled or the top ignores it. -/
def dispatch (w : World) (e : ClientEvent) (m : MqttClient) : MqttClient :=
  match handler w m.state e m with
  | .handled m => m
  | .trans target m => m.trans w target
  | .super none m => m
  | .super (some parent) m =>
    match handler w parent e m with
    | .handled m => m
    | .trans target m => m.trans w target
    | .super _ m => m

/-- Calls of the client, callbacks of the MQTT library, timers, and the object's thread taking the
next event. A timer event may also come that no timer of the client stands for. -/
inductive Label
  | start
  | requestStop
  | publish (p : PublishPayload)
  | onConnect (rc : ℤ)
  | onDisconnect (rc : ℤ)
  | onMessage (topic : String) (payload : List UInt8)
  | elapse (uuid : ℕ)
  | stray (t : ClientTimer)
  | handle (w : World)

def step (m : MqttClient) : Label → Option MqttClient
  | .start => some (m.postFifo .start)
  | .requestStop => some (m.postFifo .stop)
  | .publish p => if validatePublishTopic p.topic then some (m.postFifo (.publish p)) else none
  | .onConnect rc => if m.paho then some { m.postFifo (.linkUp rc) with session := true } else none
  | .onDisconnect rc =>
    if m.session then
      let m := { m.postFifo (.linkDown rc) with session := false }
      some (if rc = 0 then m.postFifo .disconnectedAck else m)
    else none
  | .onMessage topic payload =>
    if m.paho then some (m.postFifo (.messageReceived topic payload)) else none
  | .elapse uuid =>
    match m.armed.find? (fun a => a.1 = uuid) with
    | none => none
    | some (_, t) =>
      some ({ m with armed := m.armed.filter (fun a => a.1 ≠ uuid) }.postFifo t.event)
  | .stray t => some (m.postFifo t.event)
  | .handle w =>
    match m.fifo with
    | [] => none
    | e :: rest => if m.running then some (dispatch w e { m with fifo := rest }) else none

section Calls

variable (w : World) (m : MqttClient)

theorem tryCall_eq (c : SubCall) : m.tryCall w c = { m with calls := m.calls ++ [c] } := by
  unfold tryCall call
  dsimp only
  split
  · rename_i h
    split at h
    · cases h
    · cases h
      rfl
  · rename_i h
    split at h
    · cases h
      rfl
    · cases h

theorem foldl_tryCall (f : Subsystem → SubCall) (l : List Subsystem) :
    l.foldl (fun m ds => m.tryCall w (f ds)) m = { m with calls := m.calls ++ l.map f } := by
  induction l generalizing m with
  | nil => simp
  | cons ds l ih =>
    rw [List.foldl_cons, tryCall_eq, ih]
    simp

theorem startSubAos_eq (h : m.subAosStarted = false) : m.startSubAos w = { m with
    subAosStarted := true
    calls := m.calls ++ m.subsystems.map .start } := by
  rw [startSubAos, if_neg (by simp [h]), foldl_tryCall]

theorem resubscribeSubAos_eq : m.resubscribeSubAos w = { m with
    calls := m.calls ++ (m.subsystems.filter Subsystem.hasResubscribe).map .resubscribe } := by
  have hfold : ∀ (l : List Subsystem) (m : MqttClient),
      l.foldl (fun m ds => if ds.hasResubscribe then m.tryCall w (.resubscribe ds) else m) m =
        { m with calls := m.calls ++ (l.filter Subsystem.hasResubscribe).map .resubscribe } := by
    intro l
    induction l with
    | nil => simp
    | cons ds l ih =>
      intro m
      rw [List.foldl_cons, ih]
      by_cases hds : ds.hasResubscribe <;> simp [hds, tryCall_eq]
  exact hfold m.subsystems m

theorem stopSubAos_eq (h : m.subAosStarted = true) : m.stopSubAos w = { m with
    subAosStarted := false
    calls := m.calls ++ m.subsystems.reverse.map .stop } := by
  rw [stopSubAos, if_pos h, foldl_tryCall]

/-- A message makes no call but those of `handle_message`. -/
theorem onMessage_eq (topic : String) (l : List Subsystem) : ∃ cs : List SubCall,
    m.onMessage w topic l = { m with calls := m.calls ++ cs } ∧
      cs.filter SubCall.isLifecycle = [] := by
  induction l generalizing m with
  | nil => exact ⟨[], by simp [onMessage], rfl⟩
  | cons ds l ih =>
    unfold onMessage
    split
    · unfold call
      dsimp only
      by_cases hraises : w.raises (.handleMessage ds topic)
      · rw [if_pos hraises]
        obtain ⟨cs, heq, hcs⟩ := ih { m with calls := m.calls ++ [.handleMessage ds topic] }
        refine ⟨.handleMessage ds topic :: cs, ?_, hcs⟩
        dsimp only
        rw [heq]
        simp
      · rw [if_neg hraises]
        exact ⟨[.handleMessage ds topic], rfl, rfl⟩
    · exact ih m

end Calls

def entryCalls (target : ClientState) (m : MqttClient) : List SubCall :=
  match target with
  | .operational =>
    if m.subAosStarted then (m.subsystems.filter Subsystem.hasResubscribe).map .resubscribe
    else m.subsystems.map .start
  | .stopping => if m.subAosStarted then m.subsystems.reverse.map .stop else []
  | _ => []

/-- What a transition does. -/
structure Enters (w : World) (target : ClientState) (m m' : MqttClient) : Prop where
  state : m'.state = target
  entries : m'.entries = m.entries ++ [(target, m.entryCalls target)]
  calls : m'.calls = m.calls ++ m.entryCalls target
  started : m'.subAosStarted =
    if target = .operational then true else if target = .stopping then false else m.subAosStarted
  subsystems : m'.subsystems = m.subsystems
  running : m'.running = m.running
  paho : m'.paho = (m.paho || target = .connecting)
  session : m'.session = m.session
  fifo : m'.fifo = m.fifo ++
    if target = .connecting ∧ w.connectRaises then [.linkDown (-1)] else []
  lastLink : m'.lastLink =
    if target = .connecting ∧ w.connectRaises then some (.linkDown (-1)) else m.lastLink

section Transitions

variable {w : World} {m m' : MqttClient}

theorem enters_enterState (w : World) (target : ClientState) (m : MqttClient) :
    Enters w target m { enterState w target m with
      state := target
      entries := m.entries ++
        [(target, (enterState w target m).calls.drop m.calls.length)] } := by
  cases target with
  | connecting =>
    simp only [enterState, ensurePahoClient, initiateConnect, scheduleConnectTimeout, postFifo]
    by_cases hraises : w.connectRaises <;> by_cases htime : m.connectTimeoutMs ≤ 0 <;>
      constructor <;> simp [hraises, htime, entryCalls, ClientEvent.isLink]
  | operational =>
    simp only [enterState]
    cases hstarted : m.subAosStarted with
    | true => constructor <;> simp [resubscribeSubAos_eq, entryCalls, hstarted]
    | false => constructor <;> simp [startSubAos_eq w m hstarted, entryCalls, hstarted]
  | stopping =>
    simp only [enterState, initiateCleanDisconnect]
    cases hstarted : m.subAosStarted with
    | true =>
      rw [stopSubAos_eq w m hstarted]
      by_cases hdisc : m.paho = false ∨ w.disconnectRaises <;>
        constructor <;> simp [hdisc, entryCalls, hstarted]
    | false =>
      have hskip : m.stopSubAos w = m := by simp [stopSubAos, hstarted]
      rw [hskip]
      by_cases hdisc : m.paho = false ∨ w.disconnectRaises <;>
        constructor <;> simp [hdisc, entryCalls, hstarted]
  | _ => constructor <;> simp [enterState, entryCalls, scheduleReconnectTimer]

theorem exitState_eq (st : ClientState) (m : MqttClient) : ∃ armed reconnect connect,
    exitState st m = { m with
      armed := armed
      reconnectEventUuid := reconnect
      connectTimeoutUuid := connect } := by
  cases st <;> exact ⟨_, _, _, rfl⟩

theorem enters_trans (w : World) (target : ClientState) (m : MqttClient) :
    Enters w target m (m.trans w target) := by
  obtain ⟨armed, reconnect, connect, hexit⟩ := exitState_eq m.state m
  have henter := enters_enterState w target (exitState m.state m)
  unfold trans
  rw [hexit] at henter ⊢
  exact ⟨henter.state, henter.entries, henter.calls, henter.started, henter.subsystems,
    henter.running, henter.paho, henter.session, henter.fifo, henter.lastLink⟩

def isLeaf : ClientState → Bool
  | .connected => false
  | .disconnected => false
  | _ => true

def target : ClientState → ClientEvent → Option ClientState
  | .off, .start => some .connecting
  | .connecting, .linkUp rc => some (if rc = 0 then .operational else .reconnecting)
  | .connecting, .linkDown _ => some .reconnecting
  | .connecting, .connectTimeout => some .reconnecting
  | .connecting, .stop => some .stopping
  | .operational, .linkDown _ => some .reconnecting
  | .operational, .stop => some .stopping
  | .reconnecting, .reconnectTimer => some .connecting
  | .reconnecting, .stop => some .stopping
  | _, _ => none

theorem target_spec {st st' : ClientState} {e : ClientEvent} (h : target st e = some st') :
    isLeaf st' ∧ st' ≠ .off ∧ st ≠ .stopping ∧ (st' = .stopping ↔ e = .stop) := by
  unfold target at h
  split at h
  case h_2 rc =>
    obtain rfl := Option.some.inj h
    by_cases hrc : rc = 0 <;> simp [hrc, isLeaf]
  case h_10 => cases h
  all_goals
    obtain rfl := Option.some.inj h
    simp [isLeaf]

/-- An event that leads nowhere. -/
structure Rests (m m' : MqttClient) : Prop where
  state : m'.state = m.state
  entries : m'.entries = m.entries
  calls : m'.calls.filter SubCall.isLifecycle = m.calls.filter SubCall.isLifecycle
  started : m'.subAosStarted = m.subAosStarted
  subsystems : m'.subsystems = m.subsystems
  paho : m'.paho = m.paho
  session : m'.session = m.session
  fifo : m'.fifo = m.fifo
  lastLink : m'.lastLink = m.lastLink

theorem rests_self (m : MqttClient) : Rests m m := ⟨rfl, rfl, rfl, rfl, rfl, rfl, rfl, rfl, rfl⟩

/-- Counting failures first makes no difference to a transition. -/
theorem enters_of_counts {target : ClientState} {n : ℕ} {seen : Bool}
    (h : Enters w target { m with failureCount := n, firstConnectSeen := seen } m') :
    Enters w target m m' :=
  ⟨h.state, h.entries, h.calls, h.started, h.subsystems, h.running, h.paho, h.session,
    h.fifo, h.lastLink⟩

theorem enters_dispatch {e : ClientEvent} {st' : ClientState} (hleaf : isLeaf m.state)
    (h : target m.state e = some st') : Enters w st' m (m.dispatch w e) := by
  have hfails : Enters w .reconnecting m (m.recordConnectFailure.trans w .reconnecting) :=
    enters_of_counts (enters_trans w .reconnecting _)
  cases hst : m.state with
  | off =>
    rw [hst] at h
    cases e with
    | start =>
      obtain rfl := Option.some.inj h
      simp only [dispatch, hst, handler, smfnOff]
      exact enters_trans w _ m
    | _ => cases h
  | connecting =>
    rw [hst] at h
    cases e with
    | linkUp rc =>
      obtain rfl := Option.some.inj h
      simp only [dispatch, hst, handler, smfnConnecting]
      by_cases hrc : rc = 0
      · rw [if_pos hrc, if_pos hrc]
        exact enters_of_counts (enters_trans w .operational _)
      · rw [if_neg hrc, if_neg hrc]
        exact hfails
    | linkDown rc =>
      obtain rfl := Option.some.inj h
      simp only [dispatch, hst, handler, smfnConnecting]
      exact hfails
    | connectTimeout =>
      obtain rfl := Option.some.inj h
      simp only [dispatch, hst, handler, smfnConnecting]
      exact hfails
    | stop =>
      obtain rfl := Option.some.inj h
      simp only [dispatch, hst, handler, smfnConnecting]
      exact enters_trans w _ m
    | _ => cases h
  | operational =>
    rw [hst] at h
    cases e with
    | linkDown rc =>
      obtain rfl := Option.some.inj h
      simp only [dispatch, hst, handler, smfnOperational, smfnConnected]
      exact hfails
    | stop =>
      obtain rfl := Option.some.inj h
      simp only [dispatch, hst, handler, smfnOperational, smfnConnected]
      exact enters_trans w _ m
    | _ => cases h
  | reconnecting =>
    rw [hst] at h
    cases e with
    | reconnectTimer =>
      obtain rfl := Option.some.inj h
      simp only [dispatch, hst, handler, smfnReconnecting]
      exact enters_trans w _ m
    | stop =>
      obtain rfl := Option.some.inj h
      simp only [dispatch, hst, handler, smfnReconnecting, smfnDisconnected]
      exact enters_trans w _ m
    | _ => cases h
  | stopping =>
    rw [hst] at h
    cases e <;> cases h
  | connected =>
    rw [hst] at hleaf
    cases hleaf
  | disconnected =>
    rw [hst] at hleaf
    cases hleaf

theorem rests_dispatch {e : ClientEvent} (hleaf : isLeaf m.state) (h : target m.state e = none) :
    Rests m (m.dispatch w e) := by
  cases hst : m.state with
  | off =>
    rw [hst] at h
    simp only [dispatch, hst, handler]
    cases e <;> first | exact rests_self m | cases h
  | connecting =>
    rw [hst] at h
    simp only [dispatch, hst, handler]
    cases e <;> first | exact rests_self m | cases h
  | operational =>
    rw [hst] at h
    simp only [dispatch, hst, handler]
    cases e with
    | publish p =>
      simp only [smfnOperational, doPublish]
      split
      · exact ⟨rfl, rfl, rfl, rfl, rfl, rfl, rfl, rfl, rfl⟩
      · exact rests_self m
    | messageReceived topic payload =>
      simp only [smfnOperational]
      obtain ⟨cs, heq, hcs⟩ := onMessage_eq w m topic m.subsystems
      rw [heq]
      refine ⟨rfl, rfl, ?_, rfl, rfl, rfl, rfl, rfl, rfl⟩
      rw [List.filter_append, hcs, List.append_nil]
    | linkDown rc => cases h
    | stop => cases h
    | _ => exact rests_self m
  | reconnecting =>
    rw [hst] at h
    simp only [dispatch, hst, handler]
    cases e <;> first | exact rests_self m | cases h
  | stopping =>
    simp only [dispatch, hst, handler]
    cases e <;> exact ⟨rfl, rfl, rfl, rfl, rfl, rfl, rfl, rfl, rfl⟩
  | connected =>
    rw [hst] at hleaf
    cases hleaf
  | disconnected =>
    rw [hst] at hleaf
    cases hleaf

end Transitions

def posts (m : MqttClient) : Label → List ClientEvent
  | .start => [.start]
  | .requestStop => [.stop]
  | .publish p => [.publish p]
  | .onConnect rc => [.linkUp rc]
  | .onDisconnect rc => .linkDown rc :: if rc = 0 then [.disconnectedAck] else []
  | .onMessage topic payload => [.messageReceived topic payload]
  | .elapse uuid => ((m.armed.find? (fun a => a.1 = uuid)).map (·.2.event)).toList
  | .stray t => [t.event]
  | .handle _ => []

/-- `on_connect` begins a session and `on_disconnect` ends it. -/
def sessionAfter (m : MqttClient) : Label → Bool
  | .onConnect _ => true
  | .onDisconnect _ => false
  | _ => m.session

/-- The link event that was posted last, after `es`. -/
def lastOf (es : List ClientEvent) (last : Option ClientEvent) : Option ClientEvent :=
  ((es.filter ClientEvent.isLink).getLast?).or last

/-- Events are posted, and that is all. -/
structure Posts (es : List ClientEvent) (m m' : MqttClient) : Prop where
  state : m'.state = m.state
  entries : m'.entries = m.entries
  calls : m'.calls = m.calls
  started : m'.subAosStarted = m.subAosStarted
  subsystems : m'.subsystems = m.subsystems
  paho : m'.paho = m.paho
  fifo : m'.fifo = m.fifo ++ es
  lastLink : m'.lastLink = lastOf es m.lastLink

section Steps

variable {m m' : MqttClient} {l : Label}

theorem posts_postFifo (e : ClientEvent) (m : MqttClient) : Posts [e] m (m.postFifo e) := by
  refine ⟨rfl, rfl, rfl, rfl, rfl, rfl, rfl, ?_⟩
  unfold lastOf
  by_cases he : e.isLink <;> simp [postFifo, he]

theorem posts_two {e₁ e₂ : ClientEvent} {m₁ : MqttClient} (h₁ : Posts [e₁] m m₁)
    (h₂ : Posts [e₂] m₁ m') (he₂ : e₂.isLink = false) : Posts [e₁, e₂] m m' := by
  refine ⟨h₂.state.trans h₁.state, h₂.entries.trans h₁.entries, h₂.calls.trans h₁.calls,
    h₂.started.trans h₁.started, h₂.subsystems.trans h₁.subsystems, h₂.paho.trans h₁.paho, ?_, ?_⟩
  · rw [h₂.fifo, h₁.fifo, List.append_assoc]
    rfl
  · rw [h₂.lastLink, h₁.lastLink]
    unfold lastOf
    by_cases he₁ : e₁.isLink <;> simp [he₁, he₂]

theorem posts_session {es : List ClientEvent} (h : Posts es m m') (session : Bool) :
    Posts es m { m' with session := session } :=
  ⟨h.state, h.entries, h.calls, h.started, h.subsystems, h.paho, h.fifo, h.lastLink⟩

/-- Everything a step can do: the callbacks need the MQTT client, and `on_disconnect` follows an
`on_connect`. -/
theorem step_cases (h : m.step l = some m') :
    (Posts (m.posts l) m m' ∧ m'.session = m.sessionAfter l ∧
      (∀ rc, l = .onConnect rc → m.paho) ∧ (∀ rc, l = .onDisconnect rc → m.session) ∧
      ∀ w, l ≠ .handle w) ∨
    ∃ w e rest, l = .handle w ∧ m.fifo = e :: rest ∧
      m' = dispatch w e { m with fifo := rest } := by
  have hposts : ∀ {e : ClientEvent}, Posts [e] m (m.postFifo e) := posts_postFifo _ m
  cases l with
  | start =>
    obtain rfl := Option.some.inj h
    exact .inl ⟨hposts, rfl, by simp, by simp, by simp⟩
  | requestStop =>
    obtain rfl := Option.some.inj h
    exact .inl ⟨hposts, rfl, by simp, by simp, by simp⟩
  | publish p =>
    obtain ⟨-, hm'⟩ := Option.ite_none_right_eq_some.mp h
    obtain rfl := Option.some.inj hm'
    exact .inl ⟨hposts, rfl, by simp, by simp, by simp⟩
  | onConnect rc =>
    obtain ⟨hpaho, hm'⟩ := Option.ite_none_right_eq_some.mp h
    obtain rfl := Option.some.inj hm'
    exact .inl ⟨posts_session hposts true, rfl, fun _ _ => hpaho, by simp, by simp⟩
  | onDisconnect rc =>
    obtain ⟨hsession, hm'⟩ := Option.ite_none_right_eq_some.mp h
    obtain rfl := Option.some.inj hm'
    refine .inl ⟨?_, ?_, by simp, fun _ _ => hsession, by simp⟩
    · have hdown := posts_session (hposts (e := .linkDown rc)) false
      simp only [posts]
      by_cases hrc : rc = 0
      · rw [if_pos hrc, if_pos hrc]
        exact posts_two hdown (posts_postFifo _ _) rfl
      · rw [if_neg hrc, if_neg hrc]
        exact hdown
    · dsimp only
      split <;> rfl
  | onMessage topic payload =>
    obtain ⟨-, hm'⟩ := Option.ite_none_right_eq_some.mp h
    obtain rfl := Option.some.inj hm'
    exact .inl ⟨hposts, rfl, by simp, by simp, by simp⟩
  | elapse uuid =>
    simp only [step] at h
    split at h
    · cases h
    · rename_i u t hfind
      obtain rfl := Option.some.inj h
      refine .inl ⟨?_, rfl, by simp, by simp, by simp⟩
      have ht : m.posts (.elapse uuid) = [t.event] := by simp [posts, hfind]
      rw [ht]
      have hfired := posts_postFifo t.event
        { m with armed := m.armed.filter (fun a => a.1 ≠ uuid) }
      exact ⟨hfired.state, hfired.entries, hfired.calls, hfired.started, hfired.subsystems,
        hfired.paho, hfired.fifo, hfired.lastLink⟩
  | stray t =>
    obtain rfl := Option.some.inj h
    exact .inl ⟨hposts, rfl, by simp, by simp, by simp⟩
  | handle w =>
    simp only [step] at h
    split at h
    · cases h
    · rename_i e rest hfifo
      obtain ⟨-, hm'⟩ := Option.ite_none_right_eq_some.mp h
      exact .inr ⟨w, e, rest, rfl, hfifo, (Option.some.inj hm').symm⟩

end Steps

end MqttClient

end TelafSim.Mqtt
