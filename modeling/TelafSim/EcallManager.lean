import TelafSim.EcallSession
import TelafSim.Trace

/-!
# The eCall manager of the modem

`EcallManagerAO` of `sml/mpss/ecall/call_manager.py` in its Ready state: its tables, the callbacks it
gives to the sessions, its RPC handlers and the events of its fifo, which are handled one at a time.
A deferred post waits among `scheduled` under its uuid until its time has come or it is cancelled;
an event that is in the fifo cannot be cancelled any more. The handling of Stop ends the thread.
-/

namespace TelafSim.Ecall

inductive TimerStatus
  | active
  | inactive
  deriving DecidableEq, Repr

inductive TimerAction
  | started
  | stopped
  | expired
  deriving DecidableEq, Repr

inductive CallState
  | dialing
  | alerting
  | active
  | ended
  deriving DecidableEq, Repr

def callStateByAction : CallAction → CallState
  | .callDialing => .dialing
  | .callAlerting => .alerting
  | .callActive => .active
  | .callEnded => .ended

inductive EcallType
  | test
  | manual
  | automatic
  | priv
  deriving DecidableEq, Repr

inductive NumType
  | default
  | overridden
  deriving DecidableEq, Repr

structure EcallConfig where
  muteRxAudio : Bool
  numType : NumType
  overriddenNum : String
  useCannedMsd : Bool
  gnssUpdateInterval : ℤ
  t2Timer : ℤ
  t7Timer : ℤ
  t9Timer : ℤ
  msdVersion : ℤ
  deriving DecidableEq

def defaultConfig : EcallConfig := ⟨false, .default, "", false, 1000, 10000, 5000, 15000, 2⟩

/-- The fields of a set_config request that are there and marked valid. -/
structure ConfigPatch where
  muteRxAudio : Option Bool
  numType : Option NumType
  overriddenNum : Option String
  useCannedMsd : Option Bool
  gnssUpdateInterval : Option ℤ
  t2Timer : Option ℤ
  t7Timer : Option ℤ
  t9Timer : Option ℤ
  msdVersion : Option ℤ
  deriving DecidableEq

def EcallConfig.patch (c : EcallConfig) (d : ConfigPatch) : EcallConfig where
  muteRxAudio := d.muteRxAudio.getD c.muteRxAudio
  numType := d.numType.getD c.numType
  overriddenNum := d.overriddenNum.getD c.overriddenNum
  useCannedMsd := d.useCannedMsd.getD c.useCannedMsd
  gnssUpdateInterval := d.gnssUpdateInterval.getD c.gnssUpdateInterval
  t2Timer := d.t2Timer.getD c.t2Timer
  t7Timer := d.t7Timer.getD c.t7Timer
  t9Timer := d.t9Timer.getD c.t9Timer
  msdVersion := d.msdVersion.getD c.msdVersion

def defaultT10Ms : ℤ := 15000

def allTimers : List Timer := [.t2, .t5, .t6, .t7, .t9, .t10]

theorem mem_allTimers (t : Timer) : t ∈ allTimers := by cases t <;> decide

/-- A table of redial gaps has an entry at least. -/
abbrev GapTable := { gaps : List ℤ // gaps ≠ [] }

def defaultRedialTimeGaps : RedialMode → GapTable
  | .callOrig =>
    ⟨[5000, 60000, 60000, 60000, 180000, 180000, 180000, 180000, 180000, 180000], by decide⟩
  | .callDrop => ⟨[5000, 60000], by decide⟩

def redialAttemptsBounds : RedialMode → ℕ × ℕ
  | .callOrig => (1, 10)
  | .callDrop => (1, 2)

theorem ne_nil_of_bounds {config : RedialMode} {gaps : List ℤ}
    (h : (redialAttemptsBounds config).1 ≤ gaps.length) : gaps ≠ [] := by
  rintro rfl
  cases config <;> exact absurd h (by decide)

def redialModeName : RedialMode → String
  | .callOrig => "CALLORIG"
  | .callDrop => "CALLDROP"

inductive Request
  | startEcall (phoneId : ℤ) (type : EcallType) (isMsdTransmitted : Bool)
    (remotePartyNumber dialNumber : String)
  | endEcall (phoneId callIndex : ℤ)
  | answerEcall (phoneId callIndex : ℤ)
  | sendMsd (phoneId : ℤ)
  | setConfig (data : ConfigPatch)
  | getConfig
  | setOperatingMode (phoneId : ℤ) (mode : OperatingMode)
  | getOperatingMode (phoneId : ℤ)
  -- the type is `none` for UNKNOWN_TIMER
  | updateHlapTimer (phoneId : ℤ) (type : Option Timer) (timeDuration : ℤ)
  | requestHlapTimer (phoneId : ℤ) (type : Option Timer)
  | requestHlapTimerStatus (phoneId : ℤ)
  | requestNetworkDeregistration (phoneId : ℤ)
  | configureEcallRedial (config : RedialMode) (timeGap : List ℤ)
  | getEcallRedialConfig
  deriving DecidableEq

inductive ErrorCode
  | deviceInUse
  | invalidArguments
  | invalidState
  | notSupported
  deriving DecidableEq, Repr

inductive RspData
  | empty
  | call (callIndex : ℕ) (phoneId : ℤ) (callState : CallState) (direction : Direction)
    (remotePartyNumber : String)
  | config (config : EcallConfig)
  | redialConfig (callOrigTimeGap callDropTimeGap : List ℤ)
  | mode (mode : OperatingMode)
  | timeDuration (duration : ℤ)
  | hlapTimerStatus (status : List (Timer × TimerStatus))
  deriving DecidableEq

inductive Rsp
  | ok (data : RspData)
  | error (code : ErrorCode) (detail : String)
  deriving DecidableEq

/-- What is handed to `publish_fn`. -/
inductive Publication
  | rsp (corrId : ℕ) (rsp : Rsp)
  | hlapTimerEvent (phoneId : ℤ) (timer : Timer) (action : TimerAction)
  | msdTransmissionStatus (phoneId : ℤ) (status : MsdStatus)
  | callState (callIndex : ℕ) (phoneId : ℤ) (callState : CallState) (direction : Direction)
    (remotePartyNumber : String)
  | redial (phoneId : ℤ) (willRedial : Bool) (reason : RedialReason)
  | operatingMode (phoneId : ℤ) (mode : OperatingMode)
  | subsysReady (ready : Bool)
  deriving DecidableEq

/-- A key of `_hlap_timer_uuids` or of `_redial_timer_uuids`. -/
inductive TimerKey
  | hlap (phoneId : ℤ) (timer : Timer)
  | redial (phoneId : ℤ)
  deriving DecidableEq

inductive Event
  | messageReceived (corrId : ℕ) (q : Request)
  | sessionStart (phoneId : ℤ)
  | sessionHangup (phoneId : ℤ)
  | sessionHangupFromPsap (phoneId : ℤ)
  | sessionMsdPull (phoneId : ℤ)
  -- HlapTimerExpiry and RedialTimerExpiry
  | timerExpiry (key : TimerKey)
  | forceTimerFailure (timer : Timer)
  -- the config is `none` for SUCCESS
  | forceRedialMode (config : Option RedialMode) (succeedAtAttempt : Option ℤ)
  | resubscribe
  | stop
  deriving DecidableEq

structure EcallManagerAO where
  isNgEcallDevice : Bool
  /-- The next value of `_call_index_seq`. -/
  callIndexSeq : ℕ
  sessions : ℤ → Option EcallSession
  timerUuids : TimerKey → Option ℕ
  config : EcallConfig
  operatingMode : ℤ → Option OperatingMode
  hlapTimerStatus : ℤ → Option (Timer → TimerStatus)
  /-- The T10 entries, the only ones `_hlap_timer_config` has. -/
  hlapTimerConfig : ℤ → Option ℤ
  failedTimers : Finset Timer
  redialTimeGaps : RedialMode → GapTable
  redialConfig : Option (RedialMode × Option ℤ)
  fifo : List Event
  /-- The deferred posts that have not been made yet. -/
  scheduled : List (ℕ × TimerKey)
  nextUuid : ℕ
  published : List Publication
  stopped : Bool

namespace EcallManagerAO

/-- Ready has been entered and nothing has been received. -/
def ready (isNgEcallDevice : Bool) : EcallManagerAO where
  isNgEcallDevice := isNgEcallDevice
  callIndexSeq := 1
  sessions := fun _ => none
  timerUuids := fun _ => none
  config := defaultConfig
  operatingMode := fun _ => none
  hlapTimerStatus := fun _ => none
  hlapTimerConfig := fun _ => none
  failedTimers := ∅
  redialTimeGaps := defaultRedialTimeGaps
  redialConfig := none
  fifo := []
  scheduled := []
  nextUuid := 0
  published := [.subsysReady true]
  stopped := false

def postFifo (e : Event) (m : EcallManagerAO) : EcallManagerAO := { m with fifo := m.fifo ++ [e] }

def pub (x : Publication) (m : EcallManagerAO) : EcallManagerAO :=
  { m with published := m.published ++ [x] }

def pubRsp (corrId : ℕ) (data : RspData) (m : EcallManagerAO) : EcallManagerAO :=
  m.pub (.rsp corrId (.ok data))

def sendError (corrId : ℕ) (code : ErrorCode) (detail : String) (m : EcallManagerAO) :
    EcallManagerAO :=
  m.pub (.rsp corrId (.error code detail))

def setSession (phoneId : ℤ) (s : Option EcallSession) (m : EcallManagerAO) : EcallManagerAO :=
  { m with sessions := Function.update m.sessions phoneId s }

def timerDurationMs (m : EcallManagerAO) (phoneId : ℤ) : Timer → ℤ
  | .t5 | .t6 => 5000
  | .t10 => (m.hlapTimerConfig phoneId).getD defaultT10Ms
  | .t2 => m.config.t2Timer
  | .t7 => m.config.t7Timer
  | .t9 => m.config.t9Timer

/-- `_cancel_scheduled` of the uuid popped under the key. -/
def cancel (key : TimerKey) (m : EcallManagerAO) : EcallManagerAO :=
  { m with
    scheduled := m.scheduled.filter (fun x => some x.1 ≠ m.timerUuids key)
    timerUuids := Function.update m.timerUuids key none }

/-- A period is scheduled whatever its length: the source raises for one that fits no float. -/
def schedule (key : TimerKey) (periodMs : ℤ) (m : EcallManagerAO) : EcallManagerAO :=
  let m := m.cancel key
  if periodMs ≤ 0 then m.postFifo (.timerExpiry key)
  else
    { m with
      scheduled := m.scheduled ++ [(m.nextUuid, key)]
      timerUuids := Function.update m.timerUuids key (some m.nextUuid)
      nextUuid := m.nextUuid + 1 }

def scheduleHlapExpiry (phoneId : ℤ) (timer : Timer) (m : EcallManagerAO) : EcallManagerAO :=
  m.schedule (.hlap phoneId timer) (m.timerDurationMs phoneId timer)

def scheduleRedialExpiry (phoneId delayMs : ℤ) (m : EcallManagerAO) : EcallManagerAO :=
  m.schedule (.redial phoneId) delayMs

def defaultTimerStatus : Timer → TimerStatus := fun _ => .inactive

def timerStatus (m : EcallManagerAO) (phoneId : ℤ) : Timer → TimerStatus :=
  (m.hlapTimerStatus phoneId).getD defaultTimerStatus

def setTimerStatus (phoneId : ℤ) (timer : Timer) (status : TimerStatus) (m : EcallManagerAO) :
    EcallManagerAO :=
  { m with
    hlapTimerStatus := Function.update m.hlapTimerStatus phoneId
      (some (Function.update (m.timerStatus phoneId) timer status)) }

def clearCallSlot (phoneId : ℤ) (m : EcallManagerAO) : EcallManagerAO :=
  let m := m.setSession phoneId none
  let m := allTimers.foldl (fun m timer => m.cancel (.hlap phoneId timer)) m
  let m := m.cancel (.redial phoneId)
  { m with
    hlapTimerStatus := Function.update m.hlapTimerStatus phoneId (some defaultTimerStatus) }

/-- A timer's new status, and the event that tells of it. -/
def reportTimer (phoneId : ℤ) (timer : Timer) (action : TimerAction) (m : EcallManagerAO) :
    EcallManagerAO :=
  (m.setTimerStatus phoneId timer (if action = .started then .active else .inactive)).pub
    (.hlapTimerEvent phoneId timer action)

/-- The closures of `_make_session_callbacks`. -/
def perform (phoneId : ℤ) (m : EcallManagerAO) : Callback → EcallManagerAO
  | .changeCallState action remotePartyNumber =>
    match m.sessions phoneId with
    | none => m
    | some s =>
      m.pub (.callState s.callIndex phoneId (callStateByAction action) s.direction
        remotePartyNumber)
  | .startTimer timer =>
    (m.reportTimer phoneId timer .started).scheduleHlapExpiry phoneId timer
  | .sendEvent timer .start => m.reportTimer phoneId timer .started
  | .sendEvent timer .stop => m.reportTimer phoneId timer .stopped
  | .expiryTimer timer => m.reportTimer phoneId timer .expired
  | .msdTransmissionStatus status => m.pub (.msdTransmissionStatus phoneId status)
  | .onTerminal => m.clearCallSlot phoneId
  | .startRedialTimer delayMs => m.scheduleRedialExpiry phoneId delayMs
  | .onRedial willRedial reason => m.pub (.redial phoneId willRedial reason)

/-- A session is run and its callbacks are carried out. -/
def drive (phoneId : ℤ) (r : EcallSession × List Callback) (m : EcallManagerAO) : EcallManagerAO :=
  r.2.foldl (perform phoneId) (m.setSession phoneId (some r.1))

def getOperatingMode (m : EcallManagerAO) (phoneId : ℤ) : OperatingMode :=
  (m.operatingMode phoneId).getD .normal

def resolveCallTarget (m : EcallManagerAO) (type : EcallType)
    (remotePartyNumber dialNumber : String) : String × Bool × Bool :=
  if type = .priv then (dialNumber, false, true)
  else if remotePartyNumber ≠ "" then (remotePartyNumber, true, m.isNgEcallDevice)
  else if m.config.numType = .overridden ∧ m.config.overriddenNum ≠ "" then
    (m.config.overriddenNum, true, m.isNgEcallDevice)
  else ("", false, m.isNgEcallDevice)

/-- The redialling that is forced at the moment. -/
def redial (m : EcallManagerAO) : Option Redial :=
  m.redialConfig.map (fun c =>
    ⟨c.1, c.2, (m.redialTimeGaps c.1).val, (m.redialTimeGaps c.1).property⟩)

def openSession (corrId : ℕ) (phoneId : ℤ) (type : EcallType) (isMsdTransmitted : Bool)
    (remotePartyNumber dialNumber : String) (m : EcallManagerAO) : EcallManagerAO :=
  let target := m.resolveCallTarget type remotePartyNumber dialNumber
  let s : EcallSession :=
    { callIndex := m.callIndexSeq
      remotePartyNumber := target.1
      isMsdTransmitted := isMsdTransmitted
      isNgEcall := target.2.2
      isCustomNumberEcall := target.2.1
      direction := .mo
      failedTimers := m.failedTimers
      redial := m.redial
      redialAttempt := 0
      updateInProgress := false
      msdPull := false
      state := .callConnect }
  (({ m with callIndexSeq := m.callIndexSeq + 1 }.setSession phoneId (some s)).pubRsp corrId
    (.call s.callIndex phoneId .dialing .mo target.1)).postFifo (.sessionStart phoneId)

def handleStartEcall (corrId : ℕ) (phoneId : ℤ) (type : EcallType) (isMsdTransmitted : Bool)
    (remotePartyNumber dialNumber : String) (m : EcallManagerAO) : EcallManagerAO :=
  let opened (m : EcallManagerAO) :=
    m.openSession corrId phoneId type isMsdTransmitted remotePartyNumber dialNumber
  match m.sessions phoneId with
  | none => opened m
  | some s =>
    if s.state = .psapCallback ∨ s.state = .terminal then opened (m.clearCallSlot phoneId)
    else m.sendError corrId .deviceInUse "an eCall is already in progress on this phoneId"

/-- The user's hang-up: the slot is released once the call is in PSAPCallback. -/
def hangupFromUser (phoneId : ℤ) (s : EcallSession) (m : EcallManagerAO) : EcallManagerAO :=
  let m := m.drive phoneId s.hangup
  if s.hangup.1.state = .psapCallback then m.clearCallSlot phoneId else m

def unknownCallIndex : String := "unknown callIndex"

def handleEndEcall (corrId : ℕ) (phoneId callIndex : ℤ) (m : EcallManagerAO) : EcallManagerAO :=
  match (m.sessions phoneId).filter (·.callIndex = callIndex) with
  | none => m.sendError corrId .invalidArguments unknownCallIndex
  | some s => (m.hangupFromUser phoneId s).pubRsp corrId .empty

/-- No session is ever Incoming. -/
def handleAnswerEcall (corrId : ℕ) (phoneId callIndex : ℤ) (m : EcallManagerAO) : EcallManagerAO :=
  match (m.sessions phoneId).filter (·.callIndex = callIndex) with
  | none => m.sendError corrId .invalidArguments unknownCallIndex
  | some _ =>
    m.sendError corrId .invalidState "call is not in an answerable (Incoming) state"

def handleSendMsd (corrId : ℕ) (phoneId : ℤ) (m : EcallManagerAO) : EcallManagerAO :=
  match m.sessions phoneId with
  | none => m.sendError corrId .invalidArguments "no active eCall"
  | some _ => (m.pubRsp corrId .empty).postFifo (.sessionMsdPull phoneId)

def handleConfigureEcallRedial (corrId : ℕ) (config : RedialMode) (timeGap : List ℤ)
    (m : EcallManagerAO) : EcallManagerAO :=
  let bounds := redialAttemptsBounds config
  if h : bounds.1 ≤ timeGap.length ∧ timeGap.length ≤ bounds.2 then
    { m with redialTimeGaps :=
        Function.update m.redialTimeGaps config ⟨timeGap, ne_nil_of_bounds h.1⟩ }.pubRsp corrId .empty
  else
    m.sendError corrId .invalidArguments
      ("timeGap length must be " ++ toString bounds.1 ++ "-" ++ toString bounds.2 ++
        " for config=" ++ redialModeName config)

def handleSetOperatingMode (corrId : ℕ) (phoneId : ℤ) (mode : OperatingMode) (m : EcallManagerAO) :
    EcallManagerAO :=
  ({ m with operatingMode := Function.update m.operatingMode phoneId (some mode) }.pubRsp corrId
    .empty).pub (.operatingMode phoneId mode)

def handleUpdateHlapTimer (corrId : ℕ) (phoneId : ℤ) (type : Option Timer) (timeDuration : ℤ)
    (m : EcallManagerAO) : EcallManagerAO :=
  if type ≠ some .t10 then
    m.sendError corrId .notSupported "only T10 is supported by updateEcallHlapTimer"
  else
    { m with hlapTimerConfig :=
        Function.update m.hlapTimerConfig phoneId (some timeDuration) }.pubRsp corrId .empty

def handleRequestHlapTimer (corrId : ℕ) (phoneId : ℤ) (type : Option Timer) (m : EcallManagerAO) :
    EcallManagerAO :=
  if type ≠ some .t10 then
    m.sendError corrId .notSupported "only T10 is supported by requestEcallHlapTimer"
  else m.pubRsp corrId (.timeDuration ((m.hlapTimerConfig phoneId).getD defaultT10Ms))

def handleRequestHlapTimerStatus (corrId : ℕ) (phoneId : ℤ) (m : EcallManagerAO) : EcallManagerAO :=
  m.pubRsp corrId (.hlapTimerStatus (allTimers.map (fun t => (t, m.timerStatus phoneId t))))

/-- T9 is inactive and T10 active. -/
def mayDeregister (m : EcallManagerAO) (phoneId : ℤ) : Bool :=
  m.timerStatus phoneId .t9 = .inactive && m.timerStatus phoneId .t10 = .active

def handleRequestNetworkDeregistration (corrId : ℕ) (phoneId : ℤ) (m : EcallManagerAO) :
    EcallManagerAO :=
  if !m.mayDeregister phoneId then
    m.sendError corrId .invalidState "T9 must be inactive and T10 active"
  else
    let m := m.pubRsp corrId .empty
    match m.sessions phoneId with
    | none => m
    | some s => m.drive phoneId s.networkDeregistrationRequest

def dispatchMessage (corrId : ℕ) (m : EcallManagerAO) : Request → EcallManagerAO
  | .startEcall phoneId type isMsdTransmitted remotePartyNumber dialNumber =>
    m.handleStartEcall corrId phoneId type isMsdTransmitted remotePartyNumber dialNumber
  | .endEcall phoneId callIndex => m.handleEndEcall corrId phoneId callIndex
  | .answerEcall phoneId callIndex => m.handleAnswerEcall corrId phoneId callIndex
  | .sendMsd phoneId => m.handleSendMsd corrId phoneId
  | .setConfig data => { m with config := m.config.patch data }.pubRsp corrId .empty
  | .getConfig => m.pubRsp corrId (.config m.config)
  | .setOperatingMode phoneId mode => m.handleSetOperatingMode corrId phoneId mode
  | .getOperatingMode phoneId => m.pubRsp corrId (.mode (m.getOperatingMode phoneId))
  | .updateHlapTimer phoneId type timeDuration =>
    m.handleUpdateHlapTimer corrId phoneId type timeDuration
  | .requestHlapTimer phoneId type => m.handleRequestHlapTimer corrId phoneId type
  | .requestHlapTimerStatus phoneId => m.handleRequestHlapTimerStatus corrId phoneId
  | .requestNetworkDeregistration phoneId => m.handleRequestNetworkDeregistration corrId phoneId
  | .configureEcallRedial config timeGap => m.handleConfigureEcallRedial corrId config timeGap
  | .getEcallRedialConfig =>
    m.pubRsp corrId (.redialConfig (m.redialTimeGaps .callOrig).val (m.redialTimeGaps .callDrop).val)

def runSession (phoneId : ℤ) (f : EcallSession → EcallSession × List Callback)
    (m : EcallManagerAO) : EcallManagerAO :=
  match m.sessions phoneId with
  | none => m
  | some s => m.drive phoneId (f s)

def runSessionHangup (phoneId : ℤ) (fromPsap : Bool) (m : EcallManagerAO) : EcallManagerAO :=
  if fromPsap then m.runSession phoneId EcallSession.hangup
  else
    match m.sessions phoneId with
    | none => m
    | some s => m.hangupFromUser phoneId s

/-- `_run_hlap_timer_expiry` and `_run_redial_timer_expiry`: the uuid is forgotten, which cancels
nothing. -/
def runTimerExpiry (key : TimerKey) (m : EcallManagerAO) : EcallManagerAO :=
  let m := { m with timerUuids := Function.update m.timerUuids key none }
  match key with
  | .hlap phoneId timer =>
    m.runSession phoneId (EcallSession.onHlapTimerExpiry timer (m.getOperatingMode phoneId))
  | .redial phoneId => m.runSession phoneId EcallSession.onRedialTimerExpiry

def applyForceTimerFailure (timer : Timer) (m : EcallManagerAO) : EcallManagerAO :=
  if timer = .t5 ∨ timer = .t6 ∨ timer = .t7 then
    { m with failedTimers := insert timer m.failedTimers }
  else m

def applyForceRedialMode (config : Option RedialMode) (succeedAtAttempt : Option ℤ)
    (m : EcallManagerAO) : EcallManagerAO :=
  { m with redialConfig := config.map (fun mode => (mode, succeedAtAttempt)) }

/-- Ready is left, every scheduled timer is cancelled and the sessions are dropped. -/
def doStop (m : EcallManagerAO) : EcallManagerAO :=
  { m.pub (.subsysReady false) with
    scheduled := m.scheduled.filter (fun x => m.timerUuids x.2 ≠ some x.1)
    timerUuids := fun _ => none
    sessions := fun _ => none
    stopped := true }

def handleEvent (m : EcallManagerAO) : Event → EcallManagerAO
  | .messageReceived corrId q => m.dispatchMessage corrId q
  | .sessionStart phoneId => m.runSession phoneId EcallSession.start
  | .sessionHangup phoneId => m.runSessionHangup phoneId false
  | .sessionHangupFromPsap phoneId => m.runSessionHangup phoneId true
  | .sessionMsdPull phoneId => m.runSession phoneId EcallSession.msdPullRequest
  | .timerExpiry key => m.runTimerExpiry key
  | .forceTimerFailure timer => m.applyForceTimerFailure timer
  | .forceRedialMode config succeedAtAttempt => m.applyForceRedialMode config succeedAtAttempt
  | .resubscribe => m.pub (.subsysReady true)
  | .stop => m.doStop

def handle (m : EcallManagerAO) : Option EcallManagerAO :=
  match m.fifo with
  | [] => none
  | e :: fifo => if m.stopped then none else some ({ m with fifo := fifo }.handleEvent e)

/-- The time of a deferred post has come. -/
def elapse (uuid : ℕ) (m : EcallManagerAO) : Option EcallManagerAO :=
  (m.scheduled.lookup uuid).map (fun key =>
    { m with scheduled := m.scheduled.filter (·.1 ≠ uuid) }.postFifo (.timerExpiry key))

/-- The public methods, and what happens by itself. -/
inductive Label
  | handleMessage (corrId : ℕ) (q : Request)
  | forceEcallTimerFailure (timer : Timer)
  | forceMsdPullRequest (phoneId : ℤ)
  | forceHangupFromPsap (phoneId : ℤ)
  | forceEcallRedialMode (config : Option RedialMode) (succeedAtAttempt : Option ℤ)
  | resubscribe
  | stop
  | elapse (uuid : ℕ)
  | handle
  deriving DecidableEq

def step (m : EcallManagerAO) : Label → Option EcallManagerAO
  | .handleMessage corrId q => some (m.postFifo (.messageReceived corrId q))
  | .forceEcallTimerFailure timer => some (m.postFifo (.forceTimerFailure timer))
  | .forceMsdPullRequest phoneId => some (m.postFifo (.sessionMsdPull phoneId))
  | .forceHangupFromPsap phoneId => some (m.postFifo (.sessionHangupFromPsap phoneId))
  | .forceEcallRedialMode config succeedAtAttempt =>
    some (m.postFifo (.forceRedialMode config succeedAtAttempt))
  | .resubscribe => some (m.postFifo .resubscribe)
  | .stop => some (m.postFifo .stop)
  | .elapse uuid => m.elapse uuid
  | .handle => m.handle

end EcallManagerAO

end TelafSim.Ecall
