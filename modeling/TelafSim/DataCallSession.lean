import TelafSim.DataCall
import TelafSim.DataSession

/-!
# The session of a data call, with the call it fills in

The states of `SimulaDataCallSession` once more, over the whole `SimulaDataCall`, with the requests
it sends, the callbacks it calls and the notifications it makes. A notification is kept as the call
stood when the session made it. The handlers move between the states as those of `sessionChart` do,
so the engine's runs on bare signals are shared.
-/

namespace TelafSim.Data

/-- `none` is the nullopt of a request that was not answered. -/
inductive CallEvent
  | start
  | stop (cb : Option ℕ)
  | stateInd (data : Option CallStateData)
  | startRsp (rsp : Option Answer)
  | stopRsp (rsp : Option Answer)
  | listRsp (rsp : Option Answer)
  | bringupTimeout
  | teardownTimeout
  deriving DecidableEq

structure CallRequest where
  kind : RpcKind
  profileId : Option ℤ
  ipFamily : Option String
  ifname : Option String
  opType : String
  slot : ℤ
  deriving DecidableEq

/-- A response callback, and the call it was handed. -/
structure CallResponse where
  cb : ℕ
  call : Option SimulaDataCall
  code : ErrorCode
  deriving DecidableEq

/-- `recalling` holds deferred events that entering WaitingForUp has yet to post. -/
structure CallSession where
  slotId : ℤ
  operationType : OperationType
  call : SimulaDataCall
  startCb : Option ℕ
  stopCb : Option ℕ := none
  deferred : List CallEvent := []
  recalling : List CallEvent := []
  armed : List TimerKind := []
  requests : List CallRequest := []
  responses : List CallResponse := []
  finished : List ℤ := []
  /-- The call as it was at each notification. The listeners are handed the object itself, and what
  they read of it later is not recorded. -/
  notified : List SimulaDataCall := []

namespace CallSession

def update (f : SimulaDataCall → SimulaDataCall) (s : CallSession) : CallSession :=
  { s with call := f s.call }

def notifyListeners (s : CallSession) : CallSession := { s with notified := s.notified ++ [s.call] }

def onFinished (profileId : ℤ) (s : CallSession) : CallSession :=
  { s with finished := s.finished ++ [profileId] }

/-- A null callback is not called. -/
def respond (cb : Option ℕ) (call : Option SimulaDataCall) (code : ErrorCode) (s : CallSession) :
    CallSession :=
  { s with responses := s.responses ++ cb.toList.map (⟨·, call, code⟩) }

def sendRequest (r : CallRequest) (s : CallSession) : CallSession :=
  { s with requests := s.requests ++ [r] }

/-- The request that starts or stops the call. -/
def callRequest (kind : RpcKind) (profileId : ℤ) (s : CallSession) : CallRequest where
  kind := kind
  profileId := some profileId
  ipFamily := some (ipFamilyToWire s.call.ipFamilyType)
  ifname := some s.call.interfaceName
  opType := opTypeToWire s.operationType
  slot := s.slotId

def listRequest (s : CallSession) : CallRequest where
  kind := .listDataCall
  profileId := none
  ipFamily := none
  ifname := none
  opType := opTypeToWire s.operationType
  slot := s.slotId

def arm (t : TimerKind) (s : CallSession) : CallSession := { s with armed := t :: s.armed.erase t }

def disarm (t : TimerKind) (s : CallSession) : CallSession := { s with armed := s.armed.erase t }

def adoptIfname (ifname : Option String) (s : CallSession) : CallSession :=
  if ifname.getD "" = "" then s else s.update (.setInterfaceName (ifname.getD ""))

def adoptBearer : Option String → CallSession → CallSession
  | none, s => s
  | some bearer, s => s.update (.setBearerTech (wireToBearerTech bearer))

def adoptEndReason : Option EndReason → CallSession → CallSession
  | none, s => s
  | some reason, s => s.update (.setEndReason (decodeEndReason reason))

def connectedInd (data : CallStateData) (s : CallSession) : CallSession :=
  (((s.update (.setStatus .netConnected)).adoptIfname data.ifname).update
    (.applyAddrInfo data .netConnected)).adoptBearer data.bearerTech

/-- An indication that the call changed its addresses. -/
def addressInd (data : CallStateData) (s : CallSession) : CallSession :=
  ((s.update (.setStatus data.callStatus)).update
    (.applyAddrInfo data data.callStatus)).notifyListeners

/-- A further CONNECTED, which leaves the overall status as it is. -/
def repeatedInd (data : CallStateData) (s : CallSession) : CallSession :=
  let s := s.adoptBearer data.bearerTech
  if s.call.addrInfoDiffers data then
    (s.update (.applyAddrInfo data .netConnected)).notifyListeners
  else s

def noNetInd (data : CallStateData) (s : CallSession) : CallSession :=
  ((s.update (.setStatus .netNoNet)).adoptEndReason data.endReason).notifyListeners

/-- The list shows the call of `profileId` connected. -/
def stillUp (profileId : ℤ) (data : Option AnswerData) : Bool :=
  ((data.bind (·.calls)).getD []).any (fun c =>
    c.profileId.getD (-1) = profileId ∧ wireToCallStatus (c.status.getD "") = .netConnected)

abbrev CallReply := Reply SessionState CallSession

def idleSt : Event CallEvent → CallSession → CallReply
  | .entry, s => .handled s
  | .exit, s => .handled s
  | .user .start, s => .toState (some .sendingStartReq) s
  | _, s => .super none s

def activeSt : Event CallEvent → CallSession → CallReply
  | .entry, s => .handled s
  | .exit, s => .handled s
  | .user (.stop cb), s => .handled (s.respond cb (some s.call) .opInProgress)
  | _, s => .super none s

def sendingStartReqSt (profileId : ℤ) : Event CallEvent → CallSession → CallReply
  | .entry, s => .handled (s.sendRequest (s.callRequest .startDataCall profileId))
  | .user (.stop cb), s => .handled { s with deferred := s.deferred ++ [.stop cb] }
  | .user (.startRsp none), s =>
    .toState (some .terminal) ((s.respond s.startCb none .operationTimeout).onFinished profileId)
  | .user (.startRsp (some (.error code))), s =>
    .toState (some .terminal)
      ((s.respond s.startCb none (.wire (code.getD ""))).onFinished profileId)
  | .user (.startRsp (some (.ok data))), s =>
    let s := (s.update (.setStatus .netConnecting)).adoptIfname (data.bind (·.ifname))
    .toState (some .waitingForUp) (s.respond s.startCb (some s.call) .success)
  | _, s => .super (some .active) s

def waitingForUpSt : Event CallEvent → CallSession → CallReply
  | .entry, s => .handled { s.arm .bringup with recalling := s.deferred, deferred := [] }
  | .exit, s => .handled (s.disarm .bringup)
  | .user (.stateInd none), s => .handled s
  | .user (.stateInd (some data)), s =>
    match data.callStatus with
    | .netConnected => .toState (some .connected) (s.connectedInd data)
    | .netNoNet => .toState (some .terminal) (s.noNetInd data)
    | _ => .handled s
  | .user .bringupTimeout, s =>
    .toState (some .terminal)
      ((s.update (.setEndReason {})).update (.setStatus .netNoNet)).notifyListeners
  | .user (.stop cb), s => .toState (some .sendingStopReq) { s with stopCb := cb }
  | _, s => .super (some .active) s

def connectedSt : Event CallEvent → CallSession → CallReply
  | .entry, s => .handled s.notifyListeners
  | .user (.stateInd none), s => .handled s
  | .user (.stateInd (some data)), s =>
    match data.callStatus with
    | .netReconfigured => .handled (s.addressInd data)
    | .netNewAddr => .handled (s.addressInd data)
    | .netDelAddr => .handled (s.addressInd data)
    | .netConnected => .handled (s.repeatedInd data)
    | .netNoNet => .toState (some .terminal) (s.noNetInd data)
    | _ => .handled s
  | .user (.stop cb), s => .toState (some .sendingStopReq) { s with stopCb := cb }
  | _, s => .super (some .active) s

def sendingStopReqSt (profileId : ℤ) : Event CallEvent → CallSession → CallReply
  | .entry, s => .handled (s.sendRequest (s.callRequest .stopDataCall profileId))
  | .user (.stopRsp (some (.ok _))), s =>
    let s := s.update (.setStatus .netDisconnecting)
    .toState (some .waitingForDown) (s.respond s.stopCb (some s.call) .success)
  | .user (.stopRsp _), s => .toState (some .reconciling) s
  | _, s => .super (some .active) s

def waitingForDownSt : Event CallEvent → CallSession → CallReply
  | .entry, s => .handled (s.arm .teardown)
  | .exit, s => .handled (s.disarm .teardown)
  | .user (.stateInd none), s => .handled s
  | .user (.stateInd (some data)), s =>
    match data.callStatus with
    | .netNoNet => .toState (some .terminal) (s.noNetInd data)
    | _ => .handled s
  | .user .teardownTimeout, s =>
    .toState (some .terminal) (s.update (.setStatus .netNoNet)).notifyListeners
  | _, s => .super (some .active) s

def reconcilingSt (profileId : ℤ) : Event CallEvent → CallSession → CallReply
  | .entry, s => .handled (s.sendRequest s.listRequest)
  | .user (.listRsp (some (.ok data))), s =>
    if stillUp profileId data then
      let s := s.update (.setStatus .netConnected)
      .toState (some .connected) (s.respond s.stopCb none .genericFailure)
    else
      let s := s.update (.setStatus .netNoNet)
      .toState (some .terminal) (s.respond s.stopCb (some s.call) .success).notifyListeners
  | .user (.listRsp _), s =>
    let s := s.update (.setStatus .netNoNet)
    .toState (some .terminal) (s.respond s.stopCb none .genericFailure).notifyListeners
  | _, s => .super (some .active) s

/-- The entry does not notify: whoever came here with a call did. -/
def terminalSt (profileId : ℤ) : Event CallEvent → CallSession → CallReply
  | .entry, s => .handled (s.onFinished profileId)
  | _, s => .handled s

def callChart (profileId : ℤ) : Chart SessionState CallEvent CallSession where
  handler
    | .idle => idleSt
    | .active => activeSt
    | .sendingStartReq => sendingStartReqSt profileId
    | .waitingForUp => waitingForUpSt
    | .connected => connectedSt
    | .sendingStopReq => sendingStopReqSt profileId
    | .waitingForDown => waitingForDownSt
    | .reconciling => reconcilingSt profileId
    | .terminal => terminalSt profileId

end CallSession

namespace CallEvent

def answered : Option Answer → Bool
  | some (.ok _) => true
  | _ => false

def listsUp (profileId : ℤ) : Option Answer → Bool
  | some (.ok data) => CallSession.stillUp profileId data
  | _ => false

def indSignal : Option CallStateData → SessionSignal
  | none => .otherInd
  | some data =>
    match data.callStatus with
    | .netConnected => .connectedInd
    | .netNoNet => .noNetInd
    | _ => .otherInd

def signal (profileId : ℤ) : CallEvent → SessionSignal
  | .start => .start
  | .stop _ => .stop
  | .stateInd data => indSignal data
  | .startRsp rsp => .startRsp (answered rsp)
  | .stopRsp rsp => .stopRsp (answered rsp)
  | .listRsp rsp => .listRsp (listsUp profileId rsp)
  | .bringupTimeout => .bringupTimeout
  | .teardownTimeout => .teardownTimeout

end CallEvent

namespace CallSession

def react (profileId : ℤ) (st : SessionState) (e : CallEvent) (s : CallSession) :
    SessionState × CallSession :=
  let path := sessionPath st (e.signal profileId)
  (path.1, (callChart profileId).applyAll s (path.2.map (Chart.liftAction e)))

theorem react_ne_active (profileId : ℤ) {st : SessionState} (hst : st ≠ .active) (e : CallEvent)
    (s : CallSession) : (react profileId st e s).1 ≠ .active :=
  sessionPath_ne_active st _ hst

@[simp] theorem update_call (f : SimulaDataCall → SimulaDataCall) (s : CallSession) :
    (s.update f).call = f s.call := rfl

@[simp] theorem update_notified (f : SimulaDataCall → SimulaDataCall) (s : CallSession) :
    (s.update f).notified = s.notified := rfl

@[simp] theorem notifyListeners_call (s : CallSession) : s.notifyListeners.call = s.call := rfl

@[simp] theorem notifyListeners_notified (s : CallSession) :
    s.notifyListeners.notified = s.notified ++ [s.call] := rfl

@[simp] theorem adoptIfname_status (ifname : Option String) (s : CallSession) :
    (s.adoptIfname ifname).call.status = s.call.status := by
  unfold adoptIfname
  split <;> rfl

@[simp] theorem adoptIfname_notified (ifname : Option String) (s : CallSession) :
    (s.adoptIfname ifname).notified = s.notified := by
  unfold adoptIfname
  split <;> rfl

@[simp] theorem adoptBearer_status (bearer : Option String) (s : CallSession) :
    (s.adoptBearer bearer).call.status = s.call.status := by cases bearer <;> rfl

@[simp] theorem adoptBearer_notified (bearer : Option String) (s : CallSession) :
    (s.adoptBearer bearer).notified = s.notified := by cases bearer <;> rfl

@[simp] theorem adoptEndReason_notified (reason : Option EndReason) (s : CallSession) :
    (s.adoptEndReason reason).notified = s.notified := by cases reason <;> rfl

section Indications

variable (data : CallStateData) (s : CallSession)

theorem connectedInd_status : (s.connectedInd data).call.status = .netConnected := by
  simp [connectedInd]

theorem connectedInd_notified : (s.connectedInd data).notified = s.notified := by
  simp [connectedInd]

theorem addressInd_status : (s.addressInd data).call.status = data.callStatus := by
  simp [addressInd]

theorem addressInd_notified :
    (s.addressInd data).notified = s.notified ++ [(s.addressInd data).call] := by
  simp [addressInd]

theorem repeatedInd_status : (s.repeatedInd data).call.status = s.call.status := by
  unfold repeatedInd
  dsimp only
  split <;> simp

theorem repeatedInd_notified : (s.repeatedInd data).notified = s.notified ∨
    (s.repeatedInd data).notified = s.notified ++ [(s.repeatedInd data).call] := by
  unfold repeatedInd
  dsimp only
  split
  · right
    simp
  · left
    simp

theorem noNetInd_notified :
    (s.noNetInd data).notified = s.notified ++ [(s.noNetInd data).call] := by
  simp [noNetInd]

theorem noNetInd_down : (s.noNetInd data).call.Down := by
  unfold noNetInd
  cases data.endReason with
  | none => exact s.call.down_setStatus
  | some reason => exact s.call.down_setStatus.setEndReason _

end Indications

end CallSession

end TelafSim.Data
