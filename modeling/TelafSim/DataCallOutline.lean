import TelafSim.DataCallSession
import TelafSim.Trace

/-!
# The outline of a data call session

`DataSession` keeps of a call its status, its interface and one address. Given the outlines of the
same events, its handlers answer as the full ones: the full session has the same control, and goes
through the same states, with the same status and interface in each.
-/

namespace TelafSim.Data

def DataCallStatus.outline : DataCallStatus → CallStatus
  | .invalid => .idle
  | .netConnected => .connected
  | .netNoNet => .noNet
  | .netIdle => .idle
  | .netConnecting => .connecting
  | .netDisconnecting => .disconnecting
  | .netReconfigured => .reconfigured
  | .netNewAddr => .newAddr
  | .netDelAddr => .delAddr

def CallStateData.outline (profileId : ℤ) (data : CallStateData) : CallState where
  profileId := profileId
  status := data.callStatus.outline
  ifname := data.ifname.getD ""
  addr := data.ipv4.map (·.ifAddress.getD "")

def ListedCall.outline (c : ListedCall) : CallState where
  profileId := c.profileId.getD (-1)
  status := (wireToCallStatus (c.status.getD "")).outline
  ifname := ""
  addr := none

def Answer.outline : Answer → Rsp
  | .error code => .error (code.getD "")
  | .ok data => .ok
      { ifname := (data.bind (·.ifname)).getD ""
        calls := ((data.bind (·.calls)).getD []).map ListedCall.outline }

/-- A null callback is outlined by the id 0. -/
def CallEvent.outline (profileId : ℤ) : CallEvent → SessionEvent
  | .start => .start
  | .stop cb => .stop (cb.getD 0)
  | .stateInd data => .stateInd (data.map (CallStateData.outline profileId))
  | .startRsp rsp => .startRsp (rsp.map Answer.outline)
  | .stopRsp rsp => .stopRsp (rsp.map Answer.outline)
  | .listRsp rsp => .listRsp (rsp.map Answer.outline)
  | .bringupTimeout => .bringupTimeout
  | .teardownTimeout => .teardownTimeout

theorem stillUp_outline (profileId : ℤ) (data : Option AnswerData) :
    stillUp profileId ⟨(data.bind (·.ifname)).getD "",
        ((data.bind (·.calls)).getD []).map ListedCall.outline⟩ =
      CallSession.stillUp profileId data := by
  have hstatus : ∀ status : DataCallStatus,
      status.outline = .connected ↔ status = .netConnected := by
    intro status
    cases status <;> decide
  simp only [stillUp, CallSession.stillUp, List.any_map, Function.comp_def, ListedCall.outline,
    hstatus]

theorem signal_outline (profileId : ℤ) (e : CallEvent) :
    (e.outline profileId).signal profileId = e.signal profileId := by
  rcases e with _ | cb | data | rsp | rsp | rsp | _ | _
  case stateInd =>
    rcases data with _ | data
    · rfl
    · simp only [CallEvent.outline, CallEvent.signal, SessionEvent.signal, CallEvent.indSignal,
        Option.map_some, indSignal, CallStateData.outline]
      cases data.callStatus <;> rfl
  case startRsp | stopRsp => rcases rsp with _ | _ | _ <;> rfl
  case listRsp =>
    rcases rsp with _ | _ | data
    · rfl
    · rfl
    · exact congrArg SessionSignal.listRsp (stillUp_outline profileId data)
  all_goals rfl

namespace CallSession

/-- The two stand alike in what the outline keeps of the call. -/
structure Outlines (k : Session) (s : CallSession) : Prop where
  status : k.status = s.call.status.outline
  ifname : k.ifname = s.call.interfaceName

theorem react_outline (profileId : ℤ) {st : SessionState} (hst : st ≠ .active) (e : CallEvent)
    (s : CallSession) (k : Session) :
    (react profileId st e s).1 = (Data.react profileId st (e.outline profileId) k).1 := by
  rw [Data.react_eq profileId hst, signal_outline]
  rfl

theorem Outlines.adoptIfname {k : Session} {s : CallSession} (h : Outlines k s)
    (ifname : Option String) :
    Outlines (k.setInterfaceName (ifname.getD "")) (s.adoptIfname ifname) := by
  unfold Session.setInterfaceName CallSession.adoptIfname
  split
  · exact h
  · exact ⟨h.status, rfl⟩

theorem Outlines.applyAddrInfo {k : Session} {s : CallSession} (h : Outlines k s)
    (data : CallStateData) (status : DataCallStatus) :
    Outlines k (s.update (.applyAddrInfo data status)) :=
  ⟨by simp [h.status], by simp [h.ifname]⟩

theorem Outlines.adoptBearer {k : Session} {s : CallSession} (h : Outlines k s)
    (bearer : Option String) : Outlines k (s.adoptBearer bearer) := by
  cases bearer <;> exact ⟨h.status, h.ifname⟩

theorem Outlines.update {k : Session} {s : CallSession} (h : Outlines k s)
    (status : DataCallStatus) :
    Outlines (k.setStatus status.outline) (s.update (.setStatus status)) := by
  refine ⟨?_, ?_⟩
  · simp [Session.setStatus]
  · simp [Session.setStatus, h.ifname]

theorem Outlines.addressInd {k : Session} {s : CallSession} (h : Outlines k s)
    (data : CallStateData) :
    Outlines (k.setStatus data.callStatus.outline) (s.addressInd data) := by
  have hchanged := (h.update data.callStatus).applyAddrInfo data data.callStatus
  exact ⟨hchanged.status, hchanged.ifname⟩

theorem Outlines.repeatedInd {k : Session} {s : CallSession} (h : Outlines k s)
    (data : CallStateData) : Outlines k (s.repeatedInd data) := by
  have hbearer := h.adoptBearer data.bearerTech
  have haddr := hbearer.applyAddrInfo data .netConnected
  unfold CallSession.repeatedInd
  dsimp only
  split
  · exact ⟨haddr.status, haddr.ifname⟩
  · exact hbearer

theorem Outlines.noNetInd {k : Session} {s : CallSession} (h : Outlines k s)
    (data : CallStateData) : Outlines k.goDown (s.noNetInd data) := by
  have hdown := h.update .netNoNet
  unfold CallSession.noNetInd
  cases data.endReason <;> exact ⟨hdown.status, hdown.ifname⟩

theorem connectedSt_connected {d : CallState} (h : d.status = .connected) (k : Session) :
    ∃ k', Data.connectedSt (.user (.stateInd (some d))) k = .handled k' ∧ k'.status = k.status ∧
      k'.ifname = k.ifname := by
  simp only [Data.connectedSt, h]
  split
  · exact ⟨_, rfl, rfl, rfl⟩
  · exact ⟨_, rfl, rfl, rfl⟩

/-- Two handlers answer alike, and leave what stands alike. -/
structure AnswersAlike (r : SessionReply) (r' : CallReply) : Prop where
  status : r'.status = r.status
  temp : r'.temp = r.temp
  outlines : Outlines r.ext r'.ext

theorem Outlines.stateInd (profileId : ℤ) (st : SessionState) (data : CallStateData)
    {k : Session} {s : CallSession} (h : Outlines k s) :
    AnswersAlike ((sessionChart profileId).handler st
        (.user (.stateInd (some (data.outline profileId)))) k)
      ((callChart profileId).handler st (.user (.stateInd (some data))) s) := by
  cases st <;> try exact ⟨rfl, rfl, h.status, h.ifname⟩
  case waitingForUp =>
    simp only [sessionChart, Data.waitingForUpSt, CallStateData.outline, callChart, waitingForUpSt]
    cases data.callStatus
    case netConnected =>
      have hup := (((h.update .netConnected).adoptIfname data.ifname).applyAddrInfo data
        .netConnected).adoptBearer data.bearerTech
      exact ⟨rfl, rfl, hup.status, hup.ifname⟩
    case netNoNet => exact ⟨rfl, rfl, h.noNetInd data⟩
    all_goals exact ⟨rfl, rfl, h.status, h.ifname⟩
  case connected =>
    have haddress := h.addressInd data
    have hrepeated := h.repeatedInd data
    cases hstatus : data.callStatus
    case netConnected =>
      have hconnected : (data.outline profileId).status = .connected := by
        simp only [CallStateData.outline, hstatus, DataCallStatus.outline]
      obtain ⟨k', hk', hkept, hkept'⟩ := connectedSt_connected hconnected k
      simp only [sessionChart, hk', callChart, connectedSt, hstatus]
      exact ⟨rfl, rfl, hkept.trans hrepeated.status, hkept'.trans hrepeated.ifname⟩
    all_goals simp only [sessionChart, Data.connectedSt, CallStateData.outline, callChart,
      connectedSt, hstatus]
    case netReconfigured | netNewAddr | netDelAddr =>
      rw [hstatus] at haddress
      exact ⟨rfl, rfl, haddress.status, haddress.ifname⟩
    case netNoNet => exact ⟨rfl, rfl, h.noNetInd data⟩
    all_goals exact ⟨rfl, rfl, h.status, h.ifname⟩
  case waitingForDown =>
    simp only [sessionChart, Data.waitingForDownSt, CallStateData.outline, callChart,
      waitingForDownSt]
    cases data.callStatus
    case netNoNet => exact ⟨rfl, rfl, h.noNetInd data⟩
    all_goals exact ⟨rfl, rfl, h.status, h.ifname⟩

theorem Outlines.handler (profileId : ℤ) (st : SessionState) (ev : Event CallEvent)
    {k : Session} {s : CallSession} (h : Outlines k s) :
    AnswersAlike ((sessionChart profileId).handler st (ev.map (CallEvent.outline profileId)) k)
      ((callChart profileId).handler st ev s) := by
  rcases ev with _ | _ | _ | _ | e
  case user =>
    rcases e with _ | cb | data | rsp | rsp | rsp | _ | _
    case stateInd =>
      rcases data with _ | data
      · cases st <;> exact ⟨rfl, rfl, h.status, h.ifname⟩
      · exact h.stateInd profileId st data
    case startRsp =>
      rcases rsp with _ | _ | data
      · cases st <;> exact ⟨rfl, rfl, h.status, h.ifname⟩
      · cases st <;> exact ⟨rfl, rfl, h.status, h.ifname⟩
      · cases st <;> try exact ⟨rfl, rfl, h.status, h.ifname⟩
        have hup := (h.update .netConnecting).adoptIfname (data.bind (·.ifname))
        exact ⟨rfl, rfl, hup.status, hup.ifname⟩
    case stopRsp =>
      rcases rsp with _ | _ | data
      · cases st <;> exact ⟨rfl, rfl, h.status, h.ifname⟩
      · cases st <;> exact ⟨rfl, rfl, h.status, h.ifname⟩
      · cases st <;> first | exact ⟨rfl, rfl, h.status, h.ifname⟩ | exact ⟨rfl, rfl, rfl, h.ifname⟩
    case listRsp =>
      rcases rsp with _ | _ | data
      · cases st <;> first | exact ⟨rfl, rfl, h.status, h.ifname⟩ | exact ⟨rfl, rfl, rfl, h.ifname⟩
      · cases st <;> first | exact ⟨rfl, rfl, h.status, h.ifname⟩ | exact ⟨rfl, rfl, rfl, h.ifname⟩
      · cases st <;> try exact ⟨rfl, rfl, h.status, h.ifname⟩
        simp only [Event.map, CallEvent.outline, Option.map_some, Answer.outline, sessionChart,
          Data.reconcilingSt, stillUp_outline, callChart, reconcilingSt]
        split <;> exact ⟨rfl, rfl, rfl, h.ifname⟩
    all_goals cases st <;>
      first | exact ⟨rfl, rfl, h.status, h.ifname⟩ | exact ⟨rfl, rfl, rfl, h.ifname⟩
  all_goals cases st <;> exact ⟨rfl, rfl, h.status, h.ifname⟩

theorem Outlines.react {k : Session} {s : CallSession} (h : Outlines k s) {profileId : ℤ}
    {st : SessionState} (hst : st ≠ .active) (e : CallEvent) :
    Outlines (Data.react profileId st (e.outline profileId) k).2 (react profileId st e s).2 := by
  rw [Data.react_eq profileId hst, signal_outline]
  exact Chart.applyAll_related (R := fun s k => Outlines k s)
    (fun st ev s k h => (h.handler profileId st ev).outlines) e _ h

theorem exists_outlines (s : CallSession) : ∃ k, Outlines k s :=
  ⟨⟨0, none, [], s.call.status.outline, s.call.interfaceName, "", []⟩, rfl, rfl⟩

theorem map_signal_outline (profileId : ℤ) (ev : Event CallEvent) :
    (ev.map (CallEvent.outline profileId)).map (SessionEvent.signal profileId) =
      ev.map (CallEvent.signal profileId) := by
  cases ev with
  | user e => exact congrArg Event.user (signal_outline profileId e)
  | _ => rfl

theorem callChart_controlled (profileId : ℤ) :
    (callChart profileId).Controlled sessionControl (CallEvent.signal profileId) where
  status st ev s := by
    obtain ⟨k, hk⟩ := exists_outlines s
    rw [(hk.handler profileId st ev).status, (sessionChart_controlled profileId).status,
      map_signal_outline]
  temp st ev s := by
    obtain ⟨k, hk⟩ := exists_outlines s
    rw [(hk.handler profileId st ev).temp, (sessionChart_controlled profileId).temp,
      map_signal_outline]
  empty st s := by cases st <;> rfl

theorem dispatch_react (profileId : ℤ) {st : SessionState} (hst : st ≠ .active) (e : CallEvent)
    {h : Hsm SessionState CallEvent CallSession} (hh : h.state = some st) :
    ∃ h', (callChart profileId).dispatch (kMaxNest + 1) e h = some h' ∧
      h'.state = some (react profileId st e h.ext).1 ∧ h'.ext = (react profileId st e h.ext).2 :=
  dispatch_of_controlled (callChart_controlled profileId) hst e hh

/-- The session of `DataSession`, given the outlines of the same events, goes through the same
states, with the same status and interface. -/
theorem outline_run (profileId : ℤ) (es : List CallEvent)
    {h : Hsm SessionState CallEvent CallSession} {k : Hsm SessionState SessionEvent Session}
    {st : SessionState} (hst : st ≠ .active) (hh : h.state = some st) (hk : k.state = some st)
    (hext : Outlines k.ext h.ext) :
    ∃ h' k', Trace.run (fun h e => (callChart profileId).dispatch (kMaxNest + 1) e h) h es =
        some h' ∧
      Trace.run (fun k e => (sessionChart profileId).dispatch (kMaxNest + 1) e k) k
        (es.map (CallEvent.outline profileId)) = some k' ∧
      k'.state = h'.state ∧ Outlines k'.ext h'.ext := by
  induction es generalizing h k st with
  | nil => exact ⟨h, k, rfl, rfl, hk.trans hh.symm, hext⟩
  | cons e es ih =>
    obtain ⟨h₁, hdisp, hstate, hext₁⟩ := dispatch_react profileId hst e hh
    obtain ⟨k₁, hdisp', hstate', hext₁'⟩ :=
      Data.dispatch_react profileId hst (e.outline profileId) hk
    rw [← react_outline profileId hst e h.ext] at hstate'
    have hrel : Outlines k₁.ext h₁.ext := by
      rw [hext₁, hext₁']
      exact hext.react hst e
    obtain ⟨h', k', hrun, hrun', hlast⟩ :=
      ih (react_ne_active profileId hst e h.ext) hstate hstate' hrel
    exact ⟨h', k', (Trace.run_cons_eq_some _).mpr ⟨h₁, hdisp, hrun⟩,
      (Trace.run_cons_eq_some _).mpr ⟨k₁, hdisp', hrun'⟩, hlast⟩

end CallSession

end TelafSim.Data
