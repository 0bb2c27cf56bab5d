import TelafSim.DataManager

/-!
# Runs of the data connection manager

A run interleaves the threads. A client's call is accepted when it finds the manager ready, and
posted some time after that. The bridge's worker is one thread: it posts indications and answers
requests, a request's callback holds its session while it posts, and it does nothing else while it
holds a session or waits for one to end. The manager waits for the session it erased. A timer that
was picked before it was disarmed still posts.
-/

namespace TelafSim.Data

structure DataSystem where
  hsm : Hsm ManagerState ManagerEvent Manager
  queue : List ManagerEvent
  calling : List ManagerEvent
  accepted : List ℕ

/-- The callback a client's call carries. -/
def ManagerEvent.cb : ManagerEvent → Option ℕ
  | .startDataCall _ _ cb => some cb
  | .stopDataCall _ cb => some cb
  | _ => none

/-- What the bridge's worker posts. -/
def ManagerEvent.fromBridge : ManagerEvent → Bool
  | .readiness _ => true
  | .connectivity _ => true
  | .stateInd _ => true
  | _ => false

def rspEvent : RpcKind → Option Rsp → SessionEvent
  | .startDataCall, rsp => .startRsp rsp
  | .stopDataCall, rsp => .stopRsp rsp
  | .listDataCall, rsp => .listRsp rsp

def timeoutEvent : TimerKind → SessionEvent
  | .bringup => .bringupTimeout
  | .teardown => .teardownTimeout

namespace Manager

/-- A callback of the bridge can lock the session. -/
def alive (sid : ℕ) (m : Manager) : Bool := m.activeSessions.any (fun s => s.2 = sid)

def bridgeFree (m : Manager) : Bool := m.bridgeHolds.isNone && m.bridgeJoin.isNone

/-- The bridge calls back the request `r`. -/
def answer (r : Rpc) (rsp : Option Rsp) (m : Manager) : Manager :=
  if m.alive r.session then
    { m.modifySession r.session (.postFifo (rspEvent r.kind rsp)) with
      bridgeHolds := some r.session }
  else m

def release (sid : ℕ) (m : Manager) : Manager :=
  if m.alive sid then { m with bridgeHolds := none }
  else { m.modifySession sid .halt with
    bridgeHolds := none
    bridgeJoin := some sid }

/-- The worker of the session has nothing left to do. -/
def drained (sid : ℕ) (m : Manager) : Bool :=
  (m.sessions[sid]?).all (fun a => a.queue.isEmpty && a.effects.isEmpty)

end Manager

namespace DataSystem

def manager (d : DataSystem) : Manager := d.hsm.ext

def setManager (m : Manager) (d : DataSystem) : DataSystem := { d with hsm := { d.hsm with ext := m } }

/-- After `start()`. -/
def started : DataSystem where
  hsm := ⟨some .notReady, some .notReady, false, ⟨[], [], [], 0, none, none, none, [], []⟩, []⟩
  queue := []
  calling := []
  accepted := []

def postFifo (e : ManagerEvent) (d : DataSystem) : DataSystem := { d with queue := d.queue ++ [e] }

/-- The worker of the session `sid` of `profileId` performs an effect. -/
def perform (sid : ℕ) (profileId : ℤ) (d : DataSystem) : SessionEffect → DataSystem
  | .respond cb _ code => d.setManager (d.manager.respond cb code)
  | .finished => d.postFifo (.sessionFinished profileId sid)
  | .notify => d
  | .rpc kind ifname => d.setManager (d.manager.request sid profileId kind ifname)
  | .repost e => d.setManager (d.manager.modifySession sid (.postFifo e))
  | .arm t => d.setManager (d.manager.modifySession sid (.arm t))
  | .disarm t => d.setManager (d.manager.modifySession sid (.disarm t))

inductive Label
  | call (e : ManagerEvent)
  | submit (i : ℕ)
  | post (e : ManagerEvent)
  | manage
  | managerJoined
  | take (sid : ℕ)
  | effect (sid : ℕ)
  | pick (sid : ℕ) (t : TimerKind)
  | fire (sid : ℕ) (t : TimerKind)
  | reply (i : ℕ) (rsp : Option Rsp)
  | release
  | bridgeJoined

def step (d : DataSystem) : Label → Option DataSystem
  | .call e =>
    match e.cb with
    | none => none
    | some cb =>
      if d.hsm.state = some .ready ∧ cb ∉ d.accepted then
        some { d with calling := d.calling ++ [e], accepted := d.accepted ++ [cb] }
      else none
  | .submit i =>
    match d.calling[i]? with
    | none => none
    | some e => some { d.postFifo e with calling := d.calling.eraseIdx i }
  | .post e => if e.fromBridge ∧ d.manager.bridgeFree then some (d.postFifo e) else none
  | .manage =>
    match d.manager.managerJoin, d.queue with
    | none, e :: rest => (managerChart.dispatch (kMaxNest + 1) e d.hsm).map
        (fun h => { d with hsm := h, queue := rest })
    | _, _ => none
  | .managerJoined =>
    match d.manager.managerJoin with
    | none => none
    | some sid =>
      if d.manager.drained sid then some (d.setManager { d.manager with managerJoin := none })
      else none
  | .take sid =>
    match d.manager.sessions[sid]? with
    | none => none
    | some a => a.take.map (fun a' => d.setManager (d.manager.modifySession sid (fun _ => a')))
  | .effect sid =>
    match d.manager.sessions[sid]? with
    | none => none
    | some a =>
      match a.effects with
      | [] => none
      | f :: fs => some
          ((d.setManager (d.manager.modifySession sid (.setEffects fs))).perform sid a.profileId f)
  | .pick sid t =>
    match d.manager.sessions[sid]? with
    | none => none
    | some a =>
      if t ∈ a.armed then
        some (d.setManager (d.manager.modifySession sid
          (fun a => { a with armed := a.armed.erase t, firing := a.firing ++ [t] })))
      else none
  | .fire sid t =>
    match d.manager.sessions[sid]? with
    | none => none
    | some a =>
      if t ∈ a.firing then
        some (d.setManager (d.manager.modifySession sid
          (fun a => { a with firing := a.firing.erase t }.postFifo (timeoutEvent t))))
      else none
  | .reply i rsp =>
    match d.manager.rpcs[i]? with
    | none => none
    | some r =>
      if d.manager.bridgeFree then
        some (d.setManager ({ d.manager with rpcs := d.manager.rpcs.eraseIdx i }.answer r rsp))
      else none
  | .release =>
    match d.manager.bridgeHolds with
    | none => none
    | some sid => some (d.setManager (d.manager.release sid))
  | .bridgeJoined =>
    match d.manager.bridgeJoin with
    | none => none
    | some sid =>
      if d.manager.drained sid then some (d.setManager { d.manager with bridgeJoin := none })
      else none

section Inversion

variable {d d' : DataSystem}

theorem step_call {e : ManagerEvent} (h : d.step (.call e) = some d') :
    ∃ cb, e.cb = some cb ∧ d.hsm.state = some .ready ∧ cb ∉ d.accepted ∧
      d' = { d with calling := d.calling ++ [e], accepted := d.accepted ++ [cb] } := by
  simp only [step] at h
  split at h
  · cases h
  · rename_i cb hcb
    simp only [Option.ite_none_right_eq_some, Option.some.injEq] at h
    exact ⟨cb, hcb, h.1.1, h.1.2, h.2.symm⟩

theorem step_submit {i : ℕ} (h : d.step (.submit i) = some d') :
    ∃ e, d.calling[i]? = some e ∧ d' = { d.postFifo e with calling := d.calling.eraseIdx i } := by
  simp only [step] at h
  split at h
  · cases h
  · rename_i e he
    exact ⟨e, he, (Option.some.inj h).symm⟩

theorem step_post {e : ManagerEvent} (h : d.step (.post e) = some d') :
    e.fromBridge ∧ d.manager.bridgeFree ∧ d' = d.postFifo e := by
  simp only [step, Option.ite_none_right_eq_some, Option.some.injEq] at h
  exact ⟨h.1.1, h.1.2, h.2.symm⟩

/-- In a leaf the manager's chart does `manage`. -/
theorem step_manage (h : d.step .manage = some d') {st : ManagerState}
    (hst : d.hsm.state = some st) (hleaf : st ≠ .operating) :
    ∃ e rest h', d.manager.managerJoin = none ∧ d.queue = e :: rest ∧
      h'.state = some (manage st e d.manager).1 ∧ h'.ext = (manage st e d.manager).2 ∧
      d' = { d with hsm := h', queue := rest } := by
  simp only [step] at h
  split at h
  · rename_i e rest hjoin hq
    obtain ⟨h', hdisp, hstate, hext⟩ := dispatch_manage hleaf e hst
    rw [hdisp] at h
    exact ⟨e, rest, h', hjoin, hq, hstate, hext, (Option.some.inj h).symm⟩
  · cases h

theorem step_managerJoined (h : d.step .managerJoined = some d') :
    ∃ sid, d.manager.managerJoin = some sid ∧ d.manager.drained sid ∧
      d' = d.setManager { d.manager with managerJoin := none } := by
  simp only [step] at h
  split at h
  · cases h
  · rename_i sid hsid
    simp only [Option.ite_none_right_eq_some, Option.some.injEq] at h
    exact ⟨sid, hsid, h.1, h.2.symm⟩

/-- In a leaf the session's chart does `react`. -/
theorem step_take {sid : ℕ} (h : d.step (.take sid) = some d') {a : SessionAO}
    (ha : d.manager.sessions[sid]? = some a) {st : SessionState} (hst : a.state = some st)
    (hleaf : st ≠ .active) :
    ∃ e rest h', a.effects = [] ∧ a.queue = e :: rest ∧
      h'.state = some (react a.profileId st e a.hsm.ext).1 ∧
      h'.ext = (react a.profileId st e a.hsm.ext).2 ∧
      d' = d.setManager (d.manager.modifySession sid
        (fun _ => { a with hsm := h', queue := rest })) := by
  simp only [step, ha, SessionAO.take] at h
  split at h
  · rename_i e rest heff hq
    obtain ⟨h', hdisp, hstate, hext⟩ := dispatch_react a.profileId hleaf e hst
    rw [hdisp] at h
    exact ⟨e, rest, h', heff, hq, hstate, hext, (Option.some.inj h).symm⟩
  · cases h

theorem step_take_session {sid : ℕ} (h : d.step (.take sid) = some d') :
    ∃ a, d.manager.sessions[sid]? = some a := by
  simp only [step] at h
  split at h
  · cases h
  · rename_i a ha
    exact ⟨a, ha⟩

theorem step_effect {sid : ℕ} (h : d.step (.effect sid) = some d') :
    ∃ a f fs, d.manager.sessions[sid]? = some a ∧ a.effects = f :: fs ∧
      d' = (d.setManager (d.manager.modifySession sid (.setEffects fs))).perform sid a.profileId
        f := by
  simp only [step] at h
  split at h
  · cases h
  · rename_i a ha
    split at h
    · cases h
    · rename_i f fs hf
      exact ⟨a, f, fs, ha, hf, (Option.some.inj h).symm⟩

theorem step_pick {sid : ℕ} {t : TimerKind} (h : d.step (.pick sid t) = some d') :
    ∃ a, d.manager.sessions[sid]? = some a ∧ t ∈ a.armed ∧
      d' = d.setManager (d.manager.modifySession sid
        (fun a => { a with armed := a.armed.erase t, firing := a.firing ++ [t] })) := by
  simp only [step] at h
  split at h
  · cases h
  · rename_i a ha
    simp only [Option.ite_none_right_eq_some, Option.some.injEq] at h
    exact ⟨a, ha, h.1, h.2.symm⟩

theorem step_fire {sid : ℕ} {t : TimerKind} (h : d.step (.fire sid t) = some d') :
    ∃ a, d.manager.sessions[sid]? = some a ∧ t ∈ a.firing ∧
      d' = d.setManager (d.manager.modifySession sid
        (fun a => { a with firing := a.firing.erase t }.postFifo (timeoutEvent t))) := by
  simp only [step] at h
  split at h
  · cases h
  · rename_i a ha
    simp only [Option.ite_none_right_eq_some, Option.some.injEq] at h
    exact ⟨a, ha, h.1, h.2.symm⟩

theorem step_reply {i : ℕ} {rsp : Option Rsp} (h : d.step (.reply i rsp) = some d') :
    ∃ r, d.manager.rpcs[i]? = some r ∧ d.manager.bridgeFree ∧
      d' = d.setManager ({ d.manager with rpcs := d.manager.rpcs.eraseIdx i }.answer r rsp) := by
  simp only [step] at h
  split at h
  · cases h
  · rename_i r hr
    simp only [Option.ite_none_right_eq_some, Option.some.injEq] at h
    exact ⟨r, hr, h.1, h.2.symm⟩

theorem step_release (h : d.step .release = some d') :
    ∃ sid, d.manager.bridgeHolds = some sid ∧ d' = d.setManager (d.manager.release sid) := by
  simp only [step] at h
  split at h
  · cases h
  · rename_i sid hsid
    exact ⟨sid, hsid, (Option.some.inj h).symm⟩

theorem step_bridgeJoined (h : d.step .bridgeJoined = some d') :
    ∃ sid, d.manager.bridgeJoin = some sid ∧ d.manager.drained sid ∧
      d' = d.setManager { d.manager with bridgeJoin := none } := by
  simp only [step] at h
  split at h
  · cases h
  · rename_i sid hsid
    simp only [Option.ite_none_right_eq_some, Option.some.injEq] at h
    exact ⟨sid, hsid, h.1, h.2.symm⟩

end Inversion

end DataSystem
end TelafSim.Data
