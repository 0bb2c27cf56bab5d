import TelafSim.EcallOrigins

/-!
# The calls that the modem tells of

The call in a response to start_ecall is the one that was just opened, with the next index of
`_call_index_seq`; the call in an indication is the one its phone has. Of one phone, the calls in
the responses and the calls in the indications therefore come with indices that never decrease.
-/

namespace TelafSim.Ecall

/-- A call as a message has it. -/
structure WireCall where
  callIndex : ℕ
  phoneId : ℤ
  callState : CallState
  direction : Direction
  remotePartyNumber : String
  deriving DecidableEq

def Publication.startRsp : Publication → Option WireCall
  | .rsp _ (.ok (.call callIndex phoneId state direction remotePartyNumber)) =>
    some ⟨callIndex, phoneId, state, direction, remotePartyNumber⟩
  | _ => none

def Publication.callStateInd : Publication → Option WireCall
  | .callState callIndex phoneId state direction remotePartyNumber =>
    some ⟨callIndex, phoneId, state, direction, remotePartyNumber⟩
  | _ => none

namespace EcallManagerAO

/-- No call is opened, and the calls told of are the ones their phones had. -/
structure Tells (m m' : EcallManagerAO) : Prop where
  kept : ∀ {p s'}, m'.sessions p = some s' →
    ∃ s, m.sessions p = some s ∧ s'.callIndex = s.callIndex
  published : ∃ new, m'.published = m.published ++ new ∧ ∀ x ∈ new, x.startRsp = none ∧
    ∀ c, x.callStateInd = some c → ∃ s, m.sessions c.phoneId = some s ∧ s.callIndex = c.callIndex

section Telling

variable {m m' m'' : EcallManagerAO} {o : Option ℤ} {p : ℤ} {s : EcallSession}
  {r : EcallSession × List Callback} {e : Event}

theorem Tells.trans (h : Tells m m') (h' : Tells m' m'') : Tells m m'' := by
  obtain ⟨new, hnew, htold⟩ := h.published
  obtain ⟨new', hnew', htold'⟩ := h'.published
  refine ⟨?_, new ++ new', by rw [hnew', hnew, List.append_assoc], ?_⟩
  · intro p s'' hs''
    obtain ⟨s', hs', hindex'⟩ := h'.kept hs''
    obtain ⟨s, hs, hindex⟩ := h.kept hs'
    exact ⟨s, hs, hindex'.trans hindex⟩
  · intro x hx
    rcases List.mem_append.mp hx with hx | hx
    · exact htold x hx
    · refine ⟨(htold' x hx).1, ?_⟩
      intro c hc
      obtain ⟨s', hs', hindex'⟩ := (htold' x hx).2 c hc
      obtain ⟨s, hs, hindex⟩ := h.kept hs'
      exact ⟨s, hs, hindex.symm.trans hindex'⟩

theorem Runs.tells (h : Runs o m m') (hpub : m'.published = m.published) : Tells m m' := by
  refine ⟨?_, [], by rw [hpub, List.append_nil], by simp⟩
  intro p s' hs'
  obtain ⟨s, hs, hindex, -⟩ := h.sessions hs'
  exact ⟨s, hs, hindex⟩

theorem tells_of_eq (hsessions : m'.sessions = m.sessions) (hpub : m'.published = m.published) :
    Tells m m' := by
  refine ⟨?_, [], by rw [hpub, List.append_nil], by simp⟩
  intro p s' hs'
  rw [hsessions] at hs'
  exact ⟨s', hs', rfl⟩

theorem tells_pub {x : Publication} (hrsp : x.startRsp = none) (hind : x.callStateInd = none) :
    Tells m (m.pub x) := by
  refine ⟨fun hs' => ⟨_, hs', rfl⟩, [x], rfl, ?_⟩
  intro y hy
  obtain rfl := List.mem_singleton.mp hy
  refine ⟨hrsp, ?_⟩
  intro c hc
  rw [hind] at hc
  cases hc

theorem Tells.pub {x : Publication} (h : Tells m m') (hrsp : x.startRsp = none)
    (hind : x.callStateInd = none) : Tells m (m'.pub x) :=
  h.trans (tells_pub hrsp hind)

theorem published_cancelAll (timers : List Timer) :
    (timers.foldl (fun m timer => m.cancel (.hlap p timer)) m).published = m.published := by
  induction timers generalizing m with
  | nil => rfl
  | cons timer timers ih => exact ih

theorem tells_clearCallSlot : Tells m (m.clearCallSlot p) := by
  refine runs_clearCallSlot.tells ?_
  unfold clearCallSlot
  dsimp only
  exact published_cancelAll (p := p) (m := m.setSession p none) allTimers

theorem tells_schedule (key : TimerKey) (periodMs : ℤ) : Tells m (m.schedule key periodMs) := by
  refine (runs_schedule key periodMs).tells ?_
  unfold schedule
  dsimp only
  split <;> rfl

theorem tells_reportTimer (timer : Timer) (action : TimerAction) :
    Tells m (m.reportTimer p timer action) := by
  refine Tells.pub ?_ rfl rfl
  exact tells_of_eq rfl rfl

theorem tells_perform (c : Callback) : Tells m (m.perform p c) := by
  cases c with
  | changeCallState action remotePartyNumber =>
    simp only [perform]
    split
    · exact tells_of_eq rfl rfl
    · rename_i s hs
      refine ⟨fun hs' => ⟨_, hs', rfl⟩, _, rfl, ?_⟩
      intro x hx
      obtain rfl := List.mem_singleton.mp hx
      refine ⟨rfl, ?_⟩
      intro c hc
      obtain rfl := Option.some.inj hc
      exact ⟨s, hs, rfl⟩
  | startTimer timer => exact (tells_reportTimer timer .started).trans (tells_schedule _ _)
  | sendEvent timer status => cases status <;> exact tells_reportTimer timer _
  | expiryTimer timer => exact tells_reportTimer timer .expired
  | msdTransmissionStatus status => exact tells_pub rfl rfl
  | onTerminal => exact tells_clearCallSlot
  | startRedialTimer delayMs => exact tells_schedule _ _
  | onRedial willRedial reason => exact tells_pub rfl rfl

theorem tells_performAll (cs : List Callback) : Tells m (cs.foldl (perform p) m) := by
  induction cs generalizing m with
  | nil => exact tells_of_eq rfl rfl
  | cons c cs ih => exact (tells_perform c).trans ih

theorem tells_drive (hs : m.sessions p = some s) (hindex : r.1.callIndex = s.callIndex) :
    Tells m (m.drive p r) :=
  ((runs_setSession hs hindex).tells rfl).trans (tells_performAll r.2)

theorem tells_hangupFromUser (hs : m.sessions p = some s) : Tells m (m.hangupFromUser p s) := by
  have hdrive := tells_drive hs (EcallSession.ends_hangup (s := s)).callIndex
  unfold hangupFromUser
  dsimp only
  split
  · exact hdrive.trans tells_clearCallSlot
  · exact hdrive

theorem tells_runSession {f : EcallSession → EcallSession × List Callback}
    (hf : ∀ s, (f s).1.callIndex = s.callIndex) : Tells m (m.runSession p f) := by
  unfold runSession
  split
  · exact tells_of_eq rfl rfl
  · rename_i s hs
    exact tells_drive hs (hf s)

theorem tells_sendError (corrId : ℕ) (code : ErrorCode) (detail : String) :
    Tells m (m.sendError corrId code detail) := tells_pub rfl rfl

theorem tells_dispatchMessage (corrId : ℕ) {q : Request}
    (hopen : m.opensOn (.messageReceived corrId q) = none) :
    Tells m (m.dispatchMessage corrId q) := by
  have hpub : ∀ {m : EcallManagerAO}, Tells m (m.pubRsp corrId .empty) := tells_pub rfl rfl
  cases q with
  | startEcall p type isMsdTransmitted remotePartyNumber dialNumber =>
    simp only [opensOn, isFree] at hopen
    simp only [dispatchMessage, handleStartEcall]
    split
    · rename_i hs
      simp [hs] at hopen
    · rename_i s hs
      split
      · rename_i hst
        simp [hs, EcallSession.isOver, hst] at hopen
      · exact tells_sendError ..
  | endEcall p callIndex =>
    simp only [dispatchMessage, handleEndEcall]
    split
    · exact tells_sendError ..
    · rename_i s hs
      exact (tells_hangupFromUser (Option.filter_eq_some_iff.mp hs).1).trans hpub
  | answerEcall p callIndex =>
    simp only [dispatchMessage, handleAnswerEcall]
    split <;> exact tells_sendError ..
  | sendMsd p =>
    simp only [dispatchMessage, handleSendMsd]
    split
    · exact tells_sendError ..
    · exact hpub.trans (tells_of_eq rfl rfl)
  | requestNetworkDeregistration p =>
    simp only [dispatchMessage, handleRequestNetworkDeregistration]
    split
    · exact tells_sendError ..
    · split
      · exact hpub
      · rename_i s hs
        exact hpub.trans (tells_drive hs (EcallSession.ends_deregistration (s := s)).callIndex)
  | updateHlapTimer p type duration =>
    simp only [dispatchMessage, handleUpdateHlapTimer]
    split
    · exact tells_sendError ..
    · refine Tells.pub ?_ rfl rfl
      exact tells_of_eq rfl rfl
  | requestHlapTimer p type =>
    simp only [dispatchMessage, handleRequestHlapTimer]
    split
    · exact tells_sendError ..
    · exact tells_pub rfl rfl
  | configureEcallRedial config timeGap =>
    simp only [dispatchMessage, handleConfigureEcallRedial]
    split
    · refine Tells.pub ?_ rfl rfl
      exact tells_of_eq rfl rfl
    · exact tells_sendError ..
  | setConfig data =>
    refine Tells.pub ?_ rfl rfl
    exact tells_of_eq rfl rfl
  | setOperatingMode p mode =>
    refine Tells.pub (Tells.pub ?_ rfl rfl) rfl rfl
    exact tells_of_eq rfl rfl
  | _ => exact tells_pub rfl rfl

theorem tells_handleEvent (hopen : m.opensOn e = none) : Tells m (m.handleEvent e) := by
  cases e with
  | messageReceived corrId q => exact tells_dispatchMessage corrId hopen
  | sessionStart p => exact tells_runSession (fun s => EcallSession.ends_start.callIndex)
  | sessionHangup p =>
    simp only [handleEvent, runSessionHangup, Bool.false_eq_true, if_false]
    split
    · exact tells_of_eq rfl rfl
    · rename_i s hs
      exact tells_hangupFromUser hs
  | sessionHangupFromPsap p =>
    exact tells_runSession (fun s => EcallSession.ends_hangup.callIndex)
  | sessionMsdPull p => exact tells_runSession (fun s => EcallSession.ends_pull.callIndex)
  | timerExpiry key =>
    have hforget : Tells m { m with timerUuids := Function.update m.timerUuids key none } :=
      tells_of_eq rfl rfl
    cases key with
    | hlap p timer =>
      exact hforget.trans (tells_runSession (fun s => EcallSession.ends_hlapExpiry.callIndex))
    | redial p =>
      exact hforget.trans (tells_runSession (fun s => EcallSession.ends_redialExpiry.callIndex))
  | forceTimerFailure timer =>
    simp only [handleEvent, applyForceTimerFailure]
    split <;> exact tells_of_eq rfl rfl
  | forceRedialMode config succeedAtAttempt => exact tells_of_eq rfl rfl
  | resubscribe => exact tells_pub rfl rfl
  | stop =>
    have hpub : Tells m (m.pub (.subsysReady false)) := tells_pub rfl rfl
    refine ⟨?_, hpub.published⟩
    intro p s' hs'
    cases hs'

theorem published_handleStartEcall (corrId : ℕ) (type : EcallType) (isMsdTransmitted : Bool)
    (remotePartyNumber dialNumber : String) (hfree : m.isFree p = true) :
    ∃ c : WireCall, c.phoneId = p ∧ c.callIndex = m.callIndexSeq ∧
      (m.handleStartEcall corrId p type isMsdTransmitted remotePartyNumber dialNumber).published =
        m.published ++ [Publication.rsp corrId (.ok
          (.call c.callIndex c.phoneId c.callState c.direction c.remotePartyNumber))] := by
  unfold handleStartEcall
  dsimp only
  split
  · exact ⟨⟨m.callIndexSeq, p, .dialing, .mo,
      (m.resolveCallTarget type remotePartyNumber dialNumber).1⟩, rfl, rfl, rfl⟩
  · rename_i s hs
    have hover : s.state = .psapCallback ∨ s.state = .terminal := by
      simpa [isFree, hs, EcallSession.isOver] using hfree
    rw [if_pos hover]
    have hclear : (m.clearCallSlot p).published = m.published := by
      unfold clearCallSlot
      dsimp only
      exact published_cancelAll (p := p) (m := m.setSession p none) allTimers
    have hseq := (withdraws_clearCallSlot (m := m) (p := p)).callIndexSeq
    refine ⟨⟨m.callIndexSeq, p, .dialing, .mo, ((m.clearCallSlot p).resolveCallTarget type
      remotePartyNumber dialNumber).1⟩, rfl, rfl, ?_⟩
    rw [← hclear, show m.callIndexSeq = (m.clearCallSlot p).callIndexSeq from hseq.symm]
    rfl

/-- A call is opened on its phone and told of in a response. -/
structure Opens (c : WireCall) (m m' : EcallManagerAO) : Prop where
  callIndex : c.callIndex = m.callIndexSeq
  callIndexSeq : m'.callIndexSeq = m.callIndexSeq + 1
  found : ∃ s, m'.sessions c.phoneId = some s ∧ s.callIndex = m.callIndexSeq
  others : ∀ {q}, q ≠ c.phoneId → m'.sessions q = m.sessions q
  published : ∃ x, m'.published = m.published ++ [x] ∧ x.startRsp = some c ∧ x.callStateInd = none

theorem handleEvent_opens (hopen : m.opensOn e = some p) : ∃ c, Opens c m (m.handleEvent e) := by
  have hopened := opened_handleEvent hopen
  unfold opensOn at hopen
  split at hopen
  · rename_i corrId q type isMsdTransmitted remotePartyNumber dialNumber
    obtain ⟨hfree, hphone⟩ := Option.ite_none_right_eq_some.mp hopen
    obtain rfl := Option.some.inj hphone
    obtain ⟨c, rfl, hindex, hpub⟩ := published_handleStartEcall (m := m) corrId type
      isMsdTransmitted remotePartyNumber dialNumber hfree
    obtain ⟨s, hs, hsindex, -⟩ := hopened.found
    exact ⟨c, hindex, hopened.callIndexSeq, ⟨s, hs, hsindex⟩, hopened.others, _, hpub, rfl, rfl⟩
  · cases hopen

/-- Everything a step can do to the calls that are told of. -/
theorem step_told {l : Label} (h : m.step l = some m') :
    (Tells m m' ∧ m'.callIndexSeq = m.callIndexSeq) ∨ ∃ c, Opens c m m' := by
  have hpost : ∀ {e}, some (m.postFifo e) = some m' →
      (Tells m m' ∧ m'.callIndexSeq = m.callIndexSeq) ∨ ∃ c, Opens c m m' := by
    intro e h
    obtain rfl := Option.some.inj h
    exact .inl ⟨tells_of_eq rfl rfl, rfl⟩
  cases l with
  | elapse uuid =>
    obtain ⟨key, -, rfl⟩ := Option.map_eq_some_iff.mp h
    exact .inl ⟨tells_of_eq rfl rfl, rfl⟩
  | handle =>
    simp only [step, handle] at h
    split at h
    · cases h
    · rename_i e rest hfifo
      obtain ⟨-, h⟩ := Option.ite_none_left_eq_some.mp h
      obtain rfl := Option.some.inj h
      cases hopen : ({ m with fifo := rest } : EcallManagerAO).opensOn e with
      | none =>
        have htells := tells_handleEvent hopen
        refine .inl ⟨⟨htells.kept, htells.published⟩, ?_⟩
        rcases handled_handleEvent hopen with hquiet | ⟨p, s, told, -, hturn, -⟩
        · exact hquiet.runs.callIndexSeq
        · exact hturn.runs.callIndexSeq
      | some p =>
        obtain ⟨c, hc⟩ := handleEvent_opens hopen
        exact .inr ⟨c, hc.callIndex, hc.callIndexSeq, hc.found, hc.others, hc.published⟩
  | _ => exact hpost h

end Telling

end EcallManagerAO

end TelafSim.Ecall
