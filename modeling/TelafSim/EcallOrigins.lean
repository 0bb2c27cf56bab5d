import TelafSim.EcallWaiting

/-!
# The calls that queued eCall actions belong to

A start, an MSD pull or a timer's expiry is posted for the call a phone has at the time, and it is
run on the call the phone has when its turn comes. A history keeps beside the manager which call
each posted event originates from, which calls have been started, and the states published for each
call. As long as no call is opened on a phone with events of an earlier one outstanding, and the
PSAP does not hang up before the call's start has had its turn, every event meets its own call, no
call is started twice, and an ended call stays ended.
-/

namespace TelafSim.Ecall

def Request.phoneId : Request → Option ℤ
  | .startEcall phoneId _ _ _ _ => some phoneId
  | .endEcall phoneId _ => some phoneId
  | .sendMsd phoneId => some phoneId
  | .requestNetworkDeregistration phoneId => some phoneId
  | _ => none

/-- The phone whose session an event may run. -/
def Event.phoneId : Event → Option ℤ
  | .messageReceived _ q => q.phoneId
  | .sessionStart phoneId => some phoneId
  | .sessionHangup phoneId => some phoneId
  | .sessionHangupFromPsap phoneId => some phoneId
  | .sessionMsdPull phoneId => some phoneId
  | .timerExpiry key => some key.phoneId
  | _ => none

def Callback.stateTold : Callback → Option CallState
  | .changeCallState action _ => some (callStateByAction action)
  | _ => none

/-- The call a publication tells the state of, and the state. -/
def Publication.stateTold : Publication → Option (ℕ × CallState)
  | .callState callIndex _ state _ _ => some (callIndex, state)
  | .rsp _ (.ok (.call callIndex _ state _ _)) => some (callIndex, state)
  | _ => none

def states (cs : List Callback) : List CallState := cs.filterMap Callback.stateTold

@[simp] theorem states_nil : states [] = [] := rfl

@[simp] theorem states_append (cs cs' : List Callback) :
    states (cs ++ cs') = states cs ++ states cs' :=
  List.filterMap_append

theorem states_cons (c : Callback) (cs : List Callback) :
    states (c :: cs) = c.stateTold.toList ++ states cs := by
  unfold states
  cases hc : c.stateTold <;> simp [hc]

namespace EcallSession

variable {s : EcallSession} {r : EcallSession × List Callback}

/-- Another call may take the phone. -/
def isOver (s : EcallSession) : Bool := s.state = .psapCallback || s.state = .terminal

theorem states_regulatory {cs : List Callback} (h : states cs = []) :
    states (s.regulatory cs) = [] := by
  unfold regulatory
  split
  · rfl
  · exact h

/-- The call goes on: CALL_ENDED is not told. -/
structure GoesOn (s : EcallSession) (r : EcallSession × List Callback) : Prop where
  callIndex : r.1.callIndex = s.callIndex
  ended : .ended ∉ states r.2

theorem GoesOn.tell {cs : List Callback} (hcs : .ended ∉ states cs) (h : GoesOn s r) :
    GoesOn s (tell cs r) := by
  refine ⟨h.callIndex, ?_⟩
  simp [EcallSession.tell, hcs, h.ended]

theorem goesOn_conversation : GoesOn s (s.transitionTo .callConversation enterCallConversation) :=
  ⟨rfl, List.not_mem_nil⟩

theorem callIndex_endUpdate : s.endUpdate.callIndex = s.callIndex := by
  unfold endUpdate
  split <;> rfl

theorem goesOn_decodeMsd : GoesOn s (s.transitionTo .decodeMsd enterDecodeMsd) := by
  unfold transitionTo enterDecodeMsd
  split_ifs
  · refine ⟨rfl, ?_⟩
    rw [states_regulatory rfl]
    exact List.not_mem_nil
  · refine ⟨callIndex_endUpdate, ?_⟩
    simp [EcallSession.tell, transitionTo, enterCallConversation, states_cons, Callback.stateTold,
      states_regulatory]
  · refine ⟨callIndex_endUpdate, ?_⟩
    simp [EcallSession.tell, transitionTo, enterCallConversation, states_cons, Callback.stateTold]

theorem goesOn_crc : GoesOn s (s.transitionTo .crcCheckonMsd enterCrcCheckOnMsd) := by
  have h := goesOn_decodeMsd (s := { s with state := .crcCheckonMsd })
  unfold transitionTo enterCrcCheckOnMsd
  split_ifs
  · exact ⟨rfl, List.not_mem_nil⟩
  · refine ⟨h.callIndex, ?_⟩
    have hended := h.ended
    simpa [states_cons, Callback.stateTold, states_regulatory] using hended

theorem goesOn_send : GoesOn s (s.transitionTo .decodeSendMsd enterDecodeSendMsd) := by
  have hcrc : GoesOn s ({ s with state := .decodeSendMsd }.transitionTo .crcCheckonMsd
      enterCrcCheckOnMsd) := ⟨goesOn_crc.callIndex, goesOn_crc.ended⟩
  have hmsd : GoesOn s ({ s with state := .decodeSendMsd }.transitionTo .decodeMsd
      enterDecodeMsd) := ⟨goesOn_decodeMsd.callIndex, goesOn_decodeMsd.ended⟩
  have hconv : GoesOn s ({ s with state := .decodeSendMsd }.transitionTo .callConversation
      enterCallConversation) := ⟨rfl, List.not_mem_nil⟩
  unfold transitionTo enterDecodeSendMsd
  split_ifs
  · refine hcrc.tell ?_
    simp [states_cons, Callback.stateTold, states_regulatory]
  · exact ⟨rfl, by simp [EcallSession.tell, states_cons, Callback.stateTold, changeCallState,
      callStateByAction]⟩
  · refine ((hcrc.tell ?_).tell ?_).tell ?_ <;>
      simp [states_cons, Callback.stateTold, changeCallState, callStateByAction]
  · refine hcrc.tell ?_
    simp [states_cons, Callback.stateTold, changeCallState, callStateByAction]
  · refine hconv.tell ?_
    simp [states_cons, Callback.stateTold, changeCallState, callStateByAction]
  · refine hconv.tell ?_
    simp [states_cons, Callback.stateTold, changeCallState, callStateByAction]
  · refine hmsd.tell ?_
    simp [states_cons, Callback.stateTold, changeCallState, callStateByAction, states_regulatory]
  · exact hconv

/-- CALL_ENDED is not told, or the call is redialled, or it is over and CALL_ENDED is told last. -/
structure Ends (s : EcallSession) (r : EcallSession × List Callback) : Prop where
  callIndex : r.1.callIndex = s.callIndex
  last : r.1.state = .redialing ∨ .ended ∉ states r.2 ∨
    r.1.isOver = true ∧ ∃ l, states r.2 = l ++ [.ended] ∧ .ended ∉ l

theorem GoesOn.ends (h : GoesOn s r) : Ends s r := ⟨h.callIndex, .inr (.inl h.ended)⟩

theorem Ends.tell {cs : List Callback} (hcs : .ended ∉ states cs) (h : Ends s r) :
    Ends s (tell cs r) := by
  refine ⟨h.callIndex, ?_⟩
  rcases h.last with hst | hnot | ⟨hover, l, hl, hnot⟩
  · exact .inl hst
  · exact .inr (.inl (by simp [EcallSession.tell, hcs, hnot]))
  · refine .inr (.inr ⟨hover, states cs ++ l, ?_, ?_⟩)
    · simp [EcallSession.tell, hl]
    · simp [hcs, hnot]

theorem states_psapCallback : states s.transitionToPsapCallback.2 = [] := states_regulatory rfl

theorem ends_psapCallback {cs : List Callback}
    (hcs : ∃ l, states cs = l ++ [CallState.ended] ∧ .ended ∉ l) :
    Ends s (tell cs s.transitionToPsapCallback) := by
  obtain ⟨l, hl, hnot⟩ := hcs
  refine ⟨rfl, .inr (.inr ⟨rfl, l, ?_, hnot⟩)⟩
  simp [EcallSession.tell, states_psapCallback, hl]

theorem ends_start : Ends s s.start := by
  have hsend := goesOn_send (s := { s with state := .callConnect })
  unfold start transitionTo enterCallConnect
  split
  · exact ⟨rfl, .inl rfl⟩
  · refine Ends.tell ?_ (Ends.tell ?_ ⟨hsend.callIndex, .inr (.inl hsend.ended)⟩)
    · simp [states_cons, Callback.stateTold, changeCallState, callStateByAction]
    · rw [states_append, states_append, states_regulatory rfl]
      split_ifs <;>
        simp [states_cons, Callback.stateTold, changeCallState, callStateByAction]

theorem ends_hangup : Ends s s.hangup := by
  have htold : ∃ l, states ([s.changeCallState .callEnded] ++ s.regulatory [.sendEvent .t2 .stop]) =
      l ++ [CallState.ended] ∧ .ended ∉ l := by
    refine ⟨[], ?_, List.not_mem_nil⟩
    rw [states_append, states_regulatory rfl]
    rfl
  unfold hangup
  split
  all_goals first
    | exact ends_psapCallback htold
    | exact ends_psapCallback ⟨[], rfl, List.not_mem_nil⟩
    | exact ⟨rfl, .inr (.inl List.not_mem_nil)⟩

theorem ends_pull : Ends s s.msdPullRequest := by
  unfold msdPullRequest
  dsimp only
  split_ifs
  · refine ⟨rfl, .inr (.inl ?_)⟩
    simp [states_cons, Callback.stateTold, states_regulatory]
  · have h := goesOn_send (s := { s with msdPull := true, updateInProgress := true })
    exact ⟨h.callIndex, .inr (.inl h.ended)⟩
  · exact ⟨rfl, .inr (.inl List.not_mem_nil)⟩

theorem ends_deregistration : Ends s s.networkDeregistrationRequest := by
  unfold networkDeregistrationRequest
  split
  · exact ⟨rfl, .inr (.inl (by simp [states_cons, Callback.stateTold]))⟩
  · exact ⟨rfl, .inr (.inl List.not_mem_nil)⟩

theorem ends_failure {timer : Timer} : Ends s (s.transmissionFailure timer) :=
  goesOn_conversation.ends.tell (by simp [states_cons, Callback.stateTold])

theorem ends_hlapExpiry {timer : Timer} {mode : OperatingMode} :
    Ends s (s.onHlapTimerExpiry timer mode) := by
  have hquiet : ∀ {s' : EcallSession} {cs : List Callback}, s'.callIndex = s.callIndex →
      states cs = [] → Ends s (s', cs) := by
    intro s' cs hindex hcs
    exact ⟨hindex, .inr (.inl (by simp [hcs]))⟩
  have hreaction := reaction_hlapExpiry s timer mode
  generalize s.onHlapTimerExpiry timer mode = r at hreaction ⊢
  cases hreaction with
  | failed => exact ends_failure
  | redialed => exact ⟨rfl, .inl rfl⟩
  | calledBack => exact ends_psapCallback ⟨[], rfl, List.not_mem_nil⟩
  | ended | goesOn | expired | ignored => exact hquiet rfl rfl

theorem ends_redialExpiry : Ends s s.onRedialTimerExpiry := by
  unfold onRedialTimerExpiry
  split_ifs with hst
  · exact ⟨rfl, .inr (.inl List.not_mem_nil)⟩
  · refine Ends.tell ?_ (Ends.tell ?_ goesOn_send.ends) <;>
      simp [states_cons, Callback.stateTold, changeCallState, callStateByAction]
  · split
    · have hst : s.state = .redialing := by simpa using hst
      exact ⟨rfl, .inl hst⟩
    · have hlast : Ends s (tell ([s.changeCallState .callDialing] ++
          ([s.changeCallState .callEnded] ++ [Callback.onRedial false .maxRedialAttempted]))
          s.transitionToPsapCallback) :=
        ends_psapCallback ⟨[.dialing], rfl, by simp⟩
      simpa only [EcallSession.tell, List.append_assoc] using hlast

/-- Nothing is told, and the state stays. -/
structure Rests (s : EcallSession) (r : EcallSession × List Callback) : Prop where
  quiet : states r.2 = []
  state : r.1.state = s.state

theorem isOver_congr {s' : EcallSession} (h : s'.state = s.state) : s'.isOver = s.isOver := by
  simp only [isOver, h]

theorem Rests.over (h : Rests s r)
    (hover : s.isOver = true) : states r.2 = [] ∧ r.1.isOver = true :=
  ⟨h.quiet, (isOver_congr h.state).trans hover⟩

theorem ne_of_isOver {st : SessionState} (hover : s.isOver = true) (hp : st ≠ .psapCallback)
    (ht : st ≠ .terminal) : s.state ≠ st := by
  rintro rfl
  simp [isOver, hp, ht] at hover

theorem rests_hangup (h : s.isOver = true) : Rests s s.hangup := by
  unfold isOver at h
  simp only [Bool.or_eq_true, decide_eq_true_eq] at h
  rcases h with h | h
  all_goals
    simp only [hangup, h]
    exact ⟨rfl, rfl⟩

theorem rests_pull (h : s.state ≠ .callConversation) : Rests s s.msdPullRequest := by
  simp only [msdPullRequest, h, if_false]
  exact ⟨rfl, rfl⟩

theorem rests_deregistration : Rests s s.networkDeregistrationRequest := by
  unfold networkDeregistrationRequest
  split
  · exact ⟨rfl, rfl⟩
  · exact ⟨rfl, rfl⟩

theorem rests_redialExpiry (h : s.state ≠ .redialing) : Rests s s.onRedialTimerExpiry := by
  simp only [onRedialTimerExpiry, ne_eq, h, not_false_eq_true, if_true]
  exact ⟨rfl, rfl⟩

/-- A call that has not been started yet does not heed any timer. -/
theorem rests_hlapExpiry {timer : Timer} {mode : OperatingMode} (h : s.state = .callConnect) :
    Rests s (s.onHlapTimerExpiry timer mode) := by
  simp only [onHlapTimerExpiry, h, reduceCtorEq, false_and, if_false]
  exact ⟨rfl, rfl⟩

theorem over_hlapExpiry {timer : Timer} {mode : OperatingMode} (h : s.isOver = true) :
    states (s.onHlapTimerExpiry timer mode).2 = [] ∧
      (s.onHlapTimerExpiry timer mode).1.isOver = true := by
  have hst : s.state = .psapCallback ∨ s.state = .terminal := by simpa [isOver] using h
  have hreaction := reaction_hlapExpiry s timer mode
  generalize s.onHlapTimerExpiry timer mode = r at hreaction ⊢
  cases hreaction with
  | failed hat => rcases hst with hst | hst <;> simp [hst] at hat
  | redialed hat | calledBack hat => rcases hst with hst | hst <;> simp [hst] at hat
  | ended => exact ⟨rfl, rfl⟩
  | goesOn | expired | ignored => exact ⟨rfl, h⟩

end EcallSession

namespace EcallManagerAO

variable {m m' : EcallManagerAO} {o : Option ℤ} {p : ℤ} {s : EcallSession}

def views (m : EcallManagerAO) : List (ℕ × CallState) := m.published.filterMap Publication.stateTold

section Runs

/-- What may change when the session of a phone is run: expiries of the phone are posted, at once
or later, and every session keeps its index, if it is kept. -/
structure Runs (o : Option ℤ) (m m' : EcallManagerAO) : Prop where
  posts : ∃ new, m'.fifo = m.fifo ++ new ∧ ∀ e ∈ new, e.phoneId = o ∧ ∀ p, e ≠ .sessionStart p
  scheduled : ∀ x ∈ m'.scheduled, x ∈ m.scheduled ∨
    m.nextUuid ≤ x.1 ∧ x.1 < m'.nextUuid ∧ some x.2.phoneId = o
  nextUuid : m.nextUuid ≤ m'.nextUuid
  callIndexSeq : m'.callIndexSeq = m.callIndexSeq
  sessions : ∀ {q s'}, m'.sessions q = some s' → ∃ s, m.sessions q = some s ∧
    s'.callIndex = s.callIndex ∧ (some q ≠ o → s' = s)

theorem Runs.refl (o : Option ℤ) (m : EcallManagerAO) : Runs o m m :=
  ⟨⟨[], by simp⟩, fun _ hx => .inl hx, le_rfl, rfl, fun hs => ⟨_, hs, rfl, fun _ => rfl⟩⟩

theorem Runs.trans {m'' : EcallManagerAO} (h : Runs o m m') (h' : Runs o m' m'') :
    Runs o m m'' := by
  obtain ⟨new, hnew, hposts⟩ := h.posts
  obtain ⟨new', hnew', hposts'⟩ := h'.posts
  refine ⟨⟨new ++ new', by rw [hnew', hnew, List.append_assoc], ?_⟩, ?_,
    h.nextUuid.trans h'.nextUuid, h'.callIndexSeq.trans h.callIndexSeq, ?_⟩
  · intro e he
    rcases List.mem_append.mp he with he | he
    · exact hposts e he
    · exact hposts' e he
  · intro x hx
    have hle := h.nextUuid
    have hle' := h'.nextUuid
    rcases h'.scheduled x hx with hx | ⟨hge, hlt, hphone⟩
    · rcases h.scheduled x hx with hx | ⟨hge, hlt, hphone⟩
      · exact .inl hx
      · exact .inr ⟨hge, by omega, hphone⟩
    · exact .inr ⟨by omega, hlt, hphone⟩
  · intro q s'' hs''
    obtain ⟨s', hs', hindex', hother'⟩ := h'.sessions hs''
    obtain ⟨s, hs, hindex, hother⟩ := h.sessions hs'
    exact ⟨s, hs, hindex'.trans hindex, fun hne => (hother' hne).trans (hother hne)⟩

/-- Whatever is not read from the tables of calls and timers or from the fifo may change. -/
theorem Runs.of_eq (hfifo : m'.fifo = m.fifo) (hscheduled : m'.scheduled = m.scheduled)
    (huuid : m'.nextUuid = m.nextUuid) (hseq : m'.callIndexSeq = m.callIndexSeq)
    (hsessions : m'.sessions = m.sessions) : Runs o m m' := by
  refine ⟨⟨[], by simp [hfifo]⟩, ?_, huuid.ge, hseq, ?_⟩
  · intro x hx
    rw [hscheduled] at hx
    exact .inl hx
  · intro q s' hs'
    rw [hsessions] at hs'
    exact ⟨s', hs', rfl, fun _ => rfl⟩

theorem runs_pub (x : Publication) : Runs o m (m.pub x) := .of_eq rfl rfl rfl rfl rfl

theorem runs_post {e : Event} (hphone : e.phoneId = o) (hstart : ∀ p, e ≠ .sessionStart p) :
    Runs o m (m.postFifo e) :=
  ⟨⟨[e], rfl, by simpa using ⟨hphone, hstart⟩⟩, fun _ hx => .inl hx, le_rfl, rfl,
    fun hs => ⟨_, hs, rfl, fun _ => rfl⟩⟩

theorem runs_cancel (key : TimerKey) : Runs o m (m.cancel key) :=
  ⟨⟨[], by simp [cancel]⟩, fun _ hx => .inl (List.mem_of_mem_filter hx), le_rfl, rfl,
    fun hs => ⟨_, hs, rfl, fun _ => rfl⟩⟩

theorem runs_schedule (key : TimerKey) (periodMs : ℤ) :
    Runs (some key.phoneId) m (m.schedule key periodMs) := by
  unfold schedule
  dsimp only
  split
  · exact (runs_cancel key).trans (runs_post rfl (fun _ he => by cases he))
  · refine (runs_cancel key).trans ⟨⟨[], by simp⟩, ?_, Nat.le_succ _, rfl,
      fun hs => ⟨_, hs, rfl, fun _ => rfl⟩⟩
    intro x hx
    rcases List.mem_append.mp hx with hx | hx
    · exact .inl hx
    · obtain rfl := List.mem_singleton.mp hx
      exact .inr ⟨le_rfl, Nat.lt_succ_self _, rfl⟩

theorem runs_setSession_none : Runs (some p) m (m.setSession p none) := by
  refine ⟨⟨[], by simp [setSession]⟩, fun _ hx => .inl hx, le_rfl, rfl, ?_⟩
  intro q s' hs'
  by_cases hq : q = p
  · subst hq
    simp [setSession] at hs'
  · refine ⟨s', ?_, rfl, fun _ => rfl⟩
    simpa [setSession, hq] using hs'

theorem runs_setSession {s' : EcallSession} (hs : m.sessions p = some s)
    (hindex : s'.callIndex = s.callIndex) : Runs (some p) m (m.setSession p (some s')) := by
  refine ⟨⟨[], by simp [setSession]⟩, fun _ hx => .inl hx, le_rfl, rfl, ?_⟩
  intro q s'' hs''
  by_cases hq : q = p
  · subst hq
    obtain rfl : s' = s'' := by simpa [setSession] using hs''
    exact ⟨s, hs, hindex, fun hne => absurd rfl hne⟩
  · refine ⟨s'', ?_, rfl, fun _ => rfl⟩
    simpa [setSession, hq] using hs''

theorem runs_cancelAll (timers : List Timer) :
    Runs o m (timers.foldl (fun m timer => m.cancel (.hlap p timer)) m) := by
  induction timers generalizing m with
  | nil => exact Runs.refl o m
  | cons timer timers ih => exact (runs_cancel _).trans ih

theorem runs_clearCallSlot : Runs (some p) m (m.clearCallSlot p) := by
  have hcancel : Runs (some p) m ((allTimers.foldl (fun m timer => m.cancel (.hlap p timer))
      (m.setSession p none)).cancel (.redial p)) :=
    (runs_setSession_none.trans (runs_cancelAll allTimers)).trans (runs_cancel _)
  unfold clearCallSlot
  dsimp only
  generalize (allTimers.foldl (fun m timer => m.cancel (.hlap p timer))
    (m.setSession p none)).cancel (.redial p) = m' at hcancel ⊢
  exact hcancel.trans (.of_eq rfl rfl rfl rfl rfl)

theorem runs_perform (c : Callback) : Runs (some p) m (m.perform p c) := by
  cases c with
  | changeCallState action remotePartyNumber =>
    simp only [perform]
    split
    · exact Runs.refl _ m
    · exact runs_pub _
  | startTimer timer =>
    have hreport : Runs (some p) m (m.reportTimer p timer .started) := .of_eq rfl rfl rfl rfl rfl
    exact hreport.trans (runs_schedule (.hlap p timer) _)
  | sendEvent timer status => cases status <;> exact .of_eq rfl rfl rfl rfl rfl
  | startRedialTimer delayMs => exact runs_schedule (.redial p) _
  | onTerminal => exact runs_clearCallSlot
  | _ => exact .of_eq rfl rfl rfl rfl rfl

theorem runs_performAll (cs : List Callback) : Runs (some p) m (cs.foldl (perform p) m) := by
  induction cs generalizing m with
  | nil => exact Runs.refl _ m
  | cons c cs ih => exact (runs_perform c).trans ih

theorem runs_drive (hs : m.sessions p = some s) {r : EcallSession × List Callback}
    (hindex : r.1.callIndex = s.callIndex) : Runs (some p) m (m.drive p r) :=
  (runs_setSession hs hindex).trans (runs_performAll r.2)

end Runs

section Views

theorem views_pub (x : Publication) : (m.pub x).views = m.views ++ x.stateTold.toList := by
  unfold views pub
  cases hx : x.stateTold <;> simp [hx]

theorem views_pub_quiet {x : Publication} (hx : x.stateTold = none) :
    (m.pub x).views = m.views := by
  simp [views_pub, hx]

theorem views_schedule (key : TimerKey) (periodMs : ℤ) :
    (m.schedule key periodMs).views = m.views := by
  unfold schedule
  dsimp only
  split <;> rfl

theorem sessions_schedule (key : TimerKey) (periodMs : ℤ) :
    (m.schedule key periodMs).sessions = m.sessions := by
  unfold schedule
  dsimp only
  split <;> rfl

theorem views_reportTimer (timer : Timer) (action : TimerAction) :
    (m.reportTimer p timer action).views = m.views := views_pub_quiet rfl

theorem sessions_perform {c : Callback} (hc : c ≠ .onTerminal) :
    (m.perform p c).sessions = m.sessions := by
  cases c with
  | onTerminal => exact absurd rfl hc
  | changeCallState action remotePartyNumber =>
    simp only [perform]
    split <;> rfl
  | startTimer timer => exact sessions_schedule _ _
  | sendEvent timer status => cases status <;> rfl
  | startRedialTimer delayMs => exact sessions_schedule _ _
  | _ => rfl

theorem views_perform {c : Callback} (hc : c ≠ .onTerminal) (hs : m.sessions p = some s) :
    (m.perform p c).views = m.views ++ c.stateTold.toList.map (s.callIndex, ·) := by
  cases c with
  | onTerminal => exact absurd rfl hc
  | changeCallState action remotePartyNumber =>
    simp only [perform, hs]
    exact views_pub _
  | startTimer timer =>
    simp only [perform, scheduleHlapExpiry, views_schedule, views_reportTimer]
    exact (List.append_nil _).symm
  | sendEvent timer status =>
    cases status <;> simp only [perform, views_reportTimer] <;> exact (List.append_nil _).symm
  | expiryTimer timer =>
    simp only [perform, views_reportTimer]
    exact (List.append_nil _).symm
  | msdTransmissionStatus status => exact views_pub _
  | startRedialTimer delayMs =>
    simp only [perform, scheduleRedialExpiry, views_schedule]
    exact (List.append_nil _).symm
  | onRedial willRedial reason => exact views_pub _

theorem performAll_told {cs : List Callback} (hcs : .onTerminal ∉ cs)
    (hs : m.sessions p = some s) :
    (cs.foldl (perform p) m).sessions = m.sessions ∧
      (cs.foldl (perform p) m).views = m.views ++ (states cs).map (s.callIndex, ·) := by
  induction cs generalizing m with
  | nil => exact ⟨rfl, (List.append_nil _).symm⟩
  | cons c cs ih =>
    simp only [List.mem_cons, not_or] at hcs
    have hc : (m.perform p c).sessions = m.sessions := sessions_perform (Ne.symm hcs.1)
    obtain ⟨hsessions, hviews⟩ := ih hcs.2 (hc ▸ hs)
    refine ⟨hsessions.trans hc, ?_⟩
    rw [List.foldl_cons, hviews, views_perform (Ne.symm hcs.1) hs, states_cons, List.map_append,
      List.append_assoc]

/-- Posts are withdrawn and timers forgotten. -/
structure Withdraws (m m' : EcallManagerAO) : Prop where
  fifo : m'.fifo = m.fifo
  nextUuid : m'.nextUuid = m.nextUuid
  callIndexSeq : m'.callIndexSeq = m.callIndexSeq
  sessions : m'.sessions = m.sessions
  views : m'.views = m.views

theorem withdraws_all (timers : List Timer) :
    Withdraws m (timers.foldl (fun m timer => m.cancel (.hlap p timer)) m) := by
  induction timers generalizing m with
  | nil => exact ⟨rfl, rfl, rfl, rfl, rfl⟩
  | cons timer timers ih =>
    have hrest := ih (m := m.cancel (.hlap p timer))
    exact ⟨hrest.fifo, hrest.nextUuid, hrest.callIndexSeq, hrest.sessions, hrest.views⟩

theorem withdraws_clearCallSlot : Withdraws (m.setSession p none) (m.clearCallSlot p) := by
  have hall := withdraws_all (m := m.setSession p none) (p := p) allTimers
  unfold clearCallSlot
  dsimp only
  generalize allTimers.foldl (fun m timer => m.cancel (.hlap p timer)) (m.setSession p none) = m'
    at hall ⊢
  exact ⟨hall.fifo, hall.nextUuid, hall.callIndexSeq, hall.sessions, hall.views⟩

theorem sessions_clear_self : (m.clearCallSlot p).sessions p = none := by
  rw [withdraws_clearCallSlot.sessions]
  exact Function.update_self _ _ _

end Views

section Turns

/-- The session of a phone has had a turn, in which the states were told: CALL_ENDED is not among
them, or the call is redialled, or it is over and CALL_ENDED is the last of them. -/
structure Turn (m m' : EcallManagerAO) (p : ℤ) (s : EcallSession) (told : List CallState) :
    Prop where
  runs : Runs (some p) m m'
  found : m.sessions p = some s
  views : m'.views = m.views ++ told.map (s.callIndex, ·)
  last : (∃ s', m'.sessions p = some s' ∧ s'.state = .redialing) ∨ .ended ∉ told ∨
    (∀ s', m'.sessions p = some s' → s'.isOver = true) ∧
      ∃ l, told = l ++ [.ended] ∧ .ended ∉ l

def StaysOver (m' : EcallManagerAO) (p : ℤ) (s : EcallSession) (told : List CallState) : Prop :=
  s.isOver = true → told = [] ∧ ∀ s', m'.sessions p = some s' → s'.isOver = true

/-- A call that has not been started keeps waiting for its start. -/
def StaysFresh (m' : EcallManagerAO) (p : ℤ) (s : EcallSession) : Prop :=
  s.state = .callConnect → ∀ s', m'.sessions p = some s' → s'.state = .callConnect

variable {r : EcallSession × List Callback}

theorem sessions_drive (hkeeps : EcallSession.Keeps r) :
    (m.drive p r).sessions p = some r.1 := by
  have hset : (m.setSession p (some r.1)).sessions p = some r.1 := Function.update_self _ _ _
  exact (congrFun (performAll_told hkeeps hset).1 p).trans hset

theorem turn_drive (hs : m.sessions p = some s) (hkeeps : EcallSession.Keeps r)
    (hends : EcallSession.Ends s r) : Turn m (m.drive p r) p s (states r.2) := by
  have hset : (m.setSession p (some r.1)).sessions p = some r.1 := Function.update_self _ _ _
  refine ⟨runs_drive hs hends.callIndex, hs, ?_, ?_⟩
  · rw [← hends.callIndex]
    exact (performAll_told hkeeps hset).2
  · rcases hends.last with hst | hnot | ⟨hover, hlast⟩
    · exact .inl ⟨r.1, sessions_drive hkeeps, hst⟩
    · exact .inr (.inl hnot)
    · refine .inr (.inr ⟨?_, hlast⟩)
      intro s' hs'
      obtain rfl : r.1 = s' := Option.some.inj ((sessions_drive hkeeps).symm.trans hs')
      exact hover

theorem Turn.clear {told : List CallState} (h : Turn m m' p s told)
    (hlast : .ended ∉ told ∨ ∃ l, told = l ++ [CallState.ended] ∧ .ended ∉ l) :
    Turn m (m'.clearCallSlot p) p s told := by
  refine ⟨h.runs.trans runs_clearCallSlot, h.found, withdraws_clearCallSlot.views.trans h.views,
    .inr (hlast.imp_right ?_)⟩
  intro hlast
  refine ⟨?_, hlast⟩
  intro s' hs'
  rw [sessions_clear_self] at hs'
  cases hs'

theorem staysOver_drive (hkeeps : EcallSession.Keeps r)
    (hover : s.isOver = true → states r.2 = [] ∧ r.1.isOver = true) :
    StaysOver (m.drive p r) p s (states r.2) := by
  intro h
  refine ⟨(hover h).1, ?_⟩
  intro s' hs'
  obtain rfl : r.1 = s' := Option.some.inj ((sessions_drive hkeeps).symm.trans hs')
  exact (hover h).2

theorem staysFresh_drive (hkeeps : EcallSession.Keeps r)
    (hfresh : s.state = .callConnect → r.1.state = .callConnect) :
    StaysFresh (m.drive p r) p s := by
  intro h s' hs'
  obtain rfl : r.1 = s' := Option.some.inj ((sessions_drive hkeeps).symm.trans hs')
  exact hfresh h

theorem staysOver_clear {told : List CallState} (h : s.isOver = true → told = []) :
    StaysOver (m.clearCallSlot p) p s told := by
  intro hover
  refine ⟨h hover, ?_⟩
  intro s' hs'
  rw [sessions_clear_self] at hs'
  cases hs'

theorem staysFresh_clear : StaysFresh (m.clearCallSlot p) p s := by
  intro _ s' hs'
  rw [sessions_clear_self] at hs'
  cases hs'

end Turns

section Handling

/-- Nothing is told, and no session is run. -/
structure Quiet (o : Option ℤ) (m m' : EcallManagerAO) : Prop where
  runs : Runs o m m'
  views : m'.views = m.views
  sessions : ∀ {q s'}, m'.sessions q = some s' → m.sessions q = some s'

/-- What the handling of an event comes to when it opens no call. -/
def Handled (e : Event) (m m' : EcallManagerAO) : Prop :=
  Quiet e.phoneId m m' ∨
    ∃ p s told, e.phoneId = some p ∧ Turn m m' p s told ∧
      (e ≠ .sessionStart p → StaysOver m' p s told) ∧
      (e ≠ .sessionStart p → e ≠ .sessionHangupFromPsap p → StaysFresh m' p s)

theorem quiet_of_eq (hfifo : m'.fifo = m.fifo) (hscheduled : m'.scheduled = m.scheduled)
    (huuid : m'.nextUuid = m.nextUuid) (hseq : m'.callIndexSeq = m.callIndexSeq)
    (hsessions : m'.sessions = m.sessions) (hviews : m'.views = m.views) : Quiet o m m' :=
  ⟨.of_eq hfifo hscheduled huuid hseq hsessions, hviews, fun hs => hsessions ▸ hs⟩

theorem quiet_pub {x : Publication} (hx : x.stateTold = none) : Quiet o m (m.pub x) :=
  quiet_of_eq rfl rfl rfl rfl rfl (views_pub_quiet hx)

theorem quiet_sendError (corrId : ℕ) (code : ErrorCode) (detail : String) :
    Quiet o m (m.sendError corrId code detail) := quiet_pub rfl

theorem Turn.of_quiet {m₀ : EcallManagerAO} {told : List CallState} (h : Turn m m' p s told)
    (hq : Quiet (some p) m₀ m) (hsame : m₀.sessions p = m.sessions p) : Turn m₀ m' p s told :=
  ⟨hq.runs.trans h.runs, hsame.trans h.found, by rw [h.views, hq.views], h.last⟩

variable {e : Event}

theorem handled_drive (hphone : e.phoneId = some p) (hs : m.sessions p = some s)
    {r : EcallSession × List Callback} (hkeeps : EcallSession.Keeps r)
    (hends : EcallSession.Ends s r)
    (hover : e ≠ .sessionStart p → s.isOver = true → states r.2 = [] ∧ r.1.isOver = true)
    (hfresh : e ≠ .sessionStart p → e ≠ .sessionHangupFromPsap p → s.state = .callConnect →
      r.1.state = .callConnect) :
    Handled e m (m.drive p r) :=
  .inr ⟨p, s, states r.2, hphone, turn_drive hs hkeeps hends,
    fun h => staysOver_drive hkeeps (hover h), fun h h' => staysFresh_drive hkeeps (hfresh h h')⟩

theorem Handled.trans_quiet {m'' : EcallManagerAO} (h : Handled e m m')
    (hq : ∀ o, Quiet o m' m'') (hsame : m''.sessions = m'.sessions) : Handled e m m'' := by
  rcases h with h | ⟨p, s, told, hphone, hturn, hover, hfresh⟩
  · exact .inl ⟨h.runs.trans (hq _).runs, (hq none).views.trans h.views,
      fun hs => h.sessions ((hq none).sessions hs)⟩
  · refine .inr ⟨p, s, told, hphone, ⟨hturn.runs.trans (hq _).runs, hturn.found,
      (hq none).views.trans hturn.views, hsame ▸ hturn.last⟩, ?_, ?_⟩
    · intro he hst
      exact hsame ▸ hover he hst
    · intro he he' hst
      exact hsame ▸ hfresh he he' hst

theorem handled_hangupFromUser (hphone : e.phoneId = some p) (hs : m.sessions p = some s) :
    Handled e m (m.hangupFromUser p s) := by
  have hturn := turn_drive hs s.keeps_hangup EcallSession.ends_hangup
  unfold hangupFromUser
  dsimp only
  split
  · refine .inr ⟨p, s, _, hphone, hturn.clear ?_, fun _ => staysOver_clear ?_,
      fun _ _ => staysFresh_clear⟩
    · rename_i hst
      rcases (EcallSession.ends_hangup (s := s)).last with h | h | ⟨-, h⟩
      · rw [hst] at h
        cases h
      · exact .inl h
      · exact .inr h
    · intro hover
      exact (EcallSession.rests_hangup hover).quiet
  · refine handled_drive hphone hs s.keeps_hangup EcallSession.ends_hangup
      (fun _ hover => (EcallSession.rests_hangup hover).over hover) ?_
    rename_i hst
    intro _ _ hconnect
    exact absurd (by simp [EcallSession.hangup, hconnect, EcallSession.tell,
      EcallSession.transitionToPsapCallback, EcallSession.transitionTo,
      EcallSession.enterPsapCallback]) hst

theorem handled_runSession {f : EcallSession → EcallSession × List Callback}
    (hf : ∀ s, m.sessions p = some s → Handled e m (m.drive p (f s))) :
    Handled e m (m.runSession p f) := by
  unfold runSession
  split
  · exact .inl (quiet_of_eq rfl rfl rfl rfl rfl rfl)
  · rename_i s hs
    exact hf s hs

theorem handled_hlapExpiry {timer : Timer} {mode : OperatingMode} (hs : m.sessions p = some s) :
    Handled (.timerExpiry (.hlap p timer)) m (m.drive p (s.onHlapTimerExpiry timer mode)) := by
  by_cases hends : s.endsCall timer mode
  · have hrun : m.drive p (s.onHlapTimerExpiry timer mode) =
        (m.drive p ({ s with state := .terminal }, [.expiryTimer .t9])).clearCallSlot p := by
      rw [EcallSession.onHlapTimerExpiry_of_endsCall hends]
      rfl
    have hturn : Turn m (m.drive p ({ s with state := .terminal }, [.expiryTimer .t9])) p s [] :=
      turn_drive hs (by simp) ⟨rfl, .inr (.inl List.not_mem_nil)⟩
    rw [hrun]
    exact .inr ⟨p, s, [], rfl, hturn.clear (.inl List.not_mem_nil),
      fun _ => staysOver_clear (fun _ => rfl), fun _ _ => staysFresh_clear⟩
  · refine handled_drive rfl hs (EcallSession.keeps_hlapExpiry hends) EcallSession.ends_hlapExpiry
      (fun _ hover => EcallSession.over_hlapExpiry hover) ?_
    intro _ _ hst
    exact (EcallSession.rests_hlapExpiry hst).state.trans hst

theorem handled_timerExpiry (key : TimerKey) :
    Handled (.timerExpiry key) m (m.runTimerExpiry key) := by
  have hforget : Quiet (some key.phoneId) m
      { m with timerUuids := Function.update m.timerUuids key none } :=
    quiet_of_eq rfl rfl rfl rfl rfl rfl
  have hrun : Handled (.timerExpiry key)
      { m with timerUuids := Function.update m.timerUuids key none } (m.runTimerExpiry key) := by
    cases key with
    | hlap p timer => exact handled_runSession (fun s hs => handled_hlapExpiry hs)
    | redial p =>
      refine handled_runSession ?_
      intro s hs
      refine handled_drive rfl hs s.keeps_redialExpiry EcallSession.ends_redialExpiry ?_ ?_
      · intro _ hover
        exact (EcallSession.rests_redialExpiry
          (EcallSession.ne_of_isOver hover (by decide) (by decide))).over hover
      · intro _ _ hst
        exact (EcallSession.rests_redialExpiry (by simp [hst])).state.trans hst
  rcases hrun with h | ⟨p, s, told, hphone, hturn, hover, hfresh⟩
  · exact .inl ⟨hforget.runs.trans h.runs, h.views, h.sessions⟩
  · obtain rfl : key.phoneId = p := Option.some.inj hphone
    exact .inr ⟨_, s, told, hphone, hturn.of_quiet hforget rfl, hover, hfresh⟩

/-- A start_ecall that finds the phone free: it has no call, or one that is over. -/
def isFree (m : EcallManagerAO) (phoneId : ℤ) : Bool := (m.sessions phoneId).all (·.isOver)

/-- The phone on which an event opens a call. -/
def opensOn (m : EcallManagerAO) : Event → Option ℤ
  | .messageReceived _ (.startEcall phoneId _ _ _ _) =>
    if m.isFree phoneId then some phoneId else none
  | _ => none

theorem handled_dispatchMessage (corrId : ℕ) {q : Request}
    (hopen : m.opensOn (.messageReceived corrId q) = none) :
    Handled (.messageReceived corrId q) m (m.dispatchMessage corrId q) := by
  have hpub : ∀ {m : EcallManagerAO} {data : RspData},
      Publication.stateTold (.rsp corrId (.ok data)) = none →
        ∀ o, Quiet o m (m.pubRsp corrId data) := fun hdata _ => quiet_pub hdata
  cases q with
  | startEcall p type isMsdTransmitted remotePartyNumber dialNumber =>
    simp only [opensOn, isFree] at hopen
    simp only [dispatchMessage, handleStartEcall]
    split
    · rename_i hs
      simp [hs] at hopen
    · rename_i s hs
      split
      · rename_i hst
        simp [hs, EcallSession.isOver, hst] at hopen
      · exact .inl (quiet_sendError ..)
  | endEcall p callIndex =>
    simp only [dispatchMessage, handleEndEcall]
    split
    · exact .inl (quiet_sendError ..)
    · rename_i s hs
      exact (handled_hangupFromUser rfl (Option.filter_eq_some_iff.mp hs).1).trans_quiet
        (hpub rfl) rfl
  | answerEcall p callIndex =>
    simp only [dispatchMessage, handleAnswerEcall]
    split <;> exact .inl (quiet_sendError ..)
  | sendMsd p =>
    simp only [dispatchMessage, handleSendMsd]
    split
    · exact .inl (quiet_sendError ..)
    · have hrsp : Quiet (some p) m (m.pubRsp corrId .empty) := hpub rfl _
      exact .inl ⟨hrsp.runs.trans (runs_post rfl (fun _ he => by cases he)), hrsp.views,
        hrsp.sessions⟩
  | requestNetworkDeregistration p =>
    simp only [dispatchMessage, handleRequestNetworkDeregistration]
    split
    · exact .inl (quiet_sendError ..)
    · have hrsp : Quiet (some p) m (m.pubRsp corrId .empty) := hpub rfl _
      split
      · exact .inl hrsp
      · rename_i s hs
        have hrests := EcallSession.rests_deregistration (s := s)
        have hturn := turn_drive hs s.keeps_deregistration EcallSession.ends_deregistration
        exact .inr ⟨p, s, _, rfl, hturn.of_quiet hrsp rfl,
          fun _ => staysOver_drive s.keeps_deregistration hrests.over,
          fun _ _ => staysFresh_drive s.keeps_deregistration hrests.state.trans⟩
  | updateHlapTimer p type duration =>
    simp only [dispatchMessage, handleUpdateHlapTimer]
    split
    · exact .inl (quiet_sendError ..)
    · exact .inl (quiet_of_eq rfl rfl rfl rfl rfl (views_pub_quiet rfl))
  | requestHlapTimer p type =>
    simp only [dispatchMessage, handleRequestHlapTimer]
    split
    · exact .inl (quiet_sendError ..)
    · exact .inl (hpub rfl _)
  | configureEcallRedial config timeGap =>
    simp only [dispatchMessage, handleConfigureEcallRedial]
    split
    · exact .inl (quiet_of_eq rfl rfl rfl rfl rfl (views_pub_quiet rfl))
    · exact .inl (quiet_sendError ..)
  | setOperatingMode p mode =>
    have hrsp := views_pub_quiet (x := .rsp corrId (.ok .empty))
      (m := { m with operatingMode := Function.update m.operatingMode p (some mode) }) rfl
    exact .inl (quiet_of_eq rfl rfl rfl rfl rfl ((views_pub_quiet rfl).trans hrsp))
  | _ => exact .inl (quiet_of_eq rfl rfl rfl rfl rfl (views_pub_quiet rfl))

theorem quiet_doStop : Quiet o m m.doStop := by
  refine ⟨⟨⟨[], (List.append_nil _).symm, by simp⟩, fun x hx => .inl (List.mem_of_mem_filter hx),
    le_rfl, rfl, ?_⟩, views_pub_quiet rfl, ?_⟩
  · intro q s' hs'
    cases hs'
  · intro q s' hs'
    cases hs'

theorem handled_handleEvent (hopen : m.opensOn e = none) : Handled e m (m.handleEvent e) := by
  cases e with
  | messageReceived corrId q => exact handled_dispatchMessage corrId hopen
  | sessionStart p =>
    refine handled_runSession ?_
    intro s hs
    exact handled_drive rfl hs s.keeps_start EcallSession.ends_start (fun h => absurd rfl h)
      (fun h => absurd rfl h)
  | sessionHangup p =>
    simp only [handleEvent, runSessionHangup, Bool.false_eq_true, if_false]
    split
    · exact .inl (quiet_of_eq rfl rfl rfl rfl rfl rfl)
    · rename_i s hs
      exact handled_hangupFromUser rfl hs
  | sessionHangupFromPsap p =>
    refine handled_runSession ?_
    intro s hs
    exact handled_drive rfl hs s.keeps_hangup EcallSession.ends_hangup
      (fun _ hover => (EcallSession.rests_hangup hover).over hover) (fun _ h => absurd rfl h)
  | sessionMsdPull p =>
    refine handled_runSession ?_
    intro s hs
    refine handled_drive rfl hs s.keeps_pull EcallSession.ends_pull ?_ ?_
    · intro _ hover
      exact (EcallSession.rests_pull
        (EcallSession.ne_of_isOver hover (by decide) (by decide))).over hover
    · intro _ _ hst
      exact (EcallSession.rests_pull (by simp [hst])).state.trans hst
  | timerExpiry key => exact handled_timerExpiry key
  | forceTimerFailure timer =>
    simp only [handleEvent, applyForceTimerFailure]
    split <;> exact .inl (quiet_of_eq rfl rfl rfl rfl rfl rfl)
  | forceRedialMode config succeedAtAttempt =>
    exact .inl (quiet_of_eq rfl rfl rfl rfl rfl rfl)
  | resubscribe => exact .inl (quiet_pub rfl)
  | stop => exact .inl quiet_doStop

def release (m : EcallManagerAO) (phoneId : ℤ) : EcallManagerAO :=
  match m.sessions phoneId with
  | none => m
  | some _ => m.clearCallSlot phoneId

/-- A call has been opened on a phone: it is new, and its start is posted. -/
structure Opened (p : ℤ) (m m' : EcallManagerAO) : Prop where
  fifo : m'.fifo = m.fifo ++ [.sessionStart p]
  scheduled : m'.scheduled = (m.release p).scheduled
  nextUuid : m'.nextUuid = m.nextUuid
  callIndexSeq : m'.callIndexSeq = m.callIndexSeq + 1
  found : ∃ s, m'.sessions p = some s ∧ s.callIndex = m.callIndexSeq ∧ s.state = .callConnect
  others : ∀ {q}, q ≠ p → m'.sessions q = m.sessions q
  views : m'.views = m.views ++ [(m.callIndexSeq, .dialing)]

theorem opened_openSession {m₀ : EcallManagerAO} (corrId : ℕ) (type : EcallType)
    (isMsdTransmitted : Bool) (remotePartyNumber dialNumber : String) (hfifo : m.fifo = m₀.fifo)
    (hscheduled : m.scheduled = (m₀.release p).scheduled) (huuid : m.nextUuid = m₀.nextUuid)
    (hseq : m.callIndexSeq = m₀.callIndexSeq)
    (hothers : ∀ {q}, q ≠ p → m.sessions q = m₀.sessions q) (hviews : m.views = m₀.views) :
    Opened p m₀ (m.openSession corrId p type isMsdTransmitted remotePartyNumber dialNumber) := by
  refine ⟨congrArg (· ++ _) hfifo, hscheduled, huuid, congrArg (· + 1) hseq,
    ⟨_, Function.update_self _ _ _, hseq, rfl⟩, ?_, ?_⟩
  · intro q hq
    exact (Function.update_of_ne hq _ _).trans (hothers hq)
  · rw [← hviews, ← hseq]
    exact views_pub _

theorem opened_handleStartEcall (corrId : ℕ) (type : EcallType) (isMsdTransmitted : Bool)
    (remotePartyNumber dialNumber : String) (hfree : m.isFree p = true) :
    Opened p m
      (m.handleStartEcall corrId p type isMsdTransmitted remotePartyNumber dialNumber) := by
  unfold handleStartEcall
  dsimp only
  split
  · rename_i hs
    exact opened_openSession _ _ _ _ _ rfl (by simp [release, hs]) rfl rfl (fun _ => rfl) rfl
  · rename_i s hs
    have hover : s.state = .psapCallback ∨ s.state = .terminal := by
      simpa [isFree, hs, EcallSession.isOver] using hfree
    rw [if_pos hover]
    have hclear := withdraws_clearCallSlot (m := m) (p := p)
    refine opened_openSession _ _ _ _ _ hclear.fifo (by simp [release, hs]) hclear.nextUuid
      hclear.callIndexSeq ?_ hclear.views
    intro q hq
    rw [hclear.sessions]
    exact Function.update_of_ne hq _ _

theorem opened_handleEvent (hopen : m.opensOn e = some p) : Opened p m (m.handleEvent e) := by
  unfold opensOn at hopen
  split at hopen
  · rename_i corrId q type isMsdTransmitted remotePartyNumber dialNumber
    obtain ⟨hfree, hphone⟩ := Option.ite_none_right_eq_some.mp hopen
    obtain rfl := Option.some.inj hphone
    exact opened_handleStartEcall _ _ _ _ _ hfree
  · cases hopen

theorem release_sub : ∀ x ∈ (m.release p).scheduled, x ∈ m.scheduled := by
  intro x hx
  unfold release at hx
  split at hx
  · exact hx
  · rcases (runs_clearCallSlot (m := m) (p := p)).scheduled x hx with h | ⟨hge, hlt, -⟩
    · exact h
    · rw [withdraws_clearCallSlot.nextUuid] at hlt
      exact absurd hlt (not_lt.mpr hge)

end Handling

def target (m : EcallManagerAO) (e : Event) : Option ℕ :=
  (e.phoneId.bind m.sessions).map (·.callIndex)

/-- The call that is worked for while an event is handled: the one it opens, or the one it finds. -/
def served (m : EcallManagerAO) (e : Event) (m' : EcallManagerAO) : Option ℕ :=
  match m.opensOn e with
  | some phoneId => (m'.sessions phoneId).map (·.callIndex)
  | none => m.target e

/-- The call has been left to its redial timer. -/
def redials (m' : EcallManagerAO) (e : Event) : Bool :=
  (e.phoneId.bind m'.sessions).any (·.state = .redialing)

end EcallManagerAO

open EcallManagerAO

/-- A manager with what has become of its calls. -/
structure EcallHistory where
  ao : EcallManagerAO
  /-- The fifo, with the call each event originates from; the others come from outside. -/
  tagged : List (Event × Option ℕ)
  /-- The call a deferred post originates from, by its uuid. -/
  deferredOrigins : ℕ → Option ℕ
  /-- The calls on which `start` has been run. -/
  starts : List ℕ
  /-- The call an event originates from, and the one it was applied to. -/
  applied : List (ℕ × ℕ)
  /-- The states published of a call, and whether the call was then left to its redial timer. -/
  told : List (ℕ × CallState × Bool)

namespace EcallHistory

def ready (isNgEcallDevice : Bool) : EcallHistory where
  ao := .ready isNgEcallDevice
  tagged := []
  deferredOrigins := fun _ => none
  starts := []
  applied := []
  told := []

def posted (h : EcallHistory) (origin : Option ℕ) (m' : EcallManagerAO) : EcallHistory :=
  { h with
    ao := m'
    tagged := h.tagged ++ (m'.fifo.drop h.tagged.length).map (·, origin) }

/-- The head of the fifo has been handled: whatever was posted meanwhile was posted for the call
that was served. -/
def handled (h : EcallHistory) (e : Event) (origin : Option ℕ) (rest : List (Event × Option ℕ))
    (m' : EcallManagerAO) : EcallHistory where
  ao := m'
  tagged := rest ++ (m'.fifo.drop rest.length).map (·, h.ao.served e m')
  deferredOrigins := fun uuid =>
    if uuid < h.ao.nextUuid then h.deferredOrigins uuid else h.ao.served e m'
  starts := h.starts ++
    (match e with
    | .sessionStart _ => (h.ao.target e).toList
    | _ => [])
  applied := h.applied ++ (origin.bind (fun i => (h.ao.target e).map (i, ·))).toList
  told := h.told ++ (m'.views.drop h.ao.views.length).map (fun v => (v.1, v.2, m'.redials e))

def step (h : EcallHistory) : Label → Option EcallHistory
  | .handle =>
    match h.tagged with
    | [] => none
    | (e, origin) :: rest => h.ao.handle.map (h.handled e origin rest)
  | .elapse uuid => (h.ao.elapse uuid).map (h.posted (h.deferredOrigins uuid))
  | l => (h.ao.step l).map (h.posted none)

/-- No session is started twice, no event is applied to another call than its own, and a call that
has ended without being redialled is not told to be dialled, alerted or active again. -/
structure OwnCalls (h : EcallHistory) : Prop where
  once : h.starts.Nodup
  own : ∀ x ∈ h.applied, x.1 = x.2
  ended : h.told.Pairwise (fun x y => x.1 = y.1 → x.2 = (.ended, false) → y.2.1 = .ended)

/-- Nothing that an earlier call of the phone has posted is outstanding when its slot is
released. -/
def vacant (h : EcallHistory) (rest : List (Event × Option ℕ)) (phoneId : ℤ) : Bool :=
  rest.all (fun x => x.1.phoneId ≠ some phoneId || x.2 = none) &&
    (h.ao.release phoneId).scheduled.all (fun x => x.2.phoneId ≠ phoneId)

/-- The PSAP hangs up a call whose start has had its turn. -/
def hangsUpStarted (h : EcallHistory) (rest : List (Event × Option ℕ)) : Event → Bool
  | .sessionHangupFromPsap phoneId =>
    (h.ao.sessions phoneId).isNone || rest.all (fun x => x.1 ≠ .sessionStart phoneId)
  | _ => true

def inTurn (h : EcallHistory) : Label → Bool
  | .handle =>
    match h.tagged with
    | [] => true
    | (e, _) :: rest => (h.ao.opensOn e).all (h.vacant rest) && h.hangsUpStarted rest e
  | _ => true

def startOrigin (x : Event × Option ℕ) : Option ℕ :=
  match x.1 with
  | .sessionStart _ => x.2
  | _ => none

def pendingStarts (tagged : List (Event × Option ℕ)) : List ℕ := tagged.filterMap startOrigin

/-- What has been posted for a call finds that call or none. -/
structure Linked (h : EcallHistory) : Prop where
  tagged : h.tagged.map Prod.fst = h.ao.fifo
  queued : ∀ {e i p s}, (e, some i) ∈ h.tagged → e.phoneId = some p → h.ao.sessions p = some s →
    s.callIndex = i
  deferred : ∀ {x i s}, x ∈ h.ao.scheduled → h.deferredOrigins x.1 = some i →
    h.ao.sessions x.2.phoneId = some s → s.callIndex = i
  deferred_lt : ∀ {x}, x ∈ h.ao.scheduled → x.1 < h.ao.nextUuid
  below : ∀ {p s}, h.ao.sessions p = some s → s.callIndex < h.ao.callIndexSeq
  apart : ∀ {p q s s'}, h.ao.sessions p = some s → h.ao.sessions q = some s' →
    s.callIndex = s'.callIndex → p = q

/-- Each call is started once. -/
structure StartsOnce (h : EcallHistory) : Prop where
  known : ∀ {p o}, (.sessionStart p, o) ∈ h.tagged → ∃ i, o = some i
  below : ∀ i ∈ h.starts ++ pendingStarts h.tagged, i < h.ao.callIndexSeq
  nodup : (h.starts ++ pendingStarts h.tagged).Nodup
  fresh : ∀ {p o s}, (.sessionStart p, o) ∈ h.tagged → h.ao.sessions p = some s →
    s.state = .callConnect

/-- A call that has ended is over. -/
structure EndsOnce (h : EcallHistory) : Prop where
  below : ∀ x ∈ h.told, x.1 < h.ao.callIndexSeq
  ended : ∀ {p s}, (s.callIndex, .ended, false) ∈ h.told → h.ao.sessions p = some s →
    s.isOver = true
  pairwise : h.told.Pairwise (fun x y => x.1 = y.1 → x.2 = (.ended, false) → y.2.1 = .ended)

structure Sound (h : EcallHistory) : Prop where
  linked : h.Linked
  startsOnce : h.StartsOnce
  endsOnce : h.EndsOnce
  own : ∀ x ∈ h.applied, x.1 = x.2

section Posts

variable {h : EcallHistory} {m' : EcallManagerAO} {e : Event} {origin : Option ℕ}
  {rest : List (Event × Option ℕ)} {new : List Event}

theorem pendingStarts_append (l l' : List (Event × Option ℕ)) :
    pendingStarts (l ++ l') = pendingStarts l ++ pendingStarts l' := List.filterMap_append

theorem pendingStarts_posted (hnew : ∀ e ∈ new, ∀ p, e ≠ .sessionStart p) :
    pendingStarts (new.map (·, origin)) = [] := by
  unfold pendingStarts
  rw [List.filterMap_eq_nil_iff]
  intro x hx
  obtain ⟨e, he, rfl⟩ := List.mem_map.mp hx
  unfold startOrigin
  split
  · rename_i p hp
    exact absurd hp (hnew e he p)
  · rfl

theorem drop_fifo {l : List (Event × Option ℕ)} (hfifo : m'.fifo = l.map Prod.fst ++ new) :
    m'.fifo.drop l.length = new := by
  rw [hfifo]
  exact List.drop_left' (List.length_map _)

theorem Linked.posted (h₀ : h.Linked) (hfifo : m'.fifo = h.ao.fifo ++ [e])
    (hscheduled : ∀ x ∈ m'.scheduled, x ∈ h.ao.scheduled) (huuid : m'.nextUuid = h.ao.nextUuid)
    (hseq : m'.callIndexSeq = h.ao.callIndexSeq) (hsessions : m'.sessions = h.ao.sessions)
    (horigin : ∀ {i p s}, origin = some i → e.phoneId = some p → h.ao.sessions p = some s →
      s.callIndex = i) :
    (h.posted origin m').Linked := by
  have hnew : m'.fifo.drop h.tagged.length = [e] := drop_fifo (by rw [hfifo, h₀.tagged])
  have htagged : (h.posted origin m').tagged = h.tagged ++ [(e, origin)] := by
    simp [EcallHistory.posted, hnew]
  constructor
  · rw [htagged, List.map_append, h₀.tagged]
    exact hfifo.symm
  · intro e' i p s he hphone hs
    rw [htagged] at he
    change m'.sessions p = some s at hs
    rw [hsessions] at hs
    rcases List.mem_append.mp he with he | he
    · exact h₀.queued he hphone hs
    · obtain ⟨rfl, hi⟩ : e' = e ∧ some i = origin := by simpa using he
      exact horigin hi.symm hphone hs
  · intro x i s hx hi hs
    change m'.sessions _ = some s at hs
    rw [hsessions] at hs
    exact h₀.deferred (hscheduled x hx) hi hs
  · intro x hx
    change x.1 < m'.nextUuid
    rw [huuid]
    exact h₀.deferred_lt (hscheduled x hx)
  · intro p s hs
    change m'.sessions p = some s at hs
    change s.callIndex < m'.callIndexSeq
    rw [hsessions] at hs
    rw [hseq]
    exact h₀.below hs
  · intro p q s s' hs hs'
    change m'.sessions p = some s at hs
    change m'.sessions q = some s' at hs'
    rw [hsessions] at hs hs'
    exact h₀.apart hs hs'

theorem Sound.posted (h₀ : h.Sound) (hlinked : (h.posted origin m').Linked)
    (hfifo : m'.fifo = h.ao.fifo ++ [e]) (hstart : ∀ p, e ≠ .sessionStart p)
    (hseq : m'.callIndexSeq = h.ao.callIndexSeq) (hsessions : m'.sessions = h.ao.sessions) :
    (h.posted origin m').Sound := by
  have hnew : m'.fifo.drop h.tagged.length = [e] := drop_fifo (by rw [hfifo, h₀.linked.tagged])
  have htagged : (h.posted origin m').tagged = h.tagged ++ [e].map (·, origin) := by
    simp only [EcallHistory.posted, hnew]
  have hpending : pendingStarts (h.posted origin m').tagged = pendingStarts h.tagged := by
    rw [htagged, pendingStarts_append, pendingStarts_posted (by simpa using hstart),
      List.append_nil]
  have hmem : ∀ {p o}, (.sessionStart p, o) ∈ (h.posted origin m').tagged →
      (.sessionStart p, o) ∈ h.tagged := by
    intro p o hp
    rw [htagged] at hp
    rcases List.mem_append.mp hp with hp | hp
    · exact hp
    · simp only [List.map_cons, List.map_nil, List.mem_singleton, Prod.mk.injEq] at hp
      exact absurd hp.1.symm (hstart p)
  have hstarts := h₀.startsOnce
  refine ⟨hlinked, ⟨fun hp => hstarts.known (hmem hp), ?_, ?_, ?_⟩, ⟨?_, ?_, h₀.endsOnce.pairwise⟩,
    h₀.own⟩
  · rw [hpending]
    intro i hi
    exact (hstarts.below i hi).trans_eq hseq.symm
  · rw [hpending]
    exact hstarts.nodup
  · intro p o s hp hs
    change m'.sessions p = some s at hs
    rw [hsessions] at hs
    exact hstarts.fresh (hmem hp) hs
  · intro x hx
    exact (h₀.endsOnce.below x hx).trans_eq hseq.symm
  · intro p s hx hs
    change m'.sessions p = some s at hs
    rw [hsessions] at hs
    exact h₀.endsOnce.ended hx hs

theorem Sound.post (h₀ : h.Sound) (e : Event) (hstart : ∀ p, e ≠ .sessionStart p) :
    (h.posted none (h.ao.postFifo e)).Sound :=
  h₀.posted (h₀.linked.posted rfl (fun _ hx => hx) rfl rfl rfl (fun hi => by cases hi)) rfl hstart
    rfl rfl

theorem Sound.elapse (h₀ : h.Sound) {uuid : ℕ} (hm' : h.ao.elapse uuid = some m') :
    (h.posted (h.deferredOrigins uuid) m').Sound := by
  obtain ⟨key, hkey, rfl⟩ := Option.map_eq_some_iff.mp hm'
  have hmem : (uuid, key) ∈ h.ao.scheduled := by
    obtain ⟨l₁, l₂, hl, -⟩ := List.lookup_eq_some_iff.mp hkey
    simp [hl]
  refine h₀.posted (h₀.linked.posted rfl (fun x hx => List.mem_of_mem_filter hx) rfl rfl rfl ?_)
    rfl (fun _ he => by cases he) rfl rfl
  intro i p s hi hphone hs
  obtain rfl : key.phoneId = p := Option.some.inj hphone
  exact h₀.linked.deferred hmem hi hs

end Posts

section Handled

variable {h : EcallHistory} {m' : EcallManagerAO} {e : Event} {origin : Option ℕ}
  {rest : List (Event × Option ℕ)}

/-- The manager once the head of its fifo has been taken out. -/
def taken (h : EcallHistory) (rest : List (Event × Option ℕ)) : EcallManagerAO :=
  { h.ao with fifo := rest.map Prod.fst }

theorem target_eq_some {i : ℕ} :
    h.ao.target e = some i ↔
      ∃ p s, e.phoneId = some p ∧ h.ao.sessions p = some s ∧ s.callIndex = i := by
  simp [target, Option.bind_eq_some_iff]

/-- Posts made for the call that is served find that call or none. -/
theorem served_own (hruns : Runs e.phoneId (h.taken rest) m') (hopen : h.ao.opensOn e = none)
    {i : ℕ} {p : ℤ} {s : EcallSession} (hi : h.ao.served e m' = some i)
    (hphone : e.phoneId = some p) (hs : m'.sessions p = some s) : s.callIndex = i := by
  simp only [served, hopen] at hi
  obtain ⟨q, s₀, hq, hs₀, rfl⟩ := target_eq_some.mp hi
  obtain rfl : p = q := Option.some.inj (hphone.symm.trans hq)
  obtain ⟨s₁, hs₁, hindex, -⟩ := hruns.sessions hs
  obtain rfl : s₀ = s₁ := Option.some.inj (hs₀.symm.trans hs₁)
  exact hindex

theorem Linked.handled (h₀ : h.Linked) (htagged : h.tagged = (e, origin) :: rest)
    (hopen : h.ao.opensOn e = none) (hruns : Runs e.phoneId (h.taken rest) m') :
    (h.handled e origin rest m').Linked := by
  obtain ⟨new, hfifo, hposts⟩ := hruns.posts
  have hnew : (h.handled e origin rest m').tagged = rest ++ new.map (·, h.ao.served e m') := by
    simp only [EcallHistory.handled, drop_fifo hfifo]
  constructor
  · rw [hnew, List.map_append, List.map_map]
    exact (congrArg _ (List.map_id new)).trans hfifo.symm
  · intro e' i p s he hphone hs
    change m'.sessions p = some s at hs
    rw [hnew] at he
    rcases List.mem_append.mp he with he | he
    · obtain ⟨s₀, hs₀, hindex, -⟩ := hruns.sessions hs
      rw [hindex]
      exact h₀.queued (htagged ▸ List.mem_cons_of_mem _ he) hphone hs₀
    · obtain ⟨e'', he'', heq⟩ := List.mem_map.mp he
      obtain ⟨rfl, hi⟩ := Prod.mk.inj heq
      exact served_own hruns hopen hi ((hposts e'' he'').1 ▸ hphone) hs
  · intro x i s hx hi hs
    change m'.sessions _ = some s at hs
    change (if x.1 < h.ao.nextUuid then _ else _) = some i at hi
    rcases hruns.scheduled x hx with hx | ⟨hge, -, hphone⟩
    · rw [if_pos (h₀.deferred_lt hx)] at hi
      obtain ⟨s₀, hs₀, hindex, -⟩ := hruns.sessions hs
      rw [hindex]
      exact h₀.deferred hx hi hs₀
    · have hge : h.ao.nextUuid ≤ x.1 := hge
      rw [if_neg (not_lt.mpr hge)] at hi
      exact served_own hruns hopen hi hphone.symm hs
  · intro x hx
    change x.1 < m'.nextUuid
    rcases hruns.scheduled x hx with hx | ⟨-, hlt, -⟩
    · exact (h₀.deferred_lt hx).trans_le hruns.nextUuid
    · exact hlt
  · intro p s hs
    change s.callIndex < m'.callIndexSeq
    obtain ⟨s₀, hs₀, hindex, -⟩ := hruns.sessions hs
    rw [hindex, hruns.callIndexSeq]
    exact h₀.below hs₀
  · intro p q s s' hs hs' heq
    obtain ⟨s₀, hs₀, hindex, -⟩ := hruns.sessions hs
    obtain ⟨s₀', hs₀', hindex', -⟩ := hruns.sessions hs'
    exact h₀.apart hs₀ hs₀' (by rw [← hindex, ← hindex', heq])

theorem Linked.own (h₀ : h.Linked) (htagged : h.tagged = (e, origin) :: rest) {i j : ℕ}
    (hi : origin = some i) (hj : h.ao.target e = some j) : i = j := by
  obtain ⟨p, s, hphone, hs, rfl⟩ := target_eq_some.mp hj
  subst hi
  exact (h₀.queued (htagged ▸ List.mem_cons_self) hphone hs).symm

theorem own_handled (h₀ : h.Sound) (htagged : h.tagged = (e, origin) :: rest) :
    ∀ x ∈ (h.handled e origin rest m').applied, x.1 = x.2 := by
  intro x hx
  rcases List.mem_append.mp hx with hx | hx
  · exact h₀.own x hx
  · simp only [Option.mem_toList, Option.bind_eq_some_iff, Option.map_eq_some_iff] at hx
    obtain ⟨i, hi, j, hj, rfl⟩ := hx
    exact h₀.linked.own htagged hi hj

/-- A start that is handled moves from those that are posted to those that have been run. -/
theorem starts_handled (m' : EcallManagerAO) (h₀ : h.Sound)
    (htagged : h.tagged = (e, origin) :: rest) :
    ((h.handled e origin rest m').starts ++ pendingStarts rest).Sublist
      (h.starts ++ pendingStarts h.tagged) := by
  have hpending : pendingStarts h.tagged =
      (startOrigin (e, origin)).toList ++ pendingStarts rest := by
    rw [htagged]
    unfold pendingStarts
    cases ho : startOrigin (e, origin) <;> simp [ho]
  rw [hpending, ← List.append_assoc]
  refine List.Sublist.append_right ?_ _
  refine List.Sublist.append_left ?_ _
  cases e with
  | sessionStart p =>
    cases hj : h.ao.target (.sessionStart p) with
    | none => exact List.nil_sublist _
    | some j =>
      obtain ⟨i, hi⟩ := h₀.startsOnce.known (htagged ▸ List.mem_cons_self)
      obtain rfl := h₀.linked.own htagged hi hj
      rw [hi]
      exact List.Sublist.refl _
  | _ => exact List.nil_sublist _

theorem StartsOnce.unique (h₀ : h.Sound) {p : ℤ} {s : EcallSession} {o : Option ℕ}
    (htagged : h.tagged = (.sessionStart p, origin) :: rest) (hs : h.ao.sessions p = some s)
    (hp : (.sessionStart p, o) ∈ rest) : False := by
  obtain ⟨i, rfl⟩ := h₀.startsOnce.known (htagged ▸ List.mem_cons_self)
  obtain ⟨j, rfl⟩ := h₀.startsOnce.known (htagged ▸ List.mem_cons_of_mem _ hp)
  have hi := h₀.linked.queued (htagged ▸ List.mem_cons_self) rfl hs
  have hj := h₀.linked.queued (htagged ▸ List.mem_cons_of_mem _ hp) rfl hs
  have hmem : j ∈ pendingStarts rest := List.mem_filterMap.mpr ⟨_, hp, rfl⟩
  have hnodup := (List.nodup_append.mp h₀.startsOnce.nodup).2.1
  rw [htagged, show pendingStarts ((.sessionStart p, some i) :: rest) = i :: pendingStarts rest
    from rfl] at hnodup
  exact (List.nodup_cons.mp hnodup).1 (hi ▸ hj ▸ hmem)

theorem StartsOnce.handled (h₀ : h.Sound) (htagged : h.tagged = (e, origin) :: rest)
    (hruns : Runs e.phoneId (h.taken rest) m') (hhandled : Handled e (h.taken rest) m')
    (hturn : h.hangsUpStarted rest e = true) : (h.handled e origin rest m').StartsOnce := by
  obtain ⟨new, hfifo, hposts⟩ := hruns.posts
  have hnew : (h.handled e origin rest m').tagged = rest ++ new.map (·, h.ao.served e m') := by
    simp only [EcallHistory.handled, drop_fifo hfifo]
  have hstart : ∀ e' ∈ new, ∀ p, e' ≠ .sessionStart p := fun e' he' => (hposts e' he').2
  have hpending : pendingStarts (h.handled e origin rest m').tagged = pendingStarts rest := by
    rw [hnew, pendingStarts_append, pendingStarts_posted hstart, List.append_nil]
  have hmem : ∀ {p o}, (.sessionStart p, o) ∈ (h.handled e origin rest m').tagged →
      (.sessionStart p, o) ∈ rest := by
    intro p o hp
    rw [hnew] at hp
    rcases List.mem_append.mp hp with hp | hp
    · exact hp
    · obtain ⟨e', he', heq⟩ := List.mem_map.mp hp
      exact absurd (Prod.mk.inj heq).1 (hstart e' he' p)
  have hsub := starts_handled m' h₀ htagged
  have hold : ∀ {p o}, (.sessionStart p, o) ∈ rest → (.sessionStart p, o) ∈ h.tagged :=
    fun hp => htagged ▸ List.mem_cons_of_mem _ hp
  refine ⟨fun hp => h₀.startsOnce.known (hold (hmem hp)), ?_, ?_, ?_⟩
  · rw [hpending]
    intro i hi
    exact (h₀.startsOnce.below i (hsub.subset hi)).trans_eq hruns.callIndexSeq.symm
  · rw [hpending]
    exact hsub.nodup h₀.startsOnce.nodup
  · intro q o s' hq hs'
    have hposted := hmem hq
    rcases hhandled with hquiet | ⟨p, s, told, hphone, ht, -, hfresh⟩
    · exact h₀.startsOnce.fresh (hold hposted) (hquiet.sessions hs')
    · obtain ⟨s₀, hs₀, -, hother⟩ := hruns.sessions hs'
      by_cases hqp : q = p
      · subst hqp
        have hfound : h.ao.sessions q = some s := ht.found
        refine hfresh ?_ ?_ (h₀.startsOnce.fresh (hold hposted) hfound) s' hs'
        · rintro rfl
          exact StartsOnce.unique h₀ htagged hfound hposted
        · -- the PSAP waits for the start to have its turn
          rintro rfl
          simp only [hangsUpStarted, hfound, Option.isNone_some, Bool.false_or,
            List.all_eq_true] at hturn
          exact of_decide_eq_true (hturn _ hposted) rfl
      · obtain rfl := hother (by simpa [hphone] using hqp)
        exact h₀.startsOnce.fresh (hold hposted) hs₀

theorem pairwise_ended {i : ℕ} {redials : Bool} {told : List CallState}
    (hlast : redials = true ∨ .ended ∉ told ∨
      ∃ l, told = l ++ [CallState.ended] ∧ .ended ∉ l) :
    ((told.map (i, ·)).map (fun v => (v.1, v.2, redials))).Pairwise
      (fun x y => x.1 = y.1 → x.2 = (.ended, false) → y.2.1 = .ended) := by
  rw [List.map_map, List.pairwise_map]
  rcases hlast with rfl | hnot | ⟨l, rfl, hnot⟩
  · exact List.pairwise_of_forall (fun _ _ _ hx => by cases hx)
  · refine List.Pairwise.imp_of_mem ?_ (List.pairwise_of_forall (fun _ _ => trivial))
    intro x y hx _ _ _ heq
    obtain ⟨rfl, -⟩ := Prod.mk.inj heq
    exact absurd hx hnot
  · refine List.pairwise_append.mpr ⟨?_, List.pairwise_singleton _ _, ?_⟩
    · refine List.Pairwise.imp_of_mem ?_ (List.pairwise_of_forall (fun _ _ => trivial))
      intro x y hx _ _ _ heq
      obtain ⟨rfl, -⟩ := Prod.mk.inj heq
      exact absurd hx hnot
    · intro x _ y hy _ _
      exact List.mem_singleton.mp hy

theorem EndsOnce.handled (h₀ : h.Sound) (htagged : h.tagged = (e, origin) :: rest)
    (hruns : Runs e.phoneId (h.taken rest) m') (hhandled : Handled e (h.taken rest) m') :
    (h.handled e origin rest m').EndsOnce := by
  have hseq : m'.callIndexSeq = h.ao.callIndexSeq := hruns.callIndexSeq
  have hviews : ∀ vs, m'.views = h.ao.views ++ vs → (h.handled e origin rest m').told =
      h.told ++ vs.map (fun v => (v.1, v.2, m'.redials e)) := by
    intro vs hvs
    simp only [EcallHistory.handled, hvs, List.drop_left]
  rcases hhandled with hquiet | ⟨p, s, told, hphone, ht, hover, -⟩
  · have htold := hviews [] (hquiet.views.trans (List.append_nil _).symm)
    rw [List.map_nil, List.append_nil] at htold
    refine ⟨?_, ?_, htold ▸ h₀.endsOnce.pairwise⟩
    · rw [htold]
      exact fun x hx => (h₀.endsOnce.below x hx).trans_eq hseq.symm
    · rw [htold]
      exact fun hx hs => h₀.endsOnce.ended hx (hquiet.sessions hs)
  · have htold := hviews _ ht.views
    have hfound : h.ao.sessions p = some s := ht.found
    -- an ended call tells nothing any more and stays over
    have hdone : (s.callIndex, .ended, false) ∈ h.told →
        told = [] ∧ ∀ s', m'.sessions p = some s' → s'.isOver = true := by
      intro hx
      have hs := h₀.endsOnce.ended hx hfound
      refine hover ?_ hs
      rintro rfl
      have hconnect := h₀.startsOnce.fresh (htagged ▸ List.mem_cons_self) hfound
      simp [EcallSession.isOver, hconnect] at hs
    have hlast : m'.redials e = true ∨ .ended ∉ told ∨
        (∀ s', m'.sessions p = some s' → s'.isOver = true) ∧
          ∃ l, told = l ++ [CallState.ended] ∧ .ended ∉ l := by
      refine ht.last.imp_left ?_
      rintro ⟨s', hs', hst⟩
      simp [redials, hphone, hs', hst]
    refine ⟨?_, ?_, ?_⟩
    · rw [htold]
      intro x hx
      change x.1 < m'.callIndexSeq
      rw [hseq]
      rcases List.mem_append.mp hx with hx | hx
      · exact h₀.endsOnce.below x hx
      · simp only [List.map_map, List.mem_map] at hx
        obtain ⟨_, _, rfl⟩ := hx
        exact h₀.linked.below hfound
    · rw [htold]
      intro q s' hx hs'
      obtain ⟨s₀, hs₀, hindex, hother⟩ := hruns.sessions hs'
      rcases List.mem_append.mp hx with hx | hx
      · by_cases hqp : q = p
        · subst hqp
          obtain rfl : s = s₀ := Option.some.inj (hfound.symm.trans hs₀)
          exact (hdone (hindex ▸ hx)).2 s' hs'
        · obtain rfl := hother (by simpa [hphone] using hqp)
          exact h₀.endsOnce.ended hx hs₀
      · simp only [List.map_map, List.mem_map, Function.comp_apply, Prod.mk.injEq] at hx
        obtain ⟨st, hst, hsame, rfl, hredials⟩ := hx
        obtain rfl : q = p := h₀.linked.apart hs₀ hfound (hindex.symm.trans hsame.symm)
        rcases hlast with hr | hnot | ⟨hends, -⟩
        · rw [hr] at hredials
          cases hredials
        · exact absurd hst hnot
        · exact hends s' hs'
    · rw [htold]
      refine List.pairwise_append.mpr ⟨h₀.endsOnce.pairwise, ?_, ?_⟩
      · exact pairwise_ended (hlast.imp_right (Or.imp_right And.right))
      · intro x hx y hy hxy hended
        simp only [List.map_map, List.mem_map, Function.comp_apply] at hy
        obtain ⟨st, hst, rfl⟩ := hy
        obtain ⟨i, x⟩ := x
        obtain rfl : i = s.callIndex := hxy
        obtain rfl : x = (.ended, false) := hended
        rw [(hdone hx).1] at hst
        cases hst

theorem Sound.handled (h₀ : h.Sound) (htagged : h.tagged = (e, origin) :: rest)
    (hopen : h.ao.opensOn e = none) (hturn : h.hangsUpStarted rest e = true)
    (hhandled : Handled e (h.taken rest) m') : (h.handled e origin rest m').Sound := by
  have hruns : Runs e.phoneId (h.taken rest) m' := by
    rcases hhandled with hquiet | ⟨p, s, told, hphone, ht, -⟩
    · exact hquiet.runs
    · exact hphone ▸ ht.runs
  exact ⟨h₀.linked.handled htagged hopen hruns, .handled h₀ htagged hruns hhandled hturn,
    .handled h₀ htagged hruns hhandled, own_handled h₀ htagged⟩

end Handled

section Opening

variable {h : EcallHistory} {m' : EcallManagerAO} {e : Event} {origin : Option ℕ}
  {rest : List (Event × Option ℕ)} {p : ℤ}

variable (origin) in
theorem tagged_opened (hopen : h.ao.opensOn e = some p) (ho : Opened p (h.taken rest) m') :
    (h.handled e origin rest m').tagged =
      rest ++ [(Event.sessionStart p, some h.ao.callIndexSeq)] := by
  obtain ⟨s, hs, hindex, -⟩ := ho.found
  have hindex : s.callIndex = h.ao.callIndexSeq := hindex
  have hserved : h.ao.served e m' = some h.ao.callIndexSeq := by
    simp [served, hopen, hs, hindex]
  simp only [EcallHistory.handled, drop_fifo ho.fifo, hserved, List.map_cons, List.map_nil]

/-- The call a phone has now is the one that was opened, or the one it had. -/
theorem session_opened (ho : Opened p (h.taken rest) m') {q : ℤ} {s : EcallSession}
    (hs : m'.sessions q = some s) :
    (q = p ∧ s.callIndex = h.ao.callIndexSeq ∧ s.state = .callConnect) ∨
      (q ≠ p ∧ h.ao.sessions q = some s) := by
  obtain ⟨s₁, hs₁, hindex, hconnect⟩ := ho.found
  by_cases hqp : q = p
  · subst hqp
    obtain rfl : s₁ = s := Option.some.inj (hs₁.symm.trans hs)
    exact .inl ⟨rfl, hindex, hconnect⟩
  · rw [ho.others hqp] at hs
    exact .inr ⟨hqp, hs⟩

theorem Linked.opened (h₀ : h.Linked) (htagged : h.tagged = (e, origin) :: rest)
    (hopen : h.ao.opensOn e = some p) (ho : Opened p (h.taken rest) m')
    (hvacant : h.vacant rest p = true) : (h.handled e origin rest m').Linked := by
  have hnew := tagged_opened origin hopen ho
  simp only [vacant, Bool.and_eq_true, List.all_eq_true, decide_not, Bool.or_eq_true,
    Bool.not_eq_true', decide_eq_false_iff_not, decide_eq_true_eq] at hvacant
  obtain ⟨hqueued, hdeferred⟩ := hvacant
  have hscheduled : ∀ x ∈ m'.scheduled, x ∈ h.ao.scheduled ∧ x.2.phoneId ≠ p := by
    intro x hx
    rw [ho.scheduled] at hx
    have hx : x ∈ (h.ao.release p).scheduled := by
      unfold release taken at hx
      unfold release
      cases hs : h.ao.sessions p <;> simp only [hs] at hx ⊢ <;> exact hx
    exact ⟨release_sub x hx, hdeferred x hx⟩
  constructor
  · rw [hnew, List.map_append]
    exact ho.fifo.symm
  · intro e' i q s he hphone hs
    rw [hnew] at he
    rcases List.mem_append.mp he with hrest | he
    · obtain ⟨rfl, -, -⟩ | ⟨-, hs⟩ := session_opened ho hs
      · rcases hqueued _ hrest with hne | hnone
        · exact absurd hphone hne
        · cases hnone
      · exact h₀.queued (htagged ▸ List.mem_cons_of_mem _ hrest) hphone hs
    · obtain ⟨rfl, rfl⟩ : e' = .sessionStart p ∧ i = h.ao.callIndexSeq := by simpa using he
      obtain rfl : p = q := Option.some.inj hphone
      obtain ⟨-, hindex, -⟩ | ⟨hne, -⟩ := session_opened ho hs
      · exact hindex
      · exact absurd rfl hne
  · intro x i s hx hi hs
    obtain ⟨hx, hne⟩ := hscheduled x hx
    change (if x.1 < h.ao.nextUuid then _ else _) = some i at hi
    rw [if_pos (h₀.deferred_lt hx)] at hi
    obtain ⟨hsame, -, -⟩ | ⟨-, hs⟩ := session_opened ho hs
    · exact absurd hsame hne
    · exact h₀.deferred hx hi hs
  · intro x hx
    change x.1 < m'.nextUuid
    rw [ho.nextUuid]
    exact h₀.deferred_lt (hscheduled x hx).1
  · intro q s hs
    change s.callIndex < m'.callIndexSeq
    have hseq : m'.callIndexSeq = h.ao.callIndexSeq + 1 := ho.callIndexSeq
    obtain ⟨-, hindex, -⟩ | ⟨-, hs⟩ := session_opened ho hs
    · omega
    · have hlt := h₀.below hs
      omega
  · intro q q' s s' hs hs' heq
    obtain ⟨rfl, hindex, -⟩ | ⟨-, hs⟩ := session_opened ho hs <;>
      obtain ⟨rfl, hindex', -⟩ | ⟨-, hs'⟩ := session_opened ho hs'
    · rfl
    · have hlt := h₀.below hs'
      omega
    · have hlt := h₀.below hs
      omega
    · exact h₀.apart hs hs' heq

theorem StartsOnce.opened (h₀ : h.Sound) (htagged : h.tagged = (e, origin) :: rest)
    (hopen : h.ao.opensOn e = some p) (ho : Opened p (h.taken rest) m') :
    (h.handled e origin rest m').StartsOnce := by
  have hseq : m'.callIndexSeq = h.ao.callIndexSeq + 1 := ho.callIndexSeq
  have hnew := tagged_opened origin hopen ho
  have hpending : pendingStarts (h.handled e origin rest m').tagged =
      pendingStarts rest ++ [h.ao.callIndexSeq] := by
    rw [hnew, pendingStarts_append]
    rfl
  have hsub := starts_handled m' h₀ htagged
  have hbelow : ∀ i ∈ (h.handled e origin rest m').starts ++ pendingStarts rest,
      i < h.ao.callIndexSeq := fun i hi => h₀.startsOnce.below i (hsub.subset hi)
  constructor
  · intro q o hq
    rw [hnew] at hq
    rcases List.mem_append.mp hq with hq | hq
    · exact h₀.startsOnce.known (htagged ▸ List.mem_cons_of_mem _ hq)
    · obtain ⟨-, rfl⟩ := Prod.mk.inj (List.mem_singleton.mp hq)
      exact ⟨_, rfl⟩
  · rw [hpending, ← List.append_assoc]
    intro i hi
    change i < m'.callIndexSeq
    rw [hseq]
    rcases List.mem_append.mp hi with hi | hi
    · have hlt := hbelow i hi
      omega
    · obtain rfl := List.mem_singleton.mp hi
      exact Nat.lt_succ_self _
  · rw [hpending, ← List.append_assoc]
    refine List.nodup_append.mpr ⟨hsub.nodup h₀.startsOnce.nodup, List.nodup_singleton _, ?_⟩
    rintro i hi j hj rfl
    obtain rfl := List.mem_singleton.mp hj
    exact lt_irrefl _ (hbelow _ hi)
  · intro q o s hq hs
    obtain ⟨-, -, hconnect⟩ | ⟨hqp, hs⟩ := session_opened ho hs
    · exact hconnect
    · rw [hnew] at hq
      rcases List.mem_append.mp hq with hq | hq
      · exact h₀.startsOnce.fresh (htagged ▸ List.mem_cons_of_mem _ hq) hs
      · obtain ⟨hsame, -⟩ := Prod.mk.inj (List.mem_singleton.mp hq)
        exact absurd (Event.sessionStart.inj hsame) hqp

theorem EndsOnce.opened (h₀ : h.EndsOnce) (ho : Opened p (h.taken rest) m') :
    (h.handled e origin rest m').EndsOnce := by
  have hseq : m'.callIndexSeq = h.ao.callIndexSeq + 1 := ho.callIndexSeq
  have htold : (h.handled e origin rest m').told =
      h.told ++ [(h.ao.callIndexSeq, CallState.dialing, m'.redials e)] := by
    have hviews : m'.views = h.ao.views ++ [(h.ao.callIndexSeq, CallState.dialing)] := ho.views
    simp only [EcallHistory.handled, hviews, List.drop_left, List.map_cons, List.map_nil]
  constructor
  · rw [htold]
    intro x hx
    change x.1 < m'.callIndexSeq
    rw [hseq]
    rcases List.mem_append.mp hx with hx | hx
    · have hlt := h₀.below x hx
      omega
    · obtain rfl := List.mem_singleton.mp hx
      exact Nat.lt_succ_self _
  · rw [htold]
    intro q s hx hs
    rcases List.mem_append.mp hx with hx | hx
    · obtain ⟨-, hindex, -⟩ | ⟨-, hs⟩ := session_opened ho hs
      · have hlt := h₀.below _ hx
        rw [hindex] at hlt
        exact absurd hlt (lt_irrefl _)
      · exact h₀.ended hx hs
    · cases (Prod.mk.inj (List.mem_singleton.mp hx)).2
  · rw [htold]
    refine List.pairwise_append.mpr ⟨h₀.pairwise, List.pairwise_singleton _ _, ?_⟩
    rintro x hx y hy hxy -
    obtain rfl := List.mem_singleton.mp hy
    have hlt := h₀.below x hx
    rw [hxy] at hlt
    exact absurd hlt (lt_irrefl _)

theorem Sound.opened (h₀ : h.Sound) (htagged : h.tagged = (e, origin) :: rest)
    (hopen : h.ao.opensOn e = some p) (ho : Opened p (h.taken rest) m')
    (hvacant : h.vacant rest p = true) : (h.handled e origin rest m').Sound :=
  ⟨h₀.linked.opened htagged hopen ho hvacant, StartsOnce.opened h₀ htagged hopen ho,
    h₀.endsOnce.opened ho, own_handled h₀ htagged⟩

end Opening

section Runs

variable {h h' : EcallHistory} {l : Label}

theorem handle_eq_some {e : Event} {origin : Option ℕ} {rest : List (Event × Option ℕ)}
    {m' : EcallManagerAO} (h₀ : h.tagged.map Prod.fst = h.ao.fifo)
    (htagged : h.tagged = (e, origin) :: rest) (hm' : h.ao.handle = some m') :
    m' = (h.taken rest).handleEvent e := by
  have hfifo : h.ao.fifo = e :: rest.map Prod.fst := by rw [← h₀, htagged, List.map_cons]
  simp only [EcallManagerAO.handle, hfifo, Option.ite_none_left_eq_some, Option.some.injEq] at hm'
  exact hm'.2.symm

theorem step_sound (h₀ : h.Sound) (hturn : h.inTurn l = true) (hstep : h.step l = some h') :
    h'.Sound := by
  have hpost : ∀ e : Event, (∀ p, e ≠ .sessionStart p) →
      some (h.posted none (h.ao.postFifo e)) = some h' → h'.Sound := by
    intro e hstart hstep
    cases hstep
    exact h₀.post e hstart
  cases l with
  | handle =>
    simp only [step] at hstep
    split at hstep
    · cases hstep
    · rename_i e origin rest htagged
      obtain ⟨m', hm', rfl⟩ := Option.map_eq_some_iff.mp hstep
      obtain rfl := handle_eq_some h₀.linked.tagged htagged hm'
      simp only [inTurn, htagged, Bool.and_eq_true] at hturn
      have hsame : (h.taken rest).opensOn e = h.ao.opensOn e := rfl
      cases hopen : h.ao.opensOn e with
      | none => exact h₀.handled htagged hopen hturn.2 (handled_handleEvent (hsame.trans hopen))
      | some p =>
        have hvacant := hturn.1
        rw [hopen] at hvacant
        exact h₀.opened htagged hopen (opened_handleEvent (hsame.trans hopen)) hvacant
  | elapse uuid =>
    obtain ⟨m', hm', rfl⟩ := Option.map_eq_some_iff.mp hstep
    exact h₀.elapse hm'
  | handleMessage corrId q => exact hpost _ (fun _ he => by cases he) hstep
  | forceEcallTimerFailure timer => exact hpost _ (fun _ he => by cases he) hstep
  | forceMsdPullRequest p => exact hpost _ (fun _ he => by cases he) hstep
  | forceHangupFromPsap p => exact hpost _ (fun _ he => by cases he) hstep
  | forceEcallRedialMode config succeedAtAttempt =>
    exact hpost _ (fun _ he => by cases he) hstep
  | resubscribe => exact hpost _ (fun _ he => by cases he) hstep
  | stop => exact hpost _ (fun _ he => by cases he) hstep

theorem ready_sound (isNgEcallDevice : Bool) : (ready isNgEcallDevice).Sound := by
  refine ⟨⟨rfl, ?_, ?_, ?_, ?_, ?_⟩, ⟨?_, ?_, List.nodup_nil, ?_⟩, ⟨?_, ?_, List.Pairwise.nil⟩, ?_⟩
  · intro e i p s he
    cases he
  · intro x i s hx
    cases hx
  · intro x hx
    cases hx
  · intro p s hs
    cases hs
  · intro p q s s' hs
    cases hs
  · intro p o hp
    cases hp
  · intro i hi
    cases hi
  · intro p o s hp
    cases hp
  · intro x hx
    cases hx
  · intro p s hx
    cases hx
  · intro x hx
    cases hx

/-- The handling of an event takes nothing else out of the fifo. -/
theorem fifo_handleEvent (m : EcallManagerAO) (e : Event) :
    ∃ new, (m.handleEvent e).fifo = m.fifo ++ new := by
  cases hopen : m.opensOn e with
  | none =>
    rcases handled_handleEvent hopen with hquiet | ⟨p, s, told, -, ht, -⟩
    · obtain ⟨new, hnew, -⟩ := hquiet.runs.posts
      exact ⟨new, hnew⟩
    · obtain ⟨new, hnew, -⟩ := ht.runs.posts
      exact ⟨new, hnew⟩
  | some p => exact ⟨_, (opened_handleEvent hopen).fifo⟩

theorem tagged_posted {m' : EcallManagerAO} {origin : Option ℕ} {new : List Event}
    (h₀ : h.tagged.map Prod.fst = h.ao.fifo) (hfifo : m'.fifo = h.ao.fifo ++ new) :
    (h.posted origin m').tagged.map Prod.fst = m'.fifo := by
  rw [← h₀] at hfifo
  simp only [posted, drop_fifo hfifo, List.map_append, List.map_map]
  rw [hfifo]
  exact congrArg _ (List.map_id new)

theorem step_history {m' : EcallManagerAO} (h₀ : h.tagged.map Prod.fst = h.ao.fifo)
    (hstep : h.ao.step l = some m') :
    ∃ h', h.step l = some h' ∧ h'.ao = m' ∧ h'.tagged.map Prod.fst = h'.ao.fifo := by
  have hpost : ∀ e : Event, some (h.ao.postFifo e) = some m' →
      ∃ h', some (h.posted none (h.ao.postFifo e)) = some h' ∧ h'.ao = m' ∧
        h'.tagged.map Prod.fst = h'.ao.fifo := by
    intro e hstep
    cases hstep
    exact ⟨_, rfl, rfl, tagged_posted h₀ rfl⟩
  cases l with
  | handle =>
    cases htagged : h.tagged with
    | nil =>
      have hfifo : h.ao.fifo = [] := by rw [← h₀, htagged, List.map_nil]
      simp [EcallManagerAO.step, EcallManagerAO.handle, hfifo] at hstep
    | cons x rest =>
      obtain ⟨e, origin⟩ := x
      refine ⟨h.handled e origin rest m', ?_, rfl, ?_⟩
      · simp only [step, htagged]
        exact Option.map_eq_some_iff.mpr ⟨m', hstep, rfl⟩
      · obtain rfl := handle_eq_some h₀ htagged hstep
        obtain ⟨new, hnew⟩ := fifo_handleEvent (h.taken rest) e
        simp only [EcallHistory.handled, drop_fifo hnew, List.map_append, List.map_map]
        rw [hnew]
        exact congrArg _ (List.map_id new)
  | elapse uuid =>
    refine ⟨_, Option.map_eq_some_iff.mpr ⟨m', hstep, rfl⟩, rfl, ?_⟩
    obtain ⟨key, -, rfl⟩ := Option.map_eq_some_iff.mp hstep
    exact tagged_posted h₀ rfl
  | _ => exact hpost _ hstep

theorem exists_history (isNgEcallDevice : Bool) {l : List Label} {m : EcallManagerAO}
    (hrun : Trace.run EcallManagerAO.step (.ready isNgEcallDevice) l = some m) :
    ∃ h, Trace.run step (ready isNgEcallDevice) l = some h ∧ h.ao = m := by
  have hfollow : ∀ {l : List Label} {h : EcallHistory}, h.tagged.map Prod.fst = h.ao.fifo →
      Trace.run EcallManagerAO.step h.ao l = some m →
      ∃ h', Trace.run step h l = some h' ∧ h'.ao = m := by
    intro l
    induction l with
    | nil =>
      intro h _ hrun
      exact ⟨h, rfl, Option.some.inj hrun⟩
    | cons l ls ih =>
      intro h h₀ hrun
      obtain ⟨m', hm', hrest⟩ := (Trace.run_cons_eq_some _).mp hrun
      obtain ⟨h', hh', rfl, h₀'⟩ := step_history h₀ hm'
      obtain ⟨h'', hh'', hao⟩ := ih h₀' hrest
      exact ⟨h'', (Trace.run_cons_eq_some _).mpr ⟨h', hh', hh''⟩, hao⟩
  exact hfollow rfl hrun

/-- Queued actions meet their own calls in every run in which no call is opened while an earlier one
of its phone has events outstanding, and the PSAP hangs up no call before its start has had its
turn. -/
theorem ownCalls_of_inTurn (isNgEcallDevice : Bool) {l : List Label} {h : EcallHistory}
    (hturn : Trace.AllSteps step (fun h l => h.inTurn l = true) (ready isNgEcallDevice) l)
    (hrun : Trace.run step (ready isNgEcallDevice) l = some h) : h.OwnCalls := by
  have h₀ : h.Sound := Trace.run_invariant_of
    (fun _ _ _ h₀ hturn hstep => step_sound h₀ hturn hstep) hturn hrun (ready_sound isNgEcallDevice)
  exact ⟨(List.nodup_append.mp h₀.startsOnce.nodup).1, h₀.own, h₀.endsOnce.pairwise⟩

/-- A call is made, and the user ends it after it has been set up. -/
def endedRun : List Label :=
  [.handleMessage 0 (.startEcall 1 .manual true "" ""), .handle, .handle,
    .handleMessage 1 (.endEcall 1 1), .handle,
    .handleMessage 2 (.startEcall 1 .manual true "" ""), .handle, .handle]

/-- A call is ended and the next one opened, all before the start of the first has its turn. -/
def reopenedRun : List Label :=
  [.handleMessage 0 (.startEcall 1 .manual true "" ""), .handleMessage 1 (.endEcall 1 1),
    .handleMessage 2 (.startEcall 1 .manual true "" ""), .handle, .handle, .handle, .handle,
    .handle]

/-- The PSAP hangs up before the call's start has its turn. -/
def hungUpRun : List Label :=
  [.handleMessage 0 (.startEcall 1 .manual true "" ""), .forceHangupFromPsap 1, .handle, .handle,
    .handle]

theorem ownCalls_endedRun :
    ∃ h, Trace.run step (ready false) endedRun = some h ∧ h.OwnCalls ∧ h.starts = [1, 2] := by
  have hturn : Trace.AllSteps step (fun h l => h.inTurn l = true) (ready false) endedRun := by
    decide +kernel
  have hrun : (Trace.run step (ready false) endedRun).map EcallHistory.starts = some [1, 2] := by
    decide +kernel
  obtain ⟨h, hh, hstarts⟩ := Option.map_eq_some_iff.mp hrun
  exact ⟨h, hh, ownCalls_of_inTurn false hturn hh, hstarts⟩

/-- The second call is started twice, once by the start of the first; and a call that the PSAP has
ended is dialled all the same. -/
theorem not_ownCalls :
    (∃ h, Trace.run step (ready false) reopenedRun = some h ∧ h.starts = [2, 2] ∧
      h.applied = [(1, 2), (2, 2)] ∧ ¬ h.OwnCalls) ∧
    (∃ h, Trace.run step (ready false) hungUpRun = some h ∧ ¬ h.OwnCalls) := by
  have hreopened : (Trace.run step (ready false) reopenedRun).map (fun h => (h.starts, h.applied)) =
      some ([2, 2], [(1, 2), (2, 2)]) := by
    decide +kernel
  have hhungUp : (Trace.run step (ready false) hungUpRun).map (fun h => h.told) =
      some [(1, .dialing, false), (1, .ended, false), (1, .dialing, false), (1, .alerting, false),
        (1, .active, false)] := by
    decide +kernel
  obtain ⟨h, hh, heq⟩ := Option.map_eq_some_iff.mp hreopened
  obtain ⟨hstarts, happlied⟩ := Prod.mk.inj heq
  obtain ⟨h', hh', htold⟩ := Option.map_eq_some_iff.mp hhungUp
  refine ⟨⟨h, hh, hstarts, happlied, ?_⟩, ⟨h', hh', ?_⟩⟩
  · intro hown
    have honce := hown.once
    rw [hstarts] at honce
    exact absurd honce (by decide)
  · intro hown
    have hended := hown.ended
    rw [htold] at hended
    exact absurd hended (by decide)

end Runs

end EcallHistory

end TelafSim.Ecall
