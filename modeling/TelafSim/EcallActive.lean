import TelafSim.EcallPull

/-!
# Calls that are in conversation

CallConversation is entered by the start of a call, by the redial that connects, by a timer that
runs out and by a pull. CALL_ACTIVE is told on the way to it, before the MSD is sent: by the redial
that connects in any case, by a start unless the MSD is neither sent nor, for a CS eCall, pulled.
-/

namespace TelafSim.Ecall

/-- CALL_ACTIVE has been told after the last CALL_DIALING, and no CALL_ENDED since. -/
def Active (told : List CallState) : Prop :=
  ∃ l m, told = l ++ .active :: m ∧ .dialing ∈ l ∧ .dialing ∉ m ∧ .ended ∉ m

namespace EcallSession

/-- As `__init__` leaves it. -/
structure New (s : EcallSession) : Prop where
  state : s.state = .callConnect
  redialAttempt : s.redialAttempt = 0
  updateInProgress : s.updateInProgress = false
  msdPull : s.msdPull = false

/-- The MSD is sent, or not, without CALL_ACTIVE. -/
def sendsSilently (s : EcallSession) : Bool :=
  if s.isNgEcall then !s.isMsdTransmitted else s.isMsdTransmitted && s.msdPull

/-- A start that does not fail at once, and sends the MSD without CALL_ACTIVE. -/
def startsSilently (s : EcallSession) : Bool :=
  s.redialMode ≠ some .callOrig && s.sendsSilently

def isAnswered (s : EcallSession) : Bool :=
  s.state = .decodeSendMsd || s.state = .crcCheckonMsd || s.state = .decodeMsd ||
    s.state = .callConversation

end EcallSession

namespace SessionLog

def initial (s : EcallSession) : SessionLog := ⟨s, []⟩

def Announced (h : SessionLog) : Prop :=
  h.session.state = .callConversation → Active (states h.calls)

/-- The call is not a start that sends the MSD without CALL_ACTIVE. -/
def heeds (h : SessionLog) (e : EntryPoint) : Bool := e ≠ .start || !h.session.startsSilently

end SessionLog

section Active

variable {told m : List CallState}

theorem Active.append (h : Active told) (hdialing : .dialing ∉ m) (hended : .ended ∉ m) :
    Active (told ++ m) := by
  obtain ⟨l, m', rfl, hl, hdialing', hended'⟩ := h
  refine ⟨l, m' ++ m, by simp, hl, ?_, ?_⟩
  · simp [hdialing, hdialing']
  · simp [hended, hended']

theorem Active.quiet {cs : List Callback} (h : Active told) (hcs : states cs = []) :
    Active (told ++ states cs) := by
  rwa [hcs, List.append_nil]

theorem active_of_dialed (h : .dialing ∈ told) : Active (told ++ [.active]) :=
  ⟨told, [], rfl, h, List.not_mem_nil, List.not_mem_nil⟩

/-- Without CALL_ACTIVE after the last CALL_DIALING the call is not active. -/
theorem not_active_of_dialing (hdialing : .dialing ∈ m) (hactive : .active ∉ m) :
    ¬ Active (told ++ m) := by
  rintro ⟨l, m', heq, -, hdialing', -⟩
  rcases List.append_eq_append_iff.mp heq with ⟨t, rfl, rfl⟩ | ⟨t, rfl, htail⟩
  · exact hactive (by simp)
  · cases t with
    | nil =>
      obtain rfl : CallState.active :: m' = m := htail
      exact hactive List.mem_cons_self
    | cons c t =>
      obtain ⟨-, rfl⟩ := List.cons.inj htail
      exact hdialing' (List.mem_append_right t hdialing)

end Active

namespace EcallSession

variable {s : EcallSession}

theorem states_tell (cs : List Callback) (r : EcallSession × List Callback) :
    states (tell cs r).2 = states cs ++ states r.2 :=
  states_append cs r.2

theorem tell_tell (cs cs' : List Callback) (r : EcallSession × List Callback) :
    tell cs (tell cs' r) = tell (cs ++ cs') r := by
  rw [tell, tell, tell, List.append_assoc]

theorem states_send : states (s.transitionTo .decodeSendMsd enterDecodeSendMsd).2 =
    if s.sendsSilently then [] else [.active] := by
  have hcrc := states_crc (s := { s with state := .decodeSendMsd })
  have hmsd := states_decodeMsd (s := { s with state := .decodeSendMsd })
  unfold transitionTo enterDecodeSendMsd sendsSilently
  dsimp only
  by_cases hng : s.isNgEcall = true
  · rw [if_pos hng, if_neg (by rw [hng]; decide)]
    by_cases hm : s.isMsdTransmitted = true
    · rw [if_pos hm, if_neg (by rw [hm]; decide), states_tell, states_append,
        states_regulatory rfl, hmsd]
      rfl
    · rw [if_neg hm, if_pos (by rw [Bool.not_eq_true] at hm; rw [hm]; rfl)]
      rfl
  · rw [if_neg hng, if_pos (by rw [Bool.not_eq_true] at hng; rw [hng]; rfl)]
    by_cases hm : s.isMsdTransmitted = true
    · have hread : (s.isMsdTransmitted && s.msdPull) = s.msdPull := by rw [hm, Bool.true_and]
      rw [if_pos hm, hread]
      split_ifs
      · rw [states_tell, states_append, states_regulatory rfl, hcrc]
        rfl
      · rfl
      · rw [states_tell, states_tell, states_tell, hcrc]
        rfl
      · rw [states_tell, hcrc]
        rfl
    · have hread : (s.isMsdTransmitted && s.msdPull) = false := by
        rw [Bool.not_eq_true] at hm
        rw [hm, Bool.false_and]
      rw [if_neg hm, hread, if_neg Bool.false_ne_true, states_tell, states_append]
      split <;> rfl

theorem start_cases (s : EcallSession) :
    (s.redialMode = some .callOrig ∧ s.start.1.state = .redialing) ∨
    (s.redialMode ≠ some .callOrig ∧ ∃ cs, states cs = [.dialing, .alerting] ∧
      s.start = tell cs
        (({ s with state := .callConnect } : EcallSession).transitionTo .decodeSendMsd
          enterDecodeSendMsd)) := by
  unfold start
  rw [transitionTo, enterCallConnect]
  split
  · rename_i r hr
    exact .inl ⟨redialMode_of_filter (s := s) hr, rfl⟩
  · rename_i hnone
    refine .inr ⟨redial_filter_eq_none.mp hnone, _, ?_, (tell_tell _ _ _)⟩
    rw [states_append, states_append, states_append, states_regulatory rfl]
    split_ifs <;> rfl

end EcallSession

def AnsweredActive (s : EcallSession) (told : List CallState) : Prop :=
  s.isAnswered = true → Active told

section Step

variable {told : List CallState} {s : EcallSession}

theorem active_send (h : Active told) :
    Active (told ++ states (s.transitionTo .decodeSendMsd EcallSession.enterDecodeSendMsd).2) := by
  rw [EcallSession.states_send]
  split
  · rwa [List.append_nil]
  · exact h.append (by decide) (by decide)

theorem answeredActive_start (hloud : s.startsSilently = false) :
    AnsweredActive s.start.1 (told ++ states s.start.2) := by
  rcases EcallSession.start_cases s with ⟨-, hst⟩ | ⟨hmode, cs, hcs, heq⟩
  · intro hanswered
    simp [EcallSession.isAnswered, hst] at hanswered
  · have hsend : states (({ s with state := .callConnect } : EcallSession).transitionTo
        .decodeSendMsd EcallSession.enterDecodeSendMsd).2 = [.active] := by
      rw [EcallSession.startsSilently, decide_eq_true hmode, Bool.true_and] at hloud
      exact EcallSession.states_send.trans (if_neg (Bool.not_eq_true _ ▸ hloud))
    intro _
    rw [heq, EcallSession.states_tell, hsend, hcs, ← List.append_assoc]
    exact active_of_dialed (by simp)

theorem answeredActive_hangup (h : AnsweredActive s told) :
    AnsweredActive s.hangup.1 (told ++ states s.hangup.2) := by
  unfold EcallSession.hangup
  split
  all_goals first
    | exact fun hanswered => absurd hanswered Bool.false_ne_true
    | rwa [states_nil, List.append_nil]

theorem answeredActive_pull (h : AnsweredActive s told) :
    AnsweredActive s.msdPullRequest.1 (told ++ states s.msdPullRequest.2) := by
  unfold EcallSession.msdPullRequest
  dsimp only
  split
  · rename_i hst
    have hactive : Active told := h (by simp [EcallSession.isAnswered, hst])
    split
    · rw [states_append, EcallSession.states_regulatory rfl]
      exact fun _ => hactive.append (by decide) (by decide)
    · exact fun _ => active_send hactive
  · rwa [states_nil, List.append_nil]

theorem answeredActive_deregistration (h : AnsweredActive s told) :
    AnsweredActive s.networkDeregistrationRequest.1
      (told ++ states s.networkDeregistrationRequest.2) := by
  unfold EcallSession.networkDeregistrationRequest
  split
  · exact fun hanswered => (h hanswered).quiet rfl
  · rwa [states_nil, List.append_nil]

theorem answeredActive_hlapExpiry {timer : Timer} {mode : OperatingMode}
    (h : AnsweredActive s told) : AnsweredActive (s.onHlapTimerExpiry timer mode).1
      (told ++ states (s.onHlapTimerExpiry timer mode).2) := by
  have hreaction := EcallSession.reaction_hlapExpiry s timer mode
  generalize s.onHlapTimerExpiry timer mode = r at hreaction ⊢
  cases hreaction with
  | failed hst =>
    have hactive : Active told := by
      apply h
      rcases hst with hst | hst | hst <;> simp [EcallSession.isAnswered, hst]
    exact fun _ => hactive.quiet rfl
  | redialed | calledBack | ended => exact fun hanswered => absurd hanswered Bool.false_ne_true
  | goesOn | expired | ignored => exact fun hanswered => (h hanswered).quiet rfl

/-- The redial that connects is announced before the MSD is sent. -/
theorem answeredActive_redialExpiry (h : AnsweredActive s told) :
    AnsweredActive s.onRedialTimerExpiry.1 (told ++ states s.onRedialTimerExpiry.2) := by
  unfold EcallSession.onRedialTimerExpiry
  split
  · rwa [states_nil, List.append_nil]
  rename_i hst
  split
  · have hconnected : Active (told ++ [.dialing] ++ [.active]) := active_of_dialed (by simp)
    intro _
    have hactive := active_send (s := s) hconnected
    simpa [EcallSession.states_tell, states_cons, Callback.stateTold, callStateByAction,
      EcallSession.changeCallState] using hactive
  · have hredialing : s.isAnswered = false := by simp [EcallSession.isAnswered, not_not.mp hst]
    intro hanswered
    split at hanswered
    · exact absurd (hanswered.symm.trans hredialing) Bool.true_eq_false.mp
    · cases hanswered

theorem answeredActive_call {e : EntryPoint} (h : AnsweredActive s told)
    (hloud : e = .start → s.startsSilently = false) :
    AnsweredActive (e.call s).1 (told ++ states (e.call s).2) := by
  cases e with
  | start => exact answeredActive_start (hloud rfl)
  | hangup => exact answeredActive_hangup h
  | msdPullRequest => exact answeredActive_pull h
  | networkDeregistrationRequest => exact answeredActive_deregistration h
  | onHlapTimerExpiry timer mode => exact answeredActive_hlapExpiry h
  | onRedialTimerExpiry => exact answeredActive_redialExpiry h

end Step

namespace SessionLog

variable {s : EcallSession} {es : List EntryPoint}

/-- A session that has been constructed anew is in CallConversation only after CALL_ACTIVE has been
told, since the last CALL_DIALING and with no CALL_ENDED after it, as long as no start sends the MSD
without CALL_ACTIVE. -/
theorem announced_run (hs : s.New)
    (hheeds : Trace.AllSteps step (fun h e => h.heeds e = true) (initial s) es) :
    Trace.Always step Announced (initial s) es := by
  refine Trace.always_of_allSteps (J := fun h => AnsweredActive h.session (states h.calls))
    ?_ ?_ hheeds ?_
  · intro h hactive hst
    apply hactive
    simp [EcallSession.isAnswered, hst]
  · intro h e h' hactive hok hstep
    obtain rfl := Option.some.inj hstep
    have hloud : e = .start → h.session.startsSilently = false := by
      intro he
      simpa [heeds, he] using hok
    have hnext := answeredActive_call hactive hloud
    rwa [← states_append] at hnext
  · intro hanswered
    simp [EcallSession.isAnswered, initial, hs.state] at hanswered

def ngCall : EcallSession := { redialledCall with isNgEcall := true, redial := none }

/-- Sent again on a pull, and ended by T2. -/
def conversationRun : List EntryPoint :=
  [.start, .msdPullRequest, .onHlapTimerExpiry .t2 .normal, .onHlapTimerExpiry .t9 .normal]

theorem announced_conversationRun :
    Trace.Always step Announced (initial ngCall) conversationRun :=
  announced_run ⟨rfl, rfl, rfl, rfl⟩ (by decide +kernel)

def ngCallWithoutMsd : EcallSession := { ngCall with isMsdTransmitted := false }

theorem conversation_unannounced : ngCallWithoutMsd.New ∧
    ∃ h, Trace.run step (initial ngCallWithoutMsd) [.start] = some h ∧
      h.session.state = .callConversation ∧ states h.calls = [.dialing, .alerting] ∧
      ¬ Active (states h.calls) := by
  have htold : states ((initial ngCallWithoutMsd).next .start).calls = [.dialing, .alerting] := by
    decide +kernel
  refine ⟨⟨rfl, rfl, rfl, rfl⟩, _, rfl, by decide +kernel, htold, ?_⟩
  rw [htold]
  have hnot : ¬ Active ([] ++ [.dialing, .alerting]) :=
    not_active_of_dialing (by decide) (by decide)
  exact hnot

end SessionLog

end TelafSim.Ecall
