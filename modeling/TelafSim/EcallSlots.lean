import TelafSim.EcallWire
import TelafSim.EcallTimers

/-!
# One eCall at a time

A phone is refused a new eCall while its session is neither in PSAPCallback nor in Terminal. That is
the case exactly while a call that was accepted on the phone has not ended for good, unless the
start of a call has its turn after the PSAP has hung the call up: the call then runs although its
end was told. The indices of accepted calls increase, and the user's hang-up leaves nothing in the
slot.
-/

namespace TelafSim.Ecall

namespace EcallSession

variable {s : EcallSession} {r : EcallSession × List Callback}

/-- The call is not over, and CALL_ENDED is told only if it is left to its redial timer. -/
def Lives (r : EcallSession × List Callback) : Prop :=
  r.1.isOver = false ∧ (.ended ∈ states r.2 → r.1.state = .redialing)

/-- The call has come to PSAPCallback, and CALL_ENDED is told. -/
def ComesToEnd (r : EcallSession × List Callback) : Prop :=
  r.1.state = .psapCallback ∧ .ended ∈ states r.2

theorem isOver_of_state {st : SessionState} (h : s.state = st) (hp : st ≠ .psapCallback)
    (ht : st ≠ .terminal) : s.isOver = false := by
  simp [isOver, h, hp, ht]

theorem Lives.tell {cs : List Callback} (hcs : .ended ∉ states cs) (h : Lives r) :
    Lives (tell cs r) := by
  refine ⟨h.1, ?_⟩
  simp only [EcallSession.tell, states_append, List.mem_append, hcs, false_or]
  exact h.2

theorem ComesToEnd.tell (cs : List Callback) (h : ComesToEnd r) : ComesToEnd (tell cs r) := by
  refine ⟨h.1, ?_⟩
  simp only [EcallSession.tell, states_append, List.mem_append]
  exact .inr h.2

theorem comesToEnd_psapCallback {cs : List Callback} (hcs : .ended ∈ states cs) :
    ComesToEnd (tell cs s.transitionToPsapCallback) := by
  refine ⟨rfl, ?_⟩
  simp only [EcallSession.tell, states_append, List.mem_append]
  exact .inl hcs

theorem lives_conversation : Lives (s.transitionTo .callConversation enterCallConversation) :=
  ⟨rfl, fun h => absurd h List.not_mem_nil⟩

theorem isOver_transmits (h : Transmits r) : r.1.isOver = false := by
  rcases h with h | ⟨h, -⟩ | ⟨h, -⟩ <;> exact isOver_of_state h (by decide) (by decide)

theorem lives_send : Lives (s.transitionTo .decodeSendMsd enterDecodeSendMsd) := by
  refine ⟨?_, fun h => absurd h goesOn_send.ended⟩
  rcases transmits_send (s := s) with h | ⟨h, -⟩
  · exact isOver_transmits h
  · have hstate : (s.transitionTo .decodeSendMsd enterDecodeSendMsd).1.state = .decodeSendMsd := by
      rw [h]
    exact isOver_of_state hstate (by decide) (by decide)

theorem lives_redialing (q : Redial) (cs : List Callback) :
    Lives (tell cs (s.enterRedialing q)) := ⟨rfl, fun _ => rfl⟩

theorem lives_start : Lives s.start := by
  unfold start transitionTo enterCallConnect
  split
  · exact ⟨rfl, fun _ => rfl⟩
  · refine Lives.tell ?_ (Lives.tell ?_ lives_send)
    · simp [states_cons, Callback.stateTold, changeCallState, callStateByAction]
    · rw [states_append, states_append, states_regulatory rfl]
      split_ifs <;>
        simp [states_cons, Callback.stateTold, changeCallState, callStateByAction]

/-- What an entry point does to a call that is not over, and to one that is. -/
structure Fate (s : EcallSession) (r : EcallSession × List Callback) : Prop where
  callIndex : r.1.callIndex = s.callIndex
  live : s.isOver = false → Lives r ∨ ComesToEnd r
  ended : s.state = .psapCallback → r.1.state = .psapCallback ∧ states r.2 = []

theorem fate_of_rests (hindex : r.1.callIndex = s.callIndex) (h : Rests s r) : Fate s r := by
  refine ⟨hindex, fun hlive => .inl ⟨?_, ?_⟩, fun hst => ⟨h.state.trans hst, h.quiet⟩⟩
  · rw [isOver_congr h.state]
    exact hlive
  · rw [h.quiet]
    exact fun hmem => absurd hmem List.not_mem_nil

theorem fate_hangup : Fate s s.hangup := by
  refine ⟨ends_hangup.callIndex, ?_, fun hst => ?_⟩
  · intro hlive
    have htold : .ended ∈ states [s.changeCallState .callEnded] := List.mem_singleton_self _
    unfold hangup
    split
    all_goals first
      | exact .inr (comesToEnd_psapCallback (by
          rw [states_append]
          exact List.mem_append_left _ htold))
      | exact .inr (comesToEnd_psapCallback htold)
      | exact .inl ⟨hlive, fun h => absurd h List.not_mem_nil⟩
  · have hrests := rests_hangup (s := s) (by simp [isOver, hst])
    exact ⟨hrests.state.trans hst, hrests.quiet⟩

theorem fate_pull : Fate s s.msdPullRequest := by
  refine ⟨ends_pull.callIndex, ?_, fun hst => ?_⟩
  · intro hlive
    unfold msdPullRequest
    dsimp only
    split_ifs
    · refine .inl ⟨hlive, ?_⟩
      simp [states_cons, Callback.stateTold, states_regulatory]
    · exact .inl lives_send
    · exact .inl ⟨hlive, fun h => absurd h List.not_mem_nil⟩
  · have hrests := rests_pull (s := s) (by simp [hst])
    exact ⟨hrests.state.trans hst, hrests.quiet⟩

theorem fate_redialExpiry : Fate s s.onRedialTimerExpiry := by
  refine ⟨ends_redialExpiry.callIndex, ?_, fun hst => ?_⟩
  · intro hlive
    unfold onRedialTimerExpiry
    split_ifs with hst
    · exact .inl ⟨hlive, fun h => absurd h List.not_mem_nil⟩
    · refine .inl (Lives.tell ?_ (Lives.tell ?_ lives_send)) <;>
        simp [states_cons, Callback.stateTold, changeCallState, callStateByAction]
    · have hredialing : s.state = .redialing := by simpa using hst
      split
      · exact .inl ⟨hlive, fun _ => hredialing⟩
      · have hend : ComesToEnd (tell ([s.changeCallState .callEnded] ++
            [.onRedial false .maxRedialAttempted]) s.transitionToPsapCallback) :=
          comesToEnd_psapCallback (by simp [states_cons, Callback.stateTold, changeCallState,
            callStateByAction])
        simpa only [EcallSession.tell, List.append_assoc] using
          Or.inr (hend.tell [s.changeCallState .callDialing])
  · have hrests := rests_redialExpiry (s := s) (by simp [hst])
    exact ⟨hrests.state.trans hst, hrests.quiet⟩

theorem lives_failure (timer : Timer) : Lives (s.transmissionFailure timer) :=
  lives_conversation.tell (by simp [states_cons, Callback.stateTold])

theorem fate_hlapExpiry {timer : Timer} {mode : OperatingMode} (hends : ¬ s.endsCall timer mode) :
    Fate s (s.onHlapTimerExpiry timer mode) := by
  refine ⟨ends_hlapExpiry.callIndex, ?_, ?_⟩
  · intro hlive
    have hreaction := reaction_hlapExpiry s timer mode
    generalize s.onHlapTimerExpiry timer mode = r at hreaction ⊢
    cases hreaction with
    | failed => exact .inl (lives_failure _)
    | redialed => exact .inl (lives_redialing _ _)
    | calledBack =>
      exact .inr (comesToEnd_psapCallback (by simp [states_cons, Callback.stateTold,
        changeCallState, callStateByAction]))
    | ended hat => exact absurd hat hends
    | goesOn hat | expired hat => exact absurd hlive (by simp [isOver, hat])
    | ignored => exact .inl ⟨hlive, fun hmem => absurd hmem List.not_mem_nil⟩
  · intro hst
    refine ⟨?_, (over_hlapExpiry (by simp [isOver, hst])).1⟩
    have hreaction := reaction_hlapExpiry s timer mode
    generalize s.onHlapTimerExpiry timer mode = r at hreaction ⊢
    cases hreaction with
    | failed hat => simp [hst] at hat
    | redialed hat | calledBack hat => simp [hst] at hat
    | ended hat => exact absurd hat hends
    | goesOn | expired | ignored => exact hst

end EcallSession

namespace EcallManagerAO

variable {m m' m'' : EcallManagerAO} {p : ℤ} {s : EcallSession}
  {r : EcallSession × List Callback} {e : Event}

section Stopped

theorem stopped_cancelAll (timers : List Timer) :
    (timers.foldl (fun m timer => m.cancel (.hlap p timer)) m).stopped = m.stopped := by
  induction timers generalizing m with
  | nil => rfl
  | cons timer timers ih => exact ih

theorem stopped_clearCallSlot : (m.clearCallSlot p).stopped = m.stopped := by
  unfold clearCallSlot
  dsimp only
  exact stopped_cancelAll (p := p) (m := m.setSession p none) allTimers

theorem stopped_schedule (key : TimerKey) (periodMs : ℤ) :
    (m.schedule key periodMs).stopped = m.stopped := by
  unfold schedule
  dsimp only
  split <;> rfl

theorem stopped_perform (c : Callback) : (m.perform p c).stopped = m.stopped := by
  cases c with
  | changeCallState action remotePartyNumber =>
    simp only [perform]
    split <;> rfl
  | startTimer timer => exact stopped_schedule _ _
  | sendEvent timer status => cases status <;> rfl
  | startRedialTimer delayMs => exact stopped_schedule _ _
  | onTerminal => exact stopped_clearCallSlot
  | _ => rfl

theorem stopped_drive : (m.drive p r).stopped = m.stopped := by
  have hall : ∀ (cs : List Callback) (m : EcallManagerAO),
      (cs.foldl (perform p) m).stopped = m.stopped := by
    intro cs
    induction cs with
    | nil => exact fun _ => rfl
    | cons c cs ih => exact fun m => (ih _).trans (stopped_perform c)
  exact hall r.2 _

end Stopped

section Effects

/-- The sessions are the same, and nothing is told of a call. -/
structure Same (m m' : EcallManagerAO) : Prop where
  sessions : m'.sessions = m.sessions
  views : m'.views = m.views
  stopped : m'.stopped = m.stopped

theorem Same.trans (h : Same m m') (h' : Same m' m'') : Same m m'' :=
  ⟨h'.sessions.trans h.sessions, h'.views.trans h.views, h'.stopped.trans h.stopped⟩

theorem same_pub {x : Publication} (hx : x.stateTold = none) : Same m (m.pub x) :=
  ⟨rfl, views_pub_quiet hx, rfl⟩

/-- One session has had a turn: it stays in its slot, or is over and leaves it. -/
structure Turned (e : Event) (p : ℤ) (s : EcallSession) (r : EcallSession × List Callback)
    (m m' : EcallManagerAO) : Prop where
  phoneId : e.phoneId = some p
  found : m.sessions p = some s
  fate : e ≠ .sessionStart p → EcallSession.Fate s r
  start : e = .sessionStart p → r.1.callIndex = s.callIndex ∧ EcallSession.Lives r
  views : m'.views = m.views ++ (states r.2).map (s.callIndex, ·)
  others : ∀ q, q ≠ p → m'.sessions q = m.sessions q
  slot : m'.sessions p = some r.1 ∨ m'.sessions p = none ∧ r.1.isOver = true
  stopped : m'.stopped = m.stopped

/-- What the handling of an event does to the sessions when it opens no call. -/
def Effect (e : Event) (m m' : EcallManagerAO) : Prop :=
  Same m m' ∨ (∃ p s r, Turned e p s r m m') ∨
    (m'.stopped = true ∧ (∀ p, m'.sessions p = none) ∧ m'.views = m.views)

theorem Turned.clear (h : Turned e p s r m m') (hover : r.1.isOver = true) :
    Turned e p s r m (m'.clearCallSlot p) := by
  refine ⟨h.phoneId, h.found, h.fate, h.start, withdraws_clearCallSlot.views.trans h.views, ?_,
    .inr ⟨sessions_clear_self, hover⟩, stopped_clearCallSlot.trans h.stopped⟩
  intro q hq
  rw [withdraws_clearCallSlot.sessions]
  exact (Function.update_of_ne hq _ _).trans (h.others q hq)

theorem Effect.before (h : Effect e m m') {m₀ : EcallManagerAO} (hsame : Same m₀ m) :
    Effect e m₀ m' := by
  rcases h with h | ⟨p, s, r, h⟩ | ⟨hstopped, hnone, hviews⟩
  · exact .inl (hsame.trans h)
  · exact .inr (.inl ⟨p, s, r, h.phoneId, hsame.sessions ▸ h.found, h.fate, h.start,
      h.views.trans (by rw [hsame.views]), fun q hq => (h.others q hq).trans
        (congrFun hsame.sessions q), h.slot, h.stopped.trans hsame.stopped⟩)
  · exact .inr (.inr ⟨hstopped, hnone, hviews.trans hsame.views⟩)

theorem Effect.after (h : Effect e m m') (hsame : Same m' m'') : Effect e m m'' := by
  rcases h with h | ⟨p, s, r, h⟩ | ⟨hstopped, hnone, hviews⟩
  · exact .inl (h.trans hsame)
  · exact .inr (.inl ⟨p, s, r, h.phoneId, h.found, h.fate, h.start, hsame.views.trans h.views,
      fun q hq => (congrFun hsame.sessions q).trans (h.others q hq), hsame.sessions ▸ h.slot,
      hsame.stopped.trans h.stopped⟩)
  · exact .inr (.inr ⟨hsame.stopped.trans hstopped, fun p => hsame.sessions ▸ hnone p,
      hsame.views.trans hviews⟩)

theorem turned_drive (hphone : e.phoneId = some p) (hs : m.sessions p = some s)
    (hkeeps : EcallSession.Keeps r) (hindex : r.1.callIndex = s.callIndex)
    (hfate : e ≠ .sessionStart p → EcallSession.Fate s r)
    (hstart : e = .sessionStart p → EcallSession.Lives r) : Turned e p s r m (m.drive p r) := by
  have hset : (m.setSession p (some r.1)).sessions p = some r.1 := Function.update_self _ _ _
  obtain ⟨hsessions, hviews⟩ := performAll_told hkeeps hset
  refine ⟨hphone, hs, hfate, fun he => ⟨hindex, hstart he⟩, ?_, ?_, ?_, stopped_drive⟩
  · rw [← hindex]
    exact hviews
  · intro q hq
    exact (congrFun hsessions q).trans (Function.update_of_ne hq _ _)
  · exact .inl ((congrFun hsessions p).trans hset)

theorem turned_fate (hphone : e.phoneId = some p) (hs : m.sessions p = some s)
    (hkeeps : EcallSession.Keeps r) (hfate : EcallSession.Fate s r) (he : e ≠ .sessionStart p) :
    Turned e p s r m (m.drive p r) :=
  turned_drive hphone hs hkeeps hfate.callIndex (fun _ => hfate) (fun h => absurd h he)

theorem effect_runSession {f : EcallSession → EcallSession × List Callback}
    (hf : ∀ s, m.sessions p = some s → Effect e m (m.drive p (f s))) :
    Effect e m (m.runSession p f) := by
  unfold runSession
  split
  · exact .inl ⟨rfl, rfl, rfl⟩
  · rename_i s hs
    exact hf s hs

theorem effect_hangupFromUser (hphone : e.phoneId = some p) (hs : m.sessions p = some s)
    (he : e ≠ .sessionStart p) : Effect e m (m.hangupFromUser p s) := by
  have hturned := turned_fate hphone hs s.keeps_hangup EcallSession.fate_hangup he
  unfold hangupFromUser
  dsimp only
  split
  · rename_i hst
    exact .inr (.inl ⟨p, s, _, hturned.clear (by simp [EcallSession.isOver, hst])⟩)
  · exact .inr (.inl ⟨p, s, _, hturned⟩)

theorem effect_hlapExpiry {timer : Timer} {mode : OperatingMode} (hs : m.sessions p = some s) :
    Effect (.timerExpiry (.hlap p timer)) m (m.drive p (s.onHlapTimerExpiry timer mode)) := by
  have he : Event.timerExpiry (.hlap p timer) ≠ .sessionStart p := by rintro ⟨⟩
  by_cases hends : s.endsCall timer mode
  · -- T9 ends the call for good: the session leaves its slot
    have hrun : m.drive p (s.onHlapTimerExpiry timer mode) =
        (m.drive p ({ s with state := .terminal }, [.expiryTimer .t9])).clearCallSlot p := by
      rw [EcallSession.onHlapTimerExpiry_of_endsCall hends]
      rfl
    have hset : (m.setSession p (some { s with state := .terminal })).sessions p =
      some { s with state := .terminal } := Function.update_self _ _ _
    have hcs : Callback.onTerminal ∉ [Callback.expiryTimer .t9] := by simp
    obtain ⟨hsessions, hviews⟩ := performAll_told hcs hset
    rw [hrun]
    refine .inr (.inl ⟨p, s, (s, []), rfl, hs, ?_, fun h => absurd h he, ?_, ?_,
      .inr ⟨sessions_clear_self, by simp [EcallSession.isOver, hends.1]⟩,
      stopped_clearCallSlot.trans stopped_drive⟩)
    · exact fun _ => EcallSession.fate_of_rests rfl ⟨rfl, rfl⟩
    · exact withdraws_clearCallSlot.views.trans hviews
    · intro q hq
      rw [withdraws_clearCallSlot.sessions]
      refine (Function.update_of_ne hq _ _).trans ?_
      exact (congrFun hsessions q).trans (Function.update_of_ne hq _ _)
  · exact .inr (.inl ⟨p, s, _, turned_fate rfl hs (EcallSession.keeps_hlapExpiry hends)
      (EcallSession.fate_hlapExpiry hends) he⟩)

theorem effect_timerExpiry (key : TimerKey) :
    Effect (.timerExpiry key) m (m.runTimerExpiry key) := by
  have hforget : Same m { m with timerUuids := Function.update m.timerUuids key none } :=
    ⟨rfl, rfl, rfl⟩
  refine Effect.before ?_ hforget
  cases key with
  | hlap p timer => exact effect_runSession (fun s hs => effect_hlapExpiry hs)
  | redial p =>
    refine effect_runSession ?_
    intro s hs
    exact .inr (.inl ⟨p, s, _, turned_fate rfl hs s.keeps_redialExpiry
      EcallSession.fate_redialExpiry (by rintro ⟨⟩)⟩)

theorem effect_dispatchMessage (corrId : ℕ) {q : Request}
    (hopen : m.opensOn (.messageReceived corrId q) = none) :
    Effect (.messageReceived corrId q) m (m.dispatchMessage corrId q) := by
  have herror : ∀ {m : EcallManagerAO} {code : ErrorCode} {detail : String},
      Same m (m.sendError corrId code detail) := same_pub rfl
  have hdone : ∀ {m : EcallManagerAO}, Same m (m.pubRsp corrId .empty) := same_pub rfl
  cases q with
  | startEcall p type isMsdTransmitted remotePartyNumber dialNumber =>
    simp only [opensOn, isFree] at hopen
    simp only [dispatchMessage, handleStartEcall]
    split
    · rename_i hs
      simp [hs] at hopen
    · rename_i s hs
      split
      · rename_i hst
        simp [hs, EcallSession.isOver, hst] at hopen
      · exact .inl herror
  | endEcall p callIndex =>
    simp only [dispatchMessage, handleEndEcall]
    split
    · exact .inl herror
    · rename_i s hs
      exact (effect_hangupFromUser rfl (Option.filter_eq_some_iff.mp hs).1 (by rintro ⟨⟩)).after
        hdone
  | answerEcall p callIndex =>
    simp only [dispatchMessage, handleAnswerEcall]
    split <;> exact .inl herror
  | sendMsd p =>
    simp only [dispatchMessage, handleSendMsd]
    split
    · exact .inl herror
    · exact .inl (hdone.trans ⟨rfl, rfl, rfl⟩)
  | requestNetworkDeregistration p =>
    simp only [dispatchMessage, handleRequestNetworkDeregistration]
    split
    · exact .inl herror
    · split
      · exact .inl hdone
      · rename_i s hs
        have hturned : Effect (.messageReceived corrId (.requestNetworkDeregistration p))
            (m.pubRsp corrId .empty)
            ((m.pubRsp corrId .empty).drive p s.networkDeregistrationRequest) :=
          .inr (.inl ⟨p, s, _, turned_fate rfl hs s.keeps_deregistration
            (EcallSession.fate_of_rests EcallSession.ends_deregistration.callIndex
              EcallSession.rests_deregistration) (by rintro ⟨⟩)⟩)
        exact hturned.before hdone
  | updateHlapTimer p type duration =>
    simp only [dispatchMessage, handleUpdateHlapTimer]
    split
    · exact .inl herror
    · exact .inl ⟨rfl, views_pub_quiet rfl, rfl⟩
  | requestHlapTimer p type =>
    simp only [dispatchMessage, handleRequestHlapTimer]
    split
    · exact .inl herror
    · exact .inl (same_pub rfl)
  | configureEcallRedial config timeGap =>
    simp only [dispatchMessage, handleConfigureEcallRedial]
    split
    · exact .inl ⟨rfl, views_pub_quiet rfl, rfl⟩
    · exact .inl herror
  | setOperatingMode p mode =>
    have hrsp := views_pub_quiet (x := .rsp corrId (.ok .empty))
      (m := { m with operatingMode := Function.update m.operatingMode p (some mode) }) rfl
    exact .inl ⟨rfl, (views_pub_quiet rfl).trans hrsp, rfl⟩
  | _ => exact .inl ⟨rfl, views_pub_quiet rfl, rfl⟩

theorem turned_start (hs : m.sessions p = some s) :
    Turned (.sessionStart p) p s s.start m (m.drive p s.start) :=
  turned_drive rfl hs s.keeps_start EcallSession.ends_start.callIndex (fun h => absurd rfl h)
    (fun _ => EcallSession.lives_start)

theorem effect_handleEvent (hopen : m.opensOn e = none) : Effect e m (m.handleEvent e) := by
  cases e with
  | messageReceived corrId q => exact effect_dispatchMessage corrId hopen
  | sessionStart p => exact effect_runSession (fun s hs => .inr (.inl ⟨p, s, _, turned_start hs⟩))
  | sessionHangup p =>
    simp only [handleEvent, runSessionHangup, Bool.false_eq_true, if_false]
    split
    · exact .inl ⟨rfl, rfl, rfl⟩
    · rename_i s hs
      exact effect_hangupFromUser rfl hs (by rintro ⟨⟩)
  | sessionHangupFromPsap p =>
    refine effect_runSession ?_
    intro s hs
    exact .inr (.inl ⟨p, s, _, turned_fate rfl hs s.keeps_hangup EcallSession.fate_hangup
      (by rintro ⟨⟩)⟩)
  | sessionMsdPull p =>
    refine effect_runSession ?_
    intro s hs
    exact .inr (.inl ⟨p, s, _, turned_fate rfl hs s.keeps_pull EcallSession.fate_pull
      (by rintro ⟨⟩)⟩)
  | timerExpiry key => exact effect_timerExpiry key
  | forceTimerFailure timer =>
    simp only [handleEvent, applyForceTimerFailure]
    split <;> exact .inl ⟨rfl, rfl, rfl⟩
  | forceRedialMode config succeedAtAttempt => exact .inl ⟨rfl, rfl, rfl⟩
  | resubscribe => exact .inl (same_pub rfl)
  | stop => exact .inr (.inr ⟨rfl, fun _ => rfl, views_pub_quiet rfl⟩)

end Effects

/-! ### Accepted calls -/

def accepted (m : EcallManagerAO) : List WireCall := m.published.filterMap Publication.startRsp

theorem accepted_of_tells (h : Tells m m') : m'.accepted = m.accepted := by
  obtain ⟨new, hnew, htold⟩ := h.published
  have hnone : new.filterMap Publication.startRsp = [] :=
    List.filterMap_eq_nil_iff.mpr (fun x hx => (htold x hx).1)
  rw [accepted, hnew, List.filterMap_append, hnone, List.append_nil]
  rfl

theorem accepted_of_opens {c : WireCall} (h : Opens c m m') : m'.accepted = m.accepted ++ [c] := by
  obtain ⟨x, hx, hrsp, -⟩ := h.published
  rw [accepted, hx, List.filterMap_append]
  simp [hrsp, accepted]

theorem callIndexSeq_handleEvent (hopen : m.opensOn e = none) :
    (m.handleEvent e).callIndexSeq = m.callIndexSeq := by
  rcases handled_handleEvent hopen with hquiet | ⟨p, s, told, -, hturn, -⟩
  · exact hquiet.runs.callIndexSeq
  · exact hturn.runs.callIndexSeq

theorem stopped_handleEvent_opens (hopen : m.opensOn e = some p) :
    (m.handleEvent e).stopped = m.stopped := by
  unfold opensOn at hopen
  split at hopen
  · rename_i corrId q type isMsdTransmitted remotePartyNumber dialNumber
    have hcleared : (m.clearCallSlot q).stopped = m.stopped := stopped_clearCallSlot
    simp only [handleEvent, dispatchMessage, handleStartEcall]
    split
    · rfl
    · split
      · generalize m.clearCallSlot q = m₁ at hcleared ⊢
        exact hcleared
      · rfl
  · cases hopen

/-- A start_ecall that is handled now is answered that the phone is in use. -/
def AnswersInUse (m : EcallManagerAO) (phoneId : ℤ) : Prop :=
  ∀ corrId type isMsdTransmitted remotePartyNumber dialNumber,
    (m.dispatchMessage corrId
      (.startEcall phoneId type isMsdTransmitted remotePartyNumber dialNumber)).published =
      m.published ++
        [.rsp corrId (.error .deviceInUse "an eCall is already in progress on this phoneId")]

theorem answersInUse_iff : m.AnswersInUse p ↔ m.isFree p = false := by
  constructor
  · intro h
    by_contra hfree
    rw [Bool.not_eq_false] at hfree
    obtain ⟨c, -, -, hpub⟩ := published_handleStartEcall 0 .test false "" "" hfree
    have heq := List.append_cancel_left ((h 0 .test false "" "").symm.trans hpub)
    cases heq
  · intro h corrId type isMsdTransmitted remotePartyNumber dialNumber
    simp only [dispatchMessage, handleStartEcall]
    split
    · rename_i hs
      simp [isFree, hs] at h
    · rename_i s hs
      split
      · rename_i hst
        rcases hst with hst | hst <;> simp [isFree, hs, EcallSession.isOver, hst] at h
      · rfl

/-- Neither a session nor a timer is left in the tables of the slot. A deferred post whose uuid a table
no longer has is not in the slot, and may still be made. -/
def SlotEmpty (m : EcallManagerAO) (phoneId : ℤ) : Prop :=
  m.sessions phoneId = none ∧ (∀ timer, m.timerUuids (.hlap phoneId timer) = none) ∧
    m.timerUuids (.redial phoneId) = none

theorem timerUuids_cancelAll {timers : List Timer} {key : TimerKey}
    (h : m.timerUuids key = none ∨ ∃ t ∈ timers, key = .hlap p t) :
    (timers.foldl (fun m timer => m.cancel (.hlap p timer)) m).timerUuids key = none := by
  induction timers generalizing m with
  | nil =>
    rcases h with h | ⟨t, ht, -⟩
    · exact h
    · cases ht
  | cons timer timers ih =>
    refine ih ?_
    by_cases hkey : key = .hlap p timer
    · exact .inl (by simp [cancel, hkey])
    · rcases h with h | ⟨t, ht, rfl⟩
      · exact .inl (by simp [cancel, hkey, h])
      · refine .inr ⟨t, (List.mem_cons.mp ht).resolve_left ?_, rfl⟩
        rintro rfl
        exact hkey rfl

theorem slotEmpty_clearCallSlot : (m.clearCallSlot p).SlotEmpty p := by
  refine ⟨sessions_clear_self, ?_, ?_⟩
  · intro timer
    have hkey : (m.setSession p none).timerUuids (.hlap p timer) = none ∨
        ∃ t ∈ allTimers, TimerKey.hlap p timer = .hlap p t :=
      .inr ⟨timer, mem_allTimers timer, rfl⟩
    have hall := timerUuids_cancelAll hkey
    simp only [clearCallSlot, cancel]
    exact (Function.update_of_ne (by rintro ⟨⟩) _ _).trans hall
  · exact Function.update_self _ _ _

/-- The user's hang-up is answered when nothing is left in the slot. -/
theorem slotEmpty_handleEndEcall {corrId : ℕ} {callIndex : ℤ}
    (hs : (m.sessions p).filter (·.callIndex = callIndex) = some s) (hst : s.state ≠ .terminal) :
    (m.dispatchMessage corrId (.endEcall p callIndex)).SlotEmpty p := by
  have hclear : ((m.drive p s.hangup).clearCallSlot p).SlotEmpty p := slotEmpty_clearCallSlot
  simp only [dispatchMessage, handleEndEcall, hs, hangupFromUser,
    EcallSession.state_hangup hst, if_true]
  generalize (m.drive p s.hangup).clearCallSlot p = m₁ at hclear ⊢
  exact hclear

end EcallManagerAO

open EcallManagerAO

namespace EcallSession

variable {s : EcallSession} {r : EcallSession × List Callback}

/-- A turn leaves a call that lives, ends it, or finds that it has ended. -/
def Outcome (s : EcallSession) (r : EcallSession × List Callback) : Prop :=
  Lives r ∨ ComesToEnd r ∨ s.state = .psapCallback ∧ r.1.state = .psapCallback ∧ states r.2 = []

theorem Fate.outcome (h : Fate s r) (hst : s.state ≠ .terminal) : Outcome s r := by
  cases hover : s.isOver with
  | false => exact (h.live hover).imp_right .inl
  | true =>
    have hpsap : s.state = .psapCallback := by
      have hends : s.state = .psapCallback ∨ s.state = .terminal := by simpa [isOver] using hover
      exact hends.resolve_right hst
    exact .inr (.inr ⟨hpsap, h.ended hpsap⟩)

theorem Outcome.standing (h : Outcome s r) : r.1.state ≠ .terminal := by
  rcases h with h | h | h
  · intro hst
    have hlive := h.1
    simp [isOver, hst] at hlive
  · rw [h.1]
    decide
  · rw [h.2.1]
    decide

end EcallSession

namespace EcallHistory

variable {h h' : EcallHistory} {m' : EcallManagerAO} {e : Event} {origin : Option ℕ}
  {rest : List (Event × Option ℕ)} {p : ℤ} {s : EcallSession} {r : EcallSession × List Callback}

/-- CALL_ENDED has been told of the call, and the call was not left to its redial timer. -/
def EndedForGood (h : EcallHistory) (callIndex : ℕ) : Prop := (callIndex, .ended, false) ∈ h.told

/-- Each phone has one call at a time. -/
structure OneCall (h : EcallHistory) : Prop where
  increasing : (h.ao.accepted.map (·.callIndex)).Pairwise (· < ·)
  inUse : h.ao.stopped = false → ∀ p, h.ao.AnswersInUse p ↔
    ∃ c ∈ h.ao.accepted, c.phoneId = p ∧ ¬ h.EndedForGood c.callIndex
  released : ∀ corrId p i,
    .rsp corrId (.ok .empty) ∈ (h.ao.dispatchMessage corrId (.endEcall p i)).published.drop
      h.ao.published.length →
    (h.ao.dispatchMessage corrId (.endEcall p i)).SlotEmpty p

/-- What the slots and the published calls have to do with each other in every run. -/
structure Slots (h : EcallHistory) : Prop where
  tagged : h.tagged.map Prod.fst = h.ao.fifo
  increasing : (h.ao.accepted.map (·.callIndex)).Pairwise (· < ·)
  below : ∀ c ∈ h.ao.accepted, c.callIndex < h.ao.callIndexSeq
  toldBelow : ∀ x ∈ h.told, x.1 < h.ao.callIndexSeq
  owned : ∀ {p s}, h.ao.sessions p = some s →
    ∃ c ∈ h.ao.accepted, c.phoneId = p ∧ c.callIndex = s.callIndex
  standing : ∀ {p s}, h.ao.sessions p = some s → s.state ≠ .terminal
  ended : ∀ {p s}, h.ao.sessions p = some s → s.isOver = true → h.EndedForGood s.callIndex
  /-- A call that has left its slot has ended for good. -/
  gone : h.ao.stopped = false → ∀ c ∈ h.ao.accepted,
    (∀ s, h.ao.sessions c.phoneId = some s → s.callIndex ≠ c.callIndex) →
    h.EndedForGood c.callIndex
  silent : h.ao.stopped = true → ∀ p, h.ao.sessions p = none

/-- A call that is not over in its slot has not ended for good. -/
def Live (h : EcallHistory) : Prop :=
  ∀ p s, h.ao.sessions p = some s → s.isOver = false → ¬ h.EndedForGood s.callIndex

section Reading

theorem Slots.eq_of_callIndex (h₀ : h.Slots) {c c' : WireCall} (hc : c ∈ h.ao.accepted)
    (hc' : c' ∈ h.ao.accepted) (heq : c.callIndex = c'.callIndex) : c = c' := by
  have hnodup : (h.ao.accepted.map (·.callIndex)).Nodup := h₀.increasing.imp (fun hlt => hlt.ne)
  exact List.inj_on_of_nodup_map hnodup hc hc' heq

theorem Slots.apart (h₀ : h.Slots) {q : ℤ} {s' : EcallSession} (hs : h.ao.sessions p = some s)
    (hs' : h.ao.sessions q = some s') (heq : s.callIndex = s'.callIndex) : p = q := by
  obtain ⟨c, hc, rfl, hindex⟩ := h₀.owned hs
  obtain ⟨c', hc', rfl, hindex'⟩ := h₀.owned hs'
  rw [h₀.eq_of_callIndex hc hc' (by rw [hindex, hindex', heq])]

theorem isFree_eq_false (m : EcallManagerAO) (p : ℤ) :
    m.isFree p = false ↔ ∃ s, m.sessions p = some s ∧ s.isOver = false := by
  cases hs : m.sessions p <;> simp [isFree, hs]

theorem Slots.found (h₀ : h.Slots) (hstopped : h.ao.stopped = false) {c : WireCall}
    (hc : c ∈ h.ao.accepted) (hlives : ¬ h.EndedForGood c.callIndex) :
    ∃ s, h.ao.sessions c.phoneId = some s ∧ s.callIndex = c.callIndex ∧ s.isOver = false := by
  have hin : ∃ s, h.ao.sessions c.phoneId = some s ∧ s.callIndex = c.callIndex := by
    by_contra hout
    push Not at hout
    exact hlives (h₀.gone hstopped c hc hout)
  obtain ⟨s, hs, hindex⟩ := hin
  refine ⟨s, hs, hindex, ?_⟩
  by_contra hover
  rw [Bool.not_eq_false] at hover
  exact hlives (hindex ▸ h₀.ended hs hover)

theorem Slots.released (h₀ : h.Slots) (corrId : ℕ) (p i : ℤ)
    (hok : .rsp corrId (.ok .empty) ∈ (h.ao.dispatchMessage corrId (.endEcall p i)).published.drop
      h.ao.published.length) :
    (h.ao.dispatchMessage corrId (.endEcall p i)).SlotEmpty p := by
  cases hs : (h.ao.sessions p).filter (·.callIndex = i) with
  | none =>
    simp [dispatchMessage, handleEndEcall, hs, sendError, pub] at hok
  | some s =>
    exact slotEmpty_handleEndEcall hs (h₀.standing (Option.filter_eq_some_iff.mp hs).1)

theorem Slots.oneCall_iff (h₀ : h.Slots) : h.OneCall ↔ h.Live := by
  constructor
  · intro hone p s hs hlive hended
    have hstopped : h.ao.stopped = false := by
      by_contra hstopped
      rw [Bool.not_eq_false] at hstopped
      rw [h₀.silent hstopped p] at hs
      cases hs
    have hbusy : h.ao.AnswersInUse p :=
      answersInUse_iff.mpr ((isFree_eq_false h.ao p).mpr ⟨s, hs, hlive⟩)
    obtain ⟨c, hc, rfl, hlives⟩ := (hone.inUse hstopped p).mp hbusy
    obtain ⟨s', hs', hindex, -⟩ := h₀.found hstopped hc hlives
    obtain rfl : s = s' := Option.some.inj (hs.symm.trans hs')
    exact hlives (hindex ▸ hended)
  · intro hlive
    refine ⟨h₀.increasing, ?_, h₀.released⟩
    intro hstopped p
    rw [answersInUse_iff, isFree_eq_false]
    constructor
    · rintro ⟨s, hs, hover⟩
      obtain ⟨c, hc, hphone, hindex⟩ := h₀.owned hs
      exact ⟨c, hc, hphone, hindex ▸ hlive p s hs hover⟩
    · rintro ⟨c, hc, rfl, hlives⟩
      obtain ⟨s, hs, -, hover⟩ := h₀.found hstopped hc hlives
      exact ⟨s, hs, hover⟩

end Reading

section Turns

theorem told_same (hviews : m'.views = h.ao.views) :
    (h.handled e origin rest m').told = h.told := by
  simp [EcallHistory.handled, hviews]

theorem told_turned (ht : Turned e p s r (h.taken rest) m') :
    (h.handled e origin rest m').told =
      h.told ++ (states r.2).map (fun st => (s.callIndex, st, m'.redials e)) := by
  have hviews : m'.views = h.ao.views ++ (states r.2).map (s.callIndex, ·) := ht.views
  simp only [EcallHistory.handled, hviews, List.drop_left, List.map_map]
  rfl

theorem endedForGood_turned (ht : Turned e p s r (h.taken rest) m') {i : ℕ} :
    (h.handled e origin rest m').EndedForGood i ↔
      h.EndedForGood i ∨ i = s.callIndex ∧ .ended ∈ states r.2 ∧ m'.redials e = false := by
  rw [EndedForGood, told_turned ht, List.mem_append, List.mem_map]
  refine or_congr Iff.rfl ⟨?_, ?_⟩
  · rintro ⟨st, hst, heq⟩
    simp only [Prod.mk.injEq] at heq
    obtain ⟨rfl, rfl, hredials⟩ := heq
    exact ⟨rfl, hst, hredials⟩
  · rintro ⟨rfl, hst, hredials⟩
    exact ⟨.ended, hst, by rw [hredials]⟩

theorem slot_of_lives (ht : Turned e p s r (h.taken rest) m') (hlives : EcallSession.Lives r) :
    m'.sessions p = some r.1 := by
  refine ht.slot.resolve_right ?_
  rintro ⟨-, hover⟩
  rw [hlives.1] at hover
  cases hover

/-- A turn that leaves the call alive does not end it for good. -/
theorem endedForGood_of_lives (ht : Turned e p s r (h.taken rest) m')
    (hlives : EcallSession.Lives r) {i : ℕ} :
    (h.handled e origin rest m').EndedForGood i ↔ h.EndedForGood i := by
  rw [endedForGood_turned ht]
  refine or_iff_left ?_
  rintro ⟨-, hended, hredials⟩
  simp [redials, ht.phoneId, slot_of_lives ht hlives, hlives.2 hended] at hredials

theorem endedForGood_of_comesToEnd (ht : Turned e p s r (h.taken rest) m')
    (hends : EcallSession.ComesToEnd r) :
    (h.handled e origin rest m').EndedForGood s.callIndex := by
  refine (endedForGood_turned ht).mpr (.inr ⟨rfl, hends.2, ?_⟩)
  rcases ht.slot with hslot | ⟨hslot, -⟩
  · simp [redials, ht.phoneId, hslot, hends.1]
  · simp [redials, ht.phoneId, hslot]

/-- The call that has had its turn has ended for good when it is over. -/
theorem ended_of_turned (h₀ : h.Slots) (ht : Turned e p s r (h.taken rest) m')
    (hout : EcallSession.Outcome s r) (hover : r.1.isOver = true) :
    (h.handled e origin rest m').EndedForGood s.callIndex := by
  rcases hout with hlives | hends | ⟨hst, -, -⟩
  · rw [hlives.1] at hover
    cases hover
  · exact endedForGood_of_comesToEnd ht hends
  · have hfound : h.ao.sessions p = some s := ht.found
    exact (endedForGood_turned ht).mpr (.inl (h₀.ended hfound (by simp [EcallSession.isOver, hst])))

theorem Slots.outcome (h₀ : h.Slots) (ht : Turned e p s r (h.taken rest) m') :
    EcallSession.Outcome s r := by
  by_cases he : e = .sessionStart p
  · exact .inl (ht.start he).2
  · exact (ht.fate he).outcome (h₀.standing ht.found)

theorem callIndex_turned (ht : Turned e p s r (h.taken rest) m') :
    r.1.callIndex = s.callIndex := by
  by_cases he : e = .sessionStart p
  · exact (ht.start he).1
  · exact (ht.fate he).callIndex

theorem session_turned (ht : Turned e p s r (h.taken rest) m') {q : ℤ} {s' : EcallSession}
    (hs' : m'.sessions q = some s') :
    q = p ∧ s' = r.1 ∨ q ≠ p ∧ h.ao.sessions q = some s' := by
  by_cases hqp : q = p
  · subst hqp
    rcases ht.slot with hslot | ⟨hslot, -⟩
    · exact .inl ⟨rfl, Option.some.inj (hs'.symm.trans hslot)⟩
    · rw [hslot] at hs'
      cases hs'
  · exact .inr ⟨hqp, (ht.others q hqp).symm.trans hs'⟩

theorem Slots.turned (h₀ : h.Slots) (ht : Turned e p s r (h.taken rest) m')
    (htagged : (h.handled e origin rest m').tagged.map Prod.fst = m'.fifo)
    (haccepted : m'.accepted = h.ao.accepted) (hseq : m'.callIndexSeq = h.ao.callIndexSeq) :
    (h.handled e origin rest m').Slots := by
  have hout := h₀.outcome ht
  have hindex := callIndex_turned ht
  have hfound : h.ao.sessions p = some s := ht.found
  have hstopped : m'.stopped = h.ao.stopped := ht.stopped
  have hmono : ∀ {i}, h.EndedForGood i → (h.handled e origin rest m').EndedForGood i :=
    fun hi => (endedForGood_turned ht).mpr (.inl hi)
  constructor
  · exact htagged
  · exact (congrArg (List.map (·.callIndex)) haccepted) ▸ h₀.increasing
  · intro c hc
    exact (h₀.below c (haccepted ▸ hc)).trans_eq hseq.symm
  · rw [told_turned ht]
    intro x hx
    refine LT.lt.trans_eq ?_ hseq.symm
    rcases List.mem_append.mp hx with hx | hx
    · exact h₀.toldBelow x hx
    · obtain ⟨_, -, rfl⟩ := List.mem_map.mp hx
      obtain ⟨c, hc, -, hci⟩ := h₀.owned hfound
      exact hci ▸ h₀.below c hc
  · intro q s' hs'
    change ∃ c ∈ m'.accepted, _
    rw [haccepted]
    rcases session_turned ht hs' with ⟨rfl, rfl⟩ | ⟨-, hs⟩
    · rw [hindex]
      exact h₀.owned hfound
    · exact h₀.owned hs
  · intro q s' hs'
    rcases session_turned ht hs' with ⟨-, rfl⟩ | ⟨-, hs⟩
    · exact hout.standing
    · exact h₀.standing hs
  · intro q s' hs' hover
    rcases session_turned ht hs' with ⟨-, rfl⟩ | ⟨-, hs⟩
    · rw [hindex]
      exact ended_of_turned h₀ ht hout hover
    · exact hmono (h₀.ended hs hover)
  · intro hnot c hc hleft
    have hc : c ∈ h.ao.accepted := haccepted ▸ hc
    by_cases hin : ∃ s₀, h.ao.sessions c.phoneId = some s₀ ∧ s₀.callIndex = c.callIndex
    · obtain ⟨s₀, hs₀, hi⟩ := hin
      -- the call leaves its slot now: it is the one that has had the turn
      by_cases hqp : c.phoneId = p
      · rw [hqp] at hs₀ hleft
        obtain rfl : s = s₀ := Option.some.inj (hfound.symm.trans hs₀)
        rcases ht.slot with hslot | ⟨-, hover⟩
        · exact absurd (hindex.trans hi) (hleft r.1 hslot)
        · exact hi ▸ ended_of_turned h₀ ht hout hover
      · exact absurd hi (hleft s₀ ((ht.others _ hqp).trans hs₀))
    · push Not at hin
      exact hmono (h₀.gone (hstopped.symm.trans hnot) c hc hin)
  · intro hyes q
    rw [h₀.silent (hstopped.symm.trans hyes) p] at hfound
    cases hfound

/-- A turn ends the call it serves, or leaves it as it was, unless it starts a call that is over. -/
theorem live_turned (h₀ : h.Slots) (ht : Turned e p s r (h.taken rest) m') (hlive : h.Live) :
    (h.handled e origin rest m').Live ↔ (e = .sessionStart p → s.isOver = false) := by
  have hfound : h.ao.sessions p = some s := ht.found
  constructor
  · intro hlive' he
    by_contra hover
    rw [Bool.not_eq_false] at hover
    have hlives := (ht.start he).2
    have hended : (h.handled e origin rest m').EndedForGood s.callIndex :=
      (endedForGood_of_lives ht hlives).mpr (h₀.ended hfound hover)
    rw [← callIndex_turned ht] at hended
    exact hlive' p r.1 (slot_of_lives ht hlives) hlives.1 hended
  · intro hstart q s' hs' hover' hended
    rcases session_turned ht hs' with ⟨rfl, rfl⟩ | ⟨hqp, hs⟩
    · rw [callIndex_turned ht] at hended
      have hout : EcallSession.Lives r ∧ s.isOver = false := by
        by_cases he : e = .sessionStart q
        · exact ⟨(ht.start he).2, hstart he⟩
        · rcases (ht.fate he).outcome (h₀.standing hfound) with hlives | hends | ⟨-, hst, -⟩
          · refine ⟨hlives, ?_⟩
            by_contra hover
            rw [Bool.not_eq_false] at hover
            have hpsap : s.state = .psapCallback := by
              have hor : s.state = .psapCallback ∨ s.state = .terminal := by
                simpa [EcallSession.isOver] using hover
              exact hor.resolve_right (h₀.standing hfound)
            simp [EcallSession.isOver, ((ht.fate he).ended hpsap).1] at hover'
          · simp [EcallSession.isOver, hends.1] at hover'
          · simp [EcallSession.isOver, hst] at hover'
      exact hlive q s hfound hout.2 ((endedForGood_of_lives ht hout.1).mp hended)
    · rcases (endedForGood_turned ht).mp hended with hended | ⟨hi, -, -⟩
      · exact hlive q s' hs hover' hended
      · exact hqp (h₀.apart hs hfound hi)

end Turns

section Steps

variable {l : Label}

/-- Nothing of what the slots depend on has changed. -/
structure SameSlots (h h' : EcallHistory) : Prop where
  accepted : h'.ao.accepted = h.ao.accepted
  callIndexSeq : h'.ao.callIndexSeq = h.ao.callIndexSeq
  sessions : h'.ao.sessions = h.ao.sessions
  stopped : h'.ao.stopped = h.ao.stopped
  told : h'.told = h.told

theorem SameSlots.slots (hsame : SameSlots h h') (h₀ : h.Slots)
    (htagged : h'.tagged.map Prod.fst = h'.ao.fifo) : h'.Slots := by
  obtain ⟨haccepted, hseq, hsessions, hstopped, htold⟩ := hsame
  have hended : ∀ i, h'.EndedForGood i ↔ h.EndedForGood i := by
    intro i
    rw [EndedForGood, EndedForGood, htold]
  constructor
  · exact htagged
  · rw [haccepted]
    exact h₀.increasing
  · rw [haccepted, hseq]
    exact h₀.below
  · rw [htold, hseq]
    exact h₀.toldBelow
  · rw [haccepted, hsessions]
    exact h₀.owned
  · rw [hsessions]
    exact h₀.standing
  · simp only [hsessions, hended]
    exact h₀.ended
  · simp only [haccepted, hsessions, hstopped, hended]
    exact h₀.gone
  · simp only [hsessions, hstopped]
    exact h₀.silent

theorem SameSlots.live (hsame : SameSlots h h') : h'.Live ↔ h.Live := by
  simp only [Live, EndedForGood, hsame.sessions, hsame.told]

theorem tagged_handled :
    (h.handled e origin rest ((h.taken rest).handleEvent e)).tagged.map Prod.fst =
      ((h.taken rest).handleEvent e).fifo := by
  obtain ⟨new, hnew⟩ := fifo_handleEvent (h.taken rest) e
  simp only [EcallHistory.handled, drop_fifo hnew, List.map_append, List.map_map]
  rw [hnew]
  exact congrArg _ (List.map_id new)

theorem told_opened (ho : Opened p (h.taken rest) m') :
    (h.handled e origin rest m').told =
      h.told ++ [(h.ao.callIndexSeq, .dialing, m'.redials e)] := by
  have hviews : m'.views = h.ao.views ++ [(h.ao.callIndexSeq, .dialing)] := ho.views
  simp only [EcallHistory.handled, hviews, List.drop_left, List.map_cons, List.map_nil]

theorem endedForGood_opened (ho : Opened p (h.taken rest) m') {i : ℕ} :
    (h.handled e origin rest m').EndedForGood i ↔ h.EndedForGood i := by
  simp [EndedForGood, told_opened ho]

/-- The call that is opened is on the phone, with the next index. -/
theorem Slots.phoneId_opened (h₀ : h.Slots) {c : WireCall} (ho : Opened p (h.taken rest) m')
    (hc : Opens c (h.taken rest) m') : c.phoneId = p := by
  obtain ⟨s, hs, hindex⟩ := hc.found
  rcases session_opened ho hs with ⟨hp, -, -⟩ | ⟨-, hs⟩
  · exact hp
  · obtain ⟨c', hc', -, hi⟩ := h₀.owned hs
    have hlt := h₀.below c' hc'
    rw [hi, hindex] at hlt
    exact absurd hlt (lt_irrefl _)

theorem Slots.opened (h₀ : h.Slots) {c : WireCall} (hopen : h.ao.opensOn e = some p)
    (ho : Opened p (h.taken rest) m') (hc : Opens c (h.taken rest) m')
    (hstopped : m'.stopped = h.ao.stopped) (hnot : h.ao.stopped = false)
    (htagged : (h.handled e origin rest m').tagged.map Prod.fst = m'.fifo) :
    (h.handled e origin rest m').Slots := by
  have haccepted : m'.accepted = h.ao.accepted ++ [c] :=
    accepted_of_opens (m := h.taken rest) hc
  have hseq : m'.callIndexSeq = h.ao.callIndexSeq + 1 := ho.callIndexSeq
  have hindex : c.callIndex = h.ao.callIndexSeq := hc.callIndex
  have hphone := h₀.phoneId_opened ho hc
  have hfree : h.ao.isFree p = true := by
    unfold opensOn at hopen
    split at hopen
    · obtain ⟨hfree, hq⟩ := Option.ite_none_right_eq_some.mp hopen
      exact Option.some.inj hq ▸ hfree
    · cases hopen
  constructor
  · exact htagged
  · change (m'.accepted.map (·.callIndex)).Pairwise (· < ·)
    rw [haccepted, List.map_append]
    refine List.pairwise_append.mpr ⟨h₀.increasing, List.pairwise_singleton _ _, ?_⟩
    intro i hi j hj
    obtain ⟨c', hc', rfl⟩ := List.mem_map.mp hi
    obtain rfl := List.mem_singleton.mp hj
    exact (h₀.below c' hc').trans_eq hindex.symm
  · intro c' hc'
    change c'.callIndex < m'.callIndexSeq
    rw [hseq]
    rcases List.mem_append.mp (haccepted ▸ hc' : c' ∈ h.ao.accepted ++ [c]) with hc' | hc'
    · exact (h₀.below c' hc').trans (Nat.lt_succ_self _)
    · obtain rfl := List.mem_singleton.mp hc'
      exact hindex ▸ Nat.lt_succ_self _
  · rw [told_opened ho]
    intro x hx
    change x.1 < m'.callIndexSeq
    rw [hseq]
    rcases List.mem_append.mp hx with hx | hx
    · exact (h₀.toldBelow x hx).trans (Nat.lt_succ_self _)
    · obtain rfl := List.mem_singleton.mp hx
      exact Nat.lt_succ_self _
  · intro q s hs
    change ∃ c' ∈ m'.accepted, _
    rw [haccepted]
    rcases session_opened ho hs with ⟨rfl, hi, -⟩ | ⟨-, hs⟩
    · exact ⟨c, by simp, hphone, hindex.trans hi.symm⟩
    · obtain ⟨c', hc', hq, hi⟩ := h₀.owned hs
      exact ⟨c', List.mem_append_left _ hc', hq, hi⟩
  · intro q s hs
    rcases session_opened ho hs with ⟨-, -, hst⟩ | ⟨-, hs⟩
    · rw [hst]
      decide
    · exact h₀.standing hs
  · intro q s hs hover
    rcases session_opened ho hs with ⟨-, -, hst⟩ | ⟨-, hs⟩
    · simp [EcallSession.isOver, hst] at hover
    · exact (endedForGood_opened ho).mpr (h₀.ended hs hover)
  · intro _ c' hc' hleft
    rw [endedForGood_opened ho]
    rcases List.mem_append.mp (haccepted ▸ hc' : c' ∈ h.ao.accepted ++ [c]) with hc' | hc'
    · by_cases hin : ∃ s, h.ao.sessions c'.phoneId = some s ∧ s.callIndex = c'.callIndex
      · obtain ⟨s, hs, hi⟩ := hin
        -- the phone was free: the call that makes way for the new one is over
        by_cases hqp : c'.phoneId = p
        · rw [hqp] at hs
          rw [← hi]
          exact h₀.ended hs (by simpa [isFree, hs] using hfree)
        · exact absurd hi (hleft s ((ho.others hqp).trans hs))
      · push Not at hin
        exact h₀.gone hnot c' hc' hin
    · obtain rfl := List.mem_singleton.mp hc'
      obtain ⟨s, hs, hi⟩ := hc.found
      exact absurd (hi.trans hc.callIndex.symm) (hleft s hs)
  · intro hyes
    have hyes : m'.stopped = true := hyes
    rw [hstopped, hnot] at hyes
    cases hyes

theorem live_opened (h₀ : h.Slots) (ho : Opened p (h.taken rest) m') (hlive : h.Live) :
    (h.handled e origin rest m').Live := by
  intro q s hs hover
  rw [endedForGood_opened ho]
  rcases session_opened ho hs with ⟨-, hi, -⟩ | ⟨-, hs⟩
  · intro hended
    have hlt := h₀.toldBelow _ hended
    rw [hi] at hlt
    exact absurd hlt (lt_irrefl _)
  · exact hlive q s hs hover

/-- A posted start of a call that has its turn now does not find the call hung up. -/
def startsLive (h : EcallHistory) : Label → Bool
  | .handle =>
    match h.ao.fifo with
    | .sessionStart phoneId :: _ => (h.ao.sessions phoneId).all (!·.isOver)
    | _ => true
  | _ => true

theorem startsLive_handle {fifo : List Event} (hfifo : h.ao.fifo = e :: fifo) :
    h.startsLive .handle = true ↔
      ∀ q s, e = .sessionStart q → h.ao.sessions q = some s → s.isOver = false := by
  cases e with
  | sessionStart p =>
    simp only [startsLive, hfifo, Event.sessionStart.injEq, Option.all_eq_true,
      Bool.not_eq_true']
    constructor
    · rintro hall q s rfl hs
      exact hall s hs
    · intro hall s hs
      exact hall p s rfl hs
  | _ => simp [startsLive, hfifo]

/-- What a turn of the fifo does to the slots, when no call is opened. -/
theorem slots_handled (h₀ : h.Slots) (htagged : h.tagged = (e, origin) :: rest)
    (hopen : h.ao.opensOn e = none) (hm' : m' = (h.taken rest).handleEvent e) :
    (h.handled e origin rest m').Slots ∧
      (h.Live → ((h.handled e origin rest m').Live ↔ h.startsLive .handle = true)) := by
  subst hm'
  have hfifo : h.ao.fifo = e :: rest.map Prod.fst := by rw [← h₀.tagged, htagged, List.map_cons]
  have hopen : (h.taken rest).opensOn e = none := hopen
  have haccepted := accepted_of_tells (tells_handleEvent hopen)
  have hseq := callIndexSeq_handleEvent hopen
  have hkept : (h.handled e origin rest ((h.taken rest).handleEvent e)).tagged.map Prod.fst =
      ((h.taken rest).handleEvent e).fifo := tagged_handled
  have hturned : ∀ {p s r}, Turned e p s r (h.taken rest) ((h.taken rest).handleEvent e) →
      (h.handled e origin rest ((h.taken rest).handleEvent e)).Slots ∧
        (h.Live → ((h.handled e origin rest ((h.taken rest).handleEvent e)).Live ↔
          h.startsLive .handle = true)) := by
    intro p s r ht
    refine ⟨h₀.turned ht hkept haccepted hseq, ?_⟩
    intro hlive
    have hfound : h.ao.sessions p = some s := ht.found
    rw [live_turned h₀ ht hlive, startsLive_handle hfifo]
    constructor
    · rintro hover q s' rfl hs'
      obtain rfl : q = p := Option.some.inj ht.phoneId
      obtain rfl : s = s' := Option.some.inj (hfound.symm.trans hs')
      exact hover rfl
    · exact fun hall he => hall p s he hfound
  by_cases hstart : ∃ q s, e = .sessionStart q ∧ h.ao.sessions q = some s
  · obtain ⟨q, s, rfl, hs⟩ := hstart
    have hs : (h.taken rest).sessions q = some s := hs
    refine hturned (p := q) (s := s) (r := s.start) ?_
    have hrun : (h.taken rest).handleEvent (.sessionStart q) = (h.taken rest).drive q s.start := by
      simp only [handleEvent, runSession, hs]
    rw [hrun]
    exact turned_start hs
  · have hstarts : h.startsLive .handle = true := by
      refine (startsLive_handle hfifo).mpr ?_
      rintro q s rfl hs
      exact absurd ⟨q, s, rfl, hs⟩ hstart
    rcases effect_handleEvent hopen with hsame | ⟨p, s, r, ht⟩ | ⟨hstopped, hnone, hviews⟩
    · have hsame : SameSlots h (h.handled e origin rest ((h.taken rest).handleEvent e)) :=
        ⟨haccepted, hseq, hsame.sessions, hsame.stopped, told_same hsame.views⟩
      refine ⟨hsame.slots h₀ hkept, ?_⟩
      intro hlive
      rw [hsame.live, hstarts]
      exact ⟨fun _ => rfl, fun _ => hlive⟩
    · exact hturned ht
    · have hnone : ∀ {q s}, ((h.taken rest).handleEvent e).sessions q ≠ some s := by
        intro q s
        rw [hnone]
        exact Option.some_ne_none s ∘ Eq.symm
      have htold : (h.handled e origin rest ((h.taken rest).handleEvent e)).told = h.told :=
        told_same hviews
      refine ⟨⟨hkept, ?_, ?_, ?_, fun hs => absurd hs hnone, fun hs => absurd hs hnone,
        fun hs => absurd hs hnone, ?_, ?_⟩, ?_⟩
      · exact (congrArg (List.map (·.callIndex)) haccepted) ▸ h₀.increasing
      · exact fun c hc => (h₀.below c (haccepted ▸ hc)).trans_eq hseq.symm
      · rw [htold]
        exact fun x hx => (h₀.toldBelow x hx).trans_eq hseq.symm
      · intro hno
        exact absurd (hstopped.symm.trans hno) (by decide)
      · intro _ q
        exact Option.eq_none_iff_forall_ne_some.mpr (fun s => hnone)
      · intro _
        rw [hstarts]
        exact ⟨fun _ => rfl, fun _ q s hs => absurd hs hnone⟩

theorem slots_step {l : Label} (h₀ : h.Slots) (hstep : h.step l = some h') :
    h'.Slots ∧ (h.Live → (h'.Live ↔ h.startsLive l = true)) := by
  have hsame : SameSlots h h' → h'.tagged.map Prod.fst = h'.ao.fifo →
      h.startsLive l = true → h'.Slots ∧ (h.Live → (h'.Live ↔ h.startsLive l = true)) := by
    intro hsame htagged hok
    refine ⟨hsame.slots h₀ htagged, ?_⟩
    intro hlive
    rw [hsame.live, hok]
    exact ⟨fun _ => rfl, fun _ => hlive⟩
  have hpost : ∀ e : Event, h.startsLive l = true →
      some (h.posted none (h.ao.postFifo e)) = some h' →
      h'.Slots ∧ (h.Live → (h'.Live ↔ h.startsLive l = true)) := by
    intro e hok hstep
    cases hstep
    exact hsame ⟨rfl, rfl, rfl, rfl, rfl⟩ (tagged_posted h₀.tagged rfl) hok
  cases l with
  | handle =>
    simp only [step] at hstep
    split at hstep
    · cases hstep
    · rename_i e origin rest htagged
      obtain ⟨m', hm', rfl⟩ := Option.map_eq_some_iff.mp hstep
      have hnot : h.ao.stopped = false := by
        have hfifo : h.ao.fifo = e :: rest.map Prod.fst := by
          rw [← h₀.tagged, htagged, List.map_cons]
        simp only [EcallManagerAO.handle, hfifo, Option.ite_none_left_eq_some] at hm'
        simpa using hm'.1
      obtain rfl := handle_eq_some h₀.tagged htagged hm'
      cases hopen : h.ao.opensOn e with
      | none => exact slots_handled h₀ htagged hopen rfl
      | some p =>
        have hopen' : (h.taken rest).opensOn e = some p := hopen
        obtain ⟨c, hc⟩ := handleEvent_opens hopen'
        have ho := opened_handleEvent hopen'
        refine ⟨h₀.opened hopen ho hc (stopped_handleEvent_opens hopen') hnot tagged_handled, ?_⟩
        intro hlive
        have hfifo : h.ao.fifo = e :: rest.map Prod.fst := by
          rw [← h₀.tagged, htagged, List.map_cons]
        have hok : h.startsLive .handle = true := by
          refine (startsLive_handle hfifo).mpr ?_
          rintro q s rfl
          cases hopen
        rw [hok]
        exact ⟨fun _ => rfl, fun _ => live_opened h₀ ho hlive⟩
  | elapse uuid =>
    obtain ⟨m', hm', rfl⟩ := Option.map_eq_some_iff.mp hstep
    obtain ⟨key, -, rfl⟩ := Option.map_eq_some_iff.mp hm'
    exact hsame ⟨rfl, rfl, rfl, rfl, rfl⟩ (tagged_posted h₀.tagged rfl) rfl
  | _ => exact hpost _ rfl hstep

theorem ready_slots (isNgEcallDevice : Bool) : (ready isNgEcallDevice).Slots := by
  refine ⟨rfl, List.Pairwise.nil, ?_, ?_, ?_, ?_, ?_, ?_, fun _ _ => rfl⟩
  · exact fun c hc => absurd hc List.not_mem_nil
  · exact fun x hx => absurd hx List.not_mem_nil
  all_goals intros; contradiction

end Steps

/-- A phone has one call at a time in a run if and only if no posted start of a call has its turn
after the PSAP has hung the call up. -/
theorem oneCall_iff_startsLive (isNgEcallDevice : Bool) {l : List Label} {h : EcallHistory}
    (hrun : Trace.run step (ready isNgEcallDevice) l = some h) :
    Trace.Always step OneCall (ready isNgEcallDevice) l ↔
      Trace.AllSteps step (fun h l => h.startsLive l = true) (ready isNgEcallDevice) l := by
  refine Trace.always_iff_allSteps (J := Slots) (fun _ _ _ h₀ hstep => (slots_step h₀ hstep).1) ?_
    hrun (ready_slots isNgEcallDevice) ?_
  · intro h l h' h₀ hone hstep
    obtain ⟨h₀', hlive⟩ := slots_step h₀ hstep
    rw [h₀'.oneCall_iff]
    exact (hlive (h₀.oneCall_iff.mp hone)).symm
  · refine (ready_slots isNgEcallDevice).oneCall_iff.mpr ?_
    intro p s hs
    cases hs

theorem oneCall_endedRun :
    ∃ h, Trace.run step (ready false) endedRun = some h ∧
      Trace.Always step OneCall (ready false) endedRun ∧
      h.ao.accepted.map (·.callIndex) = [1, 2] := by
  have hok : Trace.AllSteps step (fun h l => h.startsLive l = true) (ready false) endedRun := by
    decide +kernel
  have hrun : (Trace.run step (ready false) endedRun).map
      (fun h => h.ao.accepted.map (·.callIndex)) = some [1, 2] := by
    decide +kernel
  obtain ⟨h, hh, haccepted⟩ := Option.map_eq_some_iff.mp hrun
  exact ⟨h, hh, (oneCall_iff_startsLive false hh).mpr hok, haccepted⟩

/-- The phone of a call that the PSAP has ended is in use again. -/
theorem not_oneCall_hungUpRun :
    ∃ h, Trace.run step (ready false) hungUpRun = some h ∧ h.ao.AnswersInUse 1 ∧
      (∀ c ∈ h.ao.accepted, h.EndedForGood c.callIndex) ∧ ¬ h.OneCall := by
  have hrun : (Trace.run step (ready false) hungUpRun).map
      (fun h => ((h.ao.isFree 1, h.ao.stopped), h.ao.accepted.map (·.callIndex))) =
      some ((false, false), [1]) := by
    decide +kernel
  have htold : (Trace.run step (ready false) hungUpRun).all
      (fun h => (1, .ended, false) ∈ h.told) = true := by
    decide +kernel
  obtain ⟨h, hh, heq⟩ := Option.map_eq_some_iff.mp hrun
  simp only [Prod.mk.injEq] at heq
  obtain ⟨⟨hfree, hstopped⟩, haccepted⟩ := heq
  simp only [hh, Option.all_some, decide_eq_true_eq] at htold
  have hbusy : h.ao.AnswersInUse 1 := answersInUse_iff.mpr hfree
  have hended : ∀ c ∈ h.ao.accepted, h.EndedForGood c.callIndex := by
    intro c hc
    have hi : c.callIndex ∈ [1] := haccepted ▸ List.mem_map_of_mem hc
    rw [List.mem_singleton.mp hi]
    exact htold
  refine ⟨h, hh, hbusy, hended, ?_⟩
  intro hone
  obtain ⟨c, hc, -, hlives⟩ := (hone.inUse hstopped 1).mp hbusy
  exact hlives (hended c hc)

end EcallHistory

end TelafSim.Ecall
