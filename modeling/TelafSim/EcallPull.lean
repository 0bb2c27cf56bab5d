import TelafSim.EcallRedial

/-!
# MSD pulls outside CallConversation

`msd_pull_request` marks the session before it looks at the state, and the mark is never cleared.
Two runs of a session are compared, one of which has additional pulls while the session is not in
CallConversation: they tell the same until the MSD is sent anew, by a start or by a redial that
connects, with the mark of an additional pull alone.
-/

namespace TelafSim.Ecall

def Callback.isPublished : Callback → Bool
  | .onTerminal => false
  | .startRedialTimer _ => false
  | _ => true

def published (cs : List Callback) : List Callback := cs.filter Callback.isPublished

namespace EcallSession

/-- What is told when the MSD is sent depends on the mark of a pull. -/
def tellsPull (s : EcallSession) : Bool :=
  !s.isNgEcall && (s.isMsdTransmitted || !s.isCustomNumberEcall)

/-- The call goes on to DecodeSendMSD, and not because of a pull. -/
def sendsAnew (s : EcallSession) : EntryPoint → Bool
  | .start => s.redialMode ≠ some .callOrig
  | .onRedialTimerExpiry => s.state = .redialing && s.redialConnects
  | _ => false

def readsPull (s : EcallSession) (e : EntryPoint) : Bool := s.tellsPull && s.sendsAnew e

end EcallSession

inductive Move
  | both (e : EntryPoint)
  | pull
  deriving DecidableEq

structure TwoRuns where
  plain : SessionLog
  pulled : SessionLog

namespace TwoRuns

def initial (s : EcallSession) : TwoRuns := ⟨⟨s, []⟩, ⟨s, []⟩⟩

def step (h : TwoRuns) : Move → Option TwoRuns
  | .both e => some ⟨h.plain.next e, h.pulled.next e⟩
  | .pull =>
    if h.pulled.session.state = .callConversation then none
    else some { h with pulled := h.pulled.next .msdPullRequest }

structure SameSoFar (h : TwoRuns) : Prop where
  state : h.plain.session.state = h.pulled.session.state
  published : published h.plain.calls = published h.pulled.calls

/-- The session is marked by an additional pull alone. -/
def onlyAdditional (h : TwoRuns) : Bool :=
  !h.plain.session.msdPull && h.pulled.session.msdPull

/-- The mark of an additional pull is not read. -/
def unread (h : TwoRuns) : Move → Bool
  | .both e => !(h.onlyAdditional && h.plain.session.readsPull e)
  | .pull => true

end TwoRuns

namespace EcallSession

/-- The sessions differ in the mark of a pull, and what it leaves, at most. -/
def Alike (s s' : EcallSession) : Prop :=
  ∃ b u, s' = { s with msdPull := b, updateInProgress := u } ∧ (s.msdPull = true → b = true)

structure Same (r r' : EcallSession × List Callback) : Prop where
  session : Alike r.1 r'.1
  calls : r'.2 = r.2

section Same

variable {s s' : EcallSession} {r r' : EcallSession × List Callback}

theorem Alike.refl (s : EcallSession) : Alike s s := ⟨s.msdPull, s.updateInProgress, rfl, id⟩

theorem Alike.state (h : Alike s s') : s.state = s'.state := by
  obtain ⟨b, u, rfl, -⟩ := h
  rfl

theorem Same.tell (h : Same r r') (cs : List Callback) : Same (tell cs r) (tell cs r') :=
  ⟨h.session, congrArg (cs ++ ·) h.calls⟩

theorem Alike.inState (h : Alike s s') (state : SessionState) :
    Alike { s with state := state } { s' with state := state } := by
  obtain ⟨b, u, rfl, hb⟩ := h
  exact ⟨b, u, rfl, hb⟩

theorem Alike.endUpdate (h : Alike s s') : Alike s.endUpdate s'.endUpdate := by
  obtain ⟨b, u, rfl, hb⟩ := h
  unfold EcallSession.endUpdate
  split <;> split
  · exact ⟨b, false, rfl, hb⟩
  · exact ⟨b, u, rfl, hb⟩
  · exact ⟨b, false, rfl, hb⟩
  · exact ⟨b, u, rfl, hb⟩

theorem same_conversation (h : Alike s s') :
    Same (s.transitionTo .callConversation enterCallConversation)
      (s'.transitionTo .callConversation enterCallConversation) :=
  ⟨h.inState .callConversation, rfl⟩

theorem same_psapCallback (h : Alike s s') :
    Same s.transitionToPsapCallback s'.transitionToPsapCallback := by
  refine ⟨h.inState .psapCallback, ?_⟩
  obtain ⟨b, u, rfl, -⟩ := h
  rfl

theorem same_decodeMsd (h : Alike s s') : Same (s.transitionTo .decodeMsd enterDecodeMsd)
    (s'.transitionTo .decodeMsd enterDecodeMsd) := by
  have hend := same_conversation (h.inState .decodeMsd).endUpdate
  have hstay := h.inState .decodeMsd
  obtain ⟨b, u, rfl, -⟩ := h
  unfold transitionTo enterDecodeMsd
  dsimp only
  split
  · split
    · exact hend.tell _
    · exact ⟨hstay, rfl⟩
  · exact hend.tell _

theorem same_crc (h : Alike s s') : Same (s.transitionTo .crcCheckonMsd enterCrcCheckOnMsd)
    (s'.transitionTo .crcCheckonMsd enterCrcCheckOnMsd) := by
  obtain ⟨hsession, hcalls⟩ := same_decodeMsd (h.inState .crcCheckonMsd)
  have hstay := h.inState .crcCheckonMsd
  obtain ⟨b, u, rfl, -⟩ := h
  unfold transitionTo enterCrcCheckOnMsd
  dsimp only
  split
  · exact ⟨hsession, congrArg (fun cs => _ ++ cs ++ _) hcalls⟩
  · exact ⟨hstay, rfl⟩

theorem same_send (h : Alike s s') (hread : s'.msdPull = s.msdPull ∨ s.tellsPull = false) :
    Same (s.transitionTo .decodeSendMsd enterDecodeSendMsd)
      (s'.transitionTo .decodeSendMsd enterDecodeSendMsd) := by
  have hcrc := same_crc (h.inState .decodeSendMsd)
  have hmsd := same_decodeMsd (h.inState .decodeSendMsd)
  have hconv := same_conversation (h.inState .decodeSendMsd)
  have hstay := h.inState .decodeSendMsd
  obtain ⟨b, u, rfl, -⟩ := h
  unfold transitionTo enterDecodeSendMsd
  dsimp only at hread ⊢
  split
  · rename_i hng
    split
    · rename_i hm
      obtain rfl : b = s.msdPull := by
        rcases hread with hb | hquiet
        · exact hb
        · rw [tellsPull, hng, hm] at hquiet
          cases hquiet
      split
      · exact hcrc.tell _
      · apply Same.tell
        split
        · apply Same.tell
          split
          · exact hcrc.tell _
          · exact ⟨hstay, rfl⟩
        · exact hcrc
    · have hsame : (!s.isCustomNumberEcall && b) = (!s.isCustomNumberEcall && s.msdPull) := by
        rcases hread with hb | hquiet
        · rw [hb]
        · rw [tellsPull, hng, Bool.true_and, Bool.or_eq_false_iff] at hquiet
          rw [hquiet.2]
          rfl
      rw [hsame]
      exact hconv.tell _
  · split
    · exact hmsd.tell _
    · exact hconv

theorem alike_redialing (h : Alike s s') (r : Redial) :
    Same (s.enterRedialing r) (s'.enterRedialing r) := by
  obtain ⟨b, u, rfl, hb⟩ := h
  exact ⟨⟨b, u, rfl, hb⟩, rfl⟩

theorem same_failure (h : Alike s s') (timer : Timer) :
    Same (s.transmissionFailure timer) (s'.transmissionFailure timer) :=
  (same_conversation h).tell _

theorem same_start (h : Alike s s')
    (hread : s'.msdPull = s.msdPull ∨ s.readsPull .start = false) : Same s.start s'.start := by
  have hconnect := h.inState .callConnect
  have hredialing := alike_redialing hconnect
  have hsend : s.redialMode ≠ some .callOrig →
      Same (({ s with state := .callConnect } : EcallSession).transitionTo .decodeSendMsd
          enterDecodeSendMsd)
        (({ s' with state := .callConnect } : EcallSession).transitionTo .decodeSendMsd
          enterDecodeSendMsd) := by
    intro hmode
    refine same_send hconnect (hread.imp_right ?_)
    intro hquiet
    rw [readsPull, sendsAnew, decide_eq_true hmode, Bool.and_true] at hquiet
    exact hquiet
  obtain ⟨b, u, rfl, -⟩ := h
  unfold start transitionTo enterCallConnect
  dsimp only
  apply Same.tell
  split
  · exact (hredialing _).tell _
  · rename_i hnone
    exact (hsend (redial_filter_eq_none.mp hnone)).tell _

theorem same_hangup (h : Alike s s') : Same s.hangup s'.hangup := by
  have hpsap := same_psapCallback h
  have hstay := h
  obtain ⟨b, u, rfl, -⟩ := h
  unfold hangup
  dsimp only
  split
  all_goals first
    | exact hpsap.tell _
    | exact ⟨hstay, rfl⟩

theorem same_pull (h : Alike s s') : Same s.msdPullRequest s'.msdPullRequest := by
  obtain ⟨b, u, rfl, -⟩ := h
  have hmarked : ∀ u u' : Bool, Alike { s with msdPull := true, updateInProgress := u }
      { s with msdPull := true, updateInProgress := u' } :=
    fun u u' => ⟨true, u', rfl, fun _ => rfl⟩
  unfold msdPullRequest
  dsimp only
  split
  · split
    · exact ⟨hmarked false false, rfl⟩
    · exact same_send (hmarked true true) (.inl rfl)
  · exact ⟨hmarked s.updateInProgress u, rfl⟩

theorem same_deregistration (h : Alike s s') :
    Same s.networkDeregistrationRequest s'.networkDeregistrationRequest := by
  have hstay := h
  obtain ⟨b, u, rfl, -⟩ := h
  unfold networkDeregistrationRequest
  dsimp only
  split
  · exact ⟨hstay, rfl⟩
  · exact ⟨hstay, rfl⟩

theorem Same.ite {c : Prop} [Decidable c] {r₁ r₁' r₂ r₂' : EcallSession × List Callback}
    (h₁ : Same r₁ r₁') (h₂ : Same r₂ r₂') : Same (if c then r₁ else r₂) (if c then r₁' else r₂') := by
  split
  · exact h₁
  · exact h₂

theorem same_hlapExpiry (h : Alike s s') (timer : Timer) (mode : OperatingMode) :
    Same (s.onHlapTimerExpiry timer mode) (s'.onHlapTimerExpiry timer mode) := by
  have hfailure := same_failure h
  have hredialing := alike_redialing h
  have hpsap := same_psapCallback h
  have hterminal := h.inState .terminal
  have hstay := h
  obtain ⟨b, u, rfl, -⟩ := h
  unfold onHlapTimerExpiry
  dsimp only
  apply Same.ite
  · exact hfailure .t5
  apply Same.ite
  · exact hfailure .t7
  apply Same.ite
  · exact hfailure .t6
  apply Same.ite
  · apply Same.tell
    split
    · exact hredialing _
    · exact hpsap
  apply Same.ite
  · apply Same.ite
    · apply Same.tell
      apply Same.ite
      · exact ⟨hterminal, rfl⟩
      · exact ⟨hstay, rfl⟩
    · exact ⟨hstay, rfl⟩
  apply Same.ite
  · exact ⟨hstay, rfl⟩
  · exact ⟨hstay, rfl⟩

theorem same_redialExpiry (h : Alike s s')
    (hread : s'.msdPull = s.msdPull ∨ s.readsPull .onRedialTimerExpiry = false) :
    Same s.onRedialTimerExpiry s'.onRedialTimerExpiry := by
  have hsend : s.state = .redialing → s.redialConnects = true →
      Same (s.transitionTo .decodeSendMsd enterDecodeSendMsd)
        (s'.transitionTo .decodeSendMsd enterDecodeSendMsd) := by
    intro hst hconnects
    refine same_send h (hread.imp_right ?_)
    intro hquiet
    rw [readsPull, sendsAnew, decide_eq_true hst, hconnects, Bool.and_true, Bool.and_true]
      at hquiet
    exact hquiet
  have hpsap := same_psapCallback h
  have hstay := h
  obtain ⟨b, u, rfl, hb⟩ := h
  have hconnects' : ({ s with msdPull := b, updateInProgress := u } : EcallSession).redialConnects =
      s.redialConnects := rfl
  have hgaps : ({ s with msdPull := b, updateInProgress := u } : EcallSession).redialTimeGaps =
      s.redialTimeGaps := rfl
  unfold onRedialTimerExpiry
  rw [hconnects', hgaps]
  split
  · exact ⟨hstay, rfl⟩
  · rename_i hst
    apply Same.tell
    by_cases hconnects : s.redialConnects = true
    · rw [if_pos hconnects, if_pos hconnects]
      exact (hsend (not_not.mp hst) hconnects).tell _
    · rw [if_neg hconnects, if_neg hconnects]
      apply Same.tell
      dsimp only
      split
      · exact ⟨⟨b, u, rfl, hb⟩, rfl⟩
      · exact hpsap.tell _

/-- A call comes to the same with or without the mark, unless it reads it. -/
theorem same_call (h : Alike s s') {e : EntryPoint}
    (hread : s'.msdPull = s.msdPull ∨ s.readsPull e = false) : Same (e.call s) (e.call s') := by
  cases e with
  | start => exact same_start h hread
  | hangup => exact same_hangup h
  | msdPullRequest => exact same_pull h
  | networkDeregistrationRequest => exact same_deregistration h
  | onHlapTimerExpiry timer mode => exact same_hlapExpiry h timer mode
  | onRedialTimerExpiry => exact same_redialExpiry h hread

end Same

section Published

variable {s s' : EcallSession} {e : EntryPoint}

theorem published_append (cs cs' : List Callback) :
    published (cs ++ cs') = published cs ++ published cs' :=
  List.filter_append ..

theorem states_published (cs : List Callback) : states (published cs) = states cs := by
  unfold states published
  rw [List.filterMap_filter]
  refine congrArg (fun f => List.filterMap f cs) ?_
  funext c
  cases c <;> rfl

theorem states_decodeMsd : states (s.transitionTo .decodeMsd enterDecodeMsd).2 = [] := by
  unfold transitionTo enterDecodeMsd
  split_ifs
  · exact states_regulatory rfl
  · rw [tell, states_append, states_append, states_append, states_regulatory rfl,
      states_regulatory rfl]
    rfl
  · rfl

theorem states_crc : states (s.transitionTo .crcCheckonMsd enterCrcCheckOnMsd).2 = [] := by
  have h := states_decodeMsd (s := { s with state := .crcCheckonMsd })
  unfold transitionTo enterCrcCheckOnMsd
  split_ifs
  · rfl
  · rw [states_append, states_append, states_regulatory rfl, h, states_regulatory rfl]
    rfl

/-- With the mark of a pull the MSD of a CS eCall is sent without CALL_ACTIVE, or with a status
more. -/
theorem published_send_ne (htells : s.tellsPull = true) (hplain : s.msdPull = false) (u : Bool) :
    published (s.transitionTo .decodeSendMsd enterDecodeSendMsd).2 ≠
      published (({ s with msdPull := true, updateInProgress := u } : EcallSession).transitionTo
        .decodeSendMsd enterDecodeSendMsd).2 := by
  rw [tellsPull, Bool.and_eq_true, Bool.or_eq_true] at htells
  obtain ⟨hng, hread⟩ := htells
  intro heq
  by_cases hm : s.isMsdTransmitted = true
  · have hstates := congrArg states heq
    rw [states_published, states_published] at hstates
    have hpulled : states (({ s with msdPull := true, updateInProgress := u } :
        EcallSession).transitionTo .decodeSendMsd enterDecodeSendMsd).2 = [] := by
      unfold transitionTo enterDecodeSendMsd
      dsimp only
      rw [if_pos hng, if_pos hm, if_pos rfl, tell, states_append, states_append,
        states_regulatory rfl, states_crc]
      rfl
    have hactive : states (s.transitionTo .decodeSendMsd enterDecodeSendMsd).2 ≠ [] := by
      unfold transitionTo enterDecodeSendMsd
      dsimp only
      rw [if_pos hng, if_pos hm, hplain, if_neg Bool.false_ne_true, tell, states_append]
      exact List.cons_ne_nil _ _
    exact hactive (hstates.trans hpulled)
  · have hc : (!s.isCustomNumberEcall) = true := hread.resolve_left hm
    have hlength := congrArg List.length heq
    unfold transitionTo enterDecodeSendMsd at hlength
    dsimp only at hlength
    rw [if_pos hng, if_pos hng, if_neg hm, if_neg hm, hplain, hc] at hlength
    cases hlength

theorem published_call_ne (h : Alike s s') (hplain : s.msdPull = false)
    (hpulled : s'.msdPull = true) (hreads : s.readsPull e = true) :
    published (e.call s).2 ≠ published (e.call s').2 := by
  rw [readsPull, Bool.and_eq_true] at hreads
  obtain ⟨htells, hsends⟩ := hreads
  obtain ⟨b, u, rfl, -⟩ := h
  obtain rfl : b = true := hpulled
  have hcancel : ∀ {cs cs₁ cs₂ : List Callback}, published cs₁ ≠ published cs₂ →
      published (cs ++ cs₁) ≠ published (cs ++ cs₂) := by
    intro cs cs₁ cs₂ hne heq
    rw [published_append, published_append] at heq
    exact hne (List.append_cancel_left heq)
  cases e with
  | start =>
    have hnone : s.redial.filter (·.mode = .callOrig) = none :=
      redial_filter_eq_none.mpr (of_decide_eq_true hsends)
    have hne := published_send_ne (s := { s with state := .callConnect }) htells hplain u
    simp only [EntryPoint.call, start, transitionTo, enterCallConnect]
    rw [hnone]
    exact hcancel (hcancel hne)
  | onRedialTimerExpiry =>
    rw [sendsAnew, Bool.and_eq_true, decide_eq_true_eq] at hsends
    obtain ⟨hst, hconnects⟩ := hsends
    have hconnects' : ({ s with msdPull := true, updateInProgress := u } :
        EcallSession).redialConnects = true := hconnects
    have hne := published_send_ne htells hplain u
    simp only [EntryPoint.call, onRedialTimerExpiry]
    rw [if_neg (not_not.mpr hst), if_neg (not_not.mpr hst), if_pos hconnects, if_pos hconnects']
    exact hcancel (hcancel hne)
  | _ => cases hsends

end Published

end EcallSession

namespace TwoRuns

variable {h h' : TwoRuns} {m : Move}

structure Unnoticed (h : TwoRuns) : Prop where
  session : EcallSession.Alike h.plain.session h.pulled.session
  calls : h.pulled.calls = h.plain.calls

theorem Unnoticed.sameSoFar (hu : h.Unnoticed) : h.SameSoFar := by
  refine ⟨hu.session.state, ?_⟩
  rw [hu.calls]

theorem Unnoticed.pull (hu : h.Unnoticed) (hstep : h.step .pull = some h') : h'.Unnoticed := by
  obtain ⟨hne, hnext⟩ := Option.ite_none_left_eq_some.mp hstep
  obtain rfl := Option.some.inj hnext
  have hcall : EntryPoint.msdPullRequest.call h.pulled.session =
      ({ h.pulled.session with msdPull := true }, []) := by
    simp only [EntryPoint.call, EcallSession.msdPullRequest, hne, if_false]
  obtain ⟨b, u, hsession, -⟩ := hu.session
  refine ⟨⟨true, u, ?_, fun _ => rfl⟩, ?_⟩
  · simp only [SessionLog.next, hcall]
    rw [hsession]
  · simp only [SessionLog.next, hcall, List.append_nil]
    exact hu.calls

theorem Unnoticed.both (hu : h.Unnoticed) {e : EntryPoint} (hok : h.unread (.both e) = true)
    (hstep : h.step (.both e) = some h') : h'.Unnoticed := by
  have hread : h.pulled.session.msdPull = h.plain.session.msdPull ∨
      h.plain.session.readsPull e = false := by
    rw [unread, Bool.not_eq_true', Bool.and_eq_false_iff] at hok
    rcases hok with hmark | hquiet
    · left
      obtain ⟨b, u, hsession, hb⟩ := hu.session
      rw [onlyAdditional, hsession] at hmark
      rw [hsession]
      dsimp only at hmark ⊢
      cases hp : h.plain.session.msdPull with
      | false => simpa [hp] using hmark
      | true => exact hb hp
    · exact .inr hquiet
  obtain ⟨hsession, hcalls⟩ := EcallSession.same_call hu.session hread
  obtain rfl := Option.some.inj hstep
  refine ⟨hsession, ?_⟩
  simp only [SessionLog.next, hcalls, hu.calls]

theorem not_sameSoFar_of_read (hu : h.Unnoticed) {e : EntryPoint}
    (hread : ¬ h.unread (.both e) = true) (hstep : h.step (.both e) = some h') :
    ¬ h'.SameSoFar := by
  rw [unread, Bool.not_eq_true', Bool.not_eq_false, Bool.and_eq_true, onlyAdditional,
    Bool.and_eq_true, Bool.not_eq_true'] at hread
  obtain ⟨⟨hplain, hpulled⟩, hreads⟩ := hread
  have hne := EcallSession.published_call_ne hu.session hplain hpulled hreads
  obtain rfl := Option.some.inj hstep
  intro hsame
  have hpublished := hsame.published
  simp only [SessionLog.next, EcallSession.published_append, hu.calls] at hpublished
  exact hne (List.append_cancel_left hpublished)

/-- Two runs of a session, one with additional pulls made while it is not in CallConversation, have
published the same and are in the same state at every moment if and only if the mark of an
additional pull is never read. -/
theorem pulls_unnoticed_iff (s : EcallSession) {moves : List Move}
    (hrun : Trace.run step (initial s) moves = some h) :
    Trace.Always step SameSoFar (initial s) moves ↔
      Trace.AllSteps step (fun h m => h.unread m = true) (initial s) moves := by
  have hinitial : (initial s).Unnoticed := ⟨EcallSession.Alike.refl s, rfl⟩
  apply Trace.always_iff_allSteps_of_fails (J := Unnoticed) (fun h hu => hu.sameSoFar) ?_ ?_ hrun
    hinitial
  · intro h m h' hu hok hstep
    cases m with
    | both e => exact hu.both hok hstep
    | pull => exact hu.pull hstep
  · intro h m h' hu hnot hstep
    cases m with
    | both e => exact not_sameSoFar_of_read hu hnot hstep
    | pull => exact absurd rfl hnot

def pullInRedialing : List Move :=
  [.both .start, .pull, .both .onRedialTimerExpiry]

/-- A call that is not redialled, with a pull while T5 is awaited. -/
def pullInDecodeSendMsd : List Move :=
  [.both .start, .pull, .both (.onHlapTimerExpiry .t5 .normal), .both .hangup]

def waitsForT5 : EcallSession := { redialledCall with redial := none, failedTimers := {.t5} }

theorem pulls_unnoticed_t5 : ∃ h,
    Trace.run step (initial waitsForT5) pullInDecodeSendMsd = some h ∧
    Trace.Always step SameSoFar (initial waitsForT5) pullInDecodeSendMsd := by
  have hsome : (Trace.run step (initial waitsForT5) pullInDecodeSendMsd).isSome = true := by
    decide +kernel
  obtain ⟨h, hrun⟩ := Option.isSome_iff_exists.mp hsome
  exact ⟨h, hrun, (pulls_unnoticed_iff _ hrun).mpr (by decide +kernel)⟩

def firstConnects : EcallSession :=
  { redialledCall with redial := some ⟨.callOrig, some 1, [5000], by decide⟩ }

/-- CALL_ACTIVE is published once instead of twice. -/
theorem pull_in_redialing_noticed : ∃ h,
    Trace.run step (initial firstConnects) pullInRedialing = some h ∧
    (published h.plain.calls).count (.changeCallState .callActive "") = 2 ∧
    (published h.pulled.calls).count (.changeCallState .callActive "") = 1 ∧
    ¬ h.SameSoFar := by
  have hrun : (Trace.run step (initial firstConnects) pullInRedialing).any (fun h =>
      (published h.plain.calls).count (.changeCallState .callActive "") = 2 ∧
      (published h.pulled.calls).count (.changeCallState .callActive "") = 1) = true := by
    decide +kernel
  simp only [Option.any_eq_true, decide_eq_true_eq] at hrun
  obtain ⟨h, hh, hplain, hpulled⟩ := hrun
  refine ⟨h, hh, hplain, hpulled, ?_⟩
  intro hsame
  rw [hsame.published, hpulled] at hplain
  cases hplain

end TwoRuns

end TelafSim.Ecall
