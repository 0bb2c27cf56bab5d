import TelafSim.EcallOrigins
import TelafSim.EcallWaiting
import TelafSim.Trace

/-!
# The redial loop of an eCall

A call that enters Redialing makes an attempt whenever its redial timer expires. The loop ends with
the attempt that is to succeed, with the last gap of its table, or when it is hung up. What a
session calls back is kept from the moment the loop is entered.
-/

namespace TelafSim.Ecall

inductive EntryPoint
  | start
  | hangup
  | msdPullRequest
  | networkDeregistrationRequest
  | onHlapTimerExpiry (timer : Timer) (mode : OperatingMode)
  | onRedialTimerExpiry
  deriving DecidableEq

namespace EntryPoint

def call (e : EntryPoint) (s : EcallSession) : EcallSession × List Callback :=
  match e with
  | .start => s.start
  | .hangup => s.hangup
  | .msdPullRequest => s.msdPullRequest
  | .networkDeregistrationRequest => s.networkDeregistrationRequest
  | .onHlapTimerExpiry timer mode => s.onHlapTimerExpiry timer mode
  | .onRedialTimerExpiry => s.onRedialTimerExpiry

end EntryPoint

structure SessionLog where
  session : EcallSession
  calls : List Callback

namespace SessionLog

def next (h : SessionLog) (e : EntryPoint) : SessionLog :=
  ⟨(e.call h.session).1, h.calls ++ (e.call h.session).2⟩

def step (h : SessionLog) (e : EntryPoint) : Option SessionLog := some (h.next e)

end SessionLog

inductive LoopEvent
  | wait (delayMs : ℤ)
  | dial
  | redial (willRedial : Bool) (reason : RedialReason)
  deriving DecidableEq

def LoopEvent.isLast : LoopEvent → Bool
  | .redial false _ => true
  | _ => false

def Callback.loopEvent : Callback → Option LoopEvent
  | .startRedialTimer delayMs => some (.wait delayMs)
  | .changeCallState .callDialing _ => some .dial
  | .onRedial willRedial reason => some (.redial willRedial reason)
  | _ => none

def loopEvents (cs : List Callback) : List LoopEvent := cs.filterMap Callback.loopEvent

namespace Redial

def size (r : Redial) : ℕ := r.timeGaps.length

/-- The reason an attempt that fails is announced to be repeated with. -/
def failure (r : Redial) : RedialReason :=
  if r.mode = .callOrig then .callOrigFailure else .callDrop

def outcome (r : Redial) : ℕ × RedialReason :=
  match r.succeedAt with
  | some a =>
    if 1 ≤ a ∧ a ≤ r.size then (a.toNat, .callConnected) else (r.size, .maxRedialAttempted)
  | none => (r.size, .maxRedialAttempted)

/-- The events of the first `k` attempts when all of them fail and none is the last. -/
def failed (r : Redial) (k : ℕ) : List LoopEvent :=
  (r.timeGaps.take k).flatMap (fun gap => [.wait gap, .dial, .redial true r.failure])

end Redial

/-- The loop goes on after `k` attempts: the timer runs for the next gap of the table. -/
structure Looping (r : Redial) (k : ℕ) (h : SessionLog) : Prop where
  state : h.session.state = .redialing
  redial : h.session.redial = some r
  /-- `_redial_attempt` is the number of the next attempt, and its gap is in the table. -/
  attempt : h.session.redialAttempt = k + 1
  more : k < r.outcome.1
  events : ∃ gap, r.timeGaps[k]? = some gap ∧ loopEvents h.calls = r.failed k ++ [.wait gap]

/-- The loop has ended by itself with the attempt `k`. -/
structure LoopOver (r : Redial) (k : ℕ) (h : SessionLog) : Prop where
  state : h.session.state ≠ .redialing
  last : k = r.outcome.1
  bounded : 1 ≤ k ∧ k ≤ r.size
  events : ∃ gap, r.timeGaps[k - 1]? = some gap ∧ loopEvents h.calls =
    r.failed (k - 1) ++ [.wait gap, .dial, .redial false r.outcome.2]
  dials : (loopEvents h.calls).count .dial = k
  announced : (loopEvents h.calls).count (.redial true r.failure) = k - 1
  ended : (loopEvents h.calls).countP LoopEvent.isLast = 1

section Events

@[simp] theorem loopEvents_nil : loopEvents [] = [] := rfl

@[simp] theorem loopEvents_append (cs cs' : List Callback) :
    loopEvents (cs ++ cs') = loopEvents cs ++ loopEvents cs' :=
  List.filterMap_append

theorem loopEvents_cons (c : Callback) (cs : List Callback) :
    loopEvents (c :: cs) = c.loopEvent.toList ++ loopEvents cs := by
  unfold loopEvents
  cases hc : c.loopEvent <;> simp [hc]

namespace EcallSession

variable {s : EcallSession}

theorem loopEvents_regulatory {cs : List Callback} (h : loopEvents cs = []) :
    loopEvents (s.regulatory cs) = [] := by
  unfold regulatory
  split
  · rfl
  · exact h

theorem loopEvents_tell (cs : List Callback) (r : EcallSession × List Callback) :
    loopEvents (tell cs r).2 = loopEvents cs ++ loopEvents r.2 := by
  rw [tell, loopEvents_append]

theorem loopEvents_psapCallback : loopEvents s.transitionToPsapCallback.2 = [] :=
  loopEvents_regulatory rfl

theorem loopEvents_decodeMsd : loopEvents (s.transitionTo .decodeMsd enterDecodeMsd).2 = [] := by
  unfold transitionTo enterDecodeMsd
  split_ifs
  · exact loopEvents_regulatory rfl
  · rw [loopEvents_tell, loopEvents_append, loopEvents_append, loopEvents_regulatory rfl,
      loopEvents_regulatory rfl]
    rfl
  · rfl

theorem loopEvents_crc : loopEvents (s.transitionTo .crcCheckonMsd enterCrcCheckOnMsd).2 = [] := by
  have h := loopEvents_decodeMsd (s := { s with state := .crcCheckonMsd })
  unfold transitionTo enterCrcCheckOnMsd
  split_ifs
  · rfl
  · rw [loopEvents_append, loopEvents_append, loopEvents_regulatory rfl, h,
      loopEvents_regulatory rfl]
    rfl

theorem loopEvents_send : loopEvents (s.transitionTo .decodeSendMsd enterDecodeSendMsd).2 = [] := by
  have hcrc := loopEvents_crc (s := { s with state := .decodeSendMsd })
  have hmsd := loopEvents_decodeMsd (s := { s with state := .decodeSendMsd })
  unfold transitionTo enterDecodeSendMsd
  split_ifs
  · rw [loopEvents_tell, loopEvents_append, loopEvents_regulatory rfl, hcrc]
    rfl
  · rfl
  · rw [loopEvents_tell, loopEvents_tell, loopEvents_tell, hcrc]
    rfl
  · rw [loopEvents_tell, hcrc]
    rfl
  · rfl
  · rfl
  · rw [loopEvents_tell, loopEvents_append, loopEvents_regulatory rfl, hmsd]
    rfl
  · rfl

end EcallSession

end Events

namespace Redial

variable {r : Redial} {k : ℕ} {gap : ℤ}

theorem size_pos (r : Redial) : 1 ≤ r.size := List.length_pos_iff.mpr r.nonempty

theorem outcome_bounds (r : Redial) : 1 ≤ r.outcome.1 ∧ r.outcome.1 ≤ r.size := by
  have hpos := r.size_pos
  unfold outcome
  split
  · split
    · rename_i a _ ha
      dsimp only
      omega
    · exact ⟨hpos, Nat.le_refl _⟩
  · exact ⟨hpos, Nat.le_refl _⟩

theorem outcome_of_connects (h : r.succeedAt = some (k : ℤ)) (hk : 1 ≤ k) (hle : k ≤ r.size) :
    r.outcome = (k, .callConnected) := by
  unfold outcome
  rw [h]
  dsimp only
  rw [if_pos ⟨by omega, by omega⟩, Int.toNat_natCast]

theorem outcome_of_fails (h : r.succeedAt ≠ some (k : ℤ)) (hk : k = r.outcome.1) :
    r.outcome = (r.size, .maxRedialAttempted) := by
  unfold outcome at hk ⊢
  split
  · rename_i a ha
    split
    · rename_i hle
      rw [ha] at h hk
      dsimp only at hk
      rw [if_pos hle] at hk
      exact absurd (congrArg some (by omega)) h
    · rfl
  · rfl

theorem failed_succ (h : r.timeGaps[k]? = some gap) :
    r.failed (k + 1) =
      r.failed k ++ [LoopEvent.wait gap, .dial, .redial true r.failure] := by
  unfold failed
  rw [List.take_add_one, h, List.flatMap_append]
  rfl

theorem count_failed (hk : k ≤ r.size) : (r.failed k).count .dial = k ∧
    (r.failed k).count (.redial true r.failure) = k ∧
    (r.failed k).countP LoopEvent.isLast = 0 := by
  induction k with
  | zero => exact ⟨rfl, rfl, rfl⟩
  | succ k ih =>
    obtain ⟨hdials, hannounced, hlast⟩ := ih (Nat.le_of_succ_le hk)
    obtain ⟨gap, hgap⟩ : ∃ gap, r.timeGaps[k]? = some gap :=
      ⟨_, List.getElem?_eq_getElem (Nat.lt_of_succ_le hk)⟩
    rw [failed_succ hgap]
    simp [LoopEvent.isLast, hdials, hannounced, hlast]

end Redial

section Loop

variable {r : Redial} {k : ℕ} {h h' : SessionLog} {s : EcallSession} {e : EntryPoint}

def entered (r : Redial) (s : EcallSession) : SessionLog :=
  ⟨(s.enterRedialing r).1, (s.enterRedialing r).2⟩

theorem looping_entered (hr : s.redial = some r) : Looping r 0 (entered r s) := by
  refine ⟨rfl, hr, rfl, r.outcome_bounds.1, r.firstGap, ?_, rfl⟩
  rw [← List.head?_eq_getElem?]
  exact List.head?_eq_some_head r.nonempty

theorem state_send_ne (s : EcallSession) :
    (s.transitionTo .decodeSendMsd EcallSession.enterDecodeSendMsd).1.state ≠ .redialing := by
  intro hst
  rcases EcallSession.transmits_send (s := s) with (h | ⟨h, -⟩ | ⟨h, -⟩) | ⟨h, -⟩
  · rw [hst] at h
    cases h
  · rw [hst] at h
    cases h
  · rw [hst] at h
    cases h
  · rw [h] at hst
    cases hst

/-- Redialing is entered with the failure of the first call or with the end of a call that has
dropped. -/
theorem enters_redialing (hbefore : s.state ≠ .redialing)
    (hafter : (e.call s).1.state = .redialing) :
    ∃ (r : Redial) (s₁ : EcallSession) (cs : List Callback), s.redial = some r ∧
      s₁.redial = some r ∧ e.call s = EcallSession.tell cs (s₁.enterRedialing r) := by
  have hfound : ∀ {mode : RedialMode} {r : Redial},
      s.redial.filter (·.mode = mode) = some r → s.redial = some r := by
    intro mode r hr
    exact (Option.filter_eq_some_iff.mp hr).1
  cases e with
  | start =>
    simp only [EntryPoint.call, EcallSession.start, EcallSession.transitionTo,
      EcallSession.enterCallConnect] at hafter ⊢
    split at hafter
    · rename_i r hr
      exact ⟨r, { s with state := .callConnect },
        [s.changeCallState .callDialing, s.changeCallState .callEnded], hfound hr, hfound hr, rfl⟩
    · exact absurd hafter (state_send_ne _)
  | hangup =>
    simp only [EntryPoint.call, EcallSession.hangup] at hafter
    split at hafter <;> first | exact absurd hafter hbefore | cases hafter
  | msdPullRequest =>
    simp only [EntryPoint.call, EcallSession.msdPullRequest] at hafter
    split_ifs at hafter
    · exact absurd hafter hbefore
    · exact absurd hafter (state_send_ne _)
    · exact absurd hafter hbefore
  | networkDeregistrationRequest =>
    simp only [EntryPoint.call, EcallSession.networkDeregistrationRequest] at hafter
    split at hafter <;> exact absurd hafter hbefore
  | onHlapTimerExpiry timer mode =>
    have hreaction := EcallSession.reaction_hlapExpiry s timer mode
    unfold EntryPoint.call at hafter ⊢
    dsimp only at hafter ⊢
    generalize s.onHlapTimerExpiry timer mode = x at hreaction hafter ⊢
    cases hreaction with
    | failed | calledBack | ended => cases hafter
    | redialed _ hr => exact ⟨_, s, _, hfound hr, hfound hr, rfl⟩
    | goesOn | expired | ignored => exact absurd hafter hbefore
  | onRedialTimerExpiry =>
    simp only [EntryPoint.call, EcallSession.onRedialTimerExpiry, hbefore, ne_eq,
      not_false_eq_true, if_true] at hafter

theorem loopOver_of_events {gap : ℤ} (hst : h.session.state ≠ .redialing)
    (hlast : k + 1 = r.outcome.1) (hgap : r.timeGaps[k]? = some gap)
    (hevents : loopEvents h.calls = r.failed k ++
      [LoopEvent.wait gap, .dial, .redial false r.outcome.2]) :
    LoopOver r (k + 1) h := by
  have hle : k + 1 ≤ r.size := hlast ▸ r.outcome_bounds.2
  obtain ⟨hdials, hannounced, hnone⟩ := Redial.count_failed (Nat.le_of_succ_le hle)
  refine ⟨hst, hlast, ⟨Nat.succ_pos k, hle⟩, ⟨gap, hgap, hevents⟩, ?_, ?_, ?_⟩
  · rw [hevents, List.count_append, hdials]
    rfl
  · rw [hevents, List.count_append, hannounced]
    rfl
  · rw [hevents, List.countP_append, hnone]
    rfl

theorem looping_expiry (hl : Looping r k h) (hstep : h.step .onRedialTimerExpiry = some h') :
    Looping r (k + 1) h' ∨ LoopOver r (k + 1) h' := by
  obtain ⟨gap, hgap, hevents⟩ := hl.events
  have hle : r.outcome.1 ≤ r.size := r.outcome_bounds.2
  have hmore := hl.more
  have hgaps : h.session.redialTimeGaps = r.timeGaps := by
    rw [EcallSession.redialTimeGaps, hl.redial]
    rfl
  have hconnects : h.session.redialConnects = true ↔ r.succeedAt = some ((k + 1 : ℕ) : ℤ) := by
    rw [EcallSession.redialConnects, EcallSession.redialSucceedAt, hl.redial, hl.attempt,
      decide_eq_true_eq]
    rfl
  obtain rfl := Option.some.inj hstep
  simp only [SessionLog.next, EntryPoint.call, EcallSession.onRedialTimerExpiry, hl.state, ne_eq,
    not_true_eq_false, if_false]
  by_cases hc : r.succeedAt = some ((k + 1 : ℕ) : ℤ)
  · -- the attempt connects
    have houtcome := Redial.outcome_of_connects hc (Nat.succ_pos k) (hmore.trans_le hle)
    rw [if_pos (hconnects.mpr hc)]
    right
    refine loopOver_of_events (state_send_ne h.session) ?_ hgap ?_
    · rw [houtcome]
    · rw [loopEvents_append, EcallSession.loopEvents_tell, EcallSession.loopEvents_tell,
        EcallSession.loopEvents_send, hevents, houtcome]
      simp [loopEvents_cons, Callback.loopEvent, EcallSession.changeCallState]
  · have hreason : h.session.redialReason = r.failure := by
      simp only [EcallSession.redialReason, EcallSession.redialMode, hl.redial, Option.map_some,
        Option.some.injEq, Redial.failure]
    rw [if_neg (fun h => hc (hconnects.mp h)), hgaps, hl.attempt]
    cases hnext : r.timeGaps[k + 1]? with
    | some gap' =>
      -- another attempt is announced
      have hlt : k + 1 < r.size := (List.getElem?_eq_some_iff.mp hnext).1
      left
      refine ⟨rfl, hl.redial, rfl, ?_, gap', hnext, ?_⟩
      · refine lt_of_le_of_ne hmore ?_
        intro hlast
        rw [Redial.outcome_of_fails hc hlast] at hlast
        dsimp only at hlast
        omega
      · rw [loopEvents_append, EcallSession.loopEvents_tell, EcallSession.loopEvents_tell, hevents,
          hreason, Redial.failed_succ hgap]
        simp [loopEvents_cons, Callback.loopEvent, EcallSession.changeCallState]
    | none =>
      -- the table is exhausted
      have hend : r.size ≤ k + 1 := List.getElem?_eq_none_iff.mp hnext
      have hlast : k + 1 = r.outcome.1 := by omega
      right
      refine loopOver_of_events ?_ hlast hgap ?_
      · intro hst
        cases hst
      · rw [loopEvents_append, EcallSession.loopEvents_tell, EcallSession.loopEvents_tell,
          EcallSession.loopEvents_tell, EcallSession.loopEvents_psapCallback, hevents,
          Redial.outcome_of_fails hc hlast]
        simp [loopEvents_cons, Callback.loopEvent, EcallSession.changeCallState]

/-- Nothing but the expiry of its timer and a hang-up moves the loop on. -/
theorem looping_other (hl : Looping r k h) (hstart : e ≠ .start) (hhangup : e ≠ .hangup)
    (hexpiry : e ≠ .onRedialTimerExpiry) (hstep : h.step e = some h') : Looping r k h' := by
  have hrests : (e.call h.session).2 = [] ∧ (e.call h.session).1.state = .redialing ∧
      (e.call h.session).1.redial = h.session.redial ∧
      (e.call h.session).1.redialAttempt = h.session.redialAttempt := by
    cases e with
    | start => exact absurd rfl hstart
    | hangup => exact absurd rfl hhangup
    | onRedialTimerExpiry => exact absurd rfl hexpiry
    | msdPullRequest => simp [EntryPoint.call, EcallSession.msdPullRequest, hl.state]
    | networkDeregistrationRequest =>
      simp [EntryPoint.call, EcallSession.networkDeregistrationRequest, hl.state]
    | onHlapTimerExpiry timer mode =>
      simp [EntryPoint.call, EcallSession.onHlapTimerExpiry, hl.state]
  obtain ⟨hcalls, hst, hredial, hattempt⟩ := hrests
  obtain rfl := Option.some.inj hstep
  refine ⟨hst, hredial.trans hl.redial, hattempt.trans hl.attempt, hl.more, ?_⟩
  rw [SessionLog.next, hcalls, List.append_nil]
  exact hl.events

/-- While the loop lasts it has made as many attempts as its timer has expired. -/
theorem looping_run {es : List EntryPoint} (hl : Looping r k h) (hstart : .start ∉ es)
    (hhangup : .hangup ∉ es)
    (hall : Trace.AllSteps SessionLog.step (fun h _ => h.session.state = .redialing) h es)
    (hrun : Trace.run SessionLog.step h es = some h') :
    Looping r (k + es.count .onRedialTimerExpiry) h' ∨
      LoopOver r (k + es.count .onRedialTimerExpiry) h' := by
  induction es generalizing h k with
  | nil =>
    obtain rfl := Option.some.inj hrun
    exact .inl hl
  | cons e es ih =>
    obtain ⟨h₁, hstep, hrest⟩ := (Trace.run_cons_eq_some _).mp hrun
    have hstart' : .start ∉ es := fun hmem => hstart (List.mem_cons_of_mem e hmem)
    have hhangup' : .hangup ∉ es := fun hmem => hhangup (List.mem_cons_of_mem e hmem)
    by_cases he : e = .onRedialTimerExpiry
    · subst he
      rw [List.count_cons_self, ← Nat.add_assoc, Nat.add_right_comm]
      rcases looping_expiry hl hstep with hnext | hover
      · exact ih hnext hstart' hhangup' (hall.2 h₁ hstep) hrest
      · -- nothing else is called in the loop
        cases es with
        | nil =>
          obtain rfl := Option.some.inj hrest
          exact .inr hover
        | cons e' es => exact absurd (hall.2 h₁ hstep).1 hover.state
    · rw [List.count_cons_of_ne he]
      have hnext := looping_other hl (fun h => hstart (h ▸ List.mem_cons_self))
        (fun h => hhangup (h ▸ List.mem_cons_self)) he hstep
      exact ih hnext hstart' hhangup' (hall.2 h₁ hstep) hrest

theorem call_of_over (hover : s.isOver = true) (hstart : e ≠ .start) :
    (e.call s).1.isOver = true ∧ states (e.call s).2 = [] ∧ loopEvents (e.call s).2 = [] := by
  cases e with
  | start => exact absurd rfl hstart
  | hangup =>
    obtain ⟨hquiet, hover'⟩ := (EcallSession.rests_hangup hover).over hover
    refine ⟨hover', hquiet, ?_⟩
    simp only [EntryPoint.call, EcallSession.hangup]
    split <;> first | rfl | simp_all [EcallSession.isOver]
  | msdPullRequest =>
    have hne : s.state ≠ .callConversation :=
      EcallSession.ne_of_isOver hover (by simp) (by simp)
    obtain ⟨hquiet, hover'⟩ := (EcallSession.rests_pull hne).over hover
    refine ⟨hover', hquiet, ?_⟩
    simp only [EntryPoint.call, EcallSession.msdPullRequest, hne, if_false, loopEvents_nil]
  | networkDeregistrationRequest =>
    obtain ⟨hquiet, hover'⟩ := EcallSession.rests_deregistration.over hover
    refine ⟨hover', hquiet, ?_⟩
    simp only [EntryPoint.call, EcallSession.networkDeregistrationRequest]
    split <;> rfl
  | onHlapTimerExpiry timer mode =>
    have hrests : states (s.onHlapTimerExpiry timer mode).2 = [] ∧
        (s.onHlapTimerExpiry timer mode).1.isOver = true := EcallSession.over_hlapExpiry hover
    refine ⟨hrests.2, hrests.1, ?_⟩
    have hst : s.state = .psapCallback ∨ s.state = .terminal := by
      simpa [EcallSession.isOver] using hover
    simp only [EntryPoint.call, EcallSession.onHlapTimerExpiry]
    rcases hst with hst | hst
    · simp only [hst, reduceCtorEq, false_and, if_false, true_and]
      split_ifs <;> rfl
    · simp [hst]
  | onRedialTimerExpiry =>
    have hne : s.state ≠ .redialing := EcallSession.ne_of_isOver hover (by simp) (by simp)
    obtain ⟨hquiet, hover'⟩ := (EcallSession.rests_redialExpiry hne).over hover
    refine ⟨hover', hquiet, ?_⟩
    simp only [EntryPoint.call, EcallSession.onRedialTimerExpiry, ne_eq, hne, not_false_eq_true,
      if_true, loopEvents_nil]

theorem run_of_over {es : List EntryPoint} (hover : h.session.isOver = true)
    (hstart : .start ∉ es) (hrun : Trace.run SessionLog.step h es = some h') :
    ∃ cs, h'.calls = h.calls ++ cs ∧ states cs = [] ∧ loopEvents cs = [] := by
  induction es generalizing h with
  | nil =>
    obtain rfl := Option.some.inj hrun
    exact ⟨[], (List.append_nil _).symm, rfl, rfl⟩
  | cons e es ih =>
    obtain ⟨h₁, hstep, hrest⟩ := (Trace.run_cons_eq_some _).mp hrun
    obtain rfl := Option.some.inj hstep
    obtain ⟨hover', hquiet, hnone⟩ :=
      call_of_over (e := e) hover (fun h => hstart (h ▸ List.mem_cons_self))
    obtain ⟨cs, hcs, hstates, hloop⟩ :=
      ih hover' (fun hmem => hstart (List.mem_cons_of_mem e hmem)) hrest
    refine ⟨(e.call h.session).2 ++ cs, ?_, ?_, ?_⟩
    · rw [hcs, SessionLog.next, List.append_assoc]
    · rw [states_append, hquiet, hstates, List.append_nil]
    · rw [loopEvents_append, hnone, hloop, List.append_nil]

/-- A hang-up tells CALL_ENDED once, and whatever expires later, nothing is dialled. -/
theorem hangup_looping (hl : Looping r k h) (hstep : h.step .hangup = some h') :
    (∃ cs, h'.calls = h.calls ++ cs ∧ states cs = [.ended] ∧ loopEvents cs = []) ∧
    ∀ es h'', .start ∉ es → Trace.run SessionLog.step h' es = some h'' →
      ∃ cs, h''.calls = h'.calls ++ cs ∧ states cs = [] ∧ loopEvents cs = [] := by
  have hcall : EntryPoint.hangup.call h.session = EcallSession.tell
      [h.session.changeCallState .callEnded] h.session.transitionToPsapCallback := by
    simp only [EntryPoint.call, EcallSession.hangup, hl.state]
  obtain rfl := Option.some.inj hstep
  rw [SessionLog.next, hcall]
  refine ⟨⟨_, rfl, ?_, ?_⟩, ?_⟩
  · rw [EcallSession.tell, states_append, EcallSession.states_psapCallback]
    rfl
  · rw [EcallSession.loopEvents_tell, EcallSession.loopEvents_psapCallback]
    rfl
  · intro es h'' hstart hrun
    exact run_of_over rfl hstart hrun

/-- From the moment a session enters Redialing, whatever else is called in between: as long as the
loop lasts, it has made one attempt for every expiry of its timer and the timer runs for the gap of
the next one; it ends by itself with the attempt that is to succeed, or with the last of the table;
an expiry after the end does nothing; a hang-up tells CALL_ENDED once and nothing is dialled after
it. -/
theorem redial_loop {s : EcallSession} {e : EntryPoint} (hbefore : s.state ≠ .redialing)
    (hafter : (e.call s).1.state = .redialing) :
    ∃ (r : Redial) (s₁ : EcallSession) (cs : List Callback), s.redial = some r ∧
      e.call s = EcallSession.tell cs (s₁.enterRedialing r) ∧
      (∀ es h, .start ∉ es → .hangup ∉ es →
        Trace.AllSteps SessionLog.step (fun h _ => h.session.state = .redialing) (entered r s₁) es →
        Trace.run SessionLog.step (entered r s₁) es = some h →
        (Looping r (es.count .onRedialTimerExpiry) h ∧ ∀ h', h.step .hangup = some h' →
          (∃ cs, h'.calls = h.calls ++ cs ∧ states cs = [.ended] ∧ loopEvents cs = []) ∧
          ∀ es' h'', .start ∉ es' → Trace.run SessionLog.step h' es' = some h'' →
            ∃ cs, h''.calls = h'.calls ++ cs ∧ states cs = [] ∧ loopEvents cs = []) ∨
        LoopOver r (es.count .onRedialTimerExpiry) h) ∧
      ∀ s₂ : EcallSession, s₂.state ≠ .redialing → s₂.onRedialTimerExpiry = (s₂, []) := by
  obtain ⟨r, s₁, cs, hr, hr₁, hcall⟩ := enters_redialing hbefore hafter
  refine ⟨r, s₁, cs, hr, hcall, ?_, ?_⟩
  · intro es h hstart hhangup hall hrun
    have hloop := looping_run (looping_entered hr₁) hstart hhangup hall hrun
    rw [Nat.zero_add] at hloop
    rcases hloop with hlooping | hover
    · exact .inl ⟨hlooping, fun h' hstep => hangup_looping hlooping hstep⟩
    · exact .inr hover
  · intro s₂ hne
    rw [EcallSession.onRedialTimerExpiry, if_pos hne]

/-- The redialling of a call whose second attempt is to connect. -/
def secondConnects : Redial := ⟨.callOrig, some 2, [5000, 60000, 60000], by decide⟩

def redialledCall : EcallSession where
  callIndex := 1
  remotePartyNumber := ""
  isMsdTransmitted := true
  isNgEcall := false
  isCustomNumberEcall := false
  direction := .mo
  failedTimers := ∅
  redial := some secondConnects
  redialAttempt := 0
  updateInProgress := false
  msdPull := false
  state := .callConnect

theorem redial_loop_connects : ∃ s₁ h,
    Trace.run SessionLog.step (entered secondConnects s₁)
      [.onRedialTimerExpiry, .msdPullRequest, .onRedialTimerExpiry] = some h ∧
    LoopOver secondConnects 2 h := by
  obtain ⟨r, s₁, cs, hr, hcall, hloop, -⟩ :=
    redial_loop (s := redialledCall) (e := .start) (by decide) (by decide)
  obtain rfl : secondConnects = r := Option.some.inj hr
  have hentered : entered secondConnects s₁ =
      ⟨(EntryPoint.start.call redialledCall).1, [.startRedialTimer 5000]⟩ := by
    rw [hcall]
    rfl
  have hfinal : (Trace.run SessionLog.step (entered secondConnects s₁)
      [.onRedialTimerExpiry, .msdPullRequest, .onRedialTimerExpiry]).any
        (fun h => h.session.state = .callConversation) = true := by
    rw [hentered]
    decide +kernel
  simp only [Option.any_eq_true, decide_eq_true_eq] at hfinal
  obtain ⟨h, hrun, hst⟩ := hfinal
  refine ⟨s₁, h, hrun, ?_⟩
  rcases hloop _ h (by decide) (by decide) (by rw [hentered]; decide +kernel) hrun with
    ⟨hlooping, -⟩ | hover
  · rw [hlooping.state] at hst
    cases hst
  · exact hover

end Loop

end TelafSim.Ecall
