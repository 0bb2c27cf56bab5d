import TelafSim.PowerTimeout

/-!
# Which round an acknowledgement is for

A slave_ack says which state it acknowledges, and `_handle_slave_ack` does not read it. The first
NACK or the timeout ends a round while other machines are still to answer, and the next round may
await the same machines, so that a late answer to the old round is counted in the new one. The log
keeps the `state` field beside every event in the fifo and writes down which answer was recorded in
which round.
-/

namespace TelafSim.Power

/-- An answer recorded in the round of the request `seq`. -/
structure Answer where
  seq : ℕ
  /-- The state the round asks for. -/
  requested : PowerState
  machineName : String
  response : Response
  /-- The state the slave_ack was sent for; `none` when `force_slave_ack` injected the answer. -/
  state : Option PowerState
  deriving DecidableEq

def Answer.Own (a : Answer) : Prop := ∀ s ∈ a.state, s = a.requested

instance (a : Answer) : Decidable a.Own := inferInstanceAs (Decidable (∀ s ∈ a.state, s = a.requested))

namespace Pending

def answerOf (p : Pending) : PowerEvent × PowerState → Option Answer
  | (.slaveAck m r, state) =>
    if m ∈ p.expected then some ⟨p.request.seq, p.request.state, m, r, some state⟩ else none
  | (.powerForceSlaveAck m r, _) =>
    if m ∈ p.expected then some ⟨p.request.seq, p.request.state, m, r, none⟩ else none
  | _ => none

def endedBy (p : Pending) : PowerEvent → Option Pending
  | .slaveAck m r =>
    if m ∈ p.expected ∧ (p.answer m r).finishes r then some (p.answer m r) else none
  | .powerForceSlaveAck m r =>
    if m ∈ p.expected ∧ (p.answer m r).finishes r then some (p.answer m r) else none
  | .powerAckTimeout _ => some p
  | _ => none

end Pending

structure AckLog where
  sub : PowerSubsystem
  mail : List (PowerEvent × PowerState)
  answers : List Answer
  /-- The rounds that awaited answers and have ended. -/
  ended : List Pending

namespace AckLog

def initial (localMachineName : String) : AckLog := ⟨.initial localMachineName, [], [], []⟩

def handled (h : AckLog) (s : PowerSubsystem) : AckLog :=
  match h.mail with
  | [] => { h with sub := s }
  | x :: rest => { h with
      sub := s
      mail := rest
      answers := h.answers ++ (h.sub.pending.bind (·.answerOf x)).toList
      ended := h.ended ++ (h.sub.pending.bind (·.endedBy x.1)).toList }

/-- A label comes with the `state` field of the message it posts. -/
def step (h : AckLog) (l : PowerSubsystem.Label × PowerState) : Option AckLog :=
  (h.sub.step l.1).map (fun s =>
    if l.1 = .dispatch then h.handled s
    else { h with
      sub := s
      mail := h.mail ++ (s.fifo.drop h.sub.fifo.length).map (·, l.2) })

def OwnAnswers (h : AckLog) : Prop := ∀ a ∈ h.answers, a.Own

/-- A round reported as ok has an acknowledgement of its own state from every machine it awaited,
unless `force_slave_ack` stood in for the machine. -/
def OkAcked (h : AckLog) : Prop :=
  ∀ p ∈ h.ended, p.ok → ∀ m ∈ p.expected, ∃ a ∈ h.answers, a.seq = p.request.seq ∧
    a.machineName = m ∧ a.response = .ack ∧ (a.state = none ∨ a.state = some p.request.state)

/-- A slave_ack is handled in a round that awaits its machine only if it was sent for the state of
that round. -/
def prompt (h : AckLog) : PowerSubsystem.Label × PowerState → Bool
  | (.dispatch, _) =>
    match h.sub.pending, h.mail with
    | some p, (.slaveAck m _, state) :: _ => m ∉ p.expected || state = p.request.state
    | _, _ => true
  | _ => true

end AckLog

namespace PowerSubsystem

variable {s s' : PowerSubsystem}

/-- The fifo stays, the reports stay, and the round in progress, if there is one, has just begun. -/
structure Renews (s s' : PowerSubsystem) : Prop where
  fifo : s'.fifo = s.fifo
  out : s.out <+: s'.out
  fresh : ∀ p, s'.pending = some p → p.acked = []

theorem closeRound_out (status : RoundStatus) (p : Pending) (s : PowerSubsystem) :
    (s.closeRound status p).out = s.out ++ (p.statusInd status ++ [p.rsp]) := by
  unfold closeRound
  dsimp only
  split <;> rfl

theorem renews_processNextQueued (q : List QueuedRequest) (s : PowerSubsystem)
    (hp : q = [] → s.pending = none) : Renews s (processNextQueued q s) := by
  induction q generalizing s with
  | nil =>
    refine ⟨rfl, List.prefix_refl _, ?_⟩
    intro p hsome
    rw [processNextQueued, hp rfl] at hsome
    cases hsome
  | cons r rest ih =>
    unfold processNextQueued
    dsimp only
    split
    · obtain ⟨hfifo, hout, hfresh⟩ :=
        ih ((s.beginRound r).2.closeRound .complete (s.beginRound r).1)
          (fun _ => closeRound_pending _ _ _)
      refine ⟨hfifo.trans (closeRound_fifo _ _ _), ?_, hfresh⟩
      refine List.IsPrefix.trans ?_ hout
      rw [closeRound_out]
      exact (List.prefix_append _ _).trans (List.prefix_append _ _)
    · refine ⟨rfl, List.prefix_append _ _, ?_⟩
      intro p hsome
      obtain rfl : (s.beginRound r).1 = p := Option.some.inj hsome
      rfl

theorem renews_finish (status : RoundStatus) (p : Pending) (s : PowerSubsystem) :
    Renews s (s.finishSetStateRound status p) ∧ p.rsp ∈ (s.finishSetStateRound status p).out := by
  obtain ⟨hfifo, hout, hfresh⟩ := renews_processNextQueued (s.closeRound status p).requestQueue
    (s.closeRound status p) (fun _ => closeRound_pending _ _ _)
  rw [closeRound_out] at hout
  refine ⟨⟨hfifo.trans (closeRound_fifo _ _ _), (List.prefix_append _ _).trans hout, hfresh⟩, ?_⟩
  refine hout.subset (List.mem_append_right _ (List.mem_append_right _ ?_))
  exact List.mem_singleton_self _

structure Rounds (s : PowerSubsystem) (e : PowerEvent) (s' : PowerSubsystem) : Prop where
  fifo : s'.fifo = s.fifo
  out : s.out <+: s'.out
  pending : ∀ p', s'.pending = some p' → p'.acked = [] ∨ s.pending = some p' ∨
    ∃ p m r, s.pending = some p ∧ (e = .slaveAck m r ∨ e = .powerForceSlaveAck m r) ∧
      m ∈ p.expected ∧ p' = p.answer m r
  reports : ∀ p, s.pending = some p → ∀ p' ∈ p.endedBy e, p'.rsp ∈ s'.out

theorem Renews.rounds (h : Renews s s') {e : PowerEvent} (he : ∀ p : Pending, p.endedBy e = none) :
    Rounds s e s' := by
  refine ⟨h.fifo, h.out, fun p' hp' => .inl (h.fresh p' hp'), ?_⟩
  intro p _ p' hp'
  rw [he] at hp'
  cases hp'

theorem rounds_of_same {e : PowerEvent} (he : ∀ p : Pending, p.endedBy e = none)
    (hfifo : s'.fifo = s.fifo) (hout : s.out <+: s'.out) (hpending : s'.pending = s.pending) :
    Rounds s e s' := by
  refine ⟨hfifo, hout, fun p' hp' => .inr (.inl (hpending ▸ hp')), ?_⟩
  intro p _ p' hp'
  rw [he] at hp'
  cases hp'

theorem rounds_recordAck {e : PowerEvent} {m : String} {r : Response}
    (he : e = .slaveAck m r ∨ e = .powerForceSlaveAck m r) (s : PowerSubsystem) :
    Rounds s e (s.recordAck m r) := by
  have hended : ∀ p : Pending, p.endedBy e =
      if m ∈ p.expected ∧ (p.answer m r).finishes r then some (p.answer m r) else none := by
    rcases he with rfl | rfl <;> exact fun _ => rfl
  unfold recordAck
  split
  · rename_i hnone
    refine ⟨rfl, List.prefix_refl _, fun p' hp' => .inr (.inl hp'), ?_⟩
    intro p hp
    rw [hnone] at hp
    cases hp
  · rename_i p hp
    by_cases hm : m ∈ p.expected
    · rw [if_neg (not_not.mpr hm)]
      dsimp only
      split
      · rename_i hfin
        obtain ⟨hrenews, hrsp⟩ := renews_finish .complete (p.answer m r)
          ({ s with pending := some (p.answer m r) } : PowerSubsystem).cancelPendingTimer
        refine ⟨hrenews.fifo, hrenews.out, fun p' hp' => .inl (hrenews.fresh p' hp'), ?_⟩
        intro p₀ hp₀ p' hp'
        obtain rfl : p = p₀ := Option.some.inj (hp.symm.trans hp₀)
        rw [hended, if_pos ⟨hm, hfin⟩] at hp'
        obtain rfl := Option.some.inj hp'
        exact hrsp
      · rename_i hfin
        refine ⟨rfl, List.prefix_refl _, ?_, ?_⟩
        · intro p' hp'
          exact .inr (.inr ⟨p, m, r, hp, he, hm, (Option.some.inj hp').symm⟩)
        · intro p₀ hp₀ p' hp'
          obtain rfl : p = p₀ := Option.some.inj (hp.symm.trans hp₀)
          rw [hended, if_neg (fun h => hfin h.2)] at hp'
          cases hp'
    · rw [if_pos hm]
      refine ⟨rfl, List.prefix_refl _, fun p' hp' => .inr (.inl hp'), ?_⟩
      intro p₀ hp₀ p' hp'
      obtain rfl : p = p₀ := Option.some.inj (hp.symm.trans hp₀)
      rw [hended, if_neg (fun h => hm h.1)] at hp'
      cases hp'

theorem rounds_handle (e : PowerEvent) (s : PowerSubsystem) : Rounds s e (s.handle e) := by
  cases e with
  | setState state m corrId src =>
    obtain ⟨r, -, -, -, ⟨reason, heq⟩ | ⟨hq, heq⟩ | ⟨-, heq⟩⟩ :=
      handleSetState_cases state m corrId src s
    · rw [handle, heq]
      exact rounds_of_same (fun _ => rfl) rfl (List.prefix_append _ _) rfl
    · rw [handle, heq]
      obtain ⟨hfifo, hout, hfresh⟩ := renews_processNextQueued (s.enqueue r).requestQueue
        (s.enqueue r) (fun h => absurd h (by simp [enqueue]))
      have hrenews : Renews s (processNextQueued (s.enqueue r).requestQueue (s.enqueue r)) :=
        ⟨hfifo, hout, hfresh⟩
      exact hrenews.rounds (fun _ => rfl)
    · rw [handle, heq]
      exact rounds_of_same (fun _ => rfl) rfl (List.prefix_refl _) rfl
  | getMachineNames corrId src =>
    exact rounds_of_same (fun _ => rfl) rfl (List.prefix_append _ _) rfl
  | slaveAck m r => exact rounds_recordAck (.inl rfl) s
  | powerForceSlaveAck m r => exact rounds_recordAck (.inr rfl) s
  | powerAddMachine m =>
    simp only [handle, applyAddMachine]
    split
    · exact rounds_of_same (fun _ => rfl) rfl (List.prefix_refl _) rfl
    · exact rounds_of_same (fun _ => rfl) rfl (List.prefix_append _ _) rfl
  | powerRemoveMachine m =>
    simp only [handle, applyRemoveMachine]
    split
    · exact rounds_of_same (fun _ => rfl) rfl (List.prefix_refl _) rfl
    · exact rounds_of_same (fun _ => rfl) rfl (List.prefix_append _ _) rfl
  | powerAckTimeout uuid =>
    simp only [handle, onAckTimeout]
    split
    · rename_i hnone
      refine ⟨rfl, List.prefix_refl _, fun p' hp' => .inr (.inl hp'), ?_⟩
      intro p hp
      rw [hnone] at hp
      cases hp
    · rename_i p hp
      obtain ⟨hrenews, hrsp⟩ := renews_finish .timeout p { s with
        pendingTimerUuid := none
        timeouts := s.timeouts ++ [(uuid, p.round)] }
      refine ⟨hrenews.fifo, hrenews.out, fun p' hp' => .inl (hrenews.fresh p' hp'), ?_⟩
      intro p₀ hp₀ p' hp'
      obtain rfl : p = p₀ := Option.some.inj (hp.symm.trans hp₀)
      obtain rfl := Option.some.inj hp'
      exact hrsp
  | powerFTimeout => exact rounds_of_same (fun _ => rfl) rfl (List.prefix_append _ _) rfl

end PowerSubsystem

namespace AckLog

structure Acks (p : Pending) (m : String) (a : Answer) : Prop where
  seq : a.seq = p.request.seq
  requested : a.requested = p.request.state
  machineName : a.machineName = m
  response : a.response = .ack

def Recorded (answers : List Answer) (p : Pending) : Prop :=
  ∀ m ∈ p.acked, ∃ a ∈ answers, Acks p m a

structure Kept (h : AckLog) : Prop where
  mail : h.mail.map Prod.fst = h.sub.fifo
  pending : ∀ p, h.sub.pending = some p → Recorded h.answers p
  ended : ∀ p ∈ h.ended, Recorded h.answers p
  reported : ∀ p ∈ h.ended, p.rsp ∈ h.sub.out

section Steps

variable {h h' : AckLog} {l : PowerSubsystem.Label × PowerState} {answers : List Answer}
  {p : Pending} {x : PowerEvent × PowerState} {rest : List (PowerEvent × PowerState)}

theorem Recorded.append (hp : Recorded answers p) (new : List Answer) :
    Recorded (answers ++ new) p := by
  intro m hm
  obtain ⟨a, ha, hacks⟩ := hp m hm
  exact ⟨a, List.mem_append_left _ ha, hacks⟩

theorem Recorded.answer (hp : Recorded answers p) {m : String} {r : Response}
    (hx : x.1 = .slaveAck m r ∨ x.1 = .powerForceSlaveAck m r) (hm : m ∈ p.expected) :
    Recorded (answers ++ (p.answerOf x).toList) (p.answer m r) := by
  obtain ⟨state, hanswer⟩ : ∃ state, p.answerOf x =
      some ⟨p.request.seq, p.request.state, m, r, state⟩ := by
    obtain ⟨e, state⟩ := x
    rcases hx with rfl | rfl
    · exact ⟨some state, if_pos hm⟩
    · exact ⟨none, if_pos hm⟩
  rw [hanswer]
  intro m' hm'
  have hcases : m' ∈ p.acked ∨ (m' = m ∧ r = .ack) := by
    cases r with
    | nack => exact .inl hm'
    | ack =>
      simp only [Pending.answer, addTo] at hm'
      split at hm'
      · exact .inl hm'
      · simpa using hm'
  rcases hcases with hold | ⟨rfl, rfl⟩
  · obtain ⟨a, ha, hacks⟩ := hp m' hold
    refine ⟨a, List.mem_append_left _ ha, ?_⟩
    exact ⟨hacks.seq.trans (by rw [Pending.answer_request]),
      hacks.requested.trans (by rw [Pending.answer_request]), hacks.machineName, hacks.response⟩
  · refine ⟨_, List.mem_append_right _ (List.mem_singleton_self _), ?_⟩
    exact ⟨rfl, rfl, rfl, rfl⟩

theorem Recorded.endedBy (hp : Recorded answers p) :
    ∀ p' ∈ p.endedBy x.1, Recorded (answers ++ (p.answerOf x).toList) p' := by
  intro p' hp'
  have hanswered : ∀ {m r}, (x.1 = .slaveAck m r ∨ x.1 = .powerForceSlaveAck m r) →
      (if m ∈ p.expected ∧ (p.answer m r).finishes r then some (p.answer m r) else none) = some p' →
      Recorded (answers ++ (p.answerOf x).toList) p' := by
    intro m r hx hif
    obtain ⟨⟨hm, -⟩, heq⟩ := Option.ite_none_right_eq_some.mp hif
    obtain rfl := Option.some.inj heq
    exact hp.answer hx hm
  obtain ⟨e, state⟩ := x
  cases e with
  | slaveAck m r => exact hanswered (.inl rfl) hp'
  | powerForceSlaveAck m r => exact hanswered (.inr rfl) hp'
  | powerAckTimeout uuid =>
    obtain rfl := Option.some.inj hp'
    exact hp.append _
  | _ => cases hp'

theorem step_cases (hk : h.Kept) (hstep : h.step l = some h') :
    (∃ es, h' = { h with sub := h'.sub, mail := h.mail ++ es } ∧
      h'.sub.fifo = h.sub.fifo ++ es.map Prod.fst ∧ h'.sub.pending = h.sub.pending ∧
      h'.sub.out = h.sub.out ∧ h.prompt l = true) ∨
    ∃ x rest, l.1 = .dispatch ∧ h.mail = x :: rest ∧ h' = h.handled h'.sub ∧
      PowerSubsystem.Rounds { h.sub with fifo := rest.map Prod.fst } x.1 h'.sub := by
  obtain ⟨s, hs, hafter⟩ := Option.map_eq_some_iff.mp hstep
  rcases PowerSubsystem.step_cases hs with ⟨e, hl, -, -, rfl⟩ | ⟨uuid, t, hl, -, rfl⟩ |
    ⟨e, es, hl, hfifo, rfl⟩
  · left
    rw [hl, if_neg (by simp)] at hafter
    subst hafter
    refine ⟨_, rfl, ?_, rfl, rfl, ?_⟩
    · simp
    · unfold prompt
      rw [show l = (.post e, l.2) from Prod.ext hl rfl]
  · left
    rw [hl, if_neg (by simp)] at hafter
    subst hafter
    refine ⟨_, rfl, ?_, rfl, rfl, ?_⟩
    · simp
    · unfold prompt
      rw [show l = (.fire uuid, l.2) from Prod.ext hl rfl]
  · right
    rw [if_pos hl] at hafter
    have hmail := hk.mail
    rw [hfifo] at hmail
    obtain ⟨x, rest, hx, rfl, rfl⟩ := List.map_eq_cons_iff.mp hmail
    subst hafter
    refine ⟨x, rest, hl, hx, ?_, ?_⟩
    · simp only [handled, hx]
    · simp only [handled, hx]
      exact PowerSubsystem.rounds_handle x.1 _

theorem step_kept (hk : h.Kept) (hstep : h.step l = some h') : h'.Kept := by
  rcases step_cases hk hstep with ⟨es, heq, hfifo, hpending, hout, -⟩ |
    ⟨x, rest, -, hmail, heq, hrounds⟩
  · rw [heq]
    refine ⟨?_, ?_, hk.ended, ?_⟩
    · rw [List.map_append, hk.mail, hfifo]
    · rw [hpending]
      exact hk.pending
    · rw [hout]
      exact hk.reported
  · rw [handled, hmail] at heq
    rw [heq]
    refine ⟨hrounds.fifo.symm, ?_, ?_, ?_⟩
    · intro p' hp'
      rcases hrounds.pending p' hp' with hnil | hsame | ⟨p, m, r, hp, hx, hm, rfl⟩
      · intro m hm
        rw [hnil] at hm
        cases hm
      · exact (hk.pending p' hsame).append _
      · have hrec := (hk.pending p hp).answer hx hm
        have hp : h.sub.pending = some p := hp
        rw [hp]
        exact hrec
    · intro p' hp'
      rcases List.mem_append.mp hp' with hold | hnew
      · exact (hk.ended p' hold).append _
      · obtain ⟨p, hp, hended⟩ := Option.bind_eq_some_iff.mp (Option.mem_toList.mp hnew)
        have hrec := (hk.pending p hp).endedBy p' hended
        rw [hp]
        exact hrec
    · intro p' hp'
      rcases List.mem_append.mp hp' with hold | hnew
      · exact hrounds.out.subset (hk.reported p' hold)
      · obtain ⟨p, hp, hended⟩ := Option.bind_eq_some_iff.mp (Option.mem_toList.mp hnew)
        exact hrounds.reports p hp p' hended

theorem prompt_iff (hl : l.1 = .dispatch) (hmail : h.mail = x :: rest) :
    h.prompt l = true ↔ ∀ a ∈ h.sub.pending.bind (·.answerOf x), a.Own := by
  rw [show l = (.dispatch, l.2) from Prod.ext hl rfl]
  obtain ⟨e, state⟩ := x
  simp only [prompt, hmail]
  cases hp : h.sub.pending with
  | none => simp
  | some p =>
    cases e with
    | slaveAck m r =>
      by_cases hm : m ∈ p.expected <;> simp [Pending.answerOf, hm, Answer.Own]
    | powerForceSlaveAck m r =>
      by_cases hm : m ∈ p.expected <;> simp [Pending.answerOf, hm, Answer.Own]
    | _ => simp [Pending.answerOf]

theorem step_own (hk : h.Kept) (hown : h.OwnAnswers) (hstep : h.step l = some h') :
    h.prompt l = true ↔ h'.OwnAnswers := by
  rcases step_cases hk hstep with ⟨es, heq, -, -, -, hprompt⟩ | ⟨x, rest, hl, hmail, heq, -⟩
  · refine ⟨fun _ => ?_, fun _ => hprompt⟩
    rw [heq]
    exact hown
  · rw [prompt_iff hl hmail, heq, handled, hmail]
    constructor
    · intro hnew a ha
      rcases List.mem_append.mp ha with hold | ha
      · exact hown a hold
      · exact hnew a (Option.mem_toList.mp ha)
    · intro hall a ha
      exact hall a (List.mem_append_right _ (Option.mem_toList.mpr ha))

theorem step_answers (hk : h.Kept) (hstep : h.step l = some h') : h.answers ⊆ h'.answers := by
  rcases step_cases hk hstep with ⟨es, heq, -⟩ | ⟨x, rest, -, hmail, heq, -⟩
  · rw [heq]
    exact List.Subset.refl _
  · rw [heq, handled, hmail]
    exact List.subset_append_left _ _

theorem initial_kept (localMachineName : String) : (initial localMachineName).Kept := by
  refine ⟨rfl, ?_, ?_, ?_⟩
  · intro p hp
    cases hp
  · intro p hp
    cases hp
  · intro p hp
    cases hp

/-- Where every answer counts for its own state, a round that is ok has been acknowledged. -/
theorem Kept.okAcked (hk : h.Kept) (hown : h.OwnAnswers) : h.OkAcked := by
  intro p hp hok m hm
  obtain ⟨hnoack, hnacked⟩ := of_decide_eq_true hok
  have hacked : m ∈ p.acked := by
    by_contra hnot
    have hmem : m ∈ p.noack := by
      refine List.mem_filter.mpr ⟨hm, decide_eq_true ⟨hnot, ?_⟩⟩
      rw [hnacked]
      exact List.not_mem_nil
    rw [hnoack] at hmem
    cases hmem
  obtain ⟨a, ha, hacks⟩ := hk.ended p hp m hacked
  refine ⟨a, ha, hacks.seq, hacks.machineName, hacks.response, ?_⟩
  cases hstate : a.state with
  | none => exact .inl rfl
  | some s =>
    have hs := hown a ha s hstate
    exact .inr (by rw [hs, hacks.requested])

/-- The answers are counted for their own states, and the rounds that were reported as ok have been
acknowledged, if and only if no slave_ack comes to be handled in a round that awaits its machine for
another state. -/
theorem own_iff_prompt {localMachineName : String} {ls : List (PowerSubsystem.Label × PowerState)}
    (hrun : Trace.run step (initial localMachineName) ls = some h) :
    (∀ p ∈ h.ended, p.rsp ∈ h.sub.out) ∧
    (h.OwnAnswers ∧ h.OkAcked ↔
      Trace.AllSteps step (fun h l => h.prompt l = true) (initial localMachineName) ls) := by
  have hk : h.Kept := Trace.run_invariant (fun _ _ _ hk hstep => step_kept hk hstep) hrun
    (initial_kept localMachineName)
  refine ⟨hk.reported, ?_⟩
  rw [Trace.allSteps_iff (I := OwnAnswers) (fun _ _ _ hk hstep => step_kept hk hstep)
    (fun _ _ _ hk hown hstep => step_own hk hown hstep) ?_ hrun (initial_kept localMachineName)
    (fun a ha => by cases ha)]
  · exact ⟨fun hown => hown.1, fun hown => ⟨hown, hk.okAcked hown⟩⟩
  · intro h l h' hk hnot hstep hown
    exact hnot (fun a ha => hown a (step_answers hk hstep ha))

def suspended : List (PowerSubsystem.Label × PowerState) :=
  [(.post (.powerAddMachine "mdm"), .unknown), (.dispatch, .unknown),
    (.post (.setState .suspend "ALL_MACHINES" "c" "pa"), .unknown), (.dispatch, .unknown)]

def ackedRun : List (PowerSubsystem.Label × PowerState) :=
  suspended ++ [(.post (.slaveAck "host" .ack), .suspend), (.post (.slaveAck "mdm" .ack), .suspend),
    (.dispatch, .unknown), (.dispatch, .unknown)]

/-- A SHUTDOWN waits behind the SUSPEND, which one machine refuses; the ACK of the other one comes
too late. -/
def lateAckRun : List (PowerSubsystem.Label × PowerState) :=
  suspended ++ [(.post (.setState .shutdown "ALL_MACHINES" "d" "pa"), .unknown),
    (.dispatch, .unknown), (.post (.slaveAck "host" .nack), .suspend), (.dispatch, .unknown),
    (.post (.slaveAck "mdm" .ack), .suspend), (.dispatch, .unknown)]

theorem own_ackedRun :
    ∃ h, Trace.run step (initial "host") ackedRun = some h ∧ h.ended.length = 1 ∧
      h.OwnAnswers ∧ h.OkAcked := by
  have hrun : (Trace.run step (initial "host") ackedRun).any (fun h => h.ended.length = 1) =
      true := by
    decide +kernel
  simp only [Option.any_eq_true, decide_eq_true_eq] at hrun
  obtain ⟨h, hh, hended⟩ := hrun
  exact ⟨h, hh, hended, (own_iff_prompt hh).2.mpr (by decide +kernel)⟩

/-- The ACK of the SUSPEND is counted for the SHUTDOWN. -/
theorem late_ack_counted :
    ∃ h, Trace.run step (initial "host") lateAckRun = some h ∧
      ⟨1, .shutdown, "mdm", .ack, some .suspend⟩ ∈ h.answers ∧ ¬ h.OwnAnswers := by
  have hrun : (Trace.run step (initial "host") lateAckRun).any (fun h =>
      ⟨1, .shutdown, "mdm", .ack, some .suspend⟩ ∈ h.answers) = true := by
    decide +kernel
  simp only [Option.any_eq_true, decide_eq_true_eq] at hrun
  obtain ⟨h, hh, hmem⟩ := hrun
  refine ⟨h, hh, hmem, ?_⟩
  intro hown
  have hsame := hown _ hmem .suspend rfl
  cases hsame

end Steps

end AckLog

end TelafSim.Power
