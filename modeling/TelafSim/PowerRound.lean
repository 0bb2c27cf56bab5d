import TelafSim.PowerAcks
import TelafSim.PowerRecord
import Mathlib.Data.String.Basic

/-!
# How a round ends

A round that awaits ACKs ends with the last of them, with the first NACK of an awaited machine or
with an ack timeout, whichever is handled first, and its report is read off the events handled until
then. The log keeps the events handled since the round in progress began.
-/

namespace TelafSim.Power

/-- `m` has answered `r`, itself or through `force_slave_ack`. -/
def Answered (m : String) (r : Response) (es : List PowerEvent) : Prop :=
  .slaveAck m r ∈ es ∨ .powerForceSlaveAck m r ∈ es

/-- One of the three events that end a round is among `es`. -/
def Over (expected : List String) (es : List PowerEvent) : Prop :=
  (∃ uuid, .powerAckTimeout uuid ∈ es) ∨ (∃ m ∈ expected, Answered m .nack es) ∨
    ∀ m ∈ expected, Answered m .ack es

structure Report (expected : List String) (es : List PowerEvent) (status : RoundStatus)
    (unresponsive nack : List String) (ok : Bool) : Prop where
  timed_out : status = .timeout ↔ ∃ uuid, .powerAckTimeout uuid ∈ es
  mem_nack : ∀ m, m ∈ nack ↔ m ∈ expected ∧ Answered m .nack es
  mem_unresponsive : ∀ m, m ∈ unresponsive ↔ m ∈ expected ∧ ∀ r, ¬ Answered m r es
  disjoint : unresponsive.Disjoint nack
  sorted_unresponsive : unresponsive.Pairwise (· < ·)
  sorted_nack : nack.Pairwise (· < ·)
  ok_iff : ok = true ↔ ∀ m ∈ expected, Answered m .ack es ∧ ¬ Answered m .nack es

structure RoundLog where
  sub : PowerSubsystem
  events : List PowerEvent

namespace RoundLog

def initial (localMachineName : String) : RoundLog := ⟨.initial localMachineName, []⟩

def handles (h : RoundLog) : PowerSubsystem.Label → List PowerEvent
  | .dispatch => h.sub.fifo.head?.toList
  | .post _ => []
  | .fire _ => []

def step (h : RoundLog) (l : PowerSubsystem.Label) : Option RoundLog :=
  (h.sub.step l).map (fun s =>
    if s.pending.map Pending.round = h.sub.pending.map Pending.round
    then ⟨s, h.events ++ h.handles l⟩ else ⟨s, []⟩)

end RoundLog

namespace PowerSubsystem

/-- The round `p` goes on: it stays the one of the head of the queue, and nothing is reported. -/
structure Continues (p : Pending) (s s' : PowerSubsystem) : Prop where
  pending : ∃ q, s'.pending = some q ∧ q.request = p.request ∧ q.expected = p.expected ∧
    q.round = p.round
  queued : s'.requestQueue.head? = some p.request
  silent : ∃ os, s'.out = s.out ++ os ∧ ∀ status machineName unresponsive nack,
    .slaveAckStatus status machineName unresponsive nack ∉ os

/-- The round `p` ends: the status and the response are published with what `es` come to, and the
round in progress, if there is one, is another. -/
structure Ends (p : Pending) (es : List PowerEvent) (s s' : PowerSubsystem) : Prop where
  report : ∃ status unresponsive nack ok errorMessage rest, s'.out = s.out ++
      [.slaveAckStatus status p.request.machineName unresponsive nack,
        .setStateRsp p.request.seq p.request.corrId p.request.src ok errorMessage] ++ rest ∧
    Report p.expected es status unresponsive nack ok
  another : s'.pending.map Pending.round ≠ some p.round

end PowerSubsystem

section Lists

theorem mem_sorted {m : String} {l : List String} : m ∈ sorted l ↔ m ∈ l :=
  List.mem_insertionSort (· ≤ ·)

theorem sorted_pairwise {l : List String} (h : l.Nodup) : (sorted l).Pairwise (· < ·) := by
  have hle : (sorted l).Pairwise (· ≤ ·) := List.pairwise_insertionSort (· ≤ ·) l
  have hne : (sorted l).Nodup := (List.perm_insertionSort (· ≤ ·) l).nodup_iff.mpr h
  exact hle.imp₂ (fun _ _ hle hne => lt_of_le_of_ne hle hne) hne

theorem mem_addTo {m x : String} {l : List String} : x ∈ addTo m l ↔ x ∈ l ∨ x = m := by
  unfold addTo
  split
  · constructor
    · exact .inl
    · rintro (hx | rfl)
      · exact hx
      · assumption
  · simp

theorem nodup_addTo {m : String} {l : List String} (h : l.Nodup) : (addTo m l).Nodup := by
  unfold addTo
  split
  · exact h
  · rename_i hm
    rw [← List.concat_eq_append]
    exact h.concat hm

end Lists

section Events

variable {m : String} {r : Response} {e : PowerEvent} {es : List PowerEvent}
  {expected : List String}

theorem answered_concat : Answered m r (es ++ [e]) ↔
    Answered m r es ∨ e = .slaveAck m r ∨ e = .powerForceSlaveAck m r := by
  simp only [Answered, List.mem_append, List.mem_singleton, eq_comm (a := e)]
  tauto

def NoAnswer (e : PowerEvent) (m : String) : Prop :=
  ∀ r, e ≠ .slaveAck m r ∧ e ≠ .powerForceSlaveAck m r

theorem NoAnswer.answered_concat (h : NoAnswer e m) :
    Answered m r (es ++ [e]) ↔ Answered m r es := by
  rw [Power.answered_concat]
  exact or_iff_left (not_or.mpr (h r))

theorem over_concat_of_noAnswer (h : ∀ m ∈ expected, NoAnswer e m)
    (ht : ∀ uuid, e ≠ .powerAckTimeout uuid) :
    Over expected (es ++ [e]) ↔ Over expected es := by
  have htimeout : (∃ uuid, .powerAckTimeout uuid ∈ es ++ [e]) ↔
      ∃ uuid, .powerAckTimeout uuid ∈ es := by
    simp only [List.mem_append, List.mem_singleton]
    exact exists_congr (fun uuid => or_iff_left (ht uuid).symm)
  have hnack : (∃ m ∈ expected, Answered m .nack (es ++ [e])) ↔
      ∃ m ∈ expected, Answered m .nack es :=
    exists_congr (fun m => and_congr_right (fun hm => (h m hm).answered_concat))
  have hack : (∀ m ∈ expected, Answered m .ack (es ++ [e])) ↔
      ∀ m ∈ expected, Answered m .ack es :=
    forall₂_congr (fun m hm => (h m hm).answered_concat)
  rw [Over, htimeout, hnack, hack, Over]

end Events
/-- What the round has counted is what the awaited machines have answered. -/
structure Tallied (p : Pending) (es : List PowerEvent) : Prop where
  awaited : p.expected ≠ []
  nodup_expected : p.expected.Nodup
  nodup_nacked : p.nacked.Nodup
  acked : ∀ m, m ∈ p.acked ↔ m ∈ p.expected ∧ Answered m .ack es
  nacked : ∀ m, m ∈ p.nacked ↔ m ∈ p.expected ∧ Answered m .nack es

namespace Tallied

variable {p : Pending} {es : List PowerEvent} {e : PowerEvent} {m : String} {r : Response}

theorem other (h : Tallied p es) (he : ∀ m ∈ p.expected, NoAnswer e m) :
    Tallied p (es ++ [e]) := by
  have hsame : ∀ r m, m ∈ p.expected ∧ Answered m r es ↔
      m ∈ p.expected ∧ Answered m r (es ++ [e]) :=
    fun r m => and_congr_right (fun hm => (he m hm).answered_concat.symm)
  exact ⟨h.awaited, h.nodup_expected, h.nodup_nacked, fun m => (h.acked m).trans (hsame .ack m),
    fun m => (h.nacked m).trans (hsame .nack m)⟩

theorem answer (h : Tallied p es) (he : e = .slaveAck m r ∨ e = .powerForceSlaveAck m r)
    (hm : m ∈ p.expected) : Tallied (p.answer m r) (es ++ [e]) := by
  have hanswered : ∀ m' r', Answered m' r' (es ++ [e]) ↔
      Answered m' r' es ∨ (m' = m ∧ r' = r) := by
    intro m' r'
    rw [answered_concat]
    rcases he with rfl | rfl <;> simp [eq_comm]
  have hcount : ∀ r' m' (l : List String), (m' ∈ l ↔ m' ∈ p.expected ∧ Answered m' r' es) →
      (m' ∈ (if r' = r then addTo m l else l) ↔
        m' ∈ p.expected ∧ Answered m' r' (es ++ [e])) := by
    intro r' m' l hl
    rw [hanswered]
    by_cases hr : r' = r
    · rw [if_pos hr, mem_addTo, hl]
      constructor
      · rintro (⟨hm', ha⟩ | rfl)
        · exact ⟨hm', .inl ha⟩
        · exact ⟨hm, .inr ⟨rfl, hr⟩⟩
      · rintro ⟨hm', ha | ⟨rfl, -⟩⟩
        · exact .inl ⟨hm', ha⟩
        · exact .inr rfl
    · rw [if_neg hr, hl, or_iff_left (fun hsame => hr hsame.2)]
  cases r with
  | ack =>
    exact ⟨h.awaited, h.nodup_expected, h.nodup_nacked,
      fun m' => hcount .ack m' p.acked (h.acked m'),
      fun m' => hcount .nack m' p.nacked (h.nacked m')⟩
  | nack =>
    exact ⟨h.awaited, h.nodup_expected, nodup_addTo h.nodup_nacked,
      fun m' => hcount .ack m' p.acked (h.acked m'),
      fun m' => hcount .nack m' p.nacked (h.nacked m')⟩

theorem finishes_iff (h : Tallied p es) (hopen : ¬ Over p.expected es)
    (he : e = .slaveAck m r ∨ e = .powerForceSlaveAck m r) (hm : m ∈ p.expected) :
    (p.answer m r).finishes r = true ↔ Over p.expected (es ++ [e]) := by
  have hexpected : (p.answer m r).expected = p.expected := p.answer_expected m r
  have hafter := h.answer he hm
  cases r with
  | nack =>
    refine ⟨fun _ => .inr (.inl ⟨m, hm, ?_⟩), fun _ => rfl⟩
    exact answered_concat.mpr (.inr he)
  | ack =>
    have hnot : ∀ m' ∈ p.expected, ¬ Answered m' .nack (es ++ [e]) := by
      intro m' hm' hnack
      have hbefore : m' ∈ p.nacked := (hafter.nacked m').mpr ⟨hm', hnack⟩
      exact hopen (.inr (.inl ⟨m', (h.nacked m').mp hbefore⟩))
    have htimeout : ¬ ∃ uuid, .powerAckTimeout uuid ∈ es ++ [e] := by
      rintro ⟨uuid, hmem⟩
      rcases List.mem_append.mp hmem with hold | hnew
      · exact hopen (.inl ⟨uuid, hold⟩)
      · rcases he with rfl | rfl <;> simp at hnew
    rw [Pending.finishes, List.all_eq_true]
    simp only [decide_eq_true_eq]
    constructor
    · intro hall
      exact .inr (.inr (fun m' hm' => ((hafter.acked m').mp (hall m' hm')).2))
    · rintro (htime | ⟨m', hm', hnack⟩ | hall)
      · exact absurd htime htimeout
      · exact absurd hnack (hnot m' hm')
      · intro m' hm'
        exact (hafter.acked m').mpr ⟨hm', hall m' hm'⟩

theorem mem_noack (h : Tallied p es) :
    m ∈ p.noack ↔ m ∈ p.expected ∧ ∀ r, ¬ Answered m r es := by
  unfold Pending.noack
  rw [List.mem_filter, decide_eq_true_eq, h.acked, h.nacked]
  constructor
  · rintro ⟨hm, hack, hnack⟩
    refine ⟨hm, ?_⟩
    intro r
    cases r with
    | ack => exact fun ha => hack ⟨hm, ha⟩
    | nack => exact fun ha => hnack ⟨hm, ha⟩
  · rintro ⟨hm, hnone⟩
    exact ⟨hm, fun ha => hnone .ack ha.2, fun ha => hnone .nack ha.2⟩

theorem ok_iff (h : Tallied p es) :
    p.ok = true ↔ ∀ m ∈ p.expected, Answered m .ack es ∧ ¬ Answered m .nack es := by
  unfold Pending.ok
  rw [decide_eq_true_eq, List.eq_nil_iff_forall_not_mem, List.eq_nil_iff_forall_not_mem]
  constructor
  · rintro ⟨hnoack, hnacked⟩ m hm
    have hnack : ¬ Answered m .nack es := fun ha => hnacked m ((h.nacked m).mpr ⟨hm, ha⟩)
    refine ⟨?_, hnack⟩
    by_contra hack
    refine hnoack m (h.mem_noack.mpr ⟨hm, ?_⟩)
    intro r
    cases r with
    | ack => exact hack
    | nack => exact hnack
  · intro hall
    constructor
    · intro m hm
      obtain ⟨hexp, hnone⟩ := h.mem_noack.mp hm
      exact hnone .ack (hall m hexp).1
    · intro m hm
      obtain ⟨hexp, hnack⟩ := (h.nacked m).mp hm
      exact (hall m hexp).2 hnack

theorem report (h : Tallied p es) {status : RoundStatus}
    (hstatus : status = .timeout ↔ ∃ uuid, .powerAckTimeout uuid ∈ es) :
    Report p.expected es status (sorted p.noack) (sorted p.nacked) p.ok := by
  refine ⟨hstatus, ?_, ?_, ?_, ?_, sorted_pairwise h.nodup_nacked, h.ok_iff⟩
  · intro m
    rw [mem_sorted]
    exact h.nacked m
  · intro m
    rw [mem_sorted]
    exact h.mem_noack
  · intro m hnoack hnacked
    obtain ⟨-, hnone⟩ := h.mem_noack.mp (mem_sorted.mp hnoack)
    exact hnone .nack ((h.nacked m).mp (mem_sorted.mp hnacked)).2
  · exact sorted_pairwise (h.nodup_expected.filter _)

end Tallied

namespace PowerSubsystem

variable {s s' : PowerSubsystem} {p : Pending} {es : List PowerEvent} {e : PowerEvent}

/-- The round in progress, if there is one, has begun since, and no answer is counted in it. -/
def NewRound (since : ℕ) (s' : PowerSubsystem) : Prop :=
  ∀ q, s'.pending = some q → Tallied q [] ∧ since ≤ q.round ∧ q.round < s'.nextUuid

theorem nodup_changed (hreg : s.registeredMachines.Nodup) (r : QueuedRequest) :
    (s.changed r).Nodup := by
  refine List.Nodup.filter _ ?_
  unfold resolveTargets
  split
  · exact (List.perm_insertionSort (· ≤ ·) s.registeredMachines).nodup_iff.mpr hreg
  · split
    · exact List.nodup_singleton _
    · exact List.nodup_singleton _

theorem closeRound_nextUuid_le (status : RoundStatus) (p : Pending) (s : PowerSubsystem) :
    s.nextUuid ≤ (s.closeRound status p).nextUuid := by
  unfold closeRound
  dsimp only
  split
  · exact Nat.le_succ _
  · exact Nat.le_refl _

theorem processNextQueued_registeredMachines (q : List QueuedRequest) (s : PowerSubsystem) :
    (processNextQueued q s).registeredMachines = s.registeredMachines := by
  induction q generalizing s with
  | nil => rfl
  | cons r rest ih =>
    unfold processNextQueued
    dsimp only
    split
    · rw [ih, closeRound_registeredMachines]
      rfl
    · rfl

theorem newRound_processNextQueued (q : List QueuedRequest) (s : PowerSubsystem)
    (hreg : s.registeredMachines.Nodup) (hnone : q = [] → s.pending = none) :
    NewRound s.nextUuid (processNextQueued q s) := by
  induction q generalizing s with
  | nil =>
    intro p hp
    rw [processNextQueued, hnone rfl] at hp
    cases hp
  | cons r rest ih =>
    unfold processNextQueued
    dsimp only
    split
    · have hnext := ih ((s.beginRound r).2.closeRound .complete (s.beginRound r).1)
        (by rw [closeRound_registeredMachines]; exact hreg) (fun _ => closeRound_pending _ _ _)
      intro p hp
      obtain ⟨htally, hle, hlt⟩ := hnext p hp
      exact ⟨htally, (closeRound_nextUuid_le .complete _ (s.beginRound r).2).trans hle, hlt⟩
    · rename_i hexp
      intro p hp
      obtain rfl : (s.beginRound r).1 = p := Option.some.inj hp
      refine ⟨⟨hexp, ?_, List.nodup_nil, ?_, ?_⟩, Nat.le_refl _, Nat.lt_succ_self _⟩
      · simp only [beginRound]
        split
        · exact List.nodup_nil
        · exact nodup_changed hreg r
      · intro m
        simp [beginRound, Answered]
      · intro m
        simp [beginRound, Answered]

theorem newRound_finish {since : ℕ} (hsince : since ≤ s.nextUuid)
    (hreg : s.registeredMachines.Nodup) (status : RoundStatus) (p : Pending) :
    NewRound since (s.finishSetStateRound status p) := by
  have hnext := newRound_processNextQueued (s.closeRound status p).requestQueue
    (s.closeRound status p) (by rw [closeRound_registeredMachines]; exact hreg)
    (fun _ => closeRound_pending _ _ _)
  intro q hq
  obtain ⟨htally, hle, hlt⟩ := hnext q hq
  exact ⟨htally, hsince.trans ((closeRound_nextUuid_le status p s).trans hle), hlt⟩

/-- The round `p`, as `q` when it is finished, ends with the outcome of `es`. -/
theorem ends_finish {s₀ : PowerSubsystem} {q : Pending} (hout : s.out = s₀.out)
    (hreg : s.registeredMachines.Nodup) (hround : p.round < s.nextUuid)
    (hrequest : q.request = p.request) (hexpected : q.expected = p.expected) (hq : Tallied q es)
    {status : RoundStatus} (hstatus : status = .timeout ↔ ∃ uuid, .powerAckTimeout uuid ∈ es) :
    Ends p es s₀ (s.finishSetStateRound status q) := by
  refine ⟨?_, ?_⟩
  · obtain ⟨-, ⟨rest, hrest⟩, -⟩ := renews_processNextQueued (s.closeRound status q).requestQueue
      (s.closeRound status q) (fun _ => closeRound_pending _ _ _)
    rw [closeRound_out, Pending.statusInd, if_neg hq.awaited, Pending.rsp, hrequest, hout] at hrest
    refine ⟨status, sorted q.noack, sorted q.nacked, q.ok, _, rest, hrest.symm, ?_⟩
    rw [← hexpected]
    exact hq.report hstatus
  · intro hsame
    obtain ⟨next, hnext, heq⟩ := Option.map_eq_some_iff.mp hsame
    have hle := (newRound_finish (Nat.le_refl _) hreg status q next hnext).2.1
    omega

/-- What handling an event makes of the round in progress, with what has been counted in it. -/
structure Follows (p : Pending) (es : List PowerEvent) (s s' : PowerSubsystem) : Prop where
  goes_on : ¬ Over p.expected es → Continues p s s' ∧
    ∀ q, s'.pending = some q → Tallied q es ∧ q.round < s'.nextUuid
  ends : Over p.expected es → Ends p es s s' ∧ NewRound s.nextUuid s'

theorem follows_of_same (hp : s.pending = some p) (hacc : s.Accounted) (hq : Tallied p es)
    (hopen : ¬ Over p.expected es) (hround : p.round < s.nextUuid)
    (hpending : s'.pending = s.pending)
    (hqueue : s'.requestQueue.head? = s.requestQueue.head?) (hnext : s'.nextUuid = s.nextUuid)
    (hout : ∃ os, s'.out = s.out ++ os ∧ ∀ status machineName unresponsive nack,
      .slaveAckStatus status machineName unresponsive nack ∉ os) : Follows p es s s' := by
  refine ⟨fun _ => ⟨⟨⟨p, ?_, rfl, rfl, rfl⟩, ?_, hout⟩, ?_⟩, fun hover => absurd hover hopen⟩
  · rw [hpending, hp]
  · have hal := hacc.aligned
    rw [Aligned, hp] at hal
    rw [hqueue, ← hal]
    rfl
  · intro q hq'
    rw [hpending, hp] at hq'
    obtain rfl := Option.some.inj hq'
    rw [hnext]
    exact ⟨hq, hround⟩

theorem follows_recordAck {m : String} {r : Response}
    (he : e = .slaveAck m r ∨ e = .powerForceSlaveAck m r) (hp : s.pending = some p)
    (hacc : s.Accounted) (hreg : s.registeredMachines.Nodup) (hq : Tallied p es)
    (hopen : ¬ Over p.expected es) (hround : p.round < s.nextUuid) :
    Follows p (es ++ [e]) s (s.recordAck m r) := by
  have htimeout : ∀ uuid, e ≠ .powerAckTimeout uuid := by
    rintro uuid rfl
    rcases he with he | he <;> cases he
  have hnotime : ¬ ∃ uuid, .powerAckTimeout uuid ∈ es ++ [e] := by
    rintro ⟨uuid, hmem⟩
    rcases List.mem_append.mp hmem with hold | hnew
    · exact hopen (.inl ⟨uuid, hold⟩)
    · exact htimeout uuid (List.mem_singleton.mp hnew).symm
  unfold recordAck
  rw [hp]
  dsimp only
  by_cases hm : m ∈ p.expected
  · have hfinishes := hq.finishes_iff hopen he hm
    have hafter := hq.answer he hm
    rw [if_neg (not_not.mpr hm)]
    split
    · rename_i hfin
      have hover := hfinishes.mp hfin
      refine ⟨fun hnot => absurd hover hnot, fun _ => ⟨?_, ?_⟩⟩
      · apply ends_finish
        · rfl
        · exact hreg
        · exact hround
        · exact p.answer_request m r
        · exact p.answer_expected m r
        · exact hafter
        · refine iff_of_false ?_ hnotime
          simp
      · apply newRound_finish
        · exact Nat.le_refl _
        · exact hreg
    · rename_i hfin
      refine ⟨fun _ => ⟨⟨⟨p.answer m r, rfl, p.answer_request m r, p.answer_expected m r,
        p.answer_round m r⟩, ?_, [], (List.append_nil _).symm, ?_⟩, ?_⟩,
        fun hover => absurd (hfinishes.mpr hover) hfin⟩
      · have hal := hacc.aligned
        rw [Aligned, hp] at hal
        exact hal.symm
      · intro status machineName unresponsive nack
        exact List.not_mem_nil
      · intro q hq'
        obtain rfl : p.answer m r = q := Option.some.inj hq'
        rw [Pending.answer_round]
        exact ⟨hafter, hround⟩
  · have hno : ∀ m' ∈ p.expected, NoAnswer e m' := by
      intro m' hm' r'
      refine ⟨?_, ?_⟩ <;> rintro rfl <;> rcases he with he | he <;> cases he <;> exact hm hm'
    rw [if_pos hm]
    refine follows_of_same hp hacc (hq.other hno) ?_ hround rfl rfl rfl
      ⟨[], (List.append_nil _).symm, fun _ _ _ _ => List.not_mem_nil⟩
    rw [over_concat_of_noAnswer hno htimeout]
    exact hopen

theorem follows_onAckTimeout (uuid : ℕ) (hp : s.pending = some p)
    (hreg : s.registeredMachines.Nodup) (hq : Tallied p es) (hround : p.round < s.nextUuid) :
    Follows p (es ++ [PowerEvent.powerAckTimeout uuid]) s (s.onAckTimeout uuid) := by
  have hmem : PowerEvent.powerAckTimeout uuid ∈ es ++ [PowerEvent.powerAckTimeout uuid] :=
    List.mem_append_right _ (List.mem_singleton_self _)
  unfold onAckTimeout
  rw [hp]
  refine ⟨fun hnot => absurd (.inl ⟨uuid, hmem⟩) hnot, fun _ => ⟨?_, ?_⟩⟩
  · apply ends_finish
    · rfl
    · exact hreg
    · exact hround
    · rfl
    · rfl
    · apply hq.other
      intro m _ r
      simp
    · exact ⟨fun _ => ⟨uuid, hmem⟩, fun _ => rfl⟩
  · apply newRound_finish
    · exact Nat.le_refl _
    · exact hreg

def isOther : PowerEvent → Bool
  | .slaveAck _ _ | .powerForceSlaveAck _ _ | .powerAckTimeout _ => false
  | _ => true

theorem follows_other (he : isOther e = true) (hp : s.pending = some p) (hacc : s.Accounted)
    (hq : Tallied p es) (hopen : ¬ Over p.expected es) (hround : p.round < s.nextUuid)
    (hpending : s'.pending = s.pending)
    (hqueue : s'.requestQueue.head? = s.requestQueue.head?) (hnext : s'.nextUuid = s.nextUuid)
    (hout : ∃ os, s'.out = s.out ++ os ∧ ∀ status machineName unresponsive nack,
      .slaveAckStatus status machineName unresponsive nack ∉ os) :
    Follows p (es ++ [e]) s s' := by
  have hno : ∀ m ∈ p.expected, NoAnswer e m := by
    intro m _ r
    refine ⟨?_, ?_⟩ <;> rintro rfl <;> cases he
  refine follows_of_same hp hacc (hq.other hno) ?_ hround hpending hqueue hnext hout
  rw [over_concat_of_noAnswer hno]
  · exact hopen
  · rintro uuid rfl
    cases he

theorem follows_handle (e : PowerEvent) (hp : s.pending = some p) (hacc : s.Accounted)
    (hreg : s.registeredMachines.Nodup) (hq : Tallied p es) (hopen : ¬ Over p.expected es)
    (hround : p.round < s.nextUuid) : Follows p (es ++ [e]) s (s.handle e) := by
  have hsilent : ∀ {o : Out}, (∀ status machineName unresponsive nack,
      o ≠ .slaveAckStatus status machineName unresponsive nack) →
      ∃ os, s.out ++ [o] = s.out ++ os ∧ ∀ status machineName unresponsive nack,
        .slaveAckStatus status machineName unresponsive nack ∉ os := by
    intro o ho
    refine ⟨[o], rfl, ?_⟩
    intro status machineName unresponsive nack hmem
    exact ho _ _ _ _ (List.mem_singleton.mp hmem).symm
  have hquiet : ∃ os, s.out = s.out ++ os ∧ ∀ status machineName unresponsive nack,
      .slaveAckStatus status machineName unresponsive nack ∉ os :=
    ⟨[], (List.append_nil _).symm, fun _ _ _ _ => List.not_mem_nil⟩
  have hother : ∀ {s' : PowerSubsystem}, isOther e = true → s'.pending = s.pending →
      s'.requestQueue.head? = s.requestQueue.head? → s'.nextUuid = s.nextUuid →
      (∃ os, s'.out = s.out ++ os ∧ ∀ status machineName unresponsive nack,
        .slaveAckStatus status machineName unresponsive nack ∉ os) →
      Follows p (es ++ [e]) s s' :=
    fun he => follows_other he hp hacc hq hopen hround
  cases e with
  | slaveAck m r => exact follows_recordAck (.inl rfl) hp hacc hreg hq hopen hround
  | powerForceSlaveAck m r => exact follows_recordAck (.inr rfl) hp hacc hreg hq hopen hround
  | powerAckTimeout uuid => exact follows_onAckTimeout uuid hp hreg hq hround
  | setState state m corrId src =>
    obtain ⟨r, -, -, -, ⟨reason, heq⟩ | ⟨hempty, -⟩ | ⟨hne, heq⟩⟩ :=
      handleSetState_cases state m corrId src s
    · rw [handle, heq]
      exact hother rfl rfl rfl rfl (hsilent (by simp [rejection]))
    · rw [hacc.pending_none hempty] at hp
      cases hp
    · rw [handle, heq]
      exact hother rfl rfl (List.head?_append_of_ne_nil _ hne) rfl hquiet
  | getMachineNames corrId src => exact hother rfl rfl rfl rfl (hsilent (by simp))
  | powerAddMachine m =>
    simp only [handle, applyAddMachine]
    split
    · exact hother rfl rfl rfl rfl hquiet
    · exact hother rfl rfl rfl rfl (hsilent (by simp))
  | powerRemoveMachine m =>
    simp only [handle, applyRemoveMachine]
    split
    · exact hother rfl rfl rfl rfl hquiet
    · exact hother rfl rfl rfl rfl (hsilent (by simp))
  | powerFTimeout => exact hother rfl rfl rfl rfl (hsilent (by simp))

/-- With no round in progress answers and timeouts are ignored. -/
theorem ignored_of_pending_none (hp : s.pending = none) (m : String) (r : Response) (uuid : ℕ) :
    s.handle (.slaveAck m r) = s ∧ s.handle (.powerForceSlaveAck m r) = s ∧
      s.handle (.powerAckTimeout uuid) = s := by
  simp only [handle, recordAck, onAckTimeout, hp, and_self]

/-- With no round in progress the one that an event starts is new. -/
theorem newRound_handle (e : PowerEvent) (hp : s.pending = none)
    (hreg : s.registeredMachines.Nodup) : NewRound s.nextUuid (s.handle e) := by
  have hsame : ∀ {s' : PowerSubsystem}, s'.pending = s.pending → NewRound s.nextUuid s' := by
    intro s' hs' q hq
    rw [hs', hp] at hq
    cases hq
  cases e with
  | setState state m corrId src =>
    obtain ⟨r, -, -, -, ⟨reason, heq⟩ | ⟨-, heq⟩ | ⟨-, heq⟩⟩ :=
      handleSetState_cases state m corrId src s
    · rw [handle, heq]
      exact hsame rfl
    · rw [handle, heq]
      exact newRound_processNextQueued (s.enqueue r).requestQueue (s.enqueue r) hreg (fun _ => hp)
    · rw [handle, heq]
      exact hsame rfl
  | slaveAck m r =>
    rw [(ignored_of_pending_none hp m r 0).1]
    exact hsame rfl
  | powerForceSlaveAck m r =>
    rw [(ignored_of_pending_none hp m r 0).2.1]
    exact hsame rfl
  | powerAckTimeout uuid =>
    rw [(ignored_of_pending_none hp localMachine .ack uuid).2.2]
    exact hsame rfl
  | getMachineNames corrId src => exact hsame rfl
  | powerAddMachine m =>
    simp only [handle, applyAddMachine]
    split
    · exact hsame rfl
    · exact hsame rfl
  | powerRemoveMachine m =>
    simp only [handle, applyRemoveMachine]
    split
    · exact hsame rfl
    · exact hsame rfl
  | powerFTimeout => exact hsame rfl

theorem finish_registeredMachines (status : RoundStatus) (p : Pending) (s : PowerSubsystem) :
    (s.finishSetStateRound status p).registeredMachines = s.registeredMachines := by
  rw [finishSetStateRound, processNextQueued_registeredMachines, closeRound_registeredMachines]

theorem nodup_recordAck (hreg : s.registeredMachines.Nodup) (m : String) (r : Response) :
    (s.recordAck m r).registeredMachines.Nodup := by
  unfold recordAck
  split
  · exact hreg
  · split
    · exact hreg
    · dsimp only
      split
      · rw [finish_registeredMachines]
        exact hreg
      · exact hreg

theorem nodup_handle (e : PowerEvent) (hreg : s.registeredMachines.Nodup) :
    (s.handle e).registeredMachines.Nodup := by
  cases e with
  | setState state m corrId src =>
    obtain ⟨r, -, -, -, ⟨reason, heq⟩ | ⟨-, heq⟩ | ⟨-, heq⟩⟩ :=
      handleSetState_cases state m corrId src s
    · rw [handle, heq]
      exact hreg
    · rw [handle, heq, processNextQueued_registeredMachines]
      exact hreg
    · rw [handle, heq]
      exact hreg
  | slaveAck m r => exact nodup_recordAck hreg m r
  | powerForceSlaveAck m r => exact nodup_recordAck hreg m r
  | powerAckTimeout uuid =>
    simp only [handle, onAckTimeout]
    split
    · exact hreg
    · rw [finish_registeredMachines]
      exact hreg
  | getMachineNames corrId src => exact hreg
  | powerAddMachine m =>
    simp only [handle, applyAddMachine]
    split
    · exact hreg
    · rename_i hm
      simp only [publish, ← List.concat_eq_append]
      exact hreg.concat hm
  | powerRemoveMachine m =>
    simp only [handle, applyRemoveMachine]
    split
    · exact hreg
    · exact hreg.erase m
  | powerFTimeout => exact hreg

end PowerSubsystem

namespace RoundLog

variable {h h' : RoundLog} {l : PowerSubsystem.Label}

structure Kept (h : RoundLog) : Prop where
  accounted : h.sub.Accounted
  registered : h.sub.registeredMachines.Nodup
  tallied : ∀ p, h.sub.pending = some p →
    Tallied p h.events ∧ ¬ Over p.expected h.events ∧ p.round < h.sub.nextUuid

theorem initial_kept (localMachineName : String) : (initial localMachineName).Kept := by
  refine ⟨PowerSubsystem.initial_accounted _, List.nodup_singleton _, ?_⟩
  intro p hp
  cases hp

theorem not_over_nil {p : Pending} (hp : Tallied p []) : ¬ Over p.expected [] := by
  rintro (⟨uuid, hmem⟩ | ⟨m, -, hmem⟩ | hall)
  · cases hmem
  · rcases hmem with hmem | hmem <;> cases hmem
  · obtain ⟨m, hm⟩ := List.exists_mem_of_ne_nil _ hp.awaited
    rcases hall m hm with hmem | hmem <;> cases hmem

theorem step_sub (hstep : h.step l = some h') : h.sub.step l = some h'.sub ∧
    h'.events = if h'.sub.pending.map Pending.round = h.sub.pending.map Pending.round
      then h.events ++ h.handles l else [] := by
  obtain ⟨s, hs, rfl⟩ := Option.map_eq_some_iff.mp hstep
  by_cases hsame : s.pending.map Pending.round = h.sub.pending.map Pending.round
  · simp only [if_pos hsame]
    exact ⟨hs, trivial⟩
  · simp only [if_neg hsame]
    exact ⟨hs, trivial⟩

theorem step_follows (hk : h.Kept) (hstep : h.step l = some h') {p : Pending}
    (hp : h.sub.pending = some p) :
    PowerSubsystem.Follows p (h.events ++ h.handles l) h.sub h'.sub := by
  obtain ⟨hs, -⟩ := step_sub hstep
  obtain ⟨hq, hopen, hround⟩ := hk.tallied p hp
  have hquiet : ∀ {s' : PowerSubsystem}, s'.out = h.sub.out →
      ∃ os, s'.out = h.sub.out ++ os ∧ ∀ status machineName unresponsive nack,
        .slaveAckStatus status machineName unresponsive nack ∉ os :=
    fun hout => ⟨[], by rw [hout, List.append_nil], fun _ _ _ _ => List.not_mem_nil⟩
  rcases PowerSubsystem.step_cases hs with ⟨e, rfl, -, -, heq⟩ | ⟨uuid, t, rfl, -, heq⟩ |
    ⟨e, rest, rfl, hfifo, heq⟩
  · rw [handles, List.append_nil, heq]
    exact PowerSubsystem.follows_of_same hp hk.accounted hq hopen hround rfl rfl rfl (hquiet rfl)
  · rw [handles, List.append_nil, heq]
    exact PowerSubsystem.follows_of_same hp hk.accounted hq hopen hround rfl rfl rfl (hquiet rfl)
  · obtain ⟨haligned, hnumbered, hbalanced⟩ := hk.accounted
    have hpopped : ({ h.sub with fifo := rest } : PowerSubsystem).Accounted :=
      ⟨haligned, hnumbered, hbalanced⟩
    have hfollows := PowerSubsystem.follows_handle e (s := { h.sub with fifo := rest }) hp hpopped
      hk.registered hq hopen hround
    rw [handles, hfifo, heq]
    obtain ⟨hgoes, hends⟩ := hfollows
    refine ⟨fun hnot => ?_, fun hover => ?_⟩
    · obtain ⟨⟨hpending, hqueued, hsilent⟩, htally⟩ := hgoes hnot
      exact ⟨⟨hpending, hqueued, hsilent⟩, htally⟩
    · obtain ⟨⟨hreport, hanother⟩, hnew⟩ := hends hover
      exact ⟨⟨hreport, hanother⟩, hnew⟩

theorem step_new (hk : h.Kept) (hs : h.sub.step l = some h'.sub) :
    h'.sub.registeredMachines.Nodup ∧
      (h.sub.pending = none → PowerSubsystem.NewRound h.sub.nextUuid h'.sub) := by
  have hsame : ∀ {s' : PowerSubsystem}, s'.pending = h.sub.pending → h.sub.pending = none →
      PowerSubsystem.NewRound h.sub.nextUuid s' := by
    intro s' hs' hnone q hq
    rw [hs', hnone] at hq
    cases hq
  rcases PowerSubsystem.step_cases hs with ⟨e, rfl, -, -, heq⟩ | ⟨uuid, t, rfl, -, heq⟩ |
    ⟨e, rest, rfl, hfifo, heq⟩
  · rw [heq]
    exact ⟨hk.registered, hsame rfl⟩
  · rw [heq]
    exact ⟨hk.registered, hsame rfl⟩
  · rw [heq]
    exact ⟨PowerSubsystem.nodup_handle e (s := { h.sub with fifo := rest }) hk.registered,
      fun hnone => PowerSubsystem.newRound_handle e (s := { h.sub with fifo := rest }) hnone
        hk.registered⟩

theorem step_kept (hk : h.Kept) (hstep : h.step l = some h') : h'.Kept := by
  have hfollows := fun p (hp : h.sub.pending = some p) => step_follows hk hstep hp
  obtain ⟨hs, hevents⟩ := step_sub hstep
  obtain ⟨hregistered, hnone⟩ := step_new hk hs
  refine ⟨PowerSubsystem.Accounted.step _ l _ hk.accounted hs, hregistered, ?_⟩
  have hbegun : PowerSubsystem.NewRound h.sub.nextUuid h'.sub → ∀ q, h'.sub.pending = some q →
      h'.sub.pending.map Pending.round ≠ h.sub.pending.map Pending.round →
      Tallied q h'.events ∧ ¬ Over q.expected h'.events ∧ q.round < h'.sub.nextUuid := by
    intro hnew q hq hne
    obtain ⟨htally, -, hlt⟩ := hnew q hq
    rw [hevents, if_neg hne]
    exact ⟨htally, not_over_nil htally, hlt⟩
  intro q hq
  cases hp : h.sub.pending with
  | none =>
    refine hbegun (hnone hp) q hq ?_
    rw [hq, hp]
    simp
  | some p =>
    obtain ⟨hgoes, hends⟩ := hfollows p hp
    by_cases hover : Over p.expected (h.events ++ h.handles l)
    · obtain ⟨hended, hnew⟩ := hends hover
      refine hbegun hnew q hq ?_
      rw [hp]
      exact hended.another
    · obtain ⟨⟨⟨q', hq', -, hexpected, hround⟩, -, -⟩, htally⟩ := hgoes hover
      obtain rfl := Option.some.inj (hq'.symm.trans hq)
      have hsame : h'.sub.pending.map Pending.round = h.sub.pending.map Pending.round := by
        rw [hq, hp, Option.map_some, Option.map_some, hround]
      rw [hevents, if_pos hsame, hexpected]
      exact ⟨(htally q' hq).1, hover, (htally q' hq).2⟩

/-- In every run a round that awaits ACKs goes on until the last of them, the first NACK of an
awaited machine or an ack timeout is handled, and ends there with the outcome of the events handled
in it; with no round in progress answers and timeouts are ignored. -/
theorem round_ends_at_first {localMachineName : String} {ls : List PowerSubsystem.Label}
    (hrun : Trace.run step (initial localMachineName) ls = some h) :
    (∀ p, h.sub.pending = some p → p.expected ≠ [] ∧ ¬ Over p.expected h.events ∧
      ∀ l h', h.step l = some h' →
        (¬ Over p.expected (h.events ++ h.handles l) →
          PowerSubsystem.Continues p h.sub h'.sub ∧ h'.events = h.events ++ h.handles l) ∧
        (Over p.expected (h.events ++ h.handles l) →
          PowerSubsystem.Ends p (h.events ++ h.handles l) h.sub h'.sub ∧ h'.events = [])) ∧
    (h.sub.pending = none → ∀ m r uuid, h.sub.handle (.slaveAck m r) = h.sub ∧
      h.sub.handle (.powerForceSlaveAck m r) = h.sub ∧
      h.sub.handle (.powerAckTimeout uuid) = h.sub) := by
  have hk : h.Kept := Trace.run_invariant (fun _ _ _ hk hstep => step_kept hk hstep) hrun
    (initial_kept localMachineName)
  refine ⟨?_, PowerSubsystem.ignored_of_pending_none⟩
  intro p hp
  obtain ⟨hq, hopen, -⟩ := hk.tallied p hp
  refine ⟨hq.awaited, hopen, ?_⟩
  intro l h' hstep
  obtain ⟨hgoes, hends⟩ := step_follows hk hstep hp
  obtain ⟨-, hevents⟩ := step_sub hstep
  constructor
  · intro hnot
    obtain ⟨⟨⟨q, hq', hrequest, hexpected, hround⟩, hqueued, hsilent⟩, -⟩ := hgoes hnot
    refine ⟨⟨⟨q, hq', hrequest, hexpected, hround⟩, hqueued, hsilent⟩, ?_⟩
    rw [hevents, if_pos]
    rw [hq', hp, Option.map_some, Option.map_some, hround]
  · intro hover
    obtain ⟨hended, -⟩ := hends hover
    refine ⟨hended, ?_⟩
    rw [hevents, if_neg]
    rw [hp]
    exact hended.another

/-- A SUSPEND round for two machines, of which the local one acknowledges twice. -/
def suspendRun : List PowerSubsystem.Label :=
  [.post (.powerAddMachine "mdm"), .dispatch, .post (.setState .suspend "ALL_MACHINES" "c" "pa"),
    .dispatch, .post (.slaveAck "host" .ack), .post (.slaveAck "host" .ack),
    .post (.slaveAck "tcu" .nack), .post (.slaveAck "mdm" .nack), .dispatch, .dispatch, .dispatch]

/-- The round goes on until the other machine refuses. -/
theorem round_ends_at_nack : ∃ h h' p, Trace.run step (initial "host") suspendRun = some h ∧
    h.sub.pending = some p ∧ p.expected = ["host", "mdm"] ∧ h.events.length = 3 ∧
    h.step .dispatch = some h' ∧
    PowerSubsystem.Ends p (h.events ++ [.slaveAck "mdm" .nack]) h.sub h'.sub := by
  have hrun : (Trace.run step (initial "host") suspendRun).any (fun h =>
      h.sub.pending.any (fun p => p.expected = ["host", "mdm"] ∧ h.events.length = 3 ∧
        h.handles .dispatch = [.slaveAck "mdm" .nack] ∧ (h.step .dispatch).isSome)) = true := by
    decide +kernel
  simp only [Option.any_eq_true, decide_eq_true_eq] at hrun
  obtain ⟨h, hh, p, hp, hexpected, hlength, hhandles, hsome⟩ := hrun
  obtain ⟨h', hh'⟩ := Option.isSome_iff_exists.mp hsome
  obtain ⟨-, -, hsteps⟩ := (round_ends_at_first hh).1 p hp
  have hover : Over p.expected (h.events ++ h.handles .dispatch) := by
    rw [hexpected, hhandles]
    refine .inr (.inl ⟨"mdm", by simp, .inl ?_⟩)
    exact List.mem_append_right _ (List.mem_singleton_self _)
  have hends := ((hsteps .dispatch h' hh').2 hover).1
  rw [hhandles] at hends
  exact ⟨h, h', p, hh, hp, hexpected, hlength, hh', hends⟩

end RoundLog

end TelafSim.Power
