import TelafSim.TimerSound
import TelafSim.Trace

/-!
# The books of the timer service over whole runs

The first `2 ^ 64` calls of `schedule` return distinct tokens, the next one a token that is taken.
Until then the service keeps its books in every interleaving; a worker that goes back to wait has
served every timer that was due.
-/

namespace TelafSim.Timers.TimerService

variable {φ : Type}

/-- What the service keeps to. A worker that returns after a callback leaves its token behind, but
then the service is being destroyed. -/
structure Bookkeeping (s : TimerService φ) : Prop where
  keys : ∀ tok, tok ∈ s.valid.keys ↔
    (∃ it ∈ s.items, it.tok = tok) ∨ ∃ it, s.worker.held = some it ∧ it.tok = tok
  returned : ∀ left, s.worker = .returned left → s.stopping
  tokens : (issued s.log).Nodup
  invoked : ∀ it, .invoked it ∈ s.log → s.Scheduled it
  oneShot : ∀ it, .scheduled it ∈ s.log → it.period ≤ 0 → (fired s.log).count it.tok ≤ 1
  heeded : Heeded s.log

variable {s s' : TimerService φ}

/-- The tokens that the first `n` calls of `schedule` return, the last one first. -/
def handedOut (n : ℕ) : List Token := ((List.range n).map (fun i => UInt64.ofNat (i + 1))).reverse

def Counting (s : TimerService φ) : Prop :=
  s.counter = (UInt64.ofNat (issued s.log).length, handedOut (issued s.log).length)

theorem handedOut_succ (n : ℕ) : handedOut (n + 1) = UInt64.ofNat (n + 1) :: handedOut n := by
  simp [handedOut, List.range_succ]

/-- `++next_` returns to a token that is taken after `2 ^ 64` calls. -/
theorem nodup_handedOut_iff (n : ℕ) : (handedOut n).Nodup ↔ n ≤ 2 ^ 64 := by
  rw [handedOut, List.nodup_reverse, List.nodup_map_iff_inj_on List.nodup_range]
  simp only [List.mem_range, ← UInt64.toNat_inj, UInt64.toNat_ofNat']
  constructor
  · intro h
    by_contra hn
    have heq := h 0 (by omega) (2 ^ 64) (by omega) (by decide)
    omega
  · intro hn i hi j hj heq
    omega

theorem counting_step {a : Label φ} (h : s.Counting) (hstep : s.step a = some s') :
    s'.Counting := by
  have hcounter := counter_step hstep
  have hissued : issued s'.log = s'.counter.2 := rfl
  unfold Counting at h ⊢
  rw [hissued, hcounter]
  split_ifs
  · have hnext : s.next = UInt64.ofNat (issued s.log).length := congrArg Prod.fst h
    have hall : issued s.log = handedOut (issued s.log).length := congrArg Prod.snd h
    rw [List.length_cons, handedOut_succ, ← hall, hnext, UInt64.ofNat_add]
    rfl
  · exact h

theorem Sound.bookkeeping (h : s.Sound) (hdistinct : (issued s.log).Nodup) : s.Bookkeeping where
  keys tok := by
    rw [h.keys tok]
    simp [holding]
  returned := h.returned
  tokens := hdistinct
  invoked := h.invoked
  oneShot := h.oneShot
  heeded := h.heeded

theorem length_issued_of_run {l : List (Label φ)} (hrun : Trace.run step s l = some s') :
    (issued s'.log).length = (issued s.log).length + l.countP Label.isSchedule := by
  induction l generalizing s with
  | nil =>
    obtain rfl := Option.some.inj hrun
    rfl
  | cons a l ih =>
    obtain ⟨t, hstep, hrest⟩ := (Trace.run_cons_eq_some step).mp hrun
    have hissued : issued t.log = t.counter.2 := rfl
    rw [ih hrest, hissued, counter_step hstep, List.countP_cons]
    split_ifs
    · simp only [List.length_cons]
      omega
    · rfl

theorem sound_of_run {l : List (Label φ)} (hrun : Trace.run step construct l = some s) :
    s.Counting ∧ ((issued s.log).Nodup → s.Sound) := by
  refine Trace.run_invariant (I := fun s => s.Counting ∧ ((issued s.log).Nodup → s.Sound)) ?_ hrun
    ⟨rfl, fun _ => sound_construct⟩
  rintro s a s' ⟨hcounting, hsound⟩ hstep
  refine ⟨counting_step hcounting hstep, ?_⟩
  intro hdistinct
  refine sound_step hdistinct (hsound ?_) hstep
  have hcounter : issued s'.log = _ := congrArg Prod.snd (counter_step hstep)
  rw [hcounter] at hdistinct
  split_ifs at hdistinct
  · exact (List.nodup_cons.mp hdistinct).2
  · exact hdistinct

theorem nodup_issued_iff {l : List (Label φ)} (hrun : Trace.run step construct l = some s) :
    (issued s.log).Nodup ↔ l.countP Label.isSchedule ≤ 2 ^ 64 := by
  have hlength : (issued s.log).length = l.countP Label.isSchedule := by
    simpa [construct, issued] using length_issued_of_run hrun
  have hall : issued s.log = handedOut (issued s.log).length :=
    congrArg Prod.snd (sound_of_run hrun).1
  rw [hall, nodup_handedOut_iff, hlength]

theorem run_schedules (fn : φ) (first period : ℤ) (n : ℕ) (s : TimerService φ) :
    ∃ s', Trace.run step s (List.replicate n (.schedule fn first period)) = some s' := by
  induction n generalizing s with
  | zero => exact ⟨s, rfl⟩
  | succ n ih =>
    obtain ⟨s', hs'⟩ := ih (s.schedule fn first period)
    exact ⟨s', (Trace.run_cons_eq_some step).mpr ⟨_, rfl, hs'⟩⟩

/-- In every interleaving the service keeps its books as long as its counter has not wrapped. -/
theorem bookkeeping_iff {l : List (Label φ)} (hrun : Trace.run step construct l = some s) :
    s.Bookkeeping ↔ l.countP Label.isSchedule ≤ 2 ^ 64 := by
  rw [← nodup_issued_iff hrun]
  constructor
  · intro h
    exact h.tokens
  · intro hdistinct
    exact ((sound_of_run hrun).2 hdistinct).bookkeeping hdistinct

theorem bookkeeping_self_cancel : ∃ s : TimerService Unit,
    Trace.run step construct
      [.schedule () 5 10, .work 0, .work 5, .cancel 1, .schedule () 30 0, .work 7] = some s ∧
      s.worker = .sleeping ∧ s.items.map Item.tok = [2] ∧ s.Bookkeeping := by
  have hrun : (Trace.run step (construct : TimerService Unit)
      [.schedule () 5 10, .work 0, .work 5, .cancel 1, .schedule () 30 0, .work 7]).map
        (fun s => (s.worker, s.items.map Item.tok)) = some (.sleeping, [2]) := by
    decide +kernel
  obtain ⟨s, hs, heq⟩ := Option.map_eq_some_iff.mp hrun
  obtain ⟨hworker, hitems⟩ := Prod.mk.inj heq
  exact ⟨s, hs, hworker, hitems, (bookkeeping_iff hs).mpr (by decide)⟩

/-- One call too many, and a token is handed out again. -/
theorem token_reused : ∃ s : TimerService Unit,
    Trace.run step construct (List.replicate (2 ^ 64 + 1) (.schedule () 0 0)) = some s ∧
      ¬ (issued s.log).Nodup ∧ ¬ s.Bookkeeping := by
  obtain ⟨s, hs⟩ := run_schedules () 0 0 (2 ^ 64 + 1) construct
  have hnot : ¬ (issued s.log).Nodup := by
    rw [nodup_issued_iff hs, List.countP_replicate]
    simp [Label.isSchedule]
  exact ⟨s, hs, hnot, fun h => hnot h.tokens⟩

/-! ### Punctuality -/

def Ordered (items : List (Item φ)) : Prop := items.Pairwise (fun a b => a.due ≤ b.due)

theorem ordered_insertItem {items : List (Item φ)} (h : Ordered items) (it : Item φ) :
    Ordered (insertItem it items) := by
  induction items with
  | nil => exact List.pairwise_singleton _ it
  | cons x items ih =>
    obtain ⟨hx, hitems⟩ := List.pairwise_cons.mp h
    unfold insertItem
    rw [List.orderedInsert_cons]
    split_ifs with hlt
    · have hle : it.due ≤ x.due := by
        unfold Item.lt at hlt
        split_ifs at hlt <;> omega
      refine List.pairwise_cons.mpr ⟨?_, h⟩
      intro y hy
      obtain rfl | hy := List.mem_cons.mp hy
      · exact hle
      · exact hle.trans (hx y hy)
    · have hle : x.due ≤ it.due := by
        unfold Item.lt at hlt
        split_ifs at hlt <;> omega
      refine List.pairwise_cons.mpr ⟨?_, ih hitems⟩
      intro y hy
      obtain rfl | hy := mem_insertItem.mp hy
      · exact hle
      · exact hx y hy

theorem ordered_drain {items : List (Item φ)} (h : Ordered items) (now : ℤ) (s : TimerService φ) :
    Ordered (drain now items s).items := by
  induction items generalizing s with
  | nil => exact List.Pairwise.nil
  | cons it items ih =>
    unfold drain
    split_ifs
    · exact h
    · exact (List.pairwise_cons.mp h).2
    · exact ih (List.pairwise_cons.mp h).2 _

/-- Unless it stops for a callback the loop leaves nothing that is due. -/
theorem not_due_of_drain {items : List (Item φ)} (h : Ordered items) {now : ℤ}
    (hheld : (drain now items s).worker.held = none) :
    ∀ it ∈ (drain now items s).items, now < it.due := by
  induction items generalizing s with
  | nil => exact List.forall_mem_nil _
  | cons x items ih =>
    obtain ⟨hx, hitems⟩ := List.pairwise_cons.mp h
    unfold drain at hheld ⊢
    split_ifs at hheld ⊢ with hdue halive
    · intro it hit
      obtain rfl | hit := List.mem_cons.mp hit
      · exact hdue
      · exact hdue.trans_le (hx it hit)
    · cases hheld
    · exact ih hitems hheld

theorem ordered_finish (h : Ordered s.items) (it : Item φ) (now : ℤ) :
    Ordered (s.finish it now).items := by
  unfold finish
  split_ifs
  · exact ordered_insertItem h _
  · exact h

theorem ordered_step {a : Label φ} (h : Ordered s.items) (hstep : s.step a = some s') :
    Ordered s'.items := by
  cases a with
  | schedule fn first period =>
    obtain rfl := Option.some.inj hstep
    exact ordered_insertItem h _
  | cancel tok =>
    obtain rfl := Option.some.inj hstep
    exact h
  | work now =>
    obtain ⟨w, -, -, -, rfl⟩ | ⟨-, rfl⟩ | ⟨it, start, -, rfl⟩ := work_cases hstep
    · exact h
    · exact ordered_drain h now s
    · exact ordered_drain (ordered_finish h it now) start _
  | destroy =>
    obtain rfl := Option.some.inj hstep
    exact h

/-- A worker that goes back to wait has served every timer that was due. -/
theorem served {l : List (Label φ)} (hrun : Trace.run step construct l = some s)
    (hcount : l.countP Label.isSchedule ≤ 2 ^ 64) (hsleeping : s.worker = .sleeping)
    (hgo : s.stopping = false) {now : ℤ} (hwork : s.work now = some s')
    (hwaits : s'.worker.held = none) {it : Item φ} (hit : .scheduled it ∈ s'.log) :
    (∃ x ∈ s'.items, x.tok = it.tok ∧ now < x.due) ∨ s'.Over it := by
  have hdistinct : (issued s.log).Nodup := (nodup_issued_iff hrun).mpr hcount
  have hsound : s'.Sound := sound_work hdistinct ((sound_of_run hrun).2 hdistinct) hwork
  have hordered : Ordered s.items :=
    Trace.run_invariant (I := fun s : TimerService φ => Ordered s.items)
      (fun _ _ _ => ordered_step) hrun List.Pairwise.nil
  have hdrain : drain now s.items s = s' := by simpa [work, hsleeping, hgo] using hwork
  refine (hsound.kept it hit).imp_left ?_
  intro hmem
  obtain ⟨x, hx, htok⟩ := List.mem_map.mp hmem
  have hitems : x ∈ s'.items := by simpa [holding, hwaits] using hx
  subst hdrain
  exact ⟨x, hitems, htok, not_due_of_drain hordered hwaits x hitems⟩

end TelafSim.Timers.TimerService
