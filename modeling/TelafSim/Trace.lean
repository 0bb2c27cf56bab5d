import Mathlib.Tactic

/-!
# Runs of a labelled step function

A system is a state type with a partial step function on labels: `none` when the label is not
enabled. A run folds a list of labels. `AllSteps ok` says that every step of a run meets a
condition on the state before it and its label; the invariant rules carry a property that each
step preserves, with or without such a condition, along whole runs.
-/

namespace TelafSim.Trace

variable {σ α : Type*} (step : σ → α → Option σ)

def run (s : σ) (l : List α) : Option σ := l.foldlM step s

@[simp] theorem run_nil (s : σ) : run step s [] = some s := rfl

theorem run_cons (s : σ) (a : α) (l : List α) :
    run step s (a :: l) = (step s a).bind (fun s' => run step s' l) := rfl

theorem run_cons_eq_some {s t : σ} {a : α} {l : List α} :
    run step s (a :: l) = some t ↔ ∃ s', step s a = some s' ∧ run step s' l = some t := by
  rw [run_cons, Option.bind_eq_some_iff]

/-- Every step of the run meets `ok`. -/
def AllSteps (ok : σ → α → Prop) : σ → List α → Prop
  | _, [] => True
  | s, a :: l => ok s a ∧ ∀ s', step s a = some s' → AllSteps ok s' l

instance decidableAllSteps (ok : σ → α → Prop) [∀ s a, Decidable (ok s a)] :
    ∀ s l, Decidable (AllSteps step ok s l)
  | _, [] => isTrue trivial
  | s, a :: l =>
    match h : step s a with
    | none => decidable_of_iff (ok s a) (by simp [AllSteps, h])
    | some s' =>
      have := decidableAllSteps ok s' l
      decidable_of_iff (ok s a ∧ AllSteps step ok s' l) (by simp [AllSteps, h])

variable {step} {I : σ → Prop}

theorem AllSteps.imp {ok ok' : σ → α → Prop} {s : σ} {l : List α} (h : AllSteps step ok s l)
    (himp : ∀ s, ∀ a ∈ l, ok s a → ok' s a) : AllSteps step ok' s l := by
  induction l generalizing s with
  | nil => trivial
  | cons a l ih =>
    refine ⟨himp s a List.mem_cons_self h.1, ?_⟩
    intro s' hs'
    exact ih (h.2 s' hs') (fun s b hb => himp s b (List.mem_cons_of_mem a hb))

theorem allSteps_of_forall {p : α → Prop} (s : σ) {l : List α} (h : ∀ a ∈ l, p a) :
    AllSteps step (fun _ a => p a) s l := by
  induction l generalizing s with
  | nil => trivial
  | cons a l ih =>
    exact ⟨h a List.mem_cons_self, fun s' _ => ih s' (fun b hb => h b (List.mem_cons_of_mem a hb))⟩

theorem run_invariant_of {ok : σ → α → Prop}
    (hstep : ∀ s a s', I s → ok s a → step s a = some s' → I s') {s t : σ} {l : List α}
    (hok : AllSteps step ok s l) (hrun : run step s l = some t) (hs : I s) : I t := by
  induction l generalizing s with
  | nil =>
    obtain rfl : s = t := by simpa using hrun
    exact hs
  | cons a l ih =>
    obtain ⟨s', hs', hrest⟩ := (run_cons_eq_some step).mp hrun
    exact ih (hok.2 s' hs') hrest (hstep s a s' hs hok.1 hs')

theorem run_invariant (hstep : ∀ s a s', I s → step s a = some s' → I s') {s t : σ} {l : List α}
    (hrun : run step s l = some t) (hs : I s) : I t := by
  induction l generalizing s with
  | nil =>
    obtain rfl : s = t := by simpa using hrun
    exact hs
  | cons a l ih =>
    obtain ⟨s', hs', hrest⟩ := (run_cons_eq_some step).mp hrun
    exact ih hrest (hstep s a s' hs hs')

/-- Until a step misses `ok` the run keeps `I`; that step leads to `K`, which every step keeps. -/
theorem run_of_not_allSteps {ok : σ → α → Prop} {K : σ → Prop}
    (hkeep : ∀ s a s', I s → ok s a → step s a = some s' → I s')
    (hmiss : ∀ s a s', I s → ¬ ok s a → step s a = some s' → K s')
    (hstep : ∀ s a s', K s → step s a = some s' → K s') {s t : σ} {l : List α}
    (hrun : run step s l = some t) (hs : I s) (hnot : ¬ AllSteps step ok s l) : K t := by
  induction l generalizing s with
  | nil => exact absurd trivial hnot
  | cons a l ih =>
    obtain ⟨s', hs', hrest⟩ := (run_cons_eq_some step).mp hrun
    by_cases hok : ok s a
    · refine ih hrest (hkeep s a s' hs hok hs') ?_
      intro hall
      refine hnot ⟨hok, ?_⟩
      intro s'' hs''
      rw [hs'] at hs''
      obtain rfl := Option.some.inj hs''
      exact hall
    · exact run_invariant hstep hrest (hmiss s a s' hs hok hs')

def Always (step : σ → α → Option σ) (I : σ → Prop) : σ → List α → Prop
  | s, [] => I s
  | s, a :: l => I s ∧ ∀ s', step s a = some s' → Always step I s' l

theorem Always.run {s t : σ} {l : List α} (h : Always step I s l)
    (hrun : run step s l = some t) : I t := by
  induction l generalizing s with
  | nil =>
    obtain rfl := Option.some.inj hrun
    exact h
  | cons a l ih =>
    obtain ⟨s', hs', hrest⟩ := (run_cons_eq_some step).mp hrun
    exact ih (h.2 s' hs') hrest

/-- `J` is kept by the steps that meet `ok`: then what it implies holds in every state of a run of
such steps. -/
theorem always_of_allSteps {ok : σ → α → Prop} {J : σ → Prop} (hholds : ∀ s, J s → I s)
    (hkeep : ∀ s a s', J s → ok s a → step s a = some s' → J s') {s : σ} {l : List α}
    (hok : AllSteps step ok s l) (hJ : J s) : Always step I s l := by
  induction l generalizing s with
  | nil => exact hholds s hJ
  | cons a l ih =>
    refine ⟨hholds s hJ, ?_⟩
    intro s' hs'
    exact ih (hok.2 s' hs') (hkeep s a s' hJ hok.1 hs')

/-- `J` is kept by the steps that meet `ok`, and a step that does not leads out of `I`: then `I`
holds in every state of a run if and only if every step meets `ok`. -/
theorem always_iff_allSteps_of_fails {ok : σ → α → Prop} {J : σ → Prop} (hholds : ∀ s, J s → I s)
    (hkeep : ∀ s a s', J s → ok s a → step s a = some s' → J s')
    (hfail : ∀ s a s', J s → ¬ ok s a → step s a = some s' → ¬ I s') {s t : σ} {l : List α}
    (hrun : run step s l = some t) (hJ : J s) : Always step I s l ↔ AllSteps step ok s l := by
  induction l generalizing s with
  | nil => exact ⟨fun _ => trivial, fun _ => hholds s hJ⟩
  | cons a l ih =>
    obtain ⟨s', hs', hrest⟩ := (run_cons_eq_some step).mp hrun
    have hnext : ∀ {P : σ → Prop}, (∀ s'', step s a = some s'' → P s'') ↔ P s' := by
      intro P
      rw [hs']
      simp
    simp only [Always, AllSteps, hholds s hJ, true_and, hnext]
    constructor
    · intro h
      have hI : I s' := by
        cases l with
        | nil => exact h
        | cons b l => exact h.1
      have hok : ok s a := by
        by_contra hnot
        exact hfail s a s' hJ hnot hs' hI
      exact ⟨hok, (ih hrest (hkeep s a s' hJ hok hs')).mp h⟩
    · rintro ⟨hok, h⟩
      exact (ih hrest (hkeep s a s' hJ hok hs')).mpr h

/-- A state predicate that each step keeps exactly when it meets `ok` holds in every state of a run
if and only if every step meets `ok`. Both may rely on an invariant. -/
theorem always_iff_allSteps {ok : σ → α → Prop} {J : σ → Prop}
    (hinv : ∀ s a s', J s → step s a = some s' → J s')
    (hkeep : ∀ s a s', J s → I s → step s a = some s' → (ok s a ↔ I s')) {s t : σ} {l : List α}
    (hrun : run step s l = some t) (hJ : J s) (hs : I s) :
    Always step I s l ↔ AllSteps step ok s l := by
  apply always_iff_allSteps_of_fails (J := fun s => J s ∧ I s) (fun s h => h.2) ?_ ?_ hrun ⟨hJ, hs⟩
  · intro s a s' h hok hs'
    exact ⟨hinv s a s' h.1 hs', (hkeep s a s' h.1 h.2 hs').mp hok⟩
  · intro s a s' h hnot hs' hI
    exact hnot ((hkeep s a s' h.1 h.2 hs').mpr hI)

theorem run_isSome_of_total (htotal : ∀ s a, (step s a).isSome) (s : σ) (l : List α) :
    ∃ t, run step s l = some t := by
  induction l generalizing s with
  | nil => exact ⟨s, rfl⟩
  | cons a l ih =>
    obtain ⟨s', hs'⟩ := Option.isSome_iff_exists.mp (htotal s a)
    obtain ⟨t, ht⟩ := ih s'
    exact ⟨t, (run_cons_eq_some step).mpr ⟨s', hs', ht⟩⟩

theorem always_iff_allSteps_of_total {ok : σ → α → Prop} (htotal : ∀ s a, (step s a).isSome)
    (hkeep : ∀ s a s', I s → step s a = some s' → (ok s a ↔ I s')) {s : σ} (l : List α)
    (hs : I s) : Always step I s l ↔ AllSteps step ok s l := by
  obtain ⟨t, hrun⟩ := run_isSome_of_total htotal s l
  exact always_iff_allSteps (J := fun _ => True) (fun _ _ _ _ _ => trivial)
    (fun s a s' _ => hkeep s a s') hrun trivial hs

/-- If a step keeps `I` and is right exactly when it meets `ok`, a run of steps that are always
enabled is as it should be, in its states and in its steps, if and only if they all meet `ok`. -/
theorem always_and_allSteps_iff {ok right : σ → α → Prop} {J : σ → Prop}
    (htotal : ∀ s a, (step s a).isSome) (hinv : ∀ s a s', J s → step s a = some s' → J s')
    (hstep : ∀ s a s', J s → I s → step s a = some s' → (I s' ∧ right s a ↔ ok s a)) {s : σ}
    (l : List α) (hJ : J s) (hs : I s) :
    (Always step I s l ∧ AllSteps step right s l) ↔ AllSteps step ok s l := by
  induction l generalizing s with
  | nil => exact ⟨fun _ => trivial, fun _ => ⟨hs, trivial⟩⟩
  | cons a l ih =>
    obtain ⟨s', hs'⟩ := Option.isSome_iff_exists.mp (htotal s a)
    have hnext : ∀ {P : σ → Prop}, (∀ s'', step s a = some s'' → P s'') ↔ P s' := by
      intro P
      rw [hs']
      simp
    have hhead : ∀ {l : List α}, Always step I s' l → I s' := by
      intro l h
      cases l with
      | nil => exact h
      | cons b l => exact h.1
    have hJ' := hinv s a s' hJ hs'
    simp only [Always, AllSteps, hs, true_and, hnext]
    constructor
    · rintro ⟨hI, hright, hrest⟩
      have hI' := hhead hI
      exact ⟨(hstep s a s' hJ hs hs').mp ⟨hI', hright⟩, (ih hJ' hI').mp ⟨hI, hrest⟩⟩
    · rintro ⟨hok, hrest⟩
      obtain ⟨hI', hright⟩ := (hstep s a s' hJ hs hs').mpr hok
      obtain ⟨hI, hrights⟩ := (ih hJ' hI').mpr hrest
      exact ⟨hI, hright, hrights⟩

/-- A state predicate that each step keeps exactly when it meets `ok`, and that is never regained,
says after a run whether all its steps met `ok`. Both may rely on an invariant. -/
theorem allSteps_iff {ok : σ → α → Prop} {J : σ → Prop}
    (hinv : ∀ s a s', J s → step s a = some s' → J s')
    (hkeep : ∀ s a s', J s → I s → step s a = some s' → (ok s a ↔ I s'))
    (hlost : ∀ s a s', J s → ¬ I s → step s a = some s' → ¬ I s') {s t : σ} {l : List α}
    (hrun : run step s l = some t) (hJ : J s) (hs : I s) : AllSteps step ok s l ↔ I t := by
  induction l generalizing s with
  | nil =>
    obtain rfl : s = t := by simpa using hrun
    exact ⟨fun _ => hs, fun _ => trivial⟩
  | cons a l ih =>
    obtain ⟨s', hs', hrest⟩ := (run_cons_eq_some step).mp hrun
    have hJ' := hinv s a s' hJ hs'
    by_cases hI : I s'
    · rw [← ih hrest hJ' hI]
      constructor
      · intro h
        exact h.2 s' hs'
      · intro h
        refine ⟨(hkeep s a s' hJ hs hs').mpr hI, ?_⟩
        intro s'' hs''
        obtain rfl : s' = s'' := Option.some.inj (hs'.symm.trans hs'')
        exact h
    · have hnot := run_invariant (I := fun s => J s ∧ ¬ I s)
        (fun s a s' h hstep => ⟨hinv s a s' h.1 hstep, hlost s a s' h.1 h.2 hstep⟩) hrest ⟨hJ', hI⟩
      exact ⟨fun h => absurd ((hkeep s a s' hJ hs hs').mp h.1) hI, fun ht => absurd ht hnot.2⟩

end TelafSim.Trace

namespace TelafSim.History

variable {α : Type*} {p : List α → α → Prop} {l l' : List α} {a : α}

/-- Each entry of a history stands in the relation `p` to the entries before it. -/
def Each (p : List α → α → Prop) (l : List α) : Prop := ∀ l₁ a l₂, l = l₁ ++ a :: l₂ → p l₁ a

theorem each_nil : Each p [] := by
  intro l₁ a l₂ h
  simp at h

theorem Each.left (h : Each p (l ++ l')) : Each p l := by
  intro l₁ a l₂ hl
  apply h l₁ a (l₂ ++ l')
  rw [hl, List.append_assoc, List.cons_append]

theorem each_concat : Each p (l ++ [a]) ↔ Each p l ∧ p l a := by
  constructor
  · intro h
    exact ⟨h.left, h l a [] rfl⟩
  · rintro ⟨h, ha⟩ l₁ b l₂ hl
    rcases List.eq_nil_or_concat l₂ with rfl | ⟨l₃, c, rfl⟩
    · obtain ⟨rfl, hb⟩ := List.append_inj' hl rfl
      cases hb
      exact ha
    · rw [List.concat_eq_append, ← List.cons_append, ← List.append_assoc] at hl
      obtain ⟨rfl, -⟩ := List.append_inj' hl rfl
      exact h l₁ b l₃ rfl

end TelafSim.History
