import Mathlib.Tactic

/-!
# Observers of a condition

Observers register under numbers that are handed out once, and are told when the condition changes;
one that registers while it holds is told so at once. Each then hears `true` and `false` in turn,
and `true` first.
-/

namespace TelafSim

/-- `b`, then its opposite, and so on. -/
def alternates : Bool → List Bool → Bool
  | _, [] => true
  | b, x :: l => x = b && alternates (!b) l

theorem alternates_concat {b x : Bool} {l : List Bool} (hl : alternates b l)
    (hx : x = if l.length % 2 = 0 then b else !b) : alternates b (l ++ [x]) := by
  induction l generalizing b with
  | nil => simpa [alternates] using hx
  | cons y l ih =>
    simp only [alternates, Bool.and_eq_true] at hl
    simp only [List.cons_append, alternates, Bool.and_eq_true]
    refine ⟨hl.1, ih hl.2 ?_⟩
    rw [hx, List.length_cons]
    rcases Nat.mod_two_eq_zero_or_one l.length with h | h
    · have h' : (l.length + 1) % 2 = 1 := by omega
      simp [h, h']
    · have h' : (l.length + 1) % 2 = 0 := by omega
      simp [h, h']

def heard (token : ℕ) (l : List (ℕ × Bool)) : List Bool :=
  (l.filter (fun x => x.1 = token)).map Prod.snd

theorem heard_append (token : ℕ) (l l' : List (ℕ × Bool)) :
    heard token (l ++ l') = heard token l ++ heard token l' := by
  simp [heard]

theorem heard_map {observers : List ℕ} (hnodup : observers.Nodup) (token : ℕ) (up : Bool) :
    heard token (observers.map (·, up)) = if token ∈ observers then [up] else [] := by
  induction observers with
  | nil => rfl
  | cons t observers ih =>
    obtain ⟨ht, hrest⟩ := List.nodup_cons.mp hnodup
    have ih := ih hrest
    unfold heard at ih ⊢
    by_cases h : t = token
    · subst h
      rw [if_neg ht] at ih
      simp [ih]
    · simp [h, Ne.symm h, ih]

structure Roster where
  observers : List ℕ
  up : Bool
  told : List (ℕ × Bool)
  /-- Registrations on their way. -/
  coming : List ℕ
  next : ℕ

namespace Roster

def switch (up : Bool) (r : Roster) : Roster :=
  { r with up := up, told := r.told ++ r.observers.map (·, up) }

def register (token : ℕ) (r : Roster) : Roster :=
  { r with
    observers := r.observers.filter (· ≠ token) ++ [token]
    told := r.told ++ if r.up then [(token, true)] else [] }

def withdraw (token : ℕ) (r : Roster) : Roster :=
  { r with observers := r.observers.filter (· ≠ token) }

/-- No number is used twice, and who is registered was last told what holds. -/
structure Kept (r : Roster) : Prop where
  nodup : r.observers.Nodup
  coming : r.coming.Nodup
  below : ∀ t ∈ r.coming, t < r.next
  fresh : ∀ t, t ∈ r.coming ∨ r.next ≤ t → t ∉ r.observers ∧ heard t r.told = []
  inTurn : ∀ t, alternates true (heard t r.told)
  current : ∀ t ∈ r.observers, (heard t r.told).length % 2 = if r.up then 1 else 0

section Kept

variable {r : Roster}

theorem Kept.switch (hr : r.Kept) {up : Bool} (hup : up ≠ r.up) : (r.switch up).Kept := by
  have hheard : ∀ t, heard t (r.switch up).told =
      heard t r.told ++ if t ∈ r.observers then [up] else [] := by
    intro t
    rw [Roster.switch, heard_append, heard_map hr.nodup]
  refine ⟨hr.nodup, hr.coming, hr.below, ?_, ?_, ?_⟩
  · intro t ht
    obtain ⟨hnot, hnil⟩ := hr.fresh t ht
    exact ⟨hnot, by rw [hheard, hnil, if_neg hnot]; rfl⟩
  · intro t
    rw [hheard]
    split
    · rename_i hmem
      refine alternates_concat (hr.inTurn t) ?_
      rw [hr.current t hmem]
      cases up <;> cases h : r.up <;> simp_all
    · rw [List.append_nil]
      exact hr.inTurn t
  · intro t hmem
    have hmem : t ∈ r.observers := hmem
    have hcurrent := hr.current t hmem
    rw [hheard, if_pos hmem, List.length_append, List.length_singleton]
    change _ = if up then 1 else 0
    cases up <;> cases h : r.up <;> simp_all <;> omega

theorem Kept.register (hr : r.Kept) {token : ℕ} {rest : List ℕ} (hcoming : r.coming = token :: rest) :
    Kept { r.register token with coming := rest } := by
  obtain ⟨hnot, hnil⟩ := hr.fresh token (.inl (by rw [hcoming]; exact List.mem_cons_self))
  have hnodup := hr.coming
  rw [hcoming] at hnodup
  obtain ⟨hrest, hnodup⟩ := List.nodup_cons.mp hnodup
  have hmem : ∀ t ∈ rest, t ∈ r.coming := fun t ht => by rw [hcoming]; exact List.mem_cons_of_mem _ ht
  have hheard : ∀ t, heard t (r.register token).told =
      heard t r.told ++ if t = token ∧ r.up then [true] else [] := by
    intro t
    rw [Roster.register, heard_append]
    congr 1
    cases r.up
    · simp [heard]
    · by_cases h : t = token
      · simp [heard, h]
      · simp [heard, h, Ne.symm h]
  have hne : ∀ t, t ∈ rest ∨ r.next ≤ t → t ≠ token := by
    rintro t (ht | ht) rfl
    · exact hrest ht
    · have hlt := hr.below t (by rw [hcoming]; exact List.mem_cons_self)
      omega
  refine ⟨?_, hnodup, fun t ht => hr.below t (hmem t ht), ?_, ?_, ?_⟩
  · refine List.Nodup.append (hr.nodup.filter _) (List.nodup_singleton _) ?_
    simp
  · intro t ht
    obtain ⟨hnot', hnil'⟩ := hr.fresh t (ht.imp_left (hmem t))
    refine ⟨?_, ?_⟩
    · simp [Roster.register, hnot', hne t ht]
    · change heard t (r.register token).told = []
      rw [hheard, hnil', if_neg (fun h => hne t ht h.1)]
      rfl
  · intro t
    change alternates true (heard t (r.register token).told) = true
    rw [hheard]
    split
    · rename_i h
      rw [h.1, hnil]
      rfl
    · rw [List.append_nil]
      exact hr.inTurn t
  · intro t ht
    change (heard t (r.register token).told).length % 2 = if r.up then 1 else 0
    rw [hheard]
    by_cases h : t = token
    · subst h
      rw [hnil]
      cases r.up <;> simp
    · rw [if_neg (fun h' => h h'.1), List.append_nil]
      refine hr.current t ?_
      simpa [Roster.register, h] using ht

theorem Kept.withdraw (hr : r.Kept) (token : ℕ) : (r.withdraw token).Kept := by
  have hsub : ∀ t, t ∈ (r.withdraw token).observers → t ∈ r.observers := fun t ht =>
    (List.mem_filter.mp ht).1
  refine ⟨hr.nodup.filter _, hr.coming, hr.below, ?_, hr.inTurn, ?_⟩
  · intro t ht
    exact (hr.fresh t ht).imp_left (fun h h' => h (hsub t h'))
  · intro t ht
    exact hr.current t (hsub t ht)

theorem Kept.lose (hr : r.Kept) {coming : List ℕ} (hsub : coming.Sublist r.coming) :
    Kept { r with coming := coming } :=
  ⟨hr.nodup, hr.coming.sublist hsub, fun t ht => hr.below t (hsub.subset ht),
    fun t ht => hr.fresh t (ht.imp_left (fun h => hsub.subset h)), hr.inTurn, hr.current⟩

theorem Kept.issue (hr : r.Kept) : Kept { r with coming := r.coming ++ [r.next], next := r.next + 1 } := by
  refine ⟨hr.nodup, ?_, ?_, ?_, hr.inTurn, hr.current⟩
  · refine List.Nodup.append hr.coming (List.nodup_singleton _) ?_
    rw [List.disjoint_singleton]
    intro h
    exact absurd (hr.below _ h) (Nat.lt_irrefl _)
  · intro t ht
    rcases List.mem_append.mp ht with ht | ht
    · exact Nat.lt_succ_of_lt (hr.below t ht)
    · rw [List.mem_singleton.mp ht]
      exact Nat.lt_succ_self _
  · intro t ht
    refine hr.fresh t ?_
    rcases ht with ht | ht
    · rcases List.mem_append.mp ht with ht | ht
      · exact .inl ht
      · exact .inr (List.mem_singleton.mp ht).ge
    · exact .inr (Nat.le_of_succ_le ht)

end Kept

end Roster

end TelafSim
