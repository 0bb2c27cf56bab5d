import Mathlib.Algebra.Group.Int.Defs
import Mathlib.Data.List.Basic
import Mathlib.Data.List.Count
import Mathlib.Data.Set.Card
import Mathlib.Order.CompletePartialOrder
import Mathlib.Order.WellFounded
import Mathlib.Tactic

/-!
# Parent forests, common ancestors and tree walks

A forest is a parent map without infinite ascending chains. Positions are `Option S`: `none` is
the implicit root above every node, `some s` the node `s`. `path q` lists the nodes from `q` up to
the root, innermost first, and `segment q b` its part strictly below the position `b`.

The least common ancestor of two positions is the first node of one path on the other. A walk
moves along single tree edges, entering a child of the present position or leaving to the parent;
over any walk the surplus of entries of a node counts whether it is on the final path.
-/

namespace TelafSim

structure Forest (S : Type*) where
  parent : S → Option S
  wf : WellFounded (fun a b => parent b = some a)

namespace Forest

variable {S : Type*} (F : Forest S)

def lineage (s : S) : List S :=
  s :: match _h : F.parent s with
    | none => []
    | some p => lineage p
termination_by F.wf.wrap s

def path : Option S → List S
  | none => []
  | some s => F.lineage s

@[simp] theorem path_none : F.path none = [] := rfl

theorem path_some (s : S) : F.path (some s) = s :: F.path (F.parent s) := by
  change F.lineage s = _
  rw [lineage]
  congr 1
  split <;> rename_i h <;> rw [h] <;> rfl

/-- Induction along the parent map, from the root downwards. -/
theorem induct {P : Option S → Prop} (root : P none) (node : ∀ s, P (F.parent s) → P (some s))
    (q : Option S) : P q := by
  cases q with
  | none => exact root
  | some s =>
    induction s using F.wf.induction with
    | _ s ih =>
      apply node
      cases h : F.parent s with
      | none => exact root
      | some p => exact ih p h

theorem mem_path_self (s : S) : s ∈ F.path (some s) := by simp [path_some]

theorem path_suffix {a : S} {q : Option S} (h : a ∈ F.path q) : F.path (some a) <:+ F.path q := by
  induction q using F.induct with
  | root => simp at h
  | node s ih =>
    rw [path_some, List.mem_cons] at h
    rcases h with rfl | h
    · exact List.suffix_rfl
    · rw [F.path_some s]
      exact (ih h).trans (List.suffix_cons _ _)

theorem path_trans {a b : S} {q : Option S} (ha : a ∈ F.path (some b)) (hb : b ∈ F.path q) :
    a ∈ F.path q :=
  (F.path_suffix hb).subset ha

theorem not_mem_path_parent (s : S) : s ∉ F.path (F.parent s) := by
  intro h
  have hs := (F.path_suffix h).length_le
  rw [path_some, List.length_cons] at hs
  omega

theorem nodup_path (q : Option S) : (F.path q).Nodup := by
  induction q using F.induct with
  | root => exact List.nodup_nil
  | node s ih =>
    rw [F.path_some]
    exact List.nodup_cons.mpr ⟨F.not_mem_path_parent s, ih⟩

theorem length_path_le [Finite S] (q : Option S) : (F.path q).length ≤ Nat.card S := by
  have := Fintype.ofFinite S
  rw [Nat.card_eq_fintype_card]
  exact (F.nodup_path q).length_le_card

def below (s : S) : Set S := {t | s ∈ F.path (F.parent t)}

theorem below_ssubset {s t : S} (h : t ∈ F.below s) : F.below t ⊂ F.below s := by
  refine ⟨?_, ?_⟩
  · intro u hu
    refine F.path_trans ?_ hu
    rw [F.path_some]
    exact List.mem_cons_of_mem t h
  · intro hsub
    exact F.not_mem_path_parent t (hsub h)

theorem ncard_below_lt [Finite S] {s t : S} (h : t ∈ F.below s) :
    (F.below t).ncard < (F.below s).ncard :=
  Set.ncard_lt_ncard (F.below_ssubset h) (Set.toFinite _)

theorem ncard_below_lt_card [Finite S] (s : S) : (F.below s).ncard < Nat.card S := by
  have hne : F.below s ≠ Set.univ := by
    intro heq
    have hself : s ∈ F.below s := heq ▸ Set.mem_univ s
    exact F.not_mem_path_parent s hself
  rw [← Set.ncard_univ]
  exact Set.ncard_lt_ncard ⟨Set.subset_univ _, fun h => hne (Set.univ_subset_iff.mp h)⟩
    (Set.toFinite _)

/-- `b` is the root or a node on the path of `q`, `q` itself included. -/
def Above (b q : Option S) : Prop := ∀ l, b = some l → l ∈ F.path q

@[simp] theorem above_root (q : Option S) : F.Above none q := by simp [Above]

theorem above_refl (q : Option S) : F.Above q q := by
  rintro l rfl
  exact F.mem_path_self l

theorem above_parent {b : Option S} {s : S} (h : F.Above b (some s)) (hne : b ≠ some s) :
    F.Above b (F.parent s) := by
  rintro l rfl
  have hl := h l rfl
  rw [path_some, List.mem_cons] at hl
  exact hl.resolve_left (fun he => hne (by rw [he]))

theorem above_step {b : Option S} {s : S} (h : F.Above b (F.parent s)) : F.Above b (some s) := by
  intro l hl
  rw [path_some]
  exact List.mem_cons_of_mem _ (h l hl)

theorem above_trans {a b c : Option S} (hab : F.Above a b) (hbc : F.Above b c) : F.Above a c := by
  intro l hl
  cases b with
  | none => exact absurd (hab l hl) (by simp)
  | some m => exact F.path_trans (hab l hl) (hbc m rfl)

/-- `x` lies strictly below the position `b`. -/
def StrictlyBelow (b : Option S) (x : S) : Prop := F.Above b (F.parent x)

section Segment

open Classical

noncomputable def segment (q b : Option S) : List S :=
  (F.path q).filter (fun x => F.StrictlyBelow b x)

@[simp] theorem segment_root (b : Option S) : F.segment none b = [] := rfl

theorem segment_self (q : Option S) : F.segment q q = [] := by
  cases q with
  | none => rfl
  | some s =>
    rw [segment, List.filter_eq_nil_iff]
    intro x hx hb
    have hs : s ∈ F.path (F.parent x) := of_decide_eq_true hb s rfl
    exact F.not_mem_path_parent x (F.path_suffix hs |>.subset hx)

theorem segment_cons {b : Option S} {s : S} (h : F.Above b (some s)) (hne : b ≠ some s) :
    F.segment (some s) b = s :: F.segment (F.parent s) b := by
  have hs : F.StrictlyBelow b s := F.above_parent h hne
  rw [segment, path_some, List.filter_cons_of_pos (by simpa using hs), segment]

theorem mem_segment {b q : Option S} {x : S} :
    x ∈ F.segment q b ↔ x ∈ F.path q ∧ F.StrictlyBelow b x := by simp [segment]

theorem segment_length_le (q b : Option S) : (F.segment q b).length ≤ (F.path q).length :=
  List.length_filter_le _ _

theorem path_eq_segment_append {b q : Option S} (h : F.Above b q) :
    F.path q = F.segment q b ++ F.path b := by
  induction q using F.induct with
  | root =>
    cases b with
    | none => rfl
    | some l => exact absurd (h l rfl) (by simp)
  | node s ih =>
    by_cases hne : b = some s
    · rw [hne, segment_self, List.nil_append]
    · rw [F.segment_cons h hne, List.cons_append, ← ih (F.above_parent h hne), path_some]

theorem segment_append {b m q : Option S} (hb : F.Above b m) (hm : F.Above m q) :
    F.segment q b = F.segment q m ++ F.segment m b := by
  induction q using F.induct with
  | root =>
    cases m with
    | none => rfl
    | some l => exact absurd (hm l rfl) (by simp)
  | node s ih =>
    by_cases hne : m = some s
    · rw [hne, segment_self, List.nil_append]
    · have hs : b ≠ some s := by
        rintro rfl
        have hl := F.above_trans hb (F.above_parent hm hne)
        exact F.not_mem_path_parent s (hl s rfl)
      rw [F.segment_cons (F.above_trans hb hm) hs, F.segment_cons hm hne,
        ih (F.above_parent hm hne), List.cons_append]

end Segment

section CommonAncestor

variable [DecidableEq S]

/-- The least common ancestor: the first node of the path of `q` on the path of `r`, and the root
when there is none. -/
def lca (q r : Option S) : Option S := (F.path q).find? (fun x => x ∈ F.path r)

theorem lca_of_mem {s : S} {r : Option S} (h : s ∈ F.path r) : F.lca (some s) r = some s := by
  simp [lca, path_some, h]

theorem lca_of_not_mem {s : S} {r : Option S} (h : s ∉ F.path r) :
    F.lca (some s) r = F.lca (F.parent s) r := by
  simp [lca, path_some, h]

theorem lca_above_left (q r : Option S) : F.Above (F.lca q r) q := by
  intro l hl
  exact List.mem_of_find?_eq_some hl

theorem lca_above_right (q r : Option S) : F.Above (F.lca q r) r := by
  intro l hl
  simpa using List.find?_some hl

end CommonAncestor

inductive Move (S : Type*)
  | enter (s : S)
  | leave (s : S)
  deriving DecidableEq

/-- Moves along single edges of the forest, from one position to another. -/
inductive Walk : Option S → List (Move S) → Option S → Prop
  | nil (q : Option S) : Walk q [] q
  | enter {s : S} {l : List (Move S)} {r : Option S} (h : Walk (some s) l r) :
      Walk (F.parent s) (.enter s :: l) r
  | leave {s : S} {l : List (Move S)} {r : Option S} (h : Walk (F.parent s) l r) :
      Walk (some s) (.leave s :: l) r

theorem Walk.append {F : Forest S} {q r t : Option S} {l m : List (Move S)}
    (h₁ : F.Walk q l r) (h₂ : F.Walk r m t) : F.Walk q (l ++ m) t := by
  induction h₁ with
  | nil _ => exact h₂
  | enter _ ih => exact .enter (ih h₂)
  | leave _ ih => exact .leave (ih h₂)

theorem Walk.of_prefix {F : Forest S} {q r : Option S} {l p : List (Move S)}
    (h : F.Walk q l r) (hp : p <+: l) : ∃ t, F.Walk q p t := by
  induction h generalizing p with
  | nil q =>
    rw [List.prefix_nil] at hp
    exact ⟨q, hp ▸ .nil q⟩
  | @enter s l r _ ih =>
    rcases List.prefix_cons_iff.mp hp with rfl | ⟨p', rfl, hp'⟩
    · exact ⟨_, .nil _⟩
    · obtain ⟨t, ht⟩ := ih hp'
      exact ⟨t, .enter ht⟩
  | @leave s l r _ ih =>
    rcases List.prefix_cons_iff.mp hp with rfl | ⟨p', rfl, hp'⟩
    · exact ⟨_, .nil _⟩
    · obtain ⟨t, ht⟩ := ih hp'
      exact ⟨t, .leave ht⟩

theorem walk_leave_segment {b q : Option S} (h : F.Above b q) :
    F.Walk q ((F.segment q b).map .leave) b := by
  induction q using F.induct with
  | root =>
    cases b with
    | none => exact .nil _
    | some l => exact absurd (h l rfl) (by simp)
  | node s ih =>
    by_cases hne : b = some s
    · rw [hne, segment_self]
      exact .nil _
    · rw [F.segment_cons h hne]
      exact .leave (ih (F.above_parent h hne))

theorem walk_enter_segment {b q : Option S} (h : F.Above b q) :
    F.Walk b ((F.segment q b).reverse.map .enter) q := by
  induction q using F.induct with
  | root =>
    cases b with
    | none => exact .nil _
    | some l => exact absurd (h l rfl) (by simp)
  | node s ih =>
    by_cases hne : b = some s
    · rw [hne, segment_self]
      exact .nil _
    · rw [F.segment_cons h hne, List.reverse_cons, List.map_append]
      exact (ih (F.above_parent h hne)).append (.enter (.nil _))

section Balance

variable [DecidableEq S]

/-- Entries of `x` minus exits of `x`. -/
def surplus (x : S) (l : List (Move S)) : ℤ := l.count (.enter x) - l.count (.leave x)

def onPath (x : S) (q : Option S) : ℤ := if x ∈ F.path q then 1 else 0

theorem onPath_some (x s : S) :
    F.onPath x (some s) = F.onPath x (F.parent s) + if s = x then 1 else 0 := by
  unfold onPath
  by_cases hx : s = x
  · subst hx
    simp [F.mem_path_self, F.not_mem_path_parent]
  · simp [path_some, Ne.symm hx, hx]

theorem Walk.surplus_eq {F : Forest S} {q r : Option S} {l : List (Move S)} (h : F.Walk q l r)
    (x : S) : surplus x l = F.onPath x r - F.onPath x q := by
  induction h with
  | nil q => simp [surplus]
  | @enter s l r _ ih =>
    rw [F.onPath_some] at ih
    have hl : surplus x (.enter s :: l) = surplus x l + if s = x then 1 else 0 := by
      by_cases hs : s = x <;> simp [surplus, hs]
      omega
    rw [hl, ih]
    omega
  | @leave s l r _ ih =>
    rw [F.onPath_some]
    have hl : surplus x (.leave s :: l) = surplus x l - if s = x then 1 else 0 := by
      by_cases hs : s = x <;> simp [surplus, hs]
      omega
    rw [hl, ih]
    omega

end Balance

end Forest
end TelafSim
