import TelafSim.Trace
import Mathlib.Data.Set.Card

/-!
# Records of deferred posts

Whoever makes deferred posts for a client keeps a record of each of them, under the uuid that is
handed out, until the client cancels it; that the post has been made does not take its record out.
The client stores one uuid under a key. As long as it cancels what a key stores before it stores
another uuid there, there are no more records than stored uuids. A uuid that is forgotten leaves a
record behind for good.
-/

namespace TelafSim

structure DeferredPosts (κ : Type) where
  uuids : κ → Option ℕ
  records : List (ℕ × κ)
  next : ℕ

namespace DeferredPosts

variable {κ : Type} {p p' p'' : DeferredPosts κ} {k : κ}

def empty : DeferredPosts κ := ⟨fun _ => none, [], 0⟩

def stored (p : DeferredPosts κ) : Set κ := {k | p.uuids k ≠ none}

/-- There are no more records than stored uuids. -/
def Bounded (p : DeferredPosts κ) : Prop := (p.records.length : ℕ∞) ≤ p.stored.encard

/-- Every record is that of a stored uuid. -/
def Kept (p : DeferredPosts κ) : Prop := ∀ x ∈ p.records, p.uuids x.2 = some x.1

/-- Every stored uuid has its record. -/
structure Sound (p : DeferredPosts κ) : Prop where
  nodup : (p.records.map Prod.fst).Nodup
  below : ∀ x ∈ p.records, x.1 < p.next
  recorded : ∀ {k u}, p.uuids k = some u → (u, k) ∈ p.records

theorem sound_empty : (empty : DeferredPosts κ).Sound := by
  refine ⟨List.nodup_nil, ?_, ?_⟩
  · intro x hx
    cases hx
  · intro k u hu
    cases hu

theorem kept_empty : (empty : DeferredPosts κ).Kept := by
  intro x hx
  cases hx

theorem Kept.bounded (h : p.Kept) (hs : p.Sound) : p.Bounded := by
  classical
  have hnodup : (p.records.map Prod.snd).Nodup := by
    refine List.Nodup.map_on ?_ (List.Nodup.of_map _ hs.nodup)
    intro x hx y hy hxy
    have hfst : some x.1 = some y.1 := by rw [← h x hx, ← h y hy, hxy]
    exact Prod.ext (Option.some.inj hfst) hxy
  have hsub : ((p.records.map Prod.snd).toFinset : Set κ) ⊆ p.stored := by
    intro k hk
    obtain ⟨x, hx, rfl⟩ : ∃ x ∈ p.records, x.2 = k := by simpa using hk
    simp [stored, h x hx]
  calc (p.records.length : ℕ∞)
      = ((p.records.map Prod.snd).toFinset.card : ℕ∞) := by
        rw [List.toFinset_card_of_nodup hnodup, List.length_map]
    _ = ((p.records.map Prod.snd).toFinset : Set κ).encard :=
        (Set.encard_coe_eq_coe_finsetCard _).symm
    _ ≤ p.stored.encard := Set.encard_le_encard hsub

theorem Sound.kept (hs : p.Sound) (h : p.Bounded) : p.Kept := by
  classical
  by_contra hnot
  unfold Kept at hnot
  push Not at hnot
  obtain ⟨x, hx, horphan⟩ := hnot
  have hsub : p.stored ⊆ (((p.records.erase x).map Prod.snd).toFinset : Set κ) := by
    intro k hk
    obtain ⟨u, hu⟩ := Option.ne_none_iff_exists'.mp hk
    have hne : (u, k) ≠ x := by
      rintro rfl
      exact horphan hu
    have hmem : (u, k) ∈ p.records.erase x := (List.mem_erase_of_ne hne).mpr (hs.recorded hu)
    simpa using ⟨u, hmem⟩
  have hle : p.stored.encard ≤ ((p.records.erase x).length : ℕ∞) := by
    refine (Set.encard_le_encard hsub).trans ?_
    rw [Set.encard_coe_eq_coe_finsetCard]
    exact_mod_cast (List.toFinset_card_le _).trans (List.length_map _).le
  have hlt := h.trans hle
  rw [Nat.cast_le, List.length_erase_of_mem hx] at hlt
  have hpos := List.length_pos_of_mem hx
  omega

theorem Sound.bounded_iff (hs : p.Sound) : p.Bounded ↔ p.Kept := ⟨hs.kept, fun h => h.bounded hs⟩

section Operations

variable [DecidableEq κ]

/-- The post of the stored uuid is cancelled, and the uuid forgotten. -/
def cancel (k : κ) (p : DeferredPosts κ) : DeferredPosts κ :=
  { p with
    records := p.records.filter (fun x => some x.1 ≠ p.uuids k)
    uuids := Function.update p.uuids k none }

/-- A deferred post is made, and its uuid stored. -/
def post (k : κ) (p : DeferredPosts κ) : DeferredPosts κ where
  uuids := Function.update p.uuids k (some p.next)
  records := p.records ++ [(p.next, k)]
  next := p.next + 1

def forget (k : κ) (p : DeferredPosts κ) : DeferredPosts κ :=
  { p with uuids := Function.update p.uuids k none }

def cancelAll (p : DeferredPosts κ) : DeferredPosts κ :=
  { p with
    records := p.records.filter (fun x => p.uuids x.2 ≠ some x.1)
    uuids := fun _ => none }

/-- Uuids are cancelled, and others stored where there is none. -/
inductive Orderly : DeferredPosts κ → DeferredPosts κ → Prop
  | refl (p : DeferredPosts κ) : Orderly p p
  | cancel {p p' : DeferredPosts κ} (k : κ) (h : Orderly p p') : Orderly p (p'.cancel k)
  | post {p p' : DeferredPosts κ} (k : κ) (h : Orderly p p') (hfree : p'.uuids k = none) :
    Orderly p (p'.post k)
  | cancelAll {p p' : DeferredPosts κ} (h : Orderly p p') : Orderly p p'.cancelAll

theorem Orderly.trans (h : Orderly p p') (h' : Orderly p' p'') : Orderly p p'' := by
  induction h' with
  | refl => exact h
  | cancel k _ ih => exact .cancel k ih
  | post k _ hfree ih => exact .post k ih hfree
  | cancelAll _ ih => exact .cancelAll ih

theorem Orderly.of_eq (h : p = p') : Orderly p p' := h ▸ .refl p

theorem uuids_cancel_self : (p.cancel k).uuids k = none := Function.update_self _ _ _

theorem uuids_post_self : (p.post k).uuids k = some p.next := Function.update_self _ _ _

variable {j : κ}

theorem uuids_cancel (hj : j ≠ k) : (p.cancel k).uuids j = p.uuids j := Function.update_of_ne hj _ _

theorem uuids_post (hj : j ≠ k) : (p.post k).uuids j = p.uuids j := Function.update_of_ne hj _ _

theorem uuids_forget (hj : j ≠ k) : (p.forget k).uuids j = p.uuids j := Function.update_of_ne hj _ _

theorem forget_of_none (hk : p.uuids k = none) : p.forget k = p := by
  rw [DeferredPosts.forget, ← hk, Function.update_eq_self]

theorem orderly_replace (k : κ) (p : DeferredPosts κ) : Orderly p ((p.cancel k).post k) :=
  .post k (.cancel k (.refl p)) uuids_cancel_self

theorem Sound.cancel (hs : p.Sound) (k : κ) : (p.cancel k).Sound := by
  refine ⟨?_, ?_, ?_⟩
  · exact hs.nodup.sublist ((List.filter_sublist).map Prod.fst)
  · intro x hx
    exact hs.below x (List.mem_of_mem_filter hx)
  · intro j u hu
    by_cases hj : j = k
    · subst hj
      rw [uuids_cancel_self] at hu
      cases hu
    · rw [uuids_cancel hj] at hu
      refine List.mem_filter.mpr ⟨hs.recorded hu, ?_⟩
      rw [decide_eq_true_eq]
      intro heq
      -- two keys do not share a record
      have hrec : ∀ x ∈ p.records, ∀ y ∈ p.records, x.1 = y.1 → x = y :=
        fun x hx y hy => List.inj_on_of_nodup_map hs.nodup hx hy
      have hsame := hrec (u, j) (hs.recorded hu) (u, k) (hs.recorded heq.symm) rfl
      exact hj (congrArg Prod.snd hsame)

theorem Sound.post (hs : p.Sound) (hfree : p.uuids k = none) : (p.post k).Sound := by
  refine ⟨?_, ?_, ?_⟩
  · rw [DeferredPosts.post, List.map_append]
    refine List.nodup_append.mpr ⟨hs.nodup, List.nodup_singleton _, ?_⟩
    intro u hu v hv huv
    obtain ⟨x, hx, rfl⟩ := List.mem_map.mp hu
    have hlt := hs.below x hx
    rw [huv, List.mem_singleton.mp hv] at hlt
    exact lt_irrefl _ hlt
  · intro x hx
    change x.1 < p.next + 1
    rcases List.mem_append.mp hx with hx | hx
    · exact (hs.below x hx).trans (Nat.lt_succ_self _)
    · rw [List.mem_singleton.mp hx]
      exact Nat.lt_succ_self _
  · intro j u hu
    by_cases hj : j = k
    · subst hj
      obtain rfl : p.next = u := by simpa [DeferredPosts.post] using hu
      exact List.mem_append_right _ (List.mem_singleton_self _)
    · rw [uuids_post hj] at hu
      exact List.mem_append_left _ (hs.recorded hu)

omit [DecidableEq κ] in
theorem Sound.cancelAll (hs : p.Sound) : p.cancelAll.Sound := by
  refine ⟨?_, ?_, ?_⟩
  · exact hs.nodup.sublist ((List.filter_sublist).map Prod.fst)
  · intro x hx
    exact hs.below x (List.mem_of_mem_filter hx)
  · intro j u hu
    cases hu

theorem Sound.forget (hs : p.Sound) (k : κ) : (p.forget k).Sound := by
  refine ⟨hs.nodup, hs.below, ?_⟩
  intro j u hu
  by_cases hj : j = k
  · subst hj
    simp [DeferredPosts.forget] at hu
  · rw [uuids_forget hj] at hu
    exact hs.recorded hu

/-- A record is left behind by a cancellation if it was before. -/
theorem Sound.kept_cancel (hs : p.Sound) (k : κ) : (p.cancel k).Kept ↔ p.Kept := by
  constructor
  · intro h x hx
    by_cases heq : some x.1 = p.uuids k
    · have hrec : (x.1, k) ∈ p.records := hs.recorded heq.symm
      have hsame : x = (x.1, k) := List.inj_on_of_nodup_map hs.nodup hx hrec rfl
      rw [show x.2 = k from congrArg Prod.snd hsame]
      exact heq.symm
    · have hx' := h x (List.mem_filter.mpr ⟨hx, by simpa using heq⟩)
      by_cases hk : x.2 = k
      · rw [hk, uuids_cancel_self] at hx'
        cases hx'
      · rwa [uuids_cancel hk] at hx'
  · intro h x hx
    obtain ⟨hx, hne⟩ := List.mem_filter.mp hx
    have hx := h x hx
    by_cases hk : x.2 = k
    · rw [hk] at hx
      simp [hx] at hne
    · rwa [uuids_cancel hk]

theorem Sound.kept_post (hs : p.Sound) (hfree : p.uuids k = none) : (p.post k).Kept ↔ p.Kept := by
  constructor
  · intro h x hx
    have hx' := h x (List.mem_append_left _ hx)
    by_cases hk : x.2 = k
    · have hnext : p.next = x.1 := by simpa [DeferredPosts.post, hk] using hx'
      exact absurd hnext.symm (hs.below x hx).ne
    · rwa [uuids_post hk] at hx'
  · intro h x hx
    rcases List.mem_append.mp hx with hx | hx
    · have hx := h x hx
      by_cases hk : x.2 = k
      · rw [hk, hfree] at hx
        cases hx
      · rwa [uuids_post hk]
    · rw [List.mem_singleton.mp hx]
      exact Function.update_self _ _ _

omit [DecidableEq κ] in
theorem kept_cancelAll : p.cancelAll.Kept ↔ p.Kept := by
  constructor
  · intro h x hx
    by_contra hne
    cases h x (List.mem_filter.mpr ⟨hx, by simpa using hne⟩)
  · intro h x hx
    obtain ⟨hx, hne⟩ := List.mem_filter.mp hx
    exact absurd (h x hx) (by simpa using hne)

theorem Sound.kept_forget (hs : p.Sound) (h : p.Kept) :
    (p.forget k).Kept ↔ p.uuids k = none := by
  constructor
  · intro h'
    by_contra hk
    obtain ⟨u, hu⟩ := Option.ne_none_iff_exists'.mp hk
    have hx := h' (u, k) (hs.recorded hu)
    simp [DeferredPosts.forget] at hx
  · intro hk
    rwa [forget_of_none hk]

theorem Orderly.sound (h : Orderly p p') (hs : p.Sound) : p'.Sound := by
  induction h with
  | refl => exact hs
  | cancel k _ ih => exact ih.cancel k
  | post k _ hfree ih => exact ih.post hfree
  | cancelAll _ ih => exact ih.cancelAll

theorem Orderly.kept_iff (h : Orderly p p') (hs : p.Sound) : p'.Kept ↔ p.Kept := by
  induction h with
  | refl => rfl
  | cancel k h ih => exact ((h.sound hs).kept_cancel k).trans ih
  | post k h hfree ih => exact ((h.sound hs).kept_post hfree).trans ih
  | cancelAll _ ih => exact kept_cancelAll.trans ih

end Operations

section Runs

variable [DecidableEq κ] {σ α : Type} {step : σ → α → Option σ} {posts : σ → DeferredPosts κ}
  {s t : σ} {l : List α}

variable (posts) in
/-- An object whose steps are orderly never has more records than stored uuids. -/
theorem bounded_of_orderly {J : σ → Prop} (hinv : ∀ s a s', J s → step s a = some s' → J s')
    (hstep : ∀ s a s', J s → step s a = some s' → Orderly (posts s) (posts s'))
    (hrun : Trace.run step s l = some t) (hJ : J s) (hs : (posts s).Sound) (hk : (posts s).Kept) :
    (posts t).Bounded := by
  have hall : J t ∧ (posts t).Sound ∧ (posts t).Kept := by
    refine Trace.run_invariant (I := fun s => J s ∧ (posts s).Sound ∧ (posts s).Kept) ?_ hrun
      ⟨hJ, hs, hk⟩
    rintro s a s' ⟨hJ, hs, hk⟩ h
    have ho := hstep s a s' hJ h
    exact ⟨hinv s a s' hJ h, ho.sound hs, (ho.kept_iff hs).mpr hk⟩
  exact hall.2.2.bounded hall.2.1

/-- A step that meets `ok` is orderly; any other one forgets a uuid, and is orderly otherwise. -/
def OrderlyBut (step : σ → α → Option σ) (posts : σ → DeferredPosts κ) (ok : σ → α → Prop) : Prop :=
  ∀ s a s', step s a = some s' →
    (ok s a ∧ Orderly (posts s) (posts s')) ∨
      ∃ k, (ok s a ↔ (posts s).uuids k = none) ∧ Orderly ((posts s).forget k) (posts s')

variable {ok : σ → α → Prop}

theorem OrderlyBut.sound_step (h : OrderlyBut step posts ok) {s s' : σ} {a : α}
    (hs : (posts s).Sound) (hstep : step s a = some s') : (posts s').Sound := by
  rcases h s a s' hstep with ⟨-, ho⟩ | ⟨k, -, ho⟩
  · exact ho.sound hs
  · exact ho.sound (hs.forget k)

/-- Whatever is forgotten, every stored uuid has its record. -/
theorem OrderlyBut.sound_run (h : OrderlyBut step posts ok) (hrun : Trace.run step s l = some t)
    (hs : (posts s).Sound) : (posts t).Sound :=
  Trace.run_invariant (I := fun s => (posts s).Sound) (fun _ _ _ hs hstep => h.sound_step hs hstep)
    hrun hs

/-- There are no more records than stored uuids in a run if and only if there is never a uuid to
forget. -/
theorem OrderlyBut.always_bounded_iff (h : OrderlyBut step posts ok)
    (hrun : Trace.run step s l = some t) (hs : (posts s).Sound) (hk : (posts s).Kept) :
    Trace.Always step (fun s => (posts s).Bounded) s l ↔ Trace.AllSteps step ok s l := by
  refine Trace.always_iff_allSteps (J := fun s => (posts s).Sound)
    (fun _ _ _ hs hstep => h.sound_step hs hstep) ?_ hrun hs (hk.bounded hs)
  intro s a s' hs hb hstep
  have hk := hs.kept hb
  rcases h s a s' hstep with ⟨hok, ho⟩ | ⟨k, hok, ho⟩
  · rw [(ho.sound hs).bounded_iff, ho.kept_iff hs]
    exact ⟨fun _ => hk, fun _ => hok⟩
  · rw [(ho.sound (hs.forget k)).bounded_iff, ho.kept_iff (hs.forget k), hs.kept_forget hk]
    exact hok

end Runs

end DeferredPosts

end TelafSim
