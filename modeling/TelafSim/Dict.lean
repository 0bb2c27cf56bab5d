import Mathlib.Tactic

/-!
# Dictionaries in insertion order

A dictionary is a list of entries with distinct keys. Setting a key that is present leaves it at
its place, a new key goes to the end. The second part is about references: things that name an id,
and what removing the things that name a set of ids does to them.
-/

namespace TelafSim

structure Dict (κ ν : Type*) where
  entries : List (κ × ν)
  nodup : (entries.map Prod.fst).Nodup
  deriving DecidableEq

namespace Dict

variable {κ ν : Type*}

def empty : Dict κ ν := ⟨[], List.nodup_nil⟩

def keys (d : Dict κ ν) : List κ := d.entries.map Prod.fst

def values (d : Dict κ ν) : List ν := d.entries.map Prod.snd

def size (d : Dict κ ν) : ℕ := d.entries.length

theorem nodup_keys (d : Dict κ ν) : d.keys.Nodup := d.nodup

@[simp] theorem length_keys (d : Dict κ ν) : d.keys.length = d.size := List.length_map _

theorem eq_of_entries {d d' : Dict κ ν} (h : d.entries = d'.entries) : d = d' := by
  cases d
  cases d'
  subst h
  rfl

/-- The entries whose key meets `p`, in their order. -/
def keep (p : κ → Bool) (d : Dict κ ν) : Dict κ ν where
  entries := d.entries.filter (fun e => p e.1)
  nodup := d.nodup.sublist (List.filter_sublist.map Prod.fst)

/-- The entries whose value meets `p`, in their order. -/
def keepValues (p : ν → Bool) (d : Dict κ ν) : Dict κ ν where
  entries := d.entries.filter (fun e => p e.2)
  nodup := d.nodup.sublist (List.filter_sublist.map Prod.fst)

section Lookup

variable [DecidableEq κ]

def get (d : Dict κ ν) (k : κ) : Option ν := (d.entries.find? (fun e => e.1 = k)).map Prod.snd

def update (k : κ) (v : ν) (e : κ × ν) : κ × ν := if e.1 = k then (k, v) else e

theorem update_fst (k : κ) (v : ν) (e : κ × ν) : (update k v e).1 = e.1 := by
  unfold update
  split
  · next h => exact h.symm
  · rfl

def setEntries (k : κ) (v : ν) (l : List (κ × ν)) : List (κ × ν) :=
  if k ∈ l.map Prod.fst then l.map (update k v) else l ++ [(k, v)]

theorem map_fst_setEntries (k : κ) (v : ν) (l : List (κ × ν)) :
    (setEntries k v l).map Prod.fst =
      if k ∈ l.map Prod.fst then l.map Prod.fst else l.map Prod.fst ++ [k] := by
  unfold setEntries
  split
  · rw [List.map_map]
    exact List.map_congr_left (fun e _ => update_fst k v e)
  · simp

def set (k : κ) (v : ν) (d : Dict κ ν) : Dict κ ν where
  entries := setEntries k v d.entries
  nodup := by
    rw [map_fst_setEntries]
    split
    · exact d.nodup
    · next h =>
      rw [← List.concat_eq_append]
      exact d.nodup.concat h

def pop (k : κ) (d : Dict κ ν) : Dict κ ν := d.keep (fun j => j ≠ k)

/-- The pairs are set one after the other. -/
def ofList (l : List (κ × ν)) : Dict κ ν := l.foldl (fun d e => d.set e.1 e.2) empty

@[simp] theorem get_empty (k : κ) : (empty : Dict κ ν).get k = none := rfl

theorem get_eq_some_iff {d : Dict κ ν} {k : κ} {v : ν} :
    d.get k = some v ↔ (k, v) ∈ d.entries := by
  constructor
  · intro h
    obtain ⟨e, he, hv⟩ := Option.map_eq_some_iff.mp h
    have hk : e.1 = k := by simpa using List.find?_some he
    obtain rfl : e = (k, v) := Prod.ext hk hv
    exact List.mem_of_find?_eq_some he
  · intro h
    cases hfind : d.entries.find? (fun e => e.1 = k) with
    | none => simpa using List.find?_eq_none.mp hfind (k, v) h
    | some e =>
      have hk : e.1 = k := by simpa using List.find?_some hfind
      -- the keys are distinct, so the entry found is the one asked for
      have he : e = (k, v) :=
        List.inj_on_of_nodup_map d.nodup (List.mem_of_find?_eq_some hfind) h hk
      rw [get, hfind, he, Option.map_some]

theorem get_eq_none_iff {d : Dict κ ν} {k : κ} : d.get k = none ↔ k ∉ d.keys := by
  rw [get, Option.map_eq_none_iff, List.find?_eq_none, keys, List.mem_map, not_exists]
  refine forall_congr' ?_
  intro e
  rw [decide_eq_true_iff, not_and]

theorem mem_keys_iff {d : Dict κ ν} {k : κ} : k ∈ d.keys ↔ ∃ v, d.get k = some v := by
  rw [← not_iff_not, ← get_eq_none_iff, Option.eq_none_iff_forall_ne_some]
  push Not
  rfl

theorem mem_values_iff {d : Dict κ ν} {v : ν} : v ∈ d.values ↔ ∃ k, d.get k = some v := by
  simp only [values, List.mem_map, get_eq_some_iff, Prod.exists, exists_eq_right]

theorem get_keep (p : κ → Bool) (d : Dict κ ν) (k : κ) :
    (d.keep p).get k = if p k then d.get k else none := by
  unfold get keep
  rw [List.find?_filter]
  split
  · next h =>
    congr 2
    funext e
    by_cases he : e.1 = k <;> simp [he, h]
  · next h =>
    rw [Option.map_eq_none_iff, List.find?_eq_none]
    intro e _
    by_cases he : e.1 = k <;> simp [he, h]

theorem get_keepValues (p : ν → Bool) (d : Dict κ ν) (k : κ) :
    (d.keepValues p).get k = (d.get k).filter p := by
  ext v
  rw [get_eq_some_iff, Option.filter_eq_some_iff, get_eq_some_iff, keepValues, List.mem_filter]

theorem get_pop (k j : κ) (d : Dict κ ν) : (d.pop k).get j = if j = k then none else d.get j := by
  rw [pop, get_keep]
  by_cases h : j = k <;> simp [h]

theorem get_set (k j : κ) (v : ν) (d : Dict κ ν) :
    (d.set k v).get j = if j = k then some v else d.get j := by
  unfold get set setEntries
  by_cases hk : k ∈ d.entries.map Prod.fst
  · simp only [if_pos hk, List.find?_map]
    have hfind : (fun e : κ × ν => decide (e.1 = j)) ∘ update k v = fun e => decide (e.1 = j) := by
      funext e
      simp [update_fst]
    rw [hfind]
    cases he : d.entries.find? (fun e => e.1 = j) with
    | none =>
      have hj : j ≠ k := by
        rintro rfl
        obtain ⟨e, hmem, rfl⟩ := List.mem_map.mp hk
        simpa using List.find?_eq_none.mp he e hmem
      simp [hj]
    | some e =>
      have hj : e.1 = j := by simpa using List.find?_some he
      by_cases h : j = k <;> simp [update, hj, h]
  · simp only [if_neg hk, List.find?_append]
    by_cases h : j = k
    · subst h
      have hnone : d.entries.find? (fun e => e.1 = j) = none := by
        rw [List.find?_eq_none]
        intro e he hj
        exact hk (List.mem_map.mpr ⟨e, he, by simpa using hj⟩)
      simp [hnone]
    · simp [h, Ne.symm h]

@[simp] theorem get_set_self (k : κ) (v : ν) (d : Dict κ ν) : (d.set k v).get k = some v := by
  rw [get_set, if_pos rfl]

theorem get_set_of_ne {k j : κ} (h : j ≠ k) (v : ν) (d : Dict κ ν) :
    (d.set k v).get j = d.get j := by
  rw [get_set, if_neg h]

theorem get_set_of_get {d : Dict κ ν} {k : κ} {v : ν} (h : d.get k = some v) (j : κ) :
    (d.set k v).get j = d.get j := by
  rw [get_set]
  split_ifs with hj
  · rw [hj, h]
  · rfl

theorem get_pop_of_none {d : Dict κ ν} {k : κ} (h : d.get k = none) (j : κ) :
    (d.pop k).get j = d.get j := by
  rw [get_pop]
  split_ifs with hj
  · rw [hj, h]
  · rfl

@[simp] theorem get_pop_self (k : κ) (d : Dict κ ν) : (d.pop k).get k = none := by
  rw [get_pop, if_pos rfl]

theorem get_pop_of_ne {k j : κ} (h : j ≠ k) (d : Dict κ ν) : (d.pop k).get j = d.get j := by
  rw [get_pop, if_neg h]

theorem ofList_concat (l : List (κ × ν)) (e : κ × ν) :
    ofList (l ++ [e]) = (ofList l).set e.1 e.2 := by
  simp [ofList]

theorem entries_set_of_new {d : Dict κ ν} {k : κ} (h : k ∉ d.keys) (v : ν) :
    (d.set k v).entries = d.entries ++ [(k, v)] := if_neg h

/-- Pairs with distinct keys are the entries, in their order. -/
theorem entries_ofList {l : List (κ × ν)} (h : (l.map Prod.fst).Nodup) : (ofList l).entries = l := by
  induction l using List.reverseRecOn with
  | nil => rfl
  | append_singleton l e ih =>
    rw [List.map_append, List.nodup_append] at h
    obtain ⟨hl, -, hne⟩ := h
    have hnew : e.1 ∉ (ofList l).keys := by
      rw [keys, ih hl]
      intro he
      exact hne e.1 he e.1 (by simp) rfl
    rw [ofList_concat, entries_set_of_new hnew, ih hl]

@[simp] theorem ofList_entries (d : Dict κ ν) : ofList d.entries = d :=
  eq_of_entries (entries_ofList d.nodup)

theorem get_ofList_of_nodup {l : List (κ × ν)} (h : (l.map Prod.fst).Nodup) {e : κ × ν} :
    (ofList l).get e.1 = some e.2 ↔ e ∈ l := by
  rw [get_eq_some_iff, entries_ofList h]

theorem get_ofList_eq_some_iff {l : List (κ × ν)} {k : κ} {v : ν} :
    (ofList l).get k = some v ↔
      ∃ before after, l = before ++ (k, v) :: after ∧ ∀ e ∈ after, e.1 ≠ k := by
  induction l using List.reverseRecOn with
  | nil => simp [ofList]
  | append_singleton l e ih =>
    rw [ofList_concat, get_set]
    constructor
    · intro h
      split_ifs at h with hk
      · obtain rfl : e = (k, v) := Prod.ext hk.symm (Option.some.inj h)
        exact ⟨l, [], rfl, by simp⟩
      · obtain ⟨before, after, rfl, hafter⟩ := ih.mp h
        refine ⟨before, after ++ [e], by simp, ?_⟩
        intro e' he'
        rcases List.mem_append.mp he' with he' | he'
        · exact hafter e' he'
        · rw [List.mem_singleton.mp he']
          exact Ne.symm hk
    · rintro ⟨before, after, heq, hafter⟩
      rcases List.eq_nil_or_concat after with rfl | ⟨after, e', rfl⟩
      · obtain ⟨-, rfl⟩ := List.append_inj' heq rfl |>.imp id List.singleton_inj.mp
        rw [if_pos rfl]
      · rw [List.concat_eq_append, ← List.cons_append, ← List.append_assoc] at heq
        obtain ⟨rfl, he⟩ := List.append_inj' heq rfl
        obtain rfl : e = e' := List.singleton_inj.mp he
        rw [if_neg (hafter e (by simp)).symm]
        exact ih.mpr ⟨before, after, rfl, fun e' he' => hafter e' (by simp [he'])⟩

theorem get_ofList_eq_none {l : List (κ × ν)} {k : κ} (h : ∀ e ∈ l, e.1 ≠ k) :
    (ofList l).get k = none := by
  induction l using List.reverseRecOn with
  | nil => rfl
  | append_singleton l e ih =>
    rw [ofList_concat, get_set_of_ne (h e (by simp)).symm]
    exact ih (fun e' he' => h e' (by simp [he']))

theorem get_ofList_eq_some {l : List (κ × ν)} {k : κ} {v : ν} (hmem : (k, v) ∈ l)
    (hsame : ∀ e ∈ l, e.1 = k → e.2 = v) : (ofList l).get k = some v := by
  induction l using List.reverseRecOn with
  | nil => cases hmem
  | append_singleton l e ih =>
    rw [ofList_concat, get_set]
    by_cases hk : k = e.1
    · rw [if_pos hk, hsame e (by simp) hk.symm]
    · rw [if_neg hk]
      refine ih ?_ (fun e' he' => hsame e' (by simp [he']))
      rcases List.mem_append.mp hmem with h | h
      · exact h
      · rw [List.mem_singleton] at h
        exact absurd (congrArg Prod.fst h) hk

/-- A dictionary whose values are given new keys, looked up at one that only the value of `k` gets. -/
theorem get_ofList_values {κ' μ : Type*} [DecidableEq κ'] (d : Dict κ ν) (f : ν → κ') (g : ν → μ)
    {k : κ} {c : κ'} (hf : ∀ j v, d.get j = some v → (f v = c ↔ j = k)) :
    (ofList (d.values.map (fun v => (f v, g v)))).get c = (d.get k).map g := by
  cases hget : d.get k with
  | none =>
    refine get_ofList_eq_none ?_
    simp only [List.forall_mem_map, mem_values_iff]
    rintro v ⟨j, hj⟩ hv
    rw [(hf j v hj).mp hv, hget] at hj
    cases hj
  | some v =>
    refine get_ofList_eq_some ?_ ?_
    · refine List.mem_map.mpr ⟨v, mem_values_iff.mpr ⟨k, hget⟩, ?_⟩
      rw [(hf k v hget).mpr rfl]
    · simp only [List.forall_mem_map, mem_values_iff]
      rintro w ⟨j, hj⟩ hw
      rw [(hf j w hj).mp hw, hget] at hj
      rw [Option.some.inj hj]

end Lookup

end Dict

/-! ### References -/

namespace References

variable {ι β : Type*} (ref : β → ι)

/-- What is left when the things that name an id of `gone` are dropped. -/
def cascade (gone : Set ι) (bound : Set β) : Set β := {b ∈ bound | ref b ∉ gone}

variable {ref} {gone live live' : Set ι} {bound : Set β}

/-- If an id disappears only when it is dropped, the references that are left name ids that are
still there. -/
theorem mapsTo_cascade (hsound : Set.MapsTo ref bound live) (hkept : live \ gone ⊆ live') :
    Set.MapsTo ref (cascade ref gone bound) live' :=
  fun _ hb => hkept ⟨hsound hb.1, hb.2⟩

/-- The cascade drops exactly the references that are left without their id if and only if none of
the ids it drops is named and still there. -/
theorem cascade_exact_iff (hsound : Set.MapsTo ref bound live) (hkept : live \ gone ⊆ live') :
    cascade ref gone bound = {b ∈ bound | ref b ∈ live'} ↔
      ∀ b ∈ bound, ref b ∈ gone → ref b ∉ live' := by
  constructor
  · intro h b hb hgone hlive
    have hmem : b ∈ cascade ref gone bound := h ▸ ⟨hb, hlive⟩
    exact hmem.2 hgone
  · intro h
    ext b
    constructor
    · intro hb
      exact ⟨hb.1, mapsTo_cascade hsound hkept hb⟩
    · intro hb
      exact ⟨hb.1, fun hgone => h b hb.1 hgone hb.2⟩

end References

end TelafSim
