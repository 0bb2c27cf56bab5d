import TelafSim.Trace
import TelafSim.ProfileStore

/-!
# The profile store and its file

A `ProfileStore` with a persist path, along runs of its operations and of loads of files that hold
anything at all. Each write may fail, and then leaves the last file where it is.
-/

namespace TelafSim

/-! ### What a dictionary is made of -/

/-- Of the pairs with the key `k`, the last has the value `v`. -/
def LastOf {κ ν : Type*} (l : List (κ × ν)) (k : κ) (v : ν) : Prop :=
  ∃ before after, l = before ++ (k, v) :: after ∧ ∀ e ∈ after, e.1 ≠ k

theorem PyDict.get_ofPairs (l : List (Scalar × Json)) (k : PyKey) :
    ((PyDict.ofPairs l).get k).map Prod.snd =
      (Dict.ofList (l.map (fun e => (e.1.key, e.2)))).get k := by
  induction l using List.reverseRecOn with
  | nil => rfl
  | append_singleton l e ih =>
    rw [PyDict.ofPairs_concat, PyDict.get_assign, List.map_append, List.map_singleton,
      Dict.ofList_concat, Dict.get_set, ih]

/-- An iterable of two, of which the first has a hash. -/
def Json.IsItem (x : Json) (e : Scalar × Json) : Prop := x.iter = .ok [.scalar e.1, e.2]

/-- The pairs that `dict(x)` sets one after the other. -/
def Json.HasItems : Json → List (Scalar × Json) → Prop
  | .obj pairs, l => l = pairs.map (fun e => (.str e.1, e.2))
  | x, l => ∃ items, x.iter = .ok items ∧ List.Forall₂ Json.IsItem items l

theorem Json.asItem_eq_ok_iff {x : Json} {e : Scalar × Json} : x.asItem = .ok e ↔ x.IsItem e := by
  unfold asItem IsItem
  constructor
  · intro h
    split at h
    · next k v hiter => rw [hiter, ← Except.ok.inj h]
    · cases h
    · cases h
    · cases h
  · intro h
    rw [h]

theorem Json.toDict_eq_ok_iff {x : Json} {d : PyDict} :
    x.toDict = .ok d ↔ ∃ l, x.HasItems l ∧ d = .ofPairs l := by
  have hiter : x.iter.bind (fun items => (items.mapM asItem).map PyDict.ofPairs) = .ok d ↔
      ∃ l, (∃ items, x.iter = .ok items ∧ List.Forall₂ IsItem items l) ∧ d = .ofPairs l := by
    simp only [bind_eq_ok_iff, map_eq_ok_iff, mapM_eq_ok_iff, asItem_eq_ok_iff]
    constructor
    · rintro ⟨items, hitems, l, hl, rfl⟩
      exact ⟨l, ⟨items, hitems, hl⟩, rfl⟩
    · rintro ⟨l, ⟨items, hitems, hl⟩, rfl⟩
      exact ⟨items, hitems, l, hl, rfl⟩
  cases x with
  | obj pairs => simp [toDict, HasItems, eq_comm]
  | arr items => exact hiter
  | scalar v => cases v <;> exact hiter

theorem PyDict.get_ofPairs_eq_some_iff {l : List (Scalar × Json)} {k : PyKey} {v : Json} :
    ((PyDict.ofPairs l).get k).map Prod.snd = some v ↔
      LastOf (l.map (fun e => (e.1.key, e.2))) k v := by
  rw [get_ofPairs]
  exact Dict.get_ofList_eq_some_iff

namespace Data

/-! ### What a file holds -/

/-- An object with a hashable id that names nothing but fields, and the profile it is. -/
def Profile.IsRead (x : Json) (e : PyKey × Profile) : Prop :=
  ∃ pairs id, x = .obj pairs ∧ (Dict.ofList pairs).get "id" = some (.scalar id) ∧
    (∀ n ∈ (Dict.ofList pairs).keys, n ∈ fieldNames) ∧
    e = (id.key, ofKeywords id (.ofList pairs))

theorem Profile.ofSnapshot_eq_ok_iff {x : Json} {e : PyKey × Profile} :
    ofSnapshot x = .ok e ↔ IsRead x e := by
  constructor
  · intro h
    unfold ofSnapshot at h
    split at h
    · next pairs =>
      dsimp only at h
      split at h
      · cases h
      · next id hid =>
        split_ifs at h with hall
        split at h
        · next v =>
          exact ⟨pairs, v, rfl, hid, by simpa using hall, (Except.ok.inj h).symm⟩
        · cases h
    · cases h
  · rintro ⟨pairs, id, rfl, hid, hall, rfl⟩
    have hall' : (Dict.ofList pairs).keys.all (· ∈ fieldNames) = true := by simpa using hall
    simp only [ofSnapshot, hid, hall', if_true]

/-- The file reads as if there were none. -/
def Content.Absent : Content → Prop
  | .missing => True
  | .unreadable => True
  | .notJson => True
  | .raising _ => False
  | .json v => v = .scalar .null

/-- An object whose `profiles` lists the profiles and whose `defaults` is made of the pairs. -/
def Content.Holds (c : Content) (profiles : List (PyKey × Profile))
    (defaults : List (Scalar × Json)) : Prop :=
  ∃ pairs items, c = .json (.obj pairs) ∧
    (((Dict.ofList pairs).get "profiles").getD (.arr [])).iter = .ok items ∧
    List.Forall₂ Profile.IsRead items profiles ∧
    (((Dict.ofList pairs).get "defaults").getD (.obj [])).HasItems defaults

def Content.Loadable (c : Content) : Prop :=
  c.Absent ∨ ∃ profiles defaults, c.Holds profiles defaults

theorem readJson_eq_none_iff {c : Content} : readJson c = .ok none ↔ c.Absent := by
  cases c with
  | missing | unreadable | notJson => simp [readJson, Content.Absent]
  | raising e => simp [readJson, Content.Absent]
  | json v =>
    cases v with
    | scalar v => cases v <;> simp [readJson, Content.Absent]
    | arr items => simp [readJson, Content.Absent]
    | obj pairs => simp [readJson, Content.Absent]

theorem readJson_eq_some {c : Content} {v : Json} (h : readJson c = .ok (some v)) :
    c = .json v := by
  cases c with
  | missing | unreadable | notJson | raising e => cases h
  | json w =>
    cases w with
    | scalar w => cases w <;> cases h <;> rfl
    | arr items => cases h; rfl
    | obj pairs => cases h; rfl

namespace ProfileStore

theorem member_eq_ok_iff {snapshot v default : Json} {name : String} :
    member snapshot name default = .ok v ↔
      ∃ pairs, snapshot = .obj pairs ∧ v = ((Dict.ofList pairs).get name).getD default := by
  cases snapshot <;> simp [member, eq_comm]

theorem readProfiles_eq_ok_iff {snapshot : Json} {profiles : Dict PyKey Profile} :
    readProfiles snapshot = .ok profiles ↔
      ∃ pairs items l, snapshot = .obj pairs ∧
        (((Dict.ofList pairs).get "profiles").getD (.arr [])).iter = .ok items ∧
        List.Forall₂ Profile.IsRead items l ∧ profiles = .ofList l := by
  have hdef : readProfiles snapshot = (member snapshot "profiles" (.arr [])).bind (fun v =>
      v.iter.bind (fun items => (items.mapM Profile.ofSnapshot).map Dict.ofList)) := rfl
  simp only [hdef, Json.bind_eq_ok_iff, Json.map_eq_ok_iff, Json.mapM_eq_ok_iff,
    Profile.ofSnapshot_eq_ok_iff, member_eq_ok_iff]
  constructor
  · rintro ⟨_, ⟨pairs, rfl, rfl⟩, items, hitems, l, hl, rfl⟩
    exact ⟨pairs, items, l, rfl, hitems, hl, rfl⟩
  · rintro ⟨pairs, items, l, rfl, hitems, hl, rfl⟩
    exact ⟨_, ⟨pairs, rfl, rfl⟩, items, hitems, l, hl, rfl⟩

theorem readDefaults_eq_ok_iff {snapshot : Json} {defaults : PyDict} :
    readDefaults snapshot = .ok defaults ↔
      ∃ pairs l, snapshot = .obj pairs ∧
        (((Dict.ofList pairs).get "defaults").getD (.obj [])).HasItems l ∧
        defaults = .ofPairs l := by
  have hdef : readDefaults snapshot =
    (member snapshot "defaults" (.obj [])).bind Json.toDict := rfl
  simp only [hdef, Json.bind_eq_ok_iff, member_eq_ok_iff, Json.toDict_eq_ok_iff]
  constructor
  · rintro ⟨_, ⟨pairs, rfl, rfl⟩, l, hl, rfl⟩
    exact ⟨pairs, l, rfl, hl, rfl⟩
  · rintro ⟨pairs, l, rfl, hl, rfl⟩
    exact ⟨_, ⟨pairs, rfl, rfl⟩, l, hl, rfl⟩

/-! ### What `load` comes to -/

theorem load_eq_false_iff {c : Content} {s : ProfileStore} :
    (s.load c).1 = .ok false ↔ c.Absent := by
  rw [← readJson_eq_none_iff]
  unfold load
  split
  · next e he => simp [he]
  · next he => simp [he]
  · next snapshot he =>
    split
    · simp [he]
    · split <;> simp [he]

theorem load_of_absent {c : Content} (h : c.Absent) (s : ProfileStore) :
    s.load c = (.ok false, s) := by
  simp only [load, readJson_eq_none_iff.mpr h]

theorem load_of_holds {c : Content} {profiles : List (PyKey × Profile)}
    {defaults : List (Scalar × Json)} (h : c.Holds profiles defaults) (s : ProfileStore) :
    s.load c = (.ok true, ⟨.ofList profiles, .ofPairs defaults⟩) := by
  obtain ⟨pairs, items, rfl, hitems, hprofiles, hdefaults⟩ := h
  have hp := readProfiles_eq_ok_iff.mpr ⟨pairs, items, profiles, rfl, hitems, hprofiles, rfl⟩
  have hd := readDefaults_eq_ok_iff.mpr ⟨pairs, defaults, rfl, hdefaults, rfl⟩
  have hread : readJson (.json (.obj pairs)) = .ok (some (.obj pairs)) := rfl
  simp only [load, hread, hp, hd]

theorem load_eq_true_iff {c : Content} {s : ProfileStore} :
    (s.load c).1 = .ok true ↔ ∃ profiles defaults, c.Holds profiles defaults := by
  constructor
  · intro h
    unfold load at h
    split at h
    · cases h
    · cases h
    · next snapshot hread =>
      split at h
      · cases h
      · next d hd =>
        split at h
        · cases h
        · next d' hd' =>
          obtain ⟨pairs, items, profiles, rfl, hitems, hprofiles, -⟩ := readProfiles_eq_ok_iff.mp hd
          obtain ⟨pairs', defaults, hpairs, hdefaults, -⟩ := readDefaults_eq_ok_iff.mp hd'
          rw [← Json.obj.inj hpairs] at hdefaults
          exact ⟨profiles, defaults, pairs, items, readJson_eq_some hread, hitems, hprofiles,
            hdefaults⟩
  · rintro ⟨profiles, defaults, h⟩
    rw [load_of_holds h]

/-- Both maps are what the file holds: of what it gives one key, the last counts. -/
def Replaces (c : Content) (t : ProfileStore) : Prop :=
  ∃ profiles defaults, c.Holds profiles defaults ∧
    (∀ k p, t.profiles.get k = some p ↔ LastOf profiles k p) ∧
    ∀ k v, (t.defaults.get k).map Prod.snd = some v ↔
      LastOf (defaults.map (fun e => (e.1.key, e.2))) k v

theorem replaces_of_holds {c : Content} {profiles : List (PyKey × Profile)}
    {defaults : List (Scalar × Json)} (h : c.Holds profiles defaults) :
    Replaces c ⟨.ofList profiles, .ofPairs defaults⟩ :=
  ⟨profiles, defaults, h, fun _ _ => Dict.get_ofList_eq_some_iff,
    fun _ _ => PyDict.get_ofPairs_eq_some_iff⟩

/-- `load` returns: `True` and both maps replaced, or `False` and nothing changed. -/
def LoadsWell (s : ProfileStore) (c : Content) : Prop :=
  ∃ b, (s.load c).1 = .ok b ∧ (b = true → Replaces c (s.load c).2) ∧
    (b = false → (s.load c).2 = s)

theorem loadsWell_iff (s : ProfileStore) (c : Content) : s.LoadsWell c ↔ c.Loadable := by
  constructor
  · rintro ⟨b, hb, -⟩
    cases b with
    | false => exact .inl (load_eq_false_iff.mp hb)
    | true => exact .inr (load_eq_true_iff.mp hb)
  · rintro (h | ⟨profiles, defaults, h⟩)
    · refine ⟨false, load_eq_false_iff.mpr h, ?_, fun _ => ?_⟩
      · rintro ⟨⟩
      · rw [load_of_absent h]
    · refine ⟨true, by rw [load_of_holds h], fun _ => ?_, ?_⟩
      · rw [load_of_holds h]
        exact replaces_of_holds h
      · rintro ⟨⟩

/-! ### What a load leaves -/

/-- The key object of a default is one of its key. -/
def Consistent (s : ProfileStore) : Prop := ∀ k e, s.defaults.get k = some e → e.1.key = k

theorem id_key_of_isRead {items : List Json} {l : List (PyKey × Profile)}
    (h : List.Forall₂ Profile.IsRead items l) {e : PyKey × Profile} (he : e ∈ l) :
    e.2.id.key = e.1 := by
  induction h with
  | nil => cases he
  | cons hread _ ih =>
    rcases List.mem_cons.mp he with rfl | he
    · obtain ⟨pairs, id, -, -, -, rfl⟩ := hread
      rfl
    · exact ih he

theorem keyed_of_readProfiles {snapshot : Json} {profiles : Dict PyKey Profile}
    (h : readProfiles snapshot = .ok profiles) (defaults : PyDict) : Keyed ⟨profiles, defaults⟩ := by
  obtain ⟨pairs, items, l, -, -, hl, rfl⟩ := readProfiles_eq_ok_iff.mp h
  intro k p hp
  obtain ⟨before, after, rfl, -⟩ := Dict.get_ofList_eq_some_iff.mp hp
  exact id_key_of_isRead hl (e := (k, p)) (by simp)

theorem Keyed.load {s : ProfileStore} (h : Keyed s) (c : Content) : Keyed (s.load c).2 := by
  unfold ProfileStore.load
  split
  · exact h
  · exact h
  · split
    · exact h
    · next profiles hprofiles =>
      split
      · exact keyed_of_readProfiles hprofiles _
      · exact keyed_of_readProfiles hprofiles _

theorem consistent_assign {d : PyDict} (h : ∀ k e, d.get k = some e → e.1.key = k) (j : Scalar)
    (v : Json) : ∀ k e, (d.assign j v).get k = some e → e.1.key = k := by
  intro k e he
  rw [PyDict.assign, Dict.get_set] at he
  split_ifs at he with hk
  · obtain rfl := Option.some.inj he
    cases hget : d.get j.key with
    | none => exact hk.symm
    | some e' => exact (h _ e' hget).trans hk.symm
  · exact h k e he

theorem consistent_ofPairs (l : List (Scalar × Json)) :
    ∀ k e, (PyDict.ofPairs l).get k = some e → e.1.key = k := by
  induction l using List.reverseRecOn with
  | nil =>
    intro k e he
    cases he
  | append_singleton l e ih =>
    rw [PyDict.ofPairs_concat]
    exact consistent_assign ih e.1 e.2

theorem Consistent.change {s s' : ProfileStore} (h : Consistent s) (hs : Change s s') :
    Consistent s' := by
  cases hs with
  | store p => exact h
  | assign opType id hid => exact consistent_assign h (.str opType) (.scalar id)
  | remove id =>
    intro k e he
    rw [remove, Dict.get_keepValues, Option.filter_eq_some_iff] at he
    exact h k e he.1

theorem Consistent.load {s : ProfileStore} (h : Consistent s) (c : Content) :
    Consistent (s.load c).2 := by
  unfold ProfileStore.load
  split
  · exact h
  · exact h
  · split
    · exact h
    · split
      · exact h
      · next defaults hdefaults =>
        obtain ⟨pairs, l, -, -, rfl⟩ := readDefaults_eq_ok_iff.mp hdefaults
        exact consistent_ofPairs l

/-! ### When a write loses nothing -/

/-- A dump makes strings of the keys, so the keys that are strings before are the ones it keeps. -/
def StringKeys (s : ProfileStore) : Prop := ∀ k ∈ s.defaults.keys, ∃ opType, k = .str opType

theorem Consistent.named_iff {s : ProfileStore} (h : Consistent s) : Named s ↔ StringKeys s := by
  constructor
  · intro hnamed k hk
    obtain ⟨e, he⟩ := Dict.mem_keys_iff.mp hk
    obtain ⟨opType, -, hk⟩ := hnamed k e he
    exact ⟨opType, hk⟩
  · intro hstr k e he
    obtain ⟨opType, rfl⟩ := hstr k (Dict.mem_keys_iff.mpr ⟨e, he⟩)
    refine ⟨opType, ?_, rfl⟩
    have hkey := h _ e he
    cases hv : e.1 <;> rw [hv] at hkey <;> cases hkey
    rfl

theorem stringKeys_ofPairs (profiles : Dict PyKey Profile) (l : List (String × Json)) :
    StringKeys ⟨profiles, .ofPairs (l.map (fun e => (.str e.1, e.2)))⟩ := by
  intro k hk
  obtain ⟨e, he⟩ := Dict.mem_keys_iff.mp hk
  obtain ⟨before, after, hl, -⟩ :=
    PyDict.get_ofPairs_eq_some_iff.mp (congrArg (Option.map Prod.snd) he)
  have hmem : (k, e.2) ∈ before ++ (k, e.2) :: after := by simp
  rw [← hl, List.map_map] at hmem
  obtain ⟨e', -, he'⟩ := List.mem_map.mp hmem
  exact ⟨e'.1, (Prod.mk.inj he').1.symm⟩

theorem load_snapshot_iff [FloatText] {t : ProfileStore} (hkeyed : Keyed t)
    (hconsistent : Consistent t) :
    empty.load (.json t.snapshot) = (.ok true, t) ↔ StringKeys t := by
  constructor
  · intro h
    obtain ⟨profiles, defaults, hholds⟩ := load_eq_true_iff.mp (congrArg Prod.fst h)
    rw [load_of_holds hholds] at h
    have ht := (Prod.mk.inj h).2
    obtain ⟨pairs, items, hpairs, -, -, hdefaults⟩ := hholds
    rw [← Json.obj.inj (Content.json.inj hpairs)] at hdefaults
    have hstrings : defaults = _ := hdefaults
    rw [hstrings] at ht
    rw [← ht]
    exact stringKeys_ofPairs _ _
  · intro hstr
    exact load_snapshot hkeyed (hconsistent.named_iff.mpr hstr) empty

/-- The store takes the operation. -/
def Accepts (s : ProfileStore) : Operation → Prop
  | .seed _ => True
  | .create _ => s.profiles.size < maxProfiles
  | .modify profileId _ => profileId.key ∈ s.profiles.keys
  | .delete profileId => profileId.key ∈ s.profiles.keys
  | .setDefault _ profileId => profileId.key ∈ s.profiles.keys

instance (s : ProfileStore) : ∀ o, Decidable (s.Accepts o)
  | .seed _ => inferInstanceAs (Decidable True)
  | .create _ => inferInstanceAs (Decidable (_ < _))
  | .modify _ _ => inferInstanceAs (Decidable (_ ∈ _))
  | .delete _ => inferInstanceAs (Decidable (_ ∈ _))
  | .setDefault _ _ => inferInstanceAs (Decidable (_ ∈ _))

theorem perform_eq_none_iff {s : ProfileStore} {o : Operation} :
    (s.perform o).1 = none ↔ s.Accepts o := by
  cases o with
  | seed l => exact iff_of_true rfl trivial
  | create data =>
    rw [Accepts, ← create_ok_iff data s]
    simp only [perform]
    cases (s.create data).1 <;> simp [perform.error?]
  | modify id data =>
    rw [Accepts, Dict.mem_keys_iff]
    simp only [perform, modify]
    cases s.profiles.get id.key <;> simp [perform.error?]
  | delete id =>
    rw [Accepts, Dict.mem_keys_iff]
    simp only [perform, delete]
    cases s.profiles.get id.key <;> simp [perform.error?]
  | setDefault opType id =>
    rw [Accepts]
    simp only [perform, setDefault]
    split
    · next h => simp [perform.error?, h]
    · next h => simp [perform.error?, h]

/-- The keys of the defaults that the operation leaves are strings. -/
def LeavesStrings (s : ProfileStore) (o : Operation) : Prop :=
  ∀ k e, s.defaults.get k = some e → (∀ id, o = .delete id → names e.2 id.key = false) →
    ∃ opType, k = .str opType

theorem stringKeys_assignDefault (opType : String) (id : Scalar) (s : ProfileStore) :
    StringKeys (s.assignDefault opType id) ↔ StringKeys s := by
  have hkeys : ∀ k, k ∈ (s.assignDefault opType id).defaults.keys ↔
      k = .str opType ∨ k ∈ s.defaults.keys := by
    intro k
    rw [Dict.mem_keys_iff, Dict.mem_keys_iff, assignDefault, PyDict.assign]
    simp only [Dict.get_set, Scalar.key]
    by_cases hk : k = .str opType <;> simp [hk]
  simp only [StringKeys, hkeys]
  constructor
  · intro h k hk
    exact h k (.inr hk)
  · rintro h k (rfl | hk)
    · exact ⟨opType, rfl⟩
    · exact h k hk

theorem stringKeys_seed (l : List SeedProfile) (s : ProfileStore) :
    StringKeys (s.seed l) ↔ StringKeys s := by
  induction l generalizing s with
  | nil => rfl
  | cons sp l ih =>
    refine (ih (s.seedOne sp)).trans ?_
    unfold seedOne
    split
    · exact stringKeys_assignDefault _ _ _
    · rfl

theorem stringKeys_remove (id : Scalar) (s : ProfileStore) :
    StringKeys (s.remove id) ↔ s.LeavesStrings (.delete id) := by
  simp only [StringKeys, LeavesStrings, Dict.mem_keys_iff, remove, Dict.get_keepValues,
    Option.filter_eq_some_iff, Operation.delete.injEq, forall_eq', decide_eq_true_eq,
    forall_exists_index, and_imp]

theorem stringKeys_perform_iff {s : ProfileStore} {o : Operation} (h : s.Accepts o) :
    StringKeys (s.perform o).2 ↔ s.LeavesStrings o := by
  have hsame : (∀ id, o ≠ .delete id) → (StringKeys s ↔ s.LeavesStrings o) := by
    intro hne
    simp only [StringKeys, LeavesStrings, Dict.mem_keys_iff, forall_exists_index, hne,
      false_implies, implies_true, true_implies]
  cases o with
  | seed l => exact (stringKeys_seed l s).trans (hsame (by simp))
  | create data =>
    obtain ⟨id, hid⟩ := (create_ok_iff data s).mpr h
    simp only [perform, (create_eq hid).2]
    exact hsame (by simp)
  | modify id data =>
    obtain ⟨p, hp⟩ := Dict.mem_keys_iff.mp h
    simp only [perform, modify, hp]
    exact hsame (by simp)
  | delete id =>
    obtain ⟨p, hp⟩ := Dict.mem_keys_iff.mp h
    simp only [perform, delete, hp]
    exact stringKeys_remove id s
  | setDefault opType id =>
    have hid : id.key ∈ s.profiles.keys := h
    simp only [perform, setDefault, hid, if_true]
    exact (stringKeys_assignDefault opType id s).trans (hsame (by simp))

end ProfileStore

/-! ### The store with its file -/

/-- A store with a persist path. -/
structure PersistedStore where
  store : ProfileStore
  /-- What was written last, and the store it was written from. -/
  saved : Option (Json × ProfileStore)

inductive PersistEvent
  /-- An operation, and whether the file can be written then. -/
  | perform (o : ProfileStore.Operation) (writable : Bool)
  /-- A load of a file that holds anything. -/
  | load (c : Content)

namespace PersistedStore

def init : PersistedStore := ⟨.empty, none⟩

def Regular (s : PersistedStore) : Prop := s.store.Keyed ∧ s.store.Consistent

theorem regular_init : init.Regular := by
  constructor
  · intro k p hp
    cases hp
  · intro k e he
    cases he

variable [FloatText]

/-- `_maybe_persist`: an `OSError` is logged and swallowed. -/
def maybePersist (writable : Bool) (s : PersistedStore) : PersistedStore :=
  if writable then { s with saved := some (s.store.snapshot, s.store) } else s

/-- A failed operation does not get as far as `_maybe_persist`. -/
def step (s : PersistedStore) : PersistEvent → Option PersistedStore
  | .perform o writable =>
    match s.store.perform o with
    | (some _, t) => some { s with store := t }
    | (none, t) => some (maybePersist writable { s with store := t })
  | .load c => some { s with store := (s.store.load c).2 }

/-- The file that was written last gives a fresh store the maps it was written from. -/
def Lossless (s : PersistedStore) : Prop :=
  ∀ w t, s.saved = some (w, t) → ProfileStore.empty.load (.json w) = (.ok true, t)

def LoadsWell (s : PersistedStore) : PersistEvent → Prop
  | .perform _ _ => True
  | .load c => s.store.LoadsWell c

/-- A file that is loaded is absent or shaped as a snapshot; what is written has strings for the
keys of its defaults. -/
def Shaped (s : PersistedStore) : PersistEvent → Prop
  | .perform o writable => s.store.Accepts o → writable = true → s.store.LeavesStrings o
  | .load c => c.Loadable

theorem step_perform (s : PersistedStore) (o : ProfileStore.Operation) (writable : Bool) :
    s.step (.perform o writable) =
      some ⟨(s.store.perform o).2, if s.store.Accepts o ∧ writable = true
        then some ((s.store.perform o).2.snapshot, (s.store.perform o).2) else s.saved⟩ := by
  simp only [step, ← ProfileStore.perform_eq_none_iff]
  rcases s.store.perform o with ⟨_ | e, t⟩
  · cases writable <;> simp [maybePersist]
  · simp

theorem Regular.step {s s' : PersistedStore} (h : s.Regular) {a : PersistEvent}
    (hs : s.step a = some s') : s'.Regular := by
  cases a with
  | perform o writable =>
    rw [step_perform] at hs
    obtain rfl := Option.some.inj hs
    exact ⟨ProfileStore.perform_keeps ProfileStore.Keyed.change h.1 o,
      ProfileStore.perform_keeps ProfileStore.Consistent.change h.2 o⟩
  | load c =>
    obtain rfl := Option.some.inj hs
    exact ⟨h.1.load c, h.2.load c⟩

/-- A write is lossless if and only if the keys it finds are strings. -/
theorem lossless_step_iff {s s' : PersistedStore} (hregular : s.Regular) (h : s.Lossless)
    {a : PersistEvent} (hs : s.step a = some s') : s'.Lossless ∧ s.LoadsWell a ↔ s.Shaped a := by
  have hregular' := hregular.step hs
  cases a with
  | perform o writable =>
    rw [step_perform] at hs
    obtain rfl := Option.some.inj hs
    rw [LoadsWell, and_true, Shaped]
    by_cases hwrites : s.store.Accepts o ∧ writable = true
    · rw [if_pos hwrites]
      simp only [hwrites.1, hwrites.2, true_implies]
      rw [← ProfileStore.stringKeys_perform_iff hwrites.1,
        ← ProfileStore.load_snapshot_iff hregular'.1 hregular'.2]
      simp [Lossless]
    · rw [if_neg hwrites]
      exact iff_of_true h (fun haccepts hwritable => absurd ⟨haccepts, hwritable⟩ hwrites)
  | load c =>
    obtain rfl := Option.some.inj hs
    have hlossless : Lossless { s with store := (s.store.load c).2 } := h
    rw [and_iff_right hlossless]
    exact ProfileStore.loadsWell_iff s.store c

/-- From a fresh store, what was written last always reads back as it was, and every load returns
with both maps replaced or nothing changed, if and only if every file that is loaded is absent or
shaped as a snapshot and no write finds a key among the defaults that is not a string. -/
theorem lossless_and_loadsWell_iff (l : List PersistEvent) :
    (Trace.Always step Lossless init l ∧ Trace.AllSteps step LoadsWell init l) ↔
      Trace.AllSteps step Shaped init l := by
  refine Trace.always_and_allSteps_iff ?_ (fun s a s' h hs => h.step hs)
    (fun s a s' hregular h hs => lossless_step_iff hregular h hs) l regular_init ?_
  · intro s a
    cases a with
    | perform o writable =>
      rw [step_perform]
      rfl
    | load c => rfl
  · intro w t hsaved
    cases hsaved

end PersistedStore

/-- A file that holds an empty list raises in `load`. -/
theorem load_list_raises :
    ¬ ∀ [FloatText] (l : List PersistEvent),
      Trace.Always PersistedStore.step PersistedStore.Lossless PersistedStore.init l ∧
        Trace.AllSteps PersistedStore.step PersistedStore.LoadsWell PersistedStore.init l := by
  intro h
  let _ : FloatText := ⟨fun x => toString x⟩
  obtain ⟨-, ⟨b, hb, -⟩, -⟩ := h [.load (.json (.arr []))]
  cases hb

end Data

end TelafSim
