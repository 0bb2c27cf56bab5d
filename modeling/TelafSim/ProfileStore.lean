import TelafSim.PyJson

/-!
# The profile store of the modem

`ProfileStore` of `sml/mpss/data/profile.py`: the profiles by id and the default profile of each
operation type, the five operations on them, the snapshot that is written after each of them, and
`load`. What a request puts into a field is any JSON value, as is what `load` finds there.
-/

namespace TelafSim.Data

structure Profile where
  id : Scalar
  profileName : Json
  apn : Json
  userName : Json
  password : Json
  techPref : Json
  authType : Json
  ipFamilyType : Json
  apnTypes : Json
  emergencyAllowed : Json
  clatEnabled : Json
  isDefault : Json

namespace Profile

def fieldNames : List String :=
  ["id", "profileName", "apn", "userName", "password", "techPref", "authType", "ipFamilyType",
    "apnTypes", "emergencyAllowed", "clatEnabled", "isDefault"]

def asdict (p : Profile) : List (String × Json) :=
  [("id", .scalar p.id), ("profileName", p.profileName), ("apn", p.apn), ("userName", p.userName),
    ("password", p.password), ("techPref", p.techPref), ("authType", p.authType),
    ("ipFamilyType", p.ipFamilyType), ("apnTypes", p.apnTypes),
    ("emergencyAllowed", p.emergencyAllowed), ("clatEnabled", p.clatEnabled),
    ("isDefault", p.isDefault)]

def default (id : Scalar) : Profile where
  id := id
  profileName := .str ""
  apn := .str ""
  userName := .str ""
  password := .str ""
  techPref := .str "TP_3GPP"
  authType := .str "AUTH_NONE"
  ipFamilyType := .str "IPV4V6"
  apnTypes := .scalar (.int 0)
  emergencyAllowed := .str "UNSPECIFIED"
  clatEnabled := .scalar (.bool false)
  isDefault := .scalar (.bool false)

/-- The fields that `data` names, over those of `p`; `id` and `isDefault` are not taken from it. -/
def override (data : Dict String Json) (p : Profile) : Profile where
  id := p.id
  profileName := (data.get "profileName").getD p.profileName
  apn := (data.get "apn").getD p.apn
  userName := (data.get "userName").getD p.userName
  password := (data.get "password").getD p.password
  techPref := (data.get "techPref").getD p.techPref
  authType := (data.get "authType").getD p.authType
  ipFamilyType := (data.get "ipFamilyType").getD p.ipFamilyType
  apnTypes := (data.get "apnTypes").getD p.apnTypes
  emergencyAllowed := (data.get "emergencyAllowed").getD p.emergencyAllowed
  clatEnabled := (data.get "clatEnabled").getD p.clatEnabled
  isDefault := p.isDefault

/-- `Profile(**data)` with the id that `data` gives. -/
def ofKeywords (id : Scalar) (data : Dict String Json) : Profile :=
  { (default id).override data with
    isDefault := (data.get "isDefault").getD (default id).isDefault }

/-- An element of `profiles` in a snapshot, under the key it gets. -/
def ofSnapshot : Json → Except PyError (PyKey × Profile)
  | .obj pairs =>
    let data := Dict.ofList pairs
    match data.get "id" with
    | none => .error .keyError
    | some id =>
      if data.keys.all (· ∈ fieldNames) then
        match id with
        | .scalar v => .ok (v.key, ofKeywords v data)
        | _ => .error .typeError
      else .error .typeError
  | _ => .error .typeError

theorem map_fst_asdict (p : Profile) : p.asdict.map Prod.fst = fieldNames := rfl

theorem get_asdict (p : Profile) {e : String × Json} (he : e ∈ p.asdict) :
    (Dict.ofList p.asdict).get e.1 = some e.2 := by
  have hnames : (p.asdict.map Prod.fst).Nodup := by
    rw [map_fst_asdict]
    decide
  rw [Dict.get_eq_some_iff, Dict.entries_ofList hnames]
  exact he

theorem keys_asdict (p : Profile) : (Dict.ofList p.asdict).keys = fieldNames := by
  have hnames : (p.asdict.map Prod.fst).Nodup := by
    rw [map_fst_asdict]
    decide
  rw [Dict.keys, Dict.entries_ofList hnames, map_fst_asdict]

/-- The dump of a profile names every field, so that no default comes in when it is read. -/
theorem ofKeywords_asdict (p : Profile) : ofKeywords p.id (.ofList p.asdict) = p := by
  have hget : ∀ e ∈ p.asdict, (Dict.ofList p.asdict).get e.1 = some e.2 := fun _ => p.get_asdict
  simp only [asdict, List.forall_mem_cons] at hget
  obtain ⟨-, h₁, h₂, h₃, h₄, h₅, h₆, h₇, h₈, h₉, h₁₀, h₁₁, -⟩ := hget
  simp only [ofKeywords, override, asdict, h₁, h₂, h₃, h₄, h₅, h₆, h₇, h₈, h₉, h₁₀, h₁₁,
    Option.getD_some, default]

theorem ofSnapshot_asdict (p : Profile) : ofSnapshot (.obj p.asdict) = .ok (p.id.key, p) := by
  have hid : (Dict.ofList p.asdict).get "id" = some (.scalar p.id) :=
    p.get_asdict (e := ("id", .scalar p.id)) List.mem_cons_self
  have hall : (Dict.ofList p.asdict).keys.all (· ∈ fieldNames) = true := by
    rw [keys_asdict]
    decide
  simp only [ofSnapshot, hid, hall, if_true, ofKeywords_asdict]

end Profile

structure SeedProfile where
  profileId : ℤ
  apn : String
  ipFamily : String
  authType : String
  username : String
  password : String
  techType : String
  isDefault : Bool

def seedTechPrefToWire (techType : String) : String :=
  if techType = "3GPP" then "TP_3GPP"
  else if techType = "3GPP2" then "TP_3GPP2"
  else if techType = "ANY" then "TP_ANY"
  else "TP_3GPP"

def seedAuthTypeToWire (authType : String) : String :=
  if authType = "NONE" then "AUTH_NONE"
  else if authType = "PAP" then "AUTH_PAP"
  else if authType = "CHAP" then "AUTH_CHAP"
  else if authType = "PAP_CHAP" then "AUTH_PAP_CHAP"
  else "AUTH_NONE"

def SeedProfile.toProfile (sp : SeedProfile) : Profile :=
  { Profile.default (.int sp.profileId) with
    apn := .str sp.apn
    ipFamilyType := .str sp.ipFamily
    authType := .str (seedAuthTypeToWire sp.authType)
    userName := .str sp.username
    password := .str sp.password
    techPref := .str (seedTechPrefToWire sp.techType)
    isDefault := .scalar (.bool sp.isDefault) }

structure ProfileStore where
  profiles : Dict PyKey Profile
  /-- By operation type. -/
  defaults : PyDict

inductive ProfileError
  | noResources
  | invalidArguments
  deriving DecidableEq, Repr

def maxProfiles : ℕ := 32

namespace ProfileStore

def empty : ProfileStore := ⟨.empty, .empty⟩

def store (p : Profile) (s : ProfileStore) : ProfileStore :=
  { s with profiles := s.profiles.set p.id.key p }

def assignDefault (opType : String) (id : Scalar) (s : ProfileStore) : ProfileStore :=
  { s with defaults := s.defaults.assign (.str opType) (.scalar id) }

def seedOne (s : ProfileStore) (sp : SeedProfile) : ProfileStore :=
  let s := s.store sp.toProfile
  if sp.isDefault then s.assignDefault "DATA_LOCAL" (.int sp.profileId) else s

def seed (seedProfiles : List SeedProfile) (s : ProfileStore) : ProfileStore :=
  seedProfiles.foldl seedOne s

def setDefault (opType : String) (profileId : Scalar) (s : ProfileStore) :
    Except ProfileError Unit × ProfileStore :=
  if profileId.key ∈ s.profiles.keys then (.ok (), s.assignDefault opType profileId)
  else (.error .invalidArguments, s)

/-- The ids that `create` tries, in this order. -/
def candidates : List ℤ := (List.range' 1 maxProfiles).map Int.ofNat

def nextId (s : ProfileStore) : Option ℤ :=
  candidates.find? (fun i => (Scalar.int i).key ∉ s.profiles.keys)

/-- What `create` puts where `data` has nothing. -/
def fresh (id : ℤ) : Profile :=
  { Profile.default (.int id) with techPref := .str "UNKNOWN", ipFamilyType := .str "UNKNOWN" }

def create (data : Dict String Json) (s : ProfileStore) : Except ProfileError ℤ × ProfileStore :=
  if maxProfiles ≤ s.profiles.size then (.error .noResources, s)
  else
    match s.nextId with
    | none => (.error .noResources, s)
    | some id => (.ok id, s.store ((fresh id).override data))

def modify (profileId : Scalar) (data : Dict String Json) (s : ProfileStore) :
    Except ProfileError Profile × ProfileStore :=
  match s.profiles.get profileId.key with
  | none => (.error .invalidArguments, s)
  | some p =>
    let updated := { p.override data with id := profileId }
    (.ok updated, s.store updated)

/-- `pid == profile_id` for a hashable `profile_id`. -/
def names (v : Json) (k : PyKey) : Bool :=
  match v with
  | .scalar i => i.key = k
  | _ => false

/-- The defaults that name the id go with it. -/
def remove (profileId : Scalar) (s : ProfileStore) : ProfileStore where
  profiles := s.profiles.pop profileId.key
  defaults := s.defaults.keepValues (fun e => names e.2 profileId.key = false)

def delete (profileId : Scalar) (s : ProfileStore) : Except ProfileError Unit × ProfileStore :=
  match s.profiles.get profileId.key with
  | none => (.error .invalidArguments, s)
  | some _ => (.ok (), s.remove profileId)

/-- What `_maybe_persist` writes. -/
def snapshot [FloatText] (s : ProfileStore) : Json :=
  .obj [("profiles", .arr (s.profiles.values.map (fun p => .obj p.asdict))),
    ("defaults", .obj (s.defaults.values.map (fun e => (e.1.keyText, e.2))))]

end ProfileStore

/-! ### Reading a snapshot -/

/-- What opening, decoding and parsing the file comes to. -/
inductive Content
  | missing
  /-- An `OSError` other than that the file is missing. -/
  | unreadable
  | notJson
  /-- Anything else that `json.load` raises. -/
  | raising (e : PyError)
  | json (v : Json)

/-- Only the errors that `read_json` names are caught; a `null` in the file reads as no snapshot. -/
def readJson : Content → Except PyError (Option Json)
  | .missing => .ok none
  | .unreadable => .ok none
  | .notJson => .ok none
  | .raising e => .error e
  | .json (.scalar .null) => .ok none
  | .json v => .ok (some v)

namespace ProfileStore

/-- `snapshot.get(name, default)` -/
def member (snapshot : Json) (name : String) (default : Json) : Except PyError Json :=
  match snapshot with
  | .obj pairs => .ok (((Dict.ofList pairs).get name).getD default)
  | _ => .error .attributeError

def readProfiles (snapshot : Json) : Except PyError (Dict PyKey Profile) := do
  let profiles ← member snapshot "profiles" (.arr [])
  let items ← profiles.iter
  return .ofList (← items.mapM Profile.ofSnapshot)

def readDefaults (snapshot : Json) : Except PyError PyDict := do
  let defaults ← member snapshot "defaults" (.obj [])
  defaults.toDict

/-- The profiles are replaced before the defaults are read. -/
def load (c : Content) (s : ProfileStore) : Except PyError Bool × ProfileStore :=
  match readJson c with
  | .error e => (.error e, s)
  | .ok none => (.ok false, s)
  | .ok (some snapshot) =>
    match readProfiles snapshot with
    | .error e => (.error e, s)
    | .ok profiles =>
      match readDefaults snapshot with
      | .error e => (.error e, { s with profiles := profiles })
      | .ok defaults => (.ok true, ⟨profiles, defaults⟩)

/-! ### Operations -/

inductive Operation
  | seed (seedProfiles : List SeedProfile)
  | create (data : Dict String Json)
  | modify (profileId : Scalar) (data : Dict String Json)
  | delete (profileId : Scalar)
  | setDefault (opType : String) (profileId : Scalar)

/-- The error code of the operation, `none` on success, and the store after it. -/
def perform (s : ProfileStore) : Operation → Option ProfileError × ProfileStore
  | .seed seedProfiles => (none, s.seed seedProfiles)
  | .create data => (error? (s.create data).1, (s.create data).2)
  | .modify profileId data => (error? (s.modify profileId data).1, (s.modify profileId data).2)
  | .delete profileId => (error? (s.delete profileId).1, (s.delete profileId).2)
  | .setDefault opType profileId =>
    (error? (s.setDefault opType profileId).1, (s.setDefault opType profileId).2)
where
  error? {α : Type} : Except ProfileError α → Option ProfileError
    | .error e => some e
    | .ok _ => none

/-- What the operations are made of. -/
inductive Change (s : ProfileStore) : ProfileStore → Prop
  | store (p : Profile) : Change s (s.store p)
  | assign (opType : String) (id : Scalar) (hid : id.key ∈ s.profiles.keys) :
      Change s (s.assignDefault opType id)
  | remove (id : Scalar) : Change s (s.remove id)

theorem mem_keys_store (p : Profile) (s : ProfileStore) : p.id.key ∈ (s.store p).profiles.keys := by
  rw [Dict.mem_keys_iff]
  exact ⟨p, Dict.get_set_self _ _ _⟩

theorem seedOne_changes (s : ProfileStore) (sp : SeedProfile) :
    Relation.ReflTransGen Change s (s.seedOne sp) := by
  have hstore : Relation.ReflTransGen Change s (s.store sp.toProfile) := .single (.store _)
  unfold seedOne
  split
  · exact hstore.tail (.assign _ _ (mem_keys_store sp.toProfile s))
  · exact hstore

theorem seed_changes (l : List SeedProfile) (s : ProfileStore) :
    Relation.ReflTransGen Change s (s.seed l) := by
  induction l generalizing s with
  | nil => exact .refl
  | cons sp l ih => exact (seedOne_changes s sp).trans (ih (s.seedOne sp))

theorem perform_changes (s : ProfileStore) (o : Operation) :
    Relation.ReflTransGen Change s (s.perform o).2 := by
  cases o with
  | seed l => exact seed_changes l s
  | create data =>
    simp only [perform, create]
    split
    · exact .refl
    · split
      · exact .refl
      · exact .single (.store _)
  | modify id data =>
    simp only [perform, modify]
    split
    · exact .refl
    · exact .single (.store _)
  | delete id =>
    simp only [perform, delete]
    split
    · exact .refl
    · exact .single (.remove id)
  | setDefault opType id =>
    simp only [perform, setDefault]
    split
    · next hid => exact .single (.assign opType id hid)
    · exact .refl

theorem perform_eq_self_of_error {s : ProfileStore} {o : Operation} (h : (s.perform o).1 ≠ none) :
    (s.perform o).2 = s := by
  cases o with
  | seed l => exact absurd rfl h
  | create data =>
    simp only [perform, create] at h ⊢
    split
    · rfl
    · next hsize =>
      split
      · rfl
      · next id hid => simp [hsize, hid, perform.error?] at h
  | modify id data =>
    simp only [perform, modify] at h ⊢
    split
    · rfl
    · next p hp => simp [hp, perform.error?] at h
  | delete id =>
    simp only [perform, delete] at h ⊢
    split
    · rfl
    · next p hp => simp [hp, perform.error?] at h
  | setDefault opType id =>
    simp only [perform, setDefault] at h ⊢
    split
    · next hid => simp [hid, perform.error?] at h
    · rfl

/-! ### What every change keeps -/

def Keyed (s : ProfileStore) : Prop := ∀ k p, s.profiles.get k = some p → p.id.key = k

/-- A default stands under the name of an operation type. -/
def Named (s : ProfileStore) : Prop :=
  ∀ k e, s.defaults.get k = some e → ∃ opType, e.1 = .str opType ∧ k = .str opType

def Bound (s : ProfileStore) : Prop :=
  ∀ k e, s.defaults.get k = some e → ∃ id, e.2 = .scalar id ∧ id.key ∈ s.profiles.keys

theorem Keyed.change {s s' : ProfileStore} (h : Keyed s) (hs : Change s s') : Keyed s' := by
  intro k p hp
  cases hs with
  | store q =>
    rw [store, Dict.get_set] at hp
    split_ifs at hp with hk
    · rw [hk, Option.some.inj hp]
    · exact h k p hp
  | assign opType id hid => exact h k p hp
  | remove id =>
    rw [remove, Dict.get_pop] at hp
    split_ifs at hp
    exact h k p hp

theorem Named.change {s s' : ProfileStore} (h : Named s) (hs : Change s s') : Named s' := by
  intro k e he
  cases hs with
  | store q => exact h k e he
  | assign opType id hid =>
    rw [assignDefault, PyDict.assign, Dict.get_set] at he
    split_ifs at he with hk
    · obtain rfl := Option.some.inj he
      refine ⟨opType, ?_, hk⟩
      cases hget : s.defaults.get (Scalar.str opType).key with
      | none => rfl
      | some e' =>
        obtain ⟨opType', he', hk'⟩ := h _ e' hget
        rw [Option.map_some, Option.getD_some, he', ← PyKey.str.inj hk']
    · exact h k e he
  | remove id =>
    rw [remove, Dict.get_keepValues, Option.filter_eq_some_iff] at he
    exact h k e he.1

theorem Bound.change {s s' : ProfileStore} (h : Bound s) (hs : Change s s') : Bound s' := by
  intro k e he
  cases hs with
  | store q =>
    obtain ⟨id, hid, hmem⟩ := h k e he
    obtain ⟨p, hp⟩ := Dict.mem_keys_iff.mp hmem
    refine ⟨id, hid, Dict.mem_keys_iff.mpr ?_⟩
    rw [store, Dict.get_set]
    split_ifs
    · exact ⟨q, rfl⟩
    · exact ⟨p, hp⟩
  | assign opType id hid =>
    rw [assignDefault, PyDict.assign, Dict.get_set] at he
    split_ifs at he
    · obtain rfl := Option.some.inj he
      exact ⟨id, rfl, hid⟩
    · exact h k e he
  | remove id =>
    -- a default that is left does not name the id that goes
    rw [remove, Dict.get_keepValues, Option.filter_eq_some_iff] at he
    obtain ⟨i, hi, hmem⟩ := h k e he.1
    obtain ⟨p, hp⟩ := Dict.mem_keys_iff.mp hmem
    have hne : i.key ≠ id.key := by simpa [names, hi] using he.2
    exact ⟨i, hi, Dict.mem_keys_iff.mpr ⟨p, by rw [remove, Dict.get_pop_of_ne hne, hp]⟩⟩

/-- A property that every change keeps holds of whatever operations make of a store. -/
theorem perform_keeps {I : ProfileStore → Prop}
    (hchange : ∀ {s s'}, I s → Change s s' → I s') {s : ProfileStore} (h : I s) (o : Operation) :
    I (s.perform o).2 := by
  have hpath := perform_changes s o
  generalize (s.perform o).2 = t at hpath ⊢
  induction hpath with
  | refl => exact h
  | tail _ hlast ih => exact hchange ih hlast

/-! ### Allocation -/

theorem mem_candidates {i : ℤ} : i ∈ candidates ↔ 1 ≤ i ∧ i ≤ maxProfiles := by
  simp only [candidates, List.mem_map, List.mem_range'_1, maxProfiles]
  constructor
  · rintro ⟨n, hn, rfl⟩
    simp only [Int.ofNat_eq_natCast]
    omega
  · intro hi
    exact ⟨i.toNat, by omega, by simp only [Int.ofNat_eq_natCast]; omega⟩

theorem candidates_sorted : candidates.Pairwise (· < ·) := by decide

theorem exists_candidate {s : ProfileStore} (h : s.profiles.size < maxProfiles) :
    ∃ i ∈ candidates, (Scalar.int i).key ∉ s.profiles.keys := by
  by_contra hall
  push Not at hall
  have hnodup : (candidates.map (fun i => (Scalar.int i).key)).Nodup := by
    refine List.Nodup.map ?_ (candidates_sorted.imp ne_of_lt)
    intro i j hij
    exact Int.cast_injective (PyKey.num.inj hij)
  have hsub : candidates.map (fun i => (Scalar.int i).key) ⊆ s.profiles.keys := by
    intro k hk
    obtain ⟨i, hi, rfl⟩ := List.mem_map.mp hk
    exact hall i hi
  have hle := (List.subperm_of_subset hnodup hsub).length_le
  rw [List.length_map, Dict.length_keys] at hle
  exact absurd hle (not_le.mpr h)

theorem nextId_isSome {s : ProfileStore} (h : s.profiles.size < maxProfiles) :
    ∃ id, s.nextId = some id := by
  obtain ⟨i, hi, hfree⟩ := exists_candidate h
  rw [← Option.isSome_iff_exists, nextId, List.find?_isSome]
  exact ⟨i, hi, by simpa using hfree⟩

theorem nextId_isLeast {s : ProfileStore} {id : ℤ} (h : s.nextId = some id) :
    IsLeast {i : ℤ | 1 ≤ i ∧ i ≤ maxProfiles ∧ (Scalar.int i).key ∉ s.profiles.keys} id := by
  obtain ⟨hfree, before, after, hsplit, hbefore⟩ := List.find?_eq_some_iff_append.mp h
  have hmem : id ∈ candidates := by rw [hsplit]; simp
  have hrange := mem_candidates.mp hmem
  refine ⟨⟨hrange.1, hrange.2, by simpa using hfree⟩, ?_⟩
  rintro i ⟨hlow, hhigh, hi⟩
  have hi' : i ∈ before ++ id :: after := by
    rw [← hsplit]
    exact mem_candidates.mpr ⟨hlow, hhigh⟩
  rcases List.mem_append.mp hi' with hi' | hi'
  · exact absurd hi (by simpa using hbefore i hi')
  · have hsorted := candidates_sorted
    rw [hsplit, List.pairwise_append, List.pairwise_cons] at hsorted
    rcases List.mem_cons.mp hi' with rfl | hi'
    · exact le_refl i
    · exact (hsorted.2.1.1 i hi').le

theorem create_ok_iff (data : Dict String Json) (s : ProfileStore) :
    (∃ id, (s.create data).1 = .ok id) ↔ s.profiles.size < maxProfiles := by
  unfold create
  constructor
  · rintro ⟨id, hid⟩
    split_ifs at hid with hsize
    exact not_le.mp hsize
  · intro hsize
    obtain ⟨id, hid⟩ := nextId_isSome hsize
    rw [if_neg (not_le.mpr hsize), hid]
    exact ⟨id, rfl⟩

theorem create_eq {data : Dict String Json} {s : ProfileStore} {id : ℤ}
    (h : (s.create data).1 = .ok id) :
    s.nextId = some id ∧ (s.create data).2 = s.store ((fresh id).override data) := by
  unfold create at h ⊢
  split_ifs at h ⊢
  split at h
  · cases h
  · next i hi =>
    obtain rfl := Except.ok.inj h
    exact ⟨hi, rfl⟩

theorem get_create_of_get {data : Dict String Json} {s : ProfileStore} {id : ℤ}
    (h : (s.create data).1 = .ok id) {k : PyKey} {p : Profile} (hp : s.profiles.get k = some p) :
    (s.create data).2.profiles.get k = some p := by
  obtain ⟨hid, hs⟩ := create_eq h
  have hne : k ≠ (Scalar.int id).key := by
    rintro rfl
    exact (nextId_isLeast hid).1.2.2 (Dict.mem_keys_iff.mpr ⟨p, hp⟩)
  rw [hs, store]
  exact (Dict.get_set_of_ne hne _ _).trans hp

theorem get_modify_of_ne {id : Scalar} {k : PyKey} (h : k ≠ id.key) (data : Dict String Json)
    (s : ProfileStore) : (s.modify id data).2.profiles.get k = s.profiles.get k := by
  unfold modify
  split
  · rfl
  · exact Dict.get_set_of_ne h _ _

theorem get_delete_of_ne {id : Scalar} {k : PyKey} (h : k ≠ id.key) (s : ProfileStore) :
    (s.delete id).2.profiles.get k = s.profiles.get k := by
  unfold delete
  split
  · rfl
  · exact Dict.get_pop_of_ne h _

/-! ### A snapshot of the store read back -/

theorem Keyed.of_mem_entries {s : ProfileStore} (h : Keyed s) {e : PyKey × Profile}
    (he : e ∈ s.profiles.entries) : e.2.id.key = e.1 :=
  h e.1 e.2 (Dict.get_eq_some_iff.mpr he)

theorem Named.of_mem_entries {s : ProfileStore} (h : Named s) {e : PyKey × Scalar × Json}
    (he : e ∈ s.defaults.entries) : ∃ opType, e.2.1 = .str opType ∧ e.1 = .str opType :=
  h e.1 e.2 (Dict.get_eq_some_iff.mpr he)

section Snapshot

variable [FloatText]

theorem readProfiles_snapshot {s : ProfileStore} (h : Keyed s) :
    readProfiles s.snapshot = .ok s.profiles := by
  have hmember : member s.snapshot "profiles" (.arr []) =
      .ok (.arr (s.profiles.values.map (fun p => .obj p.asdict))) := rfl
  have hitems : (s.profiles.values.map (fun p => Json.obj p.asdict)).mapM Profile.ofSnapshot =
      .ok (s.profiles.values.map (fun p => (p.id.key, p))) :=
    Json.mapM_map_ok (fun p _ => Profile.ofSnapshot_asdict p)
  have hentries : s.profiles.values.map (fun p => (p.id.key, p)) = s.profiles.entries := by
    rw [Dict.values, List.map_map]
    refine (List.map_congr_left ?_).trans (List.map_id _)
    intro e he
    exact Prod.ext (h.of_mem_entries he) rfl
  simp only [readProfiles, hmember, Json.iter, hitems, hentries, Dict.ofList_entries, bind,
    Except.bind, pure, Except.pure]

theorem readDefaults_snapshot {s : ProfileStore} (h : Named s) :
    readDefaults s.snapshot = .ok s.defaults := by
  have hmember : member s.snapshot "defaults" (.obj []) =
      .ok (.obj (s.defaults.values.map (fun e => (e.1.keyText, e.2)))) := rfl
  have hpairs : (s.defaults.values.map (fun e => (e.1.keyText, e.2))).map
      (fun e => (Scalar.str e.1, e.2)) = s.defaults.values := by
    rw [List.map_map]
    refine (List.map_congr_left ?_).trans (List.map_id _)
    intro e he
    obtain ⟨e', he', rfl⟩ := List.mem_map.mp he
    obtain ⟨opType, hop, -⟩ := h.of_mem_entries he'
    refine Prod.ext ?_ rfl
    simp only [Function.comp_apply, hop, Scalar.keyText, id]
  have hkey : ∀ e ∈ s.defaults.entries, e.2.1.key = e.1 := by
    intro e he
    obtain ⟨opType, hop, hk⟩ := h.of_mem_entries he
    rw [hop, hk]
    rfl
  have hnodup : (s.defaults.values.map (fun e => e.1.key)).Nodup := by
    rw [Dict.values, List.map_map]
    refine (congrArg List.Nodup (List.map_congr_left ?_)).mpr s.defaults.nodup
    exact hkey
  have hentries : PyDict.ofPairs s.defaults.values = s.defaults := by
    refine Dict.eq_of_entries ?_
    rw [PyDict.entries_ofPairs hnodup, Dict.values, List.map_map]
    refine (List.map_congr_left ?_).trans (List.map_id _)
    intro e he
    exact Prod.ext (hkey e he) rfl
  simp only [readDefaults, hmember, Json.toDict, hpairs, hentries, bind, Except.bind]

/-- Loading a snapshot gives the store that wrote it, whatever was there before. -/
theorem load_snapshot {w : ProfileStore} (hkeyed : Keyed w) (hnamed : Named w) (s : ProfileStore) :
    s.load (.json w.snapshot) = (.ok true, w) := by
  have hread : readJson (.json w.snapshot) = .ok (some w.snapshot) := rfl
  simp only [load, hread, readProfiles_snapshot hkeyed, readDefaults_snapshot hnamed]

/-! ### Whole runs -/

/-- The stores that operations lead to, with loads of what a store has written in between. -/
inductive Reachable : ProfileStore → Prop
  | empty : Reachable empty
  | perform {s : ProfileStore} (h : Reachable s) (o : Operation) : Reachable (s.perform o).2
  | load {s w : ProfileStore} (h : Reachable s) (hw : Reachable w) :
      Reachable (s.load (.json w.snapshot)).2

theorem Reachable.keyed_and_named {s : ProfileStore} (h : Reachable s) : Keyed s ∧ Named s := by
  induction h with
  | empty =>
    constructor
    · intro k p hp
      cases hp
    · intro k e he
      cases he
  | perform _ o ih =>
    exact ⟨perform_keeps Keyed.change ih.1 o, perform_keeps Named.change ih.2 o⟩
  | load _ _ _ ihw =>
    rw [load_snapshot ihw.1 ihw.2]
    exact ihw

theorem Reachable.bound {s : ProfileStore} (h : Reachable s) : Bound s := by
  induction h with
  | empty =>
    intro k e he
    cases he
  | perform _ o ih => exact perform_keeps Bound.change ih o
  | load _ hw _ ihw =>
    rw [load_snapshot hw.keyed_and_named.1 hw.keyed_and_named.2]
    exact ihw

theorem invariant_of_reachable {s : ProfileStore} (h : Reachable s) :
    Keyed s ∧ Bound s ∧
    (∀ data, (∃ id, (s.create data).1 = .ok id) ↔ s.profiles.size < maxProfiles) ∧
    (∀ data id, (s.create data).1 = .ok id →
      IsLeast {i : ℤ | 1 ≤ i ∧ i ≤ maxProfiles ∧ (Scalar.int i).key ∉ s.profiles.keys} id ∧
      ∀ k p, s.profiles.get k = some p → (s.create data).2.profiles.get k = some p) ∧
    (∀ o, (s.perform o).1 ≠ none → (s.perform o).2 = s) ∧
    (∀ w, Reachable w → (s.load (.json w.snapshot)).1 = .ok true) ∧
    (∀ id k, k ≠ id.key →
      (∀ data, (s.modify id data).2.profiles.get k = s.profiles.get k) ∧
      (s.delete id).2.profiles.get k = s.profiles.get k) := by
  refine ⟨h.keyed_and_named.1, h.bound, fun data => create_ok_iff data s, ?_, ?_, ?_, ?_⟩
  · intro data id hid
    exact ⟨nextId_isLeast (create_eq hid).1, fun k p hp => get_create_of_get hid hp⟩
  · intro o ho
    exact perform_eq_self_of_error ho
  · intro w hw
    rw [load_snapshot hw.keyed_and_named.1 hw.keyed_and_named.2]
  · intro id k hk
    exact ⟨fun data => get_modify_of_ne hk data s, get_delete_of_ne hk s⟩

end Snapshot

/-- Two profiles are seeded and a third one is created, which gets the first free id; the second one
is made a default, and the first one, which is the other default, is deleted. -/
def worked : ProfileStore :=
  let operations : List Operation :=
    [.seed [⟨1, "internet", "IPV4V6", "NONE", "", "", "3GPP", true⟩,
        ⟨3, "ims", "IPV6", "CHAP", "user", "secret", "ANY", false⟩],
      .create (.ofList [("apn", .str "fleet")]), .setDefault "DATA_REMOTE" (.int 3),
      .delete (.int 1)]
  operations.foldl (fun s o => (s.perform o).2) empty

theorem invariant_of_reachable_restored :
    let _ : FloatText := ⟨fun x => toString x⟩
    let restored := (empty.load (.json worked.snapshot)).2
    Keyed restored ∧ Bound restored ∧ restored.profiles.keys = [.num 3, .num 2] ∧
      restored.defaults.keys = [.str "DATA_REMOTE"] ∧
      ∃ id, (restored.create .empty).1 = .ok id ∧
        IsLeast {i : ℤ | 1 ≤ i ∧ i ≤ maxProfiles ∧ (Scalar.int i).key ∉ restored.profiles.keys}
          id := by
  intro _ restored
  have hworked : Reachable worked :=
    .perform (.perform (.perform (.perform .empty _) _) _) _
  have hrestored : restored = worked :=
    congrArg Prod.snd (load_snapshot hworked.keyed_and_named.1 hworked.keyed_and_named.2 empty)
  obtain ⟨hkeyed, hbound, hcreate, hleast, -⟩ :=
    invariant_of_reachable (s := restored) (.load .empty hworked)
  obtain ⟨id, hid⟩ := (hcreate .empty).mpr (by rw [hrestored]; decide +kernel)
  refine ⟨hkeyed, hbound, ?_, ?_, id, hid, (hleast .empty id hid).1⟩
  · rw [hrestored]
    decide +kernel
  · rw [hrestored]
    decide +kernel

end ProfileStore

end TelafSim.Data
