import TelafSim.ProfileService

/-!
# The catalog of profiles

What the profile service is for: a list of profiles with distinct ids that calls read and change one
after the other, and the updates that they announce. The modem behind the client does and answers
what the catalog says.
-/

namespace TelafSim.Data

open ProfileManager

/-- The profile is one that a query with these parameters asks for. -/
def ProfileParams.Matches (p : ProfileParams) (q : DataProfile) : Prop :=
  (p.profileName ≠ "" → q.profileName = p.profileName) ∧ (p.apn ≠ "" → q.apn = p.apn) ∧
    (p.techPref ≠ .unknown → q.techPref = p.techPref) ∧
    (p.ipFamilyType ≠ .unknown → q.ipFamilyType = p.ipFamilyType)

instance (p : ProfileParams) : DecidablePred p.Matches :=
  fun _ => inferInstanceAs (Decidable (_ ∧ _))

structure Catalog where
  profiles : List DataProfile
  updates : List ProfileUpdate

namespace Catalog

def ids (c : Catalog) : List ℤ := c.profiles.map DataProfile.id

/-- The id that a new profile gets, if there is room for one. -/
def newId (c : Catalog) : Option ℤ :=
  if maxProfiles ≤ c.profiles.length then none
  else ProfileStore.candidates.find? (fun i => i ∉ c.ids)

def change (profiles : List DataProfile) (u : ProfileUpdate) (c : Catalog) : Catalog where
  profiles := profiles
  updates := c.updates ++ [u]

/-- What a call is answered, and what it leaves of the catalog. -/
def perform (c : Catalog) : Op → Option Callback × Catalog
  | .requestProfileList => (some (.onProfileListResponse c.profiles .success), c)
  | .createProfile params =>
    match c.newId with
    | none => (some (.onCreateResponse profileIdInvalid .operationTimeout), c)
    | some id => (some (.onCreateResponse id .success),
      c.change (c.profiles ++ [{ params with id := id }])
        ⟨id, params.techPref, .createProfileEvent⟩)
  | .deleteProfile profileId techPreference =>
    let id : ℤ := profileId.toNat
    if id ∈ c.ids then (some (.commandResponse .success),
      c.change (c.profiles.filter (fun q => q.id ≠ id)) ⟨id, techPreference, .deleteProfileEvent⟩)
    else (some (.commandResponse .operationTimeout), c)
  | .modifyProfile profileId params =>
    let id : ℤ := profileId.toNat
    if id ∈ c.ids then (some (.commandResponse .success),
      c.change (c.profiles.map (fun q => if q.id = id then { params with id := id } else q))
        ⟨id, params.techPref, .modifyProfileEvent⟩)
    else (some (.commandResponse .operationTimeout), c)
  | .queryProfile params =>
    (some (.onProfileListResponse (c.profiles.filter params.Matches) .success), c)
  | .requestProfile profileId _ =>
    (some (.onProfileResponse (c.profiles.find? (fun q => q.id = profileId.toNat)) .success), c)

end Catalog

/-! ### The requests -/

theorem names_filterFields (p : ProfileParams) :
    (filterFields p).map (fun e => e.2.1) = ["profileName", "apn", "techPref", "ipFamilyType"] :=
  rfl

theorem names_filterToWire (p : ProfileParams) : ((filterToWire p).map Prod.fst).Nodup := by
  have hall : ((filterFields p).map (fun e => e.2.1)).Nodup := by
    rw [names_filterFields]
    decide
  rw [filterToWire, List.map_map]
  exact hall.sublist (List.filter_sublist.map _)

theorem get_filterToWire {p : ProfileParams} {e : Bool × String × Json} (he : e ∈ filterFields p) :
    (Dict.ofList (filterToWire p)).get e.2.1 = if e.1 then some e.2.2 else none := by
  have hdistinct : ((filterFields p).map (fun e => e.2.1)).Nodup := by
    rw [names_filterFields]
    decide
  split
  · next hset =>
    rw [Dict.get_ofList_of_nodup (names_filterToWire p)]
    exact List.mem_map_of_mem (List.mem_filter.mpr ⟨he, hset⟩)
  · next hunset =>
    apply Dict.get_ofList_eq_none
    intro e' he'
    obtain ⟨e'', hmem, rfl⟩ := List.mem_map.mp he'
    obtain ⟨hmem, hset⟩ := List.mem_filter.mp hmem
    intro hname
    obtain rfl := List.inj_on_of_nodup_map hdistinct hmem he hname
    exact hunset hset

theorem admits_filterToWire (p : ProfileParams) :
    queryProfileReq.admits (.ofList (filterToWire p)) = true := by
  apply Schema.admits_ofList (by decide) (names_filterToWire p)
  · rintro f ⟨⟩
  · intro e he
    obtain ⟨e', hmem, rfl⟩ := List.mem_map.mp he
    have hfields := (List.mem_filter.mp hmem).1
    simp only [filterFields, List.mem_cons, List.not_mem_nil, or_false] at hfields
    rcases hfields with rfl | rfl | rfl | rfl
    · exact ⟨("profileName", .string), by simp [Schema.fields, queryProfileReq], rfl, rfl⟩
    · exact ⟨("apn", .string), by simp [Schema.fields, queryProfileReq], rfl, rfl⟩
    · exact ⟨("techPref", .oneOf techPrefNames), by simp [Schema.fields, queryProfileReq], rfl,
        decide_eq_true (techPrefToWire_mem p.techPref)⟩
    · exact ⟨("ipFamilyType", .oneOf ipFamilyNames), by simp [Schema.fields, queryProfileReq], rfl,
        decide_eq_true (ipFamilyToWire_mem p.ipFamilyType)⟩

theorem admits_toWire {slot : ℤ} (hslot : 0 ≤ slot) (op : Op) :
    op.topic.req.admits (.ofList (op.toWire slot)) = true := by
  have htech : ∀ t, (FieldType.oneOf techPrefNames).admits (.str (techPrefToWire t)) = true :=
    fun t => decide_eq_true (techPrefToWire_mem t)
  have hslot' : Schema.Typed ("slot", .natural) ("slot", .scalar (.int slot)) :=
    ⟨rfl, decide_eq_true hslot⟩
  have hid : ∀ id, Schema.Typed ("profileId", .integer) ("profileId", idToWire id) :=
    fun _ => ⟨rfl, rfl⟩
  cases op with
  | requestProfileList => rfl
  | createProfile params =>
    apply Schema.admits_of_typed (by decide)
    exact List.rel_append (DataProfile.typed_params params) (.cons hslot' .nil)
  | deleteProfile profileId techPreference =>
    apply Schema.admits_of_typed (by decide)
    exact .cons (hid profileId) (.cons ⟨rfl, htech techPreference⟩ (.cons hslot' .nil))
  | modifyProfile profileId params =>
    apply Schema.admits_of_typed (by decide)
    exact List.rel_append (DataProfile.typed_params params) (.cons (hid profileId)
      (.cons hslot' .nil))
  | queryProfile params => exact admits_filterToWire params
  | requestProfile profileId techPreference =>
    change queryProfileReq.admits (.ofList [_, _]) = true
    apply Schema.admits_ofList (by decide) (by simp) (by rintro f ⟨⟩)
    simp only [List.forall_mem_cons]
    refine ⟨⟨("profileId", .integer), ?_, hid profileId⟩, ⟨("techPref", .oneOf techPrefNames), ?_,
      rfl, htech techPreference⟩, by simp⟩
    · simp [Schema.fields, queryProfileReq]
    · simp [Schema.fields, queryProfileReq]

/-! ### The profiles that the modem holds -/

def Stores (p : Profile) (q : DataProfile) : Prop :=
  q.Fits ∧ ∃ isDefault, p = q.toStored isDefault

def Holds (e : PyKey × Profile) (q : DataProfile) : Prop := e.1 = .num q.id ∧ Stores e.2 q

section Held

variable {d : Dict PyKey Profile} {l : List DataProfile} {id : ℤ}

theorem num_inj {i j : ℤ} : PyKey.num i = .num j ↔ i = j := by
  simp

theorem keys_of_holds (h : List.Forall₂ Holds d.entries l) :
    d.keys = l.map (fun q => PyKey.num q.id) := by
  rw [← List.forall₂_eq_eq_eq, Dict.keys, List.forall₂_map_left_iff, List.forall₂_map_right_iff]
  exact h.imp (fun _ _ hq => hq.1)

theorem mem_keys_iff_of_holds (h : List.Forall₂ Holds d.entries l) :
    (Scalar.int id).key ∈ d.keys ↔ id ∈ l.map DataProfile.id := by
  rw [keys_of_holds h, Scalar.key]
  simp

theorem stores_values (h : List.Forall₂ Holds d.entries l) : List.Forall₂ Stores d.values l := by
  rw [Dict.values, List.forall₂_map_left_iff]
  exact h.imp (fun _ _ hq => hq.2)

/-- Lists that agree pairwise are searched with the same result. -/
theorem rel_find? {α β : Type} {R : α → β → Prop} {p : α → Bool} {q : β → Bool} {l : List α}
    {m : List β} (hpq : ∀ a b, R a b → p a = q b) (h : List.Forall₂ R l m) :
    Option.Rel R (l.find? p) (m.find? q) := by
  induction h with
  | nil => exact .none
  | @cons a b l m hab _ ih =>
    rw [List.find?_cons, List.find?_cons, hpq a b hab]
    cases q b with
    | true => exact .some hab
    | false => exact ih

theorem get_of_holds (h : List.Forall₂ Holds d.entries l) :
    Option.Rel Stores (d.get (Scalar.int id).key) (l.find? (fun q => q.id = id)) := by
  have hfind : Option.Rel Holds (d.entries.find? (fun e => e.1 = (Scalar.int id).key))
      (l.find? (fun q => q.id = id)) := by
    apply rel_find? _ h
    intro e q hq
    rw [hq.1, Scalar.key]
    simp
  rw [Dict.get]
  generalize d.entries.find? (fun e => e.1 = (Scalar.int id).key) = e at hfind
  generalize l.find? (fun q => q.id = id) = q at hfind
  cases hfind with
  | none => exact .none
  | some hq => exact .some hq.2

theorem holds_set_new (h : List.Forall₂ Holds d.entries l) {p : Profile} {q : DataProfile}
    (hp : Stores p q) (hnew : q.id ∉ l.map DataProfile.id) :
    List.Forall₂ Holds (d.set (Scalar.int q.id).key p).entries (l ++ [q]) := by
  rw [Dict.entries_set_of_new (by rwa [mem_keys_iff_of_holds h])]
  exact List.rel_append h (.cons ⟨rfl, hp⟩ .nil)

theorem holds_set (h : List.Forall₂ Holds d.entries l) {p : Profile} {q : DataProfile}
    (hp : Stores p q) (hold : q.id ∈ l.map DataProfile.id) :
    List.Forall₂ Holds (d.set (Scalar.int q.id).key p).entries
      (l.map (fun q' => if q'.id = q.id then q else q')) := by
  have hentries : (d.set (Scalar.int q.id).key p).entries =
      d.entries.map (Dict.update (Scalar.int q.id).key p) :=
    if_pos ((mem_keys_iff_of_holds h).mpr hold)
  rw [hentries, List.forall₂_map_left_iff, List.forall₂_map_right_iff]
  apply h.imp
  intro e q' hq'
  have hkey : e.1 = (Scalar.int q.id).key ↔ q'.id = q.id := by
    rw [hq'.1]
    exact num_inj
  unfold Dict.update
  by_cases heq : q'.id = q.id
  · rw [if_pos (hkey.mpr heq), if_pos heq]
    exact ⟨rfl, hp⟩
  · rw [if_neg (fun hk => heq (hkey.mp hk)), if_neg heq]
    exact hq'

theorem holds_pop (h : List.Forall₂ Holds d.entries l) :
    List.Forall₂ Holds (d.pop (Scalar.int id).key).entries (l.filter (fun q => q.id ≠ id)) := by
  apply List.rel_filter _ h
  intro e q hq
  simp [hq.1, Scalar.key]

end Held

/-! ### The responses and the indications -/

section Replies

variable {ps : List Profile} {qs : List DataProfile}

theorem mapM_stores (h : List.Forall₂ Stores ps qs) :
    (ps.map (fun p => Json.obj p.toWire)).mapM wireToDataProfile = some qs := by
  induction h with
  | nil => rfl
  | cons hp _ ih =>
    obtain ⟨hfits, isDefault, rfl⟩ := hp
    rw [List.map_cons, List.mapM_cons, DataProfile.wireToDataProfile_toStored hfits, ih]
    rfl

theorem wireToDataProfileList_profilesToWire (h : List.Forall₂ Stores ps qs) :
    wireToDataProfileList (.ofList (profilesToWire ps)) = some qs := mapM_stores h

theorem admitsItem_stores (h : List.Forall₂ Stores ps qs) :
    ∀ p ∈ ps, admitsItem (.obj p.toWire) = true := by
  induction h with
  | nil => simp
  | cons hp _ ih =>
    obtain ⟨-, isDefault, rfl⟩ := hp
    exact List.forall_mem_cons.mpr ⟨DataProfile.admits_toStored, ih⟩

theorem admitsProfiles_profilesToWire (h : List.Forall₂ Stores ps qs) :
    admitsProfiles (.ofList (profilesToWire ps)) = true := by
  have hget : (Dict.ofList (profilesToWire ps)).get "profiles" =
      some (.arr (ps.map (fun p => .obj p.toWire))) := rfl
  have hkeys : (Dict.ofList (profilesToWire ps)).keys = ["profiles"] := rfl
  rw [admitsProfiles, hget, hkeys]
  simpa using admitsItem_stores h

/-- A list of profiles is sent, and read as those that are stored. -/
theorem reply_profiles (h : List.Forall₂ Stores ps qs) {topic : ProfileTopic}
    (htopic : topic.admitsRsp = admitsProfiles) :
    DataProfileAO.pubRsp topic (.success (profilesToWire ps)) =
      some (.success (profilesToWire ps)) := by
  rw [DataProfileAO.pubRsp, htopic, if_pos (admitsProfiles_profilesToWire h)]

theorem differs_eq (unset : List String) {filt : Dict String Json} {name w : String} {P : Prop}
    [Decidable P] (hget : filt.get name = if P then some (.str w) else none)
    (hunset : P → w ∉ unset) (v : String) :
    ProfileStore.differs filt name unset (.str v) = true ↔ P ∧ v ≠ w := by
  unfold ProfileStore.differs
  rw [hget]
  by_cases hP : P
  · simp [Json.str, ProfileStore.isStr, hP, hunset hP]
  · simp [hP]

theorem stores_queryFiltered {s : ProfileStore} {l : List DataProfile}
    (h : List.Forall₂ Holds s.profiles.entries l) (p : ProfileParams) :
    List.Forall₂ Stores (s.queryFiltered (.ofList (filterToWire p))) (l.filter p.Matches) := by
  apply List.rel_filter _ (stores_values h)
  rintro _ q ⟨-, isDefault, rfl⟩
  have hget : ∀ e ∈ filterFields p, (Dict.ofList (filterToWire p)).get e.2.1 =
      if e.1 then some e.2.2 else none := fun _ => get_filterToWire
  simp only [filterFields, List.forall_mem_cons, decide_eq_true_eq] at hget
  obtain ⟨hname, hapn, htech, hfamily, -⟩ := hget
  have hname' := differs_eq [""] hname (by simp) q.profileName
  have hapn' := differs_eq [""] hapn (by simp) q.apn
  have htech' := differs_eq ["", "UNKNOWN"] htech
    (by cases p.techPref <;> simp [techPrefToWire]) (techPrefToWire q.techPref)
  have hfamily' := differs_eq ["", "UNKNOWN"] hfamily
    (by cases p.ipFamilyType <;> simp [ProfileManager.ipFamilyToWire])
    (ProfileManager.ipFamilyToWire q.ipFamilyType)
  simp only [ne_eq, techPrefToWire_inj, ipFamilyToWire_inj] at hname' hapn' htech' hfamily'
  simp only [DataProfile.toStored, Bool.and_eq_true, Bool.not_eq_true', ← Bool.not_eq_true,
    hname', hapn', htech', hfamily', not_and_not_right]
  refine Iff.trans ?_ decide_eq_true_iff.symm
  constructor
  · rintro ⟨⟨⟨hapn, hname⟩, htech⟩, hfamily⟩
    exact ⟨hname, hapn, htech, hfamily⟩
  · rintro ⟨hname, hapn, htech, hfamily⟩
    exact ⟨⟨⟨hapn, hname⟩, htech⟩, hfamily⟩

end Replies

/-! ### The requests that change the catalog -/

def changedInd (id : ℤ) (t : TechPreference) (event : String) : List (String × Json) :=
  [("profileId", .scalar (.int id)), ("techPref", .str (techPrefToWire t)), ("event", .str event)]

theorem onProfileChanged_changedInd {id : ℤ} (hid : -2 ^ 31 ≤ id ∧ id < 2 ^ 31)
    (t : TechPreference) (event : String) :
    onProfileChanged (changedInd id t event) = some ⟨id, t, wireToEvent event⟩ := by
  have hget : (Dict.ofList (changedInd id t event)).get "profileId" = some (.scalar (.int id)) :=
    rfl
  have htech : (Dict.ofList (changedInd id t event)).get "techPref" =
      some (.str (techPrefToWire t)) := rfl
  have hevent : (Dict.ofList (changedInd id t event)).get "event" = some (.str event) := rfl
  have hint : toInt id = id := DataProfile.toInt_of_fits (q := { id := id }) hid
  simp only [onProfileChanged, value, hget, htech, hevent]
  simp [asNumber, asString, Json.str, hint]

namespace DataProfileAO

/-- The modem has the profiles of the catalog, and the listeners read its updates in what it has
published. -/
structure Mirrors (s : DataProfileAO) (c : Catalog) : Prop where
  profiles : List.Forall₂ Holds s.store.profiles.entries c.profiles
  updates : s.published.map onProfileChanged = c.updates.map some

variable {s : DataProfileAO} {c : Catalog}

theorem pubChanged_eq {event : String} (hevent : event ∈ ["CREATE", "MODIFY", "DELETE"]) (id : ℤ)
    (t : TechPreference) (s : DataProfileAO) :
    s.pubChanged event (.scalar (.int id)) (.str (techPrefToWire t)) =
      some { s with published := s.published ++ [changedInd id t event] } := by
  have hadmits : profileChangedInd.admits (.ofList (changedInd id t event)) = true := by
    apply Schema.admits_of_typed (by decide)
    exact .cons ⟨rfl, rfl⟩ (.cons ⟨rfl, decide_eq_true (techPrefToWire_mem t)⟩
      (.cons ⟨rfl, decide_eq_true hevent⟩ .nil))
  unfold pubChanged
  exact if_pos hadmits

theorem announce_eq {event : String} (hevent : event ∈ ["CREATE", "MODIFY", "DELETE"]) (id : ℤ)
    (t : TechPreference) {topic : ProfileTopic} {data : List (String × Json)}
    (hrsp : topic.admitsRsp (.ofList data) = true) (s : DataProfileAO) :
    s.announce event (.scalar (.int id)) (.str (techPrefToWire t)) topic data =
      (some (.success data), { s with published := s.published ++ [changedInd id t event] }) := by
  rw [announce, pubChanged_eq hevent]
  simp only [pubRsp, hrsp, if_true]

theorem Mirrors.change (h : s.Mirrors c) {store : ProfileStore} {l : List DataProfile}
    (hl : List.Forall₂ Holds store.profiles.entries l) {id : ℤ} (hid : -2 ^ 31 ≤ id ∧ id < 2 ^ 31)
    (file : Content) (t : TechPreference) (event : String) :
    Mirrors { store := store, file := file, published := s.published ++ [changedInd id t event] }
      (c.change l ⟨id, t, wireToEvent event⟩) where
  profiles := hl
  updates := by
    simp only [Catalog.change, List.map_append, List.map_cons, List.map_nil, h.updates,
      onProfileChanged_changedInd hid]

theorem newId_eq (h : List.Forall₂ Holds s.store.profiles.entries c.profiles) :
    c.newId = if maxProfiles ≤ s.store.profiles.size then none else s.store.nextId := by
  have hlen : s.store.profiles.size = c.profiles.length := h.length_eq
  have hfree : ∀ i, (Scalar.int i).key ∈ s.store.profiles.keys ↔ i ∈ c.ids :=
    fun _ => mem_keys_iff_of_holds h
  rw [Catalog.newId, hlen, ProfileStore.nextId]
  simp only [hfree]

theorem create_eq (h : List.Forall₂ Holds s.store.profiles.entries c.profiles)
    (data : Dict String Json) :
    s.store.create data =
      match c.newId with
      | none => (.error .noResources, s.store)
      | some id => (.ok id, s.store.store ((ProfileStore.fresh id).override data)) := by
  rw [newId_eq h]
  unfold ProfileStore.create
  by_cases hfull : maxProfiles ≤ s.store.profiles.size
  · simp [hfull]
  · cases s.store.nextId with
    | none => simp [hfull]
    | some id => simp [hfull]

theorem newId_spec {id : ℤ} (h : c.newId = some id) :
    id ∉ c.ids ∧ -2 ^ 31 ≤ id ∧ id < 2 ^ 31 := by
  unfold Catalog.newId at h
  split at h
  · cases h
  · have hmem := ProfileStore.mem_candidates.mp (List.mem_of_find?_eq_some h)
    have hfree := List.find?_some h
    refine ⟨by simpa using hfree, ?_⟩
    unfold maxProfiles at hmem
    omega

theorem names_append (params : ProfileParams) {rest : List (String × Json)}
    (hrest : (paramsFields.map Prod.fst ++ rest.map Prod.fst).Nodup) :
    ((profileParamsToWire params ++ rest).map Prod.fst).Nodup := by
  rwa [List.map_append, Schema.names_of_typed (DataProfile.typed_params params)]

theorem fits_uint8 (n : UInt8) : (-2 ^ 31 : ℤ) ≤ n.toNat ∧ (n.toNat : ℤ) < 2 ^ 31 := by
  have hlt := n.toNat_lt
  omega

/-- A stored profile with the id, if the catalog has it, and nothing if it has not. -/
theorem get_cases (h : s.Mirrors c) (id : ℤ) :
    (id ∈ c.ids ∧
      ∃ p q, s.store.profiles.get (Scalar.int id).key = some p ∧ Stores p q ∧ q.id = id) ∨
      id ∉ c.ids ∧ s.store.profiles.get (Scalar.int id).key = none := by
  by_cases hmem : id ∈ c.ids
  · left
    obtain ⟨p, hp⟩ := Dict.mem_keys_iff.mp ((mem_keys_iff_of_holds h.profiles).mpr hmem)
    have hrel : Option.Rel Stores (s.store.profiles.get (Scalar.int id).key)
        (c.profiles.find? (fun q => q.id = id)) := get_of_holds h.profiles
    rw [hp] at hrel
    generalize hq : c.profiles.find? (fun q => q.id = id) = found at hrel
    cases hrel with
    | some hstores => exact ⟨hmem, p, _, hp, hstores, by simpa using List.find?_some hq⟩
  · right
    refine ⟨hmem, Dict.get_eq_none_iff.mpr ?_⟩
    rwa [mem_keys_iff_of_holds h.profiles]

theorem handleQuery_query (h : s.Mirrors c) (params : ProfileParams) :
    (s.handleQuery (.ofList (filterToWire params))).bind
        (fun reply => Op.onReply reply (.queryProfile params)) =
      some (.onProfileListResponse (c.profiles.filter params.Matches) .success) := by
  have hnot : "profileId" ∉ (Dict.ofList (filterToWire params)).keys := by
    rw [← Dict.get_eq_none_iff]
    apply Dict.get_ofList_eq_none
    intro e he
    obtain ⟨e', hmem, rfl⟩ := List.mem_map.mp he
    have hfield := List.mem_of_mem_filter hmem
    simp only [filterFields, List.mem_cons, List.not_mem_nil, or_false] at hfield
    rcases hfield with rfl | rfl | rfl | rfl <;> simp
  have hstores := stores_queryFiltered h.profiles params
  rw [handleQuery, if_neg hnot]
  change (pubRsp .queryProfile (.success (profilesToWire _))).bind _ = _
  rw [reply_profiles hstores rfl, Option.bind_some, Op.onReply,
    wireToDataProfileList_profilesToWire hstores, Option.map_some]

theorem handleQuery_id (h : s.Mirrors c) {data : Dict String Json} {id : ℤ}
    (hmem : "profileId" ∈ data.keys) (hid : requestedId data = some (.int id))
    (profileId : UInt8) (t : TechPreference) :
    (s.handleQuery data).bind (fun reply => Op.onReply reply (.requestProfile profileId t)) =
      some (.onProfileResponse (c.profiles.find? (fun q => q.id = id)) .success) := by
  have hrel : Option.Rel Stores (s.store.getById (.int id))
      (c.profiles.find? (fun q => q.id = id)) := get_of_holds h.profiles
  rw [handleQuery, if_pos hmem, hid, Option.bind_some]
  generalize s.store.getById (.int id) = p at hrel
  generalize c.profiles.find? (fun q => q.id = id) = q at hrel
  have hstores : List.Forall₂ Stores p.toList q.toList := by
    cases hrel with
    | none => exact .nil
    | some hstores => exact .cons hstores .nil
  change (pubRsp .queryProfile (.success (profilesToWire p.toList))).bind _ = _
  rw [reply_profiles hstores rfl, Option.bind_some, Op.onReply,
    wireToDataProfileList_profilesToWire hstores, Option.map_some]
  cases q <;> rfl

theorem handleQuery_request (h : s.Mirrors c) (slot : ℤ) (profileId : UInt8)
    (t : TechPreference) :
    (s.handleQuery (.ofList (Op.toWire slot (.requestProfile profileId t)))).bind
        (fun reply => Op.onReply reply (.requestProfile profileId t)) =
      some (.onProfileResponse (c.profiles.find? (fun q => q.id = profileId.toNat)) .success) := by
  have hkeys : (Dict.ofList (Op.toWire slot (.requestProfile profileId t))).keys =
      ["profileId", "techPref"] := rfl
  exact handleQuery_id h (by simp [hkeys]) rfl profileId t

theorem handleRequestProfileList_answers (h : s.Mirrors c) :
    s.handleRequestProfileList.bind (fun reply => Op.onReply reply .requestProfileList) =
      some (.onProfileListResponse c.profiles .success) := by
  have hstores := stores_values h.profiles
  rw [handleRequestProfileList, reply_profiles hstores rfl, Option.bind_some, Op.onReply,
    wireToDataProfileList_profilesToWire hstores, Option.map_some]

section Refines

variable [FloatText]

theorem maybePersist_eq (written : Bool) (s : DataProfileAO) :
    ∃ file, s.maybePersist written = { s with file := file } := by
  unfold maybePersist
  split
  · exact ⟨_, rfl⟩
  · exact ⟨_, rfl⟩

/-- A handled request is answered as the catalog says, and leaves the catalog that it says. -/
def Answers (r : Option ProfileReply × DataProfileAO) (op : Op) (a : Option Callback × Catalog) :
    Prop :=
  r.1.bind (fun reply => op.onReply reply) = a.1 ∧ r.2.Mirrors a.2

theorem handleCreate_answers (h : s.Mirrors c) (written : Bool) (slot : ℤ)
    (params : ProfileParams) :
    Answers (s.handleCreate written (.ofList (Op.toWire slot (.createProfile params))))
      (.createProfile params) (c.perform (.createProfile params)) := by
  have hcreate := create_eq h.profiles (.ofList (Op.toWire slot (.createProfile params)))
  rw [Catalog.perform]
  cases hnew : c.newId with
  | none =>
    rw [hnew] at hcreate
    rw [handleCreate, hcreate]
    exact ⟨rfl, h⟩
  | some id =>
    rw [hnew] at hcreate
    obtain ⟨hfree, hfits⟩ := newId_spec hnew
    let q : DataProfile := { params with id := id }
    have hp : (ProfileStore.fresh id).override (.ofList (Op.toWire slot (.createProfile params))) =
        q.toStored (ProfileStore.fresh id).isDefault := by
      exact DataProfile.override_params (q := q) rfl (names_append params (by simp [paramsFields]))
    simp only [hp] at hcreate
    obtain ⟨file, hfile⟩ := maybePersist_eq written
      { s with store := s.store.store (q.toStored (ProfileStore.fresh id).isDefault) }
    have hget : (s.store.store (q.toStored (ProfileStore.fresh id).isDefault)).getById (.int id) =
        some (q.toStored (ProfileStore.fresh id).isDefault) := Dict.get_set_self _ _ _
    have hint : toInt id = id := DataProfile.toInt_of_fits (q := q) hfits
    rw [handleCreate, hcreate]
    have htech : (q.toStored (ProfileStore.fresh id).isDefault).techPref =
        .str (techPrefToWire q.techPref) := rfl
    have hevent : "CREATE" ∈ ["CREATE", "MODIFY", "DELETE"] := by simp
    simp only [hget, hfile]
    rw [htech, announce_eq hevent id q.techPref rfl]
    constructor
    · change some (Callback.onCreateResponse (toInt id) .success) = _
      rw [hint]
    · exact h.change (holds_set_new h.profiles (q := q) ⟨hfits, _, rfl⟩ hfree) hfits file
        params.techPref "CREATE"

theorem handleModify_answers (h : s.Mirrors c) (written : Bool) (slot : ℤ) (profileId : UInt8)
    (params : ProfileParams) :
    Answers (s.handleModify written (.ofList (Op.toWire slot (.modifyProfile profileId params))))
      (.modifyProfile profileId params) (c.perform (.modifyProfile profileId params)) := by
  let id : ℤ := profileId.toNat
  have hnames : ((Op.toWire slot (.modifyProfile profileId params)).map Prod.fst).Nodup :=
    names_append params (by simp [paramsFields])
  have hid : requestedId (.ofList (Op.toWire slot (.modifyProfile profileId params))) =
      some (.int id) := by
    have hget := (Dict.get_ofList_of_nodup hnames (e := ("profileId", idToWire profileId))).mpr
      (by simp [Op.toWire])
    rw [requestedId, hget]
    rfl
  rw [Catalog.perform, handleModify, hid]
  rcases get_cases h id with ⟨hmem, p, q, hp, ⟨-, isDefault, rfl⟩, hq⟩ | ⟨hmem, hp⟩
  · let q' : DataProfile := { params with id := id }
    have hupdated : { (q.toStored isDefault).override
        (.ofList (Op.toWire slot (.modifyProfile profileId params))) with id := .int id } =
        q'.toStored isDefault := by
      have hover : (q.toStored isDefault).override
          (.ofList (Op.toWire slot (.modifyProfile profileId params))) =
            ({ params with id := q.id } : DataProfile).toStored isDefault := by
        exact DataProfile.override_params rfl hnames
      rw [hover]
      rfl
    have hmodify : s.store.modify (.int id)
        (.ofList (Op.toWire slot (.modifyProfile profileId params))) =
        (.ok (q'.toStored isDefault), s.store.store (q'.toStored isDefault)) := by
      rw [ProfileStore.modify, hp]
      simp only [hupdated]
    obtain ⟨file, hfile⟩ := maybePersist_eq written
      { s with store := s.store.store (q'.toStored isDefault) }
    have htech : (q'.toStored isDefault).techPref = .str (techPrefToWire q'.techPref) := rfl
    have hevent : "MODIFY" ∈ ["CREATE", "MODIFY", "DELETE"] := by simp
    simp only [hmodify, hfile]
    rw [if_pos hmem, htech, announce_eq hevent id q'.techPref rfl]
    exact ⟨rfl, h.change (holds_set h.profiles (q := q') ⟨fits_uint8 profileId, _, rfl⟩ hmem)
      (fits_uint8 profileId) file params.techPref "MODIFY"⟩
  · have hmodify : s.store.modify (.int id)
        (.ofList (Op.toWire slot (.modifyProfile profileId params))) =
        (.error .invalidArguments, s.store) := by
      rw [ProfileStore.modify, hp]
    simp only [hmodify]
    rw [if_neg hmem]
    exact ⟨rfl, h⟩

theorem handleDelete_answers (h : s.Mirrors c) (written : Bool) (slot : ℤ) (profileId : UInt8)
    (t : TechPreference) :
    Answers (s.handleDelete written (.ofList (Op.toWire slot (.deleteProfile profileId t))))
      (.deleteProfile profileId t) (c.perform (.deleteProfile profileId t)) := by
  let id : ℤ := profileId.toNat
  have hid : requestedId (.ofList (Op.toWire slot (.deleteProfile profileId t))) =
      some (.int id) := rfl
  have htech : (Dict.ofList (Op.toWire slot (.deleteProfile profileId t))).get "techPref" =
      some (.str (techPrefToWire t)) := rfl
  rw [Catalog.perform, handleDelete, hid, htech]
  rcases get_cases h id with ⟨hmem, p, q, hp, -, -⟩ | ⟨hmem, hp⟩
  · have hdelete : s.store.delete (.int id) = (.ok (), s.store.remove (.int id)) := by
      rw [ProfileStore.delete, hp]
    obtain ⟨file, hfile⟩ := maybePersist_eq written { s with store := s.store.remove (.int id) }
    have hevent : "DELETE" ∈ ["CREATE", "MODIFY", "DELETE"] := by simp
    simp only [hdelete, hfile, Option.getD_some]
    rw [if_pos hmem, announce_eq hevent id t rfl]
    exact ⟨rfl, h.change (holds_pop h.profiles) (fits_uint8 profileId) file t "DELETE"⟩
  · have hdelete : s.store.delete (.int id) = (.error .invalidArguments, s.store) := by
      rw [ProfileStore.delete, hp]
    simp only [hdelete]
    rw [if_neg hmem]
    exact ⟨rfl, h⟩

theorem dispatch_answers (h : s.Mirrors c) {slot : ℤ} (hslot : 0 ≤ slot) (written : Bool)
    (op : Op) :
    Answers (s.dispatch written op.topic (.ofList (op.toWire slot))) op (c.perform op) := by
  unfold dispatch
  rw [if_pos (admits_toWire hslot op)]
  cases op with
  | requestProfileList => exact ⟨handleRequestProfileList_answers h, h⟩
  | createProfile params => exact handleCreate_answers h written slot params
  | deleteProfile profileId t => exact handleDelete_answers h written slot profileId t
  | modifyProfile profileId params => exact handleModify_answers h written slot profileId params
  | queryProfile params => exact ⟨handleQuery_query h params, h⟩
  | requestProfile profileId t => exact ⟨handleQuery_request h slot profileId t, h⟩

/-- The modem behind the client does and answers what the catalog says. -/
theorem refines_catalog {slot : ℤ} (hslot : 0 ≤ slot) (persists : Bool)
    (seedProfiles : List SeedProfile) :
    Rpc.Refines (service slot persists seedProfiles) Catalog.perform Mirrors := by
  intro written s c op h
  exact dispatch_answers h hslot (persists && written) op

end Refines

end DataProfileAO

end TelafSim.Data
