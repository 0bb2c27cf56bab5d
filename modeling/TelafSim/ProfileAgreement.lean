import TelafSim.ProfileCatalog

/-!
# Agreement on the profiles

The calls of any number of clients see one catalog of profiles, as long as each new start of the
modem finds what the one before left; with a persist path whose writes do not fail it always does.
The listeners of the indications know which profiles there are.
-/

namespace TelafSim.Data

open ProfileManager

/-! ### The start -/

def SeedProfile.toDataProfile (sp : SeedProfile) : DataProfile where
  id := sp.profileId
  apn := sp.apn
  userName := sp.username
  password := sp.password
  techPref := wireToTechPref (seedTechPrefToWire sp.techType)
  authType := wireToAuthType (seedAuthTypeToWire sp.authType)
  ipFamilyType := wireToIpFamily sp.ipFamily

/-- The id is one of an `int`, and the IP family one that the schemas know. -/
structure SeedProfile.Fits (sp : SeedProfile) : Prop where
  id : sp.toDataProfile.Fits
  ipFamily : sp.ipFamily ∈ ipFamilyNames

theorem SeedProfile.toProfile_eq {sp : SeedProfile} (h : sp.Fits) :
    sp.toProfile = sp.toDataProfile.toStored (.scalar (.bool sp.isDefault)) := by
  have htech : techPrefToWire (wireToTechPref (seedTechPrefToWire sp.techType)) =
      seedTechPrefToWire sp.techType := by
    unfold seedTechPrefToWire
    split_ifs <;> rfl
  have hauth : authTypeToWire (wireToAuthType (seedAuthTypeToWire sp.authType)) =
      seedAuthTypeToWire sp.authType := by
    unfold seedAuthTypeToWire
    split_ifs <;> rfl
  have hfamily : ProfileManager.ipFamilyToWire (wireToIpFamily sp.ipFamily) = sp.ipFamily := by
    have hmem := h.ipFamily
    simp only [ipFamilyNames, List.mem_cons, List.not_mem_nil, or_false] at hmem
    rcases hmem with heq | heq | heq | heq <;> rw [heq] <;> rfl
  simp only [SeedProfile.toProfile, DataProfile.toStored, SeedProfile.toDataProfile, htech, hauth,
    hfamily]
  rfl

namespace Catalog

/-- A profile takes the place of the one with its id. -/
def put (l : List DataProfile) (q : DataProfile) : List DataProfile :=
  if q.id ∈ l.map DataProfile.id then l.map (fun q' => if q'.id = q.id then q else q') else l ++ [q]

def ofSeeds (seedProfiles : List SeedProfile) : Catalog where
  profiles := (seedProfiles.map SeedProfile.toDataProfile).foldl put []
  updates := []

end Catalog

theorem holds_put {d : Dict PyKey Profile} {l : List DataProfile}
    (h : List.Forall₂ Holds d.entries l) {p : Profile} {q : DataProfile} (hp : Stores p q) :
    List.Forall₂ Holds (d.set (Scalar.int q.id).key p).entries (Catalog.put l q) := by
  unfold Catalog.put
  split
  · next hold => exact holds_set h hp hold
  · next hnew => exact holds_set_new h hp hnew

theorem holds_seed {seedProfiles : List SeedProfile} (hseeds : ∀ sp ∈ seedProfiles, sp.Fits)
    {s : ProfileStore} {l : List DataProfile} (h : List.Forall₂ Holds s.profiles.entries l) :
    List.Forall₂ Holds (s.seed seedProfiles).profiles.entries
      ((seedProfiles.map SeedProfile.toDataProfile).foldl Catalog.put l) := by
  induction seedProfiles generalizing s l with
  | nil => exact h
  | cons sp seedProfiles ih =>
    obtain ⟨hsp, hrest⟩ := List.forall_mem_cons.mp hseeds
    apply ih hrest
    have hprofiles : (s.seedOne sp).profiles = s.profiles.set (Scalar.int sp.profileId).key
        (sp.toDataProfile.toStored (.scalar (.bool sp.isDefault))) := by
      unfold ProfileStore.seedOne
      rw [SeedProfile.toProfile_eq hsp]
      split <;> rfl
    rw [hprofiles]
    exact holds_put h ⟨hsp.id, _, rfl⟩

/-! ### What the listeners know -/

/-- What a listener that knows the technologies of the profiles makes of an update. -/
def ProfileManager.ProfileUpdate.apply (known : ℤ → Option TechPreference) (u : ProfileUpdate) :
    ℤ → Option TechPreference :=
  Function.update known u.profileId
    (if u.event = .deleteProfileEvent then none else some u.techPreference)

namespace Catalog

variable {c : Catalog} {id : ℤ}

def techs (c : Catalog) (id : ℤ) : Option TechPreference :=
  (c.profiles.find? (fun q => q.id = id)).map (fun q => q.techPref)

/-- A listener that starts with `known` and follows the updates knows the technologies. -/
def Announced (known : ℤ → Option TechPreference) (c : Catalog) : Prop :=
  c.updates.foldl ProfileUpdate.apply known = c.techs

theorem Announced.change {known : ℤ → Option TechPreference} (h : c.Announced known)
    {l : List DataProfile} {u : ProfileUpdate} (htechs : (c.change l u).techs = u.apply c.techs) :
    (c.change l u).Announced known := by
  have hupdates : (c.change l u).updates = c.updates ++ [u] := rfl
  rw [Announced, hupdates, List.foldl_append, h, htechs]
  rfl

theorem techs_append {q : DataProfile} (hnew : q.id ∉ c.ids) (u : ProfileUpdate) :
    (c.change (c.profiles ++ [q]) u).techs = Function.update c.techs q.id (some q.techPref) := by
  funext id
  have hprofiles : (c.change (c.profiles ++ [q]) u).profiles = c.profiles ++ [q] := rfl
  rw [techs, hprofiles, List.find?_append]
  by_cases hid : id = q.id
  · subst hid
    have hnone : c.profiles.find? (fun q' => q'.id = q.id) = none := by
      rw [List.find?_eq_none]
      intro q' hq' heq
      exact hnew (List.mem_map.mpr ⟨q', hq', of_decide_eq_true heq⟩)
    rw [hnone, Function.update_self]
    simp
  · have hnone : [q].find? (fun q' => q'.id = id) = none := by
      simp [Ne.symm hid]
    rw [hnone, Option.or_none, Function.update_of_ne hid, techs]

theorem techs_filter (u : ProfileUpdate) :
    (c.change (c.profiles.filter (fun q => q.id ≠ id)) u).techs =
      Function.update c.techs id none := by
  funext id'
  have hprofiles : (c.change (c.profiles.filter (fun q => q.id ≠ id)) u).profiles =
      c.profiles.filter (fun q => q.id ≠ id) := rfl
  rw [techs, hprofiles]
  by_cases hid : id' = id
  · subst hid
    have hnone : (c.profiles.filter (fun q => q.id ≠ id')).find? (fun q => q.id = id') = none := by
      rw [List.find?_eq_none]
      intro q hq heq
      have hne : q.id ≠ id' := of_decide_eq_true (List.mem_filter.mp hq).2
      exact hne (of_decide_eq_true heq)
    rw [hnone, Function.update_self]
    rfl
  · have hsame : (c.profiles.filter (fun q => q.id ≠ id)).find? (fun q => q.id = id') =
        c.profiles.find? (fun q => q.id = id') := by
      rw [List.find?_filter]
      congr 1
      funext q
      by_cases hq : q.id = id'
      · simp [hq, hid]
      · simp [hq]
    rw [hsame, Function.update_of_ne hid]
    rfl

theorem techs_map {q : DataProfile} (hold : q.id ∈ c.ids) (u : ProfileUpdate) :
    (c.change (c.profiles.map (fun q' => if q'.id = q.id then q else q')) u).techs =
      Function.update c.techs q.id (some q.techPref) := by
  funext id
  have hprofiles :
      (c.change (c.profiles.map (fun q' => if q'.id = q.id then q else q')) u).profiles =
        c.profiles.map (fun q' => if q'.id = q.id then q else q') := rfl
  have hsame : ((fun q' : DataProfile => decide (q'.id = id)) ∘
      fun q' => if q'.id = q.id then q else q') = fun q' => decide (q'.id = id) := by
    funext q'
    by_cases hq : q'.id = q.id
    · simp [hq]
    · simp [hq]
  rw [techs, hprofiles, List.find?_map, hsame, Option.map_map]
  by_cases hid : id = q.id
  · subst hid
    obtain ⟨q', hq', heq⟩ := List.mem_map.mp hold
    obtain ⟨found, hfound⟩ : ∃ found, c.profiles.find? (fun q' => q'.id = q.id) = some found := by
      rw [← Option.isSome_iff_exists, List.find?_isSome]
      exact ⟨q', hq', decide_eq_true heq⟩
    have hfoundId : found.id = q.id := by simpa using List.find?_some hfound
    rw [hfound, Function.update_self, Option.map_some]
    simp [hfoundId]
  · rw [Function.update_of_ne hid, techs]
    apply Option.map_congr
    intro q' hq'
    have hq'id : q'.id = id := by simpa using List.find?_some hq'
    simp [hq'id, hid]

theorem announced_perform {known : ℤ → Option TechPreference} (h : c.Announced known) (op : Op) :
    (c.perform op).2.Announced known := by
  cases op with
  | requestProfileList => exact h
  | queryProfile params => exact h
  | requestProfile profileId t => exact h
  | createProfile params =>
    rw [perform]
    cases hnew : c.newId with
    | none => exact h
    | some id =>
      have hfree : id ∉ c.ids := (DataProfileAO.newId_spec hnew).1
      exact h.change (techs_append (q := { params with id := id }) hfree _)
  | deleteProfile profileId t =>
    rw [perform]
    split
    · exact h.change (techs_filter _)
    · exact h
  | modifyProfile profileId params =>
    rw [perform]
    split
    · next hmem => exact h.change (techs_map (q := { params with id := profileId.toNat }) hmem _)
    · exact h

theorem announced_replay {κ : Type} {known : ℤ → Option TechPreference} (h : c.Announced known)
    (log : List (Rpc.Entry κ Op (Option Callback))) :
    (Rpc.replay perform c log).Announced known := by
  induction log using List.reverseRecOn with
  | nil => exact h
  | append_singleton log e ih =>
    cases e with
    | handled k op a => simpa using announced_perform ih op
    | called k op => simpa using ih
    | returned k a => simpa using ih

end Catalog

namespace DataProfileAO

/-- Before the modem has been started for the first time. -/
def blank : DataProfileAO where
  store := .empty
  file := .missing
  published := []

section Runs

variable [FloatText] {s t : DataProfileAO} {seedProfiles : List SeedProfile}

theorem mirrors_start (hseeds : ∀ sp ∈ seedProfiles, sp.Fits) {persists written : Bool}
    (hstart : blank.start persists written seedProfiles = some s) :
    s.Mirrors (.ofSeeds seedProfiles) := by
  have hprofiles := holds_seed hseeds (s := ProfileStore.empty) (l := []) .nil
  cases persists with
  | false =>
    obtain rfl := Option.some.inj hstart
    exact ⟨hprofiles, rfl⟩
  | true =>
    obtain ⟨file, hfile⟩ := maybePersist_eq written
      { blank with store := ProfileStore.empty.seed seedProfiles }
    have heq : some ({ blank with store := ProfileStore.empty.seed seedProfiles }.maybePersist
        written) = some s := hstart
    rw [hfile] at heq
    obtain rfl := Option.some.inj heq
    exact ⟨hprofiles, rfl⟩

/-- The file holds what the modem has. -/
structure Persisted (s : DataProfileAO) : Prop where
  file : s.file = .json s.store.snapshot
  keyed : s.store.Keyed
  named : s.store.Named

theorem Persisted.perform (h : s.Persisted) (o : ProfileStore.Operation)
    (hstore : t.store = (s.store.perform o).2) (hfile : t.file = .json t.store.snapshot) :
    t.Persisted where
  file := hfile
  keyed := by
    rw [hstore]
    exact ProfileStore.perform_keeps ProfileStore.Keyed.change h.keyed o
  named := by
    rw [hstore]
    exact ProfileStore.perform_keeps ProfileStore.Named.change h.named o

variable {κ : Type} [DecidableEq κ]

/-- The calls and what is on its way between them and the modem. -/
abbrev Calls (κ : Type) := Rpc.State κ Op (Option Callback) DataProfileAO

omit [FloatText] in
theorem Mirrors.known {s : DataProfileAO} {c : Catalog} {known : ℤ → Option TechPreference}
    (h : s.Mirrors c) (hannounced : c.Announced known) (id : ℤ) :
    (s.store.profiles.get (Scalar.int id).key).map Profile.techPref =
      ((s.published.filterMap onProfileChanged).foldl ProfileUpdate.apply known id).map
        (fun t => .str (techPrefToWire t)) := by
  have hupdates : s.published.filterMap onProfileChanged = c.updates := by
    have hmap : (s.published.map onProfileChanged).filterMap (fun u => u) = c.updates := by
      rw [h.updates, List.filterMap_map]
      exact List.filterMap_some
    rwa [List.filterMap_map] at hmap
  have hrel : Option.Rel Stores (s.store.profiles.get (Scalar.int id).key)
      (c.profiles.find? (fun q => q.id = id)) := get_of_holds h.profiles
  rw [hupdates, hannounced, Catalog.techs]
  generalize s.store.profiles.get (Scalar.int id).key = p at hrel
  generalize c.profiles.find? (fun q => q.id = id) = q at hrel
  cases hrel with
  | none => rfl
  | some hstores =>
    obtain ⟨-, isDefault, rfl⟩ := hstores
    rfl

/-- A listener that knows the technologies of the seeds, and replays the indications in the order in
which they are published, knows which profiles the modem has and the technology of each. -/
theorem listenersKnow_run {slot : ℤ} {persists written : Bool} {s₀ : DataProfileAO}
    {ls : List (Rpc.State.Label κ Bool Bool Op (Option Callback))} {t : Calls κ}
    (hslot : 0 ≤ slot) (hseeds : ∀ sp ∈ seedProfiles, sp.Fits)
    (hstart : blank.start persists written seedProfiles = some s₀)
    (hkeeps : Trace.AllSteps (Rpc.State.step (service slot persists seedProfiles))
      (Rpc.State.RestartKeeps (service slot persists seedProfiles) Catalog.perform
        (.ofSeeds seedProfiles) Mirrors) (.initial s₀) ls)
    (hrun : Trace.run (Rpc.State.step (service slot persists seedProfiles)) (.initial s₀) ls =
      some t) (id : ℤ) :
    (t.object.store.profiles.get (Scalar.int id).key).map Profile.techPref =
      ((t.object.published.filterMap onProfileChanged).foldl ProfileUpdate.apply
        (Catalog.ofSeeds seedProfiles).techs id).map (fun t => .str (techPrefToWire t)) := by
  have href := refines_catalog hslot persists seedProfiles
  obtain ⟨-, hmirrors, -⟩ := Rpc.State.history_run href (mirrors_start hseeds hstart) hkeeps hrun
  have hannounced : (Catalog.ofSeeds seedProfiles).Announced (Catalog.ofSeeds seedProfiles).techs :=
    rfl
  exact Mirrors.known hmirrors (Catalog.announced_replay hannounced t.log) id

end Runs

/-! A client makes a second profile, the modem is started anew before it answers, and another client
asks for both. -/

def internetSeed : SeedProfile where
  profileId := 1
  apn := "internet"
  ipFamily := "IPV4V6"
  authType := "NONE"
  username := ""
  password := ""
  techType := "3GPP"
  isDefault := true

def imsParams : ProfileParams where
  profileName := "ims"
  apn := "ims"
  techPref := .tp3gpp

def restarted : List (Rpc.State.Label ℕ Bool Bool Op (Option Callback)) :=
  [.call 0 (.createProfile imsParams), .handle true 0 (.createProfile imsParams), .restart true,
    .respond 0 (some (.onCreateResponse 2 .success)), .call 1 .requestProfileList,
    .handle true 1 .requestProfileList,
    .respond 1 (some (.onProfileListResponse
      [internetSeed.toDataProfile, { imsParams with id := 2 }] .success))]

def booted [FloatText] (persists : Bool) : DataProfileAO :=
  (blank.start persists true [internetSeed]).getD blank

theorem fits_internetSeed : ∀ sp ∈ [internetSeed], sp.Fits := by
  intro sp hsp
  obtain rfl := List.mem_singleton.mp hsp
  exact ⟨⟨by decide, by decide⟩, by decide⟩

theorem listenersKnow_restarted : ∃ (_ : FloatText) (s₀ : DataProfileAO) (t : Calls ℕ),
    blank.start true true [internetSeed] = some s₀ ∧
    Trace.run (Rpc.State.step (service 1 true [internetSeed])) (.initial s₀) (restarted.take 2) =
      some t ∧
    ((t.object.published.filterMap onProfileChanged).foldl ProfileUpdate.apply
      (Catalog.ofSeeds [internetSeed]).techs 2).map (fun t => Json.str (techPrefToWire t)) =
        some (.str "TP_3GPP") := by
  let _ : FloatText := ⟨fun x => toString x⟩
  have hstart : blank.start true true [internetSeed] = some (booted true) := rfl
  have hrun : Trace.run (Rpc.State.step (service 1 true [internetSeed])) (.initial (booted true))
      (restarted.take 2) = some _ := rfl
  have hkeeps : Trace.AllSteps (Rpc.State.step (service 1 true [internetSeed]))
      (Rpc.State.RestartKeeps (service 1 true [internetSeed]) Catalog.perform
        (.ofSeeds [internetSeed]) Mirrors) (.initial (booted true)) (restarted.take 2) := by
    have hnone : ∀ l ∈ restarted.take 2, ∀ d, l ≠ .restart d := by
      simp [restarted]
    apply (Trace.allSteps_of_forall _ hnone).imp
    rintro s l - hl d object rfl -
    exact absurd rfl (hl d)
  have hknown := listenersKnow_run (by decide) fits_internetSeed hstart hkeeps hrun 2
  exact ⟨_, _, _, hstart, hrun, hknown.symm.trans rfl⟩

end DataProfileAO

end TelafSim.Data
