import TelafSim.DataCall
import TelafSim.ProfileStore

/-!
# Profiles on the wire

What `DataProfileManager.cpp` puts into its requests and reads from what it gets,
`Profile.to_wire` of `profile.py`, and the schemas of the messages between them
(`sml/shared/schemas/data`). What the modem stores of the parameters of a client is read back as it
was given.
-/

namespace TelafSim.Data

inductive TechPreference
  | unknown
  | tp3gpp
  | tp3gpp2
  | tpAny
  deriving DecidableEq, Repr

inductive AuthProtocolType
  | authNone
  | authPap
  | authChap
  | authPapChap
  deriving DecidableEq, Repr

inductive EmergencyCapability
  | unspecified
  | allowed
  | notAllowed
  deriving DecidableEq, Repr

structure ProfileParams where
  profileName : String := ""
  apn : String := ""
  userName : String := ""
  password : String := ""
  techPref : TechPreference := .unknown
  authType : AuthProtocolType := .authNone
  ipFamilyType : IpFamilyType := .unknown
  apnTypes : BitVec 16 := 0
  emergencyAllowed : EmergencyCapability := .unspecified
  clatEnabled : Bool := false
  deriving DecidableEq

structure DataProfile extends ProfileParams where
  id : ℤ
  deriving DecidableEq

/-! ### Schemas -/

inductive FieldType
  | string
  | integer
  | natural
  | boolean
  | oneOf (names : List String)

/-- A float without a fraction is an integer. -/
def FieldType.admits : FieldType → Json → Bool
  | .string, .scalar (.str _) => true
  | .integer, .scalar (.int _) => true
  | .integer, .scalar (.float x) => x.isInt
  | .natural, .scalar (.int n) => 0 ≤ n
  | .natural, .scalar (.float x) => x.isInt && decide (0 ≤ x)
  | .boolean, .scalar (.bool _) => true
  | .oneOf names, .scalar (.str s) => s ∈ names
  | _, _ => false

/-- Other fields than these are not allowed. -/
structure Schema where
  required : List (String × FieldType)
  optional : List (String × FieldType) := []

namespace Schema

def fields (schema : Schema) : List (String × FieldType) := schema.required ++ schema.optional

def admits (schema : Schema) (data : Dict String Json) : Bool :=
  schema.required.all (fun f => (data.get f.1).isSome) &&
    schema.fields.all (fun f => (data.get f.1).all f.2.admits) &&
    data.keys.all (fun name => name ∈ schema.fields.map Prod.fst)

theorem admits_ofList {schema : Schema} {l : List (String × Json)}
    (hfields : (schema.fields.map Prod.fst).Nodup) (hnames : (l.map Prod.fst).Nodup)
    (hrequired : ∀ f ∈ schema.required, f.1 ∈ l.map Prod.fst)
    (htypes : ∀ e ∈ l, ∃ f ∈ schema.fields, f.1 = e.1 ∧ f.2.admits e.2 = true) :
    schema.admits (.ofList l) = true := by
  simp only [admits, Bool.and_eq_true, List.all_eq_true, decide_eq_true_eq]
  refine ⟨⟨?_, ?_⟩, ?_⟩
  · intro f hf
    obtain ⟨e, he, hname⟩ := List.mem_map.mp (hrequired f hf)
    rw [← hname, (Dict.get_ofList_of_nodup hnames).mpr he]
    rfl
  · intro f hf
    cases hv : (Dict.ofList l).get f.1 with
    | none => rfl
    | some v =>
      have he : (f.1, v) ∈ l := (Dict.get_ofList_of_nodup hnames).mp hv
      obtain ⟨g, hg, hname, hadmits⟩ := htypes _ he
      obtain rfl := List.inj_on_of_nodup_map hfields hg hf hname
      exact hadmits
  · intro name hname
    rw [Dict.keys, Dict.entries_ofList hnames] at hname
    obtain ⟨e, he, rfl⟩ := List.mem_map.mp hname
    obtain ⟨f, hf, heq, -⟩ := htypes e he
    exact List.mem_map.mpr ⟨f, hf, heq⟩

/-- The field is there, with a value of its type. -/
def Typed (f : String × FieldType) (e : String × Json) : Prop :=
  f.1 = e.1 ∧ f.2.admits e.2 = true

theorem names_of_typed {fs : List (String × FieldType)} {l : List (String × Json)}
    (h : List.Forall₂ Typed fs l) : l.map Prod.fst = fs.map Prod.fst := by
  induction h with
  | nil => rfl
  | cons hhead _ ih => rw [List.map_cons, List.map_cons, hhead.1, ih]

theorem mem_of_typed {fs : List (String × FieldType)} {l : List (String × Json)}
    (h : List.Forall₂ Typed fs l) {e : String × Json} (he : e ∈ l) : ∃ f ∈ fs, Typed f e := by
  induction h with
  | nil => cases he
  | cons hhead _ ih =>
    rcases List.mem_cons.mp he with rfl | he
    · exact ⟨_, List.mem_cons_self, hhead⟩
    · obtain ⟨f, hf, htyped⟩ := ih he
      exact ⟨f, List.mem_cons_of_mem _ hf, htyped⟩

theorem admits_of_typed {fs : List (String × FieldType)} {l : List (String × Json)}
    (hdistinct : (fs.map Prod.fst).Nodup) (h : List.Forall₂ Typed fs l) :
    Schema.admits ⟨fs, []⟩ (.ofList l) = true := by
  have hfields : Schema.fields ⟨fs, []⟩ = fs := List.append_nil fs
  apply admits_ofList
  · rwa [hfields]
  · rwa [names_of_typed h]
  · intro f hf
    rw [names_of_typed h]
    exact List.mem_map_of_mem hf
  · intro e he
    rw [hfields]
    exact mem_of_typed h he

end Schema

def techPrefNames : List String := ["TP_3GPP", "TP_3GPP2", "TP_ANY", "UNKNOWN"]

def ipFamilyNames : List String := ["IPV4", "IPV6", "IPV4V6", "UNKNOWN"]

/-- The fields that the schemas of profiles and of their parameters share. -/
def paramsFields : List (String × FieldType) :=
  [("profileName", .string), ("apn", .string), ("userName", .string), ("password", .string),
    ("techPref", .oneOf techPrefNames),
    ("authType", .oneOf ["AUTH_NONE", "AUTH_PAP", "AUTH_CHAP", "AUTH_PAP_CHAP"]),
    ("ipFamilyType", .oneOf ipFamilyNames), ("apnTypes", .natural),
    ("emergencyAllowed", .oneOf ["ALLOWED", "NOT_ALLOWED", "UNSPECIFIED"]),
    ("clatEnabled", .boolean)]

def createProfileReq : Schema := ⟨paramsFields ++ [("slot", .natural)], []⟩

def modifyProfileReq : Schema :=
  ⟨paramsFields ++ [("profileId", .integer), ("slot", .natural)], []⟩

def deleteProfileReq : Schema :=
  ⟨[("profileId", .integer), ("techPref", .oneOf techPrefNames), ("slot", .natural)], []⟩

def queryProfileReq : Schema where
  required := []
  optional := [("profileName", .string), ("apn", .string), ("techPref", .oneOf techPrefNames),
    ("ipFamilyType", .oneOf ipFamilyNames), ("profileId", .integer)]

/-- `request_profile_list.req`, and the responses to `modify_profile` and `delete_profile`. -/
def nothing : Schema := ⟨[], []⟩

def createProfileRsp : Schema := ⟨[("profileId", .integer)], []⟩

/-- An element of `profiles` in `query_profile.rsp` and `request_profile_list.rsp`. -/
def profileItem : Schema := ⟨("id", .integer) :: paramsFields, []⟩

def profileChangedInd : Schema :=
  ⟨[("profileId", .integer), ("techPref", .oneOf techPrefNames),
    ("event", .oneOf ["CREATE", "MODIFY", "DELETE"])], []⟩

/-! ### What the client writes and reads -/

namespace ProfileManager

def authTypeToWire : AuthProtocolType → String
  | .authNone => "AUTH_NONE"
  | .authPap => "AUTH_PAP"
  | .authChap => "AUTH_CHAP"
  | .authPapChap => "AUTH_PAP_CHAP"

def wireToAuthType (s : String) : AuthProtocolType :=
  if s = "AUTH_PAP" then .authPap
  else if s = "AUTH_CHAP" then .authChap
  else if s = "AUTH_PAP_CHAP" then .authPapChap
  else .authNone

def ipFamilyToWire : IpFamilyType → String
  | .ipv4 => "IPV4"
  | .ipv6 => "IPV6"
  | .ipv4v6 => "IPV4V6"
  | .unknown => "UNKNOWN"

def wireToIpFamily (s : String) : IpFamilyType :=
  if s = "IPV4" then .ipv4
  else if s = "IPV6" then .ipv6
  else if s = "IPV4V6" then .ipv4v6
  else .unknown

def techPrefToWire : TechPreference → String
  | .tp3gpp => "TP_3GPP"
  | .tp3gpp2 => "TP_3GPP2"
  | .tpAny => "TP_ANY"
  | .unknown => "UNKNOWN"

def wireToTechPref (s : String) : TechPreference :=
  if s = "TP_3GPP" then .tp3gpp
  else if s = "TP_3GPP2" then .tp3gpp2
  else if s = "TP_ANY" then .tpAny
  else .unknown

def emergencyToWire : EmergencyCapability → String
  | .allowed => "ALLOWED"
  | .notAllowed => "NOT_ALLOWED"
  | .unspecified => "UNSPECIFIED"

def wireToEmergency (s : String) : EmergencyCapability :=
  if s = "ALLOWED" then .allowed
  else if s = "NOT_ALLOWED" then .notAllowed
  else .unspecified

@[simp] theorem wireToAuthType_authTypeToWire (t : AuthProtocolType) :
    wireToAuthType (authTypeToWire t) = t := by
  cases t <;> rfl

@[simp] theorem wireToIpFamily_ipFamilyToWire (f : IpFamilyType) :
    wireToIpFamily (ipFamilyToWire f) = f := by
  cases f <;> rfl

@[simp] theorem wireToTechPref_techPrefToWire (t : TechPreference) :
    wireToTechPref (techPrefToWire t) = t := by
  cases t <;> rfl

@[simp] theorem wireToEmergency_emergencyToWire (c : EmergencyCapability) :
    wireToEmergency (emergencyToWire c) = c := by
  cases c <;> rfl

theorem techPrefToWire_mem (t : TechPreference) : techPrefToWire t ∈ techPrefNames := by
  cases t <;> simp [techPrefToWire, techPrefNames]

theorem ipFamilyToWire_mem (f : IpFamilyType) : ipFamilyToWire f ∈ ipFamilyNames := by
  cases f <;> simp [ipFamilyToWire, ipFamilyNames]

theorem techPrefToWire_inj {t t' : TechPreference} :
    techPrefToWire t = techPrefToWire t' ↔ t = t' :=
  (Function.LeftInverse.injective wireToTechPref_techPrefToWire).eq_iff

theorem ipFamilyToWire_inj {f f' : IpFamilyType} :
    ipFamilyToWire f = ipFamilyToWire f' ↔ f = f' :=
  (Function.LeftInverse.injective wireToIpFamily_ipFamilyToWire).eq_iff

def profileParamsToWire (p : ProfileParams) : List (String × Json) :=
  [("profileName", .str p.profileName), ("apn", .str p.apn), ("userName", .str p.userName),
    ("password", .str p.password), ("techPref", .str (techPrefToWire p.techPref)),
    ("authType", .str (authTypeToWire p.authType)),
    ("ipFamilyType", .str (ipFamilyToWire p.ipFamilyType)),
    ("apnTypes", .scalar (.int p.apnTypes.toNat)),
    ("emergencyAllowed", .str (emergencyToWire p.emergencyAllowed)),
    ("clatEnabled", .scalar (.bool p.clatEnabled))]

/-- A conversion that throws gives `none`, as do the two below. -/
def asString : Json → Option String
  | .scalar (.str s) => some s
  | _ => none

/-- A number loses its fraction. -/
def asNumber : Json → Option ℤ
  | .scalar (.int n) => some n
  | .scalar (.float x) => some (x.num.tdiv x.den)
  | .scalar (.bool b) => some (if b then 1 else 0)
  | _ => none

def asBool : Json → Option Bool
  | .scalar (.bool b) => some b
  | _ => none

/-- `j.value(name, default)` -/
def value {α : Type} (convert : Json → Option α) (name : String) (default : α)
    (j : Dict String Json) : Option α :=
  match j.get name with
  | none => some default
  | some v => convert v

def profileIdInvalid : ℤ := -1

/-- A number in an `int`. -/
def toInt (n : ℤ) : ℤ := n.bmod (2 ^ 32)

def wireToDataProfile : Json → Option DataProfile
  | .obj pairs => do
    let j : Dict String Json := .ofList pairs
    let id ← value asNumber "id" profileIdInvalid j
    let profileName ← value asString "profileName" "" j
    let apn ← value asString "apn" "" j
    let userName ← value asString "userName" "" j
    let password ← value asString "password" "" j
    let ipFamilyType ← value asString "ipFamilyType" "" j
    let techPref ← value asString "techPref" "" j
    let authType ← value asString "authType" "" j
    let apnTypes ← value asNumber "apnTypes" 0 j
    let emergencyAllowed ← value asString "emergencyAllowed" "" j
    let clatEnabled ← value asBool "clatEnabled" false j
    return {
      id := toInt id
      profileName := profileName
      apn := apn
      userName := userName
      password := password
      ipFamilyType := wireToIpFamily ipFamilyType
      techPref := wireToTechPref techPref
      authType := wireToAuthType authType
      apnTypes := BitVec.ofInt 16 apnTypes
      emergencyAllowed := wireToEmergency emergencyAllowed
      clatEnabled := clatEnabled }
  | _ => none

def wireToDataProfileList (data : Dict String Json) : Option (List DataProfile) :=
  match data.get "profiles" with
  | some (.arr items) => items.mapM wireToDataProfile
  | _ => some []

end ProfileManager

def Profile.toWire (p : Profile) : List (String × Json) :=
  p.asdict.filter (fun e => e.1 ≠ "isDefault")

/-! ### What the modem stores -/

namespace DataProfile

open ProfileManager

def toStored (q : DataProfile) (isDefault : Json) : Profile where
  id := .int q.id
  profileName := .str q.profileName
  apn := .str q.apn
  userName := .str q.userName
  password := .str q.password
  techPref := .str (techPrefToWire q.techPref)
  authType := .str (authTypeToWire q.authType)
  ipFamilyType := .str (ProfileManager.ipFamilyToWire q.ipFamilyType)
  apnTypes := .scalar (.int q.apnTypes.toNat)
  emergencyAllowed := .str (emergencyToWire q.emergencyAllowed)
  clatEnabled := .scalar (.bool q.clatEnabled)
  isDefault := isDefault

/-- The id is one of an `int`. -/
def Fits (q : DataProfile) : Prop := -2 ^ 31 ≤ q.id ∧ q.id < 2 ^ 31

variable {q : DataProfile} {isDefault : Json}

theorem toWire_toStored : (q.toStored isDefault).toWire =
    ("id", .scalar (.int q.id)) :: profileParamsToWire q.toProfileParams := by
  simp [Profile.toWire, Profile.asdict, toStored, profileParamsToWire]

theorem typed_params (p : ProfileParams) :
    List.Forall₂ Schema.Typed paramsFields (profileParamsToWire p) := by
  have hauth : ∀ t, authTypeToWire t ∈ ["AUTH_NONE", "AUTH_PAP", "AUTH_CHAP", "AUTH_PAP_CHAP"] := by
    rintro ⟨⟩ <;> simp [authTypeToWire]
  have hemergency : ∀ c, emergencyToWire c ∈ ["ALLOWED", "NOT_ALLOWED", "UNSPECIFIED"] := by
    rintro ⟨⟩ <;> simp [emergencyToWire]
  simp only [paramsFields, profileParamsToWire, List.forall₂_cons, List.forall₂_nil_right_iff,
    Schema.Typed, FieldType.admits, Json.str, decide_eq_true_eq, Int.natCast_nonneg, hauth,
    hemergency, techPrefToWire_mem, ipFamilyToWire_mem, and_self]

theorem typed_toStored :
    List.Forall₂ Schema.Typed profileItem.required (q.toStored isDefault).toWire := by
  rw [toWire_toStored]
  exact .cons ⟨rfl, rfl⟩ (typed_params q.toProfileParams)

theorem names_toStored : ((q.toStored isDefault).toWire.map Prod.fst).Nodup := by
  rw [Schema.names_of_typed typed_toStored]
  decide

theorem admits_toStored :
    profileItem.admits (.ofList (q.toStored isDefault).toWire) = true :=
  Schema.admits_of_typed (by decide) typed_toStored

theorem toInt_of_fits (h : q.Fits) : toInt q.id = q.id := by
  unfold Fits at h
  apply Int.bmod_eq_of_le <;> omega

theorem wireToDataProfile_toStored (h : q.Fits) :
    wireToDataProfile (.obj (q.toStored isDefault).toWire) = some q := by
  have hvalue : ∀ e ∈ (q.toStored isDefault).toWire, ∀ {α : Type} (convert : Json → Option α)
      (d : α), value convert e.1 d (.ofList (q.toStored isDefault).toWire) = convert e.2 := by
    intro e he α convert d
    rw [value, (Dict.get_ofList_of_nodup names_toStored).mpr he]
  rw [toWire_toStored] at hvalue ⊢
  generalize hj : Dict.ofList (("id", Json.scalar (.int q.id)) ::
    profileParamsToWire q.toProfileParams) = j at hvalue
  simp only [profileParamsToWire, List.forall_mem_cons] at hvalue
  obtain ⟨h₀, h₁, h₂, h₃, h₄, h₅, h₆, h₇, h₈, h₉, h₁₀, -⟩ := hvalue
  simp only [wireToDataProfile, hj, h₀, h₁, h₂, h₃, h₄, h₅, h₆, h₇, h₈, h₉, h₁₀]
  simp [asNumber, asString, asBool, Json.str, toInt_of_fits h]

/-- The parameters of a request replace all of a profile but for its id and `isDefault`. -/
theorem override_params {p : Profile} {params : ProfileParams} {rest : List (String × Json)}
    (hid : p.id = .int q.id)
    (hnames : ((profileParamsToWire params ++ rest).map Prod.fst).Nodup) :
    p.override (.ofList (profileParamsToWire params ++ rest)) =
      ({ params with id := q.id } : DataProfile).toStored p.isDefault := by
  have hget : ∀ e ∈ profileParamsToWire params,
      (Dict.ofList (profileParamsToWire params ++ rest)).get e.1 = some e.2 :=
    fun _ he => (Dict.get_ofList_of_nodup hnames).mpr (List.mem_append_left _ he)
  simp only [profileParamsToWire, List.forall_mem_cons] at hget
  obtain ⟨h₁, h₂, h₃, h₄, h₅, h₆, h₇, h₈, h₉, h₁₀, -⟩ := hget
  simp only [Profile.override, toStored, profileParamsToWire, h₁, h₂, h₃, h₄, h₅, h₆, h₇, h₈, h₉,
    h₁₀, hid, Option.getD_some]

end DataProfile

end TelafSim.Data
