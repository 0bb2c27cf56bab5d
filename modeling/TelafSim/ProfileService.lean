import TelafSim.ProfileWire
import TelafSim.Rpc

/-!
# The profile service

`SimulaDataProfileManager` of `DataProfileManager.cpp` and the `DataProfileAO` of
`sml/mpss/data/profile.py` behind it, with the indications of what has changed and the file that the
modem starts from. Any number of calls are under way at once, and requests and responses may be
lost. The calls are those of one catalog of profiles, as long as each new start of the modem finds
what the one before left.
-/

namespace TelafSim.Data

/-! ### The modem -/

inductive ProfileTopic
  | queryProfile
  | requestProfileList
  | createProfile
  | modifyProfile
  | deleteProfile
  deriving DecidableEq

def ProfileTopic.req : ProfileTopic → Schema
  | .queryProfile => queryProfileReq
  | .requestProfileList => nothing
  | .createProfile => createProfileReq
  | .modifyProfile => modifyProfileReq
  | .deleteProfile => deleteProfileReq

def admitsItem : Json → Bool
  | .obj pairs => profileItem.admits (.ofList pairs)
  | _ => false

def admitsProfiles (data : Dict String Json) : Bool :=
  (match data.get "profiles" with
    | some (.arr items) => items.all admitsItem
    | _ => false) &&
    data.keys.all (fun name => name = "profiles")

def ProfileTopic.admitsRsp : ProfileTopic → Dict String Json → Bool
  | .queryProfile | .requestProfileList => admitsProfiles
  | .createProfile => createProfileRsp.admits
  | .modifyProfile | .deleteProfile => nothing.admits

inductive ProfileReply
  | error (code : ProfileError)
  | success (data : List (String × Json))

namespace ProfileStore

def isStr (w : String) : Json → Bool
  | .scalar (.str s) => s = w
  | _ => false

/-- The filter names another value, and none of those that stand for none. Its schema lets only
strings through. -/
def differs (filt : Dict String Json) (name : String) (unset : List String) (v : Json) : Bool :=
  match filt.get name with
  | some (.scalar (.str w)) => w ∉ unset && !isStr w v
  | _ => false

def queryFiltered (filt : Dict String Json) (s : ProfileStore) : List Profile :=
  s.profiles.values.filter (fun p =>
    !differs filt "apn" [""] p.apn && !differs filt "profileName" [""] p.profileName &&
      !differs filt "techPref" ["", "UNKNOWN"] p.techPref &&
      !differs filt "ipFamilyType" ["", "UNKNOWN"] p.ipFamilyType)

def getById (profileId : Scalar) (s : ProfileStore) : Option Profile :=
  s.profiles.get profileId.key

end ProfileStore

def profilesToWire (l : List Profile) : List (String × Json) :=
  [("profiles", .arr (l.map (fun p => .obj p.toWire)))]

structure DataProfileAO where
  store : ProfileStore
  file : Content
  /-- The data of the `profile_changed` indications, the oldest first. -/
  published : List (List (String × Json))

namespace DataProfileAO

/-- `_pub_rsp`: `none` when the validation raises. -/
def pubRsp (topic : ProfileTopic) : ProfileReply → Option ProfileReply
  | .error code => some (.error code)
  | .success data => if topic.admitsRsp (.ofList data) then some (.success data) else none

/-- `_pub_changed`: `none` when the validation raises. -/
def pubChanged (event : String) (profileId techPref : Json) (s : DataProfileAO) :
    Option DataProfileAO :=
  let data := [("profileId", profileId), ("techPref", techPref), ("event", .str event)]
  if profileChangedInd.admits (.ofList data) then
    some { s with published := s.published ++ [data] }
  else none

/-- `data.get("profileId")` as a key; `none` when it has no hash. -/
def requestedId (data : Dict String Json) : Option Scalar :=
  match data.get "profileId" with
  | none => some .null
  | some (.scalar id) => some id
  | some _ => none

def handleQuery (data : Dict String Json) (s : DataProfileAO) : Option ProfileReply :=
  let reply (l : List Profile) := pubRsp .queryProfile (.success (profilesToWire l))
  if "profileId" ∈ data.keys then
    (requestedId data).bind (fun id => reply (s.store.getById id).toList)
  else reply (s.store.queryFiltered data)

def handleRequestProfileList (s : DataProfileAO) : Option ProfileReply :=
  pubRsp .requestProfileList (.success (profilesToWire s.store.profiles.values))

section Handlers

variable [FloatText]

/-- `_maybe_persist`, where the write may fail. -/
def maybePersist (written : Bool) (s : DataProfileAO) : DataProfileAO :=
  if written then { s with file := .json s.store.snapshot } else s

def announce (event : String) (profileId techPref : Json) (topic : ProfileTopic)
    (data : List (String × Json)) (s : DataProfileAO) : Option ProfileReply × DataProfileAO :=
  match s.pubChanged event profileId techPref with
  | none => (none, s)
  | some s => (pubRsp topic (.success data), s)

def handleCreate (written : Bool) (data : Dict String Json) (s : DataProfileAO) :
    Option ProfileReply × DataProfileAO :=
  match s.store.create data with
  | (.error code, _) => (pubRsp .createProfile (.error code), s)
  | (.ok id, store) =>
    let s := { s with store := store }.maybePersist written
    match store.getById (.int id) with
    | none => (none, s)
    | some created => s.announce "CREATE" (.scalar (.int id)) created.techPref .createProfile
      [("profileId", .scalar (.int id))]

def handleModify (written : Bool) (data : Dict String Json) (s : DataProfileAO) :
    Option ProfileReply × DataProfileAO :=
  match requestedId data with
  | none => (none, s)
  | some id =>
    match s.store.modify id data with
    | (.error code, _) => (pubRsp .modifyProfile (.error code), s)
    | (.ok updated, store) =>
      let s := { s with store := store }.maybePersist written
      s.announce "MODIFY" (.scalar id) updated.techPref .modifyProfile []

def handleDelete (written : Bool) (data : Dict String Json) (s : DataProfileAO) :
    Option ProfileReply × DataProfileAO :=
  match requestedId data with
  | none => (none, s)
  | some id =>
    match s.store.delete id with
    | (.error code, _) => (pubRsp .deleteProfile (.error code), s)
    | (.ok _, store) =>
      let s := { s with store := store }.maybePersist written
      s.announce "DELETE" (.scalar id) ((data.get "techPref").getD (.str "UNKNOWN")) .deleteProfile
        []

/-- A request that its schema does not admit is dropped. -/
def dispatch (written : Bool) (topic : ProfileTopic) (data : Dict String Json)
    (s : DataProfileAO) : Option ProfileReply × DataProfileAO :=
  if topic.req.admits data then
    match topic with
    | .queryProfile => (s.handleQuery data, s)
    | .requestProfileList => (s.handleRequestProfileList, s)
    | .createProfile => s.handleCreate written data
    | .modifyProfile => s.handleModify written data
    | .deleteProfile => s.handleDelete written data
  else (none, s)

/-- `_do_start` of a new process; `none` when `load` raises, and the AO does not come up. -/
def start (persists written : Bool) (seedProfiles : List SeedProfile) (s : DataProfileAO) :
    Option DataProfileAO :=
  if persists then
    match ProfileStore.empty.load s.file with
    | (.error _, _) => none
    | (.ok true, store) => some { s with store := store }
    | (.ok false, store) =>
      some ({ s with store := store.seed seedProfiles }.maybePersist written)
  else some { s with store := ProfileStore.empty.seed seedProfiles }

end Handlers

end DataProfileAO

/-! ### The client -/

namespace ProfileManager

inductive Op
  | requestProfileList
  | createProfile (params : ProfileParams)
  | deleteProfile (profileId : UInt8) (techPreference : TechPreference)
  | modifyProfile (profileId : UInt8) (params : ProfileParams)
  | queryProfile (params : ProfileParams)
  | requestProfile (profileId : UInt8) (techPreference : TechPreference)
  deriving DecidableEq

inductive ErrorCode
  | success
  | operationTimeout
  deriving DecidableEq

inductive Callback
  | onProfileListResponse (profiles : List DataProfile) (error : ErrorCode)
  | onCreateResponse (profileId : ℤ) (error : ErrorCode)
  | commandResponse (error : ErrorCode)
  | onProfileResponse (profile : Option DataProfile) (error : ErrorCode)
  deriving DecidableEq

def idToWire (profileId : UInt8) : Json := .scalar (.int profileId.toNat)

def filterFields (p : ProfileParams) : List (Bool × String × Json) :=
  [(p.profileName ≠ "", "profileName", .str p.profileName), (p.apn ≠ "", "apn", .str p.apn),
    (p.techPref ≠ .unknown, "techPref", .str (techPrefToWire p.techPref)),
    (p.ipFamilyType ≠ .unknown, "ipFamilyType", .str (ipFamilyToWire p.ipFamilyType))]

def filterToWire (p : ProfileParams) : List (String × Json) :=
  ((filterFields p).filter Prod.fst).map Prod.snd

def Op.topic : Op → ProfileTopic
  | .requestProfileList => .requestProfileList
  | .createProfile _ => .createProfile
  | .deleteProfile _ _ => .deleteProfile
  | .modifyProfile _ _ => .modifyProfile
  | .queryProfile _ => .queryProfile
  | .requestProfile _ _ => .queryProfile

def Op.toWire (slot : ℤ) : Op → List (String × Json)
  | .requestProfileList => []
  | .createProfile params => profileParamsToWire params ++ [("slot", .scalar (.int slot))]
  | .deleteProfile profileId techPreference =>
    [("profileId", idToWire profileId), ("techPref", .str (techPrefToWire techPreference)),
      ("slot", .scalar (.int slot))]
  | .modifyProfile profileId params =>
    profileParamsToWire params ++
      [("profileId", idToWire profileId), ("slot", .scalar (.int slot))]
  | .queryProfile params => filterToWire params
  | .requestProfile profileId techPreference =>
    [("profileId", idToWire profileId), ("techPref", .str (techPrefToWire techPreference))]

/-- The callback on the response; `none` when reading it throws. -/
def Op.onReply (reply : ProfileReply) : Op → Option Callback
  | .requestProfileList | .queryProfile _ =>
    match reply with
    | .error _ => some (.onProfileListResponse [] .operationTimeout)
    | .success data => (wireToDataProfileList (.ofList data)).map
      (fun profiles => .onProfileListResponse profiles .success)
  | .createProfile _ =>
    match reply with
    | .error _ => some (.onCreateResponse profileIdInvalid .operationTimeout)
    | .success data => (value asNumber "profileId" profileIdInvalid (.ofList data)).map
      (fun id => .onCreateResponse (toInt id) .success)
  | .deleteProfile _ _ | .modifyProfile _ _ =>
    match reply with
    | .error _ => some (.commandResponse .operationTimeout)
    | .success _ => some (.commandResponse .success)
  | .requestProfile _ _ =>
    match reply with
    | .error _ => some (.onProfileResponse none .operationTimeout)
    | .success data => (wireToDataProfileList (.ofList data)).map
      (fun profiles => .onProfileResponse profiles.head? .success)

inductive ProfileChangeEvent
  | createProfileEvent
  | deleteProfileEvent
  | modifyProfileEvent
  deriving DecidableEq

/-- What the listeners are told with `onProfileUpdate`. -/
structure ProfileUpdate where
  profileId : ℤ
  techPreference : TechPreference
  event : ProfileChangeEvent
  deriving DecidableEq

def wireToEvent (s : String) : ProfileChangeEvent :=
  if s = "CREATE" then .createProfileEvent
  else if s = "DELETE" then .deleteProfileEvent
  else .modifyProfileEvent

/-- `ProfileChangedEvt` in Ready; `none` when reading the data throws. -/
def onProfileChanged (data : List (String × Json)) : Option ProfileUpdate := do
  let j : Dict String Json := .ofList data
  let profileId ← value asNumber "profileId" (-1) j
  let techPref ← value asString "techPref" "" j
  let event ← value asString "event" "" j
  return ⟨toInt profileId, wireToTechPref techPref, wireToEvent event⟩

/-- A call and its answer: the request on the wire, the modem's handler, the response on the wire
and the callback. A write of the file fails unless `written`. -/
def service [FloatText] (slot : ℤ) (persists : Bool) (seedProfiles : List SeedProfile) :
    Rpc.Service Bool Bool Op (Option Callback) DataProfileAO where
  handle written s op :=
    let r := s.dispatch (persists && written) op.topic (.ofList (op.toWire slot))
    (r.1.bind op.onReply, r.2)
  sends := Option.isSome
  restart written s := s.start persists written seedProfiles

end ProfileManager

end TelafSim.Data
