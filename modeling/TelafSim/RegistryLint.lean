import Mathlib.Data.List.ReduceOption
import TelafSim.WireEnvelope

/-!
# The lint of the contract registry

`validate_registry.py`: a registry file is a YAML document that lists the requests, indications and
one-way messages of a domain with their topics and the files of their schemas. The lint reads one
file at a time and returns its complaints; an exception leaves it on a value that it did not expect
at its place. What the YAML and the JSON parser make of a file is given.
-/

namespace TelafSim.Registry

open WireEnvelope (isUnder)

/-- What a YAML text can hold and a JSON text cannot: a date, bytes, a set, a pair of an ordered
map, a float that is no number. -/
structure Special where
  text : String
  truthy : Bool
  hashable : Bool
  /-- How many elements it iterates over, none of them a mapping. -/
  elements : Option ℕ
  deriving DecidableEq

inductive Atom
  | scalar (v : Scalar)
  | special (v : Special)
  deriving DecidableEq

/-- The pairs of a mapping stand as in the text: of a key given twice the last counts. -/
inductive Yaml
  | atom (v : Atom)
  | seq (items : List Yaml)
  | map (pairs : List (Atom × Yaml))

abbrev Mapping := List (Atom × Yaml)

/-- A key of a dictionary up to equality. -/
inductive AtomKey
  | scalar (k : PyKey)
  | special (text : String)
  deriving DecidableEq

def Atom.key : Atom → AtomKey
  | .scalar v => .scalar v.key
  | .special v => .special v.text

/-- `m.get(name)`; `none` is that the key is missing. -/
def Mapping.get (m : Mapping) (name : String) : Option Yaml :=
  (m.reverse.find? (fun e => e.1 = .scalar (.str name))).map Prod.snd

namespace Yaml

def str (s : String) : Yaml := .atom (.scalar (.str s))

def string? : Yaml → Option String
  | .atom (.scalar (.str s)) => some s
  | _ => none

def mapping? : Yaml → Option Mapping
  | .map pairs => some pairs
  | _ => none

def bool? : Yaml → Option Bool
  | .atom (.scalar (.bool b)) => some b
  | _ => none

def truthy : Yaml → Bool
  | .atom (.scalar .null) => false
  | .atom (.scalar (.bool b)) => b
  | .atom (.scalar (.int n)) => n ≠ 0
  | .atom (.scalar (.float x)) => x ≠ 0
  | .atom (.scalar (.str s)) => s ≠ ""
  | .atom (.special v) => v.truthy
  | .seq items => !items.isEmpty
  | .map pairs => !pairs.isEmpty

/-- `none` is that the value has no hash. -/
def key : Yaml → Option AtomKey
  | .atom (.scalar v) => some (.scalar v.key)
  | .atom (.special v) => if v.hashable then some (.special v.text) else none
  | _ => none

/-- The elements that a loop meets, as far as they are mappings; `none` is a `TypeError`. -/
def enumerate : Yaml → Option (List (Option Mapping))
  | .seq items => some (items.map mapping?)
  | .map pairs => some ((pairs.map (fun e => e.1.key)).dedup.map (fun _ => none))
  | .atom (.scalar (.str s)) => some (s.toList.map (fun _ => none))
  | .atom (.scalar _) => none
  | .atom (.special v) => v.elements.map (fun n => List.replicate n none)

def isQos : Yaml → Bool
  | .atom (.scalar v) => v.key ∈ [PyKey.num 0, .num 1, .num 2]
  | _ => false

def orEmpty (v : Option Yaml) : Yaml :=
  match v with
  | some v => if v.truthy then v else .seq []
  | none => .seq []

end Yaml

/-- The interpreter's texts of a value, `repr` and `str`. -/
class YamlText where
  repr : Yaml → String
  str : Yaml → String

inductive PayloadFile
  | missing
  /-- Reading the file raises, as it does for a directory or for bytes that are no UTF-8. -/
  | unreadable
  | malformed (exc : String)
  | value (v : Json)

/-- The files under `CONTRACT_ROOT` by their relative paths, and the texts of the full paths. -/
structure ContractRoot where
  resolved : String → String
  file : String → PayloadFile

/-- What `yaml.safe_load` makes of the text of a file. -/
inductive Loaded
  | raised
  | yamlError (exc : String)
  | document (v : Yaml)

structure RegistryFile where
  name : String
  loaded : Loaded

structure Prefixes where
  req : String
  rsp : String
  ind : String
  ff : String
  deriving DecidableEq

def counterpartPrefixes : List (String × Prefixes) :=
  [("mpss", ⟨"mp/req/", "mp/rsp/", "mp/ind/", "mp/ff/"⟩),
    ("apss", ⟨"ap/req/", "ap/rsp/", "ap/ind/", "ap/ff/"⟩)]

def defaultCounterpart : String := "mpss"

/-- What the lint asks of the entries under one key of a document. -/
structure EntryKind where
  key : String
  nameField : String
  /-- The fields that hold a topic, and the prefix of each. -/
  topics : List (String × String)
  payloads : List String
  retained : Bool

namespace EntryKind

def rpcs (p : Prefixes) : EntryKind where
  key := "rpcs"
  nameField := "method"
  topics := [("req_topic", p.req), ("rsp_topic", p.rsp)]
  payloads := ["req_payload", "rsp_payload"]
  retained := false

def indications (p : Prefixes) : EntryKind where
  key := "indications"
  nameField := "event"
  topics := [("ind_topic", p.ind)]
  payloads := ["payload"]
  retained := true

def fireAndForget (p : Prefixes) : EntryKind where
  key := "fire_and_forget"
  nameField := "method"
  topics := [("req_topic", p.ff)]
  payloads := ["req_payload"]
  retained := false

def fields (k : EntryKind) : List String := k.nameField :: k.topics.map Prod.fst ++ k.payloads

end EntryKind

/-- `_SNAKE_RE`, whose `$` also matches before a newline at the end. -/
def isSnake (l : List Char) : Bool :=
  let body := if l.getLast? = some '\n' then l.dropLast else l
  body.head?.any Char.isLower && body.all (fun c => c.isLower || c.isDigit || c = '_')

section Checks

variable [YamlText] (root : ContractRoot)

def checkTopic (topic : Yaml) (expectedPrefix domain : String) : List String :=
  match topic.string? with
  | none => [s!"topic must be a non-empty string, got {YamlText.repr topic}"]
  | some s =>
    if s = "" then [s!"topic must be a non-empty string, got {YamlText.repr topic}"]
    else
      let bad := ['#', '+'].filter (fun c => c ∈ s.toList)
      (if isUnder expectedPrefix s then []
        else [s!"topic {YamlText.repr topic} must start with " ++
          YamlText.repr (.str expectedPrefix)]) ++
      (if isUnder (expectedPrefix ++ domain ++ "/") s then []
        else [s!"topic {YamlText.repr topic} must start with {expectedPrefix}{domain}/"]) ++
      (if bad = [] then []
        else [s!"topic {YamlText.repr topic} contains MQTT wildcard(s) " ++
          YamlText.repr (.seq (bad.map (fun c => .str (String.singleton c))))]) ++
      (if ' ' ∈ s.toList then [s!"topic {YamlText.repr topic} contains a space"] else [])

def checkName (name : Yaml) (kind : String) : List String :=
  if name.string?.any (fun s => isSnake s.toList) then []
  else [s!"{kind} name {YamlText.repr name} must be snake_case"]

/-- `_check_payload_path`; `none` is an exception. -/
def checkPayloadPath (relPath : Yaml) (field : String) : Option (List String) :=
  match relPath.string? with
  | none => some [s!"{field} must be a non-empty string, got {YamlText.repr relPath}"]
  | some path =>
    if path = "" then some [s!"{field} must be a non-empty string, got {YamlText.repr relPath}"]
    else
      match root.file path with
      | .missing => some [s!"{field} {YamlText.repr relPath} does not exist " ++
          s!"(resolved: {root.resolved path})"]
      | .unreadable => none
      | .malformed exc => some [s!"{field} {YamlText.repr relPath} is not valid JSON: {exc}"]
      | .value _ => some []

/-- The complaints about the topics of an entry, and the topics seen by then. -/
def checkTopics (domain ctx : String) (entry : Mapping) :
    List (String × String) → List AtomKey → Option (List String × List AtomKey)
  | [], seen => some ([], seen)
  | (field, expectedPrefix) :: rest, seen =>
    match entry.get field with
    | none => checkTopics domain ctx entry rest seen
    | some topic => do
      let key ← topic.key
      let duplicate := if key ∈ seen then [s!"{ctx}: duplicate topic {YamlText.repr topic}"] else []
      let later ← checkTopics domain ctx entry rest (key :: seen)
      return (checkTopic topic expectedPrefix domain ++ duplicate ++ later.1, later.2)

def checkPayloads (ctx : String) (entry : Mapping) : List String → Option (List String)
  | [] => some []
  | field :: rest =>
    match entry.get field with
    | none => checkPayloads ctx entry rest
    | some path => do
      let errs ← checkPayloadPath root path s!"{ctx} {field}"
      let later ← checkPayloads ctx entry rest
      return errs ++ later

def checkEntry (kind : EntryKind) (domain ctx : String) (entry : Mapping) (seen : List AtomKey) :
    Option (List String × List AtomKey) := do
  let missing := kind.fields.filterMap (fun field =>
    if (entry.get field).isSome then none
    else some (s!"{ctx}: missing required field " ++ "`" ++ field ++ "`"))
  let name := match entry.get kind.nameField with
    | some v => checkName v s!"{ctx} {kind.nameField}"
    | none => []
  let topics ← checkTopics domain ctx entry kind.topics seen
  let payloads ← checkPayloads root ctx entry kind.payloads
  let qos := (entry.get "qos").getD (.atom (.scalar (.int 1)))
  let retain := (entry.get "retain").getD (.atom (.scalar (.bool false)))
  let qosErrs := if qos.isQos then []
    else [s!"{ctx}: qos must be 0, 1, or 2, got {YamlText.repr qos}"]
  let retainErrs := if kind.retained && retain.bool?.isNone
    then [s!"{ctx}: retain must be a bool, got {YamlText.repr retain}"] else []
  return (missing ++ name ++ topics.1 ++ payloads ++ qosErrs ++ retainErrs, topics.2)

/-- The loop over the entries of one kind, from the one numbered `i`. -/
def checkEntries (kind : EntryKind) (domain file : String) :
    List (Option Mapping) → ℕ → List AtomKey → Option (List String × List AtomKey)
  | [], _, seen => some ([], seen)
  | entry :: rest, i, seen => do
    let ctx := s!"{file}: {kind.key}[{i}]"
    let here ← match entry with
      | none => some ([s!"{ctx}: entry must be a mapping"], seen)
      | some m => checkEntry root kind domain ctx m seen
    let later ← checkEntries kind domain file rest (i + 1) here.2
    return (here.1 ++ later.1, later.2)

/-- The complaint about a missing domain, and the text that stands for the domain. -/
def readDomain (file : String) (doc : Mapping) : List String × String :=
  match doc.get "domain" with
  | none => ([file ++ ": missing or empty top-level `domain`"], "")
  | some v =>
    match v.string? with
    | some s => (if s = "" then [file ++ ": missing or empty top-level `domain`"] else [], s)
    | none => ([file ++ ": missing or empty top-level `domain`"],
        if v.truthy then YamlText.str v else "")

def counterpart (doc : Mapping) : Yaml := (doc.get "counterpart").getD (.str defaultCounterpart)

def prefixes? (doc : Mapping) : Option Prefixes :=
  (counterpart doc).string?.bind (fun c => List.lookup c counterpartPrefixes)

/-- What follows once the document is known to be a mapping. -/
def validateDocument (file : String) (doc : Mapping) : Option (List String) := do
  let (domainErrs, domain) := readDomain file doc
  let _ ← (counterpart doc).key
  let counterpartErrs := if (prefixes? doc).isSome then []
    else [file ++ ": `counterpart` must be one of ['apss', 'mpss'], got " ++
      YamlText.repr (counterpart doc)]
  let p ← (prefixes? doc).or (List.lookup defaultCounterpart counterpartPrefixes)
  let rpcs := Yaml.orEmpty (doc.get "rpcs")
  let indications := Yaml.orEmpty (doc.get "indications")
  let fireAndForget := Yaml.orEmpty (doc.get "fire_and_forget")
  let emptyErrs := if rpcs.truthy || indications.truthy || fireAndForget.truthy then []
    else [file ++ ": `rpcs`, `indications`, and `fire_and_forget` are all empty"]
  let a ← checkEntries root (.rpcs p) domain file (← rpcs.enumerate) 0 []
  let b ← checkEntries root (.indications p) domain file (← indications.enumerate) 0 a.2
  let c ← checkEntries root (.fireAndForget p) domain file (← fireAndForget.enumerate) 0 b.2
  return domainErrs ++ counterpartErrs ++ emptyErrs ++ a.1 ++ b.1 ++ c.1

/-- The complaints about a file, in their order; `none` is that an exception leaves the lint. -/
def validateRegistryFile (f : RegistryFile) : Option (List String) :=
  match f.loaded with
  | .raised => none
  | .yamlError exc => some [s!"{f.name}: YAML parse error: {exc}"]
  | .document (.map doc) => validateDocument root f.name doc
  | .document _ => some [s!"{f.name}: top-level document must be a mapping"]

end Checks

/-! ## What an accepted document looks like -/

def Mapping.text (m : Mapping) (name : String) : String := ((m.get name).bind Yaml.string?).getD ""

def entries (doc : Mapping) (key : String) : List Mapping :=
  ((Yaml.orEmpty (doc.get key)).enumerate.getD []).reduceOption

structure AcceptedEntry (root : ContractRoot) (kind : EntryKind) (domain : String)
    (m : Mapping) : Prop where
  name : ∃ n, m.get kind.nameField = some (.str n) ∧ isSnake n.toList = true
  topics : ∀ e ∈ kind.topics, ∃ t, m.get e.1 = some (.str t) ∧
    isUnder (e.2 ++ domain ++ "/") t = true
  payloads : ∀ field ∈ kind.payloads, ∃ p v, m.get field = some (.str p) ∧ root.file p = .value v

structure AcceptedKind (root : ContractRoot) (kind : EntryKind) (doc : Mapping) : Prop where
  enumerate : (Yaml.orEmpty (doc.get kind.key)).enumerate = some ((entries doc kind.key).map some)
  entries : ∀ m ∈ entries doc kind.key, AcceptedEntry root kind (doc.text "domain") m

structure Accepted (root : ContractRoot) (doc : Mapping) (p : Prefixes) : Prop where
  prefixes : prefixes? doc = some p
  domain : doc.get "domain" = some (.str (doc.text "domain"))
  rpcs : AcceptedKind root (.rpcs p) doc
  indications : AcceptedKind root (.indications p) doc
  fireAndForget : AcceptedKind root (.fireAndForget p) doc

theorem Yaml.eq_str_of_string? {v : Yaml} {s : String} (h : v.string? = some s) : v = .str s := by
  unfold Yaml.string? at h
  split at h
  case h_1 => rw [Option.some.inj h, Yaml.str]
  case h_2 => simp at h

@[simp] theorem Yaml.string?_str (s : String) : (Yaml.str s).string? = some s := rfl

theorem Mapping.text_eq {m : Mapping} {name s : String} (h : m.get name = some (.str s)) :
    m.text name = s := by
  simp [Mapping.text, h]

section Accepted

variable [YamlText] {root : ContractRoot}

theorem checkTopic_eq_nil {topic : Yaml} {expectedPrefix domain : String}
    (h : checkTopic topic expectedPrefix domain = []) :
    ∃ t, topic = .str t ∧ isUnder (expectedPrefix ++ domain ++ "/") t = true := by
  unfold checkTopic at h
  split at h
  case h_1 => simp at h
  case h_2 t ht =>
    refine ⟨t, Yaml.eq_str_of_string? ht, ?_⟩
    by_cases hempty : t = ""
    · simp [hempty] at h
    · simp only [hempty, if_false, List.append_eq_nil_iff] at h
      obtain ⟨⟨⟨-, hunder⟩, -⟩, -⟩ := h
      split_ifs at hunder with hdomain
      exact hdomain

theorem checkName_eq_nil {name : Yaml} {kind : String} (h : checkName name kind = []) :
    ∃ n, name = .str n ∧ isSnake n.toList = true := by
  unfold checkName at h
  split_ifs at h with hany
  obtain ⟨n, hn, hsnake⟩ := (Option.any_eq_true _ _).mp hany
  exact ⟨n, Yaml.eq_str_of_string? hn, hsnake⟩

theorem checkPayloadPath_eq_nil {path : Yaml} {field : String}
    (h : checkPayloadPath root path field = some []) :
    ∃ p v, path = .str p ∧ root.file p = .value v := by
  unfold checkPayloadPath at h
  split at h
  case h_1 => simp at h
  case h_2 p hp =>
    split_ifs at h with hempty
    · simp at h
    · split at h
      case h_1 => simp at h
      case h_2 => simp at h
      case h_3 => simp at h
      case h_4 v hv => exact ⟨p, v, Yaml.eq_str_of_string? hp, hv⟩

theorem checkTopics_eq_nil {domain ctx : String} {entry : Mapping} {l : List (String × String)}
    {seen seen' : List AtomKey} (h : checkTopics domain ctx entry l seen = some ([], seen')) :
    ∀ e ∈ l, ∀ v, entry.get e.1 = some v → ∃ t, v = .str t ∧
      isUnder (e.2 ++ domain ++ "/") t = true := by
  induction l generalizing seen seen' with
  | nil => simp
  | cons e l ih =>
    cases hget : entry.get e.1 with
    | none =>
      have hrest : checkTopics domain ctx entry l seen = some ([], seen') := by
        simpa [checkTopics, hget] using h
      refine List.forall_mem_cons.mpr ⟨?_, ih hrest⟩
      intro v hv
      simp [hget] at hv
    | some topic =>
      simp only [checkTopics, hget, Option.bind_eq_bind, Option.bind_eq_some_iff, Option.pure_def,
        Option.some.injEq, Prod.mk.injEq, List.append_eq_nil_iff] at h
      obtain ⟨key, -, later, hlater, ⟨⟨htopic, -⟩, hnil⟩, -⟩ := h
      have hlater' : checkTopics domain ctx entry l (key :: seen) = some ([], later.2) := by
        rw [hlater, ← hnil]
      refine List.forall_mem_cons.mpr ⟨?_, ih hlater'⟩
      intro v hv
      obtain rfl : topic = v := Option.some.inj (hget.symm.trans hv)
      exact checkTopic_eq_nil htopic

theorem checkPayloads_eq_nil {ctx : String} {entry : Mapping} {l : List String}
    (h : checkPayloads root ctx entry l = some []) :
    ∀ field ∈ l, ∀ v, entry.get field = some v → ∃ p j, v = .str p ∧ root.file p = .value j := by
  induction l with
  | nil => simp
  | cons field l ih =>
    cases hget : entry.get field with
    | none =>
      have hrest : checkPayloads root ctx entry l = some [] := by
        simpa [checkPayloads, hget] using h
      refine List.forall_mem_cons.mpr ⟨?_, ih hrest⟩
      intro v hv
      simp [hget] at hv
    | some path =>
      simp only [checkPayloads, hget, Option.bind_eq_bind, Option.bind_eq_some_iff,
        Option.pure_def, Option.some.injEq, List.append_eq_nil_iff] at h
      obtain ⟨errs, hpath, later, hlater, rfl, rfl⟩ := h
      refine List.forall_mem_cons.mpr ⟨?_, ih hlater⟩
      intro v hv
      obtain rfl : path = v := Option.some.inj (hget.symm.trans hv)
      exact checkPayloadPath_eq_nil hpath

theorem accepted_of_checkEntry {kind : EntryKind} {domain ctx : String} {m : Mapping}
    {seen seen' : List AtomKey}
    (h : checkEntry root kind domain ctx m seen = some ([], seen')) :
    AcceptedEntry root kind domain m := by
  simp only [checkEntry, Option.bind_eq_bind, Option.bind_eq_some_iff, Option.pure_def,
    Option.some.injEq, Prod.mk.injEq, List.append_eq_nil_iff] at h
  obtain ⟨topics, htopics, payloads, hpayloads,
    ⟨⟨⟨⟨⟨hmissing, hname⟩, htopicErrs⟩, rfl⟩, -⟩, -⟩, -⟩ := h
  have hthere : ∀ field ∈ kind.fields, ∃ v, m.get field = some v := by
    intro field hfield
    have hnone := List.filterMap_eq_nil_iff.mp hmissing field hfield
    rw [← Option.isSome_iff_exists]
    by_contra hget
    simp [hget] at hnone
  have htopics' : checkTopics domain ctx m kind.topics seen = some ([], topics.2) := by
    rw [htopics, ← htopicErrs]
  constructor
  case name =>
    obtain ⟨v, hv⟩ := hthere kind.nameField (by simp [EntryKind.fields])
    rw [hv] at hname
    obtain ⟨n, rfl, hsnake⟩ := checkName_eq_nil hname
    exact ⟨n, hv, hsnake⟩
  case topics =>
    intro e he
    have hfield : e.1 ∈ kind.fields := by
      simp only [EntryKind.fields, List.cons_append, List.mem_cons, List.mem_append, List.mem_map]
      exact Or.inr (Or.inl ⟨e, he, rfl⟩)
    obtain ⟨v, hv⟩ := hthere e.1 hfield
    obtain ⟨t, rfl, hunder⟩ := checkTopics_eq_nil htopics' e he v hv
    exact ⟨t, hv, hunder⟩
  case payloads =>
    intro field hfield
    obtain ⟨v, hv⟩ := hthere field (by simp [EntryKind.fields, hfield])
    obtain ⟨p, j, rfl, hfile⟩ := checkPayloads_eq_nil hpayloads field hfield v hv
    exact ⟨p, j, hv, hfile⟩

theorem accepted_of_checkEntries {kind : EntryKind} {domain file : String}
    {es : List (Option Mapping)} {i : ℕ} {seen seen' : List AtomKey}
    (h : checkEntries root kind domain file es i seen = some ([], seen')) :
    es = es.reduceOption.map some ∧ ∀ m ∈ es.reduceOption, AcceptedEntry root kind domain m := by
  induction es generalizing i seen seen' with
  | nil => exact ⟨rfl, by simp⟩
  | cons e es ih =>
    cases e with
    | none =>
      simp [checkEntries, Option.bind_eq_some_iff] at h
    | some m =>
      simp only [checkEntries, Option.bind_eq_bind, Option.bind_eq_some_iff, Option.pure_def,
        Option.some.injEq, Prod.mk.injEq, List.append_eq_nil_iff] at h
      obtain ⟨here, hhere, later, hlater, ⟨hnil, hnil'⟩, -⟩ := h
      have hhere' : checkEntry root kind domain s!"{file}: {kind.key}[{i}]" m seen =
          some ([], here.2) := by rw [hhere, ← hnil]
      have hlater' : checkEntries root kind domain file es (i + 1) here.2 =
          some ([], later.2) := by rw [hlater, ← hnil']
      obtain ⟨hes, hall⟩ := ih hlater'
      have hentry := accepted_of_checkEntry hhere'
      rw [List.reduceOption_cons_of_some]
      exact ⟨by rw [List.map_cons, ← hes], List.forall_mem_cons.mpr ⟨hentry, hall⟩⟩

theorem acceptedKind_of_checkEntries {kind : EntryKind} {doc : Mapping} {file : String}
    {es : List (Option Mapping)} {i : ℕ} {seen : List AtomKey} {r : List String × List AtomKey}
    (hes : (Yaml.orEmpty (doc.get kind.key)).enumerate = some es)
    (h : checkEntries root kind (doc.text "domain") file es i seen = some r) (hnil : r.1 = []) :
    AcceptedKind root kind doc := by
  have h' : checkEntries root kind (doc.text "domain") file es i seen = some ([], r.2) := by
    rw [h, ← hnil]
  have hentries : entries doc kind.key = es.reduceOption := by rw [entries, hes, Option.getD_some]
  obtain ⟨hmap, hall⟩ := accepted_of_checkEntries h'
  exact ⟨by rw [hes, hentries, ← hmap], by rwa [hentries]⟩

theorem readDomain_eq_nil {file : String} {doc : Mapping} (h : (readDomain file doc).1 = []) :
    doc.get "domain" = some (.str (doc.text "domain")) ∧
      (readDomain file doc).2 = doc.text "domain" := by
  cases hget : doc.get "domain" with
  | none => simp [readDomain, hget] at h
  | some v =>
    cases hv : v.string? with
    | none => simp [readDomain, hget, hv] at h
    | some s =>
      obtain rfl := Yaml.eq_str_of_string? hv
      have htext : doc.text "domain" = s := Mapping.text_eq hget
      exact ⟨by rw [htext], by simp [readDomain, hget, htext]⟩

theorem exists_accepted_of_validateDocument {file : String} {doc : Mapping}
    (h : validateDocument root file doc = some []) : ∃ p, Accepted root doc p := by
  simp only [validateDocument, Option.bind_eq_bind, Option.bind_eq_some_iff, Option.pure_def,
    Option.some.injEq, List.append_eq_nil_iff] at h
  obtain ⟨-, -, p, hp, es, hes, a, ha, es', hes', b, hb, es'', hes'', c, hc,
    ⟨⟨⟨⟨hdomain, hcounterpart⟩, -⟩, hrpcs⟩, hinds⟩, hffs⟩ := h
  refine ⟨p, ?_⟩
  obtain ⟨hget, htext⟩ := readDomain_eq_nil hdomain
  rw [htext] at ha hb hc
  constructor
  case prefixes =>
    split_ifs at hcounterpart with hsome
    obtain ⟨p', hp'⟩ := Option.isSome_iff_exists.mp hsome
    rw [hp', Option.some_or] at hp
    rw [hp', hp]
  case domain => exact hget
  case rpcs => exact acceptedKind_of_checkEntries hes ha hrpcs
  case indications => exact acceptedKind_of_checkEntries hes' hb hinds
  case fireAndForget => exact acceptedKind_of_checkEntries hes'' hc hffs

/-- No complaint means a mapping whose entries have their fields, with topics under the prefixes
of the domain and files that are JSON. -/
theorem accepted_of_validate {f : RegistryFile} (h : validateRegistryFile root f = some []) :
    ∃ doc p, f.loaded = .document (.map doc) ∧ Accepted root doc p := by
  unfold validateRegistryFile at h
  split at h
  case h_1 => simp at h
  case h_2 => simp at h
  case h_3 doc hdoc =>
    obtain ⟨p, hp⟩ := exists_accepted_of_validateDocument h
    exact ⟨doc, p, hdoc, hp⟩
  case h_4 => simp at h

end Accepted

end TelafSim.Registry
