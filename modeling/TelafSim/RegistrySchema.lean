import TelafSim.PascalCase
import TelafSim.RegistryLint

/-!
# The messages that the contract registry names

`schema_common.py` makes a message of every payload that the registry lists, named by its domain
and method. A name that comes a second time is passed over. From files that the lint accepts the
messages are those of the listed items, as long as each section is a collection, each schema can be
read and no name comes twice.
-/

namespace TelafSim.Registry

open PascalCase (toPascalCase)

/-! ## The fields of a schema -/

/-- `set(v)` for the value under a key; a missing key is an empty list. -/
def nameSet : Option Json → Option (List PyKey)
  | none => some []
  | some v =>
    match v.iter with
    | .error _ => none
    | .ok items => items.mapM (fun x =>
      match x with
      | .scalar k => some k.key
      | _ => none)

/-- `(v or {}).items()` for the value under a key. -/
def itemsOf : Option Json → Option (List (String × Json))
  | none => some []
  | some (.obj pairs) => some (Dict.ofList pairs).entries
  | some (.arr items) => if items.isEmpty then some [] else none
  | some (.scalar v) => if v.key ∈ [PyKey.null, .num 0, .str ""] then some [] else none

def textOf (spec : Json) (name : String) : Option String :=
  (spec.member? name).bind WireEnvelope.string?

def isEmptyObject : Json → Bool
  | .obj pairs => pairs.isEmpty
  | _ => false

/-- The names that a target language has for the types of a schema. -/
structure TypeNames where
  integer : String
  string : String
  boolean : String
  arrayOfObjects : String
  arrayOf : String → String
  array : String
  object : String
  other : String

def pyTypeNames : TypeNames where
  integer := "int"
  string := "str"
  boolean := "bool"
  arrayOfObjects := "list[dict]"
  arrayOf items := "list[" ++ items ++ "]"
  array := "list"
  object := "dict"
  other := "object"

def cppTypeNames : TypeNames where
  integer := "int64_t"
  string := "std::string"
  boolean := "bool"
  arrayOfObjects := "nlohmann::json"
  arrayOf items := "std::vector<" ++ items ++ ">"
  array := "nlohmann::json"
  object := "nlohmann::json"
  other := "nlohmann::json"

theorem sizeOf_member? {spec v : Json} {name : String} (h : spec.member? name = some v) :
    sizeOf v < sizeOf spec := by
  cases spec with
  | scalar s => simp [Json.member?] at h
  | arr items => simp [Json.member?] at h
  | obj pairs =>
    obtain ⟨before, after, rfl, -⟩ := Dict.get_ofList_eq_some_iff.mp h
    have hmem : (name, v) ∈ before ++ (name, v) :: after := by simp
    have hlt := List.sizeOf_lt_of_mem hmem
    simp only [Json.obj.sizeOf_spec, Prod.mk.sizeOf_spec] at hlt ⊢
    omega

/-- `_py_field_type` and `_cpp_field_type`; `none` is an `AttributeError`. -/
def fieldType (names : TypeNames) (spec : Json) : Option String :=
  if spec.isObject then
    if textOf spec "type" = some "integer" then some names.integer
    else if textOf spec "type" = some "string" then some names.string
    else if textOf spec "type" = some "boolean" then some names.boolean
    else if textOf spec "type" = some "array" then
      match _h : spec.member? "items" with
      | none => some names.array
      | some items =>
        if ¬ items.isObject then none
        else if textOf items "type" = some "object" then some names.arrayOfObjects
        else if isEmptyObject items then some names.array
        else (fieldType names items).map names.arrayOf
    else if textOf spec "type" = some "object" then some names.object
    else some names.other
  else none
termination_by sizeOf spec
decreasing_by exact sizeOf_member? _h

def pyFieldType (spec : Json) : Option String := fieldType pyTypeNames spec

def cppFieldType (spec : Json) : Option String := fieldType cppTypeNames spec

structure Field where
  name : String
  type : String
  required : Bool

/-- `_fields_from_schema`; the sort is stable and puts the required fields first. -/
def fieldsFromSchema (schema : Json) (typeFn : Json → Option String) : Option (List Field) := do
  let required ← nameSet (schema.member? "required")
  let properties ← itemsOf (schema.member? "properties")
  let fields ← properties.mapM (fun e =>
    (typeFn e.2).map (fun type => ⟨e.1, type, .str e.1 ∈ required⟩))
  return fields.filter (·.required) ++ fields.filter (fun f => !f.required)

/-! ## The messages -/

structure Message where
  topicId : String
  className : String
  title : Json
  schema : Json
  fields : List Field

structure Builder where
  messages : List Message
  seenTopicIds : List String

def format [YamlText] (v : Yaml) : String := v.string?.getD (YamlText.str v)

def ContractRoot.load (root : ContractRoot) (path : String) : Option Json :=
  match root.file path with
  | .value v => some v
  | _ => none

/-- What is appended for a schema under its two names. -/
def toMessage (typeFn : Json → Option String) (topicId className : String) (schema : Json) :
    Option Message :=
  if schema.isObject then
    (fieldsFromSchema schema typeFn).map (fun fields =>
      ⟨topicId, className, (schema.member? "title").getD (.str topicId), schema, fields⟩)
  else none

section Build

variable [YamlText] (root : ContractRoot) (typeFn : Json → Option String)

/-- `_add`; `none` is an exception. -/
def add (domain name : Yaml) (suffix : String) (payloadRelPath : Yaml) (b : Builder) :
    Option Builder :=
  let topicId := format domain ++ "." ++ format name ++ "." ++ suffix
  if topicId ∈ b.seenTopicIds then some b
  else do
    let path ← payloadRelPath.string?
    let schema ← root.load path
    let message ← toMessage typeFn topicId
      (toPascalCase (format domain ++ "_" ++ format name ++ "_" ++ suffix)) schema
    return ⟨b.messages ++ [message], topicId :: b.seenTopicIds⟩

/-- The messages of an entry: the key it stands under, the field that names it, and the suffix and
the payload of each message. -/
structure Emitted where
  key : String
  /-- `reg.get(key, [])` rather than `reg[key]`. -/
  optional : Bool
  nameField : String
  parts : List (String × String)

def emitted : List Emitted :=
  [⟨"rpcs", false, "method", [("req", "req_payload"), ("rsp", "rsp_payload")]⟩,
    ⟨"indications", false, "event", [("ind", "payload")]⟩,
    ⟨"fire_and_forget", true, "method", [("ff", "req_payload")]⟩]

def addPart (domain : Yaml) (nameField : String) (entry : Mapping) (b : Builder)
    (part : String × String) : Option Builder := do
  let name ← entry.get nameField
  let payload ← entry.get part.2
  add root typeFn domain name part.1 payload b

def Emitted.listed (k : Emitted) (reg : Mapping) : Option Yaml :=
  if k.optional then some ((reg.get k.key).getD (.seq [])) else reg.get k.key

/-- The loop over the entries under one key. An entry that is no mapping has no fields. -/
def addSection (domain : Yaml) (reg : Mapping) (b : Builder) (k : Emitted) : Option Builder := do
  let listed ← k.listed reg
  let es ← listed.enumerate
  es.foldlM (fun b entry => do
    let m ← entry
    k.parts.foldlM (addPart root typeFn domain k.nameField m) b) b

def addRegistry (b : Builder) (reg : Mapping) : Option Builder := do
  let domain ← reg.get "domain"
  emitted.foldlM (addSection root typeFn domain reg) b

end Build

def buildMessages [YamlText] (root : ContractRoot) (registries : List Mapping) (lang : String) :
    Option (List Message) :=
  let typeFn := if lang = "python" then pyFieldType else cppFieldType
  (registries.foldlM (addRegistry root typeFn) ⟨[], []⟩).map Builder.messages

def Mapping.setdefault (m : Mapping) (name : String) (v : Yaml) : Mapping :=
  if (m.get name).isSome then m else m ++ [(.scalar (.str name), v)]

def withDefaults (doc : Mapping) : Mapping :=
  ((doc.setdefault "rpcs" (.seq [])).setdefault "indications" (.seq [])).setdefault
    "fire_and_forget" (.seq [])

/-- The files stand in the order of their names. -/
def loadRegistries (files : List RegistryFile) : Option (List Mapping) :=
  files.mapM (fun f =>
    match f.loaded with
    | .document (.map doc) => some (withDefaults doc)
    | _ => none)

/-! ## What the registry says -/

/-- A message that the registry lists. -/
structure Item where
  domain : String
  name : String
  suffix : String
  payload : String
  deriving DecidableEq

namespace Item

def topicId (i : Item) : String := i.domain ++ "." ++ i.name ++ "." ++ i.suffix

def className (i : Item) : String := toPascalCase (i.domain ++ "_" ++ i.name ++ "_" ++ i.suffix)

/-- The words of the domain and the name, case aside. -/
def words (i : Item) : List (List Char) := PascalCase.words (i.domain ++ "_" ++ i.name).toList

end Item

def itemsUnder (doc : Mapping) (k : Emitted) : List Item :=
  (entries doc k.key).flatMap (fun m =>
    k.parts.map (fun part => ⟨doc.text "domain", m.text k.nameField, part.1, m.text part.2⟩))

def itemsIn (doc : Mapping) : List Item := emitted.flatMap (itemsUnder doc)

def documents (files : List RegistryFile) : List Mapping :=
  files.filterMap (fun f =>
    match f.loaded with
    | .document (.map doc) => some doc
    | _ => none)

def items (files : List RegistryFile) : List Item := (documents files).flatMap itemsIn

/-- The message stands for the item: its name, and the schema in the item's file. -/
structure Describes (root : ContractRoot) (i : Item) (m : Message) : Prop where
  topicId : m.topicId = i.topicId
  schema : root.file i.payload = .value m.schema

/-- Every property of a schema is a mapping, and so are the items of an array, however deep. -/
inductive Typed : Json → Prop
  | plain {spec : Json} (hobject : spec.isObject = true)
      (htype : textOf spec "type" ≠ some "array") : Typed spec
  | bare {spec : Json} (hobject : spec.isObject = true) (hitems : spec.member? "items" = none) :
      Typed spec
  | array {spec items : Json} (hobject : spec.isObject = true)
      (hitems : spec.member? "items" = some items) (htyped : Typed items) : Typed spec

/-- A schema that the generator can read. -/
structure Readable (schema : Json) : Prop where
  object : schema.isObject = true
  required : (nameSet (schema.member? "required")).isSome = true
  properties : ∃ l, itemsOf (schema.member? "properties") = some l ∧ ∀ e ∈ l, Typed e.2

/-- The entries under a key are a collection, if only an empty one: neither `null`, `false` nor
zero stands there. -/
def Listed (doc : Mapping) (key : String) : Prop :=
  ∀ v, doc.get key = some v → v.truthy = true ∨ v.enumerate = some []

/-! ## Reading a schema -/

theorem Typed.isObject {spec : Json} (h : Typed spec) : spec.isObject = true := by
  cases h with
  | plain hobject _ => exact hobject
  | bare hobject _ => exact hobject
  | array hobject _ _ => exact hobject

theorem typed_iff_of_items {spec items : Json} (hobject : spec.isObject = true)
    (htype : textOf spec "type" = some "array") (hitems : spec.member? "items" = some items) :
    Typed spec ↔ Typed items := by
  constructor
  · intro h
    cases h with
    | plain _ hplain => exact absurd htype hplain
    | bare _ hnone => simp [hitems] at hnone
    | array _ hsome htyped => exact Option.some.inj (hitems.symm.trans hsome) ▸ htyped
  · exact Typed.array hobject hitems

theorem fieldType_isSome_iff (names : TypeNames) (spec : Json) :
    (fieldType names spec).isSome = true ↔ Typed spec := by
  fun_induction fieldType names spec
  case case1 hobject htype => exact iff_of_true rfl (.plain hobject (by simp [htype]))
  case case2 hobject _ htype => exact iff_of_true rfl (.plain hobject (by simp [htype]))
  case case3 hobject _ _ htype => exact iff_of_true rfl (.plain hobject (by simp [htype]))
  case case4 hobject _ _ _ _ hitems => exact iff_of_true rfl (.bare hobject hitems)
  case case5 hobject _ _ _ htype items hitems hnot =>
    rw [typed_iff_of_items hobject htype hitems]
    exact iff_of_false (by simp) (fun h => hnot h.isObject)
  case case6 hobject _ _ _ htype items hitems hitemsObject hobjects =>
    rw [typed_iff_of_items hobject htype hitems]
    exact iff_of_true rfl (.plain (not_not.mp hitemsObject) (by simp [hobjects]))
  case case7 hobject _ _ _ htype items hitems hitemsObject _ hempty =>
    rw [typed_iff_of_items hobject htype hitems]
    refine iff_of_true rfl (.bare (not_not.mp hitemsObject) ?_)
    cases items with
    | obj pairs =>
      obtain rfl : pairs = [] := by simpa [isEmptyObject] using hempty
      rfl
    | scalar v => simp [isEmptyObject] at hempty
    | arr l => simp [isEmptyObject] at hempty
  case case8 hobject _ _ _ htype items hitems _ _ _ ih =>
    rw [typed_iff_of_items hobject htype hitems, Option.isSome_map]
    exact ih
  case case9 hobject _ _ _ htype _ => exact iff_of_true rfl (.plain hobject htype)
  case case10 hobject _ _ _ htype _ => exact iff_of_true rfl (.plain hobject htype)
  case case11 hnot => exact iff_of_false (by simp) (fun h => hnot h.isObject)

theorem mapM_isSome_iff {α β : Type} {f : α → Option β} {l : List α} :
    (l.mapM f).isSome = true ↔ ∀ x ∈ l, (f x).isSome = true := by
  induction l with
  | nil => simp
  | cons x l ih =>
    rw [List.mapM_cons, List.forall_mem_cons, ← ih]
    cases f x with
    | none => simp
    | some y => cases l.mapM f <;> simp

theorem mapM_eq_some_iff {α β : Type} {f : α → Option β} {l : List α} {m : List β} :
    l.mapM f = some m ↔ List.Forall₂ (fun x y => f x = some y) l m := by
  induction l generalizing m with
  | nil => simp [List.forall₂_nil_left_iff, eq_comm]
  | cons x l ih =>
    rw [List.mapM_cons, List.forall₂_cons_left_iff]
    simp only [Option.bind_eq_bind, Option.bind_eq_some_iff, Option.pure_def, Option.some.injEq, ih]
    constructor
    · rintro ⟨y, hy, m', hm', rfl⟩
      exact ⟨y, m', hy, hm', rfl⟩
    · rintro ⟨y, m', hy, hm', rfl⟩
      exact ⟨y, hy, m', hm', rfl⟩

theorem fieldsFromSchema_isSome_iff (names : TypeNames) {schema : Json}
    (hobject : schema.isObject = true) :
    (fieldsFromSchema schema (fieldType names)).isSome = true ↔ Readable schema := by
  constructor
  · intro h
    obtain ⟨fields, hfields⟩ := Option.isSome_iff_exists.mp h
    simp only [fieldsFromSchema, Option.bind_eq_bind, Option.bind_eq_some_iff] at hfields
    obtain ⟨required, hrequired, l, hl, typed, htyped, -⟩ := hfields
    refine ⟨hobject, by simp [hrequired], l, hl, fun e he => ?_⟩
    have hall := mapM_isSome_iff.mp (Option.isSome_iff_exists.mpr ⟨typed, htyped⟩) e he
    rw [Option.isSome_map] at hall
    exact (fieldType_isSome_iff names e.2).mp hall
  · rintro ⟨-, hrequired, l, hl, htyped⟩
    obtain ⟨required, hrequired⟩ := Option.isSome_iff_exists.mp hrequired
    have hall : (l.mapM (fun e => (fieldType names e.2).map (fun type =>
        (⟨e.1, type, PyKey.str e.1 ∈ required⟩ : Field)))).isSome = true := by
      refine mapM_isSome_iff.mpr (fun e he => ?_)
      rw [Option.isSome_map]
      exact (fieldType_isSome_iff names e.2).mpr (htyped e he)
    obtain ⟨fields, hfields⟩ := Option.isSome_iff_exists.mp hall
    simp [fieldsFromSchema, hrequired, hl, hfields]

theorem toMessage_isSome_iff (names : TypeNames) (topicId className : String) (schema : Json) :
    (toMessage (fieldType names) topicId className schema).isSome = true ↔ Readable schema := by
  unfold toMessage
  split_ifs with hobject
  · rw [Option.isSome_map]
    exact fieldsFromSchema_isSome_iff names hobject
  · exact iff_of_false (by simp) (fun h => hobject h.object)

theorem of_toMessage {typeFn : Json → Option String} {topicId className : String} {schema : Json}
    {m : Message} (h : toMessage typeFn topicId className schema = some m) :
    m.topicId = topicId ∧ m.className = className ∧ m.schema = schema := by
  unfold toMessage at h
  split_ifs at h with hobject
  obtain ⟨fields, -, rfl⟩ := Option.map_eq_some_iff.mp h
  exact ⟨rfl, rfl, rfl⟩

/-! ## Building from accepted documents -/

section Folds

variable {σ α β : Type} {f g : σ → α → Option σ}

theorem foldlM_flatMap (l : List β) (h : β → List α) (b : σ) :
    (l.flatMap h).foldlM f b = l.foldlM (fun b x => (h x).foldlM f b) b := by
  induction l generalizing b with
  | nil => rfl
  | cons x l ih =>
    rw [List.flatMap_cons, List.foldlM_append, List.foldlM_cons]
    simp only [ih]

theorem foldlM_congr {l : List α} (h : ∀ x ∈ l, ∀ b, f b x = g b x) (b : σ) :
    l.foldlM f b = l.foldlM g b := by
  induction l generalizing b with
  | nil => rfl
  | cons x l ih =>
    have hrest := List.forall_mem_cons.mp h
    rw [List.foldlM_cons, List.foldlM_cons, hrest.1 b]
    simp only [ih hrest.2]

theorem exists_of_foldlM {l : List α} {b b' : σ} (h : l.foldlM f b = some b') :
    ∀ x ∈ l, ∃ b₁ b₂, f b₁ x = some b₂ := by
  induction l generalizing b with
  | nil => simp
  | cons x l ih =>
    rw [List.foldlM_cons, Option.bind_eq_bind, Option.bind_eq_some_iff] at h
    obtain ⟨b₁, hx, hrest⟩ := h
    exact List.forall_mem_cons.mpr ⟨⟨b, b₁, hx⟩, ih hrest⟩

end Folds

def itemMessage (root : ContractRoot) (typeFn : Json → Option String) (i : Item) :
    Option Message :=
  (root.load i.payload).bind (toMessage typeFn i.topicId i.className)

def addItem (root : ContractRoot) (typeFn : Json → Option String) (b : Builder) (i : Item) :
    Option Builder :=
  if i.topicId ∈ b.seenTopicIds then some b
  else (itemMessage root typeFn i).map (fun m =>
    ⟨b.messages ++ [m], i.topicId :: b.seenTopicIds⟩)

/-- As long as no name comes twice, each item is appended, if its schema can be read. -/
theorem foldlM_addItem {root : ContractRoot} {typeFn : Json → Option String} {l : List Item}
    {b : Builder} (hnodup : (l.map Item.topicId).Nodup)
    (hfresh : ∀ i ∈ l, i.topicId ∉ b.seenTopicIds) :
    (l.foldlM (addItem root typeFn) b).map Builder.messages =
      (l.mapM (itemMessage root typeFn)).map (b.messages ++ ·) := by
  induction l generalizing b with
  | nil => simp
  | cons i l ih =>
    obtain ⟨hnew, hrest⟩ := List.forall_mem_cons.mp hfresh
    rw [List.map_cons, List.nodup_cons] at hnodup
    rw [List.foldlM_cons, List.mapM_cons, addItem, if_neg hnew]
    cases hmessage : itemMessage root typeFn i with
    | none => rfl
    | some m =>
      have hfresh' : ∀ j ∈ l, j.topicId ∉ i.topicId :: b.seenTopicIds := by
        intro j hj hin
        obtain heq | hseen := List.mem_cons.mp hin
        · exact hnodup.1 (heq ▸ List.mem_map_of_mem (f := Item.topicId) hj)
        · exact hrest j hj hseen
      have hlater := ih (b := ⟨b.messages ++ [m], i.topicId :: b.seenTopicIds⟩) hnodup.2 hfresh'
      simp only [Option.map_some, Option.bind_eq_bind, Option.bind_some]
      rw [hlater]
      cases l.mapM (itemMessage root typeFn) with
      | none => rfl
      | some ms => simp

theorem get_setdefault (m : Mapping) (name : String) (v : Yaml) (j : String) :
    (m.setdefault name v).get j = if j = name then some ((m.get name).getD v) else m.get j := by
  cases hget : m.get name with
  | some w =>
    have hsame : m.setdefault name v = m := if_pos (by simp [hget])
    rw [hsame]
    split_ifs with hj
    · rw [hj, hget]
      rfl
    · rfl
  | none =>
    have hadd : m.setdefault name v = m ++ [(.scalar (.str name), v)] := if_neg (by simp [hget])
    rw [hadd]
    by_cases hj : j = name
    · simp [Mapping.get, hj]
    · have hne : name ≠ j := Ne.symm hj
      simp [Mapping.get, hj, hne]

theorem get_withDefaults_domain (doc : Mapping) :
    (withDefaults doc).get "domain" = doc.get "domain" := by
  simp [withDefaults, get_setdefault]

theorem get_withDefaults {k : Emitted} (hk : k ∈ emitted) (doc : Mapping) :
    (withDefaults doc).get k.key = some ((doc.get k.key).getD (.seq [])) := by
  simp only [emitted, List.mem_cons, List.not_mem_nil, or_false] at hk
  obtain rfl | rfl | rfl := hk <;> simp [withDefaults, get_setdefault]

theorem listed_withDefaults {k : Emitted} (hk : k ∈ emitted) (doc : Mapping) :
    k.listed (withDefaults doc) = some ((doc.get k.key).getD (.seq [])) := by
  rw [Emitted.listed, get_withDefaults hk]
  split_ifs <;> rfl

theorem Yaml.eq_none_of_mem_enumerate {v : Yaml} (hfalse : v.truthy = false)
    {es : List (Option Mapping)} (hes : v.enumerate = some es) : ∀ e ∈ es, e = none := by
  unfold Yaml.enumerate at hes
  split at hes
  case h_1 items =>
    obtain rfl : items = [] := by simpa [Yaml.truthy] using hfalse
    simp_all
  case h_2 pairs =>
    obtain rfl := Option.some.inj hes
    simp
  case h_3 s =>
    obtain rfl := Option.some.inj hes
    simp
  case h_4 => simp at hes
  case h_5 v =>
    obtain ⟨n, -, rfl⟩ := Option.map_eq_some_iff.mp hes
    intro e he
    exact List.eq_of_mem_replicate he

/-- What was accepted under a key, in the terms of the generator. -/
theorem acceptedKind_of_mem {root : ContractRoot} {doc : Mapping} {p : Prefixes}
    (h : Accepted root doc p) {k : Emitted} (hk : k ∈ emitted) :
    ∃ kind : EntryKind, kind.key = k.key ∧ kind.nameField = k.nameField ∧
      (∀ part ∈ k.parts, part.2 ∈ kind.payloads) ∧ AcceptedKind root kind doc := by
  simp only [emitted, List.mem_cons, List.not_mem_nil, or_false] at hk
  obtain rfl | rfl | rfl := hk
  · exact ⟨.rpcs p, rfl, rfl, by simp [EntryKind.rpcs], h.rpcs⟩
  · exact ⟨.indications p, rfl, rfl, by simp [EntryKind.indications], h.indications⟩
  · exact ⟨.fireAndForget p, rfl, rfl, by simp [EntryKind.fireAndForget], h.fireAndForget⟩

section Accepted

variable [YamlText] {root : ContractRoot} {typeFn : Json → Option String}

theorem add_eq_addItem (i : Item) (b : Builder) :
    add root typeFn (.str i.domain) (.str i.name) i.suffix (.str i.payload) b =
      addItem root typeFn b i := by
  have hadd : add root typeFn (.str i.domain) (.str i.name) i.suffix (.str i.payload) b =
      if i.topicId ∈ b.seenTopicIds then some b
      else (root.load i.payload).bind (fun schema =>
        (toMessage typeFn i.topicId i.className schema).bind (fun message =>
          some ⟨b.messages ++ [message], i.topicId :: b.seenTopicIds⟩)) := rfl
  rw [hadd, addItem, itemMessage]
  split_ifs
  · rfl
  · cases root.load i.payload with
    | none => rfl
    | some schema =>
      rw [Option.bind_some, Option.bind_some, Option.map_eq_bind]
      rfl

theorem addPart_eq_addItem {kind : EntryKind} {domain : String} {m : Mapping}
    (h : AcceptedEntry root kind domain m) {part : String × String}
    (hpart : part.2 ∈ kind.payloads) (b : Builder) :
    addPart root typeFn (.str domain) kind.nameField m b part =
      addItem root typeFn b ⟨domain, m.text kind.nameField, part.1, m.text part.2⟩ := by
  obtain ⟨n, hn, -⟩ := h.name
  obtain ⟨path, v, hpath, -⟩ := h.payloads part.2 hpart
  rw [← add_eq_addItem, addPart, hn, hpath, Mapping.text_eq hn, Mapping.text_eq hpath]
  rfl

theorem foldlM_parts {doc : Mapping} {p : Prefixes} (h : Accepted root doc p) {k : Emitted}
    (hk : k ∈ emitted) {m : Mapping} (hm : m ∈ entries doc k.key) (b : Builder) :
    k.parts.foldlM (addPart root typeFn (.str (doc.text "domain")) k.nameField m) b =
      (k.parts.map (fun part => (⟨doc.text "domain", m.text k.nameField, part.1,
        m.text part.2⟩ : Item))).foldlM (addItem root typeFn) b := by
  obtain ⟨kind, hkey, hname, hparts, hkind⟩ := acceptedKind_of_mem h hk
  have hentry : AcceptedEntry root kind (doc.text "domain") m := hkind.entries m (hkey ▸ hm)
  rw [List.foldlM_map, ← hname]
  exact foldlM_congr (fun part hpart b => addPart_eq_addItem hentry (hparts part hpart) b) b

theorem addSection_eq {doc : Mapping} {p : Prefixes} (h : Accepted root doc p) {k : Emitted}
    (hk : k ∈ emitted) (hlisted : Listed doc k.key) (b : Builder) :
    addSection root typeFn (.str (doc.text "domain")) (withDefaults doc) b k =
      (itemsUnder doc k).foldlM (addItem root typeFn) b := by
  obtain ⟨kind, hkey, -, -, hkind⟩ := acceptedKind_of_mem h hk
  have hentries := hkind.enumerate
  rw [hkey] at hentries
  have henum : ((doc.get k.key).getD (.seq [])).enumerate =
      some ((entries doc k.key).map some) := by
    cases hget : doc.get k.key with
    | none => simpa [hget, Yaml.orEmpty] using hentries
    | some v =>
      by_cases htrue : v.truthy = true
      · simpa [hget, Yaml.orEmpty, htrue] using hentries
      · have hnil : v.enumerate = some [] := (hlisted v hget).resolve_left htrue
        have hempty : Yaml.orEmpty (some v) = .seq [] := if_neg htrue
        rw [hget, hempty] at hentries
        exact hnil.trans hentries
  rw [addSection, listed_withDefaults hk, Option.bind_eq_bind, Option.bind_some, henum,
    Option.bind_eq_bind, Option.bind_some, List.foldlM_map, itemsUnder, foldlM_flatMap]
  exact foldlM_congr (fun m hm b => foldlM_parts h hk hm b) b

/-- The generator has looped over the entries, and met no other thing than the lint. -/
theorem listed_of_addSection {doc : Mapping} {domain : Yaml} {k : Emitted} (hk : k ∈ emitted)
    {b b' : Builder}
    (hadd : addSection root typeFn domain (withDefaults doc) b k = some b') :
    Listed doc k.key := by
  intro v hv
  by_contra hnot
  obtain ⟨hfalse, hloop⟩ := not_or.mp hnot
  rw [addSection, listed_withDefaults hk, hv, Option.bind_eq_bind, Option.bind_some,
    Option.getD_some] at hadd
  obtain ⟨es, hes, hfold⟩ := Option.bind_eq_some_iff.mp hadd
  cases es with
  | nil => exact hloop hes
  | cons e es =>
    obtain rfl : e = none :=
      Yaml.eq_none_of_mem_enumerate (Bool.eq_false_iff.mpr hfalse) hes e List.mem_cons_self
    simp at hfold

theorem addRegistry_eq {doc : Mapping} {p : Prefixes} (h : Accepted root doc p)
    (hlisted : ∀ k ∈ emitted, Listed doc k.key) (b : Builder) :
    addRegistry root typeFn b (withDefaults doc) =
      (itemsIn doc).foldlM (addItem root typeFn) b := by
  rw [addRegistry, get_withDefaults_domain, h.domain, Option.bind_eq_bind, Option.bind_some,
    itemsIn, foldlM_flatMap]
  exact foldlM_congr (fun k hk b => addSection_eq h hk (hlisted k hk) b) b

theorem listed_of_addRegistry {doc : Mapping} {b b' : Builder}
    (hadd : addRegistry root typeFn b (withDefaults doc) = some b') :
    ∀ k ∈ emitted, Listed doc k.key := by
  intro k hk
  obtain ⟨domain, -, hfold⟩ := Option.bind_eq_some_iff.mp hadd
  obtain ⟨b₁, b₂, hsection⟩ := exists_of_foldlM hfold k hk
  exact listed_of_addSection hk hsection

end Accepted

/-! ## The whole registry -/

section Files

variable [YamlText] {root : ContractRoot} {files : List RegistryFile}

theorem exists_accepted (h : ∀ f ∈ files, validateRegistryFile root f = some []) :
    ∀ doc ∈ documents files, ∃ p, Accepted root doc p := by
  intro doc hdoc
  obtain ⟨f, hf, hloaded⟩ := List.mem_filterMap.mp hdoc
  obtain ⟨doc', p, hdoc', haccepted⟩ := accepted_of_validate (h f hf)
  rw [hdoc'] at hloaded
  obtain rfl := Option.some.inj hloaded
  exact ⟨p, haccepted⟩

theorem loadRegistries_eq (h : ∀ f ∈ files, validateRegistryFile root f = some []) :
    loadRegistries files = some ((documents files).map withDefaults) := by
  induction files with
  | nil => rfl
  | cons f files ih =>
    obtain ⟨hf, hfiles⟩ := List.forall_mem_cons.mp h
    obtain ⟨doc, p, hloaded, -⟩ := accepted_of_validate hf
    have hdocuments : documents (f :: files) = doc :: documents files := by
      simp [documents, hloaded]
    have hrest : loadRegistries files = some ((documents files).map withDefaults) := ih hfiles
    unfold loadRegistries at hrest ⊢
    rw [List.mapM_cons, hrest, hloaded, hdocuments]
    rfl

def typeNames (lang : String) : TypeNames :=
  if lang = "python" then pyTypeNames else cppTypeNames

theorem buildMessages_eq (lang : String) (registries : List Mapping) :
    buildMessages root registries lang =
      (registries.foldlM (addRegistry root (fieldType (typeNames lang))) ⟨[], []⟩).map
        Builder.messages := by
  unfold buildMessages typeNames
  split_ifs <;> rfl

theorem listed_of_build (h : ∀ f ∈ files, validateRegistryFile root f = some []) {lang : String}
    {ms : List Message}
    (hbuild : (loadRegistries files).bind (buildMessages root · lang) = some ms) :
    ∀ doc ∈ documents files, ∀ k ∈ emitted, Listed doc k.key := by
  intro doc hdoc
  rw [loadRegistries_eq h, Option.bind_some, buildMessages_eq, List.foldlM_map] at hbuild
  obtain ⟨b, hfold, -⟩ := Option.map_eq_some_iff.mp hbuild
  obtain ⟨b₁, b₂, hadd⟩ := exists_of_foldlM hfold doc hdoc
  exact listed_of_addRegistry hadd

/-- With every section listed and every name once, the messages are those of the items. -/
theorem build_eq (h : ∀ f ∈ files, validateRegistryFile root f = some [])
    (hlisted : ∀ doc ∈ documents files, ∀ k ∈ emitted, Listed doc k.key)
    (hnodup : ((items files).map Item.topicId).Nodup) (lang : String) :
    (loadRegistries files).bind (buildMessages root · lang) =
      (items files).mapM (itemMessage root (fieldType (typeNames lang))) := by
  have hregistries : ∀ doc ∈ documents files, ∀ b,
      addRegistry root (fieldType (typeNames lang)) b (withDefaults doc) =
        (itemsIn doc).foldlM (addItem root (fieldType (typeNames lang))) b := by
    intro doc hdoc b
    obtain ⟨p, hp⟩ := exists_accepted h doc hdoc
    exact addRegistry_eq hp (hlisted doc hdoc) b
  rw [loadRegistries_eq h, Option.bind_some, buildMessages_eq, List.foldlM_map,
    foldlM_congr hregistries, ← foldlM_flatMap]
  refine (foldlM_addItem hnodup (by simp)).trans ?_
  simp [items]

end Files

end TelafSim.Registry
