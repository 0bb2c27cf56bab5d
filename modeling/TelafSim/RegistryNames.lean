import TelafSim.RegistrySchema

/-!
# When the contract registry determines the schemas

The generator names a schema by domain and method, and the class by their words; at run time a
schema is named by the topic of the message. The lint does not compare the two, nor the files with
each other: the registry determines the schemas exactly if it keeps the words apart and the topics
in step with the methods, and lists nothing that the generator cannot read.
-/

namespace TelafSim.Registry

open WireEnvelope (isUnder resolveSchemaId)
open PascalCase (toPascalCase)

/-- The prefixes under which a topic names the schema of a request. -/
def requestPrefixes : List (String × String) :=
  [("mp/req/", "req"), ("ap/req/", "req"), ("ap/ff/", "ff")]

def IsRequest (topic : String) : Prop := ∃ e ∈ requestPrefixes, isUnder e.1 topic = true

/-- The topics of the entries under a key resolve to the schema of the entry. -/
def Resolves (doc : Mapping) (key suffix : String) : Prop :=
  ∀ m ∈ entries doc key, IsRequest (m.text "req_topic") →
    resolveSchemaId (m.text "req_topic") =
      some (doc.text "domain" ++ "." ++ m.text "method" ++ "." ++ suffix)

/-- The messages are those that the registry lists, each under names of its own, and a request's
topic leads to its schema. -/
structure Determines [YamlText] (root : ContractRoot) (files : List RegistryFile)
    (lang : String) : Prop where
  messages : ∃ ms, (loadRegistries files).bind (buildMessages root · lang) = some ms ∧
    List.Forall₂ (Describes root) (items files) ms ∧
    (ms.map Message.topicId).Nodup ∧ (ms.map Message.className).Nodup
  rpcs : ∀ doc ∈ documents files, Resolves doc "rpcs" "req"
  fireAndForget : ∀ doc ∈ documents files, Resolves doc "fire_and_forget" "ff"

/-- The topic is the prefix, the domain and the method, and no level of its own is in the domain. -/
def InStep (doc m : Mapping) (pre : String) : Prop :=
  '/' ∉ (doc.text "domain").toList ∧
    m.text "req_topic" = pre ++ doc.text "domain" ++ "/" ++ m.text "method"

structure Consistent (root : ContractRoot) (files : List RegistryFile) : Prop where
  listed : ∀ doc ∈ documents files, ∀ k ∈ emitted, Listed doc k.key
  readable : ∀ i ∈ items files, ∀ schema, root.file i.payload = .value schema → Readable schema
  apart : (items files).Pairwise (fun i j => i.suffix = j.suffix → i.words ≠ j.words)
  rpcs : ∀ doc ∈ documents files, ∀ p, prefixes? doc = some p →
    ∀ m ∈ entries doc "rpcs", InStep doc m p.req
  fireAndForget : ∀ doc ∈ documents files, ∀ p, prefixes? doc = some p → p.ff = "ap/ff/" →
    ∀ m ∈ entries doc "fire_and_forget", InStep doc m p.ff

/-! ## Names and topics -/

/-- Dots and underscores both separate, so the class name can be read off the topic id. -/
theorem className_of_topicId (i : Item) : toPascalCase i.topicId = i.className := by
  have hjoin (c : Char) (hc : c.isAlphanum = false) :
      PascalCase.tokens (i.domain.toList ++ c :: (i.name.toList ++ c :: i.suffix.toList)) =
        PascalCase.tokens i.domain.toList ++ (PascalCase.tokens i.name.toList ++
          PascalCase.tokens i.suffix.toList) := by
    rw [PascalCase.tokens_append_cons hc, PascalCase.tokens_append_cons hc]
  have hdots : i.topicId.toList =
      i.domain.toList ++ '.' :: (i.name.toList ++ '.' :: i.suffix.toList) := by
    simp [Item.topicId]
  have hunderscores : (i.domain ++ "_" ++ i.name ++ "_" ++ i.suffix).toList =
      i.domain.toList ++ '_' :: (i.name.toList ++ '_' :: i.suffix.toList) := by
    simp
  rw [Item.className, toPascalCase, toPascalCase, hdots, hunderscores, hjoin '.' (by decide),
    hjoin '_' (by decide)]

theorem words_className (i : Item) (hne : i.suffix.toList ≠ [])
    (hlower : ∀ c ∈ i.suffix.toList, c.isLower = true) :
    PascalCase.words (i.domain ++ "_" ++ i.name ++ "_" ++ i.suffix).toList =
      i.words ++ [i.suffix.toList] := by
  rw [Item.words, ← PascalCase.words_suffix _ hne hlower]
  simp

theorem mem_items {files : List RegistryFile} {i : Item} (h : i ∈ items files) :
    ∃ doc ∈ documents files, ∃ k ∈ emitted, ∃ m ∈ entries doc k.key, ∃ part ∈ k.parts,
      i = ⟨doc.text "domain", m.text k.nameField, part.1, m.text part.2⟩ := by
  obtain ⟨doc, hdoc, hi⟩ := List.mem_flatMap.mp h
  obtain ⟨k, hk, hi⟩ := List.mem_flatMap.mp hi
  obtain ⟨m, hm, hi⟩ := List.mem_flatMap.mp hi
  obtain ⟨part, hpart, rfl⟩ := List.mem_map.mp hi
  exact ⟨doc, hdoc, k, hk, m, hm, part, hpart, rfl⟩

theorem lower_suffix {files : List RegistryFile} {i : Item} (h : i ∈ items files) :
    i.suffix.toList ≠ [] ∧ ∀ c ∈ i.suffix.toList, c.isLower = true := by
  obtain ⟨doc, -, k, hk, m, -, part, hpart, rfl⟩ := mem_items h
  have hparts : ∀ k ∈ emitted, ∀ part ∈ k.parts,
      part.1.toList ≠ [] ∧ part.1.toList.all Char.isLower = true := by decide +kernel
  obtain ⟨hne, hall⟩ := hparts k hk part hpart
  exact ⟨hne, List.all_eq_true.mp hall⟩

theorem className_eq_iff {files : List RegistryFile} {i j : Item} (hi : i ∈ items files)
    (hj : j ∈ items files) :
    i.className = j.className ↔ i.suffix = j.suffix ∧ i.words = j.words := by
  obtain ⟨hine, hilower⟩ := lower_suffix hi
  obtain ⟨hjne, hjlower⟩ := lower_suffix hj
  rw [Item.className, Item.className, PascalCase.toPascalCase_eq_iff,
    words_className i hine hilower, words_className j hjne hjlower]
  constructor
  · intro h
    obtain ⟨hwords, hsuffix⟩ := List.append_inj' h rfl
    exact ⟨String.toList_inj.mp (List.singleton_inj.mp hsuffix), hwords⟩
  · rintro ⟨hsuffix, hwords⟩
    rw [hwords, hsuffix]

theorem nodup_classNames_iff (files : List RegistryFile) :
    ((items files).map Item.className).Nodup ↔
      (items files).Pairwise (fun i j => i.suffix = j.suffix → i.words ≠ j.words) := by
  rw [List.Nodup, List.pairwise_map]
  refine List.Pairwise.iff_of_mem ?_
  intro i j hi hj
  rw [Ne, className_eq_iff hi hj, not_and]

theorem nodup_topicIds_of_classNames {l : List Item} (h : (l.map Item.className).Nodup) :
    (l.map Item.topicId).Nodup := by
  have hmap : l.map Item.className = (l.map Item.topicId).map toPascalCase := by
    rw [List.map_map]
    exact List.map_congr_left (fun i _ => (className_of_topicId i).symm)
  rw [hmap] at h
  exact h.of_map toPascalCase

def slashToDot (c : Char) : Char := if c = '/' then '.' else c

theorem map_slashToDot_of_not_mem {l : List Char} (h : '/' ∉ l) : l.map slashToDot = l := by
  calc l.map slashToDot = l.map id :=
        List.map_congr_left (fun c hc => if_neg (fun (heq : c = '/') => h (heq ▸ hc)))
    _ = l := List.map_id l

theorem not_mem_of_map_slashToDot {l l' : List Char} (h : l.map slashToDot = l') :
    '/' ∉ l' := by
  rintro hin
  rw [← h] at hin
  obtain ⟨c, -, hc⟩ := List.mem_map.mp hin
  unfold slashToDot at hc
  split_ifs at hc with hslash
  · simp at hc
  · exact hslash hc

theorem not_mem_of_isSnake {l : List Char} (h : isSnake l = true) : '.' ∉ l ∧ '/' ∉ l := by
  have hall : ∀ c ∈ l, c = '\n' ∨ c.isLower = true ∨ c.isDigit = true ∨ c = '_' := by
    intro c hc
    simp only [isSnake, Bool.and_eq_true, List.all_eq_true, Bool.or_eq_true, decide_eq_true_eq] at h
    split_ifs at h with hlast
    · obtain ⟨body, rfl⟩ := List.getLast?_eq_some_iff.mp hlast
      obtain hbody | hnewline := List.mem_append.mp hc
      · exact Or.inr (or_assoc.mp (h.2 c (by simpa using hbody)))
      · exact Or.inl (by simpa using hnewline)
    · exact Or.inr (or_assoc.mp (h.2 c hc))
  constructor
  · intro hdot
    exact absurd (hall '.' hdot) (by decide)
  · intro hslash
    exact absurd (hall '/' hslash) (by decide)

/-- The table has one entry for a request's prefix, and no such topic is the wake-up event's. -/
theorem resolveSchemaId_append {pre suffix : String} (h : (pre, suffix) ∈ requestPrefixes)
    (rest : String) : resolveSchemaId (pre ++ rest) =
      some (String.ofList (rest.toList.map slashToDot) ++ "." ++ suffix) := by
  have hne : pre ++ rest ≠ WireEnvelope.wakeupEventTopic := by
    intro heq
    have hchars := congrArg (fun s => s.toList.take 4) heq
    simp only [requestPrefixes, List.mem_cons, Prod.mk.injEq, List.not_mem_nil, or_false] at h
    obtain ⟨rfl, rfl⟩ | ⟨rfl, rfl⟩ | ⟨rfl, rfl⟩ := h <;>
      simp [WireEnvelope.wakeupEventTopic] at hchars
  have hfind : WireEnvelope.prefixSuffix.find? (fun p => isUnder p.1 (pre ++ rest)) =
      some (pre, suffix) := by
    simp only [requestPrefixes, List.mem_cons, Prod.mk.injEq, List.not_mem_nil, or_false] at h
    obtain ⟨rfl, rfl⟩ | ⟨rfl, rfl⟩ | ⟨rfl, rfl⟩ := h <;>
      simp [WireEnvelope.prefixSuffix, isUnder, List.isPrefixOf]
  rw [resolveSchemaId, if_neg hne, hfind, Option.map_some, WireEnvelope.dotted_append]
  rfl

/-- Under the prefix and the domain, a topic leads to the name of the method only if it spells the
method, and the domain has no slash. -/
theorem resolveSchemaId_eq_iff {pre suffix domain method topic : String}
    (h : (pre, suffix) ∈ requestPrefixes) (hunder : isUnder (pre ++ domain ++ "/") topic = true)
    (hname : isSnake method.toList = true) :
    resolveSchemaId topic = some (domain ++ "." ++ method ++ "." ++ suffix) ↔
      '/' ∉ domain.toList ∧ topic = pre ++ domain ++ "/" ++ method := by
  obtain ⟨hdot, hslash⟩ := not_mem_of_isSnake hname
  obtain ⟨tail, htail⟩ := List.isPrefixOf_iff_prefix.mp hunder
  have htopic : topic = pre ++ (domain ++ "/" ++ String.ofList tail) := by
    rw [← String.toList_inj, ← htail]
    simp
  have hresolve : resolveSchemaId topic = some (domain ++ "." ++ method ++ "." ++ suffix) ↔
      domain.toList.map slashToDot ++ '.' :: tail.map slashToDot =
        domain.toList ++ '.' :: method.toList := by
    have hleft : (String.ofList ((domain ++ "/" ++ String.ofList tail).toList.map slashToDot) ++
        "." ++ suffix).toList =
          (domain.toList.map slashToDot ++ '.' :: tail.map slashToDot) ++ '.' :: suffix.toList := by
      simp [slashToDot]
    have hright : (domain ++ "." ++ method ++ "." ++ suffix).toList =
        (domain.toList ++ '.' :: method.toList) ++ '.' :: suffix.toList := by
      simp
    rw [htopic, resolveSchemaId_append h, Option.some_inj, ← String.toList_inj, hleft, hright,
      List.append_left_inj]
  rw [hresolve]
  constructor
  · intro heq
    obtain ⟨hdomain, hrest⟩ := List.append_inj heq (List.length_map _)
    have hmethod : tail.map slashToDot = method.toList := (List.cons.inj hrest).2
    have hnoslash : '/' ∉ tail := by
      intro hin
      have hmem : slashToDot '/' ∈ tail.map slashToDot := List.mem_map_of_mem hin
      exact hdot (hmethod ▸ hmem)
    refine ⟨not_mem_of_map_slashToDot hdomain, ?_⟩
    rw [map_slashToDot_of_not_mem hnoslash] at hmethod
    rw [htopic, hmethod]
    simp [String.append_assoc]
  · rintro ⟨hdomain, heq⟩
    have hmethod : tail = method.toList := by
      rw [htopic, ← String.toList_inj] at heq
      simpa using heq
    rw [hmethod, map_slashToDot_of_not_mem hdomain, map_slashToDot_of_not_mem hslash]

/-! ## When the registry determines the schemas -/

section Determines

variable {root : ContractRoot} {doc : Mapping} {p : Prefixes}

theorem prefixes_of_some (h : prefixes? doc = some p) :
    p = ⟨"mp/req/", "mp/rsp/", "mp/ind/", "mp/ff/"⟩ ∨
      p = ⟨"ap/req/", "ap/rsp/", "ap/ind/", "ap/ff/"⟩ := by
  obtain ⟨c, -, hc⟩ := Option.bind_eq_some_iff.mp h
  simp only [counterpartPrefixes, List.lookup_cons, List.lookup_nil] at hc
  split at hc
  · exact Or.inl (Option.some.inj hc).symm
  · split at hc
    · exact Or.inr (Option.some.inj hc).symm
    · simp at hc

theorem isUnder_of_isUnder_append {pre rest topic : String}
    (h : isUnder (pre ++ rest) topic = true) : isUnder pre topic = true := by
  rw [isUnder, List.isPrefixOf_iff_prefix] at h ⊢
  rw [String.toList_append] at h
  exact (List.prefix_append _ _).trans h

theorem exists_eq_append_of_isUnder {pre topic : String} (h : isUnder pre topic = true) :
    ∃ rest, topic = pre ++ rest := by
  obtain ⟨rest, hrest⟩ := List.isPrefixOf_iff_prefix.mp h
  refine ⟨String.ofList rest, ?_⟩
  rw [← String.toList_inj, ← hrest]
  simp

/-- Under one of the prefixes, the topics of the entries of a kind resolve exactly if they are in
step with the methods. -/
theorem resolves_iff {kind : EntryKind} {pre suffix : String}
    (h : AcceptedKind root kind doc) (htopic : ("req_topic", pre) ∈ kind.topics)
    (hname : kind.nameField = "method") (hpre : (pre, suffix) ∈ requestPrefixes) :
    Resolves doc kind.key suffix ↔ ∀ m ∈ entries doc kind.key, InStep doc m pre := by
  refine forall₂_congr (fun m hm => ?_)
  have hentry := h.entries m hm
  obtain ⟨t, ht, hunder⟩ := hentry.topics _ htopic
  obtain ⟨n, hn, hsnake⟩ := hentry.name
  rw [hname] at hn
  have hrequest : IsRequest t := by
    refine ⟨(pre, suffix), hpre, ?_⟩
    rw [String.append_assoc] at hunder
    exact isUnder_of_isUnder_append hunder
  rw [InStep, Mapping.text_eq ht, Mapping.text_eq hn, ← resolveSchemaId_eq_iff hpre hunder hsnake]
  exact forall_prop_of_true hrequest

theorem resolves_rpcs_iff (h : Accepted root doc p) :
    Resolves doc "rpcs" "req" ↔ ∀ m ∈ entries doc "rpcs", InStep doc m p.req := by
  have hpre : (p.req, "req") ∈ requestPrefixes := by
    obtain rfl | rfl := prefixes_of_some h.prefixes <;> simp [requestPrefixes]
  exact resolves_iff h.rpcs (by simp [EntryKind.rpcs]) rfl hpre

/-- The one-way topics of the modem are under none of the prefixes. -/
theorem resolves_fireAndForget_iff (h : Accepted root doc p) :
    Resolves doc "fire_and_forget" "ff" ↔
      (p.ff = "ap/ff/" → ∀ m ∈ entries doc "fire_and_forget", InStep doc m p.ff) := by
  have htopic : ("req_topic", p.ff) ∈ (EntryKind.fireAndForget p).topics := by
    simp [EntryKind.fireAndForget]
  obtain rfl | rfl := prefixes_of_some h.prefixes
  · refine iff_of_true ?_ (by simp)
    rintro m hm ⟨e, he, hunder⟩
    obtain ⟨t, ht, hff⟩ := (h.fireAndForget.entries m hm).topics _ htopic
    obtain ⟨rest, rfl⟩ := exists_eq_append_of_isUnder hff
    rw [Mapping.text_eq ht] at hunder
    simp only [requestPrefixes, List.mem_cons, List.not_mem_nil, or_false] at he
    obtain rfl | rfl | rfl := he <;> simp [isUnder, List.isPrefixOf] at hunder
  · rw [forall_prop_of_true rfl]
    exact resolves_iff h.fireAndForget htopic rfl (by simp [requestPrefixes])

end Determines

theorem of_itemMessage {root : ContractRoot} {typeFn : Json → Option String} {i : Item}
    {m : Message} (h : itemMessage root typeFn i = some m) :
    Describes root i m ∧ m.className = i.className := by
  obtain ⟨schema, hload, hmessage⟩ := Option.bind_eq_some_iff.mp h
  obtain ⟨htopicId, hclassName, rfl⟩ := of_toMessage hmessage
  refine ⟨⟨htopicId, ?_⟩, hclassName⟩
  unfold ContractRoot.load at hload
  split at hload
  case h_1 v hv => rw [hv, Option.some.inj hload]
  case h_2 => simp at hload

theorem itemMessage_isSome_iff {root : ContractRoot} {i : Item} {schema : Json}
    (hfile : root.file i.payload = .value schema) (lang : String) :
    (itemMessage root (fieldType (typeNames lang)) i).isSome = true ↔ Readable schema := by
  have hload : root.load i.payload = some schema := by rw [ContractRoot.load, hfile]
  rw [itemMessage, hload, Option.bind_some, toMessage_isSome_iff]

theorem map_eq_map_of_forall₂ {α β γ : Type} {f : α → γ} {g : β → γ} {l : List α} {l' : List β}
    (h : List.Forall₂ (fun x y => f x = g y) l l') : l.map f = l'.map g := by
  rw [← List.forall₂_eq_eq_eq, List.forall₂_map_left_iff, List.forall₂_map_right_iff]
  exact h

section Files

variable [YamlText] {root : ContractRoot} {files : List RegistryFile}

theorem exists_schema (h : ∀ f ∈ files, validateRegistryFile root f = some []) {i : Item}
    (hi : i ∈ items files) : ∃ schema, root.file i.payload = .value schema := by
  obtain ⟨doc, hdoc, k, hk, m, hm, part, hpart, rfl⟩ := mem_items hi
  obtain ⟨p, hp⟩ := exists_accepted h doc hdoc
  obtain ⟨kind, hkey, -, hparts, hkind⟩ := acceptedKind_of_mem hp hk
  obtain ⟨path, v, hpath, hfile⟩ :=
    (hkind.entries m (hkey ▸ hm)).payloads part.2 (hparts part hpart)
  exact ⟨v, by rwa [Mapping.text_eq hpath]⟩

theorem accepted_of_prefixes (h : ∀ f ∈ files, validateRegistryFile root f = some [])
    {doc : Mapping} (hdoc : doc ∈ documents files) {p : Prefixes} (hp : prefixes? doc = some p) :
    Accepted root doc p := by
  obtain ⟨p', hp'⟩ := exists_accepted h doc hdoc
  obtain rfl : p' = p := Option.some.inj (hp'.prefixes.symm.trans hp)
  exact hp'

/-- For registries that the lint accepts: the messages are the ones listed, with names of their
own that their topics lead to, exactly if the registry keeps its names apart and in step. -/
theorem determines_iff (h : ∀ f ∈ files, validateRegistryFile root f = some []) (lang : String) :
    Determines root files lang ↔ Consistent root files := by
  constructor
  · rintro ⟨⟨ms, hbuild, hdescribes, htopicIds, hclassNames⟩, hrpcs, hffs⟩
    have hlisted := listed_of_build h hbuild
    have hids : (items files).map Item.topicId = ms.map Message.topicId :=
      map_eq_map_of_forall₂ (hdescribes.imp (fun i m hm => hm.topicId.symm))
    have hmessages : (items files).mapM (itemMessage root (fieldType (typeNames lang))) = some ms :=
      (build_eq h hlisted (hids ▸ htopicIds) lang).symm.trans hbuild
    have hnames : (items files).map Item.className = ms.map Message.className :=
      map_eq_map_of_forall₂ ((mapM_eq_some_iff.mp hmessages).imp
        (fun i m hm => (of_itemMessage hm).2.symm))
    constructor
    case listed => exact hlisted
    case readable =>
      intro i hi schema hfile
      rw [← itemMessage_isSome_iff hfile lang]
      exact mapM_isSome_iff.mp (Option.isSome_iff_exists.mpr ⟨ms, hmessages⟩) i hi
    case apart => exact (nodup_classNames_iff files).mp (hnames ▸ hclassNames)
    case rpcs =>
      intro doc hdoc p hp
      exact (resolves_rpcs_iff (accepted_of_prefixes h hdoc hp)).mp (hrpcs doc hdoc)
    case fireAndForget =>
      intro doc hdoc p hp
      exact (resolves_fireAndForget_iff (accepted_of_prefixes h hdoc hp)).mp (hffs doc hdoc)
  · intro hc
    have hnames : ((items files).map Item.className).Nodup :=
      (nodup_classNames_iff files).mpr hc.apart
    have hids := nodup_topicIds_of_classNames hnames
    have hsome : ((items files).mapM (itemMessage root (fieldType (typeNames lang)))).isSome =
        true := by
      refine mapM_isSome_iff.mpr (fun i hi => ?_)
      obtain ⟨schema, hfile⟩ := exists_schema h hi
      exact (itemMessage_isSome_iff hfile lang).mpr (hc.readable i hi schema hfile)
    obtain ⟨ms, hms⟩ := Option.isSome_iff_exists.mp hsome
    have heach := mapM_eq_some_iff.mp hms
    have hdescribes : List.Forall₂ (Describes root) (items files) ms :=
      heach.imp (fun i m hm => (of_itemMessage hm).1)
    have hmapIds : (items files).map Item.topicId = ms.map Message.topicId :=
      map_eq_map_of_forall₂ (hdescribes.imp (fun i m hm => hm.topicId.symm))
    have hmapNames : (items files).map Item.className = ms.map Message.className :=
      map_eq_map_of_forall₂ (heach.imp (fun i m hm => (of_itemMessage hm).2.symm))
    constructor
    case messages =>
      exact ⟨ms, (build_eq h hc.listed hids lang).trans hms, hdescribes, hmapIds ▸ hids,
        hmapNames ▸ hnames⟩
    case rpcs =>
      intro doc hdoc
      obtain ⟨p, hp⟩ := exists_accepted h doc hdoc
      exact (resolves_rpcs_iff hp).mpr (hc.rpcs doc hdoc p hp.prefixes)
    case fireAndForget =>
      intro doc hdoc
      obtain ⟨p, hp⟩ := exists_accepted h doc hdoc
      exact (resolves_fireAndForget_iff hp).mpr (hc.fireAndForget doc hdoc p hp.prefixes)

end Files

@[reducible] def plainText : YamlText where
  repr _ := ""
  str v := v.string?.getD ""

def plainRoot : ContractRoot where
  resolved p := p
  file _ := .value (.obj [])

def oneRpc (domain method : String) : Mapping :=
  [(.scalar (.str "domain"), .str domain),
    (.scalar (.str "rpcs"), .seq [.map [
      (.scalar (.str "method"), .str method),
      (.scalar (.str "req_topic"), .str ("mp/req/" ++ domain ++ "/" ++ method)),
      (.scalar (.str "rsp_topic"), .str ("mp/rsp/" ++ domain ++ "/" ++ method)),
      (.scalar (.str "req_payload"), .str "req.json"),
      (.scalar (.str "rsp_payload"), .str "rsp.json")]])]

def wakeupDoc : Mapping :=
  oneRpc "wakeup" "get_ws_filter" ++
    [(.scalar (.str "indications"), .seq [.map [
      (.scalar (.str "event"), .str "event"),
      (.scalar (.str "ind_topic"), .str "mp/ind/wakeup/event"),
      (.scalar (.str "payload"), .str "event_ind.json")]])]

/-- A domain of the application processor, with a message that has no answer. -/
def powerDoc : Mapping :=
  [(.scalar (.str "domain"), .str "power"), (.scalar (.str "counterpart"), .str "apss"),
    (.scalar (.str "rpcs"), .seq [.map [
      (.scalar (.str "method"), .str "set_state"),
      (.scalar (.str "req_topic"), .str "ap/req/power/set_state"),
      (.scalar (.str "rsp_topic"), .str "ap/rsp/power/set_state"),
      (.scalar (.str "req_payload"), .str "set_state_req.json"),
      (.scalar (.str "rsp_payload"), .str "set_state_rsp.json")]]),
    (.scalar (.str "fire_and_forget"), .seq [.map [
      (.scalar (.str "method"), .str "slave_ack"),
      (.scalar (.str "req_topic"), .str "ap/ff/power/slave_ack"),
      (.scalar (.str "req_payload"), .str "slave_ack_ff.json")]])]

def cleanFiles : List RegistryFile :=
  [⟨"power.yaml", .document (.map powerDoc)⟩, ⟨"wakeup.yaml", .document (.map wakeupDoc)⟩]

/-- Every file holds the schema of an object with a required list of names. -/
def listRoot : ContractRoot where
  resolved p := p
  file _ := .value (.obj [("type", .str "object"), ("required", .arr [.str "names"]),
    ("properties", .obj [("names", .obj [("type", .str "array"),
      ("items", .obj [("type", .str "string")])])])])

theorem determines_cleanFiles : @Determines plainText listRoot cleanFiles "python" := by
  have haccepted : ∀ f ∈ cleanFiles, @validateRegistryFile plainText listRoot f = some [] := by
    decide +kernel
  refine (@determines_iff plainText listRoot cleanFiles haccepted "python").mpr ?_
  constructor
  case listed =>
    have htruthy : ∀ doc ∈ documents cleanFiles, ∀ k ∈ emitted,
        (doc.get k.key).all Yaml.truthy = true := by decide +kernel
    intro doc hdoc k hk v hv
    have hall := htruthy doc hdoc k hk
    rw [hv] at hall
    exact Or.inl hall
  case readable =>
    intro i hi schema hfile
    obtain rfl := PayloadFile.value.inj hfile
    refine ⟨rfl, rfl, _, rfl, ?_⟩
    intro e he
    obtain rfl := List.mem_singleton.mp he
    exact .array rfl rfl (.plain rfl (by decide +kernel))
  case apart => decide +kernel
  case rpcs =>
    have hstep : ∀ doc ∈ documents cleanFiles, ∀ p ∈ prefixes? doc, ∀ m ∈ entries doc "rpcs",
        '/' ∉ (doc.text "domain").toList ∧
          m.text "req_topic" = p.req ++ doc.text "domain" ++ "/" ++ m.text "method" := by
      decide +kernel
    exact hstep
  case fireAndForget =>
    have hstep : ∀ doc ∈ documents cleanFiles, ∀ p ∈ prefixes? doc, p.ff = "ap/ff/" →
        ∀ m ∈ entries doc "fire_and_forget", '/' ∉ (doc.text "domain").toList ∧
          m.text "req_topic" = p.ff ++ doc.text "domain" ++ "/" ++ m.text "method" := by
      decide +kernel
    exact hstep

def twinFiles : List RegistryFile :=
  [⟨"sim.yaml", .document (.map (oneRpc "sim" "reset"))⟩,
    ⟨"sim_card.yaml", .document (.map (oneRpc "sim" "reset"))⟩]

/-- Both files are accepted, and the messages of the second one are dropped. -/
theorem twins_not_determined : ¬ ∀ (root : ContractRoot) (files : List RegistryFile)
    (lang : String), (∀ f ∈ files, @validateRegistryFile plainText root f = some []) →
      @Determines plainText root files lang := by
  intro h
  have haccepted : ∀ f ∈ twinFiles, @validateRegistryFile plainText plainRoot f = some [] := by
    decide +kernel
  obtain ⟨⟨ms, -, hdescribes, hids, -⟩, -, -⟩ := h plainRoot twinFiles "python" haccepted
  have hmap : (items twinFiles).map Item.topicId = ms.map Message.topicId :=
    map_eq_map_of_forall₂ (hdescribes.imp (fun i m hm => hm.topicId.symm))
  have hnodup : ((items twinFiles).map Item.topicId).Nodup := hmap ▸ hids
  exact absurd hnodup (by decide +kernel)

end TelafSim.Registry
