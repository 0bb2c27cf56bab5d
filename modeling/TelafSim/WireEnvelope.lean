import Mathlib.Data.Nat.Digits.Lemmas
import TelafSim.PyJson

/-!
# The message envelope in both processes

`Envelope.cpp` and `resolveReqSchemaId_` of `ModemBridge.cpp` on the one side, `envelope.py` on the
other. A JSON text is its value here, and the strings are text. Both clocks count in signed 64-bit
nanoseconds, so that a number of milliseconds fits in 64 bits.
-/

namespace TelafSim

namespace Json

def int (n : ℤ) : Json := .scalar (.int n)

def member? (name : String) : Json → Option Json
  | .obj pairs => (Dict.ofList pairs).get name
  | _ => none

def isObject : Json → Bool
  | .obj _ => true
  | _ => false

end Json

namespace WireEnvelope

/-! ## The C++ side -/

structure Envelope where
  v : Int32
  corrId : String
  ts : Int64
  src : String
  dest : Option String
  data : Option Json
  error : Option Json

def Envelope.toJson (e : Envelope) : Json :=
  .obj ([("v", .int e.v.toInt), ("corrId", .str e.corrId), ("ts", .int e.ts.toInt),
      ("src", .str e.src)] ++
    (e.dest.map (fun dest => ("dest", Json.str dest))).toList ++
    (e.data.map (fun data => ("data", data))).toList ++
    (e.error.map (fun error => ("error", error))).toList)

/-- The parser makes a float of an integer that fits neither in 64 signed nor in 64 unsigned bits. -/
def integer? : Json → Option ℤ
  | .scalar (.int n) => if -2 ^ 63 ≤ n ∧ n < 2 ^ 64 then some n else none
  | _ => none

def string? : Json → Option String
  | .scalar (.str s) => some s
  | _ => none

def object? (j : Json) : Option Json := if j.isObject then some j else none

variable {α : Type}

def required (j : Json) (name : String) (read : Json → Option α) : Except String α :=
  match (j.member? name).bind read with
  | some x => .ok x
  | none => .error ("missing/invalid field `" ++ name ++ "`")

def optional (j : Json) (name : String) (read : Json → Option α) : Except String (Option α) :=
  match j.member? name with
  | none => .ok none
  | some x =>
    match read x with
    | some y => .ok (some y)
    | none => .error ("invalid field `" ++ name ++ "`")

def Envelope.fromJson (j : Json) : Except String Envelope := do
  if ¬ j.isObject then throw "envelope is not a JSON object"
  let v ← required j "v" integer?
  if Int32.ofInt v ≠ 1 then throw "envelope `v` != 1"
  let corrId ← required j "corrId" string?
  let ts ← required j "ts" integer?
  let src ← required j "src" string?
  let dest ← optional j "dest" string?
  let data ← optional j "data" object?
  let error ← optional j "error" object?
  return ⟨Int32.ofInt v, corrId, Int64.ofInt ts, src, dest, data, error⟩

/-- `%08x` -/
def hex8 (n : UInt32) : List Char :=
  ((Nat.digits 16 n.toNat).reverse.map Nat.digitChar).leftpad 8 '0'

def nextCorrId (counter : UInt32) : String × UInt32 :=
  (String.ofList ((hex8 counter).take 8), counter + 1)

def makeRequestEnvelope (counter : UInt32) (nowMs : Int64) (src : String) (data : Json) :
    Envelope × UInt32 :=
  let corrId := nextCorrId counter
  (⟨1, corrId.1, nowMs, src, none, some data, none⟩, corrId.2)

def isUnder (pre topic : String) : Bool := pre.toList.isPrefixOf topic.toList

/-- What follows the first `n` characters, with dots for slashes. -/
def dotted (n : ℕ) (topic : String) : String :=
  String.ofList ((topic.toList.drop n).map (fun c => if c = '/' then '.' else c))

def resolveReqSchemaId (topic : String) : String :=
  if isUnder "mp/req/" topic then dotted "mp/req/".length topic ++ ".req"
  else if isUnder "ap/req/" topic then dotted "ap/req/".length topic ++ ".req"
  else ""

/-! ## The Python side -/

/-- `msg.get(name)` -/
def get (msg : Json) (name : String) : Json := (msg.member? name).getD (.scalar .null)

def isHexDigit (c : Char) : Bool := ('0' ≤ c ∧ c ≤ '9') ∨ ('a' ≤ c ∧ c ≤ 'f')

def isCorrId (l : List Char) : Bool := 4 ≤ l.length ∧ l.length ≤ 8 ∧ l.all isHexDigit

/-- `^[0-9a-f]{4,8}$`: the end may be in front of a last line break. -/
def corrIdRe (s : String) : Bool :=
  isCorrId s.toList || (s.toList.getLast? = some '\n' && isCorrId s.toList.dropLast)

/-- A number is equal to one also as a float or a bool. -/
def isOne : Json → Bool
  | .scalar v => v.key = .num 1
  | _ => false

def isCorrIdStr : Json → Bool
  | .scalar (.str s) => corrIdRe s
  | _ => false

def isInt : Json → Bool
  | .scalar (.int _) => true
  | .scalar (.bool _) => true
  | _ => false

def isStr : Json → Bool
  | .scalar (.str _) => true
  | _ => false

/-- `repr` is the interpreter's. -/
def validateEnvelope (repr : Json → String) (msg : Json) : List String :=
  if msg.isObject then
    (if isOne (get msg "v") then [] else ["envelope v must be 1, got " ++ repr (get msg "v")]) ++
    (if isCorrIdStr (get msg "corrId") then []
      else ["corrId must match ^[0-9a-f]\x7b4,8\x7d$, got " ++ repr (get msg "corrId")]) ++
    (if isInt (get msg "ts") then [] else ["ts must be an integer"]) ++
    (if isStr (get msg "src") then [] else ["src must be a string"])
  else ["message body is not a JSON object"]

/-- The correlation id and the destination are passed on as they are found in the request. -/
def buildSuccessEnvelope (nowMs : Int64) (src : String) (corrId dest : Json)
    (data : List (String × Json)) : Json :=
  .obj [("v", .int 1), ("corrId", corrId), ("ts", .int nowMs.toInt), ("src", .str src),
    ("dest", dest), ("data", .obj data)]

def buildErrorEnvelope (nowMs : Int64) (src : String) (corrId dest : Json) (code msg : String) :
    Json :=
  .obj [("v", .int 1), ("corrId", corrId), ("ts", .int nowMs.toInt), ("src", .str src),
    ("dest", dest),
    ("error", .obj (("code", .str code) :: if msg = "" then [] else [("msg", .str msg)]))]

def wakeupEventTopic : String := "mp/ind/wakeup/event"

def wakeupEventSchemaId : String := "wakeup.event.ind"

def prefixSuffix : List (String × String) :=
  [("mp/req/", "req"), ("ap/req/", "req"), ("ap/ff/", "ff"), ("ctrl/cmd/", "req")]

def resolveSchemaId (topic : String) : Option String :=
  if topic = wakeupEventTopic then some wakeupEventSchemaId
  else (prefixSuffix.find? (fun p => isUnder p.1 topic)).map
    (fun p => dotted p.1.length topic ++ "." ++ p.2)

/-! ## The correlation id -/

theorem length_digits_le (n : UInt32) : (Nat.digits 16 n.toNat).length ≤ 8 := by
  by_contra hlen
  have hpos : n.toNat ≠ 0 := by
    intro h0
    simp [h0] at hlen
  have hbase : 16 ^ (Nat.digits 16 n.toNat).length ≤ 16 * n.toNat :=
    Nat.base_pow_length_digits_le 16 n.toNat (by omega) hpos
  have hpow : 16 ^ 9 ≤ 16 ^ (Nat.digits 16 n.toNat).length :=
    Nat.pow_le_pow_right (by omega) (by omega)
  have hsize : n.toNat < 2 ^ 32 := n.toNat_lt
  omega

theorem length_hex8 (n : UInt32) : (hex8 n).length = 8 := by
  have hlen := length_digits_le n
  simp only [hex8, List.length_leftpad, List.length_map, List.length_reverse]
  omega

theorem isHexDigit_digitChar {d : ℕ} (h : d < 16) : isHexDigit d.digitChar = true := by
  interval_cases d <;> decide

theorem isHexDigit_of_mem_hex8 {n : UInt32} {c : Char} (h : c ∈ hex8 n) :
    isHexDigit c = true := by
  simp only [hex8, List.leftpad, List.mem_append, List.mem_map, List.mem_reverse] at h
  obtain hpad | ⟨d, hd, rfl⟩ := h
  · rw [List.eq_of_mem_replicate hpad]
    decide
  · exact isHexDigit_digitChar (Nat.digits_lt_base (by omega) hd)

/-- Eight digits are one of the widths that the other side accepts. -/
theorem corrIdRe_nextCorrId (counter : UInt32) : corrIdRe (nextCorrId counter).1 = true := by
  have hlen := length_hex8 counter
  have htake : (hex8 counter).take 8 = hex8 counter := List.take_of_length_le (by omega)
  have hall : (hex8 counter).all isHexDigit = true :=
    List.all_eq_true.mpr (fun c hc => isHexDigit_of_mem_hex8 hc)
  simp [corrIdRe, nextCorrId, isCorrId, htake, hlen, hall]

/-! ## What each side reads of the other -/

/-- Every member of an envelope that is set is found under its name. -/
theorem member?_toJson (e : Envelope) :
    e.toJson.member? "v" = some (.int e.v.toInt) ∧
      e.toJson.member? "corrId" = some (.str e.corrId) ∧
      e.toJson.member? "ts" = some (.int e.ts.toInt) ∧
      e.toJson.member? "src" = some (.str e.src) ∧
      e.toJson.member? "dest" = e.dest.map .str ∧ e.toJson.member? "data" = e.data ∧
      e.toJson.member? "error" = e.error := by
  obtain ⟨v, corrId, ts, src, dest, data, error⟩ := e
  cases dest <;> cases data <;> cases error <;>
    simp [Envelope.toJson, Json.member?, Dict.ofList, Dict.get_set]

theorem integer?_int64 (x : Int64) : integer? (.int x.toInt) = some x.toInt := by
  have hlow := x.le_toInt
  have hhigh := x.toInt_lt
  unfold integer? Json.int
  dsimp only
  rw [if_pos (by omega)]

theorem integer?_one : integer? (.int 1) = some 1 := by
  decide

theorem optional_object {j : Json} {name : String}
    (h : ∀ x ∈ j.member? name, x.isObject = true) :
    optional j name object? = .ok (j.member? name) := by
  unfold optional
  cases hx : j.member? name with
  | none => rfl
  | some x =>
    have hobj := h x hx
    simp [object?, hobj]

theorem fromJson_eq {j : Json} {corrId src : String} {ts : Int64} {dest : Option String}
    (hobj : j.isObject = true) (hv : j.member? "v" = some (.int 1))
    (hcorr : j.member? "corrId" = some (.str corrId))
    (hts : j.member? "ts" = some (.int ts.toInt)) (hsrc : j.member? "src" = some (.str src))
    (hdest : j.member? "dest" = dest.map .str)
    (hdata : ∀ x ∈ j.member? "data", x.isObject = true)
    (herror : ∀ x ∈ j.member? "error", x.isObject = true) :
    Envelope.fromJson j =
      .ok ⟨1, corrId, ts, src, dest, j.member? "data", j.member? "error"⟩ := by
  have hv' : required j "v" integer? = .ok 1 := by
    rw [required, hv, Option.bind_some, integer?_one]
  have hcorr' : required j "corrId" string? = .ok corrId := by
    rw [required, hcorr]
    rfl
  have hts' : required j "ts" integer? = .ok ts.toInt := by
    rw [required, hts, Option.bind_some, integer?_int64]
  have hsrc' : required j "src" string? = .ok src := by
    rw [required, hsrc]
    rfl
  have hdest' : optional j "dest" string? = .ok dest := by
    rw [optional, hdest]
    cases dest <;> rfl
  unfold Envelope.fromJson
  simp [hobj, hv', hcorr', hts', hsrc', hdest', optional_object hdata, optional_object herror,
    bind, Except.bind, pure, Except.pure]

theorem fromJson_toJson {e : Envelope} (hv : e.v = 1) (hdata : ∀ x ∈ e.data, x.isObject = true)
    (herror : ∀ x ∈ e.error, x.isObject = true) : Envelope.fromJson e.toJson = .ok e := by
  obtain ⟨hv', hcorr, hts, hsrc, hdest, hdata', herror'⟩ := member?_toJson e
  rw [hv] at hv'
  rw [fromJson_eq rfl hv' hcorr hts hsrc hdest (by rwa [hdata']) (by rwa [herror']), hdata',
    herror', ← hv]

theorem validateEnvelope_makeRequestEnvelope (repr : Json → String) (counter : UInt32)
    (nowMs : Int64) (src : String) (data : Json) :
    validateEnvelope repr (makeRequestEnvelope counter nowMs src data).1.toJson = [] := by
  obtain ⟨hv, hcorr, hts, hsrc, -⟩ := member?_toJson (makeRequestEnvelope counter nowMs src data).1
  have hid : corrIdRe (makeRequestEnvelope counter nowMs src data).1.corrId = true :=
    corrIdRe_nextCorrId counter
  have hone : isOne (get (makeRequestEnvelope counter nowMs src data).1.toJson "v") = true := by
    rw [get, hv]
    rfl
  have hcorr' : isCorrIdStr (get (makeRequestEnvelope counter nowMs src data).1.toJson "corrId") =
      true := by
    rw [get, hcorr]
    exact hid
  have hts' : isInt (get (makeRequestEnvelope counter nowMs src data).1.toJson "ts") = true := by
    rw [get, hts]
    rfl
  have hsrc' : isStr (get (makeRequestEnvelope counter nowMs src data).1.toJson "src") = true := by
    rw [get, hsrc]
    rfl
  have hobj : (makeRequestEnvelope counter nowMs src data).1.toJson.isObject = true := rfl
  simp [validateEnvelope, hobj, hone, hcorr', hts', hsrc']

/-- An answer is what the other side would write for the envelope. -/
theorem buildSuccessEnvelope_eq (nowMs : Int64) (src corrId dest : String)
    (data : List (String × Json)) :
    buildSuccessEnvelope nowMs src (.str corrId) (.str dest) data =
      Envelope.toJson ⟨1, corrId, nowMs, src, some dest, some (.obj data), none⟩ := rfl

theorem buildErrorEnvelope_eq (nowMs : Int64) (src corrId dest code msg : String) :
    buildErrorEnvelope nowMs src (.str corrId) (.str dest) code msg =
      Envelope.toJson ⟨1, corrId, nowMs, src, some dest, none,
        some (.obj (("code", .str code) :: if msg = "" then [] else [("msg", .str msg)]))⟩ := rfl

/-- The answers to a request, as they are read by the side that sent it. -/
theorem fromJson_answers (counter : UInt32) (sentMs nowMs : Int64) (src mpssSrc : String)
    (payload : Json) (data : List (String × Json)) (code msg : String) :
    let request := (makeRequestEnvelope counter sentMs src payload).1
    let corrId := get request.toJson "corrId"
    let dest := get request.toJson "src"
    Envelope.fromJson (buildSuccessEnvelope nowMs mpssSrc corrId dest data) =
        .ok ⟨1, request.corrId, nowMs, mpssSrc, some src, some (.obj data), none⟩ ∧
      Envelope.fromJson (buildErrorEnvelope nowMs mpssSrc corrId dest code msg) =
        .ok ⟨1, request.corrId, nowMs, mpssSrc, some src, none,
          some (.obj (("code", .str code) :: if msg = "" then [] else [("msg", .str msg)]))⟩ := by
  intro request corrId dest
  obtain ⟨-, hcorr, -, hsrc, -⟩ := member?_toJson request
  have hcorrId : corrId = .str request.corrId := by
    simp only [corrId, get, hcorr, Option.getD_some]
  have hdest : dest = .str src := by
    simp only [dest, get, hsrc, Option.getD_some]
    rfl
  rw [hcorrId, hdest, buildSuccessEnvelope_eq, buildErrorEnvelope_eq]
  constructor
  · apply fromJson_toJson rfl
    · rintro x hx
      obtain rfl := Option.some.inj hx
      rfl
    · rintro x hx
      cases hx
  · apply fromJson_toJson rfl
    · rintro x hx
      cases hx
    · rintro x hx
      obtain rfl := Option.some.inj hx
      rfl

/-! ## The schema of a request -/

theorem isUnder_append (pre rest : String) : isUnder pre (pre ++ rest) = true := by
  simp [isUnder]

theorem dotted_append (pre rest : String) :
    dotted pre.length (pre ++ rest) =
      String.ofList (rest.toList.map (fun c => if c = '/' then '.' else c)) := by
  simp [dotted, ← String.length_toList]

theorem append_ne_wakeupEventTopic {pre : String} (hpre : pre ∈ ["mp/req/", "ap/req/"])
    (rest : String) : pre ++ rest ≠ wakeupEventTopic := by
  intro heq
  have hchars := congrArg (fun s => s.toList.take 7) heq
  simp only [List.mem_cons, List.not_mem_nil, or_false] at hpre
  obtain rfl | rfl := hpre <;> simp [wakeupEventTopic] at hchars

/-- The first entry of the table that fits is the prefix itself. -/
theorem resolveSchemaId_eq {pre : String} (hpre : pre ∈ ["mp/req/", "ap/req/"]) (rest : String) :
    resolveSchemaId (pre ++ rest) = some (resolveReqSchemaId (pre ++ rest)) := by
  have hself : isUnder pre (pre ++ rest) = true := isUnder_append pre rest
  rw [resolveSchemaId, if_neg (append_ne_wakeupEventTopic hpre rest)]
  simp only [List.mem_cons, List.not_mem_nil, or_false] at hpre
  obtain rfl | rfl := hpre
  · rw [resolveReqSchemaId, if_pos hself]
    simp only [prefixSuffix, List.find?_cons, hself, Option.map_some, String.append_assoc]
    rfl
  · have hother : isUnder "mp/req/" ("ap/req/" ++ rest) = false := by
      simp [isUnder, List.isPrefixOf]
    rw [resolveReqSchemaId, if_neg (by simp [hother]), if_pos hself]
    simp only [prefixSuffix, List.find?_cons, hother, hself, Option.map_some, String.append_assoc]
    rfl

/-- The two sides understand each other: requests are valid, answers are read back with the id and
the sender of their request and with either data or an error, an envelope that is written is read
back as it was, and a request topic has one schema. -/
theorem envelopes_interoperate (repr : Json → String) :
    (∀ counter nowMs src data,
        validateEnvelope repr (makeRequestEnvelope counter nowMs src (.obj data)).1.toJson = []) ∧
      (∀ counter sentMs nowMs src mpssSrc payload data code msg,
        let request := (makeRequestEnvelope counter sentMs src (.obj payload)).1
        let corrId := get request.toJson "corrId"
        let dest := get request.toJson "src"
        ∀ answer ∈ [buildSuccessEnvelope nowMs mpssSrc corrId dest data,
            buildErrorEnvelope nowMs mpssSrc corrId dest code msg],
          ∃ e, Envelope.fromJson answer = .ok e ∧ e.dest = some request.src ∧
            e.corrId = request.corrId ∧ (e.data.isSome ↔ ¬ e.error.isSome)) ∧
      (∀ e : Envelope, e.v = 1 → (∀ x ∈ e.data, x.isObject = true) →
        (∀ x ∈ e.error, x.isObject = true) → Envelope.fromJson e.toJson = .ok e) ∧
      ∀ pre ∈ ["mp/req/", "ap/req/"], ∀ rest,
        resolveSchemaId (pre ++ rest) = some (resolveReqSchemaId (pre ++ rest)) := by
  refine ⟨fun counter nowMs src data =>
    validateEnvelope_makeRequestEnvelope repr counter nowMs src (.obj data), ?_,
    fun e hv hdata herror => fromJson_toJson hv hdata herror,
    fun pre hpre rest => resolveSchemaId_eq hpre rest⟩
  intro counter sentMs nowMs src mpssSrc payload data code msg request corrId dest answer hanswer
  obtain ⟨hsuccess, herror⟩ :=
    fromJson_answers counter sentMs nowMs src mpssSrc (.obj payload) data code msg
  simp only [List.mem_cons, List.not_mem_nil, or_false] at hanswer
  obtain rfl | rfl := hanswer
  · exact ⟨_, hsuccess, rfl, rfl, by simp⟩
  · exact ⟨_, herror, rfl, rfl, by simp⟩

/-- A list of profiles, and a refusal. -/
def answers : List Envelope :=
  [⟨1, "0000002a", 1700000000000, "mpss-sim", some "telaf-host-4f02",
      some (.obj [("profiles", .arr [.obj [("profileId", .int 1), ("apn", .str "internet")],
        .obj [("profileId", .int 3), ("apn", .str "ims")]])]), none⟩,
    ⟨1, "0000002b", 1700000000007, "mpss-sim", some "telaf-host-4f02", none,
      some (.obj [("code", .str "INVALID_ARGUMENTS"), ("msg", .str "no profile 7")])⟩]

/-- The last request before the counter wraps. -/
def lastRequest : Envelope :=
  (makeRequestEnvelope 0xffffffff 5 "telaf-host-4f02" (.obj [("profileId", .int 7)])).1

theorem envelopes_interoperate_answers :
    (∀ e ∈ answers, Envelope.fromJson e.toJson = .ok e) ∧
    validateEnvelope (fun _ => "") lastRequest.toJson = [] ∧
    (∃ e, Envelope.fromJson (buildErrorEnvelope 9 "mpss-sim" (get lastRequest.toJson "corrId")
        (get lastRequest.toJson "src") "INVALID_ARGUMENTS" "no profile 7") = .ok e ∧
      e.dest = some lastRequest.src ∧ e.corrId = "ffffffff") ∧
    resolveSchemaId "mp/req/data/delete_profile" = some "data.delete_profile.req" := by
  obtain ⟨hvalid, hanswered, hread, hresolved⟩ := envelopes_interoperate (fun _ => "")
  refine ⟨?_, hvalid 0xffffffff 5 "telaf-host-4f02" [("profileId", .int 7)], ?_, ?_⟩
  · intro e he
    simp only [answers, List.mem_cons, List.not_mem_nil, or_false] at he
    obtain rfl | rfl := he
    · exact hread _ rfl (by rintro x ⟨⟩; rfl) (by rintro x ⟨⟩)
    · exact hread _ rfl (by rintro x ⟨⟩) (by rintro x ⟨⟩; rfl)
  · obtain ⟨e, he, hdest, hcorr, -⟩ := hanswered 0xffffffff 5 9 "telaf-host-4f02" "mpss-sim"
      [("profileId", .int 7)] [] "INVALID_ARGUMENTS" "no profile 7" _
      (List.mem_cons_of_mem _ List.mem_cons_self)
    refine ⟨e, he, hdest, hcorr.trans ?_⟩
    decide +kernel
  · have htopic := hresolved "mp/req/" List.mem_cons_self "data/delete_profile"
    exact htopic.trans (by decide +kernel)

end WireEnvelope

end TelafSim
