import TelafSim.EcallManager
import TelafSim.WireEnvelope

/-!
# The eCall configuration in both processes

`ecallConfigToWire` and `wireToEcallConfig` of `CallManager.cpp` on the one side, `_handle_set_config`
and `_handle_get_config` of `sml/mpss/ecall/call_manager.py` on the other, with the schemas of what
they exchange. A JSON text is its value, and the strings are text. The modem keeps its configuration
as a dictionary, which stands for the configuration that the model of the manager has.
-/

namespace TelafSim

namespace Telux

/-- `EcallConfigType`: a parameter and its bit. -/
inductive EcallConfigType
  | muteRxAudio
  | numType
  | overriddenNum
  | useCannedMsd
  | gnssUpdateInterval
  | t2Timer
  | t7Timer
  | t9Timer
  | msdVersion
  deriving DecidableEq, Repr

structure EcallConfig where
  configValidityMask : EcallConfigType → Bool
  muteRxAudio : Bool
  numType : Ecall.NumType
  overriddenNum : String
  useCannedMsd : Bool
  gnssUpdateInterval : UInt32
  t2Timer : UInt32
  t7Timer : UInt32
  t9Timer : UInt32
  msdVersion : UInt8

namespace EcallConfig

/-- `EcallConfig config{}` -/
def zero : EcallConfig := ⟨fun _ => false, false, .default, "", false, 0, 0, 0, 0, 0⟩

def mark (p : EcallConfigType) (c : EcallConfig) : EcallConfig :=
  { c with configValidityMask := fun q => q = p || c.configValidityMask q }

def put (c : EcallConfig) (p : EcallConfigType) (flag key : String) (v : Json) :
    List (String × Json) :=
  if c.configValidityMask p then [(flag, .scalar (.bool true)), (key, v)] else []

end EcallConfig

def numTypeName (t : Ecall.NumType) : String :=
  if t = .overridden then "OVERRIDDEN" else "DEFAULT"

def ecallConfigToWire (c : EcallConfig) : Json :=
  .obj (c.put .muteRxAudio "isMuteRxAudioValid" "muteRxAudio" (.scalar (.bool c.muteRxAudio)) ++
    c.put .numType "isNumTypeValid" "numType" (.str (numTypeName c.numType)) ++
    c.put .overriddenNum "isOverriddenNumValid" "overriddenNum" (.str c.overriddenNum) ++
    c.put .useCannedMsd "isUseCannedMsdValid" "useCannedMsd" (.scalar (.bool c.useCannedMsd)) ++
    c.put .gnssUpdateInterval "isGnssUpdateIntervalValid" "gnssUpdateInterval"
      (.int c.gnssUpdateInterval.toNat) ++
    c.put .t2Timer "isT2TimerValid" "t2Timer" (.int c.t2Timer.toNat) ++
    c.put .t7Timer "isT7TimerValid" "t7Timer" (.int c.t7Timer.toNat) ++
    c.put .t9Timer "isT9TimerValid" "t9Timer" (.int c.t9Timer.toNat) ++
    c.put .msdVersion "isMsdVersionValid" "msdVersion" (.int c.msdVersion.toNat))

/-- `data.value(name, default)`: a value of another type raises. -/
def value {α : Type} (read : Json → Option α) (data : Json) (name : String) (default : α) :
    Option α :=
  match data.member? name with
  | some v => read v
  | none => some default

def readBool : Json → Option Bool
  | .scalar (.bool b) => some b
  | _ => none

/-- Any number is converted to an `int`: a float loses its fraction, and one that is out of range
then has no defined value. -/
def readInt : Json → Option Int32
  | .scalar (.int n) => if -2 ^ 63 ≤ n ∧ n < 2 ^ 64 then some (Int32.ofInt n) else none
  | .scalar (.bool b) => some (if b then 1 else 0)
  | .scalar (.float x) =>
    let n := if 0 ≤ x then ⌊x⌋ else ⌈x⌉
    if -2 ^ 31 ≤ n ∧ n < 2 ^ 31 then some (Int32.ofInt n) else none
  | _ => none

def take {α : Type} (read : Json → Option α) (data : Json) (p : EcallConfigType)
    (flag key : String) (default : α) (set : α → EcallConfig → EcallConfig) (c : EcallConfig) :
    Option EcallConfig := do
  if ← value readBool data flag false then
    let v ← value read data key default
    return set v (c.mark p)
  else return c

def wireToEcallConfig (data : Json) : Option EcallConfig := do
  let c := EcallConfig.zero
  let c ← take readBool data .muteRxAudio "isMuteRxAudioValid" "muteRxAudio" false
    (fun v c => { c with muteRxAudio := v }) c
  let c ← take WireEnvelope.string? data .numType "isNumTypeValid" "numType" ""
    (fun v c => { c with numType := if v = "OVERRIDDEN" then .overridden else .default }) c
  let c ← take WireEnvelope.string? data .overriddenNum "isOverriddenNumValid" "overriddenNum" ""
    (fun v c => { c with overriddenNum := v }) c
  let c ← take readBool data .useCannedMsd "isUseCannedMsdValid" "useCannedMsd" false
    (fun v c => { c with useCannedMsd := v }) c
  let c ← take readInt data .gnssUpdateInterval "isGnssUpdateIntervalValid" "gnssUpdateInterval" 0
    (fun v c => { c with gnssUpdateInterval := v.toUInt32 }) c
  let c ← take readInt data .t2Timer "isT2TimerValid" "t2Timer" 0
    (fun v c => { c with t2Timer := v.toUInt32 }) c
  let c ← take readInt data .t7Timer "isT7TimerValid" "t7Timer" 0
    (fun v c => { c with t7Timer := v.toUInt32 }) c
  let c ← take readInt data .t9Timer "isT9TimerValid" "t9Timer" 0
    (fun v c => { c with t9Timer := v.toUInt32 }) c
  take readInt data .msdVersion "isMsdVersionValid" "msdVersion" 0
    (fun v c => { c with msdVersion := v.toUInt32.toUInt8 }) c

end Telux

namespace Ecall

/-! ## The modem -/

def truthy : Json → Bool
  | .scalar .null => false
  | .scalar (.bool b) => b
  | .scalar (.int n) => n ≠ 0
  | .scalar (.float x) => x ≠ 0
  | .scalar (.str s) => s ≠ ""
  | .arr items => !items.isEmpty
  | .obj pairs => !pairs.isEmpty

/-- `_DEFAULT_CONFIG` -/
def defaultConfigDict : Dict String Json := .ofList
  [("muteRxAudio", .scalar (.bool false)), ("numType", .str "DEFAULT"), ("overriddenNum", .str ""),
    ("useCannedMsd", .scalar (.bool false)), ("gnssUpdateInterval", .int 1000),
    ("t2Timer", .int 10000), ("t7Timer", .int 5000), ("t9Timer", .int 15000),
    ("msdVersion", .int 2)]

def takeOver (data : Json) (config : Dict String Json) (k : String × String) :
    Dict String Json :=
  match data.member? k.1 with
  | some v => if (data.member? k.2).any truthy then config.set k.1 v else config
  | none => config

def handleSetConfig (data : Json) (config : Dict String Json) : Dict String Json :=
  [("muteRxAudio", "isMuteRxAudioValid"), ("numType", "isNumTypeValid"),
    ("overriddenNum", "isOverriddenNumValid"), ("useCannedMsd", "isUseCannedMsdValid"),
    ("gnssUpdateInterval", "isGnssUpdateIntervalValid"), ("t2Timer", "isT2TimerValid"),
    ("t7Timer", "isT7TimerValid"), ("t9Timer", "isT9TimerValid"),
    ("msdVersion", "isMsdVersionValid")].foldl (takeOver data) config

def validKey (k : String) : String :=
  String.ofList ("is".toList ++ (k.toList.modifyHead Char.toUpper) ++ "Valid".toList)

/-- What is in the configuration goes over the flags. -/
def handleGetConfig (config : Dict String Json) : Json :=
  .obj (Dict.ofList (defaultConfigDict.keys.map (fun k => (validKey k, .scalar (.bool true))) ++
    config.entries)).entries

/-! ## The schemas -/

inductive PropertyType
  | boolean
  | string
  | integer
  | stringEnum (names : List String)
  deriving DecidableEq

def PropertyType.accepts : PropertyType → Json → Bool
  | .boolean, .scalar (.bool _) => true
  | .string, .scalar (.str _) => true
  | .integer, .scalar (.int _) => true
  | .integer, .scalar (.float x) => x.isInt
  | .stringEnum names, .scalar (.str s) => s ∈ names
  | _, _ => false

/-- `ecall.set_config.req`, in which nothing is required, and `ecall.get_config.rsp`, in which
everything is. No other properties are allowed in either. -/
def configProperties : List (String × PropertyType) :=
  [("isMuteRxAudioValid", .boolean), ("muteRxAudio", .boolean), ("isNumTypeValid", .boolean),
    ("numType", .stringEnum ["DEFAULT", "OVERRIDDEN"]), ("isOverriddenNumValid", .boolean),
    ("overriddenNum", .string), ("isUseCannedMsdValid", .boolean), ("useCannedMsd", .boolean),
    ("isGnssUpdateIntervalValid", .boolean), ("gnssUpdateInterval", .integer),
    ("isT2TimerValid", .boolean), ("t2Timer", .integer), ("isT7TimerValid", .boolean),
    ("t7Timer", .integer), ("isT9TimerValid", .boolean), ("t9Timer", .integer),
    ("isMsdVersionValid", .boolean), ("msdVersion", .integer)]

def isSetConfigReq : Json → Bool
  | .obj pairs => (Dict.ofList pairs).entries.all (fun e =>
      ((Dict.ofList configProperties).get e.1).any (·.accepts e.2))
  | _ => false

def isGetConfigRsp (data : Json) : Bool :=
  isSetConfigReq data && configProperties.all (fun property => (data.member? property.1).isSome)

/-! ## The calls -/

/-- A request that does not fit its schema is not sent. -/
def setECallConfig (c : Telux.EcallConfig) (config : Dict String Json) : Dict String Json :=
  let data := Telux.ecallConfigToWire c
  if isSetConfigReq data then handleSetConfig data config else config

/-- A response that does not fit its schema is not published. -/
def getECallConfig (config : Dict String Json) : Option Telux.EcallConfig :=
  let data := handleGetConfig config
  if isGetConfigRsp data then Telux.wireToEcallConfig data else none

end Ecall

/-! ## Names and values -/

namespace Telux

namespace EcallConfigType

def all : List EcallConfigType :=
  [.muteRxAudio, .numType, .overriddenNum, .useCannedMsd, .gnssUpdateInterval, .t2Timer, .t7Timer,
    .t9Timer, .msdVersion]

def key : EcallConfigType → String
  | muteRxAudio => "muteRxAudio"
  | numType => "numType"
  | overriddenNum => "overriddenNum"
  | useCannedMsd => "useCannedMsd"
  | gnssUpdateInterval => "gnssUpdateInterval"
  | t2Timer => "t2Timer"
  | t7Timer => "t7Timer"
  | t9Timer => "t9Timer"
  | msdVersion => "msdVersion"

def flag : EcallConfigType → String
  | muteRxAudio => "isMuteRxAudioValid"
  | numType => "isNumTypeValid"
  | overriddenNum => "isOverriddenNumValid"
  | useCannedMsd => "isUseCannedMsdValid"
  | gnssUpdateInterval => "isGnssUpdateIntervalValid"
  | t2Timer => "isT2TimerValid"
  | t7Timer => "isT7TimerValid"
  | t9Timer => "isT9TimerValid"
  | msdVersion => "isMsdVersionValid"

theorem mem_all (p : EcallConfigType) : p ∈ all := by cases p <;> decide

theorem validKey_key (p : EcallConfigType) : Ecall.validKey p.key = p.flag := by
  have hall : ∀ p ∈ all, Ecall.validKey p.key = p.flag := by decide +kernel
  exact hall p p.mem_all

theorem eq_of_key {p q : EcallConfigType} (h : p.key = q.key) : p = q := by
  have hall : ∀ p ∈ all, ∀ q ∈ all, p.key = q.key → p = q := by decide +kernel
  exact hall p p.mem_all q q.mem_all h

theorem eq_of_flag {p q : EcallConfigType} (h : p.flag = q.flag) : p = q := by
  have hall : ∀ p ∈ all, ∀ q ∈ all, p.flag = q.flag → p = q := by decide +kernel
  exact hall p p.mem_all q q.mem_all h

theorem key_ne_flag (p q : EcallConfigType) : p.key ≠ q.flag := by
  have hall : ∀ p ∈ all, ∀ q ∈ all, p.key ≠ q.flag := by decide +kernel
  exact hall p p.mem_all q q.mem_all

end EcallConfigType

namespace EcallConfig

def wire (c : EcallConfig) : EcallConfigType → Json
  | .muteRxAudio => .scalar (.bool c.muteRxAudio)
  | .numType => .str (numTypeName c.numType)
  | .overriddenNum => .str c.overriddenNum
  | .useCannedMsd => .scalar (.bool c.useCannedMsd)
  | .gnssUpdateInterval => .int c.gnssUpdateInterval.toNat
  | .t2Timer => .int c.t2Timer.toNat
  | .t7Timer => .int c.t7Timer.toNat
  | .t9Timer => .int c.t9Timer.toNat
  | .msdVersion => .int c.msdVersion.toNat

def merge (c d : EcallConfig) : EcallConfig where
  configValidityMask := fun _ => true
  muteRxAudio := if d.configValidityMask .muteRxAudio then d.muteRxAudio else c.muteRxAudio
  numType := if d.configValidityMask .numType then d.numType else c.numType
  overriddenNum := if d.configValidityMask .overriddenNum then d.overriddenNum else c.overriddenNum
  useCannedMsd := if d.configValidityMask .useCannedMsd then d.useCannedMsd else c.useCannedMsd
  gnssUpdateInterval := if d.configValidityMask .gnssUpdateInterval then d.gnssUpdateInterval
    else c.gnssUpdateInterval
  t2Timer := if d.configValidityMask .t2Timer then d.t2Timer else c.t2Timer
  t7Timer := if d.configValidityMask .t7Timer then d.t7Timer else c.t7Timer
  t9Timer := if d.configValidityMask .t9Timer then d.t9Timer else c.t9Timer
  msdVersion := if d.configValidityMask .msdVersion then d.msdVersion else c.msdVersion

def modemDefault : EcallConfig :=
  ⟨fun _ => true, false, .default, "", false, 1000, 10000, 5000, 15000, 2⟩

variable {c d : EcallConfig} {p : EcallConfigType}

theorem wire_merge (c d : EcallConfig) (p : EcallConfigType) :
    (c.merge d).wire p = if d.configValidityMask p then d.wire p else c.wire p := by
  cases p <;> simp only [wire, merge] <;> split <;> rfl

theorem ecallConfigToWire_eq (c : EcallConfig) : ecallConfigToWire c =
    .obj (EcallConfigType.all.flatMap (fun p => c.put p p.flag p.key (c.wire p))) := by
  rw [ecallConfigToWire]
  simp only [EcallConfigType.all, List.flatMap_cons, List.flatMap_nil, List.append_assoc,
    List.append_nil]
  rfl

theorem mem_put {e : String × Json} {flag key : String} {v : Json} :
    e ∈ c.put p flag key v ↔ c.configValidityMask p = true ∧
      (e = (flag, .scalar (.bool true)) ∨ e = (key, v)) := by
  unfold put
  split <;> simp_all

theorem member?_toWire (c : EcallConfig) (p : EcallConfigType) :
    (ecallConfigToWire c).member? p.flag =
      (if c.configValidityMask p then some (.scalar (.bool true)) else none) ∧
    (ecallConfigToWire c).member? p.key = if c.configValidityMask p then some (c.wire p) else none := by
  rw [ecallConfigToWire_eq, Json.member?]
  by_cases hp : c.configValidityMask p = true
  · rw [if_pos hp, if_pos hp]
    constructor
    · apply Dict.get_ofList_eq_some
      · exact List.mem_flatMap.mpr ⟨p, p.mem_all, mem_put.mpr ⟨hp, .inl rfl⟩⟩
      · intro e he hname
        obtain ⟨q, -, hq⟩ := List.mem_flatMap.mp he
        rcases (mem_put.mp hq).2 with rfl | rfl
        · rfl
        · exact absurd hname (q.key_ne_flag p)
    · apply Dict.get_ofList_eq_some
      · exact List.mem_flatMap.mpr ⟨p, p.mem_all, mem_put.mpr ⟨hp, .inr rfl⟩⟩
      · intro e he hname
        obtain ⟨q, -, hq⟩ := List.mem_flatMap.mp he
        rcases (mem_put.mp hq).2 with rfl | rfl
        · exact absurd hname.symm (p.key_ne_flag q)
        · rw [EcallConfigType.eq_of_key hname]
  · rw [if_neg hp, if_neg hp]
    constructor
    · apply Dict.get_ofList_eq_none
      intro e he hname
      obtain ⟨q, -, hq⟩ := List.mem_flatMap.mp he
      obtain ⟨hmask, rfl | rfl⟩ := mem_put.mp hq
      · exact hp (EcallConfigType.eq_of_flag hname ▸ hmask)
      · exact absurd hname (q.key_ne_flag p)
    · apply Dict.get_ofList_eq_none
      intro e he hname
      obtain ⟨q, -, hq⟩ := List.mem_flatMap.mp he
      obtain ⟨hmask, rfl | rfl⟩ := mem_put.mp hq
      · exact absurd hname.symm (p.key_ne_flag q)
      · exact hp (EcallConfigType.eq_of_key hname ▸ hmask)

end EcallConfig

end Telux

namespace Ecall

open Telux (EcallConfigType)

variable {d : Dict String Json} {c : Telux.EcallConfig}

structure Stores (d : Dict String Json) (c : Telux.EcallConfig) : Prop where
  keys : d.keys = EcallConfigType.all.map EcallConfigType.key
  get : ∀ p : EcallConfigType, d.get p.key = some (c.wire p)

theorem stores_default : Stores defaultConfigDict .modemDefault := by
  refine ⟨by decide +kernel, ?_⟩
  intro p
  cases p <;> rfl

section SetConfig

def given (data : Json) (p : EcallConfigType) : Option Json :=
  if (data.member? p.flag).any truthy then data.member? p.key else none

theorem get_takeOver (data : Json) (d : Dict String Json) (p : EcallConfigType) (k : String) :
    (takeOver data d (p.key, p.flag)).get k =
      if k = p.key then (given data p).or (d.get k) else d.get k := by
  unfold takeOver given
  cases hv : data.member? p.key with
  | none => simp
  | some v =>
    by_cases htrue : (data.member? p.flag).any truthy = true
    · dsimp only
      rw [if_pos htrue, if_pos htrue, Dict.get_set]
      rfl
    · dsimp only
      rw [if_neg htrue, if_neg htrue]
      simp

theorem keys_takeOver (data : Json) {p : EcallConfigType} (hp : p.key ∈ d.keys) :
    (takeOver data d (p.key, p.flag)).keys = d.keys := by
  unfold takeOver
  split
  · split
    · exact (Dict.map_fst_setEntries _ _ _).trans (if_pos hp)
    · rfl
  · rfl

theorem foldl_takeOver (data : Json) {ps : List EcallConfigType} (hnodup : ps.Nodup)
    (hps : ∀ p ∈ ps, p.key ∈ d.keys) :
    (ps.foldl (fun d p => takeOver data d (p.key, p.flag)) d).keys = d.keys ∧
    ∀ q : EcallConfigType, (ps.foldl (fun d p => takeOver data d (p.key, p.flag)) d).get q.key =
      if q ∈ ps then (given data q).or (d.get q.key) else d.get q.key := by
  induction ps generalizing d with
  | nil => exact ⟨rfl, fun q => rfl⟩
  | cons p ps ih =>
    have hkeys := keys_takeOver data (hps p List.mem_cons_self)
    obtain ⟨hp, hrest⟩ := List.nodup_cons.mp hnodup
    obtain ⟨hkeys', hget⟩ := ih (d := takeOver data d (p.key, p.flag)) hrest
      (fun q hq => hkeys ▸ hps q (List.mem_cons_of_mem p hq))
    refine ⟨hkeys'.trans hkeys, ?_⟩
    intro q
    rw [List.foldl_cons, hget, get_takeOver]
    by_cases hq : q = p
    · subst hq
      rw [if_neg hp, if_pos rfl, if_pos List.mem_cons_self]
    · have hne : q.key ≠ p.key := fun h => hq (EcallConfigType.eq_of_key h)
      simp only [if_neg hne, List.mem_cons, hq, false_or]

theorem handleSetConfig_eq (data : Json) (d : Dict String Json) : handleSetConfig data d =
    EcallConfigType.all.foldl (fun d p => takeOver data d (p.key, p.flag)) d := rfl

theorem stores_set (h : Stores d c) (x : Telux.EcallConfig) :
    Stores (handleSetConfig (Telux.ecallConfigToWire x) d) (c.merge x) := by
  have hmem : ∀ p ∈ EcallConfigType.all, p.key ∈ d.keys := by
    intro p hp
    rw [h.keys]
    exact List.mem_map_of_mem hp
  obtain ⟨hkeys, hget⟩ := foldl_takeOver (Telux.ecallConfigToWire x) (by decide) hmem
  rw [handleSetConfig_eq]
  refine ⟨hkeys.trans h.keys, ?_⟩
  intro p
  obtain ⟨hflag, hkey⟩ := Telux.EcallConfig.member?_toWire x p
  rw [hget, if_pos p.mem_all, given, hflag, hkey, h.get, Telux.EcallConfig.wire_merge]
  split
  · rfl
  · rfl

end SetConfig

section Schemas

theorem isSetConfigReq_obj {pairs : List (String × Json)}
    (h : ∀ e ∈ pairs, ((Dict.ofList configProperties).get e.1).any (·.accepts e.2) = true) :
    isSetConfigReq (.obj pairs) = true := by
  rw [isSetConfigReq, List.all_eq_true]
  intro e he
  apply h
  obtain ⟨before, after, rfl, -⟩ := Dict.get_ofList_eq_some_iff.mp (Dict.get_eq_some_iff.mpr he)
  exact List.mem_append_right before List.mem_cons_self

theorem accepts_flag (p : EcallConfigType) : ((Dict.ofList configProperties).get p.flag).any
    (·.accepts (.scalar (.bool true))) = true := by
  have hall : ∀ p ∈ EcallConfigType.all,
      (Dict.ofList configProperties).get p.flag = some .boolean := by decide +kernel
  rw [hall p p.mem_all]
  rfl

theorem accepts_wire (c : Telux.EcallConfig) (p : EcallConfigType) :
    ((Dict.ofList configProperties).get p.key).any (·.accepts (c.wire p)) = true := by
  cases p
  case numType =>
    have hnum : (Dict.ofList configProperties).get EcallConfigType.numType.key =
        some (.stringEnum ["DEFAULT", "OVERRIDDEN"]) := by decide +kernel
    rw [hnum]
    simp only [Telux.EcallConfig.wire, Telux.numTypeName]
    split <;> decide
  all_goals rfl

theorem isSetConfigReq_toWire (c : Telux.EcallConfig) :
    isSetConfigReq (Telux.ecallConfigToWire c) = true := by
  rw [Telux.EcallConfig.ecallConfigToWire_eq]
  apply isSetConfigReq_obj
  intro e he
  obtain ⟨p, -, hp⟩ := List.mem_flatMap.mp he
  rcases (Telux.EcallConfig.mem_put.mp hp).2 with rfl | rfl
  · exact accepts_flag p
  · exact accepts_wire c p

theorem mem_response (h : Stores d c) {e : String × Json} :
    e ∈ defaultConfigDict.keys.map (fun k => (validKey k, .scalar (.bool true))) ++ d.entries ↔
      ∃ p : EcallConfigType, e = (p.flag, .scalar (.bool true)) ∨ e = (p.key, c.wire p) := by
  rw [stores_default.keys, List.map_map, List.mem_append, List.mem_map]
  constructor
  · rintro (⟨p, -, rfl⟩ | he)
    · refine ⟨p, .inl ?_⟩
      rw [Function.comp, EcallConfigType.validKey_key]
    · have hget := Dict.get_eq_some_iff.mpr he
      have hkey : e.1 ∈ d.keys := List.mem_map_of_mem he
      rw [h.keys] at hkey
      obtain ⟨p, -, hp⟩ := List.mem_map.mp hkey
      rw [← hp, h.get, Option.some.injEq] at hget
      exact ⟨p, .inr (Prod.ext hp.symm hget.symm)⟩
  · rintro ⟨p, rfl | rfl⟩
    · refine .inl ⟨p, p.mem_all, ?_⟩
      rw [Function.comp, EcallConfigType.validKey_key]
    · exact .inr (Dict.get_eq_some_iff.mp (h.get p))

theorem member?_getConfig (h : Stores d c) (p : EcallConfigType) :
    (handleGetConfig d).member? p.flag = some (.scalar (.bool true)) ∧
      (handleGetConfig d).member? p.key = some (c.wire p) := by
  rw [handleGetConfig, Json.member?, Json.member?, Dict.ofList_entries]
  constructor
  · apply Dict.get_ofList_eq_some ((mem_response h).mpr ⟨p, .inl rfl⟩)
    intro e he hname
    obtain ⟨q, rfl | rfl⟩ := (mem_response h).mp he
    · rfl
    · exact absurd hname (q.key_ne_flag p)
  · apply Dict.get_ofList_eq_some ((mem_response h).mpr ⟨p, .inr rfl⟩)
    intro e he hname
    obtain ⟨q, rfl | rfl⟩ := (mem_response h).mp he
    · exact absurd hname.symm (p.key_ne_flag q)
    · rw [EcallConfigType.eq_of_key hname]

theorem isGetConfigRsp_getConfig (h : Stores d c) : isGetConfigRsp (handleGetConfig d) = true := by
  rw [isGetConfigRsp, Bool.and_eq_true, List.all_eq_true]
  constructor
  · apply isSetConfigReq_obj
    intro e he
    obtain ⟨before, after, heq, -⟩ :=
      Dict.get_ofList_eq_some_iff.mp (Dict.get_eq_some_iff.mpr he)
    have hmem : e ∈ before ++ e :: after := List.mem_append_right before List.mem_cons_self
    rw [← heq] at hmem
    obtain ⟨p, rfl | rfl⟩ := (mem_response h).mp hmem
    · exact accepts_flag p
    · exact accepts_wire c p
  · intro property hproperty
    have hall : ∀ property ∈ configProperties, ∃ p ∈ EcallConfigType.all,
        property.1 = p.flag ∨ property.1 = p.key := by decide +kernel
    obtain ⟨p, -, hp | hp⟩ := hall property hproperty
    · rw [hp, (member?_getConfig h p).1]
      rfl
    · rw [hp, (member?_getConfig h p).2]
      rfl

end Schemas

section Decode

variable {data : Json}

theorem take_of_member {α : Type} {read : Json → Option α} {p : EcallConfigType}
    {flag key : String} {default : α} {set : α → Telux.EcallConfig → Telux.EcallConfig} {v : Json}
    {x : α} (hflag : data.member? flag = some (.scalar (.bool true)))
    (hkey : data.member? key = some v) (hread : read v = some x) :
    Telux.take read data p flag key default set c = some (set x (c.mark p)) := by
  simp only [Telux.take, Telux.value, hflag, hkey, hread, Telux.readBool, Option.bind_eq_bind,
    Option.bind_some, if_true, Option.pure_def]

theorem readInt_nat {n : ℕ} (hn : n < 2 ^ 32) :
    Telux.readInt (.int n) = some (Int32.ofInt n) := by
  have hrange : -2 ^ 63 ≤ (n : ℤ) ∧ (n : ℤ) < 2 ^ 64 := by omega
  rw [Json.int, Telux.readInt, if_pos hrange]

/-- A number of 32 bits is read as an `int`, and converted back it is what it was. -/
theorem readInt_uint32 (n : UInt32) :
    ∃ i, Telux.readInt (.int n.toNat) = some i ∧ i.toUInt32 = n := by
  refine ⟨_, readInt_nat n.toNat_lt, ?_⟩
  rw [Int32.ofInt_eq_ofNat, Int32.toUInt32_ofNat', UInt32.ofNat_toNat]

theorem readInt_uint8 (n : UInt8) :
    ∃ i, Telux.readInt (.int n.toNat) = some i ∧ i.toUInt32.toUInt8 = n := by
  have hlt := n.toNat_lt
  refine ⟨_, readInt_nat (by omega), ?_⟩
  rw [Int32.ofInt_eq_ofNat, Int32.toUInt32_ofNat']
  simp

theorem numType_numTypeName (t : NumType) :
    (if Telux.numTypeName t = "OVERRIDDEN" then NumType.overridden else .default) = t := by
  cases t <;> decide

/-- A response is read as the configuration that the modem has, with all bits set. -/
theorem wireToEcallConfig_getConfig (h : Stores d c) :
    Telux.wireToEcallConfig (handleGetConfig d) =
      some { c with configValidityMask := fun _ => true } := by
  have hmember := member?_getConfig h
  obtain ⟨gnss, hgnss, hgnss'⟩ := readInt_uint32 c.gnssUpdateInterval
  obtain ⟨t2, ht2, ht2'⟩ := readInt_uint32 c.t2Timer
  obtain ⟨t7, ht7, ht7'⟩ := readInt_uint32 c.t7Timer
  obtain ⟨t9, ht9, ht9'⟩ := readInt_uint32 c.t9Timer
  obtain ⟨version, hversion, hversion'⟩ := readInt_uint8 c.msdVersion
  have hbool : ∀ b, Telux.readBool (.scalar (.bool b)) = some b := fun _ => rfl
  have hstr : ∀ s, WireEnvelope.string? (.str s) = some s := fun _ => rfl
  have hmute := hmember .muteRxAudio
  have hnum := hmember .numType
  have hnumber := hmember .overriddenNum
  have hcanned := hmember .useCannedMsd
  have hinterval := hmember .gnssUpdateInterval
  have htimer2 := hmember .t2Timer
  have htimer7 := hmember .t7Timer
  have htimer9 := hmember .t9Timer
  have hmsd := hmember .msdVersion
  simp only [EcallConfigType.flag, EcallConfigType.key, Telux.EcallConfig.wire]
    at hmute hnum hnumber hcanned hinterval htimer2 htimer7 htimer9 hmsd
  simp only [Telux.wireToEcallConfig, Telux.EcallConfig.zero, Telux.EcallConfig.mark,
    Option.bind_eq_bind, Option.bind_some, take_of_member hmute.1 hmute.2 (hbool _),
    take_of_member hnum.1 hnum.2 (hstr _), take_of_member hnumber.1 hnumber.2 (hstr _),
    take_of_member hcanned.1 hcanned.2 (hbool _), take_of_member hinterval.1 hinterval.2 hgnss,
    take_of_member htimer2.1 htimer2.2 ht2, take_of_member htimer7.1 htimer7.2 ht7,
    take_of_member htimer9.1 htimer9.2 ht9, take_of_member hmsd.1 hmsd.2 hversion,
    numType_numTypeName, hgnss', ht2', ht7', ht9', hversion']
  simp only [Option.some.injEq, Telux.EcallConfig.mk.injEq, and_true]
  funext p
  cases p <;> rfl

end Decode

section Runs

variable {α : Type}

/-- What the last call that had the bit of a parameter set has for it. -/
def lastValid (p : EcallConfigType) (field : Telux.EcallConfig → α) (default : α)
    (calls : List Telux.EcallConfig) : α :=
  (((calls.filter (·.configValidityMask p)).getLast?).map field).getD default

theorem lastValid_concat (p : EcallConfigType) (field : Telux.EcallConfig → α) (default : α)
    (calls : List Telux.EcallConfig) (x : Telux.EcallConfig) :
    lastValid p field default (calls ++ [x]) =
      if x.configValidityMask p then field x else lastValid p field default calls := by
  unfold lastValid
  rw [List.filter_append]
  by_cases hx : x.configValidityMask p = true
  · simp [hx]
  · simp [hx]

/-- A field that is merged by its bit has the value of the last call that had the bit set. -/
theorem field_foldl (p : EcallConfigType) (field : Telux.EcallConfig → α)
    (hmerge : ∀ c x : Telux.EcallConfig,
      field (c.merge x) = if x.configValidityMask p then field x else field c)
    (c : Telux.EcallConfig) (calls : List Telux.EcallConfig) :
    field (calls.foldl Telux.EcallConfig.merge c) = lastValid p field (field c) calls := by
  induction calls using List.reverseRecOn with
  | nil => rfl
  | append_singleton calls x ih =>
    rw [List.foldl_append, lastValid_concat, ← ih]
    exact hmerge _ x

theorem stores_foldl (h : Stores d c) (calls : List Telux.EcallConfig) :
    Stores (calls.foldl (fun d x => setECallConfig x d) d)
      (calls.foldl Telux.EcallConfig.merge c) := by
  induction calls generalizing d c with
  | nil => exact h
  | cons x calls ih =>
    have hset : setECallConfig x d = handleSetConfig (Telux.ecallConfigToWire x) d :=
      if_pos (isSetConfigReq_toWire x)
    rw [List.foldl_cons, List.foldl_cons, hset]
    exact ih (stores_set h x)

theorem getECallConfig_of_stores (h : Stores d c) :
    getECallConfig d = some { c with configValidityMask := fun _ => true } := by
  rw [getECallConfig, if_pos (isGetConfigRsp_getConfig h), wireToEcallConfig_getConfig h]

/-- After any calls of `setECallConfig`, `getECallConfig` returns a configuration with all bits set
in which every field has the value of the last call that had its bit set, or the default of the
modem if there was none. -/
theorem config_roundtrip (calls : List Telux.EcallConfig) :
    ∃ c, getECallConfig (calls.foldl (fun d x => setECallConfig x d) defaultConfigDict) = some c ∧
      (∀ p, c.configValidityMask p = true) ∧
      c.muteRxAudio = lastValid .muteRxAudio (·.muteRxAudio) false calls ∧
      c.numType = lastValid .numType (·.numType) .default calls ∧
      c.overriddenNum = lastValid .overriddenNum (·.overriddenNum) "" calls ∧
      c.useCannedMsd = lastValid .useCannedMsd (·.useCannedMsd) false calls ∧
      c.gnssUpdateInterval = lastValid .gnssUpdateInterval (·.gnssUpdateInterval) 1000 calls ∧
      c.t2Timer = lastValid .t2Timer (·.t2Timer) 10000 calls ∧
      c.t7Timer = lastValid .t7Timer (·.t7Timer) 5000 calls ∧
      c.t9Timer = lastValid .t9Timer (·.t9Timer) 15000 calls ∧
      c.msdVersion = lastValid .msdVersion (·.msdVersion) 2 calls := by
  refine ⟨_, getECallConfig_of_stores (stores_foldl stores_default calls), fun _ => rfl, ?_⟩
  exact ⟨field_foldl .muteRxAudio (·.muteRxAudio) (fun _ _ => rfl) _ calls,
    field_foldl .numType (·.numType) (fun _ _ => rfl) _ calls,
    field_foldl .overriddenNum (·.overriddenNum) (fun _ _ => rfl) _ calls,
    field_foldl .useCannedMsd (·.useCannedMsd) (fun _ _ => rfl) _ calls,
    field_foldl .gnssUpdateInterval (·.gnssUpdateInterval) (fun _ _ => rfl) _ calls,
    field_foldl .t2Timer (·.t2Timer) (fun _ _ => rfl) _ calls,
    field_foldl .t7Timer (·.t7Timer) (fun _ _ => rfl) _ calls,
    field_foldl .t9Timer (·.t9Timer) (fun _ _ => rfl) _ calls,
    field_foldl .msdVersion (·.msdVersion) (fun _ _ => rfl) _ calls⟩

end Runs

end Ecall

end TelafSim
