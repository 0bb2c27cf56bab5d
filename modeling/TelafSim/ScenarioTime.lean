import TelafSim.Binary64

/-!
# The times of a scenario

`_parse_at` of `sml/runtime/scenario_runner.py`: the pattern a time is written in, its number as a
float and its unit. The pattern's `$` also matches before a newline at the end, which the table of
units does not know, and a number may be too large for a float.
-/

namespace TelafSim.Scenario

/-- A float that is not negative: a number, or infinity. -/
abbrev Ms := WithTop ℚ≥0

def mulFloat (x : Ms) (scale : ℕ) : Ms :=
  match x with
  | ⊤ => ⊤
  | (q : ℚ≥0) => binary64 (q * scale)

/-- The zeros of the decimal digits of Unicode: the nine other digits of a script follow. -/
def digitZeros : List ℕ :=
  [0x30, 0x660, 0x6F0, 0x7C0, 0x966, 0x9E6, 0xA66, 0xAE6, 0xB66, 0xBE6, 0xC66, 0xCE6, 0xD66, 0xDE6,
    0xE50, 0xED0, 0xF20, 0x1040, 0x1090, 0x17E0, 0x1810, 0x1946, 0x19D0, 0x1A80, 0x1A90, 0x1B50,
    0x1BB0, 0x1C40, 0x1C50, 0xA620, 0xA8D0, 0xA900, 0xA9D0, 0xA9F0, 0xAA50, 0xABF0, 0xFF10, 0x104A0,
    0x10D30, 0x11066, 0x110F0, 0x11136, 0x111D0, 0x112F0, 0x11450, 0x114D0, 0x11650, 0x116C0,
    0x11730, 0x118E0, 0x11950, 0x11C50, 0x11D50, 0x11DA0, 0x16A60, 0x16AC0, 0x16B50, 0x1D7CE,
    0x1D7D8, 0x1D7E2, 0x1D7EC, 0x1D7F6, 0x1E140, 0x1E2F0, 0x1E950, 0x1FBF0]

/-- What `\d` matches, with its value. -/
def digit (c : Char) : Option ℕ :=
  (digitZeros.find? (fun z => z ≤ c.toNat ∧ c.toNat < z + 10)).map (c.toNat - ·)

/-- The digits a text begins with, and the rest of it. -/
def takeDigits : List Char → List ℕ × List Char
  | [] => ([], [])
  | c :: cs =>
    match digit c with
    | some d => (d :: (takeDigits cs).1, (takeDigits cs).2)
    | none => ([], c :: cs)

/-- The number a text begins with, `^\d+(\.\d+)?`, in its whole and its decimal digits, and the
rest of the text. -/
def splitNumber (cs : List Char) : List ℕ × List ℕ × List Char :=
  let whole := takeDigits cs
  match whole.2 with
  | '.' :: rest =>
    let decimals := takeDigits rest
    if decimals.1 = [] then (whole.1, [], whole.2) else (whole.1, decimals.1, decimals.2)
  | _ => (whole.1, [], whole.2)

def atUnitScale : List Char → Option ℕ
  | ['m', 's'] => some 1
  | ['s'] => some 1000
  | ['m'] => some 60000
  | _ => none

/-- `_AT_RE`, and the pattern of the seek request. -/
def matchesAt (at_ : String) : Bool :=
  let number := splitNumber at_.toList
  let unit := number.2.2
  number.1 ≠ [] &&
    ((atUnitScale unit).isSome ||
      (unit.getLast? = some '\n' && (atUnitScale unit.dropLast).isSome))

def decimalValue (whole decimals : List ℕ) : ℚ≥0 :=
  let value : ℕ := (whole ++ decimals).foldl (fun n d => 10 * n + d) 0
  value / 10 ^ decimals.length

inductive ParseError
  | valueError
  | keyError
  deriving DecidableEq, Repr

def parseAt (at_ : String) : Except ParseError Ms :=
  if !matchesAt at_ then .error .valueError
  else
    let number := splitNumber at_.toList
    let value := binary64 (decimalValue number.1 number.2.1)
    match atUnitScale number.2.2 with
    | none => .error .keyError
    | some scale => .ok (mulFloat value scale)

example : parseAt "10s" = .ok (10000 : ℚ≥0) := by decide +kernel

example : parseAt "1.5m" = .ok (90000 : ℚ≥0) := by decide +kernel

example : parseAt "10s\n" = .error .keyError := by decide +kernel

end TelafSim.Scenario
