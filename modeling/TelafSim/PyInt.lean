import Mathlib.Tactic

/-!
# The integer a string spells in a Python program

`int(s)` for a string: space around it, one sign, and decimal digits with single underscores between
them. Which characters are digits or space, and how many digits are taken at most, is the
interpreter's.
-/

namespace TelafSim

/-- A limit of zero digits is none. -/
class PyText where
  decimal : Char → Option ℕ
  isSpace : Char → Bool
  maxStrDigits : ℕ

section Spelling

variable [PyText]

def strip (l : List Char) : List Char :=
  ((l.dropWhile PyText.isSpace).reverse.dropWhile PyText.isSpace).reverse

def scanDigits : List Char → Option (List ℕ)
  | [] => none
  | [c] => (PyText.decimal c).map (fun d => [d])
  | c :: c' :: rest =>
    (PyText.decimal c).bind (fun d =>
      (if c' = '_' then scanDigits rest else scanDigits (c' :: rest)).map (fun ds => d :: ds))

def magnitude (l : List Char) : Option ℕ :=
  (scanDigits l).bind (fun ds =>
    if PyText.maxStrDigits ≠ 0 ∧ PyText.maxStrDigits < ds.length then none
    else some (ds.foldl (fun n d => 10 * n + d) 0))

/-- `none` is a `ValueError`. -/
def pyInt (l : List Char) : Option ℤ :=
  let body := strip l
  if body.head? = some '-' then (magnitude body.tail).map (fun n => -(n : ℤ))
  else if body.head? = some '+' then (magnitude body.tail).map (fun n => (n : ℤ))
  else (magnitude body).map (fun n => (n : ℤ))

end Spelling

end TelafSim
