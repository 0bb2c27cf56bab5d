import TelafSim.Dict

/-!
# JSON values in a Python program

A value read from a JSON text, which of them may be keys of a dictionary and when two keys are one,
and what a program tries on a value without knowing its shape. Iterating, or making a dictionary,
raises on the shapes it does not take.
-/

namespace TelafSim

/-- The values that have a hash. -/
inductive Scalar
  | null
  | bool (b : Bool)
  | int (n : ℤ)
  | float (x : ℚ)
  | str (s : String)
  deriving DecidableEq

/-- The pairs of an object stand as in the text: of a name given twice the last counts. -/
inductive Json
  | scalar (v : Scalar)
  | arr (items : List Json)
  | obj (pairs : List (String × Json))

inductive PyError
  | attributeError
  | keyError
  | typeError
  | valueError
  | unicodeDecodeError
  | recursionError
  deriving DecidableEq, Repr

/-- A key of a dictionary up to equality: `1`, `1.0` and `True` are one. -/
inductive PyKey
  | null
  | num (q : ℚ)
  | str (s : String)
  deriving DecidableEq

def Scalar.key : Scalar → PyKey
  | .null => .null
  | .bool b => .num (if b then 1 else 0)
  | .int n => .num n
  | .float x => .num x
  | .str s => .str s

class FloatText where
  text : ℚ → String

def Scalar.keyText [FloatText] : Scalar → String
  | .null => "null"
  | .bool b => if b then "true" else "false"
  | .int n => toString n
  | .float x => FloatText.text x
  | .str s => s

/-- A dictionary with the key objects it was given. Setting a key that is there keeps its object. -/
abbrev PyDict := Dict PyKey (Scalar × Json)

namespace PyDict

def assign (k : Scalar) (v : Json) (d : PyDict) : PyDict :=
  d.set k.key (((d.get k.key).map Prod.fst).getD k, v)

def ofPairs (l : List (Scalar × Json)) : PyDict := l.foldl (fun d e => d.assign e.1 e.2) .empty

theorem get_assign (k : Scalar) (v : Json) (d : PyDict) (j : PyKey) :
    ((d.assign k v).get j).map Prod.snd =
      if j = k.key then some v else (d.get j).map Prod.snd := by
  rw [assign, Dict.get_set]
  split <;> rfl

theorem ofPairs_concat (l : List (Scalar × Json)) (e : Scalar × Json) :
    ofPairs (l ++ [e]) = (ofPairs l).assign e.1 e.2 := by
  simp [ofPairs]

/-- Pairs with distinct keys are what the dictionary holds, in their order. -/
theorem entries_ofPairs {l : List (Scalar × Json)} (h : (l.map (fun e => e.1.key)).Nodup) :
    (ofPairs l).entries = l.map (fun e => (e.1.key, e)) := by
  induction l using List.reverseRecOn with
  | nil => rfl
  | append_singleton l e ih =>
    rw [List.map_append, List.nodup_append] at h
    obtain ⟨hl, -, hne⟩ := h
    have hnew : e.1.key ∉ (ofPairs l).keys := by
      rw [Dict.keys, ih hl, List.map_map]
      intro he
      exact hne _ he _ (by simp) rfl
    rw [ofPairs_concat, assign, Dict.get_eq_none_iff.mpr hnew, Dict.entries_set_of_new hnew, ih hl]
    simp

end PyDict

namespace Json

def str (s : String) : Json := .scalar (.str s)

theorem bind_eq_ok_iff {α β ε : Type} {x : Except ε α} {f : α → Except ε β} {b : β} :
    x.bind f = .ok b ↔ ∃ a, x = .ok a ∧ f a = .ok b := by
  cases x <;> simp [Except.bind]

theorem map_eq_ok_iff {α β ε : Type} {x : Except ε α} {f : α → β} {b : β} :
    x.map f = .ok b ↔ ∃ a, x = .ok a ∧ f a = b := by
  cases x <;> simp [Except.map]

theorem mapM_eq_ok_iff {α β ε : Type} {f : α → Except ε β} {l : List α} {m : List β} :
    l.mapM f = .ok m ↔ List.Forall₂ (fun x y => f x = .ok y) l m := by
  induction l generalizing m with
  | nil =>
    rw [List.forall₂_nil_left_iff]
    exact ⟨fun h => (Except.ok.inj h).symm, fun h => congrArg Except.ok h.symm⟩
  | cons x l ih =>
    rw [List.mapM_cons, List.forall₂_cons_left_iff]
    cases hx : f x with
    | error e => simp [bind, Except.bind]
    | ok y =>
      cases hl : l.mapM f with
      | error e =>
        constructor
        · intro h
          cases h
        · rintro ⟨y', m', -, hrest, -⟩
          rw [ih.mpr hrest] at hl
          cases hl
      | ok m' =>
        have hrest := ih.mp hl
        constructor
        · intro h
          exact ⟨y, m', rfl, hrest, (Except.ok.inj h).symm⟩
        · rintro ⟨y', m'', hy, hm, rfl⟩
          obtain rfl := Except.ok.inj hy
          have hm' : m' = m'' := Except.ok.inj (hl.symm.trans (ih.mpr hm))
          rw [hm']
          rfl

theorem mapM_map_ok {α β γ ε : Type} {f : β → Except ε γ} {g : α → β} {h : α → γ} {l : List α}
    (hf : ∀ x ∈ l, f (g x) = .ok (h x)) : (l.map g).mapM f = .ok (l.map h) := by
  rw [mapM_eq_ok_iff, List.forall₂_map_left_iff, List.forall₂_map_right_iff, List.forall₂_same]
  exact hf

def iter : Json → Except PyError (List Json)
  | .scalar (.str s) => .ok (s.toList.map (fun c => .str (String.singleton c)))
  | .scalar _ => .error .typeError
  | .arr items => .ok items
  | .obj pairs => .ok ((Dict.ofList pairs).keys.map .str)

def asItem (x : Json) : Except PyError (Scalar × Json) :=
  match x.iter with
  | .ok [.scalar k, v] => .ok (k, v)
  | .ok [_, _] => .error .typeError
  | .ok _ => .error .valueError
  | .error e => .error e

def toDict : Json → Except PyError PyDict
  | .obj pairs => .ok (.ofPairs (pairs.map (fun e => (.str e.1, e.2))))
  | x => do
    let items ← x.iter
    let pairs ← items.mapM asItem
    return .ofPairs pairs

end Json

end TelafSim
