import Mathlib

/-!
# Pascal case

`to_pascal_case` of `schema_common.py`, which joins the alphanumeric runs of a name with a capital
at the head of each. A capital is all that is left of a boundary, and a digit has none: a run that
starts with a digit cannot be told from a continuation of the run before it. With such runs joined,
the result determines the lowered words of a name and is determined by them.
-/

namespace TelafSim.PascalCase

/-- `_SNAKE_TOKEN_RE.split(snake)`, less the empty strings. -/
def tokens (l : List Char) : List (List Char) :=
  (l.splitOnP (fun c => !c.isAlphanum)).filter (fun w => !w.isEmpty)

/-- `w.capitalize()` -/
def capitalize : List Char → List Char
  | [] => []
  | c :: rest => c.toUpper :: rest.map Char.toLower

def toPascalCase (snake : String) : String :=
  String.ofList ((tokens snake.toList).flatMap capitalize)

def startsWithLetter (w : List Char) : Bool := w.head?.any Char.isAlpha

/-- A run before the words that follow it. -/
def glue (run : List Char) : List (List Char) → List (List Char)
  | [] => [run]
  | w :: ws => if startsWithLetter w then run :: w :: ws else (run ++ w) :: ws

/-- The words of a name: lowered, and a run that starts with a digit belongs to the one before. -/
def words (l : List Char) : List (List Char) :=
  ((tokens l).map (fun run => run.map Char.toLower)).foldr glue []

/-- What the case and the boundaries of words can be read off. -/
structure Proper (ws : List (List Char)) : Prop where
  ne_nil : ∀ w ∈ ws, w ≠ []
  lowered : ∀ w ∈ ws, ∀ c ∈ w, c.isUpper = false
  letters : ∀ w ∈ ws.tail, startsWithLetter w = true

theorem ne_nil_of_mem_tokens {l run : List Char} (h : run ∈ tokens l) : run ≠ [] := by
  have hne : (!run.isEmpty) = true := (List.mem_filter.mp h).2
  simpa using hne

theorem capitalize_map_toLower (run : List Char) :
    capitalize (run.map Char.toLower) = capitalize run := by
  cases run <;> simp [capitalize]

theorem capitalize_append {run : List Char} (hne : run ≠ []) (w : List Char) :
    capitalize (run ++ w) = capitalize run ++ w.map Char.toLower := by
  obtain ⟨c, rest, rfl⟩ := List.exists_cons_of_ne_nil hne
  simp [capitalize]

theorem capitalize_of_not_startsWithLetter {w : List Char} (h : startsWithLetter w = false) :
    capitalize w = w.map Char.toLower := by
  cases w with
  | nil => rfl
  | cons c rest =>
    have halpha : c.isAlpha = false := by simpa [startsWithLetter] using h
    have hcase : c.isUpper = false ∧ c.isLower = false := by simpa [Char.isAlpha] using halpha
    have hupper : c.toUpper = c := Char.toUpper_eq_of_not_isLower (by simp [hcase.2])
    have hlower : c.toLower = c := Char.toLower_eq_of_not_isUpper (by simp [hcase.1])
    rw [capitalize, hupper, List.map_cons, hlower]

theorem flatMap_capitalize_glue {run : List Char} (hne : run ≠ []) (ws : List (List Char)) :
    (glue run ws).flatMap capitalize = capitalize run ++ ws.flatMap capitalize := by
  cases ws with
  | nil => simp [glue]
  | cons w ws =>
    by_cases hletter : startsWithLetter w = true
    · simp [glue, hletter]
    · have hw := capitalize_of_not_startsWithLetter (Bool.eq_false_iff.mpr hletter)
      simp [glue, hletter, capitalize_append hne, hw]

theorem Proper.tail {w : List Char} {ws : List (List Char)} (h : Proper (w :: ws)) : Proper ws where
  ne_nil w' hw' := h.ne_nil w' (List.mem_cons_of_mem w hw')
  lowered w' hw' := h.lowered w' (List.mem_cons_of_mem w hw')
  letters w' hw' := h.letters w' (List.mem_of_mem_tail hw')

theorem Proper.glue {ws : List (List Char)} (h : Proper ws) {run : List Char} (hne : run ≠ [])
    (hrun : ∀ c ∈ run, c.isUpper = false) : Proper (glue run ws) := by
  cases ws with
  | nil => exact ⟨by simp [PascalCase.glue, hne], by simpa [PascalCase.glue] using hrun,
      by simp [PascalCase.glue]⟩
  | cons w ws =>
    by_cases hletter : startsWithLetter w = true
    · have hglue : PascalCase.glue run (w :: ws) = run :: w :: ws := if_pos hletter
      rw [hglue]
      exact ⟨List.forall_mem_cons.mpr ⟨hne, h.ne_nil⟩,
        List.forall_mem_cons.mpr ⟨hrun, h.lowered⟩,
        List.forall_mem_cons.mpr ⟨hletter, h.letters⟩⟩
    · have hglue : PascalCase.glue run (w :: ws) = (run ++ w) :: ws := if_neg hletter
      have hlowered := List.forall_mem_cons.mp h.lowered
      rw [hglue]
      refine ⟨List.forall_mem_cons.mpr ⟨by simp [hne], fun w' hw' => ?_⟩,
        List.forall_mem_cons.mpr ⟨fun c hc => ?_, hlowered.2⟩, h.letters⟩
      · exact h.ne_nil w' (List.mem_cons_of_mem w hw')
      · exact (List.mem_append.mp hc).elim (hrun c) (hlowered.1 c)

theorem flatMap_capitalize_foldr {runs : List (List Char)} (hne : ∀ run ∈ runs, run ≠ []) :
    (runs.foldr glue []).flatMap capitalize = runs.flatMap capitalize := by
  induction runs with
  | nil => rfl
  | cons run runs ih =>
    have hrest := List.forall_mem_cons.mp hne
    rw [List.foldr_cons, flatMap_capitalize_glue hrest.1, ih hrest.2, List.flatMap_cons]

theorem proper_foldr {runs : List (List Char)} (hne : ∀ run ∈ runs, run ≠ [])
    (hlowered : ∀ run ∈ runs, ∀ c ∈ run, c.isUpper = false) : Proper (runs.foldr glue []) := by
  induction runs with
  | nil => exact ⟨by simp, by simp, by simp⟩
  | cons run runs ih =>
    have hrest := List.forall_mem_cons.mp hne
    have hlower := List.forall_mem_cons.mp hlowered
    exact (ih hrest.2 hlower.2).glue hrest.1 hlower.1

theorem proper_words (l : List Char) : Proper (words l) := by
  refine proper_foldr ?_ ?_
  · intro run hrun
    obtain ⟨run, hmem, rfl⟩ := List.mem_map.mp hrun
    simpa using ne_nil_of_mem_tokens hmem
  · intro run hrun c hc
    obtain ⟨run, -, rfl⟩ := List.mem_map.mp hrun
    obtain ⟨c, -, rfl⟩ := List.mem_map.mp hc
    exact Char.isUpper_toLower_eq_false c

theorem toPascalCase_eq (snake : String) :
    toPascalCase snake = String.ofList ((words snake.toList).flatMap capitalize) := by
  have hne : ∀ run ∈ (tokens snake.toList).map (fun run => run.map Char.toLower), run ≠ [] := by
    intro run hrun
    obtain ⟨run, hmem, rfl⟩ := List.mem_map.mp hrun
    simpa using ne_nil_of_mem_tokens hmem
  rw [toPascalCase, words, flatMap_capitalize_foldr hne, List.flatMap_map]
  simp only [capitalize_map_toLower]

theorem takeWhile_capitals {rest : List Char} (ws : List (List Char))
    (hrest : ∀ c ∈ rest, c.isUpper = false) (hws : ∀ w ∈ ws, startsWithLetter w = true) :
    (rest ++ ws.flatMap capitalize).takeWhile (fun c => !c.isUpper) = rest := by
  rw [List.takeWhile_append_of_pos (by simpa using hrest)]
  cases ws with
  | nil => simp
  | cons w ws =>
    have hw : startsWithLetter w = true := hws w List.mem_cons_self
    cases w with
    | nil => simp [startsWithLetter] at hw
    | cons c rest' =>
      have halpha : c.isAlpha = true := by simpa [startsWithLetter] using hw
      simp [capitalize, halpha]

theorem toUpper_injective {c c' : Char} (hc : c.isUpper = false) (hc' : c'.isUpper = false)
    (h : c.toUpper = c'.toUpper) : c = c' := by
  have hlower : c.toLower = c'.toLower := by
    simpa only [Char.toLower_toUpper_eq_toLower] using congrArg Char.toLower h
  rwa [Char.toLower_eq_of_not_isUpper (by simp [hc]),
    Char.toLower_eq_of_not_isUpper (by simp [hc'])] at hlower

theorem capitalize_of_lowered {c : Char} {rest : List Char}
    (hrest : ∀ d ∈ rest, d.isUpper = false) : capitalize (c :: rest) = c.toUpper :: rest := by
  have hid : rest.map Char.toLower = rest := by
    calc rest.map Char.toLower = rest.map id :=
          List.map_congr_left (fun d hd => Char.toLower_eq_of_not_isUpper (by simp [hrest d hd]))
      _ = rest := List.map_id rest
  rw [capitalize, hid]

theorem Proper.eq_of_flatMap_eq {ws ws' : List (List Char)} (h : Proper ws) (h' : Proper ws')
    (heq : ws.flatMap capitalize = ws'.flatMap capitalize) : ws = ws' := by
  -- the first word is read off; what follows it starts with a capital
  induction ws generalizing ws' with
  | nil =>
    cases ws' with
    | nil => rfl
    | cons w' ws' =>
      obtain ⟨c, rest, rfl⟩ := List.exists_cons_of_ne_nil (h'.ne_nil w' List.mem_cons_self)
      simp [capitalize] at heq
  | cons w ws ih =>
    obtain ⟨c, rest, rfl⟩ := List.exists_cons_of_ne_nil (h.ne_nil w List.mem_cons_self)
    cases ws' with
    | nil => simp [capitalize] at heq
    | cons w' ws' =>
      obtain ⟨c', rest', rfl⟩ := List.exists_cons_of_ne_nil (h'.ne_nil w' List.mem_cons_self)
      obtain ⟨hc, hrest⟩ := List.forall_mem_cons.mp (h.lowered _ List.mem_cons_self)
      obtain ⟨hc', hrest'⟩ := List.forall_mem_cons.mp (h'.lowered _ List.mem_cons_self)
      rw [List.flatMap_cons, List.flatMap_cons, capitalize_of_lowered hrest,
        capitalize_of_lowered hrest', List.cons_append, List.cons_append] at heq
      obtain ⟨hhead, htail⟩ := List.cons.inj heq
      obtain rfl : c = c' := toUpper_injective hc hc' hhead
      obtain rfl : rest = rest' := by
        have hread := congrArg (List.takeWhile (fun c => !c.isUpper)) htail
        rwa [takeWhile_capitals ws hrest h.letters,
          takeWhile_capitals ws' hrest' h'.letters] at hread
      rw [ih h.tail h'.tail (List.append_cancel_left htail)]

theorem toPascalCase_eq_iff {snake snake' : String} :
    toPascalCase snake = toPascalCase snake' ↔ words snake.toList = words snake'.toList := by
  rw [toPascalCase_eq, toPascalCase_eq, String.ofList_inj]
  constructor
  · intro h
    exact (proper_words _).eq_of_flatMap_eq (proper_words _) h
  · intro h
    rw [h]

/-! ## A name with a suffix -/

theorem glue_concat {w : List Char} (hw : startsWithLetter w = true) (run : List Char)
    (ws : List (List Char)) : glue run (ws ++ [w]) = glue run ws ++ [w] := by
  cases ws with
  | nil => simp [glue, hw]
  | cons w' ws =>
    by_cases hletter : startsWithLetter w' = true
    · simp [glue, hletter]
    · simp [glue, hletter]

theorem foldr_glue_concat {w : List Char} (hw : startsWithLetter w = true)
    (runs : List (List Char)) : (runs ++ [w]).foldr glue [] = runs.foldr glue [] ++ [w] := by
  induction runs with
  | nil => rfl
  | cons run runs ih => rw [List.cons_append, List.foldr_cons, ih, glue_concat hw, List.foldr_cons]

theorem tokens_append_cons {c : Char} (hc : c.isAlphanum = false) (l l' : List Char) :
    tokens (l ++ c :: l') = tokens l ++ tokens l' := by
  rw [tokens, List.splitOnP_append_cons _ _ (by simp [hc]), List.filter_append]
  rfl

/-- A suffix of lower-case letters after an underscore is a word of its own. -/
theorem words_suffix (l : List Char) {suffix : List Char} (hne : suffix ≠ [])
    (hlower : ∀ c ∈ suffix, c.isLower = true) :
    words (l ++ '_' :: suffix) = words l ++ [suffix] := by
  have hsuffix : tokens suffix = [suffix] := by
    have hsingle : suffix.splitOnP (fun c => !c.isAlphanum) = [suffix] := by
      refine List.splitOnP_eq_singleton (fun c hc => ?_)
      simp [Char.isAlphanum, Char.isAlpha, hlower c hc]
    simp [tokens, hsingle, hne]
  have hid : suffix.map Char.toLower = suffix := by
    calc suffix.map Char.toLower = suffix.map id :=
          List.map_congr_left (fun c hc => Char.toLower_eq_of_not_isUpper
            (fun hupper => Char.not_isLower_of_isUpper hupper (hlower c hc)))
      _ = suffix := List.map_id suffix
  have hletter : startsWithLetter suffix = true := by
    obtain ⟨c, rest, rfl⟩ := List.exists_cons_of_ne_nil hne
    simp [startsWithLetter, Char.isAlpha, hlower c List.mem_cons_self]
  rw [words, tokens_append_cons (by decide), hsuffix, List.map_append, List.map_singleton, hid,
    foldr_glue_concat hletter, words]

end TelafSim.PascalCase
