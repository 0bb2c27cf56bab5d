import TelafSim.Hsm

/-!
# The engine on its arrays

`Hsm::init` and `Hsm::dispatch` once more, with the fixed arrays `path`, `tpath` and `npath` and the
integers that index them. An access out of bounds has no result, and neither has a loop that is not
left within its fuel; `CHART_ASSERT` does nothing. With fuel for the bounded loops this is the engine
over lists, for any chart: none of its accesses is out of bounds.
-/

namespace TelafSim

abbrev Slots (S : Type) := Fin kMaxNest → StateFn S

namespace Slots

variable {S : Type}

def load (a : Slots S) (i : ℤ) : Option (StateFn S) :=
  if h : 0 ≤ i ∧ i.toNat < kMaxNest then some (a ⟨i.toNat, h.2⟩) else none

def store (a : Slots S) (i : ℤ) (q : StateFn S) : Option (Slots S) :=
  if h : 0 ≤ i ∧ i.toNat < kMaxNest then some (Function.update a ⟨i.toNat, h.2⟩ q) else none

end Slots

namespace Chart

variable {S ε X : Type} [DecidableEq S] (C : Chart S ε X)

def scanLineage : ℕ → ℤ → StateFn S → Slots S → Hsm S ε X → Option (ℤ × Slots S × Hsm S ε X)
  | 0, _, _, _, _ => none
  | f + 1, n, cur, out, h =>
    if h.temp ≠ none ∧ h.temp ≠ cur then
      let cur := h.temp
      if kMaxNest ≤ n then some (n, out, h)
      else do
        let out ← out.store n cur
        scanLineage f (n + 1) cur out (C.call h cur .empty).2
    else some (n, out, h)

def collectLineageIndexed (fuel : ℕ) (h : Hsm S ε X) (start : StateFn S) (out : Slots S) :
    Option (ℤ × Slots S × Hsm S ε X) := do
  let out ← out.store 0 start
  let (n, out, h') ← C.scanLineage fuel 1 start out (C.call { h with temp := start } start .empty).2
  some (n, out, { h' with temp := h.temp })

/-- The inner loop of `init`, which records the path in `path[1..]`. -/
def scanPath (t : StateFn S) : ℕ → ℤ → Slots S → Hsm S ε X → Option (ℤ × Slots S × Hsm S ε X)
  | 0, _, _, _ => none
  | f + 1, ip, path, h =>
    if h.temp = t then some (ip, path, h)
    else if kMaxNest ≤ ip + 1 then some (ip, path, h)
    else do
      let path ← path.store (ip + 1) h.temp
      scanPath t f (ip + 1) path (C.call h h.temp .empty).2

/-- The path up to a state at which `stop` holds; `np` is the next free slot. -/
def scanUp (stop : StateFn S → Bool) :
    ℕ → ℤ → Slots S → Hsm S ε X → Option (ℤ × Slots S × Hsm S ε X)
  | 0, _, _, _ => none
  | f + 1, np, npath, h =>
    if stop h.temp then some (np, npath, h)
    else if kMaxNest ≤ np then some (np, npath, h)
    else do
      let npath ← npath.store np h.temp
      scanUp stop f (np + 1) npath (C.call h h.temp .empty).2

def scanDrill (cur : StateFn S) (f : ℕ) (np : ℤ) (npath : Slots S) (h : Hsm S ε X) :
    Option (ℤ × Slots S × Hsm S ε X) :=
  C.scanUp (fun q => q = cur ∨ q = none) f np npath h

/-- `do { path[ip](this, &entry); } while (--ip >= 0);` -/
def enterDown (path : Slots S) : ℕ → ℤ → Hsm S ε X → Option (Hsm S ε X)
  | 0, _, _ => none
  | f + 1, ip, h => do
    let s ← path.load ip
    let h := (C.call h s .entry).2
    if 0 ≤ ip - 1 then enterDown path f (ip - 1) h else some h

/-- `for (int i = start; i >= 0; --i) { path[i](this, &entry); }` -/
def enterFrom (path : Slots S) : ℕ → ℤ → Hsm S ε X → Option (Hsm S ε X)
  | 0, _, _ => none
  | f + 1, i, h =>
    if 0 ≤ i then do
      let s ← path.load i
      enterFrom path f (i - 1) (C.call h s .entry).2
    else some h

def initLoopIndexed (fuel : ℕ) : ℕ → Slots S → StateFn S → Hsm S ε X → Option (Hsm S ε X)
  | 0, _, _, _ => none
  | n + 1, path, t, h => do
    let path ← path.store 0 h.temp
    let cur ← path.load 0
    let (ip, path, h) ← C.scanPath t fuel 0 path (C.call h cur .empty).2
    let h ← C.enterDown path fuel ip h
    let t ← path.load 0
    let (r, h) := C.call { h with temp := t } t .init
    if r = .needToTransfer then initLoopIndexed fuel n path t h
    else some { h with state := t, temp := t }

/-- `path` is what the stack holds at first. -/
def initIndexed (fuel : ℕ) (path : Slots S) (initial : StateFn S) (h : Hsm S ε X) :
    Option (Hsm S ε X) :=
  C.initLoopIndexed fuel fuel path none { h with state := none, temp := initial }

/-- `for (int i = 0; i < tn; ++i)` over `tpath`: the index of `cur`, or -1. -/
def findSlot (tpath : Slots S) (cur : StateFn S) (tn : ℤ) : ℕ → ℤ → Option ℤ
  | 0, _ => none
  | f + 1, i =>
    if i < tn then do
      let s ← tpath.load i
      if s = cur then some i else findSlot tpath cur tn f (i + 1)
    else some (-1)

/-- Step 2c of `dispatch`. -/
def exitToLcaIndexed (fuel : ℕ) (tpath : Slots S) (tn : ℤ) :
    ℕ → StateFn S → Hsm S ε X → Option (ℤ × Hsm S ε X)
  | n, cur, h =>
    if cur = none then some (-1, h)
    else do
      let lcaIdx ← findSlot tpath cur tn fuel 0
      if 0 ≤ lcaIdx then some (lcaIdx, h)
      else match n with
        | 0 => none
        | n + 1 => let h := C.exitState h cur; exitToLcaIndexed fuel tpath tn n h.temp h

/-- Steps 2b to 2d. -/
def crossIndexed (fuel : ℕ) (tpath : Slots S) (s target : StateFn S) (h : Hsm S ε X) :
    Option (Hsm S ε X) :=
  if s = target then some (C.call (C.call h s .exit).2 target .entry).2
  else do
    let (tn, tpath, h) ← C.collectLineageIndexed fuel h target tpath
    let (lcaIdx, h) ← C.exitToLcaIndexed fuel tpath tn fuel s h
    let lcaIdx := if lcaIdx < 0 then tn else lcaIdx
    let start := if lcaIdx = tn then tn - 1 else lcaIdx - 1
    C.enterFrom tpath fuel start h

/-- Step 3. -/
def drillIndexed (fuel : ℕ) (npath : Slots S) :
    ℕ → StateFn S → Hsm S ε X → Option (StateFn S × Hsm S ε X)
  | 0, _, _ => none
  | n + 1, cur, h =>
    let (r, h) := C.call { h with temp := cur } cur .init
    if r = .needToTransfer then do
      let target := h.temp
      let npath' ← npath.store 0 target
      let (np, npath', h) ← C.scanDrill cur fuel 1 npath' (C.call h target .empty).2
      let h ← C.enterFrom npath' fuel (np - 1) h
      drillIndexed fuel npath n target h
    else some (cur, h)

/-- `tpath` and `npath` are what the stack holds at first. -/
def transferIndexed (fuel : ℕ) (tpath npath : Slots S) (s : StateFn S) (h : Hsm S ε X) :
    Option (Hsm S ε X) := do
  let target := h.temp
  let h ← C.exitUpTo s fuel h.state h
  let h ← C.crossIndexed fuel tpath s target h
  let (leaf, h) ← C.drillIndexed fuel npath fuel target h
  some { h with state := leaf, temp := leaf }

def dispatchIndexed (fuel : ℕ) (tpath npath : Slots S) (e : ε) (h : Hsm S ε X) :
    Option (Hsm S ε X) := do
  let (s, r, h) ← C.walkUp e fuel { h with lastIgnored := false, temp := h.state }
  if r = .needToTransfer then C.transferIndexed fuel tpath npath s h
  else some { h with temp := h.state, lastIgnored := r = .ignored }

end Chart

/-! ### Arrays that hold a list -/

namespace Slots

variable {S : Type} {a : Slots S} {l : List (StateFn S)}

structure Holds (a : Slots S) (l : List (StateFn S)) : Prop where
  length_le : l.length ≤ kMaxNest
  get : ∀ (i : Fin kMaxNest) (hi : i < l.length), a i = l[i]

theorem holds_nil (a : Slots S) : a.Holds [] :=
  ⟨Nat.zero_le _, fun _ hi => absurd hi (Nat.not_lt_zero _)⟩

theorem Holds.load (h : a.Holds l) {i : ℕ} (hi : i < l.length) : a.load i = some l[i] := by
  have hbound : (0 : ℤ) ≤ i ∧ (i : ℤ).toNat < kMaxNest :=
    ⟨Int.natCast_nonneg i, lt_of_lt_of_le hi h.length_le⟩
  rw [Slots.load, dif_pos hbound]
  exact congrArg some (h.get ⟨i, hbound.2⟩ hi)

theorem Holds.store (h : a.Holds l) (hroom : l.length < kMaxNest) (q : StateFn S) :
    ∃ a', a.store l.length q = some a' ∧ a'.Holds (l ++ [q]) := by
  have hbound : (0 : ℤ) ≤ l.length ∧ (l.length : ℤ).toNat < kMaxNest :=
    ⟨Int.natCast_nonneg _, hroom⟩
  refine ⟨Function.update a ⟨l.length, hroom⟩ q, by rw [Slots.store, dif_pos hbound]; rfl, ?_, ?_⟩
  · rw [List.length_append]
    exact hroom
  · intro i hi
    by_cases hlast : (i : ℕ) = l.length
    · obtain rfl : i = ⟨l.length, hroom⟩ := Fin.ext hlast
      simp
    · have hlt : (i : ℕ) < l.length := by
        rw [List.length_append, List.length_singleton] at hi
        omega
      have hne : i ≠ ⟨l.length, hroom⟩ := fun heq => hlast (congrArg Fin.val heq)
      rw [Function.update_of_ne hne, h.get i hlt]
      exact (List.getElem_append_left hlt).symm

end Slots

/-! ### The two engines agree -/

namespace Chart

variable {S ε X : Type} [DecidableEq S] (C : Chart S ε X) {path : Slots S}
  {out l : List (StateFn S)} {h : Hsm S ε X}

theorem scanLineage_eq (room f : ℕ) (cur : StateFn S) (hout : path.Holds out)
    (hroom : out.length + room = kMaxNest) (hf : room < f) {r : List (StateFn S) × Hsm S ε X}
    (hr : C.lineageLoop room cur out h = r) :
    ∃ path', C.scanLineage f out.length cur path h = some ((r.1.length : ℤ), path', r.2) ∧
      path'.Holds r.1 := by
  induction room generalizing f cur path out h with
  | zero =>
    obtain ⟨f, rfl⟩ := Nat.exists_eq_succ_of_ne_zero (Nat.pos_iff_ne_zero.mp hf)
    have hfull : (kMaxNest : ℤ) ≤ (out.length : ℤ) := by
      exact_mod_cast (Nat.add_zero out.length ▸ hroom).ge
    have hr' : (out, h) = r := by
      rw [lineageLoop] at hr
      split at hr <;> exact hr
    subst hr'
    refine ⟨path, ?_, hout⟩
    simp only [scanLineage, hfull, if_true, ite_self]
  | succ room ih =>
    obtain ⟨f, rfl⟩ := Nat.exists_eq_succ_of_ne_zero (Nat.pos_iff_ne_zero.mp (by omega : 0 < f))
    have hfree : ¬ (kMaxNest : ℤ) ≤ (out.length : ℤ) := by
      have hlt : out.length < kMaxNest := by omega
      exact_mod_cast not_le.mpr hlt
    rw [lineageLoop] at hr
    by_cases htemp : h.temp ≠ none ∧ h.temp ≠ cur
    · rw [if_pos htemp] at hr
      obtain ⟨path', hstore, hout'⟩ := hout.store (by omega) h.temp
      obtain ⟨path'', hscan, hholds⟩ := ih f h.temp hout'
        (by rw [List.length_append, List.length_singleton]; omega) (by omega) hr
      refine ⟨path'', ?_, hholds⟩
      rw [List.length_append, List.length_singleton] at hscan
      push_cast at hscan
      rw [scanLineage, if_pos htemp]
      simp only [hfree, if_false, hstore, Option.bind_eq_bind, Option.bind_some]
      exact hscan
    · rw [if_neg htemp] at hr
      subst hr
      refine ⟨path, ?_, hout⟩
      rw [scanLineage, if_neg htemp]

theorem collectLineageIndexed_eq {fuel : ℕ} (hfuel : kMaxNest < fuel) (path : Slots S)
    (h : Hsm S ε X) (start : StateFn S) {r : List (StateFn S) × Hsm S ε X}
    (hr : C.collectLineage h start = r) :
    ∃ path', C.collectLineageIndexed fuel h start path = some ((r.1.length : ℤ), path', r.2) ∧
      path'.Holds r.1 := by
  obtain ⟨path', hstore, hholds⟩ := (Slots.holds_nil path).store (by simp [kMaxNest]) start
  obtain ⟨path'', hscan, hholds'⟩ := C.scanLineage_eq (kMaxNest - 1) fuel start hholds rfl
    (by omega) (h := (C.call { h with temp := start } start .empty).2) rfl
  subst hr
  refine ⟨path'', ?_, hholds'⟩
  have hzero : path.store 0 start = some path' := hstore
  have hone : C.scanLineage fuel 1 start path' (C.call { h with temp := start } start .empty).2 = _ :=
    hscan
  simp only [collectLineageIndexed, hzero, hone, Option.bind_eq_bind, Option.bind_some]
  rfl

omit [DecidableEq S] in
theorem scanUp_eq (stop : StateFn S → Bool) (room f : ℕ) (hout : path.Holds out)
    (hroom : out.length + room = kMaxNest) (hf : room < f) {r : List (StateFn S) × Hsm S ε X}
    (hr : C.pathLoop stop room out h = r) :
    ∃ path', C.scanUp stop f out.length path h = some ((r.1.length : ℤ), path', r.2) ∧
      path'.Holds r.1 := by
  induction room generalizing f path out h with
  | zero =>
    obtain ⟨f, rfl⟩ := Nat.exists_eq_succ_of_ne_zero (Nat.pos_iff_ne_zero.mp hf)
    have hfull : (kMaxNest : ℤ) ≤ (out.length : ℤ) := by
      exact_mod_cast (Nat.add_zero out.length ▸ hroom).ge
    have hr' : (out, h) = r := by
      rw [pathLoop] at hr
      split at hr <;> exact hr
    subst hr'
    refine ⟨path, ?_, hout⟩
    simp only [scanUp, hfull, if_true, ite_self]
  | succ room ih =>
    obtain ⟨f, rfl⟩ := Nat.exists_eq_succ_of_ne_zero (Nat.pos_iff_ne_zero.mp (by omega : 0 < f))
    have hfree : ¬ (kMaxNest : ℤ) ≤ (out.length : ℤ) := by
      have hlt : out.length < kMaxNest := by omega
      exact_mod_cast not_le.mpr hlt
    rw [pathLoop] at hr
    by_cases hstop : stop h.temp = true
    · rw [if_pos hstop] at hr
      subst hr
      refine ⟨path, ?_, hout⟩
      rw [scanUp, if_pos hstop]
    · rw [if_neg hstop] at hr
      obtain ⟨path', hstore, hout'⟩ := hout.store (by omega) h.temp
      obtain ⟨path'', hscan, hholds⟩ := ih f hout'
        (by rw [List.length_append, List.length_singleton]; omega) (by omega) hr
      refine ⟨path'', ?_, hholds⟩
      rw [List.length_append, List.length_singleton] at hscan
      push_cast at hscan
      rw [scanUp, if_neg hstop, if_neg hfree]
      simp only [hstore, Option.bind_eq_bind, Option.bind_some]
      exact hscan

theorem scanPath_eq (t : StateFn S) (f : ℕ) (ip : ℤ) (path : Slots S) (h : Hsm S ε X) :
    C.scanPath t f ip path h =
      (C.scanUp (fun q => q = t) f (ip + 1) path h).map (fun r => (r.1 - 1, r.2)) := by
  induction f generalizing ip path h with
  | zero => rfl
  | succ f ih =>
    rw [scanPath, scanUp]
    by_cases ht : h.temp = t
    · simp [ht]
    · by_cases hfull : (kMaxNest : ℤ) ≤ ip + 1
      · simp [ht, hfull]
      · simp only [ht, hfull, if_false, decide_false, Bool.false_eq_true, ih, Option.bind_eq_bind,
          Option.map_bind]
        rfl

omit [DecidableEq S] in
theorem prefix_pathLoop (stop : StateFn S → Bool) (room : ℕ) (out : List (StateFn S))
    (h : Hsm S ε X) : out <+: (C.pathLoop stop room out h).1 := by
  induction room generalizing out h with
  | zero =>
    rw [pathLoop]
    split <;> exact List.prefix_rfl
  | succ room ih =>
    rw [pathLoop]
    split
    · exact List.prefix_rfl
    · exact (List.prefix_append out [h.temp]).trans (ih _ _)

omit [DecidableEq S] in
theorem pathUp_ne_nil (stop : StateFn S → Bool) (h : Hsm S ε X) (target : StateFn S) :
    ∃ rest, (C.pathUp stop h target).1 = target :: rest := by
  obtain ⟨rest, hrest⟩ := C.prefix_pathLoop stop (kMaxNest - 1) [target] (C.call h target .empty).2
  exact ⟨rest, hrest.symm⟩

omit [DecidableEq S] in
theorem scanUp_pathUp (stop : StateFn S → Bool) {fuel : ℕ} (hfuel : kMaxNest < fuel)
    (path : Slots S) (target : StateFn S) (h : Hsm S ε X) :
    ∃ path' path'', path.store 0 target = some path' ∧ path'.load 0 = some target ∧
      C.scanUp stop fuel 1 path' (C.call h target .empty).2 =
        some (((C.pathUp stop h target).1.length : ℤ), path'', (C.pathUp stop h target).2) ∧
      path''.Holds (C.pathUp stop h target).1 := by
  obtain ⟨path', hstore, hholds⟩ := (Slots.holds_nil path).store (by simp [kMaxNest]) target
  obtain ⟨path'', hscan, hholds'⟩ := C.scanUp_eq stop (kMaxNest - 1) fuel hholds rfl (by omega)
    (h := (C.call h target .empty).2) rfl
  exact ⟨path', path'', hstore, hholds.load (by simp), hscan, hholds'⟩

omit [DecidableEq S] in
theorem enterAll_cons (h : Hsm S ε X) (states : List (StateFn S)) (q : StateFn S) :
    C.enterAll h (q :: states) = C.enterAll (C.call h q .entry).2 states := rfl

omit [DecidableEq S] in
/-- The states of the first slots are entered from the last one down. -/
theorem enterFrom_eq (hl : path.Holds l) (m f : ℕ) (h : Hsm S ε X) (hm : m ≤ l.length)
    (hf : m < f) : C.enterFrom path f ((m : ℤ) - 1) h = some (C.enterAll h (l.take m).reverse) := by
  induction m generalizing f h with
  | zero =>
    obtain ⟨f, rfl⟩ := Nat.exists_eq_succ_of_ne_zero (Nat.pos_iff_ne_zero.mp hf)
    rw [enterFrom, if_neg (by simp)]
    rfl
  | succ m ih =>
    obtain ⟨f, rfl⟩ := Nat.exists_eq_succ_of_ne_zero (Nat.pos_iff_ne_zero.mp (by omega : 0 < f))
    have hload : path.load (m : ℤ) = some l[m] := hl.load hm
    have htake : (l.take (m + 1)).reverse = l[m] :: (l.take m).reverse := by
      rw [List.take_succ_eq_append_getElem hm, List.reverse_append]
      rfl
    have hindex : ((m + 1 : ℕ) : ℤ) - 1 = m := by push_cast; ring
    rw [hindex, enterFrom, if_pos (Int.natCast_nonneg m)]
    simp only [hload, Option.bind_eq_bind, Option.bind_some]
    rw [ih f (C.call h l[m] .entry).2 (by omega) (by omega), htake, enterAll_cons]

omit [DecidableEq S] in
theorem enterDown_eq (hl : path.Holds l) (m f : ℕ) (h : Hsm S ε X) (hm : m < l.length)
    (hf : m < f) : C.enterDown path f m h = some (C.enterAll h (l.take (m + 1)).reverse) := by
  induction m generalizing f h with
  | zero =>
    obtain ⟨f, rfl⟩ := Nat.exists_eq_succ_of_ne_zero (Nat.pos_iff_ne_zero.mp hf)
    have hload : path.load ((0 : ℕ) : ℤ) = some l[0] := hl.load hm
    have htake : (l.take 1).reverse = [l[0]] := by
      rw [List.take_succ_eq_append_getElem hm]
      rfl
    rw [enterDown]
    simp only [hload, Option.bind_eq_bind, Option.bind_some]
    rw [if_neg (by simp), htake]
    rfl
  | succ m ih =>
    obtain ⟨f, rfl⟩ := Nat.exists_eq_succ_of_ne_zero (Nat.pos_iff_ne_zero.mp (by omega : 0 < f))
    have hload : path.load ((m + 1 : ℕ) : ℤ) = some l[m + 1] := hl.load hm
    have htake : (l.take (m + 1 + 1)).reverse = l[m + 1] :: (l.take (m + 1)).reverse := by
      rw [List.take_succ_eq_append_getElem hm, List.reverse_append]
      rfl
    have hindex : ((m + 1 : ℕ) : ℤ) - 1 = m := by push_cast; ring
    rw [enterDown]
    simp only [hload, Option.bind_eq_bind, Option.bind_some]
    rw [hindex, if_pos (Int.natCast_nonneg m),
      ih f (C.call h l[m + 1] .entry).2 (by omega) (by omega), htake, enterAll_cons]

def slotIndex (l : List (StateFn S)) (cur : StateFn S) : ℤ :=
  match l.findIdx? (· = cur) with
  | some i => i
  | none => -1

theorem findSlot_eq (hl : path.Holds l) (cur : StateFn S) (i f : ℕ) (hi : i ≤ l.length)
    (hf : l.length - i < f) (hbefore : ∀ j (hj : j < l.length), j < i → l[j] ≠ cur) :
    findSlot path cur l.length f i = some (slotIndex l cur) := by
  induction f generalizing i with
  | zero => omega
  | succ f ih =>
    rw [findSlot]
    by_cases hlt : i < l.length
    · rw [if_pos (by exact_mod_cast hlt)]
      simp only [hl.load hlt, Option.bind_eq_bind, Option.bind_some]
      by_cases hcur : l[i] = cur
      · have hfound : l.findIdx? (· = cur) = some i := by
          rw [List.findIdx?_eq_some_iff_getElem]
          refine ⟨hlt, by simpa using hcur, ?_⟩
          intro j hj
          simpa using hbefore j (by omega) hj
        rw [if_pos hcur, slotIndex, hfound]
      · rw [if_neg hcur]
        refine ih (i + 1) hlt (by omega) ?_
        intro j hj hji
        by_cases hlast : j = i
        · subst hlast
          exact hcur
        · exact hbefore j hj (by omega)
    · have hnone : l.findIdx? (· = cur) = none := by
        rw [List.findIdx?_eq_none_iff]
        intro q hq
        obtain ⟨j, hj, rfl⟩ := List.getElem_of_mem hq
        simpa using hbefore j hj (by omega)
      rw [if_neg (by exact_mod_cast hlt), slotIndex, hnone]

/-- What `lca_idx` is when the search ends. -/
def lcaIndex (l : List (StateFn S)) (i : ℕ) : ℤ := if i < l.length then i else -1

theorem exitToLcaIndexed_eq {fuel : ℕ} (hfuel : kMaxNest < fuel) (hl : path.Holds l) (n : ℕ)
    (cur : StateFn S) (h : Hsm S ε X) : C.exitToLcaIndexed fuel path l.length n cur h =
      (C.exitToLca l n cur h).map (fun r => (lcaIndex l r.1, r.2)) := by
  induction n generalizing cur h with
  | zero =>
    rw [exitToLcaIndexed, exitToLca]
    have hslot : findSlot path cur l.length fuel 0 = some (slotIndex l cur) :=
      findSlot_eq hl cur 0 fuel (Nat.zero_le _) (by have := hl.length_le; omega) (by simp)
    by_cases hcur : cur = none
    · simp [hcur, lcaIndex]
    · simp only [hcur, if_false, hslot, Option.bind_eq_bind, Option.bind_some, slotIndex]
      cases hidx : l.findIdx? (· = cur) with
      | none => simp
      | some i =>
        have hlt : i < l.length := (List.findIdx?_eq_some_iff_getElem.mp hidx).1
        simp [lcaIndex, hlt]
  | succ n ih =>
    rw [exitToLcaIndexed, exitToLca]
    have hslot : findSlot path cur l.length fuel 0 = some (slotIndex l cur) :=
      findSlot_eq hl cur 0 fuel (Nat.zero_le _) (by have := hl.length_le; omega) (by simp)
    by_cases hcur : cur = none
    · simp [hcur, lcaIndex]
    · simp only [hcur, if_false, hslot, Option.bind_eq_bind, Option.bind_some, slotIndex]
      cases hidx : l.findIdx? (· = cur) with
      | none => simp [ih]
      | some i =>
        have hlt : i < l.length := (List.findIdx?_eq_some_iff_getElem.mp hidx).1
        simp [lcaIndex, hlt]

theorem exitToLca_le {n : ℕ} {cur : StateFn S} {r : ℕ × Hsm S ε X}
    (hr : C.exitToLca l n cur h = some r) : r.1 ≤ l.length := by
  induction n generalizing cur h with
  | zero =>
    rw [exitToLca] at hr
    split at hr
    · obtain rfl := Option.some.inj hr
      exact le_rfl
    · split at hr
      · rename_i i hidx
        obtain rfl := Option.some.inj hr
        exact (List.findIdx?_eq_some_iff_getElem.mp hidx).1.le
      · cases hr
  | succ n ih =>
    rw [exitToLca] at hr
    split at hr
    · obtain rfl := Option.some.inj hr
      exact le_rfl
    · split at hr
      · rename_i i hidx
        obtain rfl := Option.some.inj hr
        exact (List.findIdx?_eq_some_iff_getElem.mp hidx).1.le
      · exact ih hr

omit [DecidableEq S] in
theorem start_eq (l : List (StateFn S)) {i : ℕ} (hi : i ≤ l.length) :
    (let lcaIdx := if lcaIndex l i < 0 then (l.length : ℤ) else lcaIndex l i
      if lcaIdx = l.length then (l.length : ℤ) - 1 else lcaIdx - 1) = (i : ℤ) - 1 := by
  unfold lcaIndex
  dsimp only
  split_ifs <;> omega

theorem crossIndexed_eq {fuel : ℕ} (hfuel : kMaxNest < fuel) (path : Slots S)
    (s target : StateFn S) (h : Hsm S ε X) :
    C.crossIndexed fuel path s target h = C.cross fuel s target h := by
  rw [crossIndexed, cross]
  split
  · rfl
  · obtain ⟨path', hcollect, hholds⟩ := C.collectLineageIndexed_eq hfuel path h target rfl
    simp only [hcollect, Option.bind_eq_bind, Option.bind_some,
      C.exitToLcaIndexed_eq hfuel hholds]
    cases hexit : C.exitToLca (C.collectLineage h target).1 fuel s (C.collectLineage h target).2 with
    | none => rfl
    | some r =>
      have hle := C.exitToLca_le hexit
      simp only [Option.map_some, Option.bind_some]
      rw [start_eq _ hle, C.enterFrom_eq hholds r.1 fuel r.2 hle
        (by have := hholds.length_le; omega)]

theorem drillIndexed_eq {fuel : ℕ} (hfuel : kMaxNest < fuel) (path : Slots S) (n : ℕ)
    (cur : StateFn S) (h : Hsm S ε X) :
    C.drillIndexed fuel path n cur h = C.drill n cur h := by
  induction n generalizing cur h with
  | zero => rfl
  | succ n ih =>
    rw [drillIndexed, drill]
    dsimp only
    split
    · obtain ⟨path', path'', hstore, -, hscan, hholds⟩ :=
        C.scanUp_pathUp (fun q => q = cur ∨ q = none) hfuel path
          (C.call { h with temp := cur } cur .init).2.temp (C.call { h with temp := cur } cur .init).2
      have hle := hholds.length_le
      simp only [hstore, scanDrill, hscan, Option.bind_eq_bind, Option.bind_some]
      rw [C.enterFrom_eq hholds _ fuel _ le_rfl (by omega), List.take_length, Option.bind_some, ih]
    · rfl

theorem transferIndexed_eq {fuel : ℕ} (hfuel : kMaxNest < fuel) (tpath npath : Slots S)
    (s : StateFn S) (h : Hsm S ε X) :
    C.transferIndexed fuel tpath npath s h = C.transfer fuel s h := by
  unfold transferIndexed transfer
  simp only [C.crossIndexed_eq hfuel, C.drillIndexed_eq hfuel]

theorem dispatchIndexed_eq {fuel : ℕ} (hfuel : kMaxNest < fuel) (tpath npath : Slots S) (e : ε)
    (h : Hsm S ε X) : C.dispatchIndexed fuel tpath npath e h = C.dispatch fuel e h := by
  unfold dispatchIndexed dispatch
  simp only [C.transferIndexed_eq hfuel]

theorem initLoopIndexed_eq {fuel : ℕ} (hfuel : kMaxNest < fuel) (n : ℕ) (path : Slots S)
    (t : StateFn S) (h : Hsm S ε X) :
    C.initLoopIndexed fuel n path t h = C.initLoop n t h := by
  induction n generalizing path t h with
  | zero => rfl
  | succ n ih =>
    obtain ⟨path', path'', hstore, hload, hscan, hholds⟩ :=
      C.scanUp_pathUp (fun q => q = t) hfuel path h.temp h
    obtain ⟨rest, hrest⟩ := C.pathUp_ne_nil (fun q => q = t) h h.temp
    have hlen : (C.pathUp (fun q => q = t) h h.temp).1.length = rest.length + 1 := by
      rw [hrest, List.length_cons]
    have hle := hholds.length_le
    have hpath : C.scanPath t fuel 0 path' (C.call h h.temp .empty).2 =
        some ((rest.length : ℤ), path'', (C.pathUp (fun q => q = t) h h.temp).2) := by
      rw [scanPath_eq, zero_add, hscan, Option.map_some, hlen]
      simp
    have henter := C.enterDown_eq hholds rest.length fuel
      (C.pathUp (fun q => q = t) h h.temp).2 (by omega) (by omega)
    rw [← hlen, List.take_length] at henter
    have hfirst : path''.load 0 = some h.temp := by
      have h0 := hholds.load (i := 0) (by omega)
      simpa [hrest] using h0
    rw [initLoopIndexed, initLoop]
    simp only [hstore, hload, hpath, henter, hfirst, Option.bind_eq_bind, Option.bind_some, ih,
      hrest, List.headD_cons]

theorem initIndexed_eq {fuel : ℕ} (hfuel : kMaxNest < fuel) (path : Slots S) (initial : StateFn S)
    (h : Hsm S ε X) : C.initIndexed fuel path initial h = C.init fuel initial h :=
  C.initLoopIndexed_eq hfuel fuel path none _

end Chart

end TelafSim
