import TelafSim.Forest

/-!
# The hierarchical state machine engine

`Hsm::init` and `Hsm::dispatch` of `chart/hsm.hpp`, over an arbitrary chart. A state handler is
called with an event and the object it runs on; besides its `Status` it may have stored a state
into the scratch slot `temp_` by `to` or `super`. The implicit root `Hsm::top` is `none`: its
handler answers IGNORED and leaves `temp_` alone.

`log` records, in order, every call of a user handler with an event other than the empty one the
engine uses to ask for the super-state. The loops of the engine that are bounded only by the
shape of the chart carry a fuel argument; the ones bounded by `kMaxNest` do not need it.
-/

namespace TelafSim

inductive Status
  | handled
  | ignored
  | unhandled
  | needToTransfer
  | toSuper
  deriving DecidableEq, Repr

/-- The four system signals and the user events. -/
inductive Event (ε : Type*)
  | empty
  | entry
  | exit
  | init
  | user (e : ε)
  deriving DecidableEq, Repr

abbrev StateFn (S : Type*) := Option S

/-- What a handler leaves behind: its return value, the last state passed to `to` or `super`, if
any, and the object's own data. -/
structure Reply (S X : Type*) where
  status : Status
  temp : Option (StateFn S)
  ext : X

namespace Reply

variable {S X : Type*}

def toState (t : StateFn S) (x : X) : Reply S X := ⟨.needToTransfer, some t, x⟩

def super (p : StateFn S) (x : X) : Reply S X := ⟨.toSuper, some p, x⟩

def handled (x : X) : Reply S X := ⟨.handled, none, x⟩

def unhandled (x : X) : Reply S X := ⟨.unhandled, none, x⟩

end Reply

structure Chart (S ε X : Type*) where
  handler : S → Event ε → X → Reply S X

abbrev Action (S ε : Type*) := S × Event ε

structure Hsm (S ε X : Type*) where
  state : StateFn S
  temp : StateFn S
  lastIgnored : Bool
  ext : X
  log : List (Action S ε)

def kMaxNest : ℕ := 8

namespace Chart

variable {S ε X : Type*} [DecidableEq S] (C : Chart S ε X)

def record (s : S) : Event ε → List (Action S ε)
  | .empty => []
  | ev => [(s, ev)]

def call (h : Hsm S ε X) : StateFn S → Event ε → Status × Hsm S ε X
  | none, _ => (.ignored, h)
  | some s, ev =>
    let r := C.handler s ev h.ext
    (r.status, { h with temp := r.temp.getD h.temp, ext := r.ext, log := h.log ++ record s ev })

/-- EXIT of one state; when it was handled `temp_` was not touched, so the super-state is asked
for by hand. -/
def exitState (h : Hsm S ε X) (cur : StateFn S) : Hsm S ε X :=
  let (r, h) := C.call h cur .exit
  if r = .handled then (C.call h cur .empty).2 else h

def enterAll (h : Hsm S ε X) (states : List (StateFn S)) : Hsm S ε X :=
  states.foldl (fun h s => (C.call h s .entry).2) h

/-- The loop of `collect_lineage`, with `room` slots of `out` still free. -/
def lineageLoop : ℕ → StateFn S → List (StateFn S) → Hsm S ε X → List (StateFn S) × Hsm S ε X
  | room, cur, out, h =>
    if h.temp ≠ none ∧ h.temp ≠ cur then
      match room with
      | 0 => (out, h)
      | room + 1 => lineageLoop room h.temp (out ++ [h.temp]) (C.call h h.temp .empty).2
    else (out, h)

def collectLineage (h : Hsm S ε X) (start : StateFn S) : List (StateFn S) × Hsm S ε X :=
  let r := C.lineageLoop (kMaxNest - 1) start [start] (C.call { h with temp := start } start .empty).2
  (r.1, { r.2 with temp := h.temp })

/-- The inner loop of `init` and of the INIT recursion: the path from a new target up to `stop`,
which the two loops test for differently. -/
def pathLoop (stop : StateFn S → Bool) :
    ℕ → List (StateFn S) → Hsm S ε X → List (StateFn S) × Hsm S ε X
  | room, out, h =>
    if stop h.temp then (out, h)
    else match room with
      | 0 => (out, h)
      | room + 1 => pathLoop stop room (out ++ [h.temp]) (C.call h h.temp .empty).2

def pathUp (stop : StateFn S → Bool) (h : Hsm S ε X) (target : StateFn S) :
    List (StateFn S) × Hsm S ε X :=
  C.pathLoop stop (kMaxNest - 1) [target] (C.call h target .empty).2

/-- The outer loop of `init`: `t` is the state just entered, `temp_` the next target. -/
def initLoop : ℕ → StateFn S → Hsm S ε X → Option (Hsm S ε X)
  | 0, _, _ => none
  | n + 1, t, h =>
    let (path, h) := C.pathUp (fun q => q = t) h h.temp
    let h := C.enterAll h path.reverse
    let leaf := path.headD none
    let (r, h) := C.call { h with temp := leaf } leaf .init
    if r = .needToTransfer then initLoop n leaf h
    else some { h with state := leaf, temp := leaf }

def init (fuel : ℕ) (initial : StateFn S) (h : Hsm S ε X) : Option (Hsm S ε X) :=
  C.initLoop fuel none { h with state := none, temp := initial }

/-- Step 1 of `dispatch`: the handler that takes the event, its answer, and the object after. -/
def walkUp (e : ε) : ℕ → Hsm S ε X → Option (StateFn S × Status × Hsm S ε X)
  | 0, _ => none
  | n + 1, h =>
    let s := h.temp
    let (r, h) := C.call h s (.user e)
    match r with
    | .unhandled => walkUp e n (C.call h s .empty).2
    | .toSuper => walkUp e n h
    | r => some (s, r, h)

/-- Step 2a: EXIT from `cur` up to, but excluding, `s`. -/
def exitUpTo (s : StateFn S) : ℕ → StateFn S → Hsm S ε X → Option (Hsm S ε X)
  | n, cur, h =>
    if cur = s then some h
    else match n with
      | 0 => none
      | n + 1 => let h := C.exitState h cur; exitUpTo s n h.temp h

/-- Step 2c: EXIT from `cur` up to the first state on `tpath`, whose index is returned. -/
def exitToLca (tpath : List (StateFn S)) : ℕ → StateFn S → Hsm S ε X → Option (ℕ × Hsm S ε X)
  | n, cur, h =>
    if cur = none then some (tpath.length, h)
    else match tpath.findIdx? (· = cur) with
      | some i => some (i, h)
      | none => match n with
        | 0 => none
        | n + 1 => let h := C.exitState h cur; exitToLca tpath n h.temp h

/-- Step 3: INIT recursion from `cur`. -/
def drill : ℕ → StateFn S → Hsm S ε X → Option (StateFn S × Hsm S ε X)
  | 0, _, _ => none
  | n + 1, cur, h =>
    let (r, h) := C.call { h with temp := cur } cur .init
    if r = .needToTransfer then
      let target := h.temp
      let (npath, h) := C.pathUp (fun q => q = cur ∨ q = none) h target
      drill n target (C.enterAll h npath.reverse)
    else some (cur, h)

/-- Steps 2b to 2d, from the source `s` to the target just entered. A self-transition exits and
re-enters `s`. -/
def cross (fuel : ℕ) (s target : StateFn S) (h : Hsm S ε X) : Option (Hsm S ε X) :=
  if s = target then some (C.call (C.call h s .exit).2 target .entry).2
  else do
    let (tpath, h) := C.collectLineage h target
    let (lcaIdx, h) ← C.exitToLca tpath fuel s h
    some (C.enterAll h (tpath.take lcaIdx).reverse)

/-- Steps 2 and 3 of `dispatch`, from the source `s` to the target in `temp_`. -/
def transfer (fuel : ℕ) (s : StateFn S) (h : Hsm S ε X) : Option (Hsm S ε X) := do
  let target := h.temp
  let h ← C.exitUpTo s fuel h.state h
  let h ← C.cross fuel s target h
  let (leaf, h) ← C.drill fuel target h
  some { h with state := leaf, temp := leaf }

def dispatch (fuel : ℕ) (e : ε) (h : Hsm S ε X) : Option (Hsm S ε X) := do
  let (s, r, h) ← C.walkUp e fuel { h with lastIgnored := false, temp := h.state }
  if r = .needToTransfer then C.transfer fuel s h
  else some { h with temp := h.state, lastIgnored := r = .ignored }

theorem lineageLoop_stop {room : ℕ} {cur : StateFn S} {out : List (StateFn S)} {h : Hsm S ε X}
    (hs : h.temp = none ∨ h.temp = cur) : C.lineageLoop room cur out h = (out, h) := by
  have hn : ¬ (h.temp ≠ none ∧ h.temp ≠ cur) := by tauto
  cases room <;> rw [lineageLoop, if_neg hn]

omit [DecidableEq S] in
theorem pathLoop_stop {stop : StateFn S → Bool} {room : ℕ} {out : List (StateFn S)}
    {h : Hsm S ε X} (hs : stop h.temp = true) : C.pathLoop stop room out h = (out, h) := by
  cases room <;> rw [pathLoop, if_pos hs]

theorem exitUpTo_self (s : StateFn S) (n : ℕ) (h : Hsm S ε X) : C.exitUpTo s n s h = some h := by
  cases n <;> rw [exitUpTo, if_pos rfl]

theorem exitToLca_top (tpath : List (StateFn S)) (n : ℕ) (h : Hsm S ε X) :
    C.exitToLca tpath n none h = some (tpath.length, h) := by
  cases n <;> rw [exitToLca, if_pos rfl]

theorem exitToLca_found {tpath : List (StateFn S)} {n i : ℕ} {s : S} {h : Hsm S ε X}
    (hi : tpath.findIdx? (· = some s) = some i) :
    C.exitToLca tpath n (some s) h = some (i, h) := by
  cases n <;> rw [exitToLca, if_neg (by simp), hi]

end Chart
end TelafSim
