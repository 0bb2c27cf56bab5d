import TelafSim.HsmDispatch
import TelafSim.Trace

/-!
# Entry and exit balance over whole runs

The ENTRY and EXIT calls of `Hsm::init` and of every dispatch move along single edges of the
chart's forest, from the state before to the state after. Chained over a run they form one walk
from the implicit root to the current state, so a state has been entered once more than it was
left exactly when it is on the current path.
-/

namespace TelafSim

namespace WellFormedChart

variable {S ε X : Type*} (W : WellFormedChart S ε X)

def move : Action S ε → Option (Forest.Move S)
  | (s, .entry) => some (.enter s)
  | (s, .exit) => some (.leave s)
  | _ => none

def moves (acts : List (Action S ε)) : List (Forest.Move S) := acts.filterMap move

@[simp] theorem moves_append (as bs : List (Action S ε)) :
    moves (as ++ bs) = moves as ++ moves bs := by
  simp [moves]

@[simp] theorem moves_entry (l : List S) :
    moves (l.map (fun s => (s, (.entry : Event ε)))) = l.map .enter := by
  simp [moves, List.filterMap_map, Function.comp_def, move, List.filterMap_eq_map']

@[simp] theorem moves_exit (l : List S) :
    moves (l.map (fun s => (s, (.exit : Event ε)))) = l.map .leave := by
  simp [moves, List.filterMap_map, Function.comp_def, move, List.filterMap_eq_map']

@[simp] theorem moves_user (e : ε) (l : List S) :
    moves (l.map (fun s => (s, (.user e : Event ε)))) = [] := by
  simp [moves, List.filterMap_map, Function.comp_def, move]

@[simp] theorem moves_init_cons (s : S) (acts : List (Action S ε)) :
    moves ((s, .init) :: acts) = moves acts :=
  List.filterMap_cons_none rfl

theorem walk_entries {b t : StateFn S} (h : W.forest.Above b t) :
    W.forest.Walk b (moves (W.entries b t)) t := by
  rw [entries, moves_entry]
  exact W.forest.walk_enter_segment h

theorem init_above {s t : S} {x : X} (h : (W.handler s .init x).status = .needToTransfer)
    (ht : (W.handler s .init x).temp = some (some t)) : W.forest.Above (some s) (some t) := by
  obtain ⟨t', ht', hs⟩ := W.init_reply s x h
  obtain rfl : t = t' := by simpa using ht.symm.trans ht'
  refine W.forest.above_step ?_
  rintro l ⟨⟩
  exact hs

theorem Settles.walk {t leaf : StateFn S} {x x' : X} {acts : List (Action S ε)}
    (h : W.Settles t x acts leaf x') : W.forest.Walk t (moves acts) leaf := by
  induction h with
  | top x => exact .nil _
  | leaf s x _ => exact .nil _
  | step s t x h ht _ ih =>
    rw [List.cons_append, moves_init_cons, moves_append]
    exact (W.walk_entries (W.init_above h ht)).append ih

theorem ascent_mem {e : ε} {l asked : List S} {s : S} {r : Reply S X} {x x' : X}
    (h : W.ascent e l x = (asked, some (s, r), x')) : s ∈ l := by
  induction l generalizing x asked with
  | nil => simp [ascent] at h
  | cons a l ih =>
    simp only [ascent] at h
    split at h
    · obtain ⟨rfl, ht⟩ := Prod.mk.inj h
      exact List.mem_cons_of_mem _ (ih (Prod.ext rfl ht))
    · simp only [Prod.mk.injEq, Option.some.injEq] at h
      obtain ⟨-, ⟨rfl, -⟩, -⟩ := h
      exact List.mem_cons_self

variable [DecidableEq S]

theorem boundary_above_target (s : S) (t : StateFn S) : W.forest.Above (W.boundary s t) t := by
  by_cases hst : t = some s
  · rw [boundary, if_pos hst, hst]
    exact W.forest.above_step (W.forest.above_refl _)
  · rw [boundary, if_neg hst]
    exact W.forest.lca_above_right _ _

theorem Dispatches.walk {e : ε} {cur leaf : StateFn S} {x x' : X} {acts : List (Action S ε)}
    (h : W.Dispatches e cur x acts leaf x') : W.forest.Walk cur (moves acts) leaf := by
  cases h with
  | stay _ _ =>
    rw [moves_user]
    exact .nil _
  | @move asked s r t _ _ acts _ ha hs ht hd =>
    have habove : W.forest.Above (some s) cur := by
      rintro l ⟨⟩
      exact W.ascent_mem ha
    have hexit : W.forest.Walk cur (moves (W.exits cur s t)) (W.boundary s t) := by
      rw [exits, moves_exit]
      exact W.forest.walk_leave_segment (W.forest.above_trans (W.boundary_above s t) habove)
    rw [moves_append, moves_append, moves_append, moves_user, List.nil_append]
    exact (hexit.append (W.walk_entries (W.boundary_above_target s t))).append (Settles.walk W hd)

/-- One round of `init`, from the position `b` to the target `t` in the scratch slot. -/
theorem initLoop_succ (n : ℕ) (b : StateFn S) (t : S) (h : Hsm S ε X) (ht : h.temp = some t)
    (hb : W.forest.Above b (W.forest.parent t)) :
    W.initLoop (n + 1) b h =
      let r := W.handler t .init (W.effects h.ext (W.entries b (some t)))
      if r.status = .needToTransfer then
        W.initLoop n (some t)
          (W.after h (W.entries b (some t) ++ [(t, Event.init)]) (r.temp.getD (some t)))
      else some { W.after h (W.entries b (some t) ++ [(t, Event.init)]) (some t) with
        state := some t } := by
  have hne : b ≠ some t := by
    rintro rfl
    exact W.forest.not_mem_path_parent t (hb t rfl)
  have hup := W.pathUp_eq (fun q => q = b) b (by simp) t h hb
  obtain ⟨p, hp⟩ := W.enterAll_eq { h with temp := b } (W.forest.segment (some t) b).reverse
  have hhead : ((W.forest.segment (some t) b).map some).headD none = some t := by
    rw [W.forest.segment_cons (W.forest.above_step hb) hne]
    rfl
  rw [Chart.initLoop, ht, hup]
  dsimp only
  rw [← List.map_reverse, hp, hhead, set_temp_after, ← after_after W h _ _ (some t),
    ← after_after W h _ [(t, .init)] (some t) (some t)]
  rfl

/-- Each round of `init` enters one deeper target, so `init` settles. -/
theorem initLoop_walk (n : ℕ) (b : StateFn S) (t : S) (h : Hsm S ε X)
    (hn : kMaxNest < (W.forest.path b).length + n) (ht : h.temp = some t)
    (hb : W.forest.Above b (W.forest.parent t)) :
    ∃ acts leaf, W.forest.Walk b (moves acts) leaf ∧
      W.initLoop n b h = some { W.after h acts leaf with state := leaf } := by
  induction n generalizing b t h with
  | zero =>
    have := W.path_length_le b
    omega
  | succ n ih =>
    have hwalk : W.forest.Walk b (moves (W.entries b (some t) ++ [(t, Event.init)])) (some t) := by
      rw [moves_append, moves_init_cons]
      exact (W.walk_entries (W.forest.above_step hb)).append (.nil _)
    rw [W.initLoop_succ n b t h ht hb]
    dsimp only
    by_cases hr : (W.handler t .init (W.effects h.ext (W.entries b (some t)))).status =
        .needToTransfer
    · obtain ⟨u, hu, htu⟩ := W.init_reply t _ hr
      have habove : W.forest.Above (some t) (W.forest.parent u) := by
        rintro l ⟨⟩
        exact htu
      have hlt : (W.forest.path b).length < (W.forest.path (some t)).length := by
        have hle := congrArg List.length (W.forest.path_eq_segment_append hb)
        rw [List.length_append] at hle
        rw [W.forest.path_some, List.length_cons]
        omega
      obtain ⟨acts, leaf, hw, hi⟩ := ih (some t) u
        (W.after h (W.entries b (some t) ++ [(t, Event.init)]) (some u)) (by omega) rfl habove
      refine ⟨W.entries b (some t) ++ [(t, Event.init)] ++ acts, leaf, ?_, ?_⟩
      · rw [moves_append]
        exact hwalk.append hw
      · rw [if_pos hr, hu, Option.getD_some, hi, after_after]
    · refine ⟨W.entries b (some t) ++ [(t, Event.init)], some t, hwalk, ?_⟩
      rw [if_neg hr]

theorem init_walk (n : ℕ) (initial : StateFn S) (h : Hsm S ε X) (hn : kMaxNest < n) :
    ∃ h' acts, W.init n initial h = some h' ∧ h'.log = h.log ++ acts ∧
      W.forest.Walk none (moves acts) h'.state := by
  cases initial with
  | none =>
    cases n with
    | zero => omega
    | succ n =>
      refine ⟨{ h with state := none, temp := none }, [], ?_, by simp, .nil _⟩
      rw [Chart.init, Chart.initLoop, Chart.pathUp, call_top, W.pathLoop_stop (by simp)]
      rfl
  | some t =>
    obtain ⟨acts, leaf, hw, hi⟩ := W.initLoop_walk n none t { h with state := none, temp := some t }
      (by simpa using hn) rfl (by simp)
    exact ⟨_, acts, hi, rfl, hw⟩

/-- `init` and then a sequence of dispatched events. -/
def runFrom (initial : StateFn S) (h : Hsm S ε X) (es : List ε) : Option (Hsm S ε X) :=
  (W.init (kMaxNest + 1) initial h).bind
    (fun h => Trace.run (fun h e => W.dispatch (kMaxNest + 1) e h) h es)

/-- The ENTRY and EXIT calls so far lead from the root to the current state. -/
def Tracked (h : Hsm S ε X) : Prop := W.forest.Walk none (moves h.log) h.state

theorem dispatch_tracked (h : Hsm S ε X) (e : ε) (ht : W.Tracked h) :
    ∃ h', W.dispatch (kMaxNest + 1) e h = some h' ∧ W.Tracked h' := by
  obtain ⟨acts, leaf, ignored, hd, hrun⟩ := W.dispatch_dispatches h e (kMaxNest + 1) (by omega)
  refine ⟨_, hrun, ?_⟩
  rw [Tracked, moves_append]
  exact ht.append (Dispatches.walk W hd)

theorem run_tracked (h : Hsm S ε X) (es : List ε) (ht : W.Tracked h) :
    ∃ h', Trace.run (fun h e => W.dispatch (kMaxNest + 1) e h) h es = some h' ∧ W.Tracked h' := by
  induction es generalizing h with
  | nil => exact ⟨h, rfl, ht⟩
  | cons e es ih =>
    obtain ⟨h₁, hd, ht₁⟩ := W.dispatch_tracked h e ht
    obtain ⟨h₂, hr, ht₂⟩ := ih h₁ ht₁
    exact ⟨h₂, (Trace.run_cons_eq_some _).mpr ⟨h₁, hd, hr⟩, ht₂⟩

/-- ENTRY calls made to `x` minus EXIT calls made to `x`. -/
def balance (x : S) (log : List (Action S ε)) : ℤ := Forest.surplus x (moves log)

/-- After `init` and any sequence of events a state has been entered once more than it was left
exactly when it is the current state or one of its ancestors, and at no moment was any other
difference than 0 or 1 seen. -/
theorem runFrom_balance (initial : StateFn S) (x₀ : X) (es : List ε) :
    ∃ h, W.runFrom initial ⟨none, none, false, x₀, []⟩ es = some h ∧ ∀ x,
      balance x h.log = (if x ∈ W.forest.path h.state then 1 else 0) ∧
      ∀ p, p <+: h.log → balance x p = 0 ∨ balance x p = 1 := by
  obtain ⟨h₀, acts, hinit, hlog, hw⟩ := W.init_walk (kMaxNest + 1) initial
    ⟨none, none, false, x₀, []⟩ (by omega)
  have ht₀ : W.Tracked h₀ := by
    rw [Tracked, hlog, List.nil_append]
    exact hw
  obtain ⟨h, hrun, ht⟩ := W.run_tracked h₀ es ht₀
  refine ⟨h, by rw [runFrom, hinit, Option.bind_some, hrun], ?_⟩
  intro x
  constructor
  · rw [balance, ht.surplus_eq x]
    simp [Forest.onPath]
  · intro p hp
    obtain ⟨q, hq⟩ := Forest.Walk.of_prefix ht (hp.filterMap move)
    rw [balance, moves, hq.surplus_eq x]
    simp only [Forest.onPath]
    split <;> simp

end WellFormedChart

/-- The states of the chart in `test_hsm.cpp`. -/
inductive Probe
  | s | s1 | s11 | s2 | s21 | s211
  deriving DecidableEq, Repr

inductive ProbeSignal
  | a | b | c | d | e | f | g | h | i
  deriving DecidableEq, Repr

namespace Probe

def parent : Probe → Option Probe
  | s => none
  | s1 => some s
  | s11 => some s1
  | s2 => some s
  | s21 => some s2
  | s211 => some s21

/-- The handlers; the data is the flag `foo`. -/
def handler : Probe → Event ProbeSignal → Bool → Reply Probe Bool
  | s, .init, foo => .toState (some s11) foo
  | s, .user .e, foo => .toState (some s11) foo
  | s, .user .i, _ => .handled false
  | s1, .init, foo => .toState (some s11) foo
  | s1, .user .a, foo => .toState (some s1) foo
  | s1, .user .b, foo => .toState (some s11) foo
  | s1, .user .c, foo => .toState (some s2) foo
  | s1, .user .f, foo => .toState (some s211) foo
  | s1, .user .d, foo => if foo then .unhandled foo else .toState (some s) true
  | s11, .user .g, foo => .toState (some s211) foo
  | s11, .user .h, foo => .toState (some s) foo
  | s11, .user .d, foo => if foo then .toState (some s1) false else .unhandled foo
  | s2, .init, foo => .toState (some s211) foo
  | s2, .user .i, _ => .handled true
  | s2, .user .c, foo => .toState (some s1) foo
  | s2, .user .f, foo => .toState (some s11) foo
  | s21, .init, foo => .toState (some s211) foo
  | s21, .user .a, foo => .toState (some s21) foo
  | s21, .user .b, foo => .toState (some s211) foo
  | s21, .user .g, foo => .toState (some s11) foo
  | s211, .user .d, foo => .toState (some s21) foo
  | s211, .user .h, foo => .toState (some s) foo
  | _, .entry, foo => .handled foo
  | _, .exit, foo => .handled foo
  | q, _, foo => .super q.parent foo

def depth : Probe → ℕ
  | s => 0
  | s1 => 1
  | s11 => 2
  | s2 => 1
  | s21 => 2
  | s211 => 3

def forest : Forest Probe where
  parent := parent
  wf := by
    refine Subrelation.wf ?_ (InvImage.wf depth wellFounded_lt)
    intro p q h
    cases q <;> cases h <;> exact Nat.lt_succ_self _

def chart : WellFormedChart Probe ProbeSignal Bool where
  handler := handler
  forest := forest
  empty_reply q x := by cases q <;> rfl
  super_parent q ev x := by
    rcases ev with _ | _ | _ | _ | sig <;> cases q <;> (try cases sig) <;> cases x <;>
      simp [handler, Reply.toState, Reply.handled, Reply.super, Reply.unhandled, forest]
  transfer_target q sig x := by
    cases q <;> cases sig <;> cases x <;>
      simp [handler, Reply.toState, Reply.handled, Reply.super, Reply.unhandled]
  exit_reply q x := by cases q <;> exact Or.inl rfl
  entry_reply q x := by cases q <;> exact Or.inl rfl
  init_reply q x h := by
    cases q with
    | s11 => exact absurd h nofun
    | s211 => exact absurd h nofun
    | _ => exact ⟨_, rfl, by simp [forest, parent, Forest.path_some]⟩
  nest q := by cases q <;> simp [Forest.path_some, forest, parent, kMaxNest]

example : (chart.runFrom (some s2) ⟨none, none, false, false, []⟩ [.a]).map (·.log) =
    some [(s, .entry), (s2, .entry), (s2, .init), (s21, .entry), (s211, .entry), (s211, .init),
      (s211, .user .a), (s21, .user .a), (s211, .exit), (s21, .exit), (s21, .entry), (s21, .init),
      (s211, .entry), (s211, .init)] := by
  decide +kernel

end Probe

end TelafSim
