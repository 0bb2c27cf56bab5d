import Mathlib.Tactic

/-!
# Registrations behind a queue

A registration is held or not, and the events of a queue bring it or clear it in turn. A fence in the
queue is past the registration when, by the time the fence is reached, it is not held and nothing
behind the fence brings it back.
-/

namespace TelafSim.Fence

variable {ε : Type*} (brings clears fence : ε → Bool)

/-- Whether the registration is held after an event. -/
def after (held : Bool) (e : ε) : Bool := brings e || (held && !clears e)

/-- Whether it is held when the queue is empty. -/
def alive (held : Bool) (q : List ε) : Bool := q.foldl (after brings clears) held

def past : Bool → List ε → Prop
  | _, [] => True
  | held, e :: q => (fence e → held = false ∧ ∀ e' ∈ q, brings e' = false) ∧
      (fence e = false → past (after brings clears held e) q)

variable {brings clears fence} {held held' : Bool} {e : ε} {q : List ε}

theorem after_mono (h : held → held') (e : ε) :
    after brings clears held e → after brings clears held' e := by
  simp only [after, Bool.or_eq_true, Bool.and_eq_true]
  exact Or.imp_right (And.imp_left h)

theorem alive_mono (h : held → held') :
    alive brings clears held q → alive brings clears held' q := by
  induction q generalizing held held' with
  | nil => exact h
  | cons e q ih => exact ih (after_mono h e)

theorem past_mono (h : held → held') (hp : past brings clears fence held' q) :
    past brings clears fence held q := by
  induction q generalizing held held' with
  | nil => trivial
  | cons e q ih =>
    refine ⟨?_, fun hf => ih (after_mono h e) (hp.2 hf)⟩
    intro hf
    obtain ⟨hheld, hq⟩ := hp.1 hf
    refine ⟨?_, hq⟩
    by_contra hne
    rw [h (by simpa using hne)] at hheld
    cases hheld

theorem alive_push : alive brings clears held (q ++ [e]) =
    after brings clears (alive brings clears held q) e := by
  simp [alive]

theorem past_push (hp : past brings clears fence held q) (hb : brings e = false)
    (hf : fence e = false) : past brings clears fence held (q ++ [e]) := by
  induction q generalizing held with
  | nil =>
    refine ⟨?_, fun _ => trivial⟩
    intro h
    rw [hf] at h
    cases h
  | cons e' q ih =>
    refine ⟨?_, fun h => ih (hp.2 h)⟩
    intro h
    obtain ⟨hheld, hq⟩ := hp.1 h
    refine ⟨hheld, ?_⟩
    intro e'' he''
    rcases List.mem_append.mp he'' with he'' | he''
    · exact hq e'' he''
    · rw [List.mem_singleton.mp he'']
      exact hb

/-- A fence is posted when the registration is as good as gone. -/
theorem past_fence (hdead : alive brings clears held q = false) (hq : ∀ e' ∈ q, fence e' = false)
    (hf : fence e) : past brings clears fence held (q ++ [e]) := by
  induction q generalizing held with
  | nil =>
    refine ⟨fun _ => ⟨hdead, by simp⟩, ?_⟩
    intro h
    rw [hf] at h
    cases h
  | cons e' q ih =>
    have hno := hq e' List.mem_cons_self
    refine ⟨?_, fun _ => ih hdead (fun e'' he'' => hq e'' (List.mem_cons_of_mem _ he''))⟩
    intro h
    rw [hno] at h
    cases h

/-- Without a registration and without one to come, every fence is past it. -/
theorem past_of_clear (hq : ∀ e' ∈ q, brings e' = false) : past brings clears fence false q := by
  induction q with
  | nil => trivial
  | cons e q ih =>
    have hrest : ∀ e' ∈ q, brings e' = false := fun e' he' => hq e' (List.mem_cons_of_mem _ he')
    have hafter : after brings clears false e = false := by
      simp [after, hq e List.mem_cons_self]
    refine ⟨fun _ => ⟨rfl, hrest⟩, fun _ => ?_⟩
    rw [hafter]
    exact ih hrest

end TelafSim.Fence
