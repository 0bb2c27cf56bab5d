import TelafSim.TimerBooks

/-!
# Time events

A `TimeEvent` of `time_event.hpp` posts its signal to its target through a timer of the shared
service. It is used by one thread, while the worker, other events and other users of the service go
on between any two of its critical sections. `arm_one_shot` and `arm_periodic` begin with a `disarm`
of their own, so arming is a step of an event that has no token. The token that `schedule` returns
is stored in a step of its own, and the timer may expire before.
-/

namespace TelafSim.Timers

inductive Callback (ι φ : Type)
  | post (i : ι)
  | other (fn : φ)
  deriving DecidableEq

structure TimeEvents (ι φ : Type) where
  service : TimerService (Callback ι φ)
  /-- `tok_` of each event. -/
  tok : ι → Option Token
  /-- The token that `schedule` has returned to the event and that is not stored yet. -/
  returned : ι → Option Token

namespace TimeEvents

variable {ι φ : Type}

inductive Label (ι φ : Type)
  | armOneShot (i : ι) (now delay : ℤ)
  | armPeriodic (i : ι) (now first period : ℤ)
  | store (i : ι)
  | disarm (i : ι)
  | service (a : Timers.Label φ)
  deriving DecidableEq

def construct : TimeEvents ι φ where
  service := .construct
  tok := fun _ => none
  returned := fun _ => none

def serviceLabel : Timers.Label φ → Timers.Label (Callback ι φ)
  | .schedule fn first period => .schedule (.other fn) first period
  | .cancel tok => .cancel tok
  | .work now => .work now
  | .destroy => .destroy

section Steps

variable [DecidableEq ι]

def arm (i : ι) (first period : ℤ) (w : TimeEvents ι φ) : TimeEvents ι φ :=
  { w with
    service := w.service.schedule (.post i) first period
    returned := Function.update w.returned i (some (w.service.next + 1)) }

def armOneShot (i : ι) (now delay : ℤ) (w : TimeEvents ι φ) : TimeEvents ι φ :=
  w.arm i (now + delay * 1000000) 0

def armPeriodic (i : ι) (now first period : ℤ) (w : TimeEvents ι φ) : TimeEvents ι φ :=
  w.arm i (now + first * 1000000) period

def store (i : ι) (w : TimeEvents ι φ) : TimeEvents ι φ :=
  { w with
    tok := Function.update w.tok i (w.returned i)
    returned := Function.update w.returned i none }

def disarm (i : ι) (w : TimeEvents ι φ) : TimeEvents ι φ :=
  match w.tok i with
  | none => w
  | some tok =>
    { w with service := w.service.cancel tok, tok := Function.update w.tok i none }

def Unarmed (i : ι) (w : TimeEvents ι φ) : Prop := w.tok i = none ∧ w.returned i = none

instance (i : ι) (w : TimeEvents ι φ) : Decidable (w.Unarmed i) :=
  inferInstanceAs (Decidable (_ ∧ _))

/-- `arm_periodic` requires a positive period. -/
def step (w : TimeEvents ι φ) : Label ι φ → Option (TimeEvents ι φ)
  | .armOneShot i now delay => if w.Unarmed i then some (w.armOneShot i now delay) else none
  | .armPeriodic i now first period =>
    if 0 < period ∧ w.Unarmed i then some (w.armPeriodic i now first period) else none
  | .store i => if (w.returned i).isSome then some (w.store i) else none
  | .disarm i => if w.returned i = none then some (w.disarm i) else none
  | .service a => (w.service.step (serviceLabel a)).map (fun s => { w with service := s })

end Steps

def Label.isSchedule : Label ι φ → Bool
  | .armOneShot .. => true
  | .armPeriodic .. => true
  | .store _ => false
  | .disarm _ => false
  | .service a => a.isSchedule

/-- The token is stored, or `schedule` has just returned it. -/
def Holds (i : ι) (tok : Token) (w : TimeEvents ι φ) : Prop :=
  w.tok i = some tok ∨ w.returned i = some tok

/-- The timers of an event that are not over are under the token that it holds. -/
structure Owned (w : TimeEvents ι φ) : Prop where
  timers : ∀ i it, it.fn = .post i → .scheduled it ∈ w.service.log →
    w.Holds i it.tok ∨ Cancelled it.tok w.service.log
  single : ∀ i, w.tok i = none ∨ w.returned i = none

variable {w w' : TimeEvents ι φ}

/-- Steps of the service that schedule no post leave the ownership as it is. -/
theorem Owned.service {s : TimerService (Callback ι φ)} (h : w.Owned)
    (es : List (Timers.Event (Callback ι φ))) (hlog : s.log = es ++ w.service.log)
    (hpost : ∀ i it, it.fn = .post i → .scheduled it ∉ es) : Owned { w with service := s } where
  timers i it hfn hit := by
    rw [hlog] at hit ⊢
    obtain hnew | hold := List.mem_append.mp hit
    · exact absurd hnew (hpost i it hfn)
    · exact (h.timers i it hfn hold).imp_right (fun hcancelled => hcancelled.append es)
  single := h.single

section Steps

variable [DecidableEq ι] {i : ι}

theorem Owned.arm (h : w.Owned) (hi : w.Unarmed i) (first period : ℤ) :
    (w.arm i first period).Owned where
  timers j it hfn hit := by
    obtain heq | hold := List.mem_cons.mp hit
    · obtain rfl := Timers.Event.scheduled.inj heq
      obtain rfl : i = j := Callback.post.inj hfn
      exact Or.inl (Or.inr (Function.update_self i _ w.returned))
    · obtain (htok | hreturned) | hcancelled := h.timers j it hfn hold
      · exact Or.inl (Or.inl htok)
      · have hne : j ≠ i := by
          rintro rfl
          rw [hi.2] at hreturned
          cases hreturned
        exact Or.inl (Or.inr ((Function.update_of_ne hne _ w.returned).trans hreturned))
      · exact Or.inr (hcancelled.append [_])
  single j := by
    by_cases heq : j = i
    · exact Or.inl (heq ▸ hi.1)
    · exact (h.single j).imp_right (Function.update_of_ne heq _ w.returned).trans

theorem Owned.store (h : w.Owned) (hi : (w.returned i).isSome) : (w.store i).Owned where
  timers j it hfn hit := by
    refine (h.timers j it hfn hit).imp_left ?_
    by_cases heq : j = i
    · subst heq
      have hnone : w.tok j = none := (h.single j).resolve_right (Option.isSome_iff_ne_none.mp hi)
      rintro (htok | hreturned)
      · rw [hnone] at htok
        cases htok
      · exact Or.inl ((Function.update_self j _ w.tok).trans hreturned)
    · exact Or.imp (Function.update_of_ne heq _ w.tok).trans
        (Function.update_of_ne heq _ w.returned).trans
  single j := by
    by_cases heq : j = i
    · exact Or.inr (heq ▸ Function.update_self i _ w.returned)
    · exact (h.single j).imp (Function.update_of_ne heq _ w.tok).trans
        (Function.update_of_ne heq _ w.returned).trans

theorem Owned.disarm (h : w.Owned) (i : ι) : (w.disarm i).Owned := by
  unfold TimeEvents.disarm
  cases htok : w.tok i with
  | none => exact h
  | some tok =>
    constructor
    case timers =>
      intro j it hfn hit
      have hold : .scheduled it ∈ w.service.log := by simpa [TimerService.cancel] using hit
      obtain (hj | hj) | hcancelled := h.timers j it hfn hold
      · by_cases heq : j = i
        · rw [heq, htok] at hj
          obtain rfl := Option.some.inj hj
          exact Or.inr (Or.inl ⟨rfl, mem_issued_iff.mpr ⟨it, hold, rfl⟩⟩)
        · exact Or.inl (Or.inl ((Function.update_of_ne heq _ w.tok).trans hj))
      · exact Or.inl (Or.inr hj)
      · exact Or.inr (hcancelled.append [_])
    case single =>
      intro j
      by_cases heq : j = i
      · exact Or.inl (heq ▸ Function.update_self i _ w.tok)
      · exact (h.single j).imp_left (Function.update_of_ne heq _ w.tok).trans

end Steps

end TimeEvents

end TelafSim.Timers
