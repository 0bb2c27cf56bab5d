import TelafSim.InitGate

/-!
# What the managers of the PA have in common

A manager of the radio or of the SIM domain is handed init callbacks and requests by its callers'
threads, and tells its listeners whether the service is available and what happens in it. The books
of a manager say where each call stands, and where what has been handed over is: it is in one place,
once, as long as the manager loses nothing and answers nothing twice.
-/

namespace TelafSim.ServiceManager

open InitGate (ServiceStatus)

structure Response where
  error : Bool
  data : Bool
  deriving DecidableEq

/-- What the listeners are told: a service status, or an indication. -/
inductive Notice (ι : Type)
  | status (s : ServiceStatus)
  | indication (i : ι)
  deriving DecidableEq

section Listeners

variable {ι : Type} {before : Bool} {told : List (Notice ι)}

/-- What the listeners were last told of the service, or take it for before. -/
def upFrom (before : Bool) (told : List (Notice ι)) : Bool :=
  told.foldl (fun b n =>
    match n with
    | .status s => s = .available
    | .indication _ => b) before

def FitsFrom (before : Bool) (told : List (Notice ι)) : Notice ι → Prop
  | .status .available => upFrom before told = false
  | .status .unavailable => upFrom before told = true
  | .status .failed => False
  | .indication _ => upFrom before told = true

@[simp] theorem upFrom_concat_status (s : ServiceStatus) :
    upFrom before (told ++ [.status s]) = decide (s = .available) := by simp [upFrom]

@[simp] theorem upFrom_concat_indication (i : ι) :
    upFrom before (told ++ [.indication i]) = upFrom before told := by simp [upFrom]

end Listeners

/-- Where the calls stand, and the callers whose init callback or whose request has been handed over,
one for each place it is in. -/
structure Books (κ γ : Type) where
  calls : κ → γ
  inits : List κ
  asks : List κ

section Books

variable {κ γ : Type} [DecidableEq κ] [DecidableEq γ] {armed accepted : γ} {b b' : Books κ γ} {c : κ}

/-- Each init callback and each request that has been handed over is in one place, once. -/
structure Balanced (armed accepted : γ) (b : Books κ γ) : Prop where
  inits : ∀ c, b.inits.count c = if b.calls c = armed then 1 else 0
  asks : ∀ c, b.asks.count c = if b.calls c = accepted then 1 else 0

theorem balanced_construct (armed accepted unused : γ) (hne : armed ≠ accepted)
    (hunused : unused ≠ armed ∧ unused ≠ accepted) (initCb : Option κ) :
    Balanced armed accepted
      ⟨fun c => if initCb = some c then armed else unused, initCb.toList, []⟩ := by
  constructor
  · intro c
    cases initCb with
    | none => simp [hunused.1]
    | some c' => by_cases heq : c' = c <;> simp [heq, hunused.1]
  · intro c
    by_cases heq : initCb = some c
    · simp [heq, hne]
    · simp [heq, hunused.2]

theorem Balanced.congr (h : Balanced armed accepted b) (hcalls : b'.calls = b.calls)
    (hinit : ∀ c, b'.inits.count c = b.inits.count c)
    (hask : ∀ c, b'.asks.count c = b.asks.count c) : Balanced armed accepted b' := by
  constructor
  · intro c
    rw [hinit, hcalls, h.inits]
  · intro c
    rw [hask, hcalls, h.asks]

theorem Balanced.goOn {call : γ} (h : Balanced armed accepted b)
    (hcalls : b'.calls = Function.update b.calls c call)
    (hc : b.calls c ≠ armed ∧ b.calls c ≠ accepted)
    (hinit : ∀ c', b'.inits.count c' = b.inits.count c' + if c = c' ∧ call = armed then 1 else 0)
    (hask : ∀ c', b'.asks.count c' = b.asks.count c' + if c = c' ∧ call = accepted then 1 else 0) :
    Balanced armed accepted b' := by
  constructor
  · intro c'
    rw [hinit, h.inits, hcalls]
    by_cases heq : c' = c
    · subst heq
      simp [hc.1]
    · simp [heq, Ne.symm heq]
  · intro c'
    rw [hask, h.asks, hcalls]
    by_cases heq : c' = c
    · subst heq
      simp [hc.2]
    · simp [heq, Ne.symm heq]

theorem Balanced.check {call : γ} (h : Balanced armed accepted b)
    (hcalls : b'.calls = Function.update b.calls c call)
    (hc : b.calls c ≠ armed ∧ b.calls c ≠ accepted) (hcall : call ≠ armed ∧ call ≠ accepted)
    (hinit : b'.inits = b.inits) (hask : b'.asks = b.asks) : Balanced armed accepted b' := by
  refine h.goOn hcalls hc ?_ ?_
  · intro c'
    simp [hinit, hcall.1]
  · intro c'
    simp [hask, hcall.2]

end Books

end TelafSim.ServiceManager
