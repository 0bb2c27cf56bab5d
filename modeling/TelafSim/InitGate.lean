import TelafSim.Trace

/-!
# The gate for initialization callbacks

`InitCallbackGate.hpp`, shared by the PA's managers: callbacks wait until the manager first becomes
ready, later ones are invoked at once. Callbacks run outside the lock, so a call of `add` or
`markReadyAndFire` has a critical section and, after it, an invocation at a time; the steps of any
number of calls interleave, those of calls that a callback makes included.

A registered callback waits in `cbs_`, is in the list that the first `markReadyAndFire` has swapped
out, is held by its own call of `add`, or has been invoked. `invoked`, `registered` and `first` are
recorded for the statements only.
-/

namespace TelafSim.InitGate

/-- A callback is named by the call of `add` that brings it; `none` is the constructor's. -/
abbrev Callback (κ : Type) := Option κ

inductive ServiceStatus
  | unavailable
  | available
  | failed
  deriving DecidableEq, Repr

/-- Where a call stands: not made, past the lock with the status it has read, past the lock with
what is left of `to_fire`, or returned; `add` returns nothing. -/
inductive CallState (κ : Type)
  | unused
  | adding (firedStatus : ServiceStatus)
  | firing (toFire : List (Callback κ)) (status : ServiceStatus)
  | returned (result : Option Bool)
  deriving DecidableEq

structure InitCallbackGate (κ : Type) where
  cbs : List (Callback κ)
  fired : Bool
  status : ServiceStatus
  calls : κ → CallState κ
  invoked : List (Callback κ × ServiceStatus)
  registered : List (Callback κ)
  /-- The first `markReadyAndFire` to take the lock, and its status. -/
  first : Option (κ × ServiceStatus)

inductive Label (κ : Type)
  | add (c : κ) (nonNull : Bool)
  | markReadyAndFire (c : κ) (status : ServiceStatus)
  | proceed (c : κ)
  deriving DecidableEq

namespace InitCallbackGate

variable {κ : Type}

def construct (nonNull : Bool) : InitCallbackGate κ where
  cbs := if nonNull then [none] else []
  fired := false
  status := .unavailable
  calls := fun _ => .unused
  invoked := []
  registered := if nonNull then [none] else []
  first := none

section Steps

variable [DecidableEq κ]

def setCall (c : κ) (s : CallState κ) (g : InitCallbackGate κ) : InitCallbackGate κ :=
  { g with calls := Function.update g.calls c s }

def add (c : κ) (g : InitCallbackGate κ) : InitCallbackGate κ :=
  let g := { g with registered := g.registered ++ [some c] }
  if g.fired then g.setCall c (.adding g.status)
  else { g with cbs := g.cbs ++ [some c] }.setCall c (.returned none)

def markReadyAndFire (c : κ) (status : ServiceStatus) (g : InitCallbackGate κ) :
    InitCallbackGate κ :=
  if g.fired then g.setCall c (.returned (some false))
  else { g with
    fired := true
    status := status
    cbs := []
    first := some (c, status) }.setCall c (.firing g.cbs status)

def invoke (cb : Callback κ) (status : ServiceStatus) (g : InitCallbackGate κ) :
    InitCallbackGate κ :=
  { g with invoked := g.invoked ++ [(cb, status)] }

/-- What is left of a call that is past the lock: the next invocation, or the return. -/
def proceed (c : κ) (g : InitCallbackGate κ) : Option (InitCallbackGate κ) :=
  match g.calls c with
  | .adding firedStatus => some ((g.invoke (some c) firedStatus).setCall c (.returned none))
  | .firing (cb :: rest) status => some ((g.invoke cb status).setCall c (.firing rest status))
  | .firing [] _ => some (g.setCall c (.returned (some true)))
  | _ => none

def step (g : InitCallbackGate κ) : Label κ → Option (InitCallbackGate κ)
  | .add c nonNull =>
    if g.calls c ≠ .unused then none
    else if nonNull then some (g.add c)
    else some (g.setCall c (.returned none))
  | .markReadyAndFire c status =>
    if g.calls c ≠ .unused then none else some (g.markReadyAndFire c status)
  | .proceed c => g.proceed c

end Steps

def wasInvoked (g : InitCallbackGate κ) : List (Callback κ) := g.invoked.map Prod.fst

/-- The call of `add` that brought the callback has returned; the constructor has. -/
def Added (g : InitCallbackGate κ) : Callback κ → Prop
  | none => True
  | some c => g.calls c = .returned none

def Quiet (g : InitCallbackGate κ) : Prop :=
  ∀ c, g.calls c = .unused ∨ ∃ result, g.calls c = .returned result

def Marked (g : InitCallbackGate κ) : Prop := ∃ c result, g.calls c = .returned (some result)

structure ExactlyOnce [DecidableEq κ] (g : InitCallbackGate κ) : Prop where
  atMostOnce : g.wasInvoked.Nodup
  firstStatus : ∀ cb status, (cb, status) ∈ g.invoked →
    cb ∈ g.registered ∧ ∃ c, g.first = some (c, status)
  invoked : ∀ c status, g.first = some (c, status) → g.calls c = .returned (some true) →
    ∀ cb ∈ g.registered, g.Added cb → cb ∈ g.wasInvoked
  onlyFirst : ∀ c, g.calls c = .returned (some true) → ∃ status, g.first = some (c, status)
  quiet : g.Quiet → (g.Marked → (∀ cb ∈ g.registered, g.wasInvoked.count cb = 1) ∧
      ∃! c, g.calls c = .returned (some true)) ∧
    (¬ g.Marked → g.invoked = [])

/-- What is left of the list that the first `markReadyAndFire` has swapped out. -/
def toFire (g : InitCallbackGate κ) : List (Callback κ) :=
  match g.first with
  | none => []
  | some (c, _) =>
    match g.calls c with
    | .firing rest _ => rest
    | _ => []

/-- The callbacks that are not held by a call of `add`. -/
def settled (g : InitCallbackGate κ) : List (Callback κ) := g.wasInvoked ++ g.toFire ++ g.cbs

structure Sound (g : InitCallbackGate κ) : Prop where
  fired : g.fired = g.first.isSome
  status : ∀ c s, g.first = some (c, s) → g.status = s
  firing : ∀ c rest s, g.calls c = .firing rest s → g.first = some (c, s)
  winner : ∀ c s, g.first = some (c, s) →
    (∃ rest, g.calls c = .firing rest s) ∨ g.calls c = .returned (some true)
  won : ∀ c, g.calls c = .returned (some true) → ∃ s, g.first = some (c, s)
  lost : ∀ c, g.calls c = .returned (some false) → g.first.isSome
  swapped : g.first.isSome → g.cbs = []
  early : g.first = none → g.invoked = []
  holding : ∀ c s, g.calls c = .adding s →
    (∃ c', g.first = some (c', s)) ∧ some c ∈ g.registered ∧ some c ∉ g.settled
  nodup : g.settled.Nodup
  known : ∀ cb ∈ g.settled, cb ∈ g.registered
  placed : ∀ cb ∈ g.registered, cb ∈ g.settled ∨ ∃ c s, cb = some c ∧ g.calls c = .adding s
  fresh : ∀ c, g.calls c = .unused → some c ∉ g.registered
  statuses : ∀ cb s, (cb, s) ∈ g.invoked → ∃ c, g.first = some (c, s)

def CallSound (g : InitCallbackGate κ) (c : κ) : CallState κ → Prop
  | .unused => some c ∉ g.registered
  | .adding s => (∃ c', g.first = some (c', s)) ∧ some c ∈ g.registered ∧ some c ∉ g.settled
  | .firing _ s => g.first = some (c, s)
  | .returned none => True
  | .returned (some false) => g.first.isSome
  | .returned (some true) => ∃ s, g.first = some (c, s)

variable {g g' : InitCallbackGate κ} {c : κ}

@[simp] theorem wasInvoked_invoke (cb : Callback κ) (s : ServiceStatus) (g : InitCallbackGate κ) :
    (g.invoke cb s).wasInvoked = g.wasInvoked ++ [cb] := by
  simp [wasInvoked, invoke]

@[simp] theorem calls_invoke (cb : Callback κ) (s : ServiceStatus) (g : InitCallbackGate κ) :
    (g.invoke cb s).calls = g.calls := rfl

theorem toFire_of_firing {s : ServiceStatus} {rest : List (Callback κ)}
    (hfirst : g.first = some (c, s)) (hc : g.calls c = .firing rest s) : g.toFire = rest := by
  simp [toFire, hfirst, hc]

theorem mem_settled_of_mem_wasInvoked {cb : Callback κ} (hcb : cb ∈ g.wasInvoked) :
    cb ∈ g.settled :=
  List.mem_append_left _ (List.mem_append_left _ hcb)

theorem sound_construct (nonNull : Bool) : (construct nonNull : InitCallbackGate κ).Sound := by
  cases nonNull <;> constructor <;> simp [construct, settled, wasInvoked, toFire]

/-- What the invariant says of a call stays true as long as nothing of its own changes. -/
theorem CallSound.transfer {r : CallState κ} (h : g.CallSound c r) (hfirst : g'.first = g.first)
    (hfresh : some c ∉ g.registered → some c ∉ g'.registered)
    (hknown : some c ∈ g.registered → some c ∈ g'.registered)
    (hsettled : some c ∉ g.settled → some c ∉ g'.settled) : g'.CallSound c r := by
  cases r with
  | unused => exact hfresh h
  | adding s =>
    obtain ⟨hstatus, hreg, hnot⟩ := h
    exact ⟨hfirst ▸ hstatus, hknown hreg, hsettled hnot⟩
  | firing rest s => exact hfirst.trans h
  | returned result =>
    cases result with
    | none => trivial
    | some b =>
      cases b with
      | false => exact (congrArg Option.isSome hfirst).trans h
      | true =>
        obtain ⟨s, hs⟩ := h
        exact ⟨s, hfirst.trans hs⟩

namespace Sound

theorem callSound (h : g.Sound) (c : κ) : g.CallSound c (g.calls c) := by
  cases hc : g.calls c with
  | unused => exact h.fresh c hc
  | adding s => exact h.holding c s hc
  | firing rest s => exact h.firing c rest s hc
  | returned result =>
    cases result with
    | none => trivial
    | some b =>
      cases b with
      | false => exact h.lost c hc
      | true => exact h.won c hc

theorem of_callSound (calls : ∀ c, g.CallSound c (g.calls c)) (fired : g.fired = g.first.isSome)
    (status : ∀ c s, g.first = some (c, s) → g.status = s)
    (winner : ∀ c s, g.first = some (c, s) →
      (∃ rest, g.calls c = .firing rest s) ∨ g.calls c = .returned (some true))
    (swapped : g.first.isSome → g.cbs = []) (early : g.first = none → g.invoked = [])
    (nodup : g.settled.Nodup) (known : ∀ cb ∈ g.settled, cb ∈ g.registered)
    (placed : ∀ cb ∈ g.registered, cb ∈ g.settled ∨ ∃ c s, cb = some c ∧ g.calls c = .adding s)
    (statuses : ∀ cb s, (cb, s) ∈ g.invoked → ∃ c, g.first = some (c, s)) : g.Sound where
  fired := fired
  status := status
  winner := winner
  swapped := swapped
  early := early
  nodup := nodup
  known := known
  placed := placed
  statuses := statuses
  firing c rest s hc := by simpa only [hc, CallSound] using calls c
  won c hc := by simpa only [hc, CallSound] using calls c
  lost c hc := by simpa only [hc, CallSound] using calls c
  holding c s hc := by simpa only [hc, CallSound] using calls c
  fresh c hc := by simpa only [hc, CallSound] using calls c

theorem not_first (h : g.Sound) (hfiring : ∀ rest s, g.calls c ≠ .firing rest s)
    (hreturned : g.calls c ≠ .returned (some true)) (s : ServiceStatus) :
    g.first ≠ some (c, s) := by
  intro hfirst
  obtain ⟨rest, hrest⟩ | hdone := h.winner c s hfirst
  · exact hfiring rest s hrest
  · exact hreturned hdone

theorem not_first_of_unused (h : g.Sound) (hc : g.calls c = .unused) (s : ServiceStatus) :
    g.first ≠ some (c, s) := h.not_first (by simp [hc]) (by simp [hc]) s

theorem not_first_of_adding (h : g.Sound) {s' : ServiceStatus} (hc : g.calls c = .adding s')
    (s : ServiceStatus) : g.first ≠ some (c, s) := h.not_first (by simp [hc]) (by simp [hc]) s

theorem first_eq_none (h : g.Sound) (hfired : g.fired ≠ true) : g.first = none := by
  rw [h.fired] at hfired
  simpa using hfired

theorem early_call (h : g.Sound) (hfirst : g.first = none) (c : κ) :
    g.calls c = .unused ∨ g.calls c = .returned none := by
  have hsound := h.callSound c
  cases hc : g.calls c with
  | unused => exact Or.inl rfl
  | adding s => simp [CallSound, hc, hfirst] at hsound
  | firing rest s => simp [CallSound, hc, hfirst] at hsound
  | returned result =>
    cases result with
    | none => exact Or.inr rfl
    | some b => cases b <;> simp [CallSound, hc, hfirst] at hsound

theorem wait (h : g.Sound) (hfirst : g.first = none) (hc : g.calls c = .returned none)
    (hnew : some c ∉ g.registered) :
    Sound { g with registered := g.registered ++ [some c], cbs := g.cbs ++ [some c] } := by
  have hset : settled { g with registered := g.registered ++ [some c], cbs := g.cbs ++ [some c] } =
      g.settled ++ [some c] := by
    simp [settled, wasInvoked, toFire]
  apply of_callSound
  case fired => exact h.fired
  case status => exact h.status
  case winner => exact h.winner
  case early => exact h.early
  case statuses => exact h.statuses
  case swapped => simp [hfirst]
  case calls =>
    intro c'
    by_cases heq : c' = c
    · rw [heq, hc]
      trivial
    · refine (h.callSound c').transfer rfl ?_ (List.mem_append_left _) ?_
      · simp [heq]
      · simp [hset, heq]
  case nodup =>
    rw [hset]
    refine List.nodup_append.mpr ⟨h.nodup, List.nodup_singleton _, ?_⟩
    intro cb hcb cb' hcb' heq
    obtain rfl : cb' = some c := by simpa using hcb'
    exact hnew (h.known _ (heq ▸ hcb))
  case known =>
    intro cb hcb
    rw [hset, List.mem_append] at hcb
    exact List.mem_append.mpr (hcb.imp (h.known cb) id)
  case placed =>
    intro cb hcb
    rw [hset, List.mem_append]
    obtain hold | hlast := List.mem_append.mp hcb
    · exact (h.placed cb hold).imp Or.inl id
    · exact Or.inl (Or.inr hlast)

variable (h : g.Sound)
include h

/-- Once the first `markReadyAndFire` has returned, nothing waits or is left to fire. -/
theorem settled_of_returned {s : ServiceStatus} (hfirst : g.first = some (c, s))
    (hc : g.calls c = .returned (some true)) : g.settled = g.wasInvoked := by
  have htoFire : g.toFire = [] := by simp [toFire, hfirst, hc]
  have hcbs : g.cbs = [] := h.swapped (by simp [hfirst])
  simp [settled, htoFire, hcbs]

theorem mem_wasInvoked_of_returned {s : ServiceStatus} (hfirst : g.first = some (c, s))
    (hc : g.calls c = .returned (some true)) {cb : Callback κ} (hcb : cb ∈ g.registered)
    (hadded : ∀ c' s', cb = some c' → g.calls c' ≠ .adding s') : cb ∈ g.wasInvoked := by
  rw [← h.settled_of_returned hfirst hc]
  obtain hin | ⟨c', s', hcb', hc'⟩ := h.placed cb hcb
  · exact hin
  · exact absurd hc' (hadded c' s' hcb')

theorem first_of_marked (hmarked : g.Marked) : ∃ c s, g.first = some (c, s) := by
  obtain ⟨c, result, hc⟩ := hmarked
  cases result with
  | true =>
    obtain ⟨s, hs⟩ := h.won c hc
    exact ⟨c, s, hs⟩
  | false =>
    obtain ⟨⟨w, s⟩, hw⟩ := Option.isSome_iff_exists.mp (h.lost c hc)
    exact ⟨w, s, hw⟩

/-- When every call has returned, so has the first `markReadyAndFire`, if there was any. -/
theorem returned_of_quiet (hquiet : g.Quiet) {s : ServiceStatus}
    (hfirst : g.first = some (c, s)) : g.calls c = .returned (some true) := by
  obtain ⟨rest, hfiring⟩ | hreturned := h.winner c s hfirst
  · obtain hunused | ⟨result, hresult⟩ := hquiet c
    · simp [hfiring] at hunused
    · simp [hfiring] at hresult
  · exact hreturned

end Sound

variable [DecidableEq κ]

@[simp] theorem calls_setCall (c c' : κ) (s : CallState κ) (g : InitCallbackGate κ) :
    (g.setCall c s).calls c' = if c' = c then s else g.calls c' := Function.update_apply _ _ _ _

@[simp] theorem wasInvoked_setCall (c : κ) (s : CallState κ) (g : InitCallbackGate κ) :
    (g.setCall c s).wasInvoked = g.wasInvoked := rfl

theorem callSound_setCall {s : CallState κ} (hself : (g.setCall c s).CallSound c s)
    (hother : ∀ c', c' ≠ c → (g.setCall c s).CallSound c' (g.calls c')) (c' : κ) :
    (g.setCall c s).CallSound c' ((g.setCall c s).calls c') := by
  by_cases heq : c' = c
  · subst heq
    simpa using hself
  · simpa [heq] using hother c' heq

/-- What a call other than the first `markReadyAndFire` does leaves the swapped list alone. -/
theorem toFire_setCall_of_not_first (s : CallState κ) (hc : ∀ s, g.first ≠ some (c, s)) :
    (g.setCall c s).toFire = g.toFire := by
  cases hfirst : g.first with
  | none => simp [toFire, setCall, hfirst]
  | some w =>
    obtain ⟨c', s'⟩ := w
    have hne : c' ≠ c := fun heq => hc s' (heq ▸ hfirst)
    simp [toFire, setCall, hfirst, hne]

theorem settled_setCall_of_not_first (s : CallState κ) (hc : ∀ s, g.first ≠ some (c, s)) :
    (g.setCall c s).settled = g.settled := by
  unfold settled
  rw [toFire_setCall_of_not_first s hc]
  rfl

namespace Sound

/-- A call that takes the lock neither first nor as an `add` that waits: it may bring a callback,
which it then holds. -/
theorem enter (h : g.Sound) (hc : g.calls c = .unused) (s : CallState κ)
    (new : List (Callback κ))
    (hself : (setCall c s { g with registered := g.registered ++ new }).CallSound c s)
    (hnew : ∀ cb ∈ new, cb = some c ∧ ∃ st, s = .adding st) :
    (setCall c s { g with registered := g.registered ++ new }).Sound := by
  have hset : (setCall c s { g with registered := g.registered ++ new }).settled = g.settled :=
    settled_setCall_of_not_first (g := { g with registered := g.registered ++ new }) s
      (h.not_first_of_unused hc)
  apply of_callSound
  case fired => exact h.fired
  case status => exact h.status
  case swapped => exact h.swapped
  case early => exact h.early
  case statuses => exact h.statuses
  case nodup => exact hset ▸ h.nodup
  case known =>
    intro cb hcb
    exact List.mem_append_left _ (h.known cb (hset ▸ hcb))
  case calls =>
    refine callSound_setCall ?_ (fun c' hne => (h.callSound c').transfer rfl ?_
      (List.mem_append_left new) (by rw [hset]; exact id))
    · exact hself
    · intro hold hin
      obtain hin | hin := List.mem_append.mp hin
      · exact hold hin
      · exact hne (Option.some.inj (hnew _ hin).1)
  case winner =>
    intro c' st hfirst
    have hne : c' ≠ c := fun heq => h.not_first_of_unused hc st (heq ▸ hfirst)
    simpa [hne] using h.winner c' st hfirst
  case placed =>
    intro cb hcb
    rw [hset]
    obtain hold | hlast := List.mem_append.mp hcb
    · obtain hin | ⟨c', st, hcb', hc'⟩ := h.placed cb hold
      · exact Or.inl hin
      · have hne : c' ≠ c := by
          rintro rfl
          simp [hc] at hc'
        exact Or.inr ⟨c', st, hcb', by simpa [hne] using hc'⟩
    · obtain ⟨hcb', st, hst⟩ := hnew cb hlast
      exact Or.inr ⟨c, st, hcb', by simpa using hst⟩

/-- A null `add`, a `markReadyAndFire` that loses, and the first half of an `add` that waits. -/
theorem return_of_unused (h : g.Sound) (hc : g.calls c = .unused) {r : Option Bool}
    (hr : (g.setCall c (.returned r)).CallSound c (.returned r)) :
    (g.setCall c (.returned r)).Sound := by
  have hs := h.enter hc (.returned r) [] (by simpa only [List.append_nil] using hr) (by simp)
  simpa only [List.append_nil] using hs

/-- An `add` that comes after the swap takes its callback along. -/
theorem hold (h : g.Sound) (hc : g.calls c = .unused) (hfired : g.fired = true) :
    (setCall c (.adding g.status) { g with registered := g.registered ++ [some c] }).Sound := by
  obtain ⟨⟨w, st⟩, hw⟩ := Option.isSome_iff_exists.mp (h.fired ▸ hfired)
  obtain rfl : g.status = st := h.status w st hw
  have hset : (setCall c (.adding g.status)
      { g with registered := g.registered ++ [some c] }).settled = g.settled :=
    settled_setCall_of_not_first (g := { g with registered := g.registered ++ [some c] }) _
      (h.not_first_of_unused hc)
  refine h.enter hc (.adding g.status) [some c] ⟨⟨w, hw⟩, ?_, ?_⟩ (by simp)
  · exact List.mem_append_right _ (List.mem_singleton.mpr rfl)
  · rw [hset]
    exact fun hin => h.fresh c hc (h.known _ hin)

end Sound

namespace Sound

theorem swap (h : g.Sound) (c : κ) (hfirst : g.first = none) (status : ServiceStatus) :
    (setCall c (.firing g.cbs status) { g with
      fired := true, status := status, cbs := [], first := some (c, status) }).Sound := by
  have hset : (setCall c (.firing g.cbs status) { g with
      fired := true, status := status, cbs := [], first := some (c, status) }).settled =
      g.settled := by
    simp [settled, toFire, setCall, hfirst, wasInvoked]
  apply of_callSound
  case fired => rfl
  case status => simp [setCall]
  case swapped => exact fun _ => rfl
  case early => simp [setCall]
  case calls =>
    refine callSound_setCall rfl (fun c' _ => ?_)
    obtain hc' | hc' := h.early_call hfirst c'
    · rw [hc']
      exact h.fresh c' hc'
    · rw [hc']
      trivial
  case statuses =>
    intro cb s hcb
    have hnone : g.invoked = [] := h.early hfirst
    simp [setCall, hnone] at hcb
  case nodup => exact hset ▸ h.nodup
  case known =>
    intro cb hcb
    exact h.known cb (hset ▸ hcb)
  case winner =>
    intro c' s hfirst'
    obtain ⟨rfl, rfl⟩ : c = c' ∧ status = s := by simpa [setCall] using hfirst'
    exact Or.inl ⟨g.cbs, by simp⟩
  case placed =>
    intro cb hcb
    rw [hset]
    obtain hin | ⟨c', s, hcb', hc'⟩ := h.placed cb hcb
    · exact Or.inl hin
    · obtain ⟨⟨w, hw⟩, -⟩ := h.holding c' s hc'
      simp [hfirst] at hw

theorem deliver (h : g.Sound) {s : ServiceStatus} (hc : g.calls c = .adding s) :
    ((g.invoke (some c) s).setCall c (.returned none)).Sound := by
  obtain ⟨⟨w, hw⟩, hreg, hnot⟩ := h.holding c s hc
  have hset : ((g.invoke (some c) s).setCall c (.returned none)).settled.Perm
      (some c :: g.settled) := by
    have htoFire : ((g.invoke (some c) s).setCall c (.returned none)).toFire = g.toFire :=
      toFire_setCall_of_not_first (g := g.invoke (some c) s) _ (h.not_first_of_adding hc)
    simp only [settled, htoFire, wasInvoked_setCall, wasInvoked_invoke, List.append_assoc]
    exact List.perm_middle
  apply of_callSound
  case fired => exact h.fired
  case status => exact h.status
  case swapped => exact h.swapped
  case early =>
    intro hfirst
    exact absurd (hw.symm.trans hfirst) (by simp)
  case statuses =>
    intro cb st hcb
    obtain hold | hlast := List.mem_append.mp hcb
    · exact h.statuses cb st hold
    · obtain ⟨-, rfl⟩ : cb = some c ∧ st = s := by simpa using hlast
      exact ⟨w, hw⟩
  case nodup => exact hset.nodup_iff.mpr (List.nodup_cons.mpr ⟨hnot, h.nodup⟩)
  case known =>
    intro cb hcb
    obtain rfl | hold := List.mem_cons.mp (hset.mem_iff.mp hcb)
    · exact hreg
    · exact h.known cb hold
  case calls =>
    refine callSound_setCall trivial (fun c' hne => (h.callSound c').transfer rfl id id ?_)
    intro hnotin hin
    obtain heq | hold := List.mem_cons.mp (hset.mem_iff.mp hin)
    · exact hne (Option.some.inj heq)
    · exact hnotin hold
  case winner =>
    intro c' st hfirst
    have hne : c' ≠ c := fun heq => h.not_first_of_adding hc st (heq ▸ hfirst)
    simpa [hne] using h.winner c' st hfirst
  case placed =>
    intro cb hcb
    obtain hin | ⟨c', st, hcb', hc'⟩ := h.placed cb hcb
    · exact Or.inl (hset.mem_iff.mpr (List.mem_cons_of_mem _ hin))
    · by_cases heq : c' = c
      · exact Or.inl (hset.mem_iff.mpr (by simp [hcb', heq]))
      · exact Or.inr ⟨c', st, hcb', by simpa [heq] using hc'⟩

end Sound

namespace Sound

/-- The first `markReadyAndFire` goes on: past the swap every callback keeps its place in
`settled`, and the call stays the first one. -/
theorem go_on (h : g.Sound) {s : ServiceStatus} {rest : List (Callback κ)}
    {after : CallState κ} (hc : g.calls c = .firing rest s) (rest' : List (Callback κ))
    (new : List (Callback κ × ServiceStatus))
    (hafter : after = .firing rest' s ∨ after = .returned (some true) ∧ rest' = [])
    (hmoved : new.map Prod.fst ++ rest' = rest) (hnew : ∀ cb st, (cb, st) ∈ new → st = s) :
    (setCall c after { g with invoked := g.invoked ++ new }).Sound := by
  have hfirst : g.first = some (c, s) := h.firing c rest s hc
  have htoFire : (setCall c after { g with invoked := g.invoked ++ new }).toFire = rest' := by
    obtain rfl | ⟨rfl, rfl⟩ := hafter <;> simp [toFire, setCall, hfirst]
  have hset : (setCall c after { g with invoked := g.invoked ++ new }).settled = g.settled := by
    unfold settled
    rw [htoFire, toFire_of_firing hfirst hc, ← hmoved]
    simp [wasInvoked, setCall]
  apply of_callSound
  case fired => exact h.fired
  case status => exact h.status
  case swapped => exact h.swapped
  case early =>
    intro hnone
    exact absurd (hfirst.symm.trans hnone) (by simp)
  case statuses =>
    intro cb st hcb
    obtain hold | hlast := List.mem_append.mp hcb
    · exact h.statuses cb st hold
    · exact ⟨c, (hnew cb st hlast).symm ▸ hfirst⟩
  case nodup => exact hset ▸ h.nodup
  case known =>
    intro cb hcb
    exact h.known cb (hset ▸ hcb)
  case calls =>
    refine callSound_setCall ?_ (fun c' _ =>
      (h.callSound c').transfer rfl id id (by rw [hset]; exact id))
    obtain rfl | ⟨rfl, -⟩ := hafter
    · exact hfirst
    · exact ⟨s, hfirst⟩
  case winner =>
    intro c' st hfirst'
    obtain ⟨rfl, rfl⟩ : c = c' ∧ s = st := by simpa using hfirst.symm.trans hfirst'
    obtain rfl | ⟨rfl, -⟩ := hafter
    · exact Or.inl ⟨rest', by simp⟩
    · exact Or.inr (by simp)
  case placed =>
    intro cb hcb
    rw [hset]
    obtain hin | ⟨c', st, hcb', hc'⟩ := h.placed cb hcb
    · exact Or.inl hin
    · have hne : c' ≠ c := by
        rintro rfl
        simp [hc] at hc'
      exact Or.inr ⟨c', st, hcb', by simpa [hne] using hc'⟩

theorem add (h : g.Sound) (hc : g.calls c = .unused) : (g.add c).Sound := by
  by_cases hfired : g.fired = true
  · have hadd : g.add c =
        setCall c (.adding g.status) { g with registered := g.registered ++ [some c] } :=
      if_pos hfired
    rw [hadd]
    exact h.hold hc hfired
  · have hadd : g.add c = { g.setCall c (.returned none) with
        registered := g.registered ++ [some c]
        cbs := g.cbs ++ [some c] } := if_neg hfired
    have hreturned : (g.setCall c (.returned none)).Sound :=
      h.return_of_unused hc trivial
    rw [hadd]
    exact hreturned.wait (h.first_eq_none hfired) (by simp) (h.fresh c hc)

theorem markReadyAndFire (h : g.Sound) (hc : g.calls c = .unused) (status : ServiceStatus) :
    (g.markReadyAndFire c status).Sound := by
  unfold InitCallbackGate.markReadyAndFire
  by_cases hfired : g.fired = true
  · rw [if_pos hfired]
    exact h.return_of_unused hc (h.fired.symm.trans hfired)
  · rw [if_neg hfired]
    exact h.swap c (h.first_eq_none hfired) status

theorem proceed (h : g.Sound) (hnext : g.proceed c = some g') : g'.Sound := by
  unfold InitCallbackGate.proceed at hnext
  split at hnext
  case h_1 s hc =>
    obtain rfl := Option.some.inj hnext
    exact h.deliver hc
  case h_2 cb rest s hc =>
    obtain rfl := Option.some.inj hnext
    exact h.go_on hc rest [(cb, s)] (Or.inl rfl) rfl (by simp)
  case h_3 s hc =>
    obtain rfl := Option.some.inj hnext
    have hs := h.go_on hc [] [] (Or.inr ⟨rfl, rfl⟩) rfl (by simp)
    simpa only [List.append_nil] using hs
  case h_4 => simp at hnext

theorem step (h : g.Sound) {a : Label κ} (hnext : g.step a = some g') : g'.Sound := by
  cases a with
  | add c nonNull =>
    simp only [InitCallbackGate.step] at hnext
    split_ifs at hnext with hc hnonNull
    · obtain rfl := Option.some.inj hnext
      exact h.add (not_not.mp hc)
    · obtain rfl := Option.some.inj hnext
      exact h.return_of_unused (not_not.mp hc) trivial
  | markReadyAndFire c status =>
    simp only [InitCallbackGate.step] at hnext
    split_ifs at hnext with hc
    obtain rfl := Option.some.inj hnext
    exact h.markReadyAndFire (not_not.mp hc) status
  | proceed c => exact h.proceed hnext

end Sound

theorem sound_run {nonNull : Bool} {l : List (Label κ)}
    (hrun : Trace.run step (construct nonNull) l = some g) : g.Sound := by
  refine Trace.run_invariant (I := Sound) ?_ hrun (sound_construct nonNull)
  intro g a g' hg hnext
  exact hg.step hnext

theorem proceed_returns (hc : g.calls c ≠ .unused) :
    ∃ n g' r, Trace.run step g (List.replicate n (.proceed c)) = some g' ∧
      g'.calls c = .returned r := by
  have hfires (rest : List (Callback κ)) (s : ServiceStatus) :
      ∀ g : InitCallbackGate κ, g.calls c = .firing rest s →
        ∃ n g' r, Trace.run step g (List.replicate n (.proceed c)) = some g' ∧
          g'.calls c = .returned r := by
    induction rest with
    | nil =>
      intro g hfiring
      have hnext : g.step (.proceed c) = some (g.setCall c (.returned (some true))) := by
        simp [step, proceed, hfiring]
      refine ⟨1, g.setCall c (.returned (some true)), some true, ?_, by simp⟩
      simp [Trace.run_cons, hnext]
    | cons cb rest ih =>
      intro g hfiring
      have hnext : g.step (.proceed c) =
          some ((g.invoke cb s).setCall c (.firing rest s)) := by
        simp [step, proceed, hfiring]
      obtain ⟨n, g', r, hrun, hreturned⟩ := ih ((g.invoke cb s).setCall c (.firing rest s))
        (by simp)
      refine ⟨n + 1, g', r, ?_, hreturned⟩
      rw [List.replicate_succ, Trace.run_cons, hnext]
      exact hrun
  cases hcall : g.calls c with
  | unused => exact absurd hcall hc
  | returned r => exact ⟨0, g, r, rfl, hcall⟩
  | firing rest s => exact hfires rest s g hcall
  | adding s =>
    have hnext : g.step (.proceed c) =
        some ((g.invoke (some c) s).setCall c (.returned none)) := by
      simp [step, proceed, hcall]
    refine ⟨1, (g.invoke (some c) s).setCall c (.returned none), none, ?_, by simp⟩
    simp [Trace.run_cons, hnext]

theorem Sound.exactlyOnce (h : g.Sound) : g.ExactlyOnce := by
  have hnodup : g.wasInvoked.Nodup :=
    h.nodup.of_append_left.of_append_left
  constructor
  case atMostOnce => exact hnodup
  case onlyFirst => exact h.won
  case firstStatus =>
    intro cb s hcb
    have hwas : cb ∈ g.wasInvoked := List.mem_map_of_mem (f := Prod.fst) hcb
    exact ⟨h.known cb (mem_settled_of_mem_wasInvoked hwas), h.statuses cb s hcb⟩
  case invoked =>
    intro c s hfirst hc cb hcb hadded
    refine h.mem_wasInvoked_of_returned hfirst hc hcb ?_
    rintro c' s' rfl hadding
    have hreturned : g.calls c' = .returned none := hadded
    simp [hadding] at hreturned
  case quiet =>
    intro hquiet
    constructor
    · intro hmarked
      obtain ⟨c, s, hfirst⟩ := h.first_of_marked hmarked
      have hc : g.calls c = .returned (some true) := h.returned_of_quiet hquiet hfirst
      refine ⟨fun cb hcb => ?_, c, hc, fun c' hc' => ?_⟩
      · refine List.count_eq_one_of_mem hnodup (h.mem_wasInvoked_of_returned hfirst hc hcb ?_)
        intro c' s' _ hadding
        obtain hunused | ⟨result, hresult⟩ := hquiet c'
        · simp [hadding] at hunused
        · simp [hadding] at hresult
      · obtain ⟨s', hfirst'⟩ := h.won c' hc'
        simpa using congrArg (Option.map Prod.fst) (hfirst'.symm.trans hfirst)
    · intro hmarked
      refine h.early ?_
      cases hfirst : g.first with
      | none => rfl
      | some w =>
        obtain ⟨c, s⟩ := w
        exact absurd ⟨c, true, h.returned_of_quiet hquiet hfirst⟩ hmarked

/-- For any number of calls, in any interleaving of their critical sections and invocations. -/
theorem exactlyOnce_run (nonNull : Bool) (l : List (Label κ))
    (hrun : Trace.run step (construct nonNull) l = some g) : g.ExactlyOnce :=
  (sound_run hrun).exactlyOnce

/-- Call 2 swaps the list out; 3 is added before the list has been fired; 4 comes second. -/
def contendedRun : List (Label ℕ) :=
  [.add 1 true, .markReadyAndFire 2 .available, .add 3 true, .markReadyAndFire 4 .failed,
    .proceed 2, .add 5 false, .proceed 3, .proceed 2, .proceed 2]

theorem exactlyOnce_contendedRun : ∃ g, Trace.run step (construct true) contendedRun = some g ∧
    g.invoked = [(none, .available), (some 3, .available), (some 1, .available)] ∧
    g.ExactlyOnce := by
  have hmap : (Trace.run step (construct true) contendedRun).map invoked =
      some [(none, .available), (some 3, .available), (some 1, .available)] := by
    decide +kernel
  obtain ⟨g, hrun, hinvoked⟩ := Option.map_eq_some_iff.mp hmap
  exact ⟨g, hrun, hinvoked, exactlyOnce_run true contendedRun hrun⟩

end InitCallbackGate

end TelafSim.InitGate
