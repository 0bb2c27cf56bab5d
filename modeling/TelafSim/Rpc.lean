import TelafSim.Trace

/-!
# Calls of one object over a channel that loses

Any number of callers send the object requests, each for one operation, and wait for the answers.
A request or an answer may be lost, a call may end without an answer, and a request whose call has
ended may still be handled, in any order. The `log` of calls, of what the object handles and of
returns is the history of the operations: if the object refines `spec`, each operation that is
answered takes effect between its call and its return.
-/

namespace TelafSim.Rpc

variable {κ ε δ ω ρ σ τ : Type}

inductive Call
  | unused
  | waiting
  | returned
  deriving DecidableEq

/-- What has happened: a call of an operation, its handling by the object, or its return with or
without an answer. -/
inductive Entry (κ ω ρ : Type)
  | called (c : κ) (op : ω)
  | handled (c : κ) (op : ω) (answer : ρ)
  | returned (c : κ) (answer : Option ρ)
  deriving DecidableEq

/-- How the object handles an operation, which answers it can send, and what it is after a new
start, if it comes up. `ε` and `δ` are what the surroundings add. -/
structure Service (ε δ ω ρ σ : Type) where
  handle : ε → σ → ω → ρ × σ
  sends : ρ → Bool
  restart : δ → σ → Option σ

structure State (κ ω ρ σ : Type) where
  object : σ
  requests : List (κ × ω)
  responses : List (κ × ρ)
  calls : κ → Call
  log : List (Entry κ ω ρ)

namespace State

def initial (object : σ) : State κ ω ρ σ where
  object := object
  requests := []
  responses := []
  calls := fun _ => .unused
  log := []

section Steps

variable [DecidableEq κ]

def open_ (c : κ) (op : ω) (s : State κ ω ρ σ) : State κ ω ρ σ :=
  { s with calls := Function.update s.calls c .waiting, log := s.log ++ [.called c op] }

def close (c : κ) (answer : Option ρ) (s : State κ ω ρ σ) : State κ ω ρ σ :=
  { s with calls := Function.update s.calls c .returned, log := s.log ++ [.returned c answer] }

def call (c : κ) (op : ω) (s : State κ ω ρ σ) : State κ ω ρ σ :=
  { s.open_ c op with requests := s.requests ++ [(c, op)] }

end Steps

def handle (service : Service ε δ ω ρ σ) (e : ε) (c : κ) (op : ω) (s : State κ ω ρ σ) :
    State κ ω ρ σ :=
  let answer := (service.handle e s.object op).1
  { s with
    object := (service.handle e s.object op).2
    responses := if service.sends answer then s.responses ++ [(c, answer)] else s.responses
    log := s.log ++ [.handled c op answer] }

inductive Label (κ ε δ ω ρ : Type)
  | call (c : κ) (op : ω)
  /-- A call that sends no request. -/
  | reject (c : κ) (op : ω)
  | handle (e : ε) (c : κ) (op : ω)
  | loseRequest (c : κ) (op : ω)
  | respond (c : κ) (answer : ρ)
  | loseResponse (c : κ) (answer : ρ)
  | timeout (c : κ)
  | restart (d : δ)
  deriving DecidableEq

def step [DecidableEq κ] [DecidableEq ω] [DecidableEq ρ] (service : Service ε δ ω ρ σ)
    (s : State κ ω ρ σ) : Label κ ε δ ω ρ → Option (State κ ω ρ σ)
  | .call c op => if s.calls c = .unused then some (s.call c op) else none
  | .reject c op => if s.calls c = .unused then some ((s.open_ c op).close c none) else none
  | .handle e c op =>
    if (c, op) ∈ s.requests then
      some ({ s with requests := s.requests.erase (c, op) }.handle service e c op)
    else none
  | .loseRequest c op =>
    if (c, op) ∈ s.requests then some { s with requests := s.requests.erase (c, op) } else none
  | .respond c answer =>
    if (c, answer) ∈ s.responses ∧ s.calls c = .waiting then
      some ({ s with responses := s.responses.erase (c, answer) }.close c (some answer))
    else none
  | .loseResponse c answer =>
    if (c, answer) ∈ s.responses then
      some { s with responses := s.responses.erase (c, answer) }
    else none
  | .timeout c => if s.calls c = .waiting then some (s.close c none) else none
  | .restart d => (service.restart d s.object).map (fun object => { s with object := object })

end State

/-! ### The history -/

/-- What the operations handled so far leave of `t`. -/
def replay (spec : τ → ω → ρ × τ) (t : τ) (log : List (Entry κ ω ρ)) : τ :=
  log.foldl (fun t e =>
    match e with
    | .handled _ op _ => (spec t op).2
    | _ => t) t

/-- An entry suits those before it. A call is made once; its operation is handled at most once,
after the call and before the answer is returned, and is answered as those handled before it have
left the object; a call returns once. -/
def Linear (spec : τ → ω → ρ × τ) (t : τ) (log : List (Entry κ ω ρ)) : Entry κ ω ρ → Prop
  | .called c _ => ∀ op, .called c op ∉ log
  | .handled c op answer => .called c op ∈ log ∧ (∀ op' a, .handled c op' a ∉ log) ∧
    answer = (spec (replay spec t log) op).1
  | .returned c answer => (∃ op, .called c op ∈ log) ∧ (∀ a, .returned c a ∉ log) ∧
    ∀ a, answer = some a → ∃ op, .handled c op a ∈ log

/-- The object does and answers what `spec` says. -/
def Refines (service : Service ε δ ω ρ σ) (spec : τ → ω → ρ × τ) (R : σ → τ → Prop) : Prop :=
  ∀ e s t op, R s t → (service.handle e s op).1 = (spec t op).1 ∧
    R (service.handle e s op).2 (spec t op).2

section Replay

variable {spec : τ → ω → ρ × τ} {t : τ} {log : List (Entry κ ω ρ)} {c : κ} {op : ω}

@[simp] theorem replay_called :
    replay spec t (log ++ [.called c op]) = replay spec t log := by
  simp [replay]

@[simp] theorem replay_returned {answer : Option ρ} :
    replay spec t (log ++ [.returned c answer]) = replay spec t log := by
  simp [replay]

@[simp] theorem replay_handled {answer : ρ} :
    replay spec t (log ++ [.handled c op answer]) = (spec (replay spec t log) op).2 := by
  simp [replay]

end Replay

namespace State

structure Sound (s : State κ ω ρ σ) : Prop where
  unused : ∀ c, s.calls c = .unused → ∀ op, .called c op ∉ s.log
  waiting : ∀ c, s.calls c = .waiting → ∃ op, .called c op ∈ s.log
  unreturned : ∀ c, s.calls c ≠ .returned → ∀ a, .returned c a ∉ s.log
  handled : ∀ c op a, .handled c op a ∈ s.log → .called c op ∈ s.log
  request : ∀ p ∈ s.requests, .called p.1 p.2 ∈ s.log ∧ ∀ op a, .handled p.1 op a ∉ s.log
  once : (s.requests.map Prod.fst).Nodup
  response : ∀ p ∈ s.responses, ∃ op, .handled p.1 op p.2 ∈ s.log

theorem sound_initial (object : σ) : (initial object : State κ ω ρ σ).Sound where
  unused := by simp [initial]
  waiting := by simp [initial]
  unreturned := by simp [initial]
  handled := by simp [initial]
  request := by simp [initial]
  once := by simp [initial]
  response := by simp [initial]

section Rules

variable {s : State κ ω ρ σ} {c : κ} {op : ω}

theorem Sound.not_handled (h : s.Sound) (hc : s.calls c = .unused) (op : ω) (a : ρ) :
    .handled c op a ∉ s.log := by
  intro hmem
  exact h.unused c hc op (h.handled c op a hmem)

theorem Sound.not_requested (h : s.Sound) (hc : s.calls c = .unused) :
    c ∉ s.requests.map Prod.fst := by
  intro hmem
  obtain ⟨p, hp, rfl⟩ := List.mem_map.mp hmem
  exact h.unused p.1 hc p.2 (h.request p hp).1

theorem Sound.handle (h : s.Sound) (service : Service ε δ ω ρ σ) (e : ε)
    (hcalled : .called c op ∈ s.log) (hreq : c ∉ s.requests.map Prod.fst) :
    (s.handle service e c op).Sound where
  unused := by
    intro c' hc' op'
    simpa [State.handle] using h.unused c' hc' op'
  waiting := by
    intro c' hc'
    obtain ⟨op', hop'⟩ := h.waiting c' hc'
    exact ⟨op', List.mem_append_left _ hop'⟩
  unreturned := by
    intro c' hc' a
    simpa [State.handle] using h.unreturned c' hc' a
  handled := by
    intro c' op' a hmem
    simp only [State.handle, List.mem_append, List.mem_singleton] at hmem
    rcases hmem with hmem | hmem
    · exact List.mem_append_left _ (h.handled c' op' a hmem)
    · obtain ⟨rfl, rfl, -⟩ := Entry.handled.inj hmem
      exact List.mem_append_left _ hcalled
  request := by
    intro p hp
    obtain ⟨hmem, hnot⟩ := h.request p hp
    have hne : p.1 ≠ c := by
      rintro rfl
      exact hreq (List.mem_map_of_mem hp)
    simp [State.handle, hmem, hnot, hne]
  once := h.once
  response := by
    intro p hp
    have hcases : p ∈ s.responses ∨ p = (c, (service.handle e s.object op).1) := by
      simp only [State.handle] at hp
      split at hp
      · simpa using hp
      · exact Or.inl hp
    rcases hcases with hp | rfl
    · obtain ⟨op', hmem⟩ := h.response p hp
      exact ⟨op', List.mem_append_left _ hmem⟩
    · exact ⟨op, by simp [State.handle]⟩

variable [DecidableEq κ]

theorem Sound.open_ (h : s.Sound) (op : ω) (hc : s.calls c = .unused) :
    (s.open_ c op).Sound where
  unused := by
    intro c' hc' op'
    have hne : c' ≠ c := by
      rintro rfl
      simp [State.open_] at hc'
    have hold : s.calls c' = .unused := by
      simpa [State.open_, hne] using hc'
    simp [State.open_, hne, h.unused c' hold op']
  waiting := by
    intro c' hc'
    by_cases hne : c' = c
    · subst hne
      exact ⟨op, by simp [State.open_]⟩
    · have hold : s.calls c' = .waiting := by
        simpa [State.open_, hne] using hc'
      obtain ⟨op', hop'⟩ := h.waiting c' hold
      exact ⟨op', List.mem_append_left _ hop'⟩
  unreturned := by
    intro c' hc' a
    have hold : s.calls c' ≠ .returned := by
      by_cases hne : c' = c
      · rw [hne, hc]
        simp
      · simpa [State.open_, hne] using hc'
    simpa [State.open_] using h.unreturned c' hold a
  handled := by
    intro c' op' a hmem
    have hold : .handled c' op' a ∈ s.log := by
      simpa [State.open_] using hmem
    exact List.mem_append_left _ (h.handled c' op' a hold)
  request := by
    intro p hp
    obtain ⟨hcalled, hnot⟩ := h.request p hp
    refine ⟨List.mem_append_left _ hcalled, ?_⟩
    simpa [State.open_] using hnot
  once := h.once
  response := by
    intro p hp
    obtain ⟨op', hmem⟩ := h.response p hp
    exact ⟨op', List.mem_append_left _ hmem⟩

theorem Sound.call (h : s.Sound) (hc : s.calls c = .unused) : (s.call c op).Sound where
  __ := h.open_ op hc
  request := by
    intro p hp
    rcases List.mem_append.mp hp with hp | hp
    · exact (h.open_ op hc).request p hp
    · obtain rfl := List.mem_singleton.mp hp
      refine ⟨by simp [State.call, State.open_], ?_⟩
      intro op' a
      simpa [State.call, State.open_] using h.not_handled hc op' a
  once := by
    have hnot := h.not_requested hc
    simp only [State.call, List.map_append, List.map_cons, List.map_nil]
    exact h.once.append (List.nodup_singleton c) (by simpa using hnot)

theorem Sound.close (h : s.Sound) (hc : s.calls c = .waiting) (answer : Option ρ) :
    (s.close c answer).Sound where
  unused := by
    intro c' hc' op'
    have hne : c' ≠ c := by
      rintro rfl
      simp [State.close] at hc'
    have hold : s.calls c' = .unused := by
      simpa [State.close, hne] using hc'
    simpa [State.close] using h.unused c' hold op'
  waiting := by
    intro c' hc'
    have hne : c' ≠ c := by
      rintro rfl
      simp [State.close] at hc'
    have hold : s.calls c' = .waiting := by
      simpa [State.close, hne] using hc'
    obtain ⟨op', hop'⟩ := h.waiting c' hold
    exact ⟨op', List.mem_append_left _ hop'⟩
  unreturned := by
    intro c' hc' a
    have hne : c' ≠ c := by
      rintro rfl
      simp [State.close] at hc'
    have hold : s.calls c' ≠ .returned := by
      simpa [State.close, hne] using hc'
    simp [State.close, hne, h.unreturned c' hold a]
  handled := by
    intro c' op' a hmem
    have hold : .handled c' op' a ∈ s.log := by
      simpa [State.close] using hmem
    exact List.mem_append_left _ (h.handled c' op' a hold)
  request := by
    intro p hp
    obtain ⟨hcalled, hnot⟩ := h.request p hp
    refine ⟨List.mem_append_left _ hcalled, ?_⟩
    simpa [State.close] using hnot
  once := h.once
  response := by
    intro p hp
    obtain ⟨op', hmem⟩ := h.response p hp
    exact ⟨op', List.mem_append_left _ hmem⟩

end Rules

section Erase

variable {s : State κ ω ρ σ} {c : κ} {op : ω}

theorem Sound.erase_request [DecidableEq κ] [DecidableEq ω] (h : s.Sound) (p : κ × ω) :
    { s with requests := s.requests.erase p }.Sound where
  __ := h
  request := fun q hq => h.request q (List.mem_of_mem_erase hq)
  once := h.once.sublist (List.erase_sublist.map Prod.fst)

theorem Sound.erase_response [DecidableEq κ] [DecidableEq ρ] (h : s.Sound) (p : κ × ρ) :
    { s with responses := s.responses.erase p }.Sound where
  __ := h
  response := fun q hq => h.response q (List.mem_of_mem_erase hq)

theorem Sound.not_mem_erase [DecidableEq κ] [DecidableEq ω] (h : s.Sound)
    (hmem : (c, op) ∈ s.requests) : c ∉ (s.requests.erase (c, op)).map Prod.fst := by
  have hperm := (List.perm_cons_erase hmem).map Prod.fst
  have hnodup := hperm.nodup_iff.mp h.once
  exact (List.nodup_cons.mp hnodup).1

end Erase

section Steps

variable [DecidableEq κ] [DecidableEq ω] [DecidableEq ρ] {service : Service ε δ ω ρ σ}
  {s s' : State κ ω ρ σ} {c : κ} {op : ω} {l : Label κ ε δ ω ρ}

theorem sound_step (h : s.Sound) (hstep : step service s l = some s') : s'.Sound := by
  cases l with
  | call c op =>
    obtain ⟨hc, ⟨⟩⟩ := Option.ite_none_right_eq_some.mp hstep
    exact h.call hc
  | reject c op =>
    obtain ⟨hc, ⟨⟩⟩ := Option.ite_none_right_eq_some.mp hstep
    exact (h.open_ _ hc).close (by simp [State.open_]) none
  | handle e c op =>
    obtain ⟨hmem, ⟨⟩⟩ := Option.ite_none_right_eq_some.mp hstep
    exact (h.erase_request (c, op)).handle service e (h.request _ hmem).1 (h.not_mem_erase hmem)
  | loseRequest c op =>
    obtain ⟨-, ⟨⟩⟩ := Option.ite_none_right_eq_some.mp hstep
    exact h.erase_request (c, op)
  | respond c answer =>
    obtain ⟨⟨-, hc⟩, ⟨⟩⟩ := Option.ite_none_right_eq_some.mp hstep
    exact (h.erase_response (c, answer)).close hc _
  | loseResponse c answer =>
    obtain ⟨-, ⟨⟩⟩ := Option.ite_none_right_eq_some.mp hstep
    exact h.erase_response (c, answer)
  | timeout c =>
    obtain ⟨hc, ⟨⟩⟩ := Option.ite_none_right_eq_some.mp hstep
    exact h.close hc none
  | restart d =>
    obtain ⟨object, hobject, rfl⟩ := Option.map_eq_some_iff.mp hstep
    exact { h with }

theorem log_step (hstep : step service s l = some s') : s.log <+: s'.log := by
  cases l with
  | call c op =>
    obtain ⟨-, ⟨⟩⟩ := Option.ite_none_right_eq_some.mp hstep
    exact List.prefix_append _ _
  | reject c op =>
    obtain ⟨-, ⟨⟩⟩ := Option.ite_none_right_eq_some.mp hstep
    exact (List.prefix_append _ _).trans (List.prefix_append _ _)
  | handle e c op =>
    obtain ⟨-, ⟨⟩⟩ := Option.ite_none_right_eq_some.mp hstep
    exact List.prefix_append _ _
  | loseRequest c op =>
    obtain ⟨-, ⟨⟩⟩ := Option.ite_none_right_eq_some.mp hstep
    exact List.prefix_rfl
  | respond c answer =>
    obtain ⟨-, ⟨⟩⟩ := Option.ite_none_right_eq_some.mp hstep
    exact List.prefix_append _ _
  | loseResponse c answer =>
    obtain ⟨-, ⟨⟩⟩ := Option.ite_none_right_eq_some.mp hstep
    exact List.prefix_rfl
  | timeout c =>
    obtain ⟨-, ⟨⟩⟩ := Option.ite_none_right_eq_some.mp hstep
    exact List.prefix_append _ _
  | restart d =>
    obtain ⟨object, hobject, rfl⟩ := Option.map_eq_some_iff.mp hstep
    exact List.prefix_rfl

variable {spec : τ → ω → ρ × τ} {t : τ} {R : σ → τ → Prop}

/-- The object is what the operations handled so far leave of `t`. -/
def Agrees (spec : τ → ω → ρ × τ) (t : τ) (R : σ → τ → Prop) (s : State κ ω ρ σ) : Prop :=
  R s.object (replay spec t s.log)

def RestartKeeps (service : Service ε δ ω ρ σ) (spec : τ → ω → ρ × τ) (t : τ) (R : σ → τ → Prop)
    (s : State κ ω ρ σ) (l : Label κ ε δ ω ρ) : Prop :=
  ∀ d object, l = .restart d → service.restart d s.object = some object →
    R object (replay spec t s.log)

theorem agrees_step (href : Refines service spec R) (h : Agrees spec t R s)
    (hstep : step service s l = some s') :
    RestartKeeps service spec t R s l ↔ Agrees spec t R s' := by
  cases l with
  | call c op =>
    obtain ⟨-, ⟨⟩⟩ := Option.ite_none_right_eq_some.mp hstep
    refine iff_of_true (by rintro d object ⟨⟩) ?_
    simpa [Agrees, State.call, State.open_] using h
  | reject c op =>
    obtain ⟨-, ⟨⟩⟩ := Option.ite_none_right_eq_some.mp hstep
    refine iff_of_true (by rintro d object ⟨⟩) ?_
    unfold Agrees State.close State.open_
    rw [replay_returned, replay_called]
    exact h
  | handle e c op =>
    obtain ⟨-, ⟨⟩⟩ := Option.ite_none_right_eq_some.mp hstep
    refine iff_of_true (by rintro d object ⟨⟩) ?_
    simpa [Agrees, State.handle] using (href e _ _ op h).2
  | loseRequest c op =>
    obtain ⟨-, ⟨⟩⟩ := Option.ite_none_right_eq_some.mp hstep
    exact iff_of_true (by rintro d object ⟨⟩) h
  | respond c answer =>
    obtain ⟨-, ⟨⟩⟩ := Option.ite_none_right_eq_some.mp hstep
    refine iff_of_true (by rintro d object ⟨⟩) ?_
    simpa [Agrees, State.close] using h
  | loseResponse c answer =>
    obtain ⟨-, ⟨⟩⟩ := Option.ite_none_right_eq_some.mp hstep
    exact iff_of_true (by rintro d object ⟨⟩) h
  | timeout c =>
    obtain ⟨-, ⟨⟩⟩ := Option.ite_none_right_eq_some.mp hstep
    refine iff_of_true (by rintro d object ⟨⟩) ?_
    simpa [Agrees, State.close] using h
  | restart d =>
    obtain ⟨object, hobject, rfl⟩ := Option.map_eq_some_iff.mp hstep
    refine ⟨fun hkeeps => hkeeps d object rfl hobject, ?_⟩
    rintro hR d' object' ⟨⟩ hobject'
    obtain rfl := Option.some.inj (hobject.symm.trans hobject')
    exact hR

/-- Each entry suits those before it, as long as the object is what they leave. -/
theorem linear_step (href : Refines service spec R) (h : s.Sound)
    (heach : History.Each (Linear spec t) s.log) (hagrees : Agrees spec t R s)
    (hstep : step service s l = some s') : History.Each (Linear spec t) s'.log := by
  cases l with
  | call c op =>
    obtain ⟨hc, ⟨⟩⟩ := Option.ite_none_right_eq_some.mp hstep
    exact History.each_concat.mpr ⟨heach, h.unused c hc⟩
  | reject c op =>
    obtain ⟨hc, ⟨⟩⟩ := Option.ite_none_right_eq_some.mp hstep
    have hopen : History.Each (Linear spec t) (s.log ++ [.called c op]) :=
      History.each_concat.mpr ⟨heach, h.unused c hc⟩
    refine History.each_concat.mpr ⟨hopen, ⟨op, by simp [State.open_]⟩, ?_, by simp⟩
    intro a
    simpa [State.open_] using h.unreturned c (by simp [hc]) a
  | handle e c op =>
    obtain ⟨hmem, ⟨⟩⟩ := Option.ite_none_right_eq_some.mp hstep
    obtain ⟨hcalled, hnot⟩ := h.request _ hmem
    exact History.each_concat.mpr ⟨heach, hcalled, hnot, (href e _ _ op hagrees).1⟩
  | loseRequest c op =>
    obtain ⟨-, ⟨⟩⟩ := Option.ite_none_right_eq_some.mp hstep
    exact heach
  | respond c answer =>
    obtain ⟨⟨hmem, hc⟩, ⟨⟩⟩ := Option.ite_none_right_eq_some.mp hstep
    refine History.each_concat.mpr ⟨heach, h.waiting c hc, h.unreturned c (by simp [hc]), ?_⟩
    rintro a ⟨⟩
    exact h.response _ hmem
  | loseResponse c answer =>
    obtain ⟨-, ⟨⟩⟩ := Option.ite_none_right_eq_some.mp hstep
    exact heach
  | timeout c =>
    obtain ⟨hc, ⟨⟩⟩ := Option.ite_none_right_eq_some.mp hstep
    exact History.each_concat.mpr ⟨heach, h.waiting c hc, h.unreturned c (by simp [hc]), by simp⟩
  | restart d =>
    obtain ⟨object, hobject, rfl⟩ := Option.map_eq_some_iff.mp hstep
    exact heach

/-- In a run whose new starts leave the object as it was, the log is a history of `spec`. -/
theorem history_run {object : σ} {ls : List (Label κ ε δ ω ρ)} (href : Refines service spec R)
    (hinit : R object t)
    (hkeeps : Trace.AllSteps (step service) (RestartKeeps service spec t R) (initial object) ls)
    (hrun : Trace.run (step service) (initial object) ls = some s) :
    s.Sound ∧ Agrees spec t R s ∧ History.Each (Linear spec t) s.log := by
  refine Trace.run_invariant_of
    (I := fun s => s.Sound ∧ Agrees spec t R s ∧ History.Each (Linear spec t) s.log) ?_ hkeeps hrun
    ⟨sound_initial object, hinit, History.each_nil⟩
  rintro s l s' ⟨hs, hagrees, heach⟩ hok hstep
  exact ⟨sound_step hs hstep, (agrees_step href hagrees hstep).mp hok,
    linear_step href hs heach hagrees hstep⟩

end Steps

end State

end TelafSim.Rpc
