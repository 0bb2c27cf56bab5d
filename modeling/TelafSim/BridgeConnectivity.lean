import TelafSim.BridgeNet
import TelafSim.Roster

/-!
# What the connectivity observers are told

An observer should be told `true` when the bridge becomes Operational, or at once when it registers
with a bridge that is, and `false` when the bridge leaves Operational. Entering Backoff and
ShuttingDown tells every observer `false` once more. So the observers are told what they should
exactly as long as none is registered when one of the two is entered.
-/

namespace TelafSim.ModemBridge

variable {δ : Type}

open Bridge
open BridgeAO (calm)

def Effect.notice : Effect δ → Option (ℕ × Bool)
  | .connectivity token up => some (token, up)
  | _ => none

namespace Bridge

def notices (b : Bridge δ) : List (ℕ × Bool) := b.effects.filterMap Effect.notice

section Notices

variable (b : Bridge δ)

theorem notices_emit (es : List (Effect δ)) :
    (b.emit es).notices = b.notices ++ es.filterMap Effect.notice := by
  simp [notices, emit]

theorem notices_emit_plain {f : Effect δ} (hf : f.notice = none) :
    (b.emit [f]).notices = b.notices := by
  rw [notices_emit, List.filterMap_cons_none hf, List.filterMap_nil, List.append_nil]

@[simp] theorem notices_notifyConnectivity (up : Bool) :
    (b.notifyConnectivity up).notices = b.notices ++ b.observers.map (·, up) := by
  rw [notifyConnectivity, notices_emit, List.filterMap_map]
  congr 1
  exact congrFun (List.filterMap_eq_map (f := (·, up))) b.observers

@[simp] theorem notices_failAllInFlight : b.failAllInFlight.notices = b.notices := by
  have hnone : (b.inFlight.map (fun i => Effect.invoke i.corrId none) ++
      b.deferred.filterMap failDeferred : List (Effect δ)).filterMap Effect.notice = [] := by
    rw [List.filterMap_eq_nil_iff]
    intro f hf
    rcases List.mem_append.mp hf with hf | hf
    · obtain ⟨i, -, rfl⟩ := List.mem_map.mp hf
      rfl
    · obtain ⟨e, -, he⟩ := List.mem_filterMap.mp hf
      cases e <;> simp only [failDeferred, reduceCtorEq, Option.some.injEq] at he
      subst he
      rfl
  rw [notices, failAllInFlight, emit]
  simp only [List.filterMap_append] at hnone ⊢
  rw [hnone, List.append_nil]
  rfl

@[simp] theorem notices_recallAll : b.recallAll.notices = b.notices := by
  have hnone : (b.deferred.map (Effect.postFifo : _ → Effect δ)).filterMap Effect.notice = [] := by
    simp [List.filterMap_map, Function.comp_def, Effect.notice]
  rw [notices, recallAll, emit, List.filterMap_append, hnone, List.append_nil]
  rfl

@[simp] theorem notices_issueAllSubscribes : b.issueAllSubscribes.notices = b.notices := by
  rw [issueAllSubscribes, notices_emit]
  simp [List.filterMap_map, Function.comp_def, Effect.notice]

@[simp] theorem notices_note (sg : Signal) : (b.note sg).notices = b.notices := by
  rcases sg with _ | _ | ok | _ | _ | _ | _ | _ | _ | _ | _ | _ | _ | _ | _ <;> try rfl
  cases ok <;> rfl

end Notices

end Bridge

/-- What the observers should be told when an event leads from `st` to `st'`. -/
def dueNotices (st st' : BridgeState) (e : BridgeEvent δ) (observers : List ℕ) : List (ℕ × Bool) :=
  if st ≠ .operational ∧ st' = .operational then observers.map (·, true)
  else if st = .operational ∧ st' ≠ .operational then observers.map (·, false)
  else
    match e with
    | .subscribeConnectivity token => if st = .operational then [(token, true)] else []
    | _ => []

/-- Backoff and ShuttingDown are entered. -/
def fallsTo (st : BridgeState) (e : BridgeEvent δ) : Bool :=
  target st e.signal = some .backoff || target st e.signal = some .shuttingDown

section React

variable (valid : String → δ → Bool) {st : BridgeState} {e : BridgeEvent δ} {b : Bridge δ}

theorem dueNotices_self (st : BridgeState) (e : BridgeEvent δ) (observers : List ℕ) :
    dueNotices st st e observers =
      match e with
      | .subscribeConnectivity token => if st = .operational then [(token, true)] else []
      | _ => [] := by
  unfold dueNotices
  rw [if_neg (fun h => h.1 h.2), if_neg (fun h => h.2 h.1)]

theorem handle_notices (h : target st e.signal = none) :
    (handle valid st e b).notices = b.notices ++ dueNotices st st e b.observers := by
  rw [dueNotices_self]
  by_cases hreg : ∃ token, e = .subscribeConnectivity token
  · obtain ⟨token, rfl⟩ := hreg
    dsimp only [handle]
    by_cases hop : st = .operational
    · simp only [hop, reduceCtorEq, if_false, if_true]
      exact notices_emit b _
    · rw [if_neg hop, if_neg hop, List.append_nil]
      split <;> rfl
  · obtain ⟨es, heq, hes⟩ := handle_leaves valid st e b
    have hnone : es.filterMap Effect.notice = [] := by
      rw [List.filterMap_eq_nil_iff]
      intro f hf
      have hemits := hes f hf
      cases f with
      | connectivity token up =>
        rcases hemits with ⟨-, hsome⟩ | ⟨-, he⟩
        · rw [h] at hsome
          cases hsome
        · exact absurd ⟨token, he⟩ hreg
      | _ => rfl
    rw [notices, heq, List.filterMap_append, hnone]
    cases e with
    | subscribeConnectivity token => exact absurd ⟨token, rfl⟩ hreg
    | _ => rfl

def entryNotices (st' : BridgeState) (observers : List ℕ) : List (ℕ × Bool) :=
  match st' with
  | .operational => observers.map (·, true)
  | .backoff => observers.map (·, false)
  | .shuttingDown => observers.map (·, false)
  | _ => []

theorem leave_notices (st : BridgeState) (b : Bridge δ) : (leave st b).notices =
    b.notices ++ if st = .operational then b.observers.map (·, false) else [] := by
  cases st <;> simp [leave]

theorem enter_notices (st' : BridgeState) (b : Bridge δ) :
    (enter st' b).notices = b.notices ++ entryNotices st' b.observers := by
  cases st' with
  | connecting =>
    dsimp only [enter, entryNotices]
    rw [List.append_nil]
    split
    · rfl
    · exact notices_emit_plain b rfl
  | subscribing =>
    refine (notices_emit_plain _ rfl).trans ?_
    simp [entryNotices]
  | shuttingDown =>
    refine (notices_emit_plain _ rfl).trans ?_
    simp [entryNotices]
  | operational => simp [enter, entryNotices]
  | backoff => simp [enter, entryNotices]
  | _ => exact (List.append_nil _).symm

/-- The leaf that is left, the leaf that is entered, and what the observers hear. -/
theorem crossing_notices {st' : BridgeState} (h : target st e.signal = some st') :
    (enter st' (leave st (note e.signal b))).notices =
      b.notices ++ dueNotices st st' e b.observers ++
        if fallsTo st e then b.observers.map (·, false) else [] := by
  obtain ⟨hobs, -⟩ := leave_frame st (note e.signal b)
  obtain ⟨-, hobs', -⟩ := note_frame e.signal b
  rw [enter_notices, leave_notices, notices_note, hobs, hobs', List.append_assoc,
    List.append_assoc]
  congr 1
  have hnot : ∀ token, e ≠ .subscribeConnectivity token := by
    rintro token rfl
    cases st <;> cases h
  have hdue : dueNotices st st' e b.observers =
      if st ≠ .operational ∧ st' = .operational then b.observers.map (·, true)
      else if st = .operational ∧ st' ≠ .operational then b.observers.map (·, false) else [] := by
    unfold dueNotices
    split
    · rfl
    · split
      · rfl
      · split
        · exact absurd rfl (hnot _)
        · rfl
  rw [hdue]
  unfold fallsTo
  rw [h]
  have htarget : ∀ st sg, (target st sg).all (fun st' => st' = .operational → st = .subscribing) := by
    decide
  have hop := htarget st e.signal
  rw [h, Option.all_some, decide_eq_true_eq] at hop
  have hdown : ∀ st sg, (target st sg).all
      (fun st' => st = .operational → st' = .backoff ∨ st' = .shuttingDown) := by
    decide
  have hfall := hdown st e.signal
  rw [h, Option.all_some, decide_eq_true_eq] at hfall
  cases st' with
  | operational => simp [hop rfl, entryNotices]
  | backoff => by_cases hst : st = .operational <;> simp [hst, entryNotices]
  | shuttingDown => by_cases hst : st = .operational <;> simp [hst, entryNotices]
  | _ =>
    have hst : st ≠ .operational := fun hst => by simpa using hfall hst
    simp [hst, entryNotices]

/-- An event tells the observers what it should, and `false` once more when it leads to Backoff or
ShuttingDown. -/
theorem react_notices (st : BridgeState) (e : BridgeEvent δ) (b : Bridge δ) :
    (react valid st e b).2.notices =
    b.notices ++ dueNotices st (react valid st e b).1 e b.observers ++
      if fallsTo st e then b.observers.map (·, false) else [] := by
  unfold react
  split
  · rename_i st' h
    exact crossing_notices h
  · rename_i h
    have hfalls : fallsTo st e = false := by simp [fallsTo, h]
    rw [hfalls, if_neg (by decide), List.append_nil]
    exact handle_notices valid h

end React

def tokenOf : BridgeEvent δ → Option ℕ
  | .subscribeConnectivity token => some token
  | _ => none

/-- A run of the bridge with the calls of its observers. -/
structure ObserverLog (δ : Type) where
  net : BridgeNet δ
  calls : List (ℕ × Bool)
  /-- One `true` for every entry into Operational and for every registration there, one `false` for
  every exit. -/
  due : List (ℕ × Bool)

namespace ObserverLog

def called (n : BridgeNet δ) : BridgeNet.Label δ → List (ℕ × Bool)
  | .effect => (n.ao.todo.head?.bind Effect.notice).toList
  | _ => []

/-- What the observers should be told by a step from `n` to `n'`. -/
def dueIn (n n' : BridgeNet δ) : BridgeNet.Label δ → List (ℕ × Bool)
  | .take _ =>
    match n.state, n.ao.queue, n'.state with
    | some st, e :: _, some st' => dueNotices st st' e n.bridge.observers
    | _, _, _ => []
  | _ => []

variable (valid : String → δ → Bool)

def step (h : ObserverLog δ) (l : BridgeNet.Label δ) : Option (ObserverLog δ) :=
  (h.net.step valid l).map (fun n =>
    ⟨n, h.calls ++ called h.net l, h.due ++ dueIn h.net n l⟩)

def started (paId : String) : ObserverLog δ := ⟨.started paId, [], []⟩

/-- The calls of observers: those made, and those the handler that is running has yet to make. -/
def made (h : ObserverLog δ) : List (ℕ × Bool) := h.calls ++ h.net.bridge.notices

/-- Every observer hears `true` and `false` in turn, `true` first, once for every entry into
Operational, registration there and exit. -/
def Faithful (h : ObserverLog δ) : Prop :=
  ∀ token, heard token h.made = heard token h.due ∧ alternates true (heard token h.made)

/-- No observer is registered when the worker takes an event that leads to Backoff or
ShuttingDown. -/
def fallsUnseen (h : ObserverLog δ) : BridgeNet.Label δ → Bool
  | .take _ =>
    match h.net.state, h.net.ao.queue with
    | some st, e :: _ => !fallsTo st e || h.net.bridge.observers.isEmpty
    | _, _ => true
  | _ => true

def roster (h : ObserverLog δ) : Roster where
  observers := h.net.bridge.observers
  up := h.net.state = some .operational
  told := h.due
  coming := h.net.ao.queue.filterMap tokenOf
  next := h.net.nextToken

structure Kept (h : ObserverLog δ) : Prop where
  sound : h.net.Sound
  roster : h.roster.Kept

section Steps

variable {valid} {h h' : ObserverLog δ} {l : BridgeNet.Label δ}

theorem dueIn_of_ne (n n' : BridgeNet δ) (hl : ∀ w, l ≠ .take w) : dueIn n n' l = [] := by
  cases l with
  | take w => exact absurd rfl (hl w)
  | _ => rfl

theorem roster_post {e : BridgeEvent δ} (hk : h.roster.Kept) (hl : l.isPost)
    (he : h.net.posts l = some e)
    (hnet : h'.net = { h.net.network l with ao := h.net.ao.post e })
    (hdue : h'.due = h.due) : h'.roster.Kept := by
  have hqueue : h'.net.ao.queue = if h.net.ao.running then h.net.ao.queue ++ [e] else h.net.ao.queue := by
    rw [hnet]
    exact h.net.ao.post_queue e
  have hstate : h'.net.state = h.net.state := by
    rw [hnet]
    exact congrArg (fun h => h.state) (h.net.ao.post_hsm e)
  have hobs : h'.net.bridge.observers = h.net.bridge.observers := by
    rw [hnet]
    exact congrArg (fun h => h.ext.observers) (h.net.ao.post_hsm e)
  by_cases hsub : l = .subscribeConnectivity
  · subst hsub
    obtain rfl := Option.some.inj he
    have hissue := hk.issue
    have hnext : h'.net.nextToken = h.net.nextToken + 1 := by rw [hnet]; rfl
    have hroster : h'.roster = { h.roster with
        coming := h'.net.ao.queue.filterMap tokenOf
        next := h.roster.next + 1 } := by
      simp only [roster, hstate, hobs, hdue, hnext]
    rw [hroster]
    refine hissue.lose ?_
    rw [hqueue]
    split
    · rw [List.filterMap_append]
      exact List.Sublist.refl _
    · exact List.sublist_append_left _ _
  · have htoken : tokenOf e = none := by
      cases l <;> first | exact absurd rfl hsub | (obtain rfl := Option.some.inj he; rfl) | cases hl
    have hnext : h'.net.nextToken = h.net.nextToken := by
      rw [hnet]
      cases l with
      | subscribeConnectivity => exact absurd rfl hsub
      | onConnect ok => cases ok <;> rfl
      | _ => rfl
    have hroster : h'.roster = h.roster := by
      have hcoming : h'.net.ao.queue.filterMap tokenOf = h.net.ao.queue.filterMap tokenOf := by
        rw [hqueue]
        split
        · simp [htoken]
        · rfl
      simp only [roster, hstate, hobs, hdue, hnext, hcoming]
    rw [hroster]
    exact hk

theorem roster_effect {f : Effect δ} {fs : List (Effect δ)} (hk : h.Kept)
    (htodo : h.net.ao.todo = f :: fs)
    (hnet : h'.net = { h.net.wire f with ao := (h.net.ao.setTodo fs).perform f })
    (hdue : h'.due = h.due) : h'.roster = h.roster := by
  have hnext : h'.net.nextToken = h.net.nextToken := by
    rw [hnet]
    cases f <;> dsimp only [BridgeNet.wire] <;> try split
    all_goals rfl
  have hcoming : h'.net.ao.queue.filterMap tokenOf = h.net.ao.queue.filterMap tokenOf := by
    rw [hnet]
    rcases (h.net.ao.setTodo fs).perform_queue f with hq | ⟨e, rfl, hq⟩
    · exact congrArg _ hq
    · have hdefer : deferrable e := hk.sound.accounted.orderly.posts e (by
        change .postFifo e ∈ h.net.ao.todo
        rw [htodo]
        exact List.mem_cons_self)
      have htoken : tokenOf e = none := by
        cases e <;> first | rfl | cases hdefer
      refine (congrArg (List.filterMap tokenOf) hq).trans ?_
      rw [List.filterMap_append, List.filterMap_cons_none htoken, List.filterMap_nil,
        List.append_nil]
      rfl
  have hstate : h'.net.state = h.net.state := by
    rw [hnet]
    exact congrArg (fun h => h.state) (BridgeAO.perform_hsm _ f)
  have hobs : h'.net.bridge.observers = h.net.bridge.observers := by
    rw [hnet]
    exact congrArg (fun h => h.ext.observers) (BridgeAO.perform_hsm _ f)
  simp only [roster, hstate, hobs, hdue, hnext, hcoming]

section Take

variable {st st' : BridgeState} {e : BridgeEvent δ} {rest : List (BridgeEvent δ)}

theorem roster_taken (hst' : h'.net.state = some st') (hq' : h'.net.ao.queue = rest)
    (hobs : h'.net.bridge.observers = observersAfter st e h.net.bridge.observers)
    (hdue : h'.due = h.due ++ dueNotices st st' e h.net.bridge.observers)
    (hnext : h'.net.nextToken = h.net.nextToken) :
    h'.roster = ⟨observersAfter st e h.net.bridge.observers, st' = .operational,
      h.due ++ dueNotices st st' e h.net.bridge.observers, rest.filterMap tokenOf,
      h.net.nextToken⟩ := by
  have hup : decide (h'.net.state = some .operational) = decide (st' = .operational) := by
    rw [hst']
    simp
  simp only [roster, hup, hobs, hdue, hq', hnext]

theorem kept_crossing (hk : h.roster.Kept) (hst : h.net.state = some st)
    (hq : h.net.ao.queue = e :: rest) (htarget : target st e.signal = some st') :
    Roster.Kept ⟨observersAfter st e h.net.bridge.observers, st' = .operational,
      h.due ++ dueNotices st st' e h.net.bridge.observers, rest.filterMap tokenOf,
      h.net.nextToken⟩ := by
  have hplain : tokenOf e = none ∧ ∀ obs, observersAfter st e obs = obs := by
    refine ⟨?_, (tablesAfter_of_target htarget).1⟩
    cases e <;> first | rfl | (cases st <;> cases htarget)
  have hcoming : h.roster.coming = rest.filterMap tokenOf := by
    change h.net.ao.queue.filterMap tokenOf = _
    rw [hq, List.filterMap_cons_none hplain.1]
  have hup : h.roster.up = decide (st = .operational) := by simp [roster, hst]
  rw [hplain.2, ← hcoming]
  unfold dueNotices
  by_cases hin : st ≠ .operational ∧ st' = .operational
  · rw [if_pos hin]
    have hswitch := @Roster.Kept.switch _ hk true (by rw [hup]; simp [hin.1])
    simpa only [Roster.switch, roster, hin.2, decide_true] using hswitch
  · rw [if_neg hin]
    by_cases hout : st = .operational ∧ st' ≠ .operational
    · rw [if_pos hout]
      have hswitch := @Roster.Kept.switch _ hk false (by rw [hup]; simp [hout.1])
      simpa only [Roster.switch, roster, decide_eq_false hout.2] using hswitch
    · rw [if_neg hout]
      have hsame : decide (st' = .operational) = h.roster.up := by
        rw [hup, decide_eq_decide]
        tauto
      have hnone : (match e with
          | .subscribeConnectivity token => if st = .operational then [(token, true)] else []
          | _ => ([] : List (ℕ × Bool))) = [] := by
        cases e <;> first | rfl | cases hplain.1
      rw [hnone, List.append_nil, hsame]
      exact hk

theorem kept_handled (hk : h.roster.Kept) (hst : h.net.state = some st)
    (hq : h.net.ao.queue = e :: rest) :
    Roster.Kept ⟨observersAfter st e h.net.bridge.observers, st = .operational,
      h.due ++ dueNotices st st e h.net.bridge.observers, rest.filterMap tokenOf,
      h.net.nextToken⟩ := by
  have hup : decide (st = .operational) = h.roster.up := by simp [roster, hst]
  have hcoming : h.roster.coming = (e :: rest).filterMap tokenOf := by
    rw [← hq]
    rfl
  rw [dueNotices_self, hup]
  by_cases hreg : ∃ token, e = .subscribeConnectivity token
  · obtain ⟨token, rfl⟩ := hreg
    have hcoming : h.roster.coming = token :: rest.filterMap tokenOf := hcoming
    dsimp only [observersAfter]
    by_cases hdown : st = .shuttingDown
    · have hlost := hk.lose (hcoming ▸ List.sublist_cons_self token (rest.filterMap tokenOf))
      simpa [hdown, roster] using hlost
    · have hregister := hk.register hcoming
      rw [if_neg hdown]
      have htold : (if st = .operational then [(token, true)] else []) =
          if h.roster.up then [(token, true)] else [] := by
        rw [← hup]
        simp
      rw [htold]
      exact hregister
  · have hnot : ∀ token, e ≠ .subscribeConnectivity token := fun token h => hreg ⟨token, h⟩
    have hnone : tokenOf e = none := by
      cases e <;> first | rfl | exact absurd rfl (hnot _)
    rw [List.filterMap_cons_none hnone] at hcoming
    rw [← hcoming]
    cases e with
    | subscribeConnectivity token => exact absurd rfl (hnot token)
    | unsubscribeConnectivity token =>
      rw [List.append_nil]
      dsimp only [observersAfter]
      split
      · exact hk
      · exact hk.withdraw token
    | _ =>
      rw [List.append_nil]
      exact hk

end Take

theorem roster_control {ao : BridgeAO δ} (hhsm : ao.hsm = h.net.ao.hsm)
    (hq : ao.queue = h.net.ao.queue ∨ ao.queue = h.net.ao.queue ++ [BridgeEvent.stop] ∨
      ao.queue = h.net.ao.queue ++ [BridgeEvent.drain 0])
    (hnet : h'.net = { h.net with ao := ao }) (hdue : h'.due = h.due) : h'.roster = h.roster := by
  have hcoming : h'.net.ao.queue.filterMap tokenOf = h.net.ao.queue.filterMap tokenOf := by
    rw [hnet]
    rcases hq with hq | hq | hq <;> simp [hq, tokenOf]
  have hstate : h'.net.state = h.net.state := by
    rw [hnet]
    exact congrArg (fun h => h.state) hhsm
  have hobs : h'.net.bridge.observers = h.net.bridge.observers := by
    rw [hnet]
    exact congrArg (fun h => h.ext.observers) hhsm
  have hnext : h'.net.nextToken = h.net.nextToken := by rw [hnet]
  simp only [roster, hstate, hobs, hdue, hnext, hcoming]

theorem roster_start (hk : h.Kept) (hret : h.net.ao.stopPhase = .returned)
    (hnet : h'.net = { h.net with ao := h.net.ao.restart }) (hdue : h'.due = h.due) :
    h'.roster = h.roster := by
  have hstopped := hk.sound.stopped
  have hdown : h.net.state = some .shuttingDown := hstopped.running (hstopped.halted (.inr hret))
  have hstate : h'.net.state = some .disconnected := by
    rw [hnet]
    rfl
  have hcoming : h'.net.ao.queue.filterMap tokenOf = h.net.ao.queue.filterMap tokenOf := by
    rw [hnet, (hstopped.returned hret).1]
    rfl
  have hobs : h'.net.bridge.observers = h.net.bridge.observers := by
    rw [hnet]
    rfl
  have hnext : h'.net.nextToken = h.net.nextToken := by rw [hnet]
  have hup : decide (h'.net.state = some .operational) =
      decide (h.net.state = some .operational) := by
    rw [hstate, hdown]
    rfl
  simp only [roster, hup, hobs, hdue, hnext, hcoming]

/-- What the observers hear `false` for besides. -/
def extra (n : BridgeNet δ) : BridgeNet.Label δ → List (ℕ × Bool)
  | .take _ =>
    match n.state, n.ao.queue with
    | some st, e :: _ => if fallsTo st e then n.bridge.observers.map (·, false) else []
    | _, _ => []
  | _ => []

theorem extra_of_ne (n : BridgeNet δ) (hl : ∀ w, l ≠ .take w) : extra n l = [] := by
  cases l with
  | take w => exact absurd rfl (hl w)
  | _ => rfl

/-- The calls made and to be made grow by those due and by those too many. -/
structure Grows (h : ObserverLog δ) (l : BridgeNet.Label δ) (h' : ObserverLog δ) : Prop where
  kept : h'.Kept
  made : h'.made = h.made ++ (dueIn h.net h'.net l ++ extra h.net l)
  due : h'.due = h.due ++ dueIn h.net h'.net l

theorem grows_of_ne (hl : ∀ w, l ≠ .take w) (hsound : h'.net.Sound) (hroster : h'.roster.Kept)
    (hmade : h'.made = h.made) (hdue : h'.due = h.due) : h.Grows l h' := by
  refine ⟨⟨hsound, hroster⟩, ?_, ?_⟩
  · rw [dueIn_of_ne _ _ hl, extra_of_ne _ hl, hmade]
    exact (List.append_nil _).symm
  · rw [dueIn_of_ne _ _ hl, hdue, List.append_nil]

theorem grows_post {e : BridgeEvent δ} (hk : h.Kept) (hl : l.isPost)
    (he : h.net.posts l = some e) (hsound : h'.net.Sound)
    (hnet : h'.net = { h.net.network l with ao := h.net.ao.post e })
    (hcalls : h'.calls = h.calls ++ called h.net l)
    (hdue : h'.due = h.due ++ dueIn h.net h'.net l) : h.Grows l h' := by
  have hne : ∀ w, l ≠ .take w := by
    rintro w rfl
    cases hl
  have hcalled : called h.net l = [] := by
    cases l <;> first | rfl | cases hl
  rw [dueIn_of_ne _ _ hne, List.append_nil] at hdue
  rw [hcalled, List.append_nil] at hcalls
  refine grows_of_ne hne hsound (roster_post hk.roster hl he hnet hdue) ?_ hdue
  have hnotices : h'.net.bridge.notices = h.net.bridge.notices := by
    rw [hnet]
    exact congrArg (fun h => h.ext.notices) (h.net.ao.post_hsm e)
  rw [made, made, hcalls, hnotices]

theorem grows_effect {f : Effect δ} {fs : List (Effect δ)} (hk : h.Kept) (hsound : h'.net.Sound)
    (htodo : h.net.ao.todo = f :: fs)
    (hnet : h'.net = { h.net.wire f with ao := (h.net.ao.setTodo fs).perform f })
    (hcalls : h'.calls = h.calls ++ called h.net .effect)
    (hdue : h'.due = h.due) : h.Grows .effect h' := by
  refine grows_of_ne (by simp) hsound (roster_effect hk htodo hnet hdue ▸ hk.roster) ?_ hdue
  have hnotices : h'.net.bridge.notices = fs.filterMap Effect.notice := by
    rw [hnet]
    exact congrArg (fun h => h.ext.notices) (BridgeAO.perform_hsm _ f)
  have hbefore : h.net.bridge.notices = (f :: fs).filterMap Effect.notice :=
    congrArg (List.filterMap Effect.notice) htodo
  rw [made, made, hcalls, hnotices, hbefore, called, htodo, List.append_assoc]
  congr 1
  cases hf : f.notice <;> simp [hf]

theorem grows_control (hk : h.Kept) (hsound : h'.net.Sound) (hne : ∀ w, l ≠ .take w)
    (heff : l ≠ .effect) (hroster : h'.roster = h.roster)
    (hnotices : h'.net.bridge.notices = h.net.bridge.notices)
    (hcalls : h'.calls = h.calls ++ called h.net l) (hdue : h'.due = h.due) : h.Grows l h' := by
  have hcalled : called h.net l = [] := by
    cases l <;> first | rfl | exact absurd rfl heff
  refine grows_of_ne hne hsound (hroster ▸ hk.roster) ?_ hdue
  rw [made, made, hcalls, hcalled, hnotices, List.append_nil]

theorem grows_take {w : World} {st : BridgeState} {e : BridgeEvent δ}
    {rest : List (BridgeEvent δ)} (hk : h.Kept) (hsound : h'.net.Sound)
    (hst : h.net.state = some st) (hq : h.net.ao.queue = e :: rest) (hq' : h'.net.ao.queue = rest)
    (hstate : h'.net.state = some (react valid st e { h.net.bridge with world := w }).1)
    (hext : h'.net.bridge = (react valid st e { h.net.bridge with world := w }).2)
    (hnext : h'.net.nextToken = h.net.nextToken) (hcalls : h'.calls = h.calls)
    (hdue : h'.due = h.due ++ dueIn h.net h'.net (.take w)) : h.Grows (.take w) h' := by
  have hnotices := react_notices valid st e { h.net.bridge with world := w }
  have hobs := (react_tables valid st e { h.net.bridge with world := w }).1
  rw [← hext] at hnotices hobs
  have hdueIn : dueIn h.net h'.net (.take w) = dueNotices st
      (react valid st e { h.net.bridge with world := w }).1 e h.net.bridge.observers := by
    simp only [dueIn, hst, hq, hstate]
  have hextra : extra h.net (.take w : BridgeNet.Label δ) =
      if fallsTo st e then h.net.bridge.observers.map (·, false) else [] := by
    simp only [extra, hst, hq]
  have hkept : h'.roster.Kept := by
    rw [roster_taken hstate hq' hobs (hdueIn ▸ hdue) hnext]
    unfold react
    split
    · rename_i st' htarget
      exact kept_crossing hk.roster hst hq htarget
    · exact kept_handled hk.roster hst hq
  refine ⟨⟨hsound, hkept⟩, ?_, hdue⟩
  rw [made, made, hcalls, hnotices, hdueIn, hextra, List.append_assoc, List.append_assoc]
  rfl

theorem step_grows (hk : h.Kept) (hstep : h.step valid l = some h') : h.Grows l h' := by
  obtain ⟨n, hn, rfl⟩ := Option.map_eq_some_iff.mp hstep
  have hsound := BridgeNet.step_sound hk.sound hn
  have hnil : ∀ {l}, (∀ w, l ≠ .take w) → h.due ++ dueIn h.net n l = h.due := by
    intro l hl
    rw [dueIn_of_ne _ _ hl, List.append_nil]
  cases BridgeNet.step_moves hk.sound hn with
  | post hl he hen hpost => exact grows_post hk hl he hsound rfl rfl rfl
  | take hst hleaf htodo hq hstate hext =>
    exact grows_take hk hsound hst hq rfl hstate hext rfl (List.append_nil _) rfl
  | effect htodo => exact grows_effect hk hsound htodo rfl rfl (hnil (by simp))
  | control hl hhsm hent _ _ hq hkind heff =>
    exact grows_control hk hsound hkind heff (roster_control hhsm hq rfl (hnil hkind))
      (congrArg (fun h => h.ext.notices) hhsm) rfl (hnil hkind)
  | start hret =>
    have hne : ∀ w, (.start : BridgeNet.Label δ) ≠ .take w := by simp
    exact grows_control hk hsound hne (by simp) (roster_start hk hret rfl (hnil hne)) rfl rfl
      (hnil hne)

theorem started_kept (paId : String) : (started paId : ObserverLog δ).Kept where
  sound := BridgeNet.started_sound paId
  roster := by
    refine ⟨List.nodup_nil, List.nodup_nil, ?_, ?_, ?_, ?_⟩
    · intro t ht
      cases ht
    · intro t ht
      exact ⟨List.not_mem_nil, rfl⟩
    · intro t
      rfl
    · intro t ht
      cases ht

theorem started_faithful (paId : String) : (started paId : ObserverLog δ).Faithful := by
  intro token
  exact ⟨rfl, rfl⟩

theorem extra_unheard_iff (hk : h.Kept) :
    (∀ token, heard token (extra h.net l) = []) ↔ h.fallsUnseen l := by
  cases l with
  | take w =>
    dsimp only [extra, fallsUnseen]
    split
    · rename_i st e rest hst hq
      by_cases hfalls : fallsTo st e
      · simp only [hfalls, if_true, Bool.not_true, Bool.false_or, List.isEmpty_iff]
        have hheard : ∀ token up, heard token (h.net.bridge.observers.map (·, up)) =
            if token ∈ h.net.bridge.observers then [up] else [] := heard_map hk.roster.nodup
        constructor
        · intro hnone
          apply List.eq_nil_iff_forall_not_mem.mpr
          intro token hmem
          have hfalse := (hheard token false).symm.trans (hnone token)
          rw [if_pos hmem] at hfalse
          cases hfalse
        · intro hnil token
          rw [hnil]
          rfl
      · simp [hfalls, heard]
    · simp [heard]
  | _ => simp [extra, fallsUnseen, heard]

/-- A step from a log where every observer was told what it should. -/
theorem Grows.faithful_iff (hgrows : h.Grows l h') (hk : h.Kept) (hf : h.Faithful) :
    h.fallsUnseen l ↔ h'.Faithful := by
  have hmade : ∀ token, heard token h'.made =
      heard token h'.due ++ heard token (extra h.net l) := by
    intro token
    rw [hgrows.made, hgrows.due, heard_append, heard_append, heard_append, (hf token).1,
      List.append_assoc]
  rw [← extra_unheard_iff hk]
  constructor
  · intro hnone token
    have heq : heard token h'.made = heard token h'.due := by
      rw [hmade, hnone, List.append_nil]
    exact ⟨heq, heq ▸ hgrows.kept.roster.inTurn token⟩
  · intro hf' token
    have heq := (hf' token).1
    rw [hmade] at heq
    exact List.append_right_eq_self.mp heq

end Steps

/-- Along a run every observer hears exactly the entries into Operational and the exits if and only
if no observer is registered whenever Backoff or ShuttingDown is entered. -/
theorem faithful_iff_fallsUnseen {paId : String} {l : List (BridgeNet.Label δ)}
    {h : ObserverLog δ} (hrun : Trace.run (step valid) (started paId) l = some h) :
    Trace.Always (step valid) Faithful (started paId) l ↔
      Trace.AllSteps (step valid) (fun h l => h.fallsUnseen l) (started paId) l := by
  refine Trace.always_iff_allSteps (J := Kept) ?_ ?_ hrun (started_kept paId)
    (started_faithful paId)
  · intro h l h' hk hstep
    exact (step_grows hk hstep).kept
  · intro h l h' hk hf hstep
    exact (step_grows hk hstep).faithful_iff hk hf

/-- An observer registers before the bridge is Operational and is withdrawn before the link is
lost. -/
def withdrawnRun : List (BridgeNet.Label Unit) :=
  [.subscribeConnectivity, .take calm, .take calm, .onConnect true, .take calm, .effect, .effect,
    .effect, .take calm, .effect, .unsubscribeConnectivity 1, .take calm, .onDisconnect, .take calm]

def flapRun : List (BridgeNet.Label Unit) :=
  [.subscribeConnectivity, .take calm, .take calm, .onConnect true, .take calm, .effect, .effect,
    .effect, .take calm, .effect, .onDisconnect, .take calm, .effect, .effect]

theorem faithful_withdrawnRun :
    ∃ h, Trace.run (step (fun _ _ => true)) (started "pa") withdrawnRun = some h ∧
      h.calls = [(1, true)] ∧
      Trace.Always (step (fun _ _ => true)) Faithful (started "pa") withdrawnRun := by
  have hrun : (Trace.run (step (fun _ _ => true)) (started "pa") withdrawnRun).map
      (fun h => h.calls) = some [(1, true)] := by
    decide +kernel
  obtain ⟨h, hh, hcalls⟩ := Option.map_eq_some_iff.mp hrun
  exact ⟨h, hh, hcalls, (faithful_iff_fallsUnseen _ hh).mpr (by decide +kernel)⟩

theorem flap_told_twice :
    ∃ h, Trace.run (step (fun _ _ => true)) (started "pa") flapRun = some h ∧
      h.net.ao.todo.length = 0 ∧ heard 1 h.calls = [true, false, false] ∧
      heard 1 h.due = [true, false] ∧ ¬ h.Faithful := by
  have hrun : (Trace.run (step (fun _ _ => true)) (started "pa") flapRun).map
      (fun h => (h.net.ao.todo.length, h.made, heard 1 h.calls, heard 1 h.due)) =
        some (0, [(1, true), (1, false), (1, false)], [true, false, false], [true, false]) := by
    decide +kernel
  obtain ⟨h, hh, heq⟩ := Option.map_eq_some_iff.mp hrun
  obtain ⟨htodo, heq⟩ := Prod.mk.inj heq
  obtain ⟨hmade, heq⟩ := Prod.mk.inj heq
  obtain ⟨hcalls, hdue⟩ := Prod.mk.inj heq
  refine ⟨h, hh, htodo, hcalls, hdue, ?_⟩
  intro hf
  have hturn := (hf 1).2
  rw [hmade] at hturn
  cases hturn

end ObserverLog

end TelafSim.ModemBridge
