import TelafSim.Ledger
import TelafSim.Power

/-!
# Accounting for power requests

The `set_state` traffic of the power coordinator is a ledger: a request is identified by its number,
its corrId and its sender, and a response by the request it answers. Every event moves the ledger by
rejections, admissions and answers to the head of the queue, however many rounds one event finishes.
-/

namespace TelafSim.Power

namespace PowerSubsystem

structure Key where
  seq : ℕ
  corrId : String
  src : String
  deriving DecidableEq

def key (r : QueuedRequest) : Key := ⟨r.seq, r.corrId, r.src⟩

/-- A `set_state.rsp` with the number of its request, its corrId and its destination. -/
def answerOf : Out → Option (Key × Bool)
  | .setStateRsp seq corrId dest ok _ => some (⟨seq, corrId, dest⟩, ok)
  | _ => none

def ledger (s : PowerSubsystem) : Ledger Key Bool where
  received := s.received.map key
  accepted := s.accepted.map key
  queue := s.requestQueue.map key
  answers := s.out.filterMap answerOf

/-- The round in progress is the one of the head of the queue. -/
def Aligned (s : PowerSubsystem) : Prop := s.pending.map Pending.request = s.requestQueue.head?

theorem ledger_beginRound (r : QueuedRequest) (s : PowerSubsystem) :
    (s.beginRound r).2.ledger = s.ledger := by
  simp [ledger, beginRound, publish, List.filterMap_append, answerOf]

theorem statusInd_answers (p : Pending) (status : RoundStatus) :
    (p.statusInd status).filterMap answerOf = [] := by
  unfold Pending.statusInd
  split <;> rfl

/-- Closing a round answers its request and takes the head off the queue. -/
theorem ledger_closeRound (status : RoundStatus) (p : Pending) (s : PowerSubsystem) :
    (s.closeRound status p).ledger = { s.ledger with
      queue := s.ledger.queue.tail
      answers := s.ledger.answers ++ [(key p.request, p.ok)] } := by
  have hout : (s.out ++ (p.statusInd status ++ [p.rsp])).filterMap answerOf =
      s.out.filterMap answerOf ++ [(key p.request, p.ok)] := by
    rw [List.filterMap_append, List.filterMap_append, statusInd_answers]
    rfl
  unfold closeRound
  dsimp only
  split <;> simp [ledger, scheduleFtimeoutRetry, hout]

theorem closeRound_requestQueue (status : RoundStatus) (p : Pending) (s : PowerSubsystem) :
    (s.closeRound status p).requestQueue = s.requestQueue.tail := by
  unfold closeRound
  dsimp only
  split <;> rfl

theorem closeRound_pending (status : RoundStatus) (p : Pending) (s : PowerSubsystem) :
    (s.closeRound status p).pending = none := by
  unfold closeRound
  dsimp only
  split <;> rfl

theorem closeRound_received (status : RoundStatus) (p : Pending) (s : PowerSubsystem) :
    (s.closeRound status p).received = s.received := by
  unfold closeRound
  dsimp only
  split <;> rfl

theorem closeRound_steps (status : RoundStatus) {p : Pending} {s : PowerSubsystem}
    {rest : List QueuedRequest} (h : s.requestQueue = p.request :: rest) :
    Relation.ReflTransGen Ledger.Step s.ledger (s.closeRound status p).ledger := by
  refine .single ?_
  rw [ledger_closeRound]
  have hq : s.ledger.queue = key p.request :: rest.map key := by simp [ledger, h]
  rw [hq]
  exact .answer _ _ _ hq

/-- However many rounds finish at once, each answers the head of the queue. -/
theorem processNextQueued_steps (q : List QueuedRequest) (s : PowerSubsystem)
    (hq : s.requestQueue = q) (hp : q = [] → s.pending = none) :
    Relation.ReflTransGen Ledger.Step s.ledger (processNextQueued q s).ledger ∧
      (processNextQueued q s).Aligned := by
  induction q generalizing s with
  | nil => exact ⟨.refl, by simp [processNextQueued, Aligned, hq, hp rfl]⟩
  | cons r rest ih =>
    have hb : (s.beginRound r).2.requestQueue = r :: rest := hq
    unfold processNextQueued
    dsimp only
    split
    · have hc := closeRound_steps .complete (p := (s.beginRound r).1) hb
      obtain ⟨hsteps, hal⟩ := ih ((s.beginRound r).2.closeRound .complete (s.beginRound r).1)
        (by rw [closeRound_requestQueue, hb]; rfl) (fun _ => closeRound_pending _ _ _)
      rw [ledger_beginRound] at hc
      exact ⟨hc.trans hsteps, hal⟩
    · refine ⟨?_, ?_⟩
      · rw [show (s.beginRound r).2.scheduleAckTimeout.ledger = (s.beginRound r).2.ledger from rfl,
          ledger_beginRound]
      · simp [Aligned, scheduleAckTimeout, cancelPendingTimer, beginRound, publish, hq]

theorem finishSetStateRound_steps (status : RoundStatus) {p : Pending} {s : PowerSubsystem}
    {rest : List QueuedRequest} (h : s.requestQueue = p.request :: rest) :
    Relation.ReflTransGen Ledger.Step s.ledger (s.finishSetStateRound status p).ledger ∧
      (s.finishSetStateRound status p).Aligned := by
  obtain ⟨hsteps, hal⟩ := processNextQueued_steps _ (s.closeRound status p) rfl
    (fun _ => closeRound_pending status p s)
  exact ⟨(closeRound_steps status h).trans hsteps, hal⟩

structure Accounted (s : PowerSubsystem) : Prop where
  aligned : s.Aligned
  numbered : s.received.map QueuedRequest.seq = List.range s.received.length
  balanced : s.ledger.Balanced

/-- Rounds that finish leave the requests handled so far alone. -/
theorem processNextQueued_received (q : List QueuedRequest) (s : PowerSubsystem) :
    (processNextQueued q s).received = s.received := by
  induction q generalizing s with
  | nil => rfl
  | cons r rest ih =>
    unfold processNextQueued
    dsimp only
    split
    · rw [ih, closeRound_received]
      rfl
    · rfl

theorem Accounted.of_steps {s t : PowerSubsystem} (h : s.Accounted) (hr : t.received = s.received)
    (hs : Relation.ReflTransGen Ledger.Step s.ledger t.ledger ∧ t.Aligned) : t.Accounted :=
  ⟨hs.2, by rw [hr]; exact h.numbered, h.balanced.steps hs.1⟩

theorem Accounted.finish {s : PowerSubsystem} (h : s.Accounted) {p : Pending}
    (hp : s.pending.map Pending.request = some p.request) (status : RoundStatus) :
    (s.finishSetStateRound status p).Accounted := by
  obtain ⟨rest, hq⟩ : ∃ rest, s.requestQueue = p.request :: rest := by
    have hal := h.aligned
    rw [Aligned, hp] at hal
    exact ⟨s.requestQueue.tail, (List.cons_head?_tail hal.symm).symm⟩
  refine h.of_steps ?_ (finishSetStateRound_steps status hq)
  rw [finishSetStateRound, processNextQueued_received, closeRound_received]

theorem Accounted.cancelPendingTimer {s : PowerSubsystem} (h : s.Accounted) :
    s.cancelPendingTimer.Accounted :=
  ⟨h.1, h.2, h.3⟩

theorem Accounted.recordAck {s : PowerSubsystem} (h : s.Accounted) (m : String) (r : Response) :
    (s.recordAck m r).Accounted := by
  unfold PowerSubsystem.recordAck
  split
  · exact h
  · rename_i p hp
    have hal := h.aligned
    rw [Aligned, hp, Option.map_some, ← p.answer_request m r] at hal
    have hacc : { s with pending := some (p.answer m r) }.Accounted := ⟨hal, h.numbered, h.balanced⟩
    split
    · exact h
    · dsimp only
      split
      · exact hacc.cancelPendingTimer.finish rfl .complete
      · exact hacc

theorem Accounted.onAckTimeout {s : PowerSubsystem} (h : s.Accounted) (uuid : ℕ) :
    (s.onAckTimeout uuid).Accounted := by
  unfold PowerSubsystem.onAckTimeout
  split
  · exact h
  · rename_i p hp
    have hacc : { s with
        pendingTimerUuid := none
        timeouts := s.timeouts ++ [(uuid, p.round)] }.Accounted := ⟨h.1, h.2, h.3⟩
    exact hacc.finish (by simp [hp]) .timeout

theorem Accounted.fresh {s : PowerSubsystem} (h : s.Accounted) {r : QueuedRequest}
    (hr : r.seq = s.received.length) : key r ∉ s.ledger.received := by
  intro hk
  obtain ⟨q, hq, heq⟩ := List.mem_map.mp hk
  have hseq : q.seq ∈ List.range s.received.length := by
    rw [← h.numbered]
    exact List.mem_map_of_mem hq
  have : q.seq = s.received.length := (congrArg Key.seq heq).trans hr
  simp [this] at hseq

theorem Accounted.numbered_succ {s : PowerSubsystem} (h : s.Accounted) {r : QueuedRequest}
    (hr : r.seq = s.received.length) :
    (s.received ++ [r]).map QueuedRequest.seq = List.range (s.received ++ [r]).length := by
  rw [List.map_append, h.numbered, List.length_append, List.length_singleton, List.range_succ,
    List.map_singleton, hr]

theorem Accounted.reject {s : PowerSubsystem} (h : s.Accounted) {r : QueuedRequest}
    (hr : r.seq = s.received.length) (reason : String) : (s.reject r reason).Accounted := by
  refine ⟨h.aligned, h.numbered_succ hr, ?_⟩
  have hb := h.balanced.reject (key r) false (h.fresh hr)
  convert hb using 1
  simp [ledger, PowerSubsystem.reject, rejection, answerOf, key]

theorem Accounted.enqueue_balanced {s : PowerSubsystem} (h : s.Accounted) {r : QueuedRequest}
    (hr : r.seq = s.received.length) : (s.enqueue r).ledger.Balanced := by
  have hb := h.balanced.accept (key r) (h.fresh hr)
  convert hb using 1
  simp [ledger, enqueue]

theorem Accounted.pending_none {s : PowerSubsystem} (h : s.Accounted) (he : s.requestQueue = []) :
    s.pending = none := by
  have hal := h.aligned
  rw [Aligned, he] at hal
  simpa using hal

theorem Accounted.handleSetState {s : PowerSubsystem} (h : s.Accounted) (state : PowerState)
    (m corrId src : String) : (s.handleSetState state m corrId src).Accounted := by
  obtain ⟨r, hr, -, -, ⟨reason, heq⟩ | ⟨he, heq⟩ | ⟨hne, heq⟩⟩ :=
    handleSetState_cases state m corrId src s <;> rw [heq]
  · exact h.reject hr reason
  · obtain ⟨hsteps, hal⟩ := processNextQueued_steps _ (s.enqueue r) rfl (fun _ => h.pending_none he)
    refine ⟨hal, ?_, (h.enqueue_balanced hr).steps hsteps⟩
    rw [processNextQueued_received]
    exact h.numbered_succ hr
  · refine ⟨?_, h.numbered_succ hr, h.enqueue_balanced hr⟩
    exact h.aligned.trans (List.head?_append_of_ne_nil _ hne).symm

theorem Accounted.handle {s : PowerSubsystem} (h : s.Accounted) (e : PowerEvent) :
    (PowerSubsystem.handle e s).Accounted := by
  cases e with
  | setState state m corrId src => exact h.handleSetState state m corrId src
  | getMachineNames corrId src =>
    refine ⟨h.aligned, h.numbered, ?_⟩
    convert h.balanced using 1
    simp [ledger, PowerSubsystem.handle, handleGetMachineNames, publish, answerOf]
  | slaveAck m r => exact h.recordAck m r
  | powerForceSlaveAck m r => exact h.recordAck m r
  | powerAddMachine m =>
    simp only [PowerSubsystem.handle, applyAddMachine]
    split
    · exact h
    · refine ⟨h.aligned, h.numbered, ?_⟩
      convert h.balanced using 1
      simp [ledger, publish, answerOf]
  | powerRemoveMachine m =>
    simp only [PowerSubsystem.handle, applyRemoveMachine]
    split
    · exact h
    · refine ⟨h.aligned, h.numbered, ?_⟩
      convert h.balanced using 1
      simp [ledger, publish, answerOf]
  | powerAckTimeout uuid => exact h.onAckTimeout uuid
  | powerFTimeout =>
    refine ⟨h.aligned, h.numbered, ?_⟩
    convert h.balanced using 1
    simp [ledger, PowerSubsystem.handle, retryLocalConfirm, publish, answerOf]

theorem Accounted.step (s : PowerSubsystem) (l : Label) (s' : PowerSubsystem) (h : s.Accounted)
    (hs : s.step l = some s') : s'.Accounted := by
  obtain ⟨_, _, _, _, rfl⟩ | ⟨_, _, _, _, rfl⟩ | ⟨e, rest, _, _, rfl⟩ := step_cases hs
  · exact ⟨h.1, h.2, h.3⟩
  · exact ⟨h.1, h.2, h.3⟩
  · exact Accounted.handle (s := { s with fifo := rest }) ⟨h.1, h.2, h.3⟩ e

theorem initial_accounted (localMachineName : String) : (initial localMachineName).Accounted := by
  refine ⟨rfl, rfl, ?_⟩
  constructor <;> simp [ledger, initial, Ledger.answered]

/-- Over every run the responses to `set_state` requests are for distinct requests and carry the
corrId of their request and its sender as destination; a request that was not accepted has been
answered and is not in the queue; the accepted requests are those answered so far, in the order
they were accepted, followed by the contents of the queue. -/
theorem set_state_accounted (localMachineName : String) (ls : List Label) (s : PowerSubsystem)
    (hrun : Trace.run step (initial localMachineName) ls = some s) :
    (s.received.map key).Nodup ∧ s.ledger.answered.Nodup ∧
    (∀ k ∈ s.ledger.answered, ∃ r ∈ s.received, k = ⟨r.seq, r.corrId, r.src⟩) ∧
    (∀ r ∈ s.received, key r ∉ s.accepted.map key →
      key r ∈ s.ledger.answered ∧ r ∉ s.requestQueue) ∧
    s.accepted.map key =
      s.ledger.answered.filter (· ∈ s.accepted.map key) ++ s.requestQueue.map key := by
  have h := (Trace.run_invariant Accounted.step hrun (initial_accounted localMachineName)).balanced
  refine ⟨h.nodup, h.answered_nodup, ?_, ?_, h.in_order⟩
  · intro k hk
    obtain ⟨r, hr, rfl⟩ := List.mem_map.mp (h.answered_received k hk)
    exact ⟨r, hr, rfl⟩
  · intro r hr hn
    refine ⟨h.rejected_answered (key r) (List.mem_map_of_mem hr) hn, ?_⟩
    intro hq
    exact hn (h.queue_accepted (List.mem_map_of_mem hq))

/-- One request that completes after another was rejected as a duplicate of it. -/
theorem set_state_accounted_run : ∃ s, Trace.run step (initial "mdm")
      [.post (.setState .suspend "mdm" "c1" "pa-1"), .post (.setState .suspend "mdm" "c2" "pa-1"),
        .dispatch, .dispatch, .post (.slaveAck "mdm" .ack), .dispatch] = some s ∧
    s.ledger.answered = [⟨1, "c2", "pa-1"⟩, ⟨0, "c1", "pa-1"⟩] ∧
    s.accepted.map key =
      s.ledger.answered.filter (· ∈ s.accepted.map key) ++ s.requestQueue.map key := by
  have hrun : (Trace.run step (initial "mdm") [.post (.setState .suspend "mdm" "c1" "pa-1"),
      .post (.setState .suspend "mdm" "c2" "pa-1"), .dispatch, .dispatch,
      .post (.slaveAck "mdm" .ack), .dispatch]).map (fun s => s.ledger.answered) =
        some [⟨1, "c2", "pa-1"⟩, ⟨0, "c1", "pa-1"⟩] := by decide +kernel
  obtain ⟨s, hs, ha⟩ := Option.map_eq_some_iff.mp hrun
  exact ⟨s, hs, ha, (set_state_accounted "mdm" _ s hs).2.2.2.2⟩

end PowerSubsystem
end TelafSim.Power
