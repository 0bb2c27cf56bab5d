import Mathlib.Data.List.Nodup
import Mathlib.Logic.Relation
import Mathlib.Tactic

/-!
# Ledgers of queued requests

A server receives requests with distinct keys. It rejects a request with an answer at once, or
accepts it into a first-in-first-out queue and answers the head of the queue later. Whatever it
does, no request is answered twice, the accepted requests are answered in the order they were
accepted, and those not yet answered are exactly the queue.
-/

namespace TelafSim

structure Ledger (κ α : Type*) where
  received : List κ
  accepted : List κ
  queue : List κ
  answers : List (κ × α)

namespace Ledger

variable {κ α : Type*}

def answered (L : Ledger κ α) : List κ := L.answers.map Prod.fst

inductive Step (L : Ledger κ α) : Ledger κ α → Prop
  | reject (k : κ) (a : α) (fresh : k ∉ L.received) :
      Step L { L with received := L.received ++ [k], answers := L.answers ++ [(k, a)] }
  | accept (k : κ) (fresh : k ∉ L.received) :
      Step L { L with
        received := L.received ++ [k]
        accepted := L.accepted ++ [k]
        queue := L.queue ++ [k] }
  | answer (k : κ) (rest : List κ) (a : α) (head : L.queue = k :: rest) :
      Step L { L with queue := rest, answers := L.answers ++ [(k, a)] }

structure Balanced [DecidableEq κ] (L : Ledger κ α) : Prop where
  nodup : L.received.Nodup
  accepted_received : L.accepted.Sublist L.received
  answered_received : ∀ k ∈ L.answered, k ∈ L.received
  answered_nodup : L.answered.Nodup
  rejected_answered : ∀ k ∈ L.received, k ∉ L.accepted → k ∈ L.answered
  in_order : L.accepted = L.answered.filter (· ∈ L.accepted) ++ L.queue

variable [DecidableEq κ]

namespace Balanced

variable {L : Ledger κ α}

theorem queue_accepted (h : L.Balanced) {k : κ} (hk : k ∈ L.queue) : k ∈ L.accepted := by
  rw [h.in_order]
  exact List.mem_append_right _ hk

theorem queue_not_answered (h : L.Balanced) {k : κ} (hk : k ∈ L.queue) : k ∉ L.answered := by
  intro ha
  have hn := h.accepted_received.nodup h.nodup
  have hacc := h.queue_accepted hk
  rw [h.in_order] at hn
  refine (List.nodup_append.mp hn).2.2 k ?_ k hk rfl
  exact List.mem_filter.mpr ⟨ha, by simpa using hacc⟩

theorem reject (h : L.Balanced) (k : κ) (a : α) (fresh : k ∉ L.received) :
    { L with received := L.received ++ [k], answers := L.answers ++ [(k, a)] }.Balanced := by
  have hans : k ∉ L.answered := fun hk => fresh (h.answered_received k hk)
  have hacc : k ∉ L.accepted := fun hk => fresh (h.accepted_received.subset hk)
  refine ⟨?_, ?_, ?_, ?_, ?_, ?_⟩
  · exact List.nodup_append.mpr ⟨h.nodup, by simp, by grind⟩
  · exact h.accepted_received.trans (List.sublist_append_left _ _)
  · intro x hx
    simp only [answered, List.map_append, List.mem_append] at hx ⊢
    exact hx.imp (h.answered_received x) (by simp)
  · simp only [answered, List.map_append]
    exact List.nodup_append.mpr ⟨h.answered_nodup, by simp, by grind [answered]⟩
  · intro x hx hn
    simp only [answered, List.map_append, List.mem_append] at hx ⊢
    exact hx.imp (fun hr => h.rejected_answered x hr hn) (by simp)
  · simp only [answered, List.map_append, List.filter_append]
    rw [List.map_cons, List.map_nil, List.filter_cons_of_neg (by simpa using hacc), List.filter_nil,
      List.append_nil]
    exact h.in_order

theorem accept (h : L.Balanced) (k : κ) (fresh : k ∉ L.received) :
    { L with
      received := L.received ++ [k]
      accepted := L.accepted ++ [k]
      queue := L.queue ++ [k] }.Balanced := by
  have hans : k ∉ L.answered := fun hk => fresh (h.answered_received k hk)
  refine ⟨?_, h.accepted_received.append (List.Sublist.refl _), ?_, h.answered_nodup, ?_, ?_⟩
  · exact List.nodup_append.mpr ⟨h.nodup, by simp, by grind⟩
  · intro x hx
    exact List.mem_append_left _ (h.answered_received x hx)
  · intro x hx hn
    simp only [List.mem_append, List.mem_singleton, not_or] at hx hn
    exact h.rejected_answered x (hx.resolve_right hn.2) hn.1
  · have hsame : L.answered.filter (· ∈ L.accepted ++ [k]) = L.answered.filter (· ∈ L.accepted) := by
      refine List.filter_congr (fun x hx => ?_)
      have hne : x ≠ k := fun he => hans (he ▸ hx)
      simp [hne]
    change L.accepted ++ [k] = L.answered.filter (· ∈ L.accepted ++ [k]) ++ (L.queue ++ [k])
    rw [hsame, ← List.append_assoc, ← h.in_order]

theorem answer (h : L.Balanced) (k : κ) (rest : List κ) (a : α) (head : L.queue = k :: rest) :
    { L with queue := rest, answers := L.answers ++ [(k, a)] }.Balanced := by
  have hk : k ∈ L.queue := by simp [head]
  have hacc := h.queue_accepted hk
  have hans := h.queue_not_answered hk
  refine ⟨h.nodup, h.accepted_received, ?_, ?_, ?_, ?_⟩
  · intro x hx
    simp only [answered, List.map_append, List.map_cons, List.map_nil, List.mem_append,
      List.mem_singleton] at hx
    rcases hx with hx | rfl
    · exact h.answered_received x hx
    · exact h.accepted_received.subset hacc
  · simp only [answered, List.map_append]
    exact List.nodup_append.mpr ⟨h.answered_nodup, by simp, by grind [answered]⟩
  · intro x hx hn
    simp only [answered, List.map_append, List.mem_append]
    exact Or.inl (h.rejected_answered x hx hn)
  · simp only [answered, List.map_append, List.filter_append, List.map_cons, List.map_nil]
    rw [List.filter_cons_of_pos (by simpa using hacc), List.filter_nil, List.append_assoc,
      List.singleton_append, ← head]
    exact h.in_order

theorem step {L' : Ledger κ α} (h : L.Balanced) (hs : L.Step L') : L'.Balanced := by
  cases hs with
  | reject k a fresh => exact h.reject k a fresh
  | accept k fresh => exact h.accept k fresh
  | answer k rest a head => exact h.answer k rest a head

theorem steps {L' : Ledger κ α} (h : L.Balanced) (hs : Relation.ReflTransGen Step L L') :
    L'.Balanced := by
  induction hs with
  | refl => exact h
  | tail _ hs ih => exact ih.step hs

end Balanced
end Ledger
end TelafSim
