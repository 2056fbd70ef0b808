import Mathlib

set_option autoImplicit false

-- One receiver: the values it has not taken, oldest first, and how many were overwritten.
structure Receiver (α : Type) where
  queue : List α
  lagged : Nat

namespace Receiver

variable {α : Type}

inductive Polled (α : Type) where
  | value (value : α)
  | lagged (missed : Nat)
  | closed
  | pending

def empty : Receiver α := ⟨[], 0⟩

def send (capacity : Nat) (r : Receiver α) (value : α) : Receiver α :=
  if r.queue.length < capacity then { r with queue := r.queue ++ [value] }
  else ⟨r.queue.tail ++ [value], r.lagged + 1⟩

-- The channel is closed for a receiver that took everything once no sender is left.
def recv (r : Receiver α) (senders : Nat) : Polled α × Receiver α :=
  if 0 < r.lagged then (.lagged r.lagged, { r with lagged := 0 })
  else
    match r.queue with
    | value :: rest => (.value value, { r with queue := rest })
    | [] => (if senders = 0 then .closed else .pending, r)

def backlog (r : Receiver α) : Nat := r.queue.length + r.lagged

theorem recv_cases (r : Receiver α) (senders : Nat) :
    (∃ value rest, r.recv senders = (.value value, rest) ∧ rest.backlog < r.backlog) ∨
    (∃ missed rest, r.recv senders = (.lagged missed, rest) ∧ rest.backlog < r.backlog) ∨
    r.backlog = 0 ∧ r.recv senders = (if senders = 0 then .closed else .pending, r) := by
  obtain ⟨queue, lagged⟩ := r
  by_cases behind : 0 < lagged
  · exact .inr (.inl ⟨lagged, ⟨queue, 0⟩, by simp [recv, behind], by simp [backlog, behind]⟩)
  · obtain rfl : lagged = 0 := by omega
    cases queue with
    | nil => exact .inr (.inr ⟨rfl, by simp [recv]⟩)
    | cons value rest => exact .inl ⟨value, ⟨rest, 0⟩, by simp [recv], by simp [backlog]⟩

end Receiver
