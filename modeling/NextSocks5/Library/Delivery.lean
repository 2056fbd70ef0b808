import NextSocks5.Library.Broadcast

set_option autoImplicit false

namespace Receiver

variable {α : Type}

inductive Report (α : Type) where
  | value (value : α)
  | missed (n : Nat)
deriving DecidableEq, Repr

def Report.taken : Report α → Option α
  | .value v => some v
  | .missed _ => none

def report (r : Receiver α) (senders : Nat) : Option (Report α × Receiver α) :=
  match r.recv senders with
  | (.value value, rest) => some (.value value, rest)
  | (.lagged missed, rest) => some (.missed missed, rest)
  | (.closed, _) | (.pending, _) => none

-- The values in order, with a gap of the reported length wherever some were missed.
inductive Covers : List (Report α) → List α → Prop where
  | nil : Covers [] []
  | value (reports : List (Report α)) (values : List α) (value : α) (before : Covers reports values) :
      Covers (reports ++ [.value value]) (values ++ [value])
  | missed (reports : List (Report α)) (values gap : List α) (before : Covers reports values) :
      Covers (reports ++ [.missed gap.length]) (values ++ gap)

theorem covers_sublist (reports : List (Report α)) (values : List α) (covers : Covers reports values) :
    (reports.filterMap Report.taken).Sublist values := by
  induction covers with
  | nil => exact List.Sublist.refl []
  | value reports values value before ih =>
      rw [List.filterMap_append]
      exact ih.append (List.Sublist.refl [value])
  | missed reports values gap before ih =>
      rw [List.filterMap_append]
      exact ih.append (List.nil_sublist gap)

-- All that was sent: what the reports cover, what was overwritten since, and what waits.
structure Books (capacity : Nat) (r : Receiver α) (sent : List α) (reports : List (Report α)) : Prop where
  covered : ∃ done gap, sent = done ++ (gap ++ r.queue) ∧ gap.length = r.lagged ∧ Covers reports done
  bounded : r.queue.length ≤ capacity
  behind : 0 < r.lagged → r.queue.length = capacity

theorem books_empty (capacity : Nat) : Books capacity (empty : Receiver α) [] [] :=
  ⟨⟨[], [], rfl, rfl, .nil⟩, Nat.zero_le _, fun lagged => absurd lagged (Nat.lt_irrefl 0)⟩

theorem books_send (capacity : Nat) (r : Receiver α) (sent : List α) (reports : List (Report α)) (value : α)
    (positive : 0 < capacity) (books : Books capacity r sent reports) :
    Books capacity (r.send capacity value) (sent ++ [value]) reports := by
  obtain ⟨done, gap, whole, missed, covers⟩ := books.covered
  rw [send]
  by_cases room : r.queue.length < capacity
  · rw [if_pos room]
    refine ⟨⟨done, gap, ?_, missed, covers⟩, ?_, ?_⟩
    · rw [whole, List.append_assoc, List.append_assoc]
    · rw [List.length_append]
      exact room
    · intro lagged
      exact absurd (books.behind lagged) (by omega)
  · rw [if_neg room]
    have bounded := books.bounded
    cases queue : r.queue with
    | nil =>
        rw [queue] at room
        exact absurd positive room
    | cons first rest =>
        rw [queue, List.length_cons] at bounded room
        refine ⟨⟨done, gap ++ [first], ?_, ?_, covers⟩, ?_, ?_⟩
        · rw [whole, queue]
          simp
        · rw [List.length_append, missed]
          rfl
        · simpa using bounded
        · intro _
          simp only [List.tail_cons, List.length_append, List.length_singleton]
          omega

theorem books_report (capacity senders : Nat) (r rest : Receiver α) (sent : List α) (reports : List (Report α)) (newest : Report α)
    (books : Books capacity r sent reports) (read : r.report senders = some (newest, rest)) :
    Books capacity rest sent (reports ++ [newest]) := by
  obtain ⟨done, gap, whole, missed, covers⟩ := books.covered
  obtain ⟨queue, lagged⟩ := r
  dsimp only at whole missed
  by_cases late : 0 < lagged
  · rw [report, recv, if_pos late] at read
    cases read
    refine ⟨⟨done ++ gap, [], ?_, rfl, ?_⟩, books.bounded, fun more => absurd more (Nat.lt_irrefl 0)⟩
    · rw [whole, List.append_assoc]
      rfl
    · rw [← missed]
      exact .missed reports done gap covers
  · obtain rfl : lagged = 0 := by omega
    obtain rfl := List.length_eq_zero_iff.mp missed
    cases queue with
    | nil =>
        by_cases closed : senders = 0 <;> simp [report, recv, closed] at read
    | cons first queue =>
        cases read
        refine ⟨⟨done ++ [first], [], ?_, rfl, .value reports done first covers⟩, ?_, fun more => absurd more (Nat.lt_irrefl 0)⟩
        · rw [whole]
          simp
        · exact Nat.le_of_succ_le books.bounded

end Receiver
