import Mathlib

set_option autoImplicit false

-- The last items of a sequence, and the rest of it taken up from a given place.
namespace Window

variable {α : Type}

def push (cap : Nat) (items : List α) (item : α) : List α := (if items.length = cap then items.tail else items) ++ [item]

def last (cap : Nat) (items : List α) : List α := items.drop (items.length - cap)

theorem last_length (cap : Nat) (items : List α) : (last cap items).length = min items.length cap := by
  rw [last, List.length_drop]
  omega

theorem push_last (cap : Nat) (items : List α) (item : α) (positive : 0 < cap) :
    push cap (last cap items) item = last cap (items ++ [item]) := by
  have sized := last_length cap items
  rw [push]
  by_cases full : (last cap items).length = cap
  · rw [if_pos full, last, last, List.tail_drop, List.length_append, List.length_singleton,
      List.drop_append_of_le_length (by omega)]
    congr 2
    omega
  · have short : items.length - cap = 0 := by omega
    have shorter : (items ++ [item]).length - cap = 0 := by
      rw [List.length_append, List.length_singleton]
      omega
    rw [if_neg full, last, last, short, shorter]
    rfl

theorem push_length (cap : Nat) (items : List α) (item : α) (positive : 0 < cap) (within : items.length ≤ cap) :
    (push cap items item).length ≤ cap := by
  rw [push]
  split
  · rw [List.length_append, List.length_tail, List.length_singleton]
    omega
  · rw [List.length_append, List.length_singleton]
    omega

theorem replay_last (cap : Nat) (all news : List α) (positive : 0 < cap) :
    news.foldl (push cap) (last cap all) = last cap (all ++ news) := by
  induction news generalizing all with
  | nil => rw [List.foldl_nil, List.append_nil]
  | cons item news ih => rw [List.foldl_cons, push_last cap all item positive, ih, List.append_assoc, List.singleton_append]

theorem last_whole (cap : Nat) (items : List α) (within : items.length ≤ cap) : last cap items = items := by
  rw [last, Nat.sub_eq_zero_of_le within, List.drop_zero]

theorem last_get (cap : Nat) (all : List α) (n : Nat) : (last cap all)[n]? = all[all.length - cap + n]? := by
  rw [last, List.getElem?_drop]

theorem last_mem_iff (cap : Nat) (all : List α) (nodup : all.Nodup) (n : Nat) (item : α) (found : all[n]? = some item) :
    item ∈ last cap all ↔ all.length - cap ≤ n := by
  constructor
  · intro kept
    obtain ⟨m, placed⟩ := List.mem_iff_getElem?.mp kept
    rw [last_get] at placed
    by_contra early
    have inside : all.length - cap + m < all.length := (List.getElem?_eq_some_iff.mp placed).1
    exact List.nodup_iff_getElem?_ne_getElem?.mp nodup n _ (by omega) inside (found.trans placed.symm)
  · intro within
    apply List.mem_iff_getElem?.mpr
    refine ⟨n - (all.length - cap), ?_⟩
    rw [last_get, Nat.add_sub_cancel' within, found]

theorem take_succ_drop (all : List α) (n start : Nat) (item : α) (found : all[n]? = some item) (within : start ≤ n) :
    (all.take (n + 1)).drop start = (all.take n).drop start ++ [item] := by
  have inside : n < all.length := (List.getElem?_eq_some_iff.mp found).1
  rw [List.take_add_one, found, List.drop_append_of_le_length (by rw [List.length_take]; omega)]
  rfl

theorem last_segment (cap : Nat) (all : List α) (n start : Nat) (within : start ≤ n) (inside : n ≤ all.length) :
    ∃ first, first ≤ n ∧ last cap ((all.take n).drop start) = (all.take n).drop first := by
  have sized : ((all.take n).drop start).length = n - start := by
    rw [List.length_drop, List.length_take]
    omega
  refine ⟨start + (n - start - cap), by omega, ?_⟩
  rw [last, sized, List.drop_drop]

theorem resumes_iff (all : List α) (nodup : all.Nodup) (first n resumed : Nat) (ordered : first ≤ n) (inside : n ≤ all.length)
    (within : resumed ≤ all.length) :
    (∃ start, (all.take n).drop first ++ all.drop resumed = all.drop start) ↔ (all.take n).drop first = [] ∨ n = resumed := by
  have sized : ((all.take n).drop first).length = n - first := by
    rw [List.length_drop, List.length_take]
    omega
  constructor
  · intro premise
    obtain ⟨start, joined⟩ := premise
    by_cases empty : (all.take n).drop first = []
    · exact .inl empty
    · right
      have positive := List.length_pos_iff.mpr empty
      have lengths := congrArg List.length joined
      rw [List.length_append, sized, List.length_drop, List.length_drop] at lengths
      have head : ((all.take n).drop first ++ all.drop resumed)[0]? = all[first]? := by
        rw [List.getElem?_append_left positive, List.getElem?_drop, List.getElem?_take_of_lt (by omega), Nat.add_zero]
      rw [joined, List.getElem?_drop, Nat.add_zero] at head
      have apart := List.nodup_iff_getElem?_ne_getElem?.mp nodup
      have same : start = first := by
        by_contra different
        rcases Nat.lt_or_gt_of_ne different with less | more
        · exact apart start first less (by omega) head
        · exact apart first start more (by omega) head.symm
      omega
  · rintro (empty | rfl)
    · exact ⟨resumed, by rw [empty, List.nil_append]⟩
    · refine ⟨first, ?_⟩
      have whole := List.take_append_drop n all
      have dropped := congrArg (List.drop first) whole
      rw [List.drop_append_of_le_length (by rw [List.length_take]; omega)] at dropped
      exact dropped

end Window
