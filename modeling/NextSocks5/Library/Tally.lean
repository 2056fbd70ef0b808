import Mathlib

set_option autoImplicit false

-- Counters of holders, in all and by key; a key has an entry while somebody holds it.
namespace Tally

variable {κ : Type} [DecidableEq κ]

structure Counts (holders : List κ) (total : Nat) (entries : AList fun _ : κ => Nat) : Prop where
  total : total = holders.length
  entry : ∀ key, entries.lookup key = if holders.count key = 0 then none else some (holders.count key)

theorem counts_start : Counts ([] : List κ) 0 ∅ := ⟨rfl, by simp⟩

theorem counts_get (holders : List κ) (total : Nat) (entries : AList fun _ : κ => Nat) (counts : Counts holders total entries)
    (key : κ) : (entries.lookup key).getD 0 = holders.count key := by
  rw [counts.entry key]
  split
  · rename_i nothing
    simp [nothing]
  · rfl

theorem counts_take (holders : List κ) (total : Nat) (entries : AList fun _ : κ => Nat) (counts : Counts holders total entries)
    (key : κ) : Counts (key :: holders) (total + 1) (entries.insert key ((entries.lookup key).getD 0 + 1)) where
  total := by simp [counts.total]
  entry := by
    intro other
    by_cases same : other = key
    · subst same
      rw [AList.lookup_insert, counts_get holders total entries counts other]
      simp
    · rw [AList.lookup_insert_ne same, counts.entry other]
      simp [Ne.symm same]

theorem counts_held (holders : List κ) (total : Nat) (entries : AList fun _ : κ => Nat) (counts : Counts holders total entries)
    (key : κ) (held : key ∈ holders) : 0 < total ∧ 0 < holders.count key ∧ entries.lookup key = some (holders.count key) := by
  have nonempty := List.count_pos_iff.mpr held
  refine ⟨?_, nonempty, ?_⟩
  · rw [counts.total]
    exact List.length_pos_of_mem held
  · rw [counts.entry key, if_neg (by omega)]

theorem counts_give (holders : List κ) (total : Nat) (entries : AList fun _ : κ => Nat) (counts : Counts holders total entries)
    (key : κ) (held : key ∈ holders) :
    Counts (holders.erase key) (total - 1)
      (if holders.count key - 1 = 0 then entries.erase key else entries.insert key (holders.count key - 1)) where
  total := by rw [counts.total, List.length_erase_of_mem held]
  entry := by
    intro other
    by_cases same : other = key
    · subst same
      rw [List.count_erase_self]
      split
      · rw [AList.lookup_erase]
      · rw [AList.lookup_insert]
    · rw [List.count_erase_of_ne same, ← counts.entry other]
      split
      · rw [AList.lookup_erase_ne same]
      · rw [AList.lookup_insert_ne same]

end Tally
