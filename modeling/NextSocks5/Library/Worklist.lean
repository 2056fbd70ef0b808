import Mathlib

set_option autoImplicit false

-- A first-in first-out worklist that queues an element the first time it is offered.
namespace Worklist

variable {α : Type} [DecidableEq α]

structure Tracks (offered taken queue : List α) (seen : Finset α) : Prop where
  order : taken ++ queue = offered.eraseDups
  marked : ∀ item, item ∈ seen ↔ item ∈ offered

theorem erase_dups_snoc (items : List α) (item : α) :
    (items ++ [item]).eraseDups = if item ∈ items then items.eraseDups else items.eraseDups ++ [item] := by
  rw [List.eraseDups_append]
  by_cases known : item ∈ items
  · simp [List.removeAll, known]
  · simp [List.removeAll, known, List.eraseDups_cons]

theorem erase_dups_nodup (items : List α) : items.eraseDups.Nodup := by
  induction items using List.reverseRecOn with
  | nil => simp
  | append_singleton items item ih =>
      rw [erase_dups_snoc]
      split
      · exact ih
      · rename_i fresh
        rw [List.nodup_append]
        refine ⟨ih, by simp, ?_⟩
        intro old member last same
        rw [List.mem_singleton] at same
        subst same
        intro equal
        exact fresh (List.mem_eraseDups.mp (equal ▸ member))

theorem tracks_start : Tracks ([] : List α) [] [] ∅ := ⟨rfl, by simp⟩

theorem tracks_known (offered taken queue : List α) (seen : Finset α) (item : α)
    (tracks : Tracks offered taken queue seen) (known : item ∈ seen) : Tracks (offered ++ [item]) taken queue seen where
  order := by rw [erase_dups_snoc, if_pos ((tracks.marked item).mp known), tracks.order]
  marked := by
    intro other
    rw [tracks.marked other, List.mem_append, List.mem_singleton]
    constructor
    · exact Or.inl
    · rintro (old | rfl)
      · exact old
      · exact (tracks.marked other).mp known

theorem tracks_fresh (offered taken queue : List α) (seen : Finset α) (item : α)
    (tracks : Tracks offered taken queue seen) (fresh : item ∉ seen) :
    Tracks (offered ++ [item]) taken (queue ++ [item]) (insert item seen) where
  order := by
    have absent : item ∉ offered := fun member => fresh ((tracks.marked item).mpr member)
    rw [erase_dups_snoc, if_neg absent, ← tracks.order, List.append_assoc]
  marked := by
    intro other
    rw [Finset.mem_insert, tracks.marked other, List.mem_append, List.mem_singleton]
    exact or_comm

theorem tracks_take (offered taken queue : List α) (seen : Finset α) (item : α)
    (tracks : Tracks offered taken (item :: queue) seen) : Tracks offered (taken ++ [item]) queue seen where
  order := by
    rw [← tracks.order]
    simp
  marked := tracks.marked

theorem tracks_taken_prefix (offered taken queue : List α) (seen : Finset α) (tracks : Tracks offered taken queue seen) :
    taken <+: offered.eraseDups := ⟨queue, tracks.order⟩

theorem tracks_drained (offered taken : List α) (seen : Finset α) (tracks : Tracks offered taken [] seen) :
    taken = offered.eraseDups := by
  simpa using tracks.order

end Worklist
