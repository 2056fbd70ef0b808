import Mathlib

set_option autoImplicit false

-- The most recent distinct items, oldest first; over the cap the oldest is pushed out.
namespace Recent

variable {α : Type} [DecidableEq α]

def push (cap : Nat) (order : List α) (item : α) : List α :=
  if item ∈ order then order
  else if cap < (order ++ [item]).length then (order ++ [item]).tail
  else order ++ [item]

def replay (cap : Nat) (offered : List α) : List α := offered.foldl (push cap) []

@[simp] theorem replay_nil (cap : Nat) : replay cap ([] : List α) = [] := rfl

theorem replay_snoc (cap : Nat) (offered : List α) (item : α) :
    replay cap (offered ++ [item]) = push cap (replay cap offered) item := by
  simp [replay]

theorem push_known (cap : Nat) (order : List α) (item : α) (known : item ∈ order) : push cap order item = order := if_pos known

theorem push_room (cap : Nat) (order : List α) (item : α) (fresh : item ∉ order) (room : order.length < cap) :
    push cap order item = order ++ [item] := by
  have fits : ¬ cap < (order ++ [item]).length := by simp; omega
  rw [push, if_neg fresh, if_neg fits]

theorem push_full (cap : Nat) (oldest : α) (order : List α) (item : α) (fresh : item ∉ oldest :: order)
    (full : (oldest :: order).length = cap) : push cap (oldest :: order) item = order ++ [item] := by
  have beyond : cap < (oldest :: order ++ [item]).length := by simp at full ⊢; omega
  rw [push, if_neg fresh, if_pos beyond]
  rfl

theorem push_nodup (cap : Nat) (order : List α) (item : α) (nodup : order.Nodup) : (push cap order item).Nodup := by
  rw [push]
  split
  · exact nodup
  · rename_i fresh
    have grown : (order ++ [item]).Nodup := by
      rw [List.nodup_append]
      exact ⟨nodup, by simp, fun old member new same equal => fresh (by simp_all)⟩
    split
    · exact grown.tail
    · exact grown

theorem push_bound (cap : Nat) (order : List α) (item : α) (bound : order.length ≤ cap) : (push cap order item).length ≤ cap := by
  rw [push]
  split
  · exact bound
  · split <;> simp at * <;> omega

theorem push_member (cap : Nat) (order : List α) (item : α) (positive : 0 < cap) (bound : order.length ≤ cap) :
    item ∈ push cap order item := by
  rw [push]
  split
  · assumption
  · split
    · cases order with
      | nil => simp at *; omega
      | cons oldest order => simp
    · simp

theorem push_sublist (cap : Nat) (order : List α) (item : α) : (push cap order item).Sublist (order ++ [item]) := by
  rw [push]
  split
  · exact List.sublist_append_left order [item]
  · split
    · exact List.tail_sublist _
    · exact List.Sublist.refl _

theorem replay_nodup (cap : Nat) (offered : List α) : (replay cap offered).Nodup := by
  induction offered using List.reverseRecOn with
  | nil => simp
  | append_singleton offered item ih =>
      rw [replay_snoc]
      exact push_nodup cap _ item ih

theorem replay_bound (cap : Nat) (offered : List α) : (replay cap offered).length ≤ cap := by
  induction offered using List.reverseRecOn with
  | nil => simp
  | append_singleton offered item ih =>
      rw [replay_snoc]
      exact push_bound cap _ item ih

theorem replay_sublist (cap : Nat) (offered : List α) : (replay cap offered).Sublist offered := by
  induction offered using List.reverseRecOn with
  | nil => simp
  | append_singleton offered item ih =>
      rw [replay_snoc]
      exact (push_sublist cap _ item).trans (ih.append_right [item])

theorem replay_last (cap : Nat) (offered : List α) (item : α) (positive : 0 < cap) : item ∈ replay cap (offered ++ [item]) := by
  rw [replay_snoc]
  exact push_member cap _ item positive (replay_bound cap offered)

def Mirrors (members : Finset α) (order : List α) : Prop := ∀ item, item ∈ members ↔ item ∈ order

theorem mirrors_card (members : Finset α) (order : List α) (mirrors : Mirrors members order) (nodup : order.Nodup) :
    members.card = order.length := by
  have same : members = order.toFinset := by
    ext item
    rw [mirrors item, List.mem_toFinset]
  rw [same, List.toFinset_card_of_nodup nodup]

theorem mirrors_insert (members : Finset α) (order : List α) (item : α) (mirrors : Mirrors members order) :
    Mirrors (insert item members) (order ++ [item]) := by
  intro other
  rw [Finset.mem_insert, mirrors other, List.mem_append, List.mem_singleton]
  exact or_comm

theorem mirrors_evict (members : Finset α) (oldest : α) (order : List α) (mirrors : Mirrors members (oldest :: order))
    (nodup : (oldest :: order).Nodup) : Mirrors (members.erase oldest) order := by
  intro other
  rw [Finset.mem_erase, mirrors other, List.mem_cons]
  have absent := (List.nodup_cons.mp nodup).1
  constructor
  · rintro ⟨different, same | kept⟩
    · exact absurd same different
    · exact kept
  · intro kept
    exact ⟨fun same => absent (same ▸ kept), .inr kept⟩

end Recent
