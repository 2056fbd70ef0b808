import Mathlib

set_option autoImplicit false

-- Items in the order of a rank, those of one rank in the order of a name.
namespace Ranked

variable {α β : Type} [LinearOrder β] (rank : α → β) (name : α → Nat)

def Before (a b : α) : Prop := rank a < rank b ∨ rank a = rank b ∧ name a ≤ name b

theorem before_trans (a b c : α) (first : Before rank name a b) (second : Before rank name b c) : Before rank name a c := by
  rcases first with lower | ⟨level, named⟩
  · rcases second with lower₂ | ⟨level, _⟩
    · exact .inl (lower.trans lower₂)
    · exact .inl (level ▸ lower)
  · rcases second with lower | ⟨level₂, named₂⟩
    · exact .inl (level ▸ lower)
    · exact .inr ⟨level.trans level₂, named.trans named₂⟩

theorem before_total (a b : α) : Before rank name a b ∨ Before rank name b a := by
  rcases lt_trichotomy (rank a) (rank b) with lower | level | higher
  · exact .inl (.inl lower)
  · rcases Nat.le_total (name a) (name b) with named | named
    · exact .inl (.inr ⟨level, named⟩)
    · exact .inr (.inr ⟨level.symm, named⟩)
  · exact .inr (.inl higher)

theorem before_both (a b : α) (first : Before rank name a b) (second : Before rank name b a) : name a = name b := by
  rcases first with lower | ⟨level, named⟩
  · rcases second with higher | ⟨level, _⟩
    · exact absurd lower higher.asymm
    · exact absurd level.symm lower.ne
  · rcases second with lower | ⟨_, named₂⟩
    · exact absurd level lower.ne'
    · exact Nat.le_antisymm named named₂

variable (le : α → α → Bool) (agrees : ∀ a b, le a b = true ↔ Before rank name a b)

include agrees

theorem sort_pairwise (items : List α) : (items.mergeSort le).Pairwise (Before rank name) := by
  have trans (a b c : α) (first : le a b = true) (second : le b c = true) : le a c = true :=
    (agrees a c).mpr (before_trans rank name a b c ((agrees a b).mp first) ((agrees b c).mp second))
  have total (a b : α) : (le a b || le b a) = true := by
    rw [Bool.or_eq_true, agrees, agrees]
    exact before_total rank name a b
  exact (List.pairwise_mergeSort trans total items).imp fun held => (agrees _ _).mp held

-- With distinct names there is one sorted order, whatever order the items came in.
theorem sort_perm (items others : List α) (perm : items.Perm others) (distinct : (items.map name).Nodup) :
    items.mergeSort le = others.mergeSort le := by
  refine List.Perm.eq_of_pairwise ?_ (sort_pairwise rank name le agrees items) (sort_pairwise rank name le agrees others)
    ((List.mergeSort_perm items le).trans (perm.trans (List.mergeSort_perm others le).symm))
  intro a b first second before after
  have here : a ∈ items := List.mem_mergeSort.mp first
  have there : b ∈ items := perm.mem_iff.mpr (List.mem_mergeSort.mp second)
  exact List.inj_on_of_nodup_map distinct here there (before_both rank name a b before after)

end Ranked
