import Mathlib

set_option autoImplicit false

-- How many members of a finite family have a property, as one member at a time changes.
namespace Census

variable {σ τ : Type} [Fintype τ]

def census (p : σ → Bool) (family : τ → σ) : Nat := ∑ t, (p (family t)).toNat

theorem census_none (p : σ → Bool) (family : τ → σ) (out : ∀ t, p (family t) = false) : census p family = 0 := by
  simp [census, out]

theorem census_le_card (p : σ → Bool) (family : τ → σ) : census p family ≤ Fintype.card τ := by
  calc census p family ≤ ∑ _t : τ, 1 := Finset.sum_le_sum fun t _ => Bool.toNat_le (p (family t))
    _ = Fintype.card τ := by simp

theorem census_pos (p : σ → Bool) (family : τ → σ) (t : τ) (inside : p (family t) = true) : 0 < census p family := by
  apply Finset.sum_pos' (fun _ _ => Nat.zero_le _)
  exact ⟨t, Finset.mem_univ t, by simp [inside]⟩

theorem census_le_length [DecidableEq τ] (p : σ → Bool) (family : τ → σ) (names : List τ)
    (named : ∀ t, p (family t) = true → t ∈ names) : census p family ≤ names.length := by
  have filtered : census p family = (Finset.univ.filter fun t => p (family t) = true).card := by
    rw [census, Finset.card_filter]
    exact Finset.sum_congr rfl fun t _ => by cases p (family t) <;> rfl
  have inside : (Finset.univ.filter fun t => p (family t) = true) ⊆ names.toFinset := by
    intro t member
    exact List.mem_toFinset.mpr (named t (Finset.mem_filter.mp member).2)
  rw [filtered]
  exact (Finset.card_le_card inside).trans (List.toFinset_card_le names)

theorem census_balance (p q r s : σ → Bool) (family : τ → σ)
    (each : ∀ value, (p value).toNat + (q value).toNat = (r value).toNat + (s value).toNat) :
    census p family + census q family = census r family + census s family := by
  rw [census, census, census, census, ← Finset.sum_add_distrib, ← Finset.sum_add_distrib]
  exact Finset.sum_congr rfl fun t _ => each (family t)

variable [DecidableEq τ]

theorem sum_update (size : τ → σ → Nat) (family : τ → σ) (t : τ) (value : σ) :
    ∑ u, size u (Function.update family t value u) + size t (family t) = ∑ u, size u (family u) + size t value := by
  have split (member : τ → σ) : ∑ u, size u (member u) = size t (member t) + ∑ u ∈ Finset.univ.erase t, size u (member u) :=
    (Finset.add_sum_erase Finset.univ (fun u => size u (member u)) (Finset.mem_univ t)).symm
  have same : ∑ u ∈ Finset.univ.erase t, size u (Function.update family t value u) = ∑ u ∈ Finset.univ.erase t, size u (family u) := by
    refine Finset.sum_congr rfl fun u member => ?_
    rw [Function.update_of_ne (Finset.ne_of_mem_erase member)]
  rw [split family, split (Function.update family t value), same, Function.update_self]
  omega

theorem census_update (p : σ → Bool) (family : τ → σ) (t : τ) (value : σ) :
    census p (Function.update family t value) + (p (family t)).toNat = census p family + (p value).toNat :=
  sum_update (fun _ member => (p member).toNat) family t value

end Census
