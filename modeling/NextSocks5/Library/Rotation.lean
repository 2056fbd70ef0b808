import Mathlib

set_option autoImplicit false

-- A scan of all residues below a width, from a base that wraps at a modulus.
namespace Rotation

def offset (modulus width base i : Nat) : Nat := (base + i) % modulus % width

def scan (modulus width base : Nat) : List Nat := (List.range width).map (offset modulus width base)

theorem offset_lt (modulus width base i : Nat) (positive : 0 < width) : offset modulus width base i < width :=
  Nat.mod_lt _ positive

theorem add_mod_injective (width base i j : Nat) (first : i < width) (second : j < width)
    (same : (base + i) % width = (base + j) % width) : i = j := by
  have congruent : i ≡ j [MOD width] := Nat.ModEq.add_left_cancel' base same
  simpa only [Nat.ModEq, Nat.mod_eq_of_lt first, Nat.mod_eq_of_lt second] using congruent

theorem scan_nodup_of_inside (modulus width base : Nat) (inside : base + width ≤ modulus) : (scan modulus width base).Nodup := by
  rw [scan, List.nodup_map_iff_inj_on List.nodup_range]
  intro i first j second same
  rw [List.mem_range] at first second
  have left : (base + i) % modulus = base + i := Nat.mod_eq_of_lt (by omega)
  have right : (base + j) % modulus = base + j := Nat.mod_eq_of_lt (by omega)
  simp only [offset, left, right] at same
  exact add_mod_injective width base i j first second same

theorem scan_nodup_of_dvd (modulus width base : Nat) (divides : width ∣ modulus) : (scan modulus width base).Nodup := by
  rw [scan, List.nodup_map_iff_inj_on List.nodup_range]
  intro i first j second same
  rw [List.mem_range] at first second
  simp only [offset, Nat.mod_mod_of_dvd _ divides] at same
  exact add_mod_injective width base i j first second same

-- The first index of a scan that wraps whose offset has occurred before.
def seam (modulus width base : Nat) : Nat := max (modulus - base) (modulus % width)

theorem seam_lt (modulus width base : Nat) (below : base < modulus) (wraps : modulus < base + width) : seam modulus width base < width := by
  have short : modulus % width < width := Nat.mod_lt _ (by omega)
  rw [seam]
  omega

theorem wrapped_offset (modulus width base i : Nat) (fits : width ≤ modulus) (late : modulus ≤ base + i) (short : base + i - modulus < width) :
    offset modulus width base i = base + i - modulus := by
  rw [offset, Nat.mod_eq_sub_mod late, Nat.mod_eq_of_lt (Nat.lt_of_lt_of_le short fits), Nat.mod_eq_of_lt short]

theorem seam_repeats (modulus width base : Nat) (below : base < modulus) (fits : width ≤ modulus) (wraps : modulus < base + width)
    (uneven : ¬ width ∣ modulus) :
    ∃ i < seam modulus width base, offset modulus width base i = offset modulus width base (seam modulus width base) := by
  have positive : 0 < width := by omega
  have short : modulus % width < width := Nat.mod_lt _ positive
  have remains : modulus % width ≠ 0 := fun zero => uneven (Nat.dvd_of_mod_eq_zero zero)
  have whole := Nat.div_add_mod modulus width
  by_cases late : modulus - base ≤ modulus % width
  · obtain ⟨rest, split⟩ := Nat.exists_eq_add_of_le late
    have small : rest < width := by omega
    have first : base = rest + width * (modulus / width) := by omega
    have left : base % width = rest := by
      calc base % width = (rest + width * (modulus / width)) % width := congrArg (· % width) first
        _ = rest := by rw [Nat.add_mul_mod_self_left, Nat.mod_eq_of_lt small]
    have last : seam modulus width base = modulus % width := Nat.max_eq_right late
    refine ⟨0, by omega, ?_⟩
    rw [last, wrapped_offset modulus width base (modulus % width) fits (by omega) (by omega), offset, Nat.add_zero,
      Nat.mod_eq_of_lt below, left]
    omega
  · have first : base + (modulus - base - modulus % width) = width * (modulus / width) := by omega
    have small : width * (modulus / width) < modulus := by omega
    have last : seam modulus width base = modulus - base := Nat.max_eq_left (by omega)
    refine ⟨modulus - base - modulus % width, by omega, ?_⟩
    rw [last, wrapped_offset modulus width base (modulus - base) fits (by omega) (by omega), offset, first, Nat.mod_eq_of_lt small,
      Nat.mul_mod_right]
    omega

theorem before_seam_injective (modulus width base i j : Nat) (below : base < modulus) (fits : width ≤ modulus)
    (wraps : modulus < base + width) (first : i < seam modulus width base) (second : j < seam modulus width base)
    (same : offset modulus width base i = offset modulus width base j) : i = j := by
  wlog ordered : i ≤ j generalizing i j
  · exact (this j i second first same.symm (by omega)).symm
  have positive : 0 < width := by omega
  have short : modulus % width < width := Nat.mod_lt _ positive
  have whole := Nat.div_add_mod modulus width
  rw [seam] at first second
  by_cases inside : base + j < modulus
  · have left : (base + i) % modulus = base + i := Nat.mod_eq_of_lt (by omega)
    have right : (base + j) % modulus = base + j := Nat.mod_eq_of_lt inside
    simp only [offset, left, right] at same
    exact add_mod_injective width base i j (by omega) (by omega) same
  · rw [wrapped_offset modulus width base j fits (by omega) (by omega)] at same
    by_cases before : base + i < modulus
    · have early : base + i = (modulus % width - (modulus - base) + i) + width * (modulus / width) := by omega
      have value : offset modulus width base i = modulus % width - (modulus - base) + i := by
        calc offset modulus width base i = (base + i) % width := by rw [offset, Nat.mod_eq_of_lt before]
          _ = ((modulus % width - (modulus - base) + i) + width * (modulus / width)) % width := congrArg (· % width) early
          _ = modulus % width - (modulus - base) + i := by rw [Nat.add_mul_mod_self_left, Nat.mod_eq_of_lt (by omega)]
      omega
    · rw [wrapped_offset modulus width base i fits (by omega) (by omega)] at same
      omega

theorem scan_nodup (modulus width base : Nat) (even : base + width ≤ modulus ∨ width ∣ modulus) : (scan modulus width base).Nodup := by
  rcases even with inside | divides
  · exact scan_nodup_of_inside modulus width base inside
  · exact scan_nodup_of_dvd modulus width base divides

theorem scan_perm (modulus width base : Nat) (positive : 0 < width) (nodup : (scan modulus width base).Nodup) :
    (scan modulus width base).Perm (List.range width) := by
  have inside : scan modulus width base ⊆ List.range width := by
    intro value member
    obtain ⟨i, _, rfl⟩ := List.mem_map.mp member
    exact List.mem_range.mpr (offset_lt modulus width base i positive)
  exact (List.subperm_of_subset nodup inside).perm_of_length_le (by simp [scan])

end Rotation
