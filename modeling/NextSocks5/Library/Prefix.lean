import Mathlib

set_option autoImplicit false

-- Networks of big-endian addresses: the addresses that agree with a base in their first bits.
namespace Prefix

def bigEndian : List UInt8 → Nat
  | [] => 0
  | octet :: rest => octet.toNat * 2 ^ (8 * rest.length) + bigEndian rest

structure Network where
  base : List UInt8
  length : Nat
deriving DecidableEq, Repr

def leading (octets : List UInt8) (length : Nat) : Nat := bigEndian octets / 2 ^ (8 * octets.length - length)

def Network.Contains (network : Network) (address : List UInt8) : Prop :=
  leading address network.length = leading network.base network.length

instance (network : Network) (address : List UInt8) : Decidable (network.Contains address) :=
  inferInstanceAs (Decidable (leading address network.length = leading network.base network.length))

theorem big_endian_lt (octets : List UInt8) : bigEndian octets < 2 ^ (8 * octets.length) := by
  induction octets with
  | nil => simp [bigEndian]
  | cons octet rest ih =>
      have bound := octet.toNat_lt
      have wide : 2 ^ (8 * (octet :: rest).length) = 256 * 2 ^ (8 * rest.length) := by
        rw [List.length_cons, Nat.mul_add, Nat.pow_add, Nat.mul_comm]
      rw [bigEndian, wide]
      nlinarith

theorem leading_bits (octet : UInt8) (rest : List UInt8) (length : Nat) (short : length ≤ 8) :
    leading (octet :: rest) length = octet.toNat / 2 ^ (8 - length) := by
  have below := big_endian_lt rest
  have split : 8 * (octet :: rest).length - length = 8 * rest.length + (8 - length) := by
    rw [List.length_cons]
    omega
  rw [leading, split, Nat.pow_add, ← Nat.div_div_eq_div_mul, bigEndian,
    Nat.mul_comm octet.toNat, Nat.mul_add_div (Nat.two_pow_pos _), Nat.div_eq_of_lt below, Nat.add_zero]

theorem leading_octet (octet : UInt8) (rest : List UInt8) (length : Nat) (long : 8 ≤ length) :
    leading (octet :: rest) length = octet.toNat * 2 ^ (8 * rest.length - (8 * rest.length - (length - 8))) +
      leading rest (length - 8) := by
  have split : 8 * (octet :: rest).length - length = 8 * rest.length - (length - 8) := by
    rw [List.length_cons]
    omega
  have whole : 2 ^ (8 * rest.length) =
      2 ^ (8 * rest.length - (length - 8)) * 2 ^ (8 * rest.length - (8 * rest.length - (length - 8))) := by
    rw [← Nat.pow_add]
    congr 1
    omega
  rw [leading, split, bigEndian, leading]
  nth_rewrite 1 [whole]
  rw [Nat.mul_left_comm, Nat.mul_add_div (Nat.two_pow_pos _)]

theorem leading_lt (octets : List UInt8) (length : Nat) :
    leading octets length < 2 ^ (8 * octets.length - (8 * octets.length - length)) := by
  rw [leading, Nat.div_lt_iff_lt_mul (Nat.two_pow_pos _), ← Nat.pow_add]
  have whole : 8 * octets.length - (8 * octets.length - length) + (8 * octets.length - length) = 8 * octets.length := by
    omega
  rw [whole]
  exact big_endian_lt octets

theorem contains_bits (octet first : UInt8) (rest base : List UInt8) (length : Nat) (short : length ≤ 8) :
    (Network.mk (first :: base) length).Contains (octet :: rest) ↔
      octet.toNat / 2 ^ (8 - length) = first.toNat / 2 ^ (8 - length) := by
  rw [Network.Contains, leading_bits octet rest length short, leading_bits first base length short]

theorem contains_octet (octet first : UInt8) (rest base : List UInt8) (length : Nat) (long : 8 ≤ length)
    (same : rest.length = base.length) :
    (Network.mk (first :: base) length).Contains (octet :: rest) ↔
      octet = first ∧ (Network.mk base (length - 8)).Contains rest := by
  have restLess := leading_lt rest (length - 8)
  have baseLess := leading_lt base (length - 8)
  simp only [Network.Contains, leading_octet _ _ length long]
  rw [← same] at baseLess ⊢
  constructor
  · intro equal
    have heads := congrArg (· / 2 ^ (8 * rest.length - (8 * rest.length - (length - 8)))) equal
    simp only [Nat.mul_comm _ (2 ^ _), Nat.mul_add_div (Nat.two_pow_pos _), Nat.div_eq_of_lt restLess,
      Nat.div_eq_of_lt baseLess, Nat.add_zero] at heads
    rw [heads] at equal
    exact ⟨UInt8.toNat_inj.mp heads, Nat.add_left_cancel equal⟩
  · intro premise
    obtain ⟨rfl, tails⟩ := premise
    rw [tails]

theorem and_high_bits (width low word : Nat) (inside : low ≤ width) (small : word < 2 ^ width) :
    word &&& (2 ^ width - 2 ^ low) = word / 2 ^ low * 2 ^ low := by
  have mask : 2 ^ width - 2 ^ low = (2 ^ (width - low) - 1) * 2 ^ low := by
    rw [Nat.sub_mul, Nat.one_mul, ← Nat.pow_add, Nat.sub_add_cancel inside]
  apply Nat.eq_of_testBit_eq
  intro i
  rw [mask, Nat.testBit_and, Nat.testBit_mul_two_pow, Nat.testBit_mul_two_pow, Nat.testBit_two_pow_sub_one,
    Nat.testBit_div_two_pow]
  by_cases above : low ≤ i
  · by_cases under : i < width
    · have bit : i - low < width - low := by omega
      simp [above, bit]
    · have zero : word.testBit i = false :=
        Nat.testBit_lt_two_pow (Nat.lt_of_lt_of_le small (Nat.pow_le_pow_right (by decide) (by omega)))
      have back : i - low + low = i := by omega
      simp [zero, back]
  · simp [above]

theorem masked_eq_iff (width low word base : Nat) (inside : low ≤ width) (small : word < 2 ^ width)
    (clear : base % 2 ^ low = 0) :
    word &&& (2 ^ width - 2 ^ low) = base ↔ word / 2 ^ low = base / 2 ^ low := by
  have whole : base / 2 ^ low * 2 ^ low = base := Nat.div_mul_cancel (Nat.dvd_of_mod_eq_zero clear)
  rw [and_high_bits width low word inside small]
  constructor
  · intro same
    rw [← same, Nat.mul_div_cancel _ (Nat.two_pow_pos low)]
  · intro same
    rw [same, whole]

end Prefix
