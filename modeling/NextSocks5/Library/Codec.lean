import Mathlib

set_option autoImplicit false

-- A self-delimiting encoding: decoding takes back what an encoding keeps of a value that fits it, and leaves the rest.
structure Codec (α : Type) where
  encode : α → List UInt8
  decode : List UInt8 → Option (α × List UInt8)
  fits : α → Bool
  kept : α → α
  inverse : ∀ value rest, fits value = true → decode (encode value ++ rest) = some (kept value, rest)

namespace Codec

variable {α β : Type}

def byte : Codec UInt8 where
  encode value := [value]
  decode
    | [] => none
    | value :: rest => some (value, rest)
  fits _ := true
  kept value := value
  inverse _ _ _ := rfl

-- Seven bits a byte, lowest first, every byte but the last with its high bit set.
def encodeVarint (n : Nat) : List UInt8 :=
  if n < 128 then [UInt8.ofNat n] else UInt8.ofNat (n % 128 + 128) :: encodeVarint (n / 128)
termination_by n
decreasing_by omega

-- At most so many bytes are looked at.
def decodeVarint : Nat → List UInt8 → Option (Nat × List UInt8)
  | 0, _ => none
  | _, [] => none
  | digits + 1, value :: rest =>
      if value.toNat < 128 then some (value.toNat, rest)
      else (decodeVarint digits rest).map fun (high, rest) => (value.toNat - 128 + 128 * high, rest)

theorem decode_encode_varint (digits n : Nat) (rest : List UInt8) (bound : n < 128 ^ (digits + 1)) :
    decodeVarint (digits + 1) (encodeVarint n ++ rest) = some (n, rest) := by
  induction digits generalizing n with
  | zero =>
      have small : n < 128 := by omega
      have whole : (UInt8.ofNat n).toNat = n := UInt8.toNat_ofNat_of_lt' (by simp [UInt8.size]; omega)
      rw [encodeVarint, if_pos small]
      simp [decodeVarint, whole, small]
  | succ digits ih =>
      rw [encodeVarint]
      split
      · rename_i small
        have whole : (UInt8.ofNat n).toNat = n := UInt8.toNat_ofNat_of_lt' (by simp [UInt8.size]; omega)
        simp [decodeVarint, whole, small]
      · have head : (UInt8.ofNat (n % 128 + 128)).toNat = n % 128 + 128 := UInt8.toNat_ofNat_of_lt' (by simp [UInt8.size]; omega)
        have smaller : n / 128 < 128 ^ (digits + 1) := by
          rw [pow_succ] at bound
          exact Nat.div_lt_of_lt_mul (by omega)
        have continued : ¬ n % 128 + 128 < 128 := by omega
        have sum : n % 128 + 128 - 128 + 128 * (n / 128) = n := by omega
        rw [List.cons_append, decodeVarint, head, if_neg continued, ih (n / 128) smaller, Option.map_some]
        exact congrArg (fun value => some (value, rest)) sum

theorem encode_varint_small (n : Nat) (small : n < 128) : encodeVarint n = [UInt8.ofNat n] := by rw [encodeVarint, if_pos small]

theorem varint_length (digits n : Nat) (bound : n < 128 ^ (digits + 1)) :
    0 < (encodeVarint n).length ∧ (encodeVarint n).length ≤ digits + 1 := by
  induction digits generalizing n with
  | zero =>
      rw [encode_varint_small n (by omega)]
      simp
  | succ digits ih =>
      rw [encodeVarint]
      split
      · simp
      · have smaller : n / 128 < 128 ^ (digits + 1) := by
          rw [pow_succ] at bound
          exact Nat.div_lt_of_lt_mul (by omega)
        obtain ⟨_, short⟩ := ih (n / 128) smaller
        simp only [List.length_cons]
        omega

-- A varint for numbers below a bound: one with more bytes than they need, or past the bound, is refused.
def varint (digits limit : Nat) (room : limit ≤ 128 ^ (digits + 1)) : Codec Nat where
  encode := encodeVarint
  decode bytes := (decodeVarint (digits + 1) bytes).bind fun (n, rest) => if n < limit then some (n, rest) else none
  fits n := decide (n < limit)
  kept n := n
  inverse n rest fits := by
    have below : n < limit := of_decide_eq_true fits
    rw [decode_encode_varint digits n rest (Nat.lt_of_lt_of_le below room), Option.bind_some]
    exact if_pos below

def pair (first : Codec α) (second : Codec β) : Codec (α × β) where
  encode value := first.encode value.1 ++ second.encode value.2
  decode bytes := (first.decode bytes).bind fun (a, rest) => (second.decode rest).map fun (b, rest) => ((a, b), rest)
  fits value := first.fits value.1 && second.fits value.2
  kept value := (first.kept value.1, second.kept value.2)
  inverse value rest fits := by
    obtain ⟨left, right⟩ := Bool.and_eq_true_iff.mp fits
    simp [List.append_assoc, first.inverse value.1 _ left, second.inverse value.2 rest right]

def convert (codec : Codec α) (forth : β → α) (back : α → Option β) (kept : β → β)
    (inverse : ∀ value, codec.fits (forth value) = true → back (codec.kept (forth value)) = some (kept value)) : Codec β where
  encode value := codec.encode (forth value)
  decode bytes := (codec.decode bytes).bind fun (value, rest) => (back value).map fun value => (value, rest)
  fits value := codec.fits (forth value)
  kept := kept
  inverse value rest fits := by simp [codec.inverse (forth value) rest fits, inverse value fits]

def items (codec : Codec α) : Nat → List UInt8 → Option (List α × List UInt8)
  | 0, bytes => some ([], bytes)
  | n + 1, bytes =>
      (codec.decode bytes).bind fun (value, rest) => (codec.items n rest).map fun (values, rest) => (value :: values, rest)

theorem items_inverse (codec : Codec α) (values : List α) (rest : List UInt8) (fits : values.all codec.fits = true) :
    codec.items values.length (values.flatMap codec.encode ++ rest) = some (values.map codec.kept, rest) := by
  induction values with
  | nil => rfl
  | cons value values ih =>
      obtain ⟨first, others⟩ := Bool.and_eq_true_iff.mp fits
      simp [items, List.append_assoc, codec.inverse value _ first, ih others]

-- The number of the values, and then one after the other.
def list (size : Codec Nat) (unchanged : ∀ n, size.kept n = n) (codec : Codec α) : Codec (List α) where
  encode values := size.encode values.length ++ values.flatMap codec.encode
  decode bytes := (size.decode bytes).bind fun (n, rest) => codec.items n rest
  fits values := size.fits values.length && values.all codec.fits
  kept values := values.map codec.kept
  inverse values rest fits := by
    obtain ⟨counted, each⟩ := Bool.and_eq_true_iff.mp fits
    simp [List.append_assoc, size.inverse values.length _ counted, unchanged, items_inverse codec values rest each]

-- A sequence of a known length goes without a prefix.
def vector (codec : Codec α) (n : Nat) : Codec (Vector α n) where
  encode values := values.toList.flatMap codec.encode
  decode bytes := (codec.items n bytes).bind fun (values, rest) =>
    if sized : values.length = n then some (⟨values.toArray, by simpa using sized⟩, rest) else none
  fits values := values.toList.all codec.fits
  kept values := values.map codec.kept
  inverse values rest fits := by
    have back := codec.items_inverse values.toList rest fits
    rw [Vector.length_toList] at back
    simp only [back, Option.bind_some, List.length_map, Vector.length_toList, dif_pos, Option.some.injEq, Prod.mk.injEq, and_true]
    apply Vector.toList_inj.mp
    simp [Vector.toList_map]

def option (codec : Codec α) : Codec (Option α) where
  encode
    | none => [0]
    | some value => 1 :: codec.encode value
  decode
    | 0 :: rest => some (none, rest)
    | 1 :: rest => (codec.decode rest).map fun (value, rest) => (some value, rest)
    | _ => none
  fits value := value.all codec.fits
  kept value := value.map codec.kept
  inverse value rest fits := by
    cases value with
    | none => rfl
    | some value => simp [codec.inverse value rest fits]

theorem list_byte_length (size : Codec Nat) (unchanged : ∀ n, size.kept n = n) (values : List UInt8) :
    ((list size unchanged byte).encode values).length = (size.encode values.length).length + values.length := by
  have plain : values.flatMap byte.encode = values := List.flatMap_singleton' values
  simp only [list, plain, List.length_append]

end Codec
