import NextSocks5.Config
import NextSocks5.Library.Prefix

set_option autoImplicit false

namespace NextSocks5

open Prefix

def Ipv4Addr.In (ip : Ipv4Addr) (base : List UInt8) (length : Nat) : Prop :=
  (Network.mk base length).Contains ip.octets.toList

def Ipv6Addr.In (ip : Ipv6Addr) (base : List UInt8) (length : Nat) : Prop :=
  (Network.mk base length).Contains ip.octets.toList

instance (ip : Ipv4Addr) (base : List UInt8) (length : Nat) : Decidable (ip.In base length) :=
  inferInstanceAs (Decidable ((Network.mk base length).Contains ip.octets.toList))

instance (ip : Ipv6Addr) (base : List UInt8) (length : Nat) : Decidable (ip.In base length) :=
  inferInstanceAs (Decidable ((Network.mk base length).Contains ip.octets.toList))

def Egress.Blocks4 (policy : Egress) (ip : Ipv4Addr) : Prop :=
  ip = .new 0 0 0 0 ∨
  (policy.blockLoopback = true ∧ (ip.In [127, 0, 0, 0] 8 ∨ ip.In [0, 0, 0, 0] 8)) ∨
  (policy.blockLinkLocal = true ∧ ip.In [169, 254, 0, 0] 16) ∨
  (policy.blockPrivate = true ∧
    (ip.In [10, 0, 0, 0] 8 ∨ ip.In [172, 16, 0, 0] 12 ∨ ip.In [192, 168, 0, 0] 16 ∨ ip.In [100, 64, 0, 0] 10))

def Egress.Blocks6 (policy : Egress) (ip : Ipv6Addr) : Prop :=
  (policy.blockLinkLocal = true ∧ ip.In [0xfe, 0x80, 0, 0, 0, 0, 0, 0, 0, 0, 0, 0, 0, 0, 0, 0] 10) ∨
  (policy.blockPrivate = true ∧ ip.In [0xfc, 0, 0, 0, 0, 0, 0, 0, 0, 0, 0, 0, 0, 0, 0, 0] 7)

def Egress.Within (policy stricter : Egress) : Prop :=
  (policy.blockLoopback = true → stricter.blockLoopback = true) ∧
  (policy.blockLinkLocal = true → stricter.blockLinkLocal = true) ∧
  (policy.blockPrivate = true → stricter.blockPrivate = true)

theorem ipv4_octets (ip : Ipv4Addr) :
    ip.octets.toList = [ip.octets.get 0, ip.octets.get 1, ip.octets.get 2, ip.octets.get 3] := by
  obtain ⟨⟨⟨octets⟩, size⟩⟩ := ip
  match octets, size with
  | [_, _, _, _], _ => rfl

theorem ipv6_octets (ip : Ipv6Addr) : ip.octets.toList = ip.octets.get 0 :: ip.octets.get 1 :: ip.octets.toList.drop 2 := by
  obtain ⟨⟨⟨octets⟩, size⟩⟩ := ip
  match octets, size with
  | _ :: _ :: _, _ => rfl

theorem first_segment (ip : Ipv6Addr) : ip.segments.get 0 = fromBeBytes (ip.octets.get 0) (ip.octets.get 1) := rfl

theorem zero_segment : fromBeBytes 0 0 = 0 := by decide

theorem in_octet (ip : Ipv4Addr) (a : UInt8) : ip.In [a, 0, 0, 0] 8 ↔ ip.octets.get 0 = a := by
  rw [Ipv4Addr.In, ipv4_octets, contains_bits _ _ _ _ _ (by decide)]
  simp [UInt8.toNat_inj]

theorem in_octets (ip : Ipv4Addr) (a b : UInt8) :
    ip.In [a, b, 0, 0] 16 ↔ ip.octets.get 0 = a ∧ ip.octets.get 1 = b := by
  rw [Ipv4Addr.In, ipv4_octets, contains_octet _ _ _ _ _ (by decide) (by rfl), contains_bits _ _ _ _ _ (by decide)]
  simp [UInt8.toNat_inj]

theorem in_part (ip : Ipv4Addr) (a b : UInt8) (length : Nat) (long : 8 ≤ length) (short : length ≤ 16) :
    ip.In [a, b, 0, 0] length ↔
      ip.octets.get 0 = a ∧ (ip.octets.get 1).toNat / 2 ^ (16 - length) = b.toNat / 2 ^ (16 - length) := by
  rw [Ipv4Addr.In, ipv4_octets, contains_octet _ _ _ _ _ long (by rfl), contains_bits _ _ _ _ _ (by omega),
    show 8 - (length - 8) = 16 - length by omega]

theorem shared_space (octet : UInt8) : octet &&& 0xc0 = 64 ↔ octet.toNat / 64 = 1 := by
  have masked := masked_eq_iff 8 6 octet.toNat 64 (by decide) octet.toNat_lt (by decide)
  rw [← UInt8.toNat_inj, UInt8.toNat_and]
  exact masked

theorem is_blocked_v4 (policy : Egress) (ip : Ipv4Addr) : policy.isBlockedV4 ip = true ↔ policy.Blocks4 ip := by
  have unspecified : ip.isUnspecified = true ↔ ip = .new 0 0 0 0 := by
    rw [Ipv4Addr.isUnspecified, beq_iff_eq, Ipv4Addr.new]
    exact ⟨fun same => congrArg Ipv4Addr.mk same, fun same => congrArg Ipv4Addr.octets same⟩
  have class172 : 16 ≤ (ip.octets.get 1).toNat ∧ (ip.octets.get 1).toNat ≤ 31 ↔ (ip.octets.get 1).toNat / 16 = 1 := by omega
  have first : ip.octets[0] = ip.octets.get 0 := rfl
  have second : ip.octets[1] = ip.octets.get 1 := rfl
  simp only [Egress.isBlockedV4, Egress.Blocks4, Bool.or_eq_true, Bool.and_eq_true, unspecified, Ipv4Addr.isLoopback,
    Ipv4Addr.isLinkLocal, Ipv4Addr.isPrivate, beq_iff_eq, decide_eq_true_eq, in_octet, in_octets, first, second,
    in_part ip 172 16 12 (by decide) (by decide), in_part ip 100 64 10 (by decide) (by decide), shared_space, and_assoc,
    class172, or_assoc]
  simp

theorem ipv4_ext (a b : Ipv4Addr) (same : a.octets.toList = b.octets.toList) : a = b := by
  obtain ⟨octets⟩ := a
  obtain ⟨others⟩ := b
  exact congrArg Ipv4Addr.mk (Vector.toList_inj.mp same)

theorem to_ipv4_mapped (ip : Ipv4Addr) : ip.toIpv6Mapped.toIpv4 = some ip := by
  have same : ip.toIpv6Mapped.lastFour = ip := ipv4_ext _ _ (ipv4_octets ip).symm
  rw [Ipv6Addr.toIpv4, if_pos (.inl rfl), same]

theorem to_ipv4_compatible (ip : Ipv4Addr) : ip.toIpv6Compatible.toIpv4 = some ip := by
  have same : ip.toIpv6Compatible.lastFour = ip := ipv4_ext _ _ (ipv4_octets ip).symm
  rw [Ipv6Addr.toIpv4, if_pos (.inr rfl), same]

theorem ipv6_split (ip : Ipv6Addr) : ip.octets.toList = ip.octets.toList.take 12 ++ ip.lastFour.octets.toList := by
  obtain ⟨⟨⟨octets⟩, size⟩⟩ := ip
  match octets, size with
  | [_, _, _, _, _, _, _, _, _, _, _, _, _, _, _, _], _ => rfl

theorem to_ipv4_form (ip : Ipv6Addr) (v4 : Ipv4Addr) (folded : ip.toIpv4 = some v4) :
    ip = v4.toIpv6Mapped ∨ ip = v4.toIpv6Compatible := by
  have whole := ipv6_split ip
  simp only [Ipv6Addr.toIpv4, Option.ite_none_right_eq_some, Option.some.injEq] at folded
  obtain ⟨form, rfl⟩ := folded
  rw [ipv4_octets] at whole
  rcases form with form | form
  · rw [form] at whole
    exact .inl (congrArg Ipv6Addr.mk (Vector.toList_inj.mp whole))
  · rw [form] at whole
    exact .inr (congrArg Ipv6Addr.mk (Vector.toList_inj.mp whole))

theorem is_blocked_mapped (policy : Egress) (ip : Ipv4Addr) :
    policy.isBlocked (.v6 ip.toIpv6Mapped) = policy.isBlocked (.v4 ip) := by
  have segment : ip.toIpv6Mapped.segments[0] = fromBeBytes 0 0 := first_segment _
  have specified : ip.toIpv6Mapped.isUnspecified = false := by simp [Ipv4Addr.toIpv6Mapped, Ipv6Addr.isUnspecified]
  have distant : ip.toIpv6Mapped.isLoopback = false := by simp [Ipv4Addr.toIpv6Mapped, Ipv6Addr.isLoopback]
  simp only [Egress.isBlocked, segment, zero_segment, specified, distant, to_ipv4_mapped]
  split
  · rename_i native
    simp at native
  · rfl

-- ::1 and :: are the compatible forms of 0.0.0.1 and 0.0.0.0.
theorem is_blocked_compatible (policy : Egress) (ip : Ipv4Addr) :
    policy.isBlocked (.v6 ip.toIpv6Compatible) = policy.isBlocked (.v4 ip) := by
  have segment : ip.toIpv6Compatible.segments[0] = fromBeBytes 0 0 := first_segment _
  have unspecified : ip.toIpv6Compatible.isUnspecified = true → policy.isBlockedV4 ip = true := by
    intro zero
    rw [is_blocked_v4]
    refine .inl (ipv4_ext _ _ ?_)
    have octets := congrArg (fun v : Vector UInt8 16 => v.toList.drop 12) (beq_iff_eq.mp zero)
    exact (ipv4_octets ip).trans octets
  have loopback : policy.blockLoopback = true → ip.toIpv6Compatible.isLoopback = true → policy.isBlockedV4 ip = true := by
    intro on one
    rw [is_blocked_v4]
    refine .inr (.inl ⟨on, .inr ((in_octet ip 0).mpr ?_)⟩)
    exact congrArg (fun v : Vector UInt8 16 => v[12]) (beq_iff_eq.mp one)
  simp only [Egress.isBlocked, segment, zero_segment, to_ipv4_compatible]
  split
  · rename_i native
    simp at native
    rcases native with zero | ⟨on, one⟩
    · exact (unspecified zero).symm
    · exact (loopback on one).symm
  · rfl

theorem link_local_segment (segment : UInt16) : segment &&& 0xffc0 = 0xfe80 ↔ segment.toNat / 64 = 0xfe80 / 64 := by
  have masked := masked_eq_iff 16 6 segment.toNat 0xfe80 (by decide) segment.toNat_lt (by decide)
  rw [← UInt16.toNat_inj, UInt16.toNat_and]
  exact masked

theorem unique_local_segment (segment : UInt16) : segment &&& 0xfe00 = 0xfc00 ↔ segment.toNat / 512 = 0xfc00 / 512 := by
  have masked := masked_eq_iff 16 9 segment.toNat 0xfc00 (by decide) segment.toNat_lt (by decide)
  rw [← UInt16.toNat_inj, UInt16.toNat_and]
  exact masked

theorem in_link_local (ip : Ipv6Addr) :
    ip.In [0xfe, 0x80, 0, 0, 0, 0, 0, 0, 0, 0, 0, 0, 0, 0, 0, 0] 10 ↔ ip.segments.get 0 &&& 0xffc0 = 0xfe80 := by
  have first := (ip.octets.get 0).toNat_lt
  have second := (ip.octets.get 1).toNat_lt
  have segment : (ip.segments.get 0).toNat = (ip.octets.get 0).toNat * 256 + (ip.octets.get 1).toNat := by
    rw [first_segment, from_be_bytes_nat]
  rw [Ipv6Addr.In, ipv6_octets, contains_octet _ _ _ _ _ (by decide) (by simp), contains_bits _ _ _ _ _ (by decide),
    link_local_segment, segment, ← UInt8.toNat_inj, show (0xfe : UInt8).toNat = 0xfe from rfl,
    show (0x80 : UInt8).toNat = 0x80 from rfl]
  omega

theorem in_unique_local (ip : Ipv6Addr) :
    ip.In [0xfc, 0, 0, 0, 0, 0, 0, 0, 0, 0, 0, 0, 0, 0, 0, 0] 7 ↔ ip.segments.get 0 &&& 0xfe00 = 0xfc00 := by
  have first := (ip.octets.get 0).toNat_lt
  have second := (ip.octets.get 1).toNat_lt
  have segment : (ip.segments.get 0).toNat = (ip.octets.get 0).toNat * 256 + (ip.octets.get 1).toNat := by
    rw [first_segment, from_be_bytes_nat]
  rw [Ipv6Addr.In, ipv6_octets, contains_bits _ _ _ _ _ (by decide), unique_local_segment, segment,
    show (0xfc : UInt8).toNat = 0xfc from rfl]
  omega

theorem is_blocked_v6 (policy : Egress) (ip : Ipv6Addr) (notMapped : ∀ v4 : Ipv4Addr, ip ≠ v4.toIpv6Mapped)
    (notCompatible : ∀ v4 : Ipv4Addr, ip ≠ v4.toIpv6Compatible) :
    policy.isBlocked (.v6 ip) = true ↔ policy.Blocks6 ip := by
  have native : ip.toIpv4 = none := by
    cases folded : ip.toIpv4 with
    | none => rfl
    | some v4 => exact ((to_ipv4_form ip v4 folded).elim (notMapped v4) (notCompatible v4)).elim
  have specified : ip.isUnspecified = false := by
    by_contra zero
    have octets := beq_iff_eq.mp (Bool.of_not_eq_false zero)
    exact notCompatible (.new 0 0 0 0) (congrArg Ipv6Addr.mk octets)
  have distant : ip.isLoopback = false := by
    by_contra one
    have octets := beq_iff_eq.mp (Bool.of_not_eq_false one)
    exact notCompatible (.new 0 0 0 1) (congrArg Ipv6Addr.mk octets)
  have first : ip.segments[0] = ip.segments.get 0 := rfl
  simp [Egress.isBlocked, native, specified, distant, Egress.Blocks6, in_link_local, in_unique_local, first]

theorem blocks4_mono (policy stricter : Egress) (within : policy.Within stricter) (ip : Ipv4Addr)
    (blocked : policy.Blocks4 ip) : stricter.Blocks4 ip :=
  blocked.imp_right (Or.imp (And.imp_left within.1) (Or.imp (And.imp_left within.2.1) (And.imp_left within.2.2)))

theorem blocks6_mono (policy stricter : Egress) (within : policy.Within stricter) (ip : Ipv6Addr)
    (blocked : policy.Blocks6 ip) : stricter.Blocks6 ip :=
  blocked.imp (And.imp_left within.2.1) (And.imp_left within.2.2)

theorem is_blocked_mono (policy stricter : Egress) (within : policy.Within stricter) (ip : IpAddr)
    (blocked : policy.isBlocked ip = true) : stricter.isBlocked ip = true := by
  have folds (v4 : Ipv4Addr) (blockedV4 : policy.isBlocked (.v4 v4) = true) : stricter.isBlocked (.v4 v4) = true :=
    (is_blocked_v4 stricter v4).mpr (blocks4_mono policy stricter within v4 ((is_blocked_v4 policy v4).mp blockedV4))
  cases ip with
  | v4 v4 => exact folds v4 blocked
  | v6 v6 =>
      by_cases mapped : ∃ v4 : Ipv4Addr, v6 = v4.toIpv6Mapped
      · obtain ⟨v4, rfl⟩ := mapped
        rw [is_blocked_mapped] at blocked ⊢
        exact folds v4 blocked
      · by_cases compatible : ∃ v4 : Ipv4Addr, v6 = v4.toIpv6Compatible
        · obtain ⟨v4, rfl⟩ := compatible
          rw [is_blocked_compatible] at blocked ⊢
          exact folds v4 blocked
        · have notMapped := not_exists.mp mapped
          have notCompatible := not_exists.mp compatible
          rw [is_blocked_v6 policy v6 notMapped notCompatible] at blocked
          rw [is_blocked_v6 stricter v6 notMapped notCompatible]
          exact blocks6_mono policy stricter within v6 blocked

-- The filter is the documented set of networks, the same for an IPv4 address
-- and its two IPv6 forms, and a stricter policy blocks no less.
theorem is_blocked_exact (policy : Egress) :
    (∀ ip, policy.isBlocked (.v4 ip) = true ↔ policy.Blocks4 ip) ∧
    (∀ ip : Ipv4Addr, policy.isBlocked (.v6 ip.toIpv6Mapped) = policy.isBlocked (.v4 ip) ∧
      policy.isBlocked (.v6 ip.toIpv6Compatible) = policy.isBlocked (.v4 ip)) ∧
    (∀ ip : Ipv6Addr, (∀ v4 : Ipv4Addr, ip ≠ v4.toIpv6Mapped) → (∀ v4 : Ipv4Addr, ip ≠ v4.toIpv6Compatible) →
      (policy.isBlocked (.v6 ip) = true ↔ policy.Blocks6 ip)) ∧
    ∀ stricter, policy.Within stricter → ∀ ip, policy.isBlocked ip = true → stricter.isBlocked ip = true := by
  refine ⟨is_blocked_v4 policy, ?_, is_blocked_v6 policy, is_blocked_mono policy⟩
  intro ip
  exact ⟨is_blocked_mapped policy ip, is_blocked_compatible policy ip⟩

theorem is_blocked_exact_link_local :
    (⟨false, true, false⟩ : Egress).isBlocked (.v6 ⟨#v[0xfe, 0x80, 0, 0, 0, 0, 0, 0, 0, 0, 0, 0, 0, 0, 0, 1]⟩) = true ∧
    Egress.default.isBlocked (.v6 ⟨#v[0xfe, 0x80, 0, 0, 0, 0, 0, 0, 0, 0, 0, 0, 0, 0, 0, 1]⟩) = true := by
  have exactly := is_blocked_exact ⟨false, true, false⟩
  have blocked := (exactly.2.2.1 ⟨#v[0xfe, 0x80, 0, 0, 0, 0, 0, 0, 0, 0, 0, 0, 0, 0, 0, 1]⟩
    (fun v4 same => by simp [Ipv4Addr.toIpv6Mapped] at same)
    (fun v4 same => by simp [Ipv4Addr.toIpv6Compatible] at same)).mpr (.inl ⟨rfl, by decide⟩)
  exact ⟨blocked, exactly.2.2.2 .default (by simp [Egress.Within, Egress.default]) _ blocked⟩

end NextSocks5
