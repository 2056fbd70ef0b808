import Mathlib

set_option autoImplicit false

namespace NextSocks5

abbrev Bytes := List UInt8

def fromBeBytes (high low : UInt8) : UInt16 := UInt16.ofNat (high.toNat * 256 + low.toNat)

def toBeBytes (word : UInt16) : Bytes := [UInt8.ofNat (word.toNat / 256), UInt8.ofNat (word.toNat % 256)]

@[simp] theorem to_be_bytes_length (word : UInt16) : (toBeBytes word).length = 2 := rfl

theorem from_be_bytes_nat (high low : UInt8) : (fromBeBytes high low).toNat = high.toNat * 256 + low.toNat := by
  have highBound := high.toNat_lt
  have lowBound := low.toNat_lt
  simp only [fromBeBytes, UInt16.toNat_ofNat']
  omega

theorem to_be_from_be (high low : UInt8) : toBeBytes (fromBeBytes high low) = [high, low] := by
  have highBound := high.toNat_lt
  have lowBound := low.toNat_lt
  have upper : (high.toNat * 256 + low.toNat) / 256 = high.toNat := by omega
  have lower : (high.toNat * 256 + low.toNat) % 256 = low.toNat := by omega
  simp [toBeBytes, from_be_bytes_nat, upper, lower]

theorem from_be_to_be (word : UInt16) :
    fromBeBytes (UInt8.ofNat (word.toNat / 256)) (UInt8.ofNat (word.toNat % 256)) = word := by
  have bound := word.toNat_lt
  apply UInt16.toNat_inj.mp
  simp only [from_be_bytes_nat, UInt8.toNat_ofNat']
  omega

-- Both hold well-formed UTF-8 and compare by their bytes.
def asBytes (text : String) : Bytes := text.toByteArray.data.toList

def fromUtf8 (bytes : Bytes) : Option String := String.fromUTF8? bytes.toByteArray

theorem as_bytes_to_byte_array (text : String) : (asBytes text).toByteArray = text.toByteArray := by
  apply ByteArray.ext
  simp [asBytes]

@[simp] theorem from_utf8_as_bytes (text : String) : fromUtf8 (asBytes text) = some text := by
  have valid : (asBytes text).toByteArray.IsValidUTF8 := by
    rw [as_bytes_to_byte_array]
    exact text.isValidUTF8
  rw [fromUtf8, String.fromUTF8?, dif_pos valid, String.fromUTF8]
  exact congrArg some (String.toByteArray_inj.mp (as_bytes_to_byte_array text))

theorem from_utf8_some_iff (bytes : Bytes) (text : String) : fromUtf8 bytes = some text ↔ asBytes text = bytes := by
  constructor
  · intro parsed
    rw [fromUtf8, String.fromUTF8?] at parsed
    split at parsed
    · cases parsed
      simp [asBytes, String.fromUTF8]
    · cases parsed
  · intro same
    rw [← same, from_utf8_as_bytes]

theorem as_bytes_injective (a b : String) (same : asBytes a = asBytes b) : a = b := by
  have read := congrArg fromUtf8 same
  simpa using read

structure Ipv4Addr where
  octets : Vector UInt8 4
deriving DecidableEq, Repr

structure Ipv6Addr where
  octets : Vector UInt8 16
deriving DecidableEq, Repr

inductive IpAddr where
  | v4 (ip : Ipv4Addr)
  | v6 (ip : Ipv6Addr)
deriving DecidableEq, Repr

def Ipv4Addr.new (a b c d : UInt8) : Ipv4Addr := ⟨#v[a, b, c, d]⟩

def Ipv4Addr.unspecified : Ipv4Addr := .new 0 0 0 0

def Ipv4Addr.isUnspecified (ip : Ipv4Addr) : Bool := ip.octets == #v[0, 0, 0, 0]

def Ipv4Addr.isLoopback (ip : Ipv4Addr) : Bool := ip.octets[0] == 127

def Ipv4Addr.isLinkLocal (ip : Ipv4Addr) : Bool := ip.octets[0] == 169 && ip.octets[1] == 254

def Ipv4Addr.isPrivate (ip : Ipv4Addr) : Bool :=
  ip.octets[0] == 10 ||
  (ip.octets[0] == 172 && decide (16 ≤ ip.octets[1].toNat) && decide (ip.octets[1].toNat ≤ 31)) ||
  (ip.octets[0] == 192 && ip.octets[1] == 168)

def Ipv6Addr.segments (ip : Ipv6Addr) : Vector UInt16 8 :=
  let o := ip.octets
  #v[fromBeBytes o[0] o[1], fromBeBytes o[2] o[3], fromBeBytes o[4] o[5], fromBeBytes o[6] o[7],
    fromBeBytes o[8] o[9], fromBeBytes o[10] o[11], fromBeBytes o[12] o[13], fromBeBytes o[14] o[15]]

def Ipv6Addr.isUnspecified (ip : Ipv6Addr) : Bool := ip.octets == #v[0, 0, 0, 0, 0, 0, 0, 0, 0, 0, 0, 0, 0, 0, 0, 0]

def Ipv6Addr.isLoopback (ip : Ipv6Addr) : Bool := ip.octets == #v[0, 0, 0, 0, 0, 0, 0, 0, 0, 0, 0, 0, 0, 0, 0, 1]

def Ipv6Addr.lastFour (ip : Ipv6Addr) : Ipv4Addr :=
  .new ip.octets[12] ip.octets[13] ip.octets[14] ip.octets[15]

def Ipv6Addr.toIpv4Mapped (ip : Ipv6Addr) : Option Ipv4Addr :=
  if ip.octets.toList.take 12 = [0, 0, 0, 0, 0, 0, 0, 0, 0, 0, 0xff, 0xff] then some ip.lastFour else none

-- The mapped form and the deprecated compatible form ::a.b.c.d.
def Ipv6Addr.toIpv4 (ip : Ipv6Addr) : Option Ipv4Addr :=
  if ip.octets.toList.take 12 = [0, 0, 0, 0, 0, 0, 0, 0, 0, 0, 0xff, 0xff] ∨
      ip.octets.toList.take 12 = [0, 0, 0, 0, 0, 0, 0, 0, 0, 0, 0, 0] then some ip.lastFour else none

def IpAddr.toCanonical : IpAddr → IpAddr
  | .v4 ip => .v4 ip
  | .v6 ip =>
      match ip.toIpv4Mapped with
      | some mapped => .v4 mapped
      | none => .v6 ip

def IpAddr.isIpv4 : IpAddr → Bool
  | .v4 _ => true
  | .v6 _ => false

def IpAddr.isUnspecified : IpAddr → Bool
  | .v4 ip => ip.isUnspecified
  | .v6 ip => ip.isUnspecified

-- Comparison includes the flow label and the scope; SocketAddr::new sets both to zero.
inductive SocketAddr where
  | v4 (ip : Ipv4Addr) (port : UInt16)
  | v6 (ip : Ipv6Addr) (port : UInt16) (flowinfo scopeId : UInt32)
deriving DecidableEq, Repr

def SocketAddr.new (ip : IpAddr) (port : UInt16) : SocketAddr :=
  match ip with
  | .v4 ip => .v4 ip port
  | .v6 ip => .v6 ip port 0 0

def SocketAddr.ip : SocketAddr → IpAddr
  | .v4 ip _ => .v4 ip
  | .v6 ip _ _ _ => .v6 ip

def SocketAddr.port : SocketAddr → UInt16
  | .v4 _ port => port
  | .v6 _ port _ _ => port

@[simp] theorem socket_addr_new_ip (ip : IpAddr) (port : UInt16) : (SocketAddr.new ip port).ip = ip := by
  cases ip <;> rfl

@[simp] theorem socket_addr_new_port (ip : IpAddr) (port : UInt16) : (SocketAddr.new ip port).port = port := by
  cases ip <;> rfl

def Ipv4Addr.display (ip : Ipv4Addr) : String :=
  s!"{ip.octets[0]}.{ip.octets[1]}.{ip.octets[2]}.{ip.octets[3]}"

def hexSegment (segment : UInt16) : String := String.ofList (Nat.toDigits 16 segment.toNat)

def zeroSpan (segments : List UInt16) : Nat × Nat :=
  let scan := segments.zipIdx.foldl (fun (state : (Nat × Nat) × (Nat × Nat)) (entry : UInt16 × Nat) =>
    let (longest, current) := state
    if entry.1 = 0 then
      let grown := (if current.2 = 0 then entry.2 else current.1, current.2 + 1)
      (if grown.2 > longest.2 then grown else longest, grown)
    else (longest, (0, 0))) ((0, 0), (0, 0))
  scan.1

def Ipv6Addr.display (ip : Ipv6Addr) : String :=
  match ip.toIpv4Mapped with
  | some mapped => s!"::ffff:{mapped.display}"
  | none =>
      let segments := ip.segments.toList
      let part := fun (slice : List UInt16) => String.intercalate ":" (slice.map hexSegment)
      let (start, length) := zeroSpan segments
      if length > 1 then s!"{part (segments.take start)}::{part (segments.drop (start + length))}"
      else part segments

def SocketAddr.display : SocketAddr → String
  | .v4 ip port => s!"{ip.display}:{port}"
  | .v6 ip port _ scopeId =>
      if scopeId = 0 then s!"[{ip.display}]:{port}" else s!"[{ip.display}%{scopeId}]:{port}"

def Ipv4Addr.toIpv6Mapped (ip : Ipv4Addr) : Ipv6Addr :=
  ⟨#v[0, 0, 0, 0, 0, 0, 0, 0, 0, 0, 0xff, 0xff, ip.octets[0], ip.octets[1], ip.octets[2], ip.octets[3]]⟩

def Ipv4Addr.toIpv6Compatible (ip : Ipv4Addr) : Ipv6Addr :=
  ⟨#v[0, 0, 0, 0, 0, 0, 0, 0, 0, 0, 0, 0, ip.octets[0], ip.octets[1], ip.octets[2], ip.octets[3]]⟩

end NextSocks5
