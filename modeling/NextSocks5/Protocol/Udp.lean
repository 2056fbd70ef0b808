import NextSocks5.Protocol.Address

set_option autoImplicit false

namespace NextSocks5

structure UdpDatagram where
  frag : UInt8
  address : Address
  data : Bytes
deriving DecidableEq, Repr

inductive UdpError where
  | truncated
  | addr (error : AddrError)
deriving DecidableEq, Repr

structure UdpDatagramRef where
  frag : UInt8
  address : Address
  data : Bytes
deriving DecidableEq, Repr

def minHeader : Nat := 4

def decapRef (buf : Bytes) : Except UdpError UdpDatagramRef :=
  if short : buf.length < minHeader then .error .truncated
  else
    match Address.decode (buf.drop 3) with
    | .error error => .error (.addr error)
    | .ok (address, consumed) => .ok ⟨buf.get ⟨2, by simp [minHeader] at short; omega⟩, address, buf.drop (3 + consumed)⟩

def decap (buf : Bytes) : Except UdpError UdpDatagram :=
  match decapRef buf with
  | .error error => .error error
  | .ok d => .ok ⟨d.frag, d.address, d.data⟩

def encap (address : Address) (data out : Bytes) : Bytes := address.encode (out ++ [0x00] ++ [0x00] ++ [0x00]) ++ data

def HeaderBytes (header : Bytes) (frag : UInt8) (address : Address) : Prop :=
  ∃ first second body, header = first :: second :: frag :: body ∧ Address.Denotes body address

theorem decap_ref_sound (buf : Bytes) (datagram : UdpDatagramRef) (decoded : decapRef buf = .ok datagram) :
    ∃ header, buf = header ++ datagram.data ∧ HeaderBytes header datagram.frag datagram.address := by
  rw [decapRef] at decoded
  split at decoded
  · cases decoded
  · rename_i long
    split at decoded
    · cases decoded
    · rename_i address consumed found
      cases decoded
      match buf, long with
      | first :: second :: frag :: after, long =>
          obtain ⟨body, rest, cut, denotes, sized⟩ := Address.decode_sound _ _ _ found
          refine ⟨first :: second :: frag :: body, ?_, first, second, body, rfl, denotes⟩
          have tail : after = body ++ rest := by simpa using cut
          subst tail
          subst sized
          simp [Nat.add_comm 3]
      | [], long => simp [minHeader] at long
      | [_], long => simp [minHeader] at long
      | [_, _], long => simp [minHeader] at long

theorem decap_ref_complete (first second frag : UInt8) (body data : Bytes) (address : Address)
    (denotes : Address.Denotes body address) :
    decapRef (first :: second :: frag :: (body ++ data)) = .ok ⟨frag, address, data⟩ := by
  have decoded := Address.decode_complete body data address denotes
  have long : ¬ (first :: second :: frag :: (body ++ data)).length < minHeader := by
    cases denotes <;> simp [minHeader]
  rw [decapRef, dif_neg long]
  have dropped : (first :: second :: frag :: (body ++ data)).drop 3 = body ++ data := rfl
  rw [dropped, decoded]
  simp [Nat.add_comm 3]

theorem decap_encap (address : Address) (fits : address.Fits) (data : Bytes) : decap (encap address data []) = .ok ⟨0, address, data⟩ := by
  have framed : encap address data [] = 0 :: 0 :: 0 :: (address.encode [] ++ data) := by
    rw [encap, Address.encode_append]
    rfl
  rw [decap, framed, decap_ref_complete 0 0 0 _ data address (Address.denotes_encode address fits)]

end NextSocks5
