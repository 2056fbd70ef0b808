import NextSocks5.Protocol.Checked
import NextSocks5.Server.Negotiate

set_option autoImplicit false

namespace NextSocks5

-- An unfinished address has a finite shortfall, so any long enough tail finishes it.
theorem decode_extendable (buf : Bytes) :
    ∃ extra, Address.decode (buf ++ extra) ≠ .error .truncated := by
  refine ⟨List.replicate 259 0, ?_⟩
  intro truncated
  have bound := Address.decode_truncated_bound _ truncated
  rw [List.length_append, List.length_replicate] at bound
  omega

theorem decap_ref_iff (buf data : Bytes) (frag : UInt8) (address : Address) (fits : address.Fits) :
    decapRef buf = .ok ⟨frag, address, data⟩ ↔
      ∃ first second, buf = first :: second :: frag :: (address.encode [] ++ data) := by
  constructor
  · intro decoded
    obtain ⟨header, split, first, second, body, framed, denotes⟩ := decap_ref_sound buf _ decoded
    refine ⟨first, second, ?_⟩
    rw [split, framed, Address.encode_denotes body address denotes]
    rfl
  · intro framed
    obtain ⟨first, second, same⟩ := framed
    rw [same]
    exact decap_ref_complete first second frag _ data address (Address.denotes_encode address fits)

theorem decap_ref_fits (buf : Bytes) (datagram : UdpDatagramRef) (decoded : decapRef buf = .ok datagram) :
    datagram.address.Fits := by
  obtain ⟨_, _, _, _, body, _, denotes⟩ := decap_ref_sound buf datagram decoded
  exact Address.denotes_fits body datagram.address denotes

theorem decap_eq_decap_ref (buf : Bytes) :
    decap buf = (decapRef buf).map fun datagram => ⟨datagram.frag, datagram.address, datagram.data⟩ := by
  rw [decap]
  cases decapRef buf <;> rfl

theorem request_drain (buf : Bytes) (request : Request) (parsed : parseRequest buf = .ok request) :
    ∃ used, Address.decode (buf.drop 3) = .ok (request.address, used) ∧ (request.address.encode []).length = used ∧
      requestVerdict buf = .accept request (3 + used) ∧
      Checked.drain buf (3 + (request.address.encode []).length) = some (buf.drop (3 + used)) := by
  obtain ⟨bytes, rest, rfl, denotes, sized⟩ := parse_request_sound buf request parsed
  obtain ⟨byte, rsv, body, rfl, known, address⟩ := denotes
  have encoded := Address.encode_denotes body request.address address
  refine ⟨body.length, ?_, by rw [encoded], ?_, ?_⟩
  · exact Address.decode_complete body rest request.address address
  · simp only [requestVerdict, parsed, encoded]
  · rw [encoded, Checked.drain, if_pos]
    simp only [List.length_append, List.length_cons]
    omega

theorem address_wire_exact :
    (∀ (address : Address), address.Fits → ∀ tail : Bytes,
      Address.decode (address.encode [] ++ tail) = .ok (address, (address.encode []).length)) ∧
    (∀ (buf : Bytes) (address : Address) (used : Nat), Address.decode buf = .ok (address, used) →
      used ≤ buf.length ∧ address.encode [] = buf.take used ∧ address.Fits) ∧
    (∀ (buf : Bytes) (request : Request), parseRequest buf = .ok request →
      ∃ used, Address.decode (buf.drop 3) = .ok (request.address, used) ∧ (request.address.encode []).length = used ∧
        requestVerdict buf = .accept request (3 + used) ∧
        Checked.drain buf (3 + (request.address.encode []).length) = some (buf.drop (3 + used))) ∧
    (∀ buf extra : Bytes, Address.decode buf ≠ .error .truncated → Address.decode (buf ++ extra) = Address.decode buf) ∧
    (∀ buf : Bytes, Address.decode buf = .error .truncated → ∃ extra, Address.decode (buf ++ extra) ≠ .error .truncated) ∧
    (∀ (address : Address), address.Fits → ∀ (buf data : Bytes) (frag : UInt8),
      decapRef buf = .ok ⟨frag, address, data⟩ ↔
        ∃ first second, buf = first :: second :: frag :: (address.encode [] ++ data)) ∧
    (∀ (buf : Bytes) (datagram : UdpDatagramRef), decapRef buf = .ok datagram → datagram.address.Fits) ∧
    (∀ buf : Bytes, decap buf = (decapRef buf).map fun datagram => ⟨datagram.frag, datagram.address, datagram.data⟩) ∧
    (∀ (address : Address), address.Fits → ∀ data : Bytes, decap (encap address data []) = .ok ⟨0, address, data⟩) ∧
    (∀ buf : Bytes, Checked.decode buf = some (Address.decode buf) ∧ Checked.decapRef buf = some (decapRef buf) ∧
      Checked.decap buf = some (decap buf)) := by
  refine ⟨?_, ?_, request_drain, Address.decode_stable, fun buf _ => decode_extendable buf, ?_, decap_ref_fits,
    decap_eq_decap_ref, decap_encap, ?_⟩
  · intro address fits tail
    exact Address.decode_complete (address.encode []) tail address (Address.denotes_encode address fits)
  · intro buf address used decoded
    obtain ⟨bound, same⟩ := Address.decode_encode_prefix buf address used decoded
    obtain ⟨body, _, _, denotes, _⟩ := Address.decode_sound buf address used decoded
    exact ⟨bound, same, Address.denotes_fits body address denotes⟩
  · intro address fits buf data frag
    exact decap_ref_iff buf data frag address fits
  · intro buf
    exact ⟨Checked.decode_never_panics buf, Checked.decap_ref_never_panics buf, Checked.decap_never_panics buf⟩

theorem address_wire_exact_loopback :
    Address.decode ((Address.v4 (.new 127 0 0 1) 80).encode [] ++ [7]) = .ok (.v4 (.new 127 0 0 1) 80, 7) :=
  address_wire_exact.1 (.v4 (.new 127 0 0 1) 80) trivial [7]

end NextSocks5
