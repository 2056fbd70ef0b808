import NextSocks5.Protocol.Udp

set_option autoImplicit false

-- The decoders with every index, slice and conversion checked: `none` is a panic.
namespace NextSocks5.Checked

def index (buf : Bytes) (offset : Nat) : Option UInt8 := buf[offset]?

def range (buf : Bytes) (start stop : Nat) : Option Bytes :=
  if start ≤ stop ∧ stop ≤ buf.length then some ((buf.take stop).drop start) else none

def tryInto (n : Nat) (bytes : Bytes) : Option (Vector UInt8 n) :=
  if sized : bytes.length = n then some (toOctets n bytes sized) else none

def drain (buf : Bytes) (stop : Nat) : Option Bytes := if stop ≤ buf.length then some (buf.drop stop) else none

def port (buf : Bytes) (offset : Nat) : Option UInt16 := do return fromBeBytes (← index buf offset) (← index buf (offset + 1))

def decode (buf : Bytes) : Option (Except AddrError (Address × Nat)) :=
  match buf.head? with
  | none => some (.error .truncated)
  | some atyp =>
      if atyp = atypV4 then
        if buf.length < 7 then some (.error .truncated)
        else do
          let octets ← tryInto 4 (← range buf 1 5)
          return .ok (.v4 ⟨octets⟩ (← port buf 5), 7)
      else if atyp = atypV6 then
        if buf.length < 19 then some (.error .truncated)
        else do
          let octets ← tryInto 16 (← range buf 1 17)
          return .ok (.v6 ⟨octets⟩ (← port buf 17), 19)
      else if atyp = atypDomain then
        match buf[1]? with
        | none => some (.error .truncated)
        | some lenByte =>
            let len := lenByte.toNat
            let total := 2 + len + 2
            if buf.length < total then some (.error .truncated)
            else do
              match fromUtf8 (← range buf 2 (2 + len)) with
              | none => return .error .badDomain
              | some name => return .ok (.domain name (← port buf (2 + len)), total)
      else some (.error (.badAtyp atyp))

def decapRef (buf : Bytes) : Option (Except UdpError UdpDatagramRef) :=
  if buf.length < minHeader then some (.error .truncated)
  else do
    let frag ← index buf 2
    match ← decode (← range buf 3 buf.length) with
    | .error error => return .error (.addr error)
    | .ok (address, consumed) => return .ok ⟨frag, address, ← range buf (3 + consumed) buf.length⟩

def decap (buf : Bytes) : Option (Except UdpError UdpDatagram) := do
  match ← decapRef buf with
  | .error error => return .error error
  | .ok d => return .ok ⟨d.frag, d.address, d.data⟩

theorem range_slice (buf : Bytes) (start len : Nat) (bound : start + len ≤ buf.length) :
    range buf start (start + len) = some (slice buf start len) := by
  rw [range, if_pos ⟨Nat.le_add_right start len, bound⟩, slice, List.drop_take, Nat.add_sub_cancel_left]

theorem range_drop (buf : Bytes) (start : Nat) (bound : start ≤ buf.length) :
    range buf start buf.length = some (buf.drop start) := by
  rw [range, if_pos ⟨bound, le_refl _⟩, List.take_length]

theorem try_into_slice (buf : Bytes) (start len : Nat) (bound : start + len ≤ buf.length) :
    tryInto len (slice buf start len) = some (toOctets len (slice buf start len) (slice_length buf start len bound)) := by
  rw [tryInto, dif_pos (slice_length buf start len bound)]

theorem port_some (buf : Bytes) (offset : Nat) (bound : offset + 1 < buf.length) :
    port buf offset = some (fromBeBytes buf[offset] buf[offset + 1]) := by
  simp [port, index, List.getElem?_eq_getElem bound, List.getElem?_eq_getElem (Nat.lt_of_succ_lt bound)]

theorem decode_never_panics (buf : Bytes) : decode buf = some (Address.decode buf) := by
  cases buf with
  | nil => rfl
  | cons atyp tail =>
      generalize bufEq : atyp :: tail = buf
      have kind : buf[0]? = some atyp := by rw [← bufEq]; rfl
      have head : buf.head? = some atyp := by rw [← bufEq]; rfl
      rw [decode, Address.decode, kind, head]
      by_cases four : atyp = atypV4
      · simp only [if_pos four]
        by_cases short : buf.length < 7
        · rw [if_pos short, dif_pos short]
        · rw [if_neg short, dif_neg short, range_slice buf 1 4 (by omega)]
          simp [try_into_slice buf 1 4 (by omega), port_some buf 5 (by omega)]
      · by_cases six : atyp = atypV6
        · simp only [if_neg four, if_pos six]
          by_cases short : buf.length < 19
          · rw [if_pos short, dif_pos short]
          · rw [if_neg short, dif_neg short, range_slice buf 1 16 (by omega)]
            simp [try_into_slice buf 1 16 (by omega), port_some buf 17 (by omega)]
        · by_cases named : atyp = atypDomain
          · simp only [if_neg four, if_neg six, if_pos named]
            cases buf[1]? with
            | none => rfl
            | some len =>
                by_cases short : buf.length < 2 + len.toNat + 2
                · simp only [if_pos short, dif_pos short]
                · simp only [if_neg short, dif_neg short]
                  rw [range_slice buf 2 len.toNat (by omega), port_some buf (2 + len.toNat) (by omega)]
                  simp only [Option.bind_eq_bind, Option.bind_some]
                  cases fromUtf8 (slice buf 2 len.toNat) <;> rfl
          · simp only [if_neg four, if_neg six, if_neg named]

theorem decap_ref_never_panics (buf : Bytes) : decapRef buf = some (NextSocks5.decapRef buf) := by
  rw [decapRef, NextSocks5.decapRef]
  by_cases short : buf.length < minHeader
  · rw [if_pos short, dif_pos short]
  · rw [if_neg short, dif_neg short]
    rw [minHeader, not_lt] at short
    have frag : index buf 2 = some buf[2] := List.getElem?_eq_getElem (by omega)
    rw [frag, range_drop buf 3 (by omega)]
    simp only [Option.bind_eq_bind, Option.bind_some, decode_never_panics]
    cases found : Address.decode (buf.drop 3) with
    | error error => rfl
    | ok pair =>
        obtain ⟨address, consumed⟩ := pair
        have within := (Address.decode_encode_prefix (buf.drop 3) address consumed found).1
        rw [List.length_drop] at within
        simp [range_drop buf (3 + consumed) (by omega)]

theorem decap_never_panics (buf : Bytes) : decap buf = some (NextSocks5.decap buf) := by
  rw [decap, decap_ref_never_panics, NextSocks5.decap]
  simp only [Option.bind_eq_bind, Option.bind_some]
  cases NextSocks5.decapRef buf <;> rfl

end NextSocks5.Checked
