import NextSocks5.Net

set_option autoImplicit false

namespace NextSocks5

-- As in the source, the type does not bound a domain by its length byte.
inductive Address where
  | v4 (ip : Ipv4Addr) (port : UInt16)
  | v6 (ip : Ipv6Addr) (port : UInt16)
  | domain (name : String) (port : UInt16)
deriving DecidableEq, Repr

inductive AddrError where
  | truncated
  | badAtyp (atyp : UInt8)
  | badDomain
deriving DecidableEq, Repr

def atypV4 : UInt8 := 0x01
def atypDomain : UInt8 := 0x03
def atypV6 : UInt8 := 0x04

def slice (buf : Bytes) (start len : Nat) : Bytes := (buf.drop start).take len

theorem slice_length (buf : Bytes) (start len : Nat) (bound : start + len ≤ buf.length) :
    (slice buf start len).length = len := by
  simp only [slice, List.length_take, List.length_drop]
  omega

def toOctets (n : Nat) (bytes : Bytes) (sized : bytes.length = n) : Vector UInt8 n := ⟨bytes.toArray, by simpa using sized⟩

@[simp] theorem to_octets_list (n : Nat) (bytes : Bytes) (sized : bytes.length = n) :
    (toOctets n bytes sized).toList = bytes := by
  simp [toOctets, Vector.toList]

theorem to_octets_of_list (n : Nat) (octets : Vector UInt8 n) (bytes : Bytes) (sized : bytes.length = n)
    (same : bytes = octets.toList) : toOctets n bytes sized = octets := by
  apply Vector.toList_inj.mp
  simp [same]

namespace Address

-- The length checks are the proofs the accesses need, so no index is out of range.
def decode (buf : Bytes) : Except AddrError (Address × Nat) :=
  match buf[0]? with
  | none => .error .truncated
  | some atyp =>
      if atyp = atypV4 then
        if short : buf.length < 7 then .error .truncated
        else .ok (.v4 ⟨toOctets 4 (slice buf 1 4) (slice_length buf 1 4 (by omega))⟩ (fromBeBytes buf[5] buf[6]), 7)
      else if atyp = atypV6 then
        if short : buf.length < 19 then .error .truncated
        else .ok (.v6 ⟨toOctets 16 (slice buf 1 16) (slice_length buf 1 16 (by omega))⟩ (fromBeBytes buf[17] buf[18]), 19)
      else if atyp = atypDomain then
        match buf[1]? with
        | none => .error .truncated
        | some lenByte =>
            let len := lenByte.toNat
            let total := 2 + len + 2
            if short : buf.length < total then .error .truncated
            else
              match fromUtf8 (slice buf 2 len) with
              | none => .error .badDomain
              | some name => .ok (.domain name (fromBeBytes buf[2 + len] buf[2 + len + 1]), total)
      else .error (.badAtyp atyp)

def encode (address : Address) (out : Bytes) : Bytes :=
  match address with
  | .v4 ip port => out ++ [atypV4] ++ ip.octets.toList ++ toBeBytes port
  | .v6 ip port => out ++ [atypV6] ++ ip.octets.toList ++ toBeBytes port
  | .domain name port => out ++ [atypDomain] ++ [UInt8.ofNat (asBytes name).length] ++ asBytes name ++ toBeBytes port

def ofSocket : SocketAddr → Address
  | .v4 ip port => .v4 ip port
  | .v6 ip port _ _ => .v6 ip port

theorem encode_append (address : Address) (out : Bytes) : address.encode out = out ++ address.encode [] := by
  cases address <;> simp [encode]

-- The wire format of an address, read off the RFC rather than off the decoder.
inductive Denotes : Bytes → Address → Prop where
  | v4 (ip : Ipv4Addr) (high low : UInt8) :
      Denotes (1 :: ip.octets.toList ++ [high, low]) (.v4 ip (fromBeBytes high low))
  | v6 (ip : Ipv6Addr) (high low : UInt8) :
      Denotes (4 :: ip.octets.toList ++ [high, low]) (.v6 ip (fromBeBytes high low))
  | domain (len high low : UInt8) (bytes : Bytes) (name : String) (sized : bytes.length = len.toNat)
      (utf8 : fromUtf8 bytes = some name) :
      Denotes (3 :: len :: bytes ++ [high, low]) (.domain name (fromBeBytes high low))

end Address

theorem slice_middle (head middle tail : Bytes) (start len : Nat) (before : head.length = start)
    (sized : middle.length = len) : slice (head ++ middle ++ tail) start len = middle := by
  subst before sized
  simp [slice, List.append_assoc]

theorem pair_at (head rest : Bytes) (high low : UInt8) (place : Nat) (before : head.length = place) :
    ∃ (_ : place < (head ++ [high, low] ++ rest).length) (_ : place + 1 < (head ++ [high, low] ++ rest).length),
      (head ++ [high, low] ++ rest)[place] = high ∧ (head ++ [high, low] ++ rest)[place + 1] = low := by
  subst before
  refine ⟨by simp, by simp, ?_, ?_⟩ <;> simp

theorem slice_split (buf : Bytes) (start len : Nat) (bound : start + len + 2 ≤ buf.length) :
    buf = buf.take start ++ slice buf start len ++ [buf[start + len], buf[start + len + 1]] ++
      buf.drop (start + len + 2) := by
  have first : buf.drop (start + len) = buf[start + len] :: buf.drop (start + len + 1) :=
    List.drop_eq_getElem_cons (by omega)
  have second : buf.drop (start + len + 1) = buf[start + len + 1] :: buf.drop (start + len + 2) :=
    List.drop_eq_getElem_cons (by omega)
  have body : buf.drop start = slice buf start len ++ buf.drop (start + len) := by
    rw [slice, ← List.drop_drop]
    exact (List.take_append_drop len (buf.drop start)).symm
  calc buf = buf.take start ++ buf.drop start := (List.take_append_drop start buf).symm
    _ = _ := by rw [body, first, second]; simp

namespace Address

theorem decode_v4_sound (tail : Bytes) (address : Address) (used : Nat) (decoded : decode (atypV4 :: tail) = .ok (address, used)) :
    ∃ body rest, atypV4 :: tail = body ++ rest ∧ Denotes body address ∧ body.length = used := by
  simp only [decode, List.getElem?_cons_zero, if_true] at decoded
  split at decoded
  · cases decoded
  · rename_i long
    have split := slice_split (atypV4 :: tail) 1 4 (by simpa using long)
    cases decoded
    refine ⟨_, _, split, ?_, ?_⟩
    · simpa [atypV4] using Denotes.v4
        ⟨toOctets 4 (slice (atypV4 :: tail) 1 4) (slice_length _ 1 4 (by omega))⟩ (atypV4 :: tail)[5] (atypV4 :: tail)[6]
    · simp [slice_length (atypV4 :: tail) 1 4 (by omega)]

theorem decode_v6_sound (tail : Bytes) (address : Address) (used : Nat) (decoded : decode (atypV6 :: tail) = .ok (address, used)) :
    ∃ body rest, atypV6 :: tail = body ++ rest ∧ Denotes body address ∧ body.length = used := by
  simp only [decode, List.getElem?_cons_zero, if_neg (by decide : ¬ atypV6 = atypV4), if_true] at decoded
  split at decoded
  · cases decoded
  · rename_i long
    have split := slice_split (atypV6 :: tail) 1 16 (by simpa using long)
    cases decoded
    refine ⟨_, _, split, ?_, ?_⟩
    · simpa [atypV6] using Denotes.v6
        ⟨toOctets 16 (slice (atypV6 :: tail) 1 16) (slice_length _ 1 16 (by omega))⟩ (atypV6 :: tail)[17] (atypV6 :: tail)[18]
    · simp [slice_length (atypV6 :: tail) 1 16 (by omega)]

theorem decode_name_sound (tail : Bytes) (address : Address) (used : Nat)
    (decoded : decode (atypDomain :: tail) = .ok (address, used)) :
    ∃ body rest, atypDomain :: tail = body ++ rest ∧ Denotes body address ∧ body.length = used := by
  simp only [decode, List.getElem?_cons_zero, if_neg (by decide : ¬ atypDomain = atypV4),
    if_neg (by decide : ¬ atypDomain = atypV6), if_true] at decoded
  cases tail with
  | nil => simp at decoded
  | cons len tail =>
      simp only [List.getElem?_cons_succ, List.getElem?_cons_zero] at decoded
      split at decoded
      · cases decoded
      · rename_i long
        have split := slice_split (atypDomain :: len :: tail) 2 len.toNat (by omega)
        cases utf8 : fromUtf8 (slice (atypDomain :: len :: tail) 2 len.toNat) with
        | none => simp [utf8] at decoded
        | some name =>
            rw [utf8] at decoded
            cases decoded
            have sized := slice_length (atypDomain :: len :: tail) 2 len.toNat (by omega)
            refine ⟨_, _, split, ?_, ?_⟩
            · simpa [atypDomain] using Denotes.domain len (atypDomain :: len :: tail)[2 + len.toNat]
                (atypDomain :: len :: tail)[2 + len.toNat + 1] _ name sized utf8
            · simp [sized]
              omega

theorem decode_sound (buf : Bytes) (address : Address) (used : Nat) (decoded : decode buf = .ok (address, used)) :
    ∃ body rest, buf = body ++ rest ∧ Denotes body address ∧ body.length = used := by
  cases buf with
  | nil => simp [decode] at decoded
  | cons atyp tail =>
      by_cases four : atyp = atypV4
      · subst four
        exact decode_v4_sound tail address used decoded
      · by_cases six : atyp = atypV6
        · subst six
          exact decode_v6_sound tail address used decoded
        · by_cases named : atyp = atypDomain
          · subst named
            exact decode_name_sound tail address used decoded
          · simp [decode, four, six, named] at decoded

theorem decode_domain (len high low : UInt8) (bytes rest : Bytes) (sized : bytes.length = len.toNat) :
    decode (3 :: len :: bytes ++ [high, low] ++ rest) =
      match fromUtf8 bytes with
      | none => .error .badDomain
      | some name => .ok (.domain name (fromBeBytes high low), 2 + len.toNat + 2) := by
  generalize bufEq : 3 :: len :: bytes ++ [high, low] ++ rest = buf
  have text : slice buf 2 len.toNat = bytes := by
    simpa [← bufEq] using slice_middle [3, len] bytes ([high, low] ++ rest) 2 len.toNat rfl sized
  have size : buf.length = 2 + len.toNat + 2 + rest.length := by simp [← bufEq, sized]; omega
  have ports := pair_at (3 :: len :: bytes) rest high low (2 + len.toNat) (by simp [sized]; omega)
  rw [bufEq] at ports
  obtain ⟨_, _, first, second⟩ := ports
  have short : ¬ buf.length < 2 + len.toNat + 2 := by omega
  have kind : buf[0]? = some atypDomain := by simp [← bufEq, atypDomain]
  have lenAt : buf[1]? = some len := by simp [← bufEq]
  rw [decode, kind]
  simp only [if_neg (by decide : ¬ atypDomain = atypV4), if_neg (by decide : ¬ atypDomain = atypV6), if_true,
    lenAt, dif_neg short, text]
  cases fromUtf8 bytes with
  | none => rfl
  | some name => simp only [first, second]

theorem decode_complete (body rest : Bytes) (address : Address) (denotes : Denotes body address) :
    decode (body ++ rest) = .ok (address, body.length) := by
  generalize bufEq : body ++ rest = buf
  cases denotes with
  | v4 ip high low =>
      have octets : slice buf 1 4 = ip.octets.toList := by
        simpa [← bufEq] using slice_middle [1] ip.octets.toList ([high, low] ++ rest) 1 4 rfl (by simp)
      have size : buf.length = 7 + rest.length := by simp [← bufEq]; omega
      have ports := pair_at (1 :: ip.octets.toList) rest high low 5 (by simp)
      rw [bufEq] at ports
      obtain ⟨_, _, first, second⟩ := ports
      have short : ¬ buf.length < 7 := by omega
      have kind : buf[0]? = some atypV4 := by simp [← bufEq, atypV4]
      rw [decode, kind]
      simp only [if_true, dif_neg short, to_octets_of_list 4 ip.octets _ _ octets, first, second]
      simp
  | v6 ip high low =>
      have octets : slice buf 1 16 = ip.octets.toList := by
        simpa [← bufEq] using slice_middle [4] ip.octets.toList ([high, low] ++ rest) 1 16 rfl (by simp)
      have size : buf.length = 19 + rest.length := by simp [← bufEq]; omega
      have ports := pair_at (4 :: ip.octets.toList) rest high low 17 (by simp)
      rw [bufEq] at ports
      obtain ⟨_, _, first, second⟩ := ports
      have short : ¬ buf.length < 19 := by omega
      have kind : buf[0]? = some atypV6 := by simp [← bufEq, atypV6]
      rw [decode, kind]
      simp only [if_neg (by decide : ¬ atypV6 = atypV4), if_true, dif_neg short,
        to_octets_of_list 16 ip.octets _ _ octets, first, second]
      simp
  | domain len high low bytes name sized utf8 =>
      rw [← bufEq, decode_domain len high low bytes rest sized]
      simp [utf8, sized]
      omega

theorem encode_denotes (body : Bytes) (address : Address) (denotes : Denotes body address) : address.encode [] = body := by
  cases denotes with
  | v4 ip high low => simp [encode, atypV4, to_be_from_be]
  | v6 ip high low => simp [encode, atypV6, to_be_from_be]
  | domain len high low bytes name sized utf8 =>
      have text : asBytes name = bytes := (from_utf8_some_iff bytes name).mp utf8
      simp [encode, atypDomain, to_be_from_be, text, sized]

-- Only an over-long domain has no wire form: its length byte is truncated.
def Fits : Address → Prop
  | .domain name _ => (asBytes name).length ≤ 255
  | _ => True

theorem denotes_encode (address : Address) (fits : address.Fits) : Denotes (address.encode []) address := by
  cases address with
  | v4 ip port =>
      simpa [encode, atypV4, toBeBytes, from_be_to_be] using
        Denotes.v4 ip (UInt8.ofNat (port.toNat / 256)) (UInt8.ofNat (port.toNat % 256))
  | v6 ip port =>
      simpa [encode, atypV6, toBeBytes, from_be_to_be] using
        Denotes.v6 ip (UInt8.ofNat (port.toNat / 256)) (UInt8.ofNat (port.toNat % 256))
  | domain name port =>
      have bound : (asBytes name).length < 256 := Nat.lt_succ_of_le fits
      have sized : (asBytes name).length = (UInt8.ofNat (asBytes name).length).toNat := by
        rw [UInt8.toNat_ofNat', Nat.mod_eq_of_lt bound]
      simpa [encode, atypDomain, toBeBytes, from_be_to_be] using
        Denotes.domain (UInt8.ofNat (asBytes name).length) (UInt8.ofNat (port.toNat / 256))
          (UInt8.ofNat (port.toNat % 256)) (asBytes name) name sized (from_utf8_as_bytes name)

theorem denotes_fits (body : Bytes) (address : Address) (denotes : Denotes body address) : address.Fits := by
  cases denotes with
  | v4 | v6 => trivial
  | domain len _ _ bytes name sized utf8 =>
      have text : asBytes name = bytes := (from_utf8_some_iff bytes name).mp utf8
      have bound := len.toNat_lt
      simp only [Fits, text, sized]
      omega

-- Draining by the re-encoded length removes exactly the decoded bytes.
theorem decode_encode_prefix (buf : Bytes) (address : Address) (used : Nat) (decoded : decode buf = .ok (address, used)) :
    used ≤ buf.length ∧ address.encode [] = buf.take used := by
  obtain ⟨body, rest, rfl, denotes, rfl⟩ := decode_sound buf address used decoded
  simp [encode_denotes body address denotes]

theorem decode_bad_atyp_iff (buf : Bytes) (atyp : UInt8) :
    decode buf = .error (.badAtyp atyp) ↔
      ∃ rest, buf = atyp :: rest ∧ atyp ≠ atypV4 ∧ atyp ≠ atypV6 ∧ atyp ≠ atypDomain := by
  cases buf with
  | nil => simp [decode]
  | cons head tail =>
      simp only [decode, List.getElem?_cons_zero]
      constructor
      · intro failed
        repeat' split at failed
        all_goals first
          | cases failed; exact ⟨tail, rfl, ‹_›, ‹_›, ‹_›⟩
          | cases failed
      · rintro ⟨rest, same, notFour, notSix, notNamed⟩
        cases same
        rw [if_neg notFour, if_neg notSix, if_neg notNamed]

theorem decode_bad_domain_iff (buf : Bytes) :
    decode buf = .error .badDomain ↔
      ∃ len bytes high low rest, buf = 3 :: len :: bytes ++ [high, low] ++ rest ∧ bytes.length = len.toNat ∧
        fromUtf8 bytes = none := by
  constructor
  · intro failed
    cases buf with
    | nil => simp [decode] at failed
    | cons atyp tail =>
        simp only [decode, List.getElem?_cons_zero] at failed
        split at failed
        · split at failed <;> cases failed
        · split at failed
          · split at failed <;> cases failed
          · split at failed
            · rename_i named
              subst atyp
              cases tail with
              | nil => simp at failed
              | cons len tail =>
                  simp only [List.getElem?_cons_succ, List.getElem?_cons_zero] at failed
                  split at failed
                  · cases failed
                  · have split := slice_split (atypDomain :: len :: tail) 2 len.toNat (by omega)
                    refine ⟨len, slice (atypDomain :: len :: tail) 2 len.toNat, _, _, _, split,
                      slice_length _ 2 len.toNat (by omega), ?_⟩
                    cases utf8 : fromUtf8 (slice (atypDomain :: len :: tail) 2 len.toNat) with
                    | none => rfl
                    | some name => simp [utf8] at failed
            · cases failed
  · rintro ⟨len, bytes, high, low, rest, rfl, sized, utf8⟩
    rw [decode_domain len high low bytes rest sized, utf8]

-- A verdict other than "truncated" does not change when more bytes arrive.
theorem decode_stable (buf extra : Bytes) (decided : decode buf ≠ .error .truncated) :
    decode (buf ++ extra) = decode buf := by
  cases result : decode buf with
  | ok pair =>
      obtain ⟨address, used⟩ := pair
      obtain ⟨body, rest, rfl, denotes, rfl⟩ := decode_sound buf address used result
      rw [List.append_assoc]
      exact decode_complete body (rest ++ extra) address denotes
  | error reason =>
      cases reason with
      | truncated => exact absurd result decided
      | badAtyp atyp =>
          obtain ⟨rest, rfl, unknown⟩ := (decode_bad_atyp_iff buf atyp).mp result
          exact (decode_bad_atyp_iff _ atyp).mpr ⟨rest ++ extra, rfl, unknown⟩
      | badDomain =>
          obtain ⟨len, bytes, high, low, rest, rfl, sized, utf8⟩ := (decode_bad_domain_iff buf).mp result
          exact (decode_bad_domain_iff _).mpr ⟨len, bytes, high, low, rest ++ extra, by simp, sized, utf8⟩

theorem decode_truncated_bound (buf : Bytes) (truncated : decode buf = .error .truncated) : buf.length ≤ 258 := by
  cases buf with
  | nil => simp
  | cons atyp tail =>
      simp only [decode, List.getElem?_cons_zero] at truncated
      split at truncated
      · split at truncated
        · omega
        · cases truncated
      · split at truncated
        · split at truncated
          · omega
          · cases truncated
        · split at truncated
          · cases tail with
            | nil => simp
            | cons len tail =>
                have bound := len.toNat_lt
                simp only [List.getElem?_cons_succ, List.getElem?_cons_zero] at truncated
                split at truncated
                · omega
                · split at truncated <;> cases truncated
          · cases truncated

end Address

end NextSocks5
