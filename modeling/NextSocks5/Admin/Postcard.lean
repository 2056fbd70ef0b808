import NextSocks5.Admin.Client
import NextSocks5.Library.Codec

set_option autoImplicit false

namespace NextSocks5

namespace Admin

namespace Postcard

open Codec (byte varint pair convert option vector)

-- Integers wider than a byte are varints.
def u16 : Codec UInt16 := (varint 2 UInt16.size (by decide)).convert UInt16.toNat (fun n => some (.ofNat n)) (fun value => value)
  fun value _ => by simp [varint]

def u64 : Codec UInt64 := (varint 9 UInt64.size (by decide)).convert UInt64.toNat (fun n => some (.ofNat n)) (fun value => value)
  fun value _ => by simp [varint]

-- The counters of the model are u64 in the source.
def counter : Codec Nat := u64.convert UInt64.ofNat (fun word => some word.toNat) (· % UInt64.size) fun value _ => by
  simp [u64, convert, UInt64.size]

def usize : Codec Nat := varint 9 UInt64.size (by decide)

def list {α : Type} (codec : Codec α) : Codec (List α) := Codec.list usize (fun _ => rfl) codec

def string : Codec String := (list byte).convert asBytes fromUtf8 (fun value => value) fun value _ => by
  have bytes : (list byte).kept (asBytes value) = asBytes value := List.map_id' (asBytes value)
  rw [bytes]
  exact from_utf8_as_bytes value

def bool : Codec Bool where
  encode
    | false => [0]
    | true => [1]
  decode
    | 0 :: rest => some (false, rest)
    | 1 :: rest => some (true, rest)
    | _ => none
  fits _ := true
  kept value := value
  inverse value rest _ := by cases value <;> rfl

def ipv4Addr : Codec Ipv4Addr := (byte.vector 4).convert Ipv4Addr.octets (fun octets => some ⟨octets⟩) (fun value => value) fun value _ => by
  simp [vector, byte]

def ipv6Addr : Codec Ipv6Addr := (byte.vector 16).convert Ipv6Addr.octets (fun octets => some ⟨octets⟩) (fun value => value) fun value _ => by
  simp [vector, byte]

def variant (bytes : Bytes) : Option (Nat × Bytes) := (varint 4 UInt32.size (by decide)).decode bytes

-- The crate leaves the flow label and the scope out, and takes them for zero.
def socketAddr : Codec SocketAddr where
  encode
    | .v4 ip port => 0 :: (ipv4Addr.pair u16).encode (ip, port)
    | .v6 ip port _ _ => 1 :: (ipv6Addr.pair u16).encode (ip, port)
  decode bytes :=
    match variant bytes with
    | some (0, rest) => ((ipv4Addr.pair u16).decode rest).map fun ((ip, port), rest) => (.v4 ip port, rest)
    | some (1, rest) => ((ipv6Addr.pair u16).decode rest).map fun ((ip, port), rest) => (.v6 ip port 0 0, rest)
    | _ => none
  fits
    | .v4 ip port => (ipv4Addr.pair u16).fits (ip, port)
    | .v6 ip port _ _ => (ipv6Addr.pair u16).fits (ip, port)
  kept
    | .v4 ip port => .v4 ip port
    | .v6 ip port _ _ => .v6 ip port 0 0
  inverse value rest fits := by
    cases value with
    | v4 ip port =>
        have head (more : Bytes) : variant (0 :: more) = some (0, more) := rfl
        rw [List.cons_append, head]
        exact congrArg (Option.map _) ((ipv4Addr.pair u16).inverse (ip, port) rest fits)
    | v6 ip port flowinfo scopeId =>
        have head (more : Bytes) : variant (1 :: more) = some (1, more) := rfl
        rw [List.cons_append, head]
        exact congrArg (Option.map _) ((ipv6Addr.pair u16).inverse (ip, port) rest fits)

def connKind : Codec ConnKind where
  encode
    | .connect => [0]
    | .udp => [1]
  decode bytes :=
    match variant bytes with
    | some (0, rest) => some (.connect, rest)
    | some (1, rest) => some (.udp, rest)
    | _ => none
  fits _ := true
  kept value := value
  inverse value rest _ := by cases value <;> rfl

def connInfo : Codec ConnInfo :=
  (counter.pair (socketAddr.pair (string.pair (connKind.pair (counter.pair counter))))).convert
    (fun info => (info.id, info.src, info.target, info.kind, info.up, info.down))
    (fun (id, src, target, kind, up, down) => some ⟨id, src, target, kind, up, down⟩)
    (fun info => ⟨counter.kept info.id, socketAddr.kept info.src, info.target, info.kind, counter.kept info.up, counter.kept info.down⟩)
    fun _ _ => rfl

def snapshot : Codec Snapshot :=
  (counter.pair (counter.pair (counter.pair (u64.pair (counter.pair (counter.pair (counter.vector 9))))))).convert
    (fun s => (s.bytesUp, s.bytesDown, s.totalConns, s.activeConns, s.successes, s.failures, s.errorCodes))
    (fun (bytesUp, bytesDown, totalConns, activeConns, successes, failures, errorCodes) =>
      some ⟨bytesUp, bytesDown, totalConns, activeConns, successes, failures, errorCodes⟩)
    (fun s => ⟨counter.kept s.bytesUp, counter.kept s.bytesDown, counter.kept s.totalConns, s.activeConns, counter.kept s.successes,
      counter.kept s.failures, s.errorCodes.map counter.kept⟩)
    fun _ _ => rfl

def event : Codec Event where
  encode
    | .connect id src target kind => 0 :: (counter.pair (socketAddr.pair (string.pair connKind))).encode (id, src, target, kind)
    | .closed id => 1 :: counter.encode id
    | .auth ok user => 2 :: (bool.pair string).encode (ok, user)
    | .error code msg => 3 :: (byte.pair string).encode (code, msg)
    | .log text => 4 :: string.encode text
  decode bytes :=
    match variant bytes with
    | some (0, rest) =>
        ((counter.pair (socketAddr.pair (string.pair connKind))).decode rest).map fun ((id, src, target, kind), rest) =>
          (.connect id src target kind, rest)
    | some (1, rest) => (counter.decode rest).map fun (id, rest) => (.closed id, rest)
    | some (2, rest) => ((bool.pair string).decode rest).map fun ((ok, user), rest) => (.auth ok user, rest)
    | some (3, rest) => ((byte.pair string).decode rest).map fun ((code, msg), rest) => (.error code msg, rest)
    | some (4, rest) => (string.decode rest).map fun (text, rest) => (.log text, rest)
    | _ => none
  fits
    | .connect id src target kind => (counter.pair (socketAddr.pair (string.pair connKind))).fits (id, src, target, kind)
    | .closed id => counter.fits id
    | .auth ok user => (bool.pair string).fits (ok, user)
    | .error code msg => (byte.pair string).fits (code, msg)
    | .log text => string.fits text
  kept
    | .connect id src target kind => .connect (counter.kept id) (socketAddr.kept src) target kind
    | .closed id => .closed (counter.kept id)
    | .auth ok user => .auth ok user
    | .error code msg => .error code msg
    | .log text => .log text
  inverse value rest fits := by
    cases value with
    | connect id src target kind =>
        have head (more : Bytes) : variant (0 :: more) = some (0, more) := rfl
        rw [List.cons_append, head]
        exact congrArg (Option.map _) ((counter.pair (socketAddr.pair (string.pair connKind))).inverse (id, src, target, kind) rest fits)
    | closed id =>
        have head (more : Bytes) : variant (1 :: more) = some (1, more) := rfl
        rw [List.cons_append, head]
        exact congrArg (Option.map _) (counter.inverse id rest fits)
    | auth ok user =>
        have head (more : Bytes) : variant (2 :: more) = some (2, more) := rfl
        rw [List.cons_append, head]
        exact congrArg (Option.map _) ((bool.pair string).inverse (ok, user) rest fits)
    | error code msg =>
        have head (more : Bytes) : variant (3 :: more) = some (3, more) := rfl
        rw [List.cons_append, head]
        exact congrArg (Option.map _) ((byte.pair string).inverse (code, msg) rest fits)
    | log text =>
        have head (more : Bytes) : variant (4 :: more) = some (4, more) := rfl
        rw [List.cons_append, head]
        exact congrArg (Option.map _) (string.inverse text rest fits)

def frame : Codec Frame where
  encode
    | .hello proto listenAddr => 0 :: (u16.pair (option string)).encode (proto, listenAddr)
    | .stats stats connections => 1 :: (snapshot.pair (list connInfo)).encode (stats, connections)
    | .event ev => 2 :: event.encode ev
  decode bytes :=
    match variant bytes with
    | some (0, rest) => ((u16.pair (option string)).decode rest).map fun ((proto, listenAddr), rest) => (.hello proto listenAddr, rest)
    | some (1, rest) =>
        ((snapshot.pair (list connInfo)).decode rest).map fun ((stats, connections), rest) => (.stats stats connections, rest)
    | some (2, rest) => (event.decode rest).map fun (ev, rest) => (.event ev, rest)
    | _ => none
  fits
    | .hello proto listenAddr => (u16.pair (option string)).fits (proto, listenAddr)
    | .stats stats connections => (snapshot.pair (list connInfo)).fits (stats, connections)
    | .event ev => event.fits ev
  kept
    | .hello proto listenAddr => .hello proto listenAddr
    | .stats stats connections => .stats (snapshot.kept stats) (connections.map connInfo.kept)
    | .event ev => .event (event.kept ev)
  inverse value rest fits := by
    cases value with
    | hello proto listenAddr =>
        have head (more : Bytes) : variant (0 :: more) = some (0, more) := rfl
        rw [List.cons_append, head]
        have back := congrArg (Option.map fun ((proto, listenAddr), rest) => (Frame.hello proto listenAddr, rest))
          ((u16.pair (option string)).inverse (proto, listenAddr) rest fits)
        cases listenAddr <;> exact back
    | stats stats connections =>
        have head (more : Bytes) : variant (1 :: more) = some (1, more) := rfl
        rw [List.cons_append, head]
        exact congrArg (Option.map _) ((snapshot.pair (list connInfo)).inverse (stats, connections) rest fits)
    | event ev =>
        have head (more : Bytes) : variant (2 :: more) = some (2, more) := rfl
        rw [List.cons_append, head]
        exact congrArg (Option.map _) (event.inverse ev rest fits)

-- What follows the value is not looked at. Values past a machine word in length do not exist.
def format : Postcard where
  toAllocvec value := if frame.fits value then .ok (frame.encode value) else .error "The length of a sequence must be known"
  fromBytes bytes :=
    match frame.decode bytes with
    | some (value, _) => .ok value
    | none => .error "Hit the end of buffer, expected more data"

theorem format_encodes (value : Frame) (fits : frame.fits value = true) : format.toAllocvec value = .ok (frame.encode value) := by
  rw [format]
  exact if_pos fits

theorem format_body (value : Frame) (body : Bytes) (encoded : format.toAllocvec value = .ok body) :
    frame.fits value = true ∧ body = frame.encode value := by
  by_cases fits : frame.fits value = true
  · rw [format_encodes value fits] at encoded
    cases encoded
    exact ⟨fits, rfl⟩
  · rw [format] at encoded
    simp [fits] at encoded

theorem format_carries : format.Carries frame.kept := by
  intro value body encoded
  obtain ⟨fits, rfl⟩ := format_body value body encoded
  have back := frame.inverse value [] fits
  rw [List.append_nil] at back
  simp only [format, back]

theorem format_decodes : format.Decodes := fun value body encoded => ⟨_, format_carries value body encoded⟩

-- The crate over the frames that it carries whole.
def lossless : Postcard where
  toAllocvec value := if frame.kept value = value then format.toAllocvec value else .error "not carried whole"
  fromBytes := format.fromBytes

theorem lossless_encodes (value : Frame) (whole : frame.kept value = value) :
    lossless.toAllocvec value = format.toAllocvec value := by
  rw [lossless]
  exact if_pos whole

theorem lossless_inverse : lossless.Inverse := by
  intro value body encoded
  by_cases whole : frame.kept value = value
  · rw [lossless_encodes value whole] at encoded
    have back := format_carries value body encoded
    rwa [whole] at back
  · rw [lossless] at encoded
    simp [whole] at encoded

theorem as_bytes_replicate (n : Nat) : asBytes (String.ofList (List.replicate n 'a')) = List.replicate n 97 := by
  have plain : (List.replicate n 'a').flatMap String.utf8EncodeChar = List.replicate n 97 := by
    induction n with
    | zero => rfl
    | succ n ih =>
        rw [List.replicate_succ, List.flatMap_cons, ih, List.replicate_succ]
        rfl
  simp [asBytes, List.utf8Encode, plain]

def logOf (n : Nat) : Frame := .event (.log (String.ofList (List.replicate n 'a')))

theorem log_fits (n : Nat) (bound : n < UInt64.size) : frame.fits (logOf n) = true := by
  have each : ∀ bytes : Bytes, bytes.all byte.fits = true := by
    intro bytes
    exact List.all_eq_true.mpr fun _ _ => rfl
  simp only [logOf, frame, event, string, convert, list, Codec.list, usize, varint, each, as_bytes_replicate, List.length_replicate, bound,
    decide_true, Bool.and_self]

theorem log_encoded (n : Nat) (bound : n < UInt64.size) : format.toAllocvec (logOf n) = .ok (frame.encode (logOf n)) :=
  format_encodes (logOf n) (log_fits n bound)

theorem log_length (n : Nat) : (frame.encode (logOf n)).length = 2 + (Codec.encodeVarint n).length + n := by
  have text : string.encode (String.ofList (List.replicate n 'a')) = (list byte).encode (List.replicate n 97) := by
    rw [← as_bytes_replicate]
    rfl
  have sized : ((list byte).encode (List.replicate n 97)).length = _ := Codec.list_byte_length usize (fun _ => rfl) (List.replicate n 97)
  rw [List.length_replicate] at sized
  have counted : (usize.encode n).length = (Codec.encodeVarint n).length := rfl
  simp only [logOf, frame, event, List.length_cons, text, sized, counted]
  omega

theorem short_sound (value : Frame) (short : (frame.encode value).length < 2 ^ 32) : ¬ Truncated format value := by
  intro truncated
  obtain ⟨body, encoded, large, _⟩ := truncated
  obtain ⟨_, rfl⟩ := format_body value body encoded
  omega

theorem lossless_sound (value : Frame) (short : (frame.encode value).length < 2 ^ 32) : ¬ Truncated lossless value := by
  intro truncated
  obtain ⟨body, encoded, large, _⟩ := truncated
  by_cases whole : frame.kept value = value
  · rw [lossless_encodes value whole] at encoded
    obtain ⟨_, rfl⟩ := format_body value body encoded
    omega
  · rw [lossless] at encoded
    simp [whole] at encoded

theorem closed_bytes : frame.encode (.event (.closed 3)) = [2, 1, 3] := by
  have id : Codec.encodeVarint 3 = [3] := Codec.encode_varint_small 3 (by decide)
  have word : counter.encode 3 = Codec.encodeVarint 3 := rfl
  simp only [frame, event, word, id]

theorem log_bytes : frame.encode (.event (.log "a")) = [2, 4, 1, 97] := by
  have text : asBytes "a" = [97] := rfl
  have length : Codec.encodeVarint 1 = [1] := Codec.encode_varint_small 1 (by decide)
  simp [frame, event, string, convert, list, Codec.list, usize, varint, byte, text, length]

-- Two frames, and a stream that stops inside the second.
theorem wire_delivers_cut : Delivers lossless (.event (.closed 3)) ∧
    ∃ c, Received lossless [.event (.log "a"), .event (.closed 3)] 9 .default c ∧ c.events = [.log "a"] := by
  have firstBody : lossless.toAllocvec (.event (.log "a")) = .ok [2, 4, 1, 97] := by
    rw [lossless_encodes _ rfl, format_encodes _ (by decide), log_bytes]
  have secondBody : lossless.toAllocvec (.event (.closed 3)) = .ok [2, 1, 3] := by
    rw [lossless_encodes _ rfl, format_encodes _ (by decide), closed_bytes]
  have first : writeFrame lossless [] (.event (.log "a")) = (.ok (), [0, 0, 0, 4, 2, 4, 1, 97]) := by
    rw [writeFrame, firstBody]
    rfl
  have second (w : Bytes) : writeFrame lossless w (.event (.closed 3)) = (.ok (), w ++ [0, 0, 0, 3] ++ [2, 1, 3]) := by
    rw [writeFrame, secondBody]
    rfl
  have sound : ∀ value ∈ [Frame.event (.log "a"), .event (.closed 3)], ¬ Truncated lossless value := by
    intro value member
    apply lossless_sound
    rcases List.mem_pair.mp member with rfl | rfl
    · simp [log_bytes]
    · simp [closed_bytes]
  have wrote : writeAll lossless [] [.event (.log "a"), .event (.closed 3)] =
      some [0, 0, 0, 4, 2, 4, 1, 97, 0, 0, 0, 3, 2, 1, 3] := by
    simp [writeAll, first, second]
  obtain ⟨delivers, streams⟩ := wire_delivers_iff lossless lossless_inverse
  refine ⟨(delivers _).mpr (sound _ (by simp)), _,
    streams _ _ sound wrote 9 ⟨[[0, 0], [0, 4, 2], [4, 1, 97, 0]], ⟨.other, "early eof"⟩⟩ .default rfl, ?_⟩
  have received := streams _ _ sound wrote 9 ⟨[[0, 0], [0, 4, 2], [4, 1, 97, 0]], ⟨.other, "early eof"⟩⟩ .default rfl
  rw [received.events]
  simp [contained, wireBytes, first, second, Frame.ev]

-- Texts of a little over 4 GiB.
theorem log_truncated (n : Nat) (large : 2 ^ 32 ≤ n) (bound : n < 2 ^ 32 + 2 ^ 19) : Truncated format (logOf n) := by
  have cap : maxFrameLen.toNat = 2 ^ 20 := rfl
  have word : UInt64.size = 2 ^ 64 := rfl
  obtain ⟨_, short⟩ := Codec.varint_length 4 n (by omega)
  have sized := log_length n
  refine ⟨frame.encode (logOf n), log_encoded n (by omega), by omega, ?_⟩
  rw [sized, cap]
  omega

theorem oversized_log_undelivered : ¬ Delivers format (logOf (2 ^ 32)) := by
  have truncated := log_truncated (2 ^ 32) (Nat.le_refl _) (by omega)
  exact truncated_undelivered format _ truncated

end Postcard

end Admin

end NextSocks5
