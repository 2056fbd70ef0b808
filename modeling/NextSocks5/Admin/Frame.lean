import NextSocks5.Metrics
import NextSocks5.Protocol.Reply

set_option autoImplicit false

namespace NextSocks5

namespace Admin

def protoVersion : UInt16 := 1

def maxFrameLen : UInt32 := (1 : UInt32) <<< 20

inductive Frame where
  | hello (proto : UInt16) (listenAddr : Option String)
  | stats (snapshot : Snapshot) (connections : List ConnInfo)
  | event (ev : Event)
deriving DecidableEq, Repr

def Frame.ev : Frame → Option Event
  | .event ev => some ev
  | _ => none

inductive FrameError where
  | io (error : IoError)
  | tooLarge (len : UInt32)
  | decode (error : String)
deriving DecidableEq, Repr

-- The serializer is a crate of its own.
structure Postcard where
  toAllocvec : Frame → Except String Bytes
  fromBytes : Bytes → Except String Frame

def Postcard.Inverse (postcard : Postcard) : Prop :=
  ∀ frame body, postcard.toAllocvec frame = .ok body → postcard.fromBytes body = .ok frame

def Postcard.Carries (postcard : Postcard) (kept : Frame → Frame) : Prop :=
  ∀ frame body, postcard.toAllocvec frame = .ok body → postcard.fromBytes body = .ok (kept frame)

def Postcard.Decodes (postcard : Postcard) : Prop :=
  ∀ frame body, postcard.toAllocvec frame = .ok body → ∃ kept, postcard.fromBytes body = .ok kept

def toBeBytes32 (word : UInt32) : Bytes :=
  [UInt8.ofNat (word.toNat / 16777216), UInt8.ofNat (word.toNat / 65536), UInt8.ofNat (word.toNat / 256), UInt8.ofNat word.toNat]

def fromBeBytes32 : Bytes → UInt32
  | [a, b, c, d] => UInt32.ofNat (((a.toNat * 256 + b.toNat) * 256 + c.toNat) * 256 + d.toNat)
  | _ => 0

-- The cast of the length to 32 bits comes before the comparison.
def writeFrame (postcard : Postcard) (w : Bytes) (frame : Frame) : Except FrameError Unit × Bytes :=
  match postcard.toAllocvec frame with
  | .error error => (.error (.decode error), w)
  | .ok body =>
      let len := UInt32.ofNat body.length
      if maxFrameLen < len then (.error (.tooLarge len), w) else (.ok (), w ++ toBeBytes32 len ++ body)

structure Reader where
  chunks : List Bytes
  ending : IoError

def Reader.bytes (r : Reader) : Bytes := r.chunks.flatten

def readExact (n : Nat) : List Bytes → Option (Bytes × List Bytes)
  | [] => if n = 0 then some ([], []) else none
  | chunk :: chunks =>
      if n ≤ chunk.length then some (chunk.take n, chunk.drop n :: chunks)
      else (readExact (n - chunk.length) chunks).map fun (bytes, rest) => (chunk ++ bytes, rest)

def Reader.readExact (r : Reader) (n : Nat) : Except FrameError (Bytes × Reader) :=
  match Admin.readExact n r.chunks with
  | some (bytes, chunks) => .ok (bytes, { r with chunks })
  | none => .error (.io r.ending)

def readFrame (postcard : Postcard) (r : Reader) : Except FrameError (Frame × Reader) :=
  match r.readExact 4 with
  | .error error => .error error
  | .ok (lenBuf, r) =>
      let len := fromBeBytes32 lenBuf
      if maxFrameLen < len then .error (.tooLarge len)
      else
        match r.readExact len.toNat with
        | .error error => .error error
        | .ok (body, r) =>
            match postcard.fromBytes body with
            | .error error => .error (.decode error)
            | .ok frame => .ok (frame, r)

@[simp] theorem to_be_bytes_32_length (word : UInt32) : (toBeBytes32 word).length = 4 := rfl

@[simp] theorem from_be_to_be_32 (word : UInt32) : fromBeBytes32 (toBeBytes32 word) = word := by
  have bound := word.toNat_lt
  apply UInt32.toNat_inj.mp
  simp only [toBeBytes32, fromBeBytes32, UInt8.toNat_ofNat', UInt32.toNat_ofNat']
  omega

theorem read_exact_spec (n : Nat) (chunks : List Bytes) :
    (n ≤ chunks.flatten.length → ∃ rest, readExact n chunks = some (chunks.flatten.take n, rest) ∧ rest.flatten = chunks.flatten.drop n) ∧
    (chunks.flatten.length < n → readExact n chunks = none) := by
  induction chunks generalizing n with
  | nil =>
      refine ⟨?_, ?_⟩
      · intro enough
        obtain rfl : n = 0 := by simpa using enough
        exact ⟨[], by simp [readExact], rfl⟩
      · intro short
        have positive : n ≠ 0 := by
          simp only [List.flatten_nil, List.length_nil] at short
          omega
        simp [readExact, positive]
  | cons chunk chunks ih =>
      rw [List.flatten_cons, List.length_append, readExact]
      by_cases inside : n ≤ chunk.length
      · rw [if_pos inside, List.take_append_of_le_length inside, List.drop_append_of_le_length inside]
        refine ⟨fun _ => ⟨_, rfl, List.flatten_cons⟩, ?_⟩
        intro short
        omega
      · rw [if_neg inside]
        obtain ⟨enough, short⟩ := ih (n - chunk.length)
        refine ⟨?_, ?_⟩
        · intro fits
          obtain ⟨rest, read, left⟩ := enough (by omega)
          refine ⟨rest, ?_, ?_⟩
          · rw [read, Option.map_some, List.take_append, List.take_of_length_le (show chunk.length ≤ n by omega)]
          · rw [left, List.drop_append, List.drop_eq_nil_of_le (show chunk.length ≤ n by omega), List.nil_append]
        · intro less
          rw [short (by omega), Option.map_none]

theorem reader_exact_ok (r : Reader) (wanted more : Bytes) (available : r.bytes = wanted ++ more) :
    ∃ rest, r.readExact wanted.length = .ok (wanted, rest) ∧ rest.bytes = more ∧ rest.ending = r.ending := by
  have whole : r.chunks.flatten = wanted ++ more := available
  obtain ⟨rest, read, left⟩ := (read_exact_spec wanted.length r.chunks).1 (by simp [whole])
  rw [whole, List.take_left] at read
  rw [whole, List.drop_left] at left
  exact ⟨⟨rest, r.ending⟩, by rw [Reader.readExact, read], left, rfl⟩

theorem reader_exact_short (r : Reader) (n : Nat) (short : r.bytes.length < n) : r.readExact n = .error (.io r.ending) := by
  rw [Reader.readExact, (read_exact_spec n r.chunks).2 short]

theorem reader_exact_length (r rest : Reader) (n : Nat) (bytes : Bytes) (read : r.readExact n = .ok (bytes, rest)) :
    r.bytes.length = n + rest.bytes.length := by
  by_cases enough : n ≤ r.bytes.length
  · obtain ⟨_, exactly, left, _⟩ := reader_exact_ok r (r.bytes.take n) (r.bytes.drop n) (List.take_append_drop n r.bytes).symm
    rw [List.length_take_of_le enough, read] at exactly
    cases exactly
    rw [left, List.length_drop]
    omega
  · rw [reader_exact_short r n (by omega)] at read
    cases read

def frameBytes (body : Bytes) : Bytes := toBeBytes32 (UInt32.ofNat body.length) ++ body

-- The size is past 32 bits, and what is left of it is within the cap.
def Truncated (postcard : Postcard) (frame : Frame) : Prop :=
  ∃ body, postcard.toAllocvec frame = .ok body ∧ 2 ^ 32 ≤ body.length ∧ body.length % 2 ^ 32 ≤ maxFrameLen.toNat

theorem write_frame_taken (postcard : Postcard) (w : Bytes) (frame : Frame) (body : Bytes)
    (encoded : postcard.toAllocvec frame = .ok body) (small : body.length % 2 ^ 32 ≤ maxFrameLen.toNat) :
    writeFrame postcard w frame = (.ok (), w ++ frameBytes body) := by
  have within : ¬ maxFrameLen < UInt32.ofNat body.length := by
    rw [UInt32.lt_iff_toNat_lt, UInt32.toNat_ofNat']
    omega
  rw [writeFrame, encoded]
  dsimp only
  rw [if_neg within, frameBytes, List.append_assoc]

theorem write_frame_cases (postcard : Postcard) (w : Bytes) (frame : Frame) :
    (∃ error, writeFrame postcard w frame = (.error error, w) ∧ ¬ Truncated postcard frame) ∨
    (∃ body, postcard.toAllocvec frame = .ok body ∧ body.length % 2 ^ 32 ≤ maxFrameLen.toNat ∧
      writeFrame postcard w frame = (.ok (), w ++ frameBytes body)) := by
  cases encoded : postcard.toAllocvec frame with
  | error error =>
      refine .inl ⟨.decode error, by rw [writeFrame, encoded], ?_⟩
      intro premise
      obtain ⟨body, other, _⟩ := premise
      rw [encoded] at other
      cases other
  | ok body =>
      by_cases small : body.length % 2 ^ 32 ≤ maxFrameLen.toNat
      · exact .inr ⟨body, rfl, small, write_frame_taken postcard w frame body encoded small⟩
      · have large : maxFrameLen < UInt32.ofNat body.length := by
          rw [UInt32.lt_iff_toNat_lt, UInt32.toNat_ofNat']
          omega
        refine .inl ⟨_, by rw [writeFrame, encoded]; exact if_pos large, ?_⟩
        intro premise
        obtain ⟨other, same, _, fits⟩ := premise
        rw [encoded] at same
        cases same
        exact small fits

theorem untruncated_fits (postcard : Postcard) (frame : Frame) (body : Bytes) (encoded : postcard.toAllocvec frame = .ok body)
    (sound : ¬ Truncated postcard frame) (small : body.length % 2 ^ 32 ≤ maxFrameLen.toNat) :
    body.length ≤ maxFrameLen.toNat := by
  by_cases huge : 2 ^ 32 ≤ body.length
  · exact absurd ⟨body, encoded, huge, small⟩ sound
  · rwa [Nat.mod_eq_of_lt (by omega)] at small

theorem small_word (n : Nat) (small : n ≤ maxFrameLen.toNat) :
    (UInt32.ofNat n).toNat = n ∧ ¬ maxFrameLen < UInt32.ofNat n := by
  have cap : maxFrameLen.toNat = 2 ^ 20 := rfl
  have word : (UInt32.ofNat n).toNat = n := by
    rw [UInt32.toNat_ofNat']
    omega
  refine ⟨word, ?_⟩
  rw [UInt32.lt_iff_toNat_lt, word]
  omega

theorem read_frame_whole (postcard : Postcard) (frame : Frame) (body more : Bytes) (r : Reader)
    (inverse : postcard.fromBytes body = .ok frame) (small : body.length ≤ maxFrameLen.toNat)
    (arrived : r.bytes = frameBytes body ++ more) :
    ∃ rest, readFrame postcard r = .ok (frame, rest) ∧ rest.bytes = more ∧ rest.ending = r.ending := by
  obtain ⟨word, within⟩ := small_word body.length small
  rw [frameBytes, List.append_assoc] at arrived
  obtain ⟨middle, header, left, ends⟩ := reader_exact_ok r _ _ arrived
  rw [to_be_bytes_32_length] at header
  obtain ⟨rest, payload, last, ended⟩ := reader_exact_ok middle body more left
  refine ⟨rest, ?_, last, ended.trans ends⟩
  simp only [readFrame, header, from_be_to_be_32, if_neg within, word, payload, inverse]

theorem read_frame_partial (postcard : Postcard) (body more : Bytes) (r : Reader) (small : body.length ≤ maxFrameLen.toNat)
    (arrived : frameBytes body = r.bytes ++ more) (cut : more ≠ []) : ∃ error, readFrame postcard r = .error error := by
  obtain ⟨word, within⟩ := small_word body.length small
  have positive := List.length_pos_iff.mpr cut
  have total : r.bytes.length + more.length = 4 + body.length := by
    rw [← List.length_append, ← arrived, frameBytes, List.length_append, to_be_bytes_32_length]
  by_cases header : r.bytes.length < 4
  · exact ⟨.io r.ending, by simp only [readFrame, reader_exact_short r 4 header]⟩
  · have lengthFirst : r.bytes = toBeBytes32 (UInt32.ofNat body.length) ++ r.bytes.drop 4 := by
      have four : r.bytes.take 4 = toBeBytes32 (UInt32.ofNat body.length) := by
        have first := congrArg (List.take 4) arrived
        rw [List.take_append_of_le_length (by omega)] at first
        exact first.symm
      rw [← four, List.take_append_drop]
    obtain ⟨middle, read, left, _⟩ := reader_exact_ok r _ _ lengthFirst
    rw [to_be_bytes_32_length] at read
    have short : middle.bytes.length < body.length := by
      rw [left, List.length_drop]
      omega
    rw [← word] at short
    exact ⟨.io middle.ending, by simp only [readFrame, read, from_be_to_be_32, if_neg within, reader_exact_short middle _ short]⟩

theorem read_frame_used (postcard : Postcard) (r rest : Reader) (frame : Frame) (read : readFrame postcard r = .ok (frame, rest)) :
    ∃ header body middle, r.readExact 4 = .ok (header, middle) ∧ middle.readExact (fromBeBytes32 header).toNat = .ok (body, rest) := by
  simp only [readFrame] at read
  split at read
  · cases read
  · rename_i header middle first
    split at read
    · cases read
    · split at read
      · cases read
      · rename_i body last second
        split at read
        · cases read
        · cases read
          exact ⟨header, body, middle, first, second⟩

theorem read_frame_shorter (postcard : Postcard) (r rest : Reader) (frame : Frame)
    (read : readFrame postcard r = .ok (frame, rest)) : rest.bytes.length < r.bytes.length := by
  obtain ⟨header, body, middle, first, second⟩ := read_frame_used postcard r rest frame read
  have four := reader_exact_length r middle 4 header first
  have payload := reader_exact_length middle rest _ body second
  omega

-- An error without a byte written, or bytes that are the frame to a reader and no more.
def Delivers (postcard : Postcard) (frame : Frame) : Prop :=
  ∀ w, match writeFrame postcard w frame with
    | (.error _, after) => after = w
    | (.ok _, after) => ∃ wire, after = w ++ wire ∧ ∀ r more, r.bytes = wire ++ more →
        ∃ rest, readFrame postcard r = .ok (frame, rest) ∧ rest.bytes = more ∧ rest.ending = r.ending

theorem read_frame_length (postcard : Postcard) (body : Bytes) (r rest : Reader) (frame : Frame) (arrived : r.bytes = frameBytes body)
    (read : readFrame postcard r = .ok (frame, rest)) : body.length = body.length % 2 ^ 32 + rest.bytes.length := by
  obtain ⟨header, payload, middle, first, second⟩ := read_frame_used postcard r rest frame read
  obtain ⟨reached, known, after, _⟩ := reader_exact_ok r _ _ arrived
  rw [to_be_bytes_32_length, first] at known
  cases known
  have used := reader_exact_length middle rest _ payload second
  rwa [from_be_to_be_32, UInt32.toNat_ofNat', after] at used

theorem truncated_undelivered (postcard : Postcard) (frame : Frame) (truncated : Truncated postcard frame) :
    ¬ Delivers postcard frame := by
  intro delivers
  obtain ⟨body, encoded, large, small⟩ := truncated
  have sent := delivers []
  simp only [write_frame_taken postcard [] frame body encoded small, List.nil_append] at sent
  obtain ⟨wire, rfl, reads⟩ := sent
  have bytes : Reader.bytes ⟨[frameBytes body], ⟨.other, "early eof"⟩⟩ = frameBytes body := by simp [Reader.bytes]
  obtain ⟨rest, read, left, _⟩ := reads _ [] (bytes.trans (List.append_nil _).symm)
  have used := read_frame_length postcard body _ rest frame bytes read
  rw [left, List.length_nil] at used
  have less := Nat.mod_lt body.length (show 0 < 2 ^ 32 by decide)
  omega

theorem delivers_iff (postcard : Postcard) (inverse : postcard.Inverse) (frame : Frame) :
    Delivers postcard frame ↔ ¬ Truncated postcard frame := by
  constructor
  · exact fun delivers truncated => truncated_undelivered postcard frame truncated delivers
  · intro sound w
    obtain ⟨error, failed, _⟩ | ⟨body, encoded, small, wrote⟩ := write_frame_cases postcard w frame
    · rw [failed]
    · rw [wrote]
      exact ⟨frameBytes body, rfl, fun r more arrived => read_frame_whole postcard frame body more r (inverse frame body encoded)
        (untruncated_fits postcard frame body encoded sound small) arrived⟩

end Admin

end NextSocks5
