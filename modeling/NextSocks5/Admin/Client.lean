import NextSocks5.Admin.Frame

set_option autoImplicit false

namespace NextSocks5

namespace Admin

structure RemoteState where
  snapshot : Snapshot
  connections : List ConnInfo
deriving DecidableEq, Repr

def RemoteState.default : RemoteState := ⟨.default, []⟩

structure Client where
  state : RemoteState
  events : List Event
  lost : Bool
  shutdown : Bool
deriving DecidableEq, Repr

def Client.start (state : RemoteState) : Client := ⟨state, [], false, false⟩

def Client.apply (c : Client) : Frame → Client
  | .stats snapshot connections => { c with state := ⟨snapshot, connections⟩ }
  | .event ev => { c with events := c.events ++ [ev] }
  | .hello _ _ => c

def decodeLoop (postcard : Postcard) (r : Reader) (c : Client) : Client :=
  match _read : readFrame postcard r with
  | .ok (frame, rest) => decodeLoop postcard rest (c.apply frame)
  | .error _ => { c with lost := true, shutdown := true }
termination_by r.bytes.length
decreasing_by exact read_frame_shorter postcard r rest frame _read

def Frame.state : Frame → Option RemoteState
  | .stats snapshot connections => some ⟨snapshot, connections⟩
  | _ => none

def writeAll (postcard : Postcard) (w : Bytes) : List Frame → Option Bytes
  | [] => some w
  | frame :: frames =>
      match writeFrame postcard w frame with
      | (.ok _, w) => writeAll postcard w frames
      | (.error _, _) => none

def wireBytes (postcard : Postcard) (frame : Frame) : Bytes := (writeFrame postcard [] frame).2

def contained (postcard : Postcard) : List Frame → Nat → List Frame
  | [], _ => []
  | frame :: frames, n =>
      if (wireBytes postcard frame).length ≤ n then frame :: contained postcard frames (n - (wireBytes postcard frame).length) else []

theorem decode_loop_ok (postcard : Postcard) (r rest : Reader) (c : Client) (frame : Frame)
    (read : readFrame postcard r = .ok (frame, rest)) : decodeLoop postcard r c = decodeLoop postcard rest (c.apply frame) := by
  rw [decodeLoop]
  split
  · rename_i other left same
    rw [read] at same
    cases same
    rfl
  · rename_i error same
    rw [read] at same
    cases same

theorem decode_loop_error (postcard : Postcard) (r : Reader) (c : Client) (error : FrameError)
    (read : readFrame postcard r = .error error) : decodeLoop postcard r c = { c with lost := true, shutdown := true } := by
  rw [decodeLoop]
  split
  · rename_i frame rest same
    rw [read] at same
    cases same
  · rfl

theorem write_sound (postcard : Postcard) (w after : Bytes) (frame : Frame) (sound : ¬ Truncated postcard frame)
    (wrote : writeFrame postcard w frame = (.ok (), after)) :
    ∃ body, postcard.toAllocvec frame = .ok body ∧ body.length ≤ maxFrameLen.toNat ∧ after = w ++ frameBytes body ∧
      wireBytes postcard frame = frameBytes body := by
  obtain ⟨error, failed, _⟩ | ⟨body, encoded, small, written⟩ := write_frame_cases postcard w frame
  · rw [failed] at wrote
    cases wrote
  · rw [written] at wrote
    cases wrote
    refine ⟨body, encoded, untruncated_fits postcard frame body encoded sound small, rfl, ?_⟩
    rw [wireBytes, write_frame_taken postcard [] frame body encoded small, List.nil_append]

theorem write_all_bytes (postcard : Postcard) (frames : List Frame) (w after : Bytes)
    (sound : ∀ frame ∈ frames, ¬ Truncated postcard frame) (wrote : writeAll postcard w frames = some after) :
    after = w ++ frames.flatMap (wireBytes postcard) := by
  induction frames generalizing w with
  | nil =>
      cases wrote
      simp
  | cons frame frames ih =>
      rw [writeAll] at wrote
      split at wrote
      · rename_i middle first
        obtain ⟨body, _, _, rfl, wire⟩ := write_sound postcard w middle frame (sound frame List.mem_cons_self) first
        rw [ih _ (fun later member => sound later (List.mem_cons_of_mem _ member)) wrote, List.flatMap_cons, wire, List.append_assoc]
      · cases wrote

-- A frame that the writer takes, and the reader as far as the encoding keeps it.
def Sound (postcard : Postcard) (kept : Frame → Frame) (frame : Frame) : Prop :=
  ∃ body, wireBytes postcard frame = frameBytes body ∧ body.length ≤ maxFrameLen.toNat ∧ postcard.fromBytes body = .ok (kept frame)

theorem write_all_sound (postcard : Postcard) (kept : Frame → Frame) (carries : postcard.Carries kept) (frames : List Frame)
    (w after : Bytes) (sound : ∀ frame ∈ frames, ¬ Truncated postcard frame) (wrote : writeAll postcard w frames = some after) :
    ∀ frame ∈ frames, Sound postcard kept frame := by
  induction frames generalizing w with
  | nil => simp
  | cons first frames ih =>
      rw [writeAll] at wrote
      split at wrote
      · rename_i middle ok
        obtain ⟨body, encoded, fits, _, wire⟩ := write_sound postcard w middle first (sound first List.mem_cons_self) ok
        intro frame member
        rcases List.mem_cons.mp member with rfl | later
        · exact ⟨body, wire, fits, carries _ body encoded⟩
        · exact ih middle (fun other inside => sound other (List.mem_cons_of_mem _ inside)) wrote frame later
      · cases wrote

theorem decode_loop_cut (postcard : Postcard) (kept : Frame → Frame) (frames : List Frame)
    (sound : ∀ frame ∈ frames, Sound postcard kept frame) (n : Nat) (r : Reader) (c : Client)
    (cut : r.bytes = (frames.flatMap (wireBytes postcard)).take n) :
    decodeLoop postcard r c =
      { ((contained postcard frames n).map kept).foldl Client.apply c with lost := true, shutdown := true } := by
  induction frames generalizing n r c with
  | nil =>
      have empty : r.bytes.length < 4 := by simp [cut]
      exact decode_loop_error postcard r c (.io r.ending) (by simp only [readFrame, reader_exact_short r 4 empty])
  | cons frame frames ih =>
      obtain ⟨body, wire, fits, decoded⟩ := sound frame List.mem_cons_self
      rw [List.flatMap_cons] at cut
      rw [contained]
      by_cases whole : (wireBytes postcard frame).length ≤ n
      · rw [List.take_append, List.take_of_length_le whole, wire] at cut
        obtain ⟨rest, read, left, _⟩ := read_frame_whole postcard (kept frame) body _ r decoded fits cut
        rw [if_pos whole, decode_loop_ok postcard r rest c (kept frame) read, List.map_cons, List.foldl_cons]
        refine ih (fun other member => sound other (List.mem_cons_of_mem _ member)) _ rest (c.apply (kept frame)) ?_
        rw [left, wire]
      · rw [if_neg whole]
        rw [List.take_append_of_le_length (by omega)] at cut
        have missing : (wireBytes postcard frame).drop n ≠ [] := by
          intro nothing
          have short := List.drop_eq_nil_iff.mp nothing
          omega
        obtain ⟨error, read⟩ := read_frame_partial postcard body _ r fits (by rw [← wire, cut, List.take_append_drop]) missing
        exact decode_loop_error postcard r c error read

theorem apply_events (frames : List Frame) (c : Client) :
    (frames.foldl Client.apply c).events = c.events ++ frames.filterMap Frame.ev := by
  induction frames generalizing c with
  | nil => simp
  | cons frame frames ih =>
      rw [List.foldl_cons, ih]
      cases frame with
      | event ev => simp [Client.apply, Frame.ev]
      | _ => rfl

theorem apply_state (frames : List Frame) (c : Client) :
    (frames.foldl Client.apply c).state = (frames.filterMap Frame.state).getLastD c.state := by
  induction frames generalizing c with
  | nil => rfl
  | cons frame frames ih =>
      rw [List.foldl_cons, ih]
      cases frame with
      | stats snapshot connections =>
          simp only [List.filterMap_cons, Frame.state, List.getLastD_cons]
          rfl
      | _ => rfl

structure Received (postcard : Postcard) (frames : List Frame) (cut : Nat) (state : RemoteState) (c : Client) : Prop where
  events : c.events = (contained postcard frames cut).filterMap Frame.ev
  state : c.state = ((contained postcard frames cut).filterMap Frame.state).getLastD state
  lost : c.lost = true
  shutdown : c.shutdown = true

-- A frame is delivered exactly when its length is not truncated, and so is every stream of such frames.
theorem wire_delivers_iff (postcard : Postcard) (inverse : postcard.Inverse) :
    (∀ frame, Delivers postcard frame ↔ ¬ Truncated postcard frame) ∧
    ∀ frames wire, (∀ frame ∈ frames, ¬ Truncated postcard frame) → writeAll postcard [] frames = some wire →
      ∀ cut (r : Reader) state, r.bytes = wire.take cut →
        Received postcard frames cut state (decodeLoop postcard r (.start state)) := by
  refine ⟨delivers_iff postcard inverse, ?_⟩
  intro frames wire sound wrote cut r state arrived
  have whole := write_all_bytes postcard frames [] wire sound wrote
  rw [List.nil_append] at whole
  rw [whole] at arrived
  have taken := write_all_sound postcard (fun frame => frame) inverse frames [] wire sound wrote
  rw [decode_loop_cut postcard (fun frame => frame) frames taken cut r _ arrived, List.map_id']
  refine ⟨?_, ?_, rfl, rfl⟩
  · dsimp only
    rw [apply_events]
    rfl
  · dsimp only
    rw [apply_state]
    rfl

end Admin

end NextSocks5
