import NextSocks5.Admin.Postcard
import NextSocks5.Tui.Session

set_option autoImplicit false

namespace NextSocks5

namespace Tui

open Admin (Frame FrameError Postcard Reader RemoteState readFrame writeAll wireBytes contained Sound Truncated)
open Receiver (Report Books Covers)

def localBusCapacity : Nat := 1024

-- attach after the hello: the decode task and the dashboard, over the remote state and a bus of their own.
structure Remote where
  reader : Reader
  closed : Bool
  lost : Bool
  source : RemoteState
  session : Session

inductive Arrival where
  | chunk (bytes : Bytes)
  | hangUp (error : IoError)
  | decode
  | tick
  | poll
  | swept
  | sample (now : Nat)
  | key (action : KeyAction)

def Remote.apply (s : Remote) (rest : Reader) : Frame → Remote
  | .stats snapshot connections => { s with reader := rest, source := ⟨snapshot, connections⟩ }
  | .event ev => { s with reader := rest, session := { s.session with events := s.session.events.send localBusCapacity ev } }
  | .hello _ _ => { s with reader := rest }

-- A read past what has arrived waits for more as long as the stream is open.
def decodeOne (postcard : Postcard) (s : Remote) : Option Remote :=
  if s.lost then none
  else
    match readFrame postcard s.reader with
    | .ok (frame, rest) => some (s.apply rest frame)
    | .error (.io _) => if s.closed then some { s with lost := true } else none
    | .error _ => some { s with lost := true }

def Remote.act (s : Remote) : Arrival → Option Act
  | .tick => some .tick
  | .poll => some .poll
  | .swept => some .swept
  | .sample now => some (.sample now s.source.connections)
  | .key action => some (.key action)
  | _ => none

def remoteStep (postcard : Postcard) (screen : Screen) (s : Remote) (arrival : Arrival) : Option (Remote × List Drawn) :=
  match s.act arrival with
  | some act => ((session localBusCapacity screen).step s.session act).map fun (session, drawn) => ({ s with session }, drawn)
  | none =>
      match arrival with
      | .chunk bytes =>
          if s.closed then none else some ({ s with reader := { s.reader with chunks := s.reader.chunks ++ [bytes] } }, [])
      | .hangUp error => if s.closed then none else some ({ s with reader := { s.reader with ending := error }, closed := true }, [])
      | _ => (decodeOne postcard s).map fun after => (after, [])

def remote (postcard : Postcard) (screen : Screen) : Machine Remote Arrival Drawn := ⟨remoteStep postcard screen⟩

def Remote.new : Remote := ⟨⟨[], ⟨.other, "unexpected end of file"⟩⟩, false, false, .default, .new⟩

def Arrival.bytes : Arrival → Bytes
  | .chunk bytes => bytes
  | _ => []

def arrived (arrivals : List Arrival) : Bytes := arrivals.flatMap Arrival.bytes

theorem arrived_snoc (arrivals : List Arrival) (arrival : Arrival) : arrived (arrivals ++ [arrival]) = arrived arrivals ++ arrival.bytes := by
  rw [arrived, List.flatMap_append, ← arrived]
  simp

theorem read_frame_waits (postcard : Postcard) (body more : Bytes) (r : Reader) (small : body.length ≤ Admin.maxFrameLen.toNat)
    (partly : Admin.frameBytes body = r.bytes ++ more) (cut : more ≠ []) : readFrame postcard r = .error (.io r.ending) := by
  obtain ⟨word, within⟩ := Admin.small_word body.length small
  have positive := List.length_pos_iff.mpr cut
  have total : r.bytes.length + more.length = 4 + body.length := by
    rw [← List.length_append, ← partly, Admin.frameBytes, List.length_append, Admin.to_be_bytes_32_length]
  by_cases header : r.bytes.length < 4
  · simp only [readFrame, Admin.reader_exact_short r 4 header]
  · have first : r.bytes.take 4 = Admin.toBeBytes32 (UInt32.ofNat body.length) := by
      have both := congrArg (List.take 4) partly
      rw [List.take_append_of_le_length (by omega)] at both
      exact both.symm
    obtain ⟨middle, read, left, ends⟩ := Admin.reader_exact_ok r (Admin.toBeBytes32 (UInt32.ofNat body.length)) (r.bytes.drop 4)
      (by rw [← first, List.take_append_drop])
    rw [Admin.to_be_bytes_32_length] at read
    have short : middle.bytes.length < (UInt32.ofNat body.length).toNat := by
      rw [left, List.length_drop, word]
      omega
    simp only [readFrame, read, Admin.from_be_to_be_32, if_neg within, Admin.reader_exact_short middle _ short, ends]

theorem read_next (postcard : Postcard) (kept : Frame → Frame) (frames : List Frame)
    (sound : ∀ frame ∈ frames, Sound postcard kept frame) (r : Reader)
    (stream : r.bytes <+: frames.flatMap (wireBytes postcard)) :
    (contained postcard frames r.bytes.length = [] ∧ readFrame postcard r = .error (.io r.ending)) ∨
    ∃ frame rest next, frames = frame :: rest ∧ readFrame postcard r = .ok (kept frame, next) ∧
      r.bytes = wireBytes postcard frame ++ next.bytes ∧ next.bytes <+: rest.flatMap (wireBytes postcard) := by
  cases frames with
  | nil =>
      obtain empty : r.bytes = [] := List.prefix_nil.mp stream
      refine .inl ⟨rfl, ?_⟩
      simp only [readFrame, Admin.reader_exact_short r 4 (by rw [empty]; decide)]
  | cons frame rest =>
      obtain ⟨body, wire, fits, decoded⟩ := sound frame List.mem_cons_self
      rw [List.flatMap_cons] at stream
      by_cases whole : (wireBytes postcard frame).length ≤ r.bytes.length
      · obtain ⟨more, cut⟩ := List.prefix_of_prefix_length_le (List.prefix_append _ _) stream whole
        obtain ⟨next, read, left, _⟩ := Admin.read_frame_whole postcard (kept frame) body more r decoded fits (by rw [← wire, cut])
        rw [← cut] at stream
        exact .inr ⟨frame, rest, next, rfl, read, by rw [left, cut], by rw [left]; exact (List.prefix_append_right_inj _).mp stream⟩
      · refine .inl ⟨by rw [contained, if_neg whole], ?_⟩
        obtain ⟨more, cut⟩ := List.prefix_of_prefix_length_le stream (List.prefix_append _ _) (Nat.le_of_not_le whole)
        refine read_frame_waits postcard body more r fits (by rw [← wire, cut]) ?_
        intro nothing
        rw [nothing, List.append_nil] at cut
        exact whole (by rw [cut])

theorem contained_append (postcard : Postcard) (seen rest : List Frame) (n : Nat) :
    contained postcard (seen ++ rest) ((seen.flatMap (wireBytes postcard)).length + n) = seen ++ contained postcard rest n := by
  induction seen with
  | nil => simp
  | cons frame seen ih =>
      rw [List.cons_append, contained, List.flatMap_cons, List.length_append, if_pos (by omega), Nat.add_assoc, Nat.add_sub_cancel_left,
        ih, List.cons_append]

structure Follows (postcard : Postcard) (kept : Frame → Frame) (screen : Screen) (frames : List Frame)
    (bytes : Bytes) (outputs : List Drawn) (s : Remote)
    (seen rest : List Frame) (acts : List Act) : Prop where
  split : frames = seen ++ rest
  stream : seen.flatMap (wireBytes postcard) ++ s.reader.bytes = bytes
  source : s.source = ((seen.map kept).filterMap Frame.state).getLastD .default
  ran : (session localBusCapacity screen).Run .new acts outputs s.session
  sent : sentBy acts = (seen.map kept).filterMap Frame.ev
  lost : s.lost = true → s.closed = true ∧ contained postcard rest s.reader.bytes.length = []

theorem follows_unread (postcard : Postcard) (kept : Frame → Frame) (screen : Screen) (frames : List Frame)
    (bytes : Bytes) (outputs : List Drawn) (s : Remote)
    (seen rest : List Frame) (acts : List Act) (follows : Follows postcard kept screen frames bytes outputs s seen rest acts)
    (stream : bytes <+: frames.flatMap (wireBytes postcard)) : s.reader.bytes <+: rest.flatMap (wireBytes postcard) := by
  rw [← follows.stream, follows.split, List.flatMap_append] at stream
  exact (List.prefix_append_right_inj _).mp stream

theorem follows_apply (postcard : Postcard) (kept : Frame → Frame) (screen : Screen) (frames : List Frame) (bytes : Bytes)
    (outputs : List Drawn) (s : Remote) (seen rest : List Frame) (acts : List Act) (frame : Frame) (next : Reader)
    (unlost : s.lost = false) (follows : Follows postcard kept screen frames bytes outputs s seen (frame :: rest) acts)
    (read : s.reader.bytes = wireBytes postcard frame ++ next.bytes) :
    ∃ acts, Follows postcard kept screen frames bytes outputs (s.apply next (kept frame)) (seen ++ [frame]) rest acts := by
  have split : frames = (seen ++ [frame]) ++ rest := by rw [follows.split, List.append_assoc, List.singleton_append]
  have stream : (seen ++ [frame]).flatMap (wireBytes postcard) ++ next.bytes = bytes := by
    rw [← follows.stream, read, List.flatMap_append, List.append_assoc, List.flatMap_singleton]
  have last : (seen ++ [frame]).map kept = seen.map kept ++ [kept frame] := List.map_append
  generalize kept frame = taken at last
  cases taken with
  | stats snapshot connections =>
      refine ⟨acts, split, stream, ?_, follows.ran, ?_, ?_⟩
      · simp [last, Remote.apply, Frame.state]
      · rw [last, List.filterMap_append, follows.sent]
        exact (List.append_nil _).symm
      · intro lost
        exact absurd lost (by simp [Remote.apply, unlost])
  | event ev =>
      refine ⟨acts ++ [.send ev], split, stream, ?_, ?_, ?_, ?_⟩
      · simpa [last, Remote.apply, Frame.state] using follows.source
      · have sent := follows.ran.next (.send ev) [] _ rfl
        rwa [List.append_nil] at sent
      · rw [last, sent_by_snoc, follows.sent, List.filterMap_append]
        rfl
      · intro lost
        exact absurd lost (by simp [Remote.apply, unlost])
  | hello proto listenAddr =>
      refine ⟨acts, split, stream, ?_, follows.ran, ?_, ?_⟩
      · simpa [last, Remote.apply, Frame.state] using follows.source
      · rw [last, List.filterMap_append, follows.sent]
        exact (List.append_nil _).symm
      · intro lost
        exact absurd lost (by simp [Remote.apply, unlost])

theorem follows_decode (postcard : Postcard) (kept : Frame → Frame) (screen : Screen) (frames : List Frame)
    (sound : ∀ frame ∈ frames, Sound postcard kept frame)
    (bytes : Bytes) (outputs : List Drawn) (s after : Remote) (seen rest : List Frame) (acts : List Act)
    (follows : Follows postcard kept screen frames bytes outputs s seen rest acts) (stream : bytes <+: frames.flatMap (wireBytes postcard))
    (decoded : decodeOne postcard s = some after) :
    ∃ seen rest acts, Follows postcard kept screen frames bytes outputs after seen rest acts := by
  obtain ⟨alive, decoded⟩ := Option.ite_none_left_eq_some.mp decoded
  have unlost : s.lost = false := by simpa using alive
  have unread := follows_unread postcard kept screen frames bytes outputs s seen rest acts follows stream
  have later : ∀ frame ∈ rest, Sound postcard kept frame := fun frame member => sound frame (by rw [follows.split]; simp [member])
  rcases read_next postcard kept rest later s.reader unread with ⟨nothing, waits⟩ | ⟨frame, more, next, rfl, read, cut, _⟩
  · rw [waits] at decoded
    obtain ⟨closed, same⟩ := Option.ite_none_right_eq_some.mp decoded
    cases same
    exact ⟨seen, rest, acts, follows.split, follows.stream, follows.source, follows.ran, follows.sent, fun _ => ⟨closed, nothing⟩⟩
  · rw [read] at decoded
    cases decoded
    obtain ⟨acts, applied⟩ := follows_apply postcard kept screen frames bytes outputs s seen more acts frame next unlost follows cut
    exact ⟨_, more, acts, applied⟩

theorem follows_step (postcard : Postcard) (kept : Frame → Frame) (screen : Screen) (frames : List Frame)
    (sound : ∀ frame ∈ frames, Sound postcard kept frame)
    (bytes : Bytes) (outputs : List Drawn) (s after : Remote) (arrival : Arrival) (made : List Drawn) (seen rest : List Frame)
    (acts : List Act) (follows : Follows postcard kept screen frames bytes outputs s seen rest acts)
    (stream : bytes <+: frames.flatMap (wireBytes postcard)) (stepped : (remote postcard screen).step s arrival = some (after, made)) :
    ∃ seen rest acts, Follows postcard kept screen frames (bytes ++ arrival.bytes) (outputs ++ made) after seen rest acts := by
  have own (act : Act) (silent : act.sent = none) (quiet : arrival.bytes = []) (is : s.act arrival = some act) :
      ∃ seen rest acts, Follows postcard kept screen frames (bytes ++ arrival.bytes) (outputs ++ made) after seen rest acts := by
    simp only [remote, remoteStep, is] at stepped
    obtain ⟨⟨next, drawn⟩, moved, same⟩ := Option.map_eq_some_iff.mp stepped
    cases same
    refine ⟨seen, rest, acts ++ [act], follows.split, by rw [quiet, List.append_nil]; exact follows.stream, follows.source,
      follows.ran.next act _ next moved, ?_, follows.lost⟩
    rw [sent_by_snoc, silent, Option.toList_none, List.append_nil, follows.sent]
  cases arrival with
  | chunk more =>
      obtain ⟨opened, same⟩ := Option.ite_none_left_eq_some.mp stepped
      cases same
      refine ⟨seen, rest, acts, follows.split, ?_, follows.source, by rw [List.append_nil]; exact follows.ran, follows.sent, ?_⟩
      · rw [← follows.stream, List.append_assoc]
        simp [Reader.bytes, Arrival.bytes]
      · intro lost
        exact absurd (follows.lost lost).1 opened
  | hangUp error =>
      obtain ⟨opened, same⟩ := Option.ite_none_left_eq_some.mp stepped
      cases same
      refine ⟨seen, rest, acts, follows.split, ?_, follows.source, by rw [List.append_nil]; exact follows.ran, follows.sent, ?_⟩
      · exact follows.stream.trans (List.append_nil bytes).symm
      · intro lost
        exact absurd (follows.lost lost).1 opened
  | decode =>
      obtain ⟨next, decoded, same⟩ := Option.map_eq_some_iff.mp stepped
      cases same
      have nothing : Arrival.decode.bytes = [] := rfl
      rw [nothing, List.append_nil, List.append_nil]
      exact follows_decode postcard kept screen frames sound bytes outputs s after seen rest acts follows stream decoded
  | tick => exact own .tick rfl rfl rfl
  | poll => exact own .poll rfl rfl rfl
  | swept => exact own .swept rfl rfl rfl
  | sample now => exact own (.sample now s.source.connections) rfl rfl rfl
  | key action => exact own (.key action) rfl rfl rfl

theorem follows_run (postcard : Postcard) (kept : Frame → Frame) (screen : Screen) (frames : List Frame)
    (sound : ∀ frame ∈ frames, Sound postcard kept frame)
    (arrivals : List Arrival) (outputs : List Drawn) (s : Remote) (run : (remote postcard screen).Run .new arrivals outputs s)
    (stream : arrived arrivals <+: frames.flatMap (wireBytes postcard)) :
    ∃ seen rest acts, Follows postcard kept screen frames (arrived arrivals) outputs s seen rest acts := by
  have known := (remote postcard screen).run_invariant .new (fun arrivals outputs s =>
    arrived arrivals <+: frames.flatMap (wireBytes postcard) →
      ∃ seen rest acts, Follows postcard kept screen frames (arrived arrivals) outputs s seen rest acts)
    (fun _ => ⟨[], frames, [], rfl, rfl, rfl, .idle, rfl, fun lost => (by cases lost)⟩) ?_ arrivals outputs s run
  · exact known stream
  · intro arrivals outputs s arrival after made held stepped longer
    rw [arrived_snoc] at longer ⊢
    have stream := (List.prefix_append (arrived arrivals) arrival.bytes).trans longer
    obtain ⟨seen, rest, acts, follows⟩ := held stream
    exact follows_step postcard kept screen frames sound _ outputs s after arrival made seen rest acts follows stream stepped

theorem remote_sample (postcard : Postcard) (screen : Screen) (s : Remote) (before : List Arrival) (now : Nat) (outputs : List Drawn)
    (run : (remote postcard screen).Run .new (before ++ [.sample now]) outputs s) :
    s.session.batch = none ∧ (∀ earlier, before = earlier ++ [.swept] → s.session.events.backlog = 0) ∧
      s.session.dashboard.connections.Perm s.source.connections := by
  obtain ⟨_, _, middle, ran, stepped, _⟩ := Machine.run_last _ _ _ _ _ _ run
  obtain ⟨⟨next, drawn⟩, moved, rest⟩ := Option.map_eq_some_iff.mp stepped
  cases rest
  obtain ⟨idle, untouched, rows⟩ := session_sample localBusCapacity screen middle.session next now _ _ moved
  refine ⟨idle, ?_, rows⟩
  intro earlier cut
  subst cut
  obtain ⟨_, _, first, _, swept, _⟩ := Machine.run_last _ _ _ _ _ _ ran
  obtain ⟨⟨later, pictures⟩, taken, same⟩ := Option.map_eq_some_iff.mp swept
  cases same
  have nothing := session_swept localBusCapacity screen first.session later _ taken
  dsimp only at untouched ⊢
  rwa [untouched]

-- An attached dashboard shows the server's frames up to some point, as far as the encoding keeps them, and the stream is
-- lost only once all that arrived of it was shown. A sample shows the connections of the last stats decoded, and where no
-- frame is decoded between the end of the drain and the sample, the log accounts for every event decoded.
theorem remote_shows (postcard : Postcard) (kept : Frame → Frame) (carries : postcard.Carries kept) (screen : Screen)
    (frames : List Frame) (wire : Bytes) (untruncated : ∀ frame ∈ frames, ¬ Truncated postcard frame)
    (wrote : writeAll postcard [] frames = some wire) (arrivals : List Arrival) (outputs : List Drawn) (s : Remote)
    (run : (remote postcard screen).Run .new arrivals outputs s) (stream : arrived arrivals <+: wire) :
    ∃ seen drained waiting done gap, seen <+: contained postcard frames (arrived arrivals).length ∧
      s.source = ((seen.map kept).filterMap Frame.state).getLastD .default ∧ s.session.batch.getD [] = waiting.map received ∧
      (seen.map kept).filterMap Frame.ev = done ++ (gap ++ s.session.events.queue) ∧ gap.length = s.session.events.lagged ∧
      Covers (drained ++ waiting) done ∧ s.session.dashboard.log.buf = Window.last logCapacity (journal (drained.map received)) ∧
      (∀ drawn ∈ outputs, Shows drained drawn) ∧
      (∀ before now, arrivals = before ++ [.sample now] → s.session.dashboard.connections.Perm s.source.connections ∧
        ∀ earlier, before = earlier ++ [.swept] → Covers drained ((seen.map kept).filterMap Frame.ev)) ∧
      (s.lost = true → s.closed = true ∧ seen = contained postcard frames (arrived arrivals).length) := by
  have whole := Admin.write_all_bytes postcard frames [] wire untruncated wrote
  rw [List.nil_append] at whole
  rw [whole] at stream
  obtain ⟨seen, rest, acts, follows⟩ := follows_run postcard kept screen frames
    (Admin.write_all_sound postcard kept carries frames [] wire untruncated wrote) arrivals outputs s run stream
  obtain ⟨drained, waiting, tracks, shows⟩ := run_tracks localBusCapacity screen (by decide) acts outputs s.session follows.ran
  obtain ⟨done, gap, cut, missed, covers⟩ := tracks.books.covered
  have reached : contained postcard frames (arrived arrivals).length = seen ++ contained postcard rest s.reader.bytes.length := by
    rw [← follows.stream, List.length_append, follows.split, contained_append]
  rw [follows.sent] at cut
  refine ⟨seen, drained, waiting, done, gap, ?_, follows.source, tracks.batch, cut, missed, covers, tracks.ring, shows, ?_, ?_⟩
  · rw [reached]
    exact List.prefix_append seen _
  · intro before now same
    subst same
    obtain ⟨idle, level, rows⟩ := remote_sample postcard screen s before now outputs run
    refine ⟨rows, ?_⟩
    intro earlier adjacent
    rw [← follows.sent]
    exact tracks_whole localBusCapacity _ s.session drained waiting tracks idle (level earlier adjacent)
  · intro lost
    obtain ⟨closed, unseen⟩ := follows.lost lost
    exact ⟨closed, by rw [reached, unseen, List.append_nil]⟩

def twoPieces : List Arrival :=
  [.chunk [0, 0, 0], .chunk [5, 2, 4, 2, 117, 112], .decode, .tick, .poll, .swept, .sample 5, .hangUp ⟨.other, "early eof"⟩, .decode]

-- A line of the log arrives in two pieces and is shown, and then the stream ends.
theorem remote_shows_closed : ∃ (outputs : List Drawn) (s : Remote) (seen : List Frame) (drained : List (Report Event)),
    (remote Admin.Postcard.format ⟨24, by decide⟩).Run .new twoPieces outputs s ∧ s.lost = true ∧ s.closed = true ∧
    seen = [.event (.log "up")] ∧ s.session.dashboard.log.buf = Window.last logCapacity (journal (drained.map received)) ∧
    s.session.dashboard.log.buf.map LogLine.text = ["up"] ∧ ∀ drawn ∈ outputs, Shows drained drawn := by
  have wrote : writeAll Admin.Postcard.format [] [.event (.log "up")] = some [0, 0, 0, 5, 2, 4, 2, 117, 112] := by decide +kernel
  have sound : ∀ value ∈ [Frame.event (.log "up")], ¬ Truncated Admin.Postcard.format value := by
    intro value member
    rw [List.mem_singleton.mp member]
    exact Admin.Postcard.short_sound _ (by decide +kernel)
  have ran : ((remote Admin.Postcard.format ⟨24, by decide⟩).exec .new twoPieces).map
      (fun ended => (ended.2.lost, ended.2.session.dashboard.log.buf.map LogLine.text)) = some (true, ["up"]) := by decide +kernel
  obtain ⟨⟨outputs, s⟩, done, facts⟩ := Option.map_eq_some_iff.mp ran
  obtain ⟨lost, text⟩ := Prod.mk.inj facts
  have run := Machine.exec_run _ _ _ _ _ done
  obtain ⟨seen, drained, _, _, _, _, _, _, _, _, _, ring, shows, _, ended⟩ :=
    remote_shows Admin.Postcard.format Admin.Postcard.frame.kept Admin.Postcard.format_carries ⟨24, by decide⟩ _ _ sound
      wrote _ _ s run (List.prefix_refl _)
  obtain ⟨closed, whole⟩ := ended lost
  have all : contained Admin.Postcard.format [.event (.log "up")] (arrived twoPieces).length = [.event (.log "up")] := by
    decide +kernel
  exact ⟨outputs, s, seen, drained, run, lost, closed, whole.trans all, ring, text, shows⟩

end Tui

end NextSocks5
