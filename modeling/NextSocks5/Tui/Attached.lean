import NextSocks5.Admin.Feed
import NextSocks5.Headless
import NextSocks5.Server.Bulletin
import NextSocks5.Tui.Remote

set_option autoImplicit false

namespace NextSocks5

namespace Tui

open Admin (Frame Postcard RemoteState Sound Truncated wireBytes writeFrame)
open Admin.Feed (Accounts framesOf)
open Headless (eventCapacity)
open Receiver (Report Books Covers)

structure Attached (κ τ : Type) where
  server : Bulletin.State τ
  feed : Admin.Feed.State κ
  transit : Bytes
  remote : Remote

inductive Motion (κ τ : Type) where
  | server (wake : Bulletin.Wake τ)
  | admin (act : Admin.Attach.Act κ)
  | deliver (n : Nat)
  | client (arrival : Arrival)

variable {κ τ : Type} [DecidableEq κ] [DecidableEq τ]

-- The bus is sent to by the connection tasks alone, and the connections of a tick are those of the registry.
def Attached.act (s : Attached κ τ) : Admin.Attach.Act κ → Option (Admin.Attach.Act κ)
  | .send _ => none
  | .tick client snapshot _ => some (.tick client snapshot s.server.registry.metrics.connections)
  | act => some act

def Attached.arrival (s : Attached κ τ) : Motion κ τ → Option Arrival
  | .deliver n => if 0 < n ∧ n ≤ s.transit.length then some (.chunk (s.transit.take n)) else none
  | .client (.chunk _) => none
  | .client arrival => some arrival
  | _ => none

def attachedStep (postcard : Postcard) (listenAddr : Option String) (screen : Screen) (client : κ) (s : Attached κ τ)
    (motion : Motion κ τ) : Option (Attached κ τ × List ((κ × Frame) ⊕ Drawn)) :=
  match motion with
  | .server wake =>
      (Bulletin.machine.step s.server wake).map fun (server, events) =>
        ({ s with server, feed := events.foldl (Admin.Feed.publish eventCapacity) s.feed }, [])
  | .admin act =>
      (s.act act).bind fun act =>
        (Admin.Feed.step postcard listenAddr eventCapacity s.feed act).map fun (feed, frames) =>
          ({ s with feed, transit := s.transit ++ (framesOf client frames).flatMap (wireBytes postcard) }, frames.map .inl)
  | motion =>
      (s.arrival motion).bind fun arrival =>
        (remoteStep postcard screen s.remote arrival).map fun (remote, drawn) =>
          ({ s with remote, transit := s.transit.drop arrival.bytes.length }, drawn.map .inr)

def attached (postcard : Postcard) (listenAddr : Option String) (screen : Screen) (client : κ) :
    Machine (Attached κ τ) (Motion κ τ) ((κ × Frame) ⊕ Drawn) := ⟨attachedStep postcard listenAddr screen client⟩

def Attached.start (programs : τ → Registry.Execution) : Attached κ τ := ⟨Bulletin.start programs, Admin.Feed.start, [], .new⟩

def framesIn (outputs : List ((κ × Frame) ⊕ Drawn)) : List (κ × Frame) := outputs.filterMap Sum.getLeft?

def drawnIn (outputs : List ((κ × Frame) ⊕ Drawn)) : List Drawn := outputs.filterMap Sum.getRight?

inductive Moved (postcard : Postcard) (listenAddr : Option String) (screen : Screen) (client : κ) (s : Attached κ τ) :
    Motion κ τ → Attached κ τ → List ((κ × Frame) ⊕ Drawn) → Prop where
  | server (wake : Bulletin.Wake τ) (server : Bulletin.State τ) (events : List Event)
      (moved : Bulletin.machine.step s.server wake = some (server, events)) :
      Moved postcard listenAddr screen client s (.server wake)
        { s with server, feed := events.foldl (Admin.Feed.publish eventCapacity) s.feed } []
  | admin (asked act : Admin.Attach.Act κ) (feed : Admin.Feed.State κ) (frames : List (κ × Frame)) (is : s.act asked = some act)
      (moved : (Admin.Feed.machine postcard listenAddr eventCapacity).step s.feed act = some (feed, frames)) :
      Moved postcard listenAddr screen client s (.admin asked)
        { s with feed, transit := s.transit ++ (framesOf client frames).flatMap (wireBytes postcard) } (frames.map .inl)
  | arrives (motion : Motion κ τ) (arrival : Arrival) (after : Remote) (drawn : List Drawn) (is : s.arrival motion = some arrival)
      (moved : (remote postcard screen).step s.remote arrival = some (after, drawn)) :
      Moved postcard listenAddr screen client s motion { s with remote := after, transit := s.transit.drop arrival.bytes.length }
        (drawn.map .inr)

theorem attached_moved (postcard : Postcard) (listenAddr : Option String) (screen : Screen) (client : κ) (s after : Attached κ τ)
    (motion : Motion κ τ) (made : List ((κ × Frame) ⊕ Drawn))
    (stepped : (attached postcard listenAddr screen client).step s motion = some (after, made)) :
    Moved postcard listenAddr screen client s motion after made := by
  have fromArrival (bound : ((s.arrival motion).bind fun arrival =>
      (remoteStep postcard screen s.remote arrival).map fun (remote, drawn) =>
        ({ s with remote, transit := s.transit.drop arrival.bytes.length }, drawn.map Sum.inr)) = some (after, made)) :
      Moved postcard listenAddr screen client s motion after made := by
    obtain ⟨arrival, is, taken⟩ := Option.bind_eq_some_iff.mp bound
    obtain ⟨⟨next, drawn⟩, moved, same⟩ := Option.map_eq_some_iff.mp taken
    cases same
    exact .arrives motion arrival next drawn is moved
  cases motion with
  | server wake =>
      obtain ⟨⟨server, events⟩, moved, same⟩ := Option.map_eq_some_iff.mp stepped
      cases same
      exact .server wake server events moved
  | admin asked =>
      obtain ⟨act, is, taken⟩ := Option.bind_eq_some_iff.mp stepped
      obtain ⟨⟨feed, frames⟩, moved, same⟩ := Option.map_eq_some_iff.mp taken
      cases same
      exact .admin asked act feed frames is moved
  | deliver n => exact fromArrival stepped
  | client arrival => exact fromArrival stepped

omit [DecidableEq κ] [DecidableEq τ] in
theorem arrival_bytes (s : Attached κ τ) (motion : Motion κ τ) (arrival : Arrival) (is : s.arrival motion = some arrival) :
    arrival.bytes ++ s.transit.drop arrival.bytes.length = s.transit := by
  cases motion with
  | deliver n =>
      obtain ⟨asked, same⟩ := Option.ite_none_right_eq_some.mp is
      cases same
      simp only [Arrival.bytes, List.length_take, Nat.min_eq_left asked.2, List.take_append_drop]
  | client other =>
      cases other with
      | chunk bytes => cases is
      | _ =>
          cases is
          rfl
  | server _ | admin _ => cases is

omit [DecidableEq κ] [DecidableEq τ] in
theorem act_sends (s : Attached κ τ) (asked act : Admin.Attach.Act κ) (is : s.act asked = some act) : Admin.Feed.sentBy [act] = [] := by
  cases asked <;> cases is <;> rfl

theorem publish_all_run (postcard : Postcard) (listenAddr : Option String) (feed : Admin.Feed.State κ) (events : List Event) :
    (Admin.Feed.machine postcard listenAddr eventCapacity).Run feed (events.map .send) []
      (events.foldl (Admin.Feed.publish eventCapacity) feed) ∧
    Admin.Feed.sentBy (events.map (Admin.Attach.Act.send : Event → Admin.Attach.Act κ)) = events := by
  refine ⟨(Admin.Feed.machine postcard listenAddr eventCapacity).run_fold .send _ (fun _ _ => rfl) feed events, ?_⟩
  rw [Admin.Feed.sentBy, List.filterMap_map]
  exact List.filterMap_some

omit [DecidableEq κ] in
theorem frames_in_append (first second : List ((κ × Frame) ⊕ Drawn)) : framesIn (first ++ second) = framesIn first ++ framesIn second :=
  List.filterMap_append

omit [DecidableEq κ] in
theorem drawn_in_append (first second : List ((κ × Frame) ⊕ Drawn)) : drawnIn (first ++ second) = drawnIn first ++ drawnIn second :=
  List.filterMap_append

omit [DecidableEq κ] in
theorem in_frames (frames : List (κ × Frame)) :
    framesIn (frames.map Sum.inl : List ((κ × Frame) ⊕ Drawn)) = frames ∧
      drawnIn (frames.map Sum.inl : List ((κ × Frame) ⊕ Drawn)) = [] := by
  simp [framesIn, drawnIn, List.filterMap_map, Function.comp_def]

omit [DecidableEq κ] in
theorem in_drawn (drawn : List Drawn) :
    framesIn (drawn.map Sum.inr : List ((κ × Frame) ⊕ Drawn)) = [] ∧
      drawnIn (drawn.map Sum.inr : List ((κ × Frame) ⊕ Drawn)) = drawn := by
  simp [framesIn, drawnIn, List.filterMap_map, Function.comp_def]

def Motion.wake : Motion κ τ → Option (Bulletin.Wake τ)
  | .server wake => some wake
  | _ => none

def Attached.acts (s : Attached κ τ) : Motion κ τ → List (Admin.Attach.Act κ)
  | .server wake => ((Bulletin.machine.step s.server wake).elim [] Prod.snd).map .send
  | .admin act => (s.act act).toList
  | _ => []

def acting (postcard : Postcard) (listenAddr : Option String) (screen : Screen) (client : κ) :
    Machine (Attached κ τ) (Motion κ τ) (Admin.Attach.Act κ) :=
  (attached postcard listenAddr screen client).noted Attached.acts

structure Projects (postcard : Postcard) (listenAddr : Option String) (screen : Screen) (client : κ) (programs : τ → Registry.Execution)
    (motions : List (Motion κ τ)) (outputs : List ((κ × Frame) ⊕ Drawn)) (s : Attached κ τ) (acts : List (Admin.Attach.Act κ))
    (arrivals : List Arrival) : Prop where
  acted : (acting postcard listenAddr screen client).Run (.start programs) motions acts s
  server : Bulletin.machine.Run (Bulletin.start programs) (motions.filterMap Motion.wake) (Admin.Feed.sentBy acts) s.server
  feed : (Admin.Feed.machine postcard listenAddr eventCapacity).Run Admin.Feed.start acts (framesIn outputs) s.feed
  remote : (remote postcard screen).Run .new arrivals (drawnIn outputs) s.remote
  stream : arrived arrivals ++ s.transit = (framesOf client (framesIn outputs)).flatMap (wireBytes postcard)

omit [DecidableEq κ] in
theorem acts_server (s : Attached κ τ) (wake : Bulletin.Wake τ) (server : Bulletin.State τ) (events : List Event)
    (moved : Bulletin.machine.step s.server wake = some (server, events)) : s.acts (.server wake) = events.map .send := by
  rw [Attached.acts, moved]
  rfl

omit [DecidableEq κ] [DecidableEq τ] in
theorem wakes_snoc (motions : List (Motion κ τ)) (motion : Motion κ τ) :
    (motions ++ [motion]).filterMap Motion.wake = motions.filterMap Motion.wake ++ motion.wake.toList := by
  rw [List.filterMap_append]
  cases motion <;> rfl

theorem step_projects (postcard : Postcard) (listenAddr : Option String) (screen : Screen) (client : κ)
    (programs : τ → Registry.Execution) (motions : List (Motion κ τ)) (outputs made : List ((κ × Frame) ⊕ Drawn))
    (s after : Attached κ τ) (motion : Motion κ τ) (acts : List (Admin.Attach.Act κ)) (arrivals : List Arrival)
    (projects : Projects postcard listenAddr screen client programs motions outputs s acts arrivals)
    (stepped : (attached postcard listenAddr screen client).step s motion = some (after, made)) :
    ∃ acts arrivals, Projects postcard listenAddr screen client programs (motions ++ [motion]) (outputs ++ made) after acts arrivals := by
  obtain ⟨acted, server, feed, remoteRan, stream⟩ := projects
  have noted : (acting postcard listenAddr screen client).step s motion = some (after, s.acts motion) := by
    simp only [acting, Machine.noted, stepped, Option.map_some]
  have acted := acted.next motion (s.acts motion) after noted
  cases attached_moved postcard listenAddr screen client s after motion made stepped with
  | server wake next events moved =>
      obtain ⟨sends, sent⟩ := publish_all_run postcard listenAddr s.feed events
      have published := (Admin.Feed.machine postcard listenAddr eventCapacity).run_append _ _ _ _ _ _ _ feed sends
      rw [acts_server s wake next events moved] at acted
      rw [List.append_nil] at published ⊢
      refine ⟨acts ++ events.map .send, arrivals, acted, ?_, published, remoteRan, stream⟩
      rw [wakes_snoc, Admin.Feed.sent_append, sent]
      exact server.next wake events next moved
  | admin asked act next frames is moved =>
      have single : s.acts (.admin asked) = [act] := by rw [Attached.acts, is, Option.toList_some]
      rw [single] at acted
      refine ⟨acts ++ [act], arrivals, acted, ?_, ?_, ?_, ?_⟩
      · rw [wakes_snoc, Admin.Feed.sent_append, act_sends s asked act is, List.append_nil]
        exact (List.append_nil _).symm ▸ server
      · rw [frames_in_append, (in_frames frames).1]
        exact feed.next act frames next moved
      · rw [drawn_in_append, (in_frames frames).2, List.append_nil]
        exact remoteRan
      · rw [frames_in_append, (in_frames frames).1, Admin.Feed.frames_append, List.flatMap_append, ← stream, List.append_assoc]
  | arrives _ arrival next drawn is moved =>
      obtain ⟨silent, asleep⟩ : s.acts motion = [] ∧ motion.wake = none := by
        cases motion with
        | deliver n => exact ⟨rfl, rfl⟩
        | client other => exact ⟨rfl, rfl⟩
        | server _ | admin _ => cases is
      rw [silent, List.append_nil] at acted
      refine ⟨acts, arrivals ++ [arrival], acted, ?_, ?_, ?_, ?_⟩
      · rw [wakes_snoc, asleep, Option.toList_none, List.append_nil]
        exact server
      · rw [frames_in_append, (in_drawn drawn).1, List.append_nil]
        exact feed
      · rw [drawn_in_append, (in_drawn drawn).2]
        exact remoteRan.next arrival drawn next moved
      · rw [frames_in_append, (in_drawn drawn).1, List.append_nil, ← stream, arrived_snoc, List.append_assoc,
          arrival_bytes s motion arrival is]

theorem attached_projects (postcard : Postcard) (listenAddr : Option String) (screen : Screen) (client : κ)
    (programs : τ → Registry.Execution) (motions : List (Motion κ τ)) (outputs : List ((κ × Frame) ⊕ Drawn)) (s : Attached κ τ)
    (run : (attached postcard listenAddr screen client).Run (.start programs) motions outputs s) :
    ∃ acts arrivals, Projects postcard listenAddr screen client programs motions outputs s acts arrivals := by
  refine (attached postcard listenAddr screen client).run_invariant (.start programs) (fun motions outputs s => ∃ acts arrivals,
    Projects postcard listenAddr screen client programs motions outputs s acts arrivals) ⟨[], [], .idle, .idle, .idle, .idle, rfl⟩ ?_
    motions outputs s run
  intro motions outputs s motion after made held stepped
  obtain ⟨acts, arrivals, projects⟩ := held
  exact step_projects postcard listenAddr screen client programs motions outputs made s after motion acts arrivals projects stepped

def Registered (postcard : Postcard) (listenAddr : Option String) (screen : Screen) (client : κ) (start : Attached κ τ)
    (motions : List (Motion κ τ)) (connections : List ConnInfo) : Prop :=
  ∃ earlier outputs s, earlier <+: motions ∧ (attached postcard listenAddr screen client).Run start earlier outputs s ∧
    connections = s.server.registry.metrics.connections

theorem stats_registered (postcard : Postcard) (listenAddr : Option String) (screen : Screen) (client : κ) (start s : Attached κ τ)
    (motions : List (Motion κ τ)) (outputs : List ((κ × Frame) ⊕ Drawn))
    (run : (attached postcard listenAddr screen client).Run start motions outputs s) :
    ∀ entry ∈ framesIn outputs, ∀ source, entry.2.state = some source →
      Registered postcard listenAddr screen client start motions source.connections := by
  induction run with
  | idle => simp [framesIn]
  | @next motions outputs s before motion made after stepped ih =>
      intro entry member source is
      rw [frames_in_append] at member
      rcases List.mem_append.mp member with old | fresh
      · obtain ⟨earlier, outs, t, part, ran, same⟩ := ih entry old source is
        exact ⟨earlier, outs, t, part.trans (List.prefix_append motions [motion]), ran, same⟩
      · cases attached_moved postcard listenAddr screen client s after motion made stepped with
        | server wake next events moved => cases fresh
        | arrives _ arrival next drawn _ moved =>
            rw [(in_drawn drawn).1] at fresh
            cases fresh
        | admin asked act feed frames taken moved =>
            rw [(in_frames frames).1] at fresh
            refine ⟨motions, outputs, s, List.prefix_append motions _, before, ?_⟩
            obtain ⟨own, frame⟩ := entry
            cases Admin.Feed.step_moves postcard listenAddr eventCapacity s.feed feed act frames moved with
            | serve _ _ other x y written found serves wrote =>
                obtain ⟨kept, listed, same⟩ := List.mem_map.mp fresh
                cases same
                cases frame with
                | stats snapshot connections =>
                    obtain ⟨_, rfl⟩ := (wrote _ listed).2
                    obtain rfl := Option.some.inj is
                    cases asked <;> cases taken
                    rfl
                | _ => cases is
            | _ => cases fresh

-- What the admin tasks send a client in a run of theirs: nothing before its session, and then as its handler accounts for it.
structure Relayed (postcard : Postcard) (listenAddr : Option String) (client : κ) (acts : List (Admin.Attach.Act κ))
    (feed : Admin.Feed.State κ) (frames : List Frame) : Prop where
  absent : feed.handlers client = none → frames = []
  served : ∀ x, feed.handlers client = some x → ∃ before between since,
    Accounts postcard listenAddr eventCapacity client acts x frames before between since

-- What the client makes of the frames: the last stats, and the log of the events with a line for each gap of its own bus.
structure Displays (kept : Frame → Frame) (frames : List Frame) (drawn : List Drawn) (s : Remote) (seen : List Frame)
    (drained waiting : List (Report Event)) : Prop where
  part : seen <+: frames
  source : s.source = ((seen.map kept).filterMap Frame.state).getLastD .default
  batch : s.session.batch.getD [] = waiting.map received
  covered : ∃ done gap, (seen.map kept).filterMap Frame.ev = done ++ (gap ++ s.session.events.queue) ∧
    gap.length = s.session.events.lagged ∧ Covers (drained ++ waiting) done
  log : s.session.dashboard.log.buf = Window.last logCapacity (journal (drained.map received))
  shows : ∀ picture ∈ drawn, Shows drained picture
  lost : s.lost = true → s.closed = true

theorem feed_relayed (postcard : Postcard) (listenAddr : Option String) (client : κ) (acts : List (Admin.Attach.Act κ))
    (outputs : List (κ × Frame)) (s : Admin.Feed.State κ) (inv : Admin.Feed.Inv postcard listenAddr eventCapacity acts outputs s) :
    Relayed postcard listenAddr client acts s (framesOf client outputs) := by
  refine ⟨inv.quiet client, ?_⟩
  intro x found
  obtain ⟨before, between, since, handed⟩ := inv.handlers client x found
  exact ⟨before, between, since,
    Admin.Feed.handed_accounts postcard listenAddr eventCapacity client acts x _ before between since handed⟩

theorem written_sound (postcard : Postcard) (kept : Frame → Frame) (carries : postcard.Carries kept) (frame : Frame)
    (untruncated : ¬ Truncated postcard frame) (wrote : (writeFrame postcard [] frame).1 = .ok ()) : Sound postcard kept frame := by
  obtain ⟨body, encoded, fits, _, wire⟩ :=
    Admin.write_sound postcard [] (writeFrame postcard [] frame).2 frame untruncated (Prod.ext wrote rfl)
  exact ⟨body, wire, fits, carries frame body encoded⟩

theorem attached_sample (postcard : Postcard) (listenAddr : Option String) (screen : Screen) (client : κ) (start s : Attached κ τ)
    (before : List (Motion κ τ)) (now : Nat) (outputs : List ((κ × Frame) ⊕ Drawn))
    (run : (attached postcard listenAddr screen client).Run start (before ++ [.client (.sample now)]) outputs s) :
    s.remote.session.batch = none ∧ s.remote.session.dashboard.connections.Perm s.remote.source.connections ∧
      ∀ earlier, before = earlier ++ [.client .swept] → s.remote.session.events.backlog = 0 := by
  obtain ⟨_, _, middle, ran, stepped, _⟩ := Machine.run_last _ _ _ _ _ _ run
  cases attached_moved postcard listenAddr screen client middle s _ _ stepped with
  | arrives _ arrival next drawn is moved =>
      cases is
      obtain ⟨⟨sampledSession, pictures⟩, sampled, same⟩ := Option.map_eq_some_iff.mp moved
      cases same
      obtain ⟨idle, untouched, rows⟩ := session_sample localBusCapacity screen middle.remote.session sampledSession now _ _ sampled
      refine ⟨idle, rows, ?_⟩
      intro earlier cut
      subst cut
      obtain ⟨_, _, first, _, swept, _⟩ := Machine.run_last _ _ _ _ _ _ ran
      cases attached_moved postcard listenAddr screen client first middle _ _ swept with
      | arrives _ sweep cleared pictures named ended =>
          cases named
          obtain ⟨⟨later, pictures⟩, taken, same⟩ := Option.map_eq_some_iff.mp ended
          cases same
          have level := session_swept localBusCapacity screen first.remote.session _ _ taken
          dsimp only at untouched ⊢
          rwa [untouched]

-- From the connection tasks to the screen of an attached client: its log is of the server's events, its table of the
-- server's registry as it was at some point, and what is missing was overwritten on one of the two buses.
theorem attached_consistent (postcard : Postcard) (kept : Frame → Frame) (carries : postcard.Carries kept)
    (listenAddr : Option String) (screen : Screen) (client : κ) (programs : τ → Registry.Execution) (motions : List (Motion κ τ))
    (outputs : List ((κ × Frame) ⊕ Drawn)) (s : Attached κ τ)
    (run : (attached postcard listenAddr screen client).Run (.start programs) motions outputs s)
    (untruncated : ∀ frame ∈ framesOf client (framesIn outputs), ¬ Truncated postcard frame) :
    ∃ acts seen drained waiting, (acting postcard listenAddr screen client).Run (.start programs) motions acts s ∧
      Bulletin.machine.Run (Bulletin.start programs) (motions.filterMap Motion.wake) (Admin.Feed.sentBy acts) s.server ∧
      (Admin.Feed.machine postcard listenAddr eventCapacity).Run Admin.Feed.start acts (framesIn outputs) s.feed ∧
      Relayed postcard listenAddr client acts s.feed (framesOf client (framesIn outputs)) ∧
      Displays kept (framesOf client (framesIn outputs)) (drawnIn outputs) s.remote seen drained waiting ∧
      (∀ source ∈ seen.filterMap Frame.state,
        Registered postcard listenAddr screen client (.start programs) motions source.connections) ∧
      (∀ before now, motions = before ++ [.client (.sample now)] →
        s.remote.session.dashboard.connections.Perm s.remote.source.connections ∧
        ∀ earlier, before = earlier ++ [.client .swept] → Covers drained ((seen.map kept).filterMap Frame.ev)) := by
  obtain ⟨acts, arrivals, projects⟩ := attached_projects postcard listenAddr screen client programs motions outputs s run
  have inv := Admin.Feed.inv_run postcard listenAddr eventCapacity (by decide) acts _ s.feed projects.feed
  have sound : ∀ frame ∈ framesOf client (framesIn outputs), Sound postcard kept frame :=
    fun frame member => written_sound postcard kept carries frame (untruncated frame member) (inv.wrote client frame member)
  obtain ⟨seen, rest, made, follows⟩ := follows_run postcard kept screen _ sound arrivals _ s.remote projects.remote
    ⟨s.transit, projects.stream⟩
  obtain ⟨drained, waiting, tracks, shows⟩ := run_tracks localBusCapacity screen (by decide) made _ s.remote.session follows.ran
  obtain ⟨done, gap, cut, missed, covers⟩ := tracks.books.covered
  rw [follows.sent] at cut
  refine ⟨acts, seen, drained, waiting, projects.acted, projects.server, projects.feed,
    feed_relayed postcard listenAddr client acts _ s.feed inv, ⟨⟨rest, follows.split.symm⟩, follows.source, tracks.batch,
      ⟨done, gap, cut, missed, covers⟩, tracks.ring, shows, fun lost => (follows.lost lost).1⟩, ?_, ?_⟩
  · intro source member
    obtain ⟨frame, listed, is⟩ := List.mem_filterMap.mp member
    have written : frame ∈ framesOf client (framesIn outputs) := by
      rw [follows.split]
      exact List.mem_append_left rest listed
    obtain ⟨⟨other, same⟩, sent, named⟩ := List.mem_filterMap.mp written
    obtain ⟨_, own⟩ := Option.ite_none_right_eq_some.mp named
    obtain rfl := Option.some.inj own
    exact stats_registered postcard listenAddr screen client _ s motions outputs run (other, _) sent source (by simpa using is)
  · intro before now same
    subst same
    obtain ⟨idle, rows, level⟩ := attached_sample postcard listenAddr screen client _ s before now outputs run
    refine ⟨rows, ?_⟩
    intro earlier adjacent
    rw [← follows.sent]
    exact tracks_whole localBusCapacity _ s.remote.session drained waiting tracks idle (level earlier adjacent)

def oneAssociation : List (Motion Unit Unit) :=
  [.admin (.subscribe ()), .admin .snapshot, .admin (.hello ()), .server (.step ()), .server (.step ()), .server (.step ()),
    .server (.step ()), .server (.tell ()), .admin (.live ()), .admin (.tick () .default []), .deliver 10, .client .decode,
    .deliver 27, .client .decode, .deliver 47, .client .decode, .client .tick, .client .poll, .client .swept]

-- An association is opened, told of and listed; the bytes arrive in three pieces.
theorem attached_consistent_one : ∃ (program : Registry.Execution) (outputs : List ((Unit × Frame) ⊕ Drawn)) (s : Attached Unit Unit)
      (acts : List (Admin.Attach.Act Unit)) (seen : List Frame) (drained waiting : List (Report Event)),
    (attached Admin.Postcard.format none ⟨24, by decide⟩ ()).Run (.start fun _ => program)
      (oneAssociation ++ [.client (.sample 5)]) outputs s ∧
    Relayed Admin.Postcard.format none () acts s.feed (framesOf () (framesIn outputs)) ∧
    Displays Admin.Postcard.frame.kept (framesOf () (framesIn outputs)) (drawnIn outputs) s.remote seen drained waiting ∧
    (framesOf () (framesIn outputs)).length = 3 ∧ s.remote.session.dashboard.connections.map ConnInfo.id = [1] ∧
    s.remote.session.dashboard.connections.Perm s.remote.source.connections ∧
    s.remote.session.dashboard.log.buf.map (fun line => line.opens 1) = [true] ∧
    Covers drained ((seen.map Admin.Postcard.frame.kept).filterMap Frame.ev) := by
  obtain ⟨program, _, operations⟩ := Registry.query_program
  have begins : (Attached.start (fun _ : Unit => program) : Attached Unit Unit) =
      ⟨⟨⟨.new, fun _ => ⟨.fresh, Registry.queryOperations⟩⟩, fun _ => .nothing⟩, Admin.Feed.start, [], .new⟩ := by
    rw [Attached.start, Bulletin.start, Registry.start, operations]
  have ran : ((attached Admin.Postcard.format none ⟨24, by decide⟩ ()).exec
      (⟨⟨⟨.new, fun _ => ⟨.fresh, Registry.queryOperations⟩⟩, fun _ => .nothing⟩, Admin.Feed.start, [], .new⟩ : Attached Unit Unit)
      (oneAssociation ++ [.client (.sample 5)])).map (fun ended =>
        ((framesOf () (framesIn ended.1)).map fun frame => (Admin.Postcard.frame.encode frame).length,
          ended.2.remote.session.dashboard.connections.map ConnInfo.id,
          ended.2.remote.session.dashboard.log.buf.map fun line => line.opens 1)) =
      some ([3, 26, 43], [1], [true]) := by decide +kernel
  rw [← begins] at ran
  obtain ⟨⟨outputs, s⟩, done, facts⟩ := Option.map_eq_some_iff.mp ran
  obtain ⟨sizes, shows⟩ := Prod.mk.inj facts
  obtain ⟨table, log⟩ := Prod.mk.inj shows
  have short : ∀ frame ∈ framesOf () (framesIn outputs), (Admin.Postcard.frame.encode frame).length < 2 ^ 32 := by
    intro frame member
    have size : (Admin.Postcard.frame.encode frame).length ∈ [3, 26, 43] := by
      rw [← sizes]
      exact List.mem_map.mpr ⟨frame, member, rfl⟩
    simp only [List.mem_cons, List.not_mem_nil, or_false] at size
    omega
  have count : (framesOf () (framesIn outputs)).length = 3 := by
    rw [← List.length_map (fun frame => (Admin.Postcard.frame.encode frame).length), sizes]
    rfl
  have run := Machine.exec_run _ _ _ _ _ done
  obtain ⟨acts, seen, drained, waiting, _, _, _, relayed, displays, _, sampled⟩ :=
    attached_consistent Admin.Postcard.format Admin.Postcard.frame.kept Admin.Postcard.format_carries none ⟨24, by decide⟩ ()
      (fun _ => program) _ outputs s run (fun frame member => Admin.Postcard.short_sound frame (short frame member))
  obtain ⟨rows, covers⟩ := sampled oneAssociation 5 rfl
  exact ⟨program, outputs, s, acts, seen, drained, waiting, run, relayed, displays, count, table, rows, log, covers oneAssociation.dropLast rfl⟩

end Tui

end NextSocks5
