import NextSocks5.Library.Delivery
import NextSocks5.Tui.Anchor
import NextSocks5.Tui.Journal
import NextSocks5.Tui.Table

set_option autoImplicit false

namespace NextSocks5

namespace Tui

open Receiver (Report Books Covers)

-- The loop of the dashboard beside the bus it drains; `batch` is what the current tick has drained,
-- and `swept` says that its drain is over and the connections are still to be read.
structure Session where
  dashboard : DashboardState
  events : Receiver Event
  batch : Option (List Received)
  swept : Bool

inductive Act where
  | send (ev : Event)
  | tick
  | poll
  | swept
  | sample (now : Nat) (conns : List ConnInfo)
  | key (action : KeyAction)

def received : Report Event → Received
  | .value ev => .event ev
  | .missed n => .lagged n

-- Empty and closed end the drain alike; a sender is taken to be there.
def tryRecv (events : Receiver Event) : Option (Report Event × Receiver Event) := events.report 1

def handleKey (screen : Screen) (s : Session) : KeyAction → Option (Session × List Drawn)
  | .quit => none
  | action =>
      let after := press screen s.dashboard action
      some ({ s with dashboard := after }, [render screen after])

def step (capacity : Nat) (screen : Screen) (s : Session) : Act → Option (Session × List Drawn)
  | .send ev => some ({ s with events := s.events.send capacity ev }, [])
  | .tick =>
      match s.batch with
      | none => some ({ s with batch := some [] }, [])
      | some _ => none
  | .poll =>
      match s.batch, s.swept, tryRecv s.events with
      | some batch, false, some (report, events) => some ({ s with events, batch := some (batch ++ [received report]) }, [])
      | _, _, _ => none
  | .swept =>
      match s.batch, s.swept, tryRecv s.events with
      | some _, false, none => some ({ s with swept := true }, [])
      | _, _, _ => none
  | .sample now conns =>
      match s.batch, s.swept with
      | some batch, true =>
          let after := tick screen.height s.dashboard now batch conns
          some ({ s with dashboard := after, batch := none, swept := false }, [render screen after])
      | _, _ => none
  | .key action =>
      match s.batch with
      | none => handleKey screen s action
      | some _ => none

-- Other tasks send between any two steps, also while a tick drains and before it reads the connections.
def session (capacity : Nat) (screen : Screen) : Machine Session Act Drawn := ⟨step capacity screen⟩

def Session.new : Session := ⟨.new, .empty, none, false⟩

inductive Steps (capacity : Nat) (screen : Screen) (s : Session) : Act → Session → List Drawn → Prop where
  | send (ev : Event) : Steps capacity screen s (.send ev) { s with events := s.events.send capacity ev } []
  | tick (idle : s.batch = none) : Steps capacity screen s .tick { s with batch := some [] } []
  | poll (batch : List Received) (report : Report Event) (events : Receiver Event) (draining : s.batch = some batch)
      (unswept : s.swept = false) (read : tryRecv s.events = some (report, events)) :
      Steps capacity screen s .poll { s with events, batch := some (batch ++ [received report]) } []
  | swept (batch : List Received) (draining : s.batch = some batch) (drained : tryRecv s.events = none) :
      Steps capacity screen s .swept { s with swept := true } []
  | sample (now : Nat) (conns : List ConnInfo) (batch : List Received) (draining : s.batch = some batch) (swept : s.swept = true) :
      Steps capacity screen s (.sample now conns)
        { s with dashboard := Tui.tick screen.height s.dashboard now batch conns, batch := none, swept := false }
        [render screen (Tui.tick screen.height s.dashboard now batch conns)]
  | key (action : KeyAction) (idle : s.batch = none) (stays : action ≠ .quit) :
      Steps capacity screen s (.key action) { s with dashboard := press screen s.dashboard action }
        [render screen (press screen s.dashboard action)]

theorem session_steps (capacity : Nat) (screen : Screen) (s after : Session) (act : Act) (made : List Drawn)
    (stepped : (session capacity screen).step s act = some (after, made)) : Steps capacity screen s act after made := by
  simp only [session, step] at stepped
  cases act with
  | send ev =>
      cases stepped
      exact .send ev
  | tick =>
      dsimp only at stepped
      split at stepped
      · rename_i idle
        cases stepped
        exact .tick idle
      · cases stepped
  | poll =>
      dsimp only at stepped
      split at stepped
      · rename_i batch report events draining unswept read
        cases stepped
        exact .poll batch report events draining unswept read
      · cases stepped
  | swept =>
      dsimp only at stepped
      split at stepped
      · rename_i batch draining unswept drained
        cases stepped
        exact .swept batch draining drained
      · cases stepped
  | sample now conns =>
      dsimp only at stepped
      split at stepped
      · rename_i batch draining swept
        cases stepped
        exact .sample now conns batch draining swept
      · cases stepped
  | key action =>
      dsimp only at stepped
      split at stepped
      · rename_i idle
        cases action with
        | quit => cases stepped
        | _ =>
            cases stepped
            exact .key _ idle (by simp)
      · cases stepped

def Act.sent : Act → Option Event
  | .send ev => some ev
  | _ => none

def sentBy (acts : List Act) : List Event := acts.filterMap Act.sent

theorem sent_by_snoc (acts : List Act) (act : Act) : sentBy (acts ++ [act]) = sentBy acts ++ act.sent.toList := by
  rw [sentBy, List.filterMap_append, ← sentBy]
  cases act <;> rfl

theorem press_log (screen : Screen) (s : DashboardState) (action : KeyAction) : (press screen s action).log = s.log := by
  cases action with
  | quit | cycleSort | switchFocus => rfl
  | scrollUp n | scrollDown n => cases focus : s.focus <;> simp [press, applyAction, focus]

theorem log_rows_infix {α : Type} (areaHeight logScroll : Nat) (lines : List α) :
    ∃ rows, logRows areaHeight logScroll lines = some rows ∧ rows <:+: lines := by
  obtain ⟨_, stop, _⟩ := scroll_window_total lines.length (areaHeight - 2) (lines.length - max (areaHeight - 2) 1 - logScroll)
  change (logWindow areaHeight lines.length logScroll).start + (logWindow areaHeight lines.length logScroll).shown ≤ lines.length at stop
  refine ⟨_, if_pos ⟨Nat.le_add_right _ _, stop⟩, ?_⟩
  exact (List.drop_suffix _ _).isInfix.trans (List.take_prefix _ _).isInfix

theorem render_log_infix (screen : Screen) (s : DashboardState) :
    ∃ panel, (render screen s).log = some panel ∧ panel.rows <:+: s.log.buf := by
  obtain ⟨rows, drawn, piece⟩ := log_rows_infix screen.mainRow s.logScroll s.log.buf
  simp only [render, renderLog]
  rw [drawn, Option.map_some]
  exact ⟨_, rfl, piece⟩

theorem try_recv_none (events : Receiver Event) (empty : tryRecv events = none) : events.queue = [] ∧ events.lagged = 0 := by
  obtain ⟨queue, lagged⟩ := events
  by_cases late : 0 < lagged
  · simp [tryRecv, Receiver.report, Receiver.recv, late] at empty
  · cases queue with
    | nil => exact ⟨rfl, Nat.eq_zero_of_not_pos late⟩
    | cons first rest => simp [tryRecv, Receiver.report, Receiver.recv, late] at empty

theorem session_sample (capacity : Nat) (screen : Screen) (s after : Session) (now : Nat) (conns : List ConnInfo) (made : List Drawn)
    (stepped : (session capacity screen).step s (.sample now conns) = some (after, made)) :
    after.batch = none ∧ after.events = s.events ∧ after.dashboard.connections.Perm conns := by
  cases session_steps capacity screen s after _ made stepped with
  | sample _ _ batch draining swept =>
      refine ⟨rfl, rfl, ?_⟩
      have rows := (tick_table screen.height s.dashboard now batch conns).2.2
      have perm := List.mergeSort_perm conns (s.dashboard.sort.le (observe s.dashboard.firstSeen now conns))
      rw [← sortConnections, ← rows] at perm
      exact perm

theorem session_swept (capacity : Nat) (screen : Screen) (s after : Session) (made : List Drawn)
    (stepped : (session capacity screen).step s .swept = some (after, made)) : after.events.backlog = 0 := by
  cases session_steps capacity screen s after _ made stepped with
  | swept batch draining drained =>
      obtain ⟨queue, lagged⟩ := try_recv_none _ drained
      rw [Receiver.backlog, queue, lagged]
      rfl

-- Every line drawn is of the log that drops none, as it was after some of the reads.
def Shows (drained : List (Report Event)) (drawn : Drawn) : Prop :=
  ∃ earlier panel, earlier <+: drained ∧ drawn.log = some panel ∧ panel.rows <:+: journal (earlier.map received)

theorem shows_longer (drained more : List (Report Event)) (drawn : Drawn) (shows : Shows drained drawn) :
    Shows (drained ++ more) drawn := by
  obtain ⟨earlier, panel, before, rest⟩ := shows
  exact ⟨earlier, panel, before.trans (List.prefix_append drained more), rest⟩

structure Tracks (capacity : Nat) (sent : List Event) (s : Session) (drained waiting : List (Report Event)) : Prop where
  batch : s.batch.getD [] = waiting.map received
  books : Books capacity s.events sent (drained ++ waiting)
  ring : s.dashboard.log.buf = Window.last logCapacity (journal (drained.map received))
  cap : s.dashboard.log.cap = logCapacity

theorem tracks_new (capacity : Nat) : Tracks capacity [] .new [] [] := ⟨rfl, Receiver.books_empty capacity, rfl, rfl⟩

-- A finished drain that found nothing more has covered everything sent.
theorem tracks_whole (capacity : Nat) (sent : List Event) (s : Session) (drained waiting : List (Report Event))
    (tracks : Tracks capacity sent s drained waiting) (idle : s.batch = none) (nothing : s.events.backlog = 0) : Covers drained sent := by
  obtain ⟨done, gap, whole, missed, covers⟩ := tracks.books.covered
  have unread : waiting = [] := by
    have batch := tracks.batch
    rw [idle] at batch
    exact List.map_eq_nil_iff.mp batch.symm
  obtain ⟨empty, level⟩ := Nat.add_eq_zero_iff.mp nothing
  rw [level] at missed
  rw [whole, List.length_eq_zero_iff.mp missed, List.length_eq_zero_iff.mp empty]
  simpa [unread] using covers

theorem tracks_shows (capacity : Nat) (screen : Screen) (sent : List Event) (s : Session) (drained waiting : List (Report Event))
    (tracks : Tracks capacity sent s drained waiting) : Shows drained (render screen s.dashboard) := by
  obtain ⟨panel, drawn, piece⟩ := render_log_infix screen s.dashboard
  rw [tracks.ring] at piece
  exact ⟨drained, panel, List.prefix_refl drained, drawn, piece.trans (List.drop_suffix _ _).isInfix⟩

theorem step_tracks (capacity : Nat) (screen : Screen) (positive : 0 < capacity) (sent : List Event) (s after : Session) (act : Act)
    (made : List Drawn) (drained waiting : List (Report Event)) (tracks : Tracks capacity sent s drained waiting)
    (steps : Steps capacity screen s act after made) :
    ∃ more rest, Tracks capacity (sent ++ act.sent.toList) after (drained ++ more) rest ∧
      ∀ drawn ∈ made, Shows (drained ++ more) drawn := by
  obtain ⟨batch, books, ring, cap⟩ := tracks
  cases steps with
  | send ev =>
      refine ⟨[], waiting, ⟨batch, ?_, by simpa using ring, cap⟩, by simp⟩
      rw [List.append_nil]
      exact Receiver.books_send capacity s.events sent _ ev positive books
  | tick idle =>
      rw [idle] at batch
      exact ⟨[], waiting, ⟨batch, by simpa [Act.sent] using books, by simpa using ring, cap⟩, by simp⟩
  | poll read report events draining unswept took =>
      rw [draining] at batch
      refine ⟨[], waiting ++ [report], ⟨?_, ?_, by simpa using ring, cap⟩, by simp⟩
      · rw [List.map_append, ← batch]
        rfl
      · have next := Receiver.books_report capacity 1 s.events events sent _ report books took
        simpa [Act.sent] using next
  | swept read draining empty =>
      exact ⟨[], waiting, ⟨batch, by simpa [Act.sent] using books, by simpa using ring, cap⟩, by simp⟩
  | sample now conns read draining flag =>
      rw [draining, Option.getD_some] at batch
      obtain ⟨last, capped⟩ := drain_events_last s.dashboard.log (journal (drained.map received)) read (by rw [cap]; exact ring)
      have next : Tracks capacity sent
          { s with dashboard := Tui.tick screen.height s.dashboard now read conns, batch := none, swept := false }
          (drained ++ waiting) [] := by
        refine ⟨rfl, by simpa using books, ?_, ?_⟩
        · rw [tick_log, last, cap, batch, List.map_append, journal, journal, List.foldl_append]
        · rw [tick_log, capped, cap]
      have drew := tracks_shows capacity screen sent _ _ _ next
      refine ⟨waiting, [], by simpa [Act.sent] using next, ?_⟩
      intro drawn member
      rw [List.mem_singleton.mp member]
      exact drew
  | key action idle stays =>
      have next : Tracks capacity sent { s with dashboard := press screen s.dashboard action } drained waiting := by
        refine ⟨batch, books, ?_, ?_⟩
        · rw [press_log, ring]
        · rw [press_log, cap]
      have drew := tracks_shows capacity screen sent _ _ _ next
      refine ⟨[], waiting, by simpa [Act.sent] using next, ?_⟩
      intro drawn member
      rw [List.mem_singleton.mp member, List.append_nil]
      exact drew

theorem run_tracks (capacity : Nat) (screen : Screen) (positive : 0 < capacity) (acts : List Act) (outputs : List Drawn) (s : Session)
    (run : (session capacity screen).Run .new acts outputs s) :
    ∃ drained waiting, Tracks capacity (sentBy acts) s drained waiting ∧ ∀ drawn ∈ outputs, Shows drained drawn := by
  refine (session capacity screen).run_invariant .new
    (fun acts outputs s => ∃ drained waiting, Tracks capacity (sentBy acts) s drained waiting ∧ ∀ drawn ∈ outputs, Shows drained drawn)
    ⟨[], [], tracks_new capacity, by simp⟩ ?_ acts outputs s run
  intro acts outputs s act after made held stepped
  obtain ⟨drained, waiting, tracks, shows⟩ := held
  obtain ⟨more, rest, next, drew⟩ := step_tracks capacity screen positive _ s after act made drained waiting tracks
    (session_steps capacity screen s after act made stepped)
  refine ⟨drained ++ more, rest, by rw [sent_by_snoc]; exact next, ?_⟩
  intro drawn member
  rcases List.mem_append.mp member with earlier | now
  · exact shows_longer drained more drawn (shows drawn earlier)
  · exact drew drawn now

-- The log accounts for everything sent: the ring is the end of the log that drops no line.
theorem log_accounts (capacity : Nat) (screen : Screen) (positive : 0 < capacity) (acts : List Act) (outputs : List Drawn) (s : Session)
    (run : (session capacity screen).Run .new acts outputs s) :
    ∃ drained waiting done gap, s.batch.getD [] = waiting.map received ∧
      sentBy acts = done ++ (gap ++ s.events.queue) ∧ gap.length = s.events.lagged ∧ Covers (drained ++ waiting) done ∧
      s.dashboard.log.buf = Window.last logCapacity (journal (drained.map received)) ∧ ∀ drawn ∈ outputs, Shows drained drawn := by
  obtain ⟨drained, waiting, tracks, shows⟩ := run_tracks capacity screen positive acts outputs s run
  obtain ⟨done, gap, whole, missed, covers⟩ := tracks.books.covered
  exact ⟨drained, waiting, done, gap, tracks.batch, whole, missed, covers, tracks.ring, shows⟩

-- With room for one event, the log says that the first of two was dropped.
theorem log_accounts_dropped : ∃ outputs s drained, (session 1 ⟨24, by decide⟩).Run .new
      [.send (.log "a"), .send (.log "b"), .tick, .poll, .poll, .swept, .sample 0 []] outputs s ∧
    s.dashboard.log.buf = Window.last logCapacity (journal (drained.map received)) ∧ Covers drained [.log "a", .log "b"] := by
  have run := (session 1 ⟨24, by decide⟩).exec_run .new
    [.send (.log "a"), .send (.log "b"), .tick, .poll, .poll, .swept, .sample 0 []] _ _ rfl
  obtain ⟨drained, waiting, done, gap, batch, whole, missed, covers, ring, _⟩ := log_accounts 1 ⟨24, by decide⟩ (by decide) _ _ _ run
  have nothing : waiting = [] := List.map_eq_nil_iff.mp batch.symm
  have level : gap = [] := List.length_eq_zero_iff.mp missed
  have all : [.log "a", .log "b"] = done ++ (gap ++ []) := whole
  refine ⟨_, _, drained, run, ring, ?_⟩
  rw [all, level, List.append_nil, List.append_nil]
  simpa [nothing] using covers

theorem appended_conn_id (ev : Event) : (appended (.event ev)).bind LogLine.connId = connectId ev := by
  cases ev <;> rfl

theorem connect_ids_read (reports : List (Report Event)) :
    connectIds (reports.map received) = (reports.filterMap Report.taken).filterMap connectId := by
  induction reports with
  | nil => rfl
  | cons report reports ih =>
      rw [List.map_cons, connectIds, List.filterMap_cons, ← connectIds, ih]
      cases report with
      | value ev =>
          have own : (appended (received (.value ev))).bind LogLine.connId = connectId ev := appended_conn_id ev
          have cutEarlier : (Receiver.Report.value ev :: reports).filterMap Report.taken = ev :: reports.filterMap Report.taken := rfl
          rw [own, cutEarlier, List.filterMap_cons]
      | missed n => rfl

theorem tracks_shown (capacity : Nat) (sent : List Event) (s : Session) (drained waiting earlier : List (Report Event))
    (once : (sent.filterMap connectId).Nodup) (tracks : Tracks capacity sent s drained waiting) (before : earlier <+: drained) :
    ((drained ++ waiting).filterMap Report.taken).Sublist sent ∧ journal (earlier.map received) = shown (earlier.map received) := by
  obtain ⟨done, gap, whole, missed, covers⟩ := tracks.books.covered
  have taken : ((drained ++ waiting).filterMap Report.taken).Sublist sent := by
    rw [whole]
    exact (Receiver.covers_sublist _ _ covers).trans (List.sublist_append_left done _)
  refine ⟨taken, journal_shown _ ?_⟩
  rw [connect_ids_read]
  have part := (before.trans (List.prefix_append drained waiting)).sublist.filterMap Report.taken
  exact once.sublist ((part.trans taken).filterMap connectId)

-- A line of the log says that its connection closed exactly when the close was read after it.
theorem log_closes (capacity : Nat) (screen : Screen) (positive : 0 < capacity) (acts : List Act) (outputs : List Drawn) (s : Session)
    (run : (session capacity screen).Run .new acts outputs s) (once : ((sentBy acts).filterMap connectId).Nodup) :
    ∃ drained waiting, s.batch.getD [] = waiting.map received ∧
      (((drained ++ waiting).filterMap Report.taken).Sublist (sentBy acts)) ∧
      s.dashboard.log.buf = Window.last logCapacity (shown (drained.map received)) ∧
      (s.batch = none → s.events.backlog = 0 → Covers drained (sentBy acts)) ∧
      ∀ drawn ∈ outputs, ∃ earlier panel, earlier <+: drained ∧ drawn.log = some panel ∧ panel.rows <:+: shown (earlier.map received) := by
  obtain ⟨drained, waiting, tracks, shows⟩ := run_tracks capacity screen positive acts outputs s run
  have known (earlier : List (Report Event)) (before : earlier <+: drained) :=
    tracks_shown capacity _ s drained waiting earlier once tracks before
  obtain ⟨taken, last⟩ := known drained (List.prefix_refl drained)
  refine ⟨drained, waiting, tracks.batch, taken, ?_, ?_, ?_⟩
  · rw [tracks.ring, last]
  · exact tracks_whole capacity _ s drained waiting tracks
  · intro drawn member
    obtain ⟨earlier, panel, before, drew, piece⟩ := shows drawn member
    rw [(known earlier before).2] at piece
    exact ⟨earlier, panel, before, drew, piece⟩

theorem log_closes_one : ∃ outputs s drained, (session 16 ⟨24, by decide⟩).Run .new
      [.send (.connect 1 (.v4 (.new 127 0 0 1) 9) "x:1" .connect), .send (.closed 1), .tick, .poll, .poll, .swept, .sample 0 []] outputs s ∧
    s.dashboard.log.buf = Window.last logCapacity (shown (drained.map received)) ∧
    Covers drained [.connect 1 (.v4 (.new 127 0 0 1) 9) "x:1" .connect, .closed 1] := by
  have run := (session 16 ⟨24, by decide⟩).exec_run .new
    [.send (.connect 1 (.v4 (.new 127 0 0 1) 9) "x:1" .connect), .send (.closed 1), .tick, .poll, .poll, .swept, .sample 0 []] _ _ rfl
  obtain ⟨drained, _, _, _, ring, whole, _⟩ := log_closes 16 ⟨24, by decide⟩ (by decide) _ _ _ run (by decide)
  exact ⟨_, _, drained, run, ring, whole rfl rfl⟩

end Tui

end NextSocks5
