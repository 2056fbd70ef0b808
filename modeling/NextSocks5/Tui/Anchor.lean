import NextSocks5.Tui.Dashboard

set_option autoImplicit false

namespace NextSocks5

namespace Tui

section

variable {α β : Type}

theorem map_modify_first (f : α → β) (p : α → Bool) (change : α → α) (q : β → Bool) (turn : β → β)
    (tested : ∀ item, q (f item) = p item) (changed : ∀ item, f (change item) = turn (f item)) (items : List α) :
    (modifyFirst p change items).map f = modifyFirst q turn (items.map f) := by
  induction items with
  | nil => rfl
  | cons item items ih =>
      rw [List.map_cons, modifyFirst, modifyFirst, tested]
      split
      · rw [List.map_cons, changed]
      · rw [List.map_cons, ih]

theorem modify_first_keeps (f : α → β) (p : α → Bool) (change : α → α) (kept : ∀ item, f (change item) = f item) (items : List α) :
    (modifyFirst p change items).map f = items.map f := by
  induction items with
  | nil => rfl
  | cons item items ih =>
      rw [modifyFirst]
      split
      · rw [List.map_cons, List.map_cons, kept]
      · rw [List.map_cons, List.map_cons, ih]

theorem map_push (f : α → β) (cap : Nat) (items : List α) (item : α) :
    (Window.push cap items item).map f = Window.push cap (items.map f) (f item) := by
  rw [Window.push, Window.push, List.length_map]
  split <;> simp

end

-- The ring with a serial number on every line: an appended line takes the next
-- number, and a line that is updated in place keeps its own.
def numberEvent (cap : Nat) (lines : List (Nat × LogLine)) (next : Nat) : Received → List (Nat × LogLine) × Nat
  | .event (.closed id) =>
      ((modifyFirst (fun line => line.2.opens id) (fun line => (line.1, line.2.close)) lines.reverse).reverse, next)
  | .event ev => (Window.push cap lines (next, ⟨severityOf ev, formatEvent ev, connectId ev⟩), next + 1)
  | .lagged n => (Window.push cap lines (next, ⟨.warn, s!"(log lagged, dropped {n} events)", none⟩), next + 1)

def numberEvents (cap : Nat) (lines : List (Nat × LogLine)) (next : Nat) : List Received → List (Nat × LogLine) × Nat
  | [] => (lines, next)
  | received :: batch =>
      let (lines, next) := numberEvent cap lines next received
      numberEvents cap lines next batch

def number (lines : List LogLine) : List (Nat × LogLine) := lines.zipIdx.map Prod.swap

theorem number_lines (lines : List LogLine) : (number lines).map Prod.snd = lines := by
  simp [number, Function.comp_def]

theorem number_serials (lines : List LogLine) : (number lines).map Prod.fst = List.range lines.length := by
  simp [number, Function.comp_def, List.range_eq_range']

theorem number_event_lines (log : LogRing) (lines : List (Nat × LogLine)) (next : Nat) (received : Received)
    (same : lines.map Prod.snd = log.buf) :
    (numberEvent log.cap lines next received).1.map Prod.snd = (drainEvent log received).1.buf ∧
      (drainEvent log received).1.cap = log.cap := by
  cases received with
  | lagged n =>
      refine ⟨?_, rfl⟩
      rw [numberEvent, map_push, same]
      rfl
  | event ev =>
      cases ev with
      | closed id =>
          refine ⟨?_, rfl⟩
          have erased := map_modify_first Prod.snd (fun line : Nat × LogLine => line.2.opens id) (fun line => (line.1, line.2.close))
            (LogLine.opens id) LogLine.close (fun _ => rfl) (fun _ => rfl) lines.reverse
          rw [numberEvent, List.map_reverse, erased, List.map_reverse, same]
          rfl
      | connect | auth | error | log =>
          refine ⟨?_, rfl⟩
          rw [numberEvent, map_push, same]
          · rfl
          · simp

theorem number_event_serials (log : LogRing) (lines : List (Nat × LogLine)) (next : Nat) (received : Received) :
    (numberEvent log.cap lines next received).1.map Prod.fst =
        (List.range' next (drainEvent log received).2).foldl (Window.push log.cap) (lines.map Prod.fst) ∧
      (numberEvent log.cap lines next received).2 = next + (drainEvent log received).2 := by
  cases received with
  | lagged n => exact ⟨map_push Prod.fst log.cap lines _, rfl⟩
  | event ev =>
      cases ev with
      | closed id =>
          refine ⟨?_, rfl⟩
          have kept := modify_first_keeps Prod.fst (fun line : Nat × LogLine => line.2.opens id) (fun line => (line.1, line.2.close))
            (fun _ => rfl) lines.reverse
          rw [numberEvent, List.map_reverse, kept, List.map_reverse, List.reverse_reverse]
          rfl
      | connect | auth | error | log => exact ⟨map_push Prod.fst log.cap lines _, rfl⟩

theorem number_events_lines (log : LogRing) (lines : List (Nat × LogLine)) (next : Nat) (batch : List Received)
    (same : lines.map Prod.snd = log.buf) :
    (numberEvents log.cap lines next batch).1.map Prod.snd = (drainEvents log batch).1.buf ∧
      (drainEvents log batch).1.cap = log.cap := by
  induction batch generalizing log lines next with
  | nil => exact ⟨same, rfl⟩
  | cons received batch ih =>
      obtain ⟨first, cap⟩ := number_event_lines log lines next received same
      obtain ⟨rest, capped⟩ := ih (drainEvent log received).1 _ (numberEvent log.cap lines next received).2 first
      rw [cap] at rest
      exact ⟨rest, capped.trans cap⟩

theorem number_events_serials (log : LogRing) (lines : List (Nat × LogLine)) (next : Nat) (batch : List Received)
    (same : lines.map Prod.snd = log.buf) :
    (numberEvents log.cap lines next batch).1.map Prod.fst =
      (List.range' next (drainEvents log batch).2).foldl (Window.push log.cap) (lines.map Prod.fst) := by
  induction batch generalizing log lines next with
  | nil => rfl
  | cons received batch ih =>
      obtain ⟨first, cap⟩ := number_event_lines log lines next received same
      obtain ⟨serials, nextEq⟩ := number_event_serials log lines next received
      have rest := ih (drainEvent log received).1 _ (numberEvent log.cap lines next received).2 first
      rw [cap] at rest
      refine rest.trans ?_
      rw [serials, nextEq, ← List.foldl_append, List.range'_append_1]
      rfl

theorem kept_serials (log : LogRing) (batch : List Received) :
    (numberEvents log.cap (number log.buf) log.len batch).1.map Prod.fst =
      Window.last log.cap (List.range (log.len + (drainEvents log batch).2)) := by
  have pushed := number_events_serials log (number log.buf) log.len batch (number_lines log.buf)
  have whole : List.range log.len = Window.last log.cap (List.range log.len) := by
    rw [Window.last_whole]
    rw [List.length_range]
    exact log.bounded
  rw [pushed, number_serials]
  change List.foldl _ (List.range log.len) _ = _
  rw [whole, Window.replay_last log.cap _ _ log.positive, List.range_eq_range', List.range_eq_range', ← List.range'_append_1,
    Nat.zero_add]

theorem drained_length (log : LogRing) (batch : List Received) :
    (drainEvents log batch).1.len = min (log.len + (drainEvents log batch).2) log.cap := by
  have serials := congrArg List.length (kept_serials log batch)
  obtain ⟨lines, _⟩ := number_events_lines log (number log.buf) log.len batch (number_lines log.buf)
  have sized := congrArg List.length lines
  rw [List.length_map, Window.last_length, List.length_range] at serials
  rw [List.length_map] at sized
  rw [LogRing.len, ← sized, serials]

theorem log_rows_map {α β : Type} (f : α → β) (areaHeight logScroll : Nat) (lines : List α) :
    logRows areaHeight logScroll (lines.map f) = (logRows areaHeight logScroll lines).map (List.map f) := by
  simp only [logRows, lineRange, List.length_map]
  split
  · rw [Option.map_some, List.map_drop, List.map_take]
  · rfl

theorem log_rows_head {α : Type} (areaHeight logScroll : Nat) (lines : List α) (nonempty : 0 < lines.length) :
    ∃ row rows, logRows areaHeight logScroll lines = some (row :: rows) ∧
      lines[lines.length - max (areaHeight - 2) 1 - logScroll]? = some row := by
  have shown := scroll_window_shown lines.length (areaHeight - 2) (lines.length - max (areaHeight - 2) 1 - logScroll) nonempty
  obtain ⟨_, stop, _⟩ := scroll_window_total lines.length (areaHeight - 2) (lines.length - max (areaHeight - 2) 1 - logScroll)
  have start : (logWindow areaHeight lines.length logScroll).start = lines.length - max (areaHeight - 2) 1 - logScroll := by
    simp only [logWindow, scrollWindow]
    omega
  change 0 < (logWindow areaHeight lines.length logScroll).shown at shown
  change (logWindow areaHeight lines.length logScroll).start + (logWindow areaHeight lines.length logScroll).shown ≤ lines.length at stop
  rw [start] at stop
  have inside : lines.length - max (areaHeight - 2) 1 - logScroll < lines.length := by omega
  refine ⟨lines[lines.length - max (areaHeight - 2) 1 - logScroll],
    (lines.take (lines.length - max (areaHeight - 2) 1 - logScroll +
      (logWindow areaHeight lines.length logScroll).shown)).drop (lines.length - max (areaHeight - 2) 1 - logScroll + 1), ?_, ?_⟩
  · simp only [logRows, lineRange]
    rw [start, if_pos ⟨Nat.le_add_right _ _, stop⟩, List.drop_eq_getElem_cons (by rw [List.length_take]; omega), List.getElem_take]
  · exact List.getElem?_eq_getElem inside

-- The clamps cancel: the top of the view goes up by what was evicted and no more.
theorem top_slides (cap len added avail offset : Nat) (bounded : len ≤ cap) :
    min (len + added) cap - avail - min (offset + added) (min (len + added) cap - avail) =
      len - avail - offset - (len + added - cap) := by
  omega

theorem tick_log (termHeight : UInt16) (s : DashboardState) (now : Nat) (batch : List Received) (conns : List ConnInfo) :
    (tick termHeight s now batch conns).log = (drainEvents s.log batch).1 := by
  simp only [tick, anchor]
  split <;> rfl

theorem tick_log_scroll (termHeight : UInt16) (s : DashboardState) (now : Nat) (batch : List Received) (conns : List ConnInfo)
    (scrolled : 0 < s.logScroll) :
    (tick termHeight s now batch conns).logScroll =
      min (s.logScroll + (drainEvents s.log batch).2) ((drainEvents s.log batch).1.len - (panelAvail termHeight).2) := by
  simp only [tick, anchor]
  rw [if_pos scrolled]

theorem number_get (lines : List LogLine) (n : Nat) (line : Nat × LogLine) (found : (number lines)[n]? = some line) : line.1 = n := by
  have serial := congrArg (Option.map Prod.fst) found
  rw [← List.getElem?_map, number_serials] at serial
  exact (List.getElem?_eq_some_iff.mp serial).2.symm.trans (List.getElem_range _)

theorem kept_get (log : LogRing) (batch : List Received) (n : Nat) (line : Nat × LogLine)
    (found : (numberEvents log.cap (number log.buf) log.len batch).1[n]? = some line) :
    line.1 = log.len + (drainEvents log batch).2 - log.cap + n := by
  have serial := congrArg (Option.map Prod.fst) found
  rw [← List.getElem?_map, kept_serials, Window.last_get, List.length_range] at serial
  exact (List.getElem?_eq_some_iff.mp serial).2.symm.trans (List.getElem_range _)

theorem kept_iff (log : LogRing) (batch : List Received) (serial : Nat) (handed : serial < log.len + (drainEvents log batch).2) :
    serial ∈ (numberEvents log.cap (number log.buf) log.len batch).1.map Prod.fst ↔
      log.len + (drainEvents log batch).2 - log.cap ≤ serial := by
  have found : (List.range (log.len + (drainEvents log batch).2))[serial]? = some serial := List.getElem?_range handed
  have keptExactly := Window.last_mem_iff log.cap _ List.nodup_range serial serial found
  rw [List.length_range] at keptExactly
  rw [kept_serials]
  exact keptExactly

theorem render_log_rows (screen : Screen) (s : DashboardState) (lines : List (Nat × LogLine)) (rows : List (Nat × LogLine))
    (same : lines.map Prod.snd = s.log.buf) (drawn : logRows screen.mainRow s.logScroll lines = some rows) :
    (render screen s).log.map Panel.rows = some (rows.map Prod.snd) := by
  have mapped := log_rows_map Prod.snd screen.mainRow s.logScroll lines
  rw [same, drawn] at mapped
  simp only [render, renderLog]
  rw [Option.map_map, mapped]
  rfl

theorem log_view_anchored (screen : Screen) (s : DashboardState) (now : Nat) (batch : List Received) (conns : List ConnInfo)
    (scrolled : 0 < s.logScroll) (within : s.logScroll ≤ s.log.len) :
    let after := tick screen.height s now batch conns
    let kept := (numberEvents s.log.cap (number s.log.buf) s.log.len batch).1
    let window := logWindow screen.mainRow after.log.len after.logScroll
    kept.map Prod.snd = after.log.buf ∧ (kept.map Prod.fst).Nodup ∧
      (∃ top rows first rest, logRows screen.mainRow s.logScroll (number s.log.buf) = some (top :: rows) ∧
        logRows screen.mainRow after.logScroll kept = some (first :: rest) ∧
        (render screen s).log.map Panel.rows = some ((top :: rows).map Prod.snd) ∧
        (render screen after).log.map Panel.rows = some ((first :: rest).map Prod.snd) ∧
        (top.1 ∈ kept.map Prod.fst → first.1 = top.1) ∧ (top.1 ∉ kept.map Prod.fst → kept.head? = some first)) ∧
      window.start + window.shown ≤ after.log.len ∧ window.above + window.shown + window.below = after.log.len := by
  intro after kept window
  have tall := main_row_tall screen
  have avail : max (screen.mainRow - 2) 1 = screen.mainRow - 2 := by omega
  have log : after.log = (drainEvents s.log batch).1 := tick_log screen.height s now batch conns
  have scroll := tick_log_scroll screen.height s now batch conns scrolled
  have sized := drained_length s.log batch
  obtain ⟨lines, _⟩ := number_events_lines s.log (number s.log.buf) s.log.len batch (number_lines s.log.buf)
  have same : kept.map Prod.snd = after.log.buf := by rw [log]; exact lines
  have keptLength : kept.length = min (s.log.len + (drainEvents s.log batch).2) s.log.cap := by
    rw [← sized, LogRing.len, ← lines, List.length_map]
  have numbered : (number s.log.buf).length = s.log.len := by
    rw [LogRing.len, ← List.length_map Prod.snd, number_lines]
  have positive := s.log.positive
  obtain ⟨top, rows, drawn, topAt⟩ := log_rows_head screen.mainRow s.logScroll (number s.log.buf) (by omega)
  obtain ⟨first, rest, redrawn, firstAt⟩ := log_rows_head screen.mainRow after.logScroll kept (by omega)
  have slides := top_slides s.log.cap s.log.len (drainEvents s.log batch).2 (screen.mainRow - 2) s.logScroll s.log.bounded
  rw [numbered, avail] at topAt
  rw [avail, scroll, panel_avail_log, sized, keptLength, slides] at firstAt
  have topSerial := number_get s.log.buf _ top topAt
  have firstSerial := kept_get s.log batch _ first firstAt
  have keptExactly := kept_iff s.log batch top.1 (by omega)
  refine ⟨same, ?_, ⟨top, rows, first, rest, drawn, redrawn, ?_, ?_, ?_, ?_⟩, ?_⟩
  · rw [kept_serials]
    exact List.nodup_range.sublist (List.drop_sublist _ _)
  · exact render_log_rows screen s _ _ (number_lines s.log.buf) drawn
  · exact render_log_rows screen after _ _ same redrawn
  · intro retained
    have late := keptExactly.mp retained
    omega
  · intro evicted
    have early := Nat.lt_of_not_le (mt keptExactly.mpr evicted)
    rw [List.head?_eq_getElem?]
    rwa [Nat.sub_eq_zero_of_le (by omega)] at firstAt
  · obtain ⟨_, stop, parts⟩ := scroll_window_total after.log.len (screen.mainRow - 2)
      (after.log.len - max (screen.mainRow - 2) 1 - after.logScroll)
    exact ⟨stop, parts⟩

def scrolledBack : DashboardState where
  log := ⟨(List.range 6).map fun id => ⟨.info, s!"[#{id}] CONNECT", some id⟩, 6, by decide, by decide⟩
  connections := []
  firstSeen := fun _ => none
  sort := .id
  focus := .log
  connScroll := 0
  logScroll := 1

theorem log_view_anchored_evicted :
    let kept := (numberEvents 6 (number scrolledBack.log.buf) 6 [.event (.closed 3), .event (.log "x"), .lagged 2]).1
    ∃ first rest, first.1 = 2 ∧ logRows 6 2 kept = some (first :: rest) ∧ kept.head? = some first := by
  intro kept
  obtain ⟨_, _, ⟨top, rows, first, rest, drawn, redrawn, _, _, _, oldest⟩, _⟩ :=
    log_view_anchored ⟨20, by decide⟩ scrolledBack 0 [.event (.closed 3), .event (.log "x"), .lagged 2] [] (by decide) (by decide)
  have serials : kept.map Prod.fst = [2, 3, 4, 5, 6, 7] := rfl
  have before : (logRows 6 1 (number scrolledBack.log.buf)).map (List.map Prod.fst) = some [1, 2, 3, 4] := rfl
  have topIsOne : top.1 = 1 := by
    change logRows 6 1 (number scrolledBack.log.buf) = some (top :: rows) at drawn
    rw [drawn] at before
    exact (List.cons.inj (Option.some.inj before)).1
  have gone : top.1 ∉ kept.map Prod.fst := by
    rw [serials, topIsOne]
    decide
  have head : kept.head? = some first := oldest gone
  have firstSerial := congrArg (Option.map Prod.fst) head
  rw [← List.head?_map, serials] at firstSerial
  exact ⟨first, rest, (Option.some.inj firstSerial).symm, redrawn, head⟩

end Tui

end NextSocks5
