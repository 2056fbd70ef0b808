import NextSocks5.Tui.Anchor

set_option autoImplicit false

namespace NextSocks5

namespace Tui

def shownLog (screen : Screen) (s : DashboardState) : ScrollWindow := logWindow screen.mainRow s.log.len s.logScroll

def logMax (screen : Screen) (s : DashboardState) : Nat := s.log.len - max (panelAvail screen.height).2 1

def ownCount (s : DashboardState) (panel : Focus) (n : Nat) : Nat := if s.focus = panel then n else 0

-- A key moves the lines shown by its count, up to those hidden on that side, and a view of the newest line stays one.
def LogMoves (screen : Screen) (s : DashboardState) : Input → Prop
  | .tick now batch conns => (shownLog screen s).below = 0 → (shownLog screen (tick screen.height s now batch conns)).below = 0
  | .key (.scrollUp n) =>
      (shownLog screen (press screen s (.scrollUp n))).start + min (ownCount s .log n) (shownLog screen s).above =
        (shownLog screen s).start
  | .key (.scrollDown n) =>
      (shownLog screen (press screen s (.scrollDown n))).start =
        (shownLog screen s).start + min (ownCount s .log n) (shownLog screen s).below
  | .key action => shownLog screen (press screen s action) = shownLog screen s

theorem log_avail (screen : Screen) : max (screen.mainRow - 2) 1 = screen.mainRow - 2 := by
  have tall := main_row_tall screen
  omega

theorem shown_log (screen : Screen) (s : DashboardState) :
    (shownLog screen s).start = logMax screen s - s.logScroll ∧ (shownLog screen s).above = logMax screen s - s.logScroll ∧
      (shownLog screen s).below = min s.logScroll (logMax screen s) := by
  simp only [shownLog, logWindow, scrollWindow, logMax, panel_avail_log, log_avail]
  omega

theorem log_up (screen : Screen) (s : DashboardState) (n : Nat) :
    (press screen s (.scrollUp n)).log = s.log ∧
      (press screen s (.scrollUp n)).logScroll =
        if s.focus = .log then min (s.logScroll + n) (logMax screen s) else s.logScroll := by
  cases focus : s.focus with
  | connections => simp [press, applyAction, focus]
  | log => simp [press, applyAction, focus, logMax]

theorem log_down (screen : Screen) (s : DashboardState) (n : Nat) :
    (press screen s (.scrollDown n)).log = s.log ∧
      (press screen s (.scrollDown n)).logScroll = s.logScroll - ownCount s .log n := by
  cases focus : s.focus with
  | connections => simp [press, applyAction, focus, ownCount]
  | log => simp [press, applyAction, focus, ownCount]

theorem tick_tail (screen : Screen) (s : DashboardState) (now : Nat) (batch : List Received) (conns : List ConnInfo) :
    (s.logScroll = 0 → (tick screen.height s now batch conns).logScroll = 0) ∧
      (0 < s.logScroll → (tick screen.height s now batch conns).logScroll ≤ logMax screen (tick screen.height s now batch conns)) := by
  constructor
  · intro tail
    simp [tick, anchor, tail]
  · intro scrolled
    rw [tick_log_scroll screen.height s now batch conns scrolled, logMax, tick_log, panel_avail_log, log_avail]
    exact Nat.min_le_right _ _

theorem tail_step (screen : Screen) (s : DashboardState) (input : Input) (after : DashboardState) (drawn : List Drawn)
    (within : s.logScroll ≤ logMax screen s) (stepped : (machine screen).step s input = some (after, drawn)) :
    after.logScroll ≤ logMax screen after := by
  cases input with
  | tick now batch conns =>
      obtain ⟨tail, clamped⟩ := tick_tail screen s now batch conns
      cases stepped
      rcases Nat.eq_zero_or_pos s.logScroll with zero | scrolled
      · rw [tail zero]
        exact Nat.zero_le _
      · exact clamped scrolled
  | key action =>
      cases action with
      | quit => cases stepped
      | cycleSort | switchFocus =>
          cases stepped
          exact within
      | scrollUp n =>
          obtain ⟨log, scroll⟩ := log_up screen s n
          cases stepped
          rw [logMax, log, scroll]
          split
          · exact Nat.min_le_right _ _
          · exact within
      | scrollDown n =>
          obtain ⟨log, scroll⟩ := log_down screen s n
          cases stepped
          rw [logMax, log, scroll]
          exact (Nat.sub_le _ _).trans within

theorem within_moves (screen : Screen) (s : DashboardState) (input : Input) (within : s.logScroll ≤ logMax screen s) :
    LogMoves screen s input := by
  obtain ⟨start, above, below⟩ := shown_log screen s
  cases input with
  | tick now batch conns =>
      intro tail
      have zero : s.logScroll = 0 := by omega
      rw [(shown_log screen _).2.2, (tick_tail screen s now batch conns).1 zero]
      exact Nat.zero_min _
  | key action =>
      cases action with
      | quit | cycleSort | switchFocus => rfl
      | scrollUp n =>
          obtain ⟨log, scroll⟩ := log_up screen s n
          rw [LogMoves, (shown_log screen _).1, start, above, scroll, ownCount, logMax, log, ← logMax]
          split <;> omega
      | scrollDown n =>
          obtain ⟨log, scroll⟩ := log_down screen s n
          rw [LogMoves, (shown_log screen _).1, start, below, scroll, logMax, log, ← logMax]
          omega

-- Unlike the table, the log never keeps an offset that a key has to work off first.
theorem log_keys_move (screen : Screen) (inputs : List Input) : (machine screen).Throughout .new (LogMoves screen) inputs := by
  intro before input rest outputs s _ run
  refine within_moves screen s input ?_
  exact (machine screen).reachable_invariant .new (fun s => s.logScroll ≤ logMax screen s) (Nat.zero_le _)
    (fun s input after drawn within stepped => tail_step screen s input after drawn within stepped) s ⟨before, outputs, run⟩

end Tui

end NextSocks5
