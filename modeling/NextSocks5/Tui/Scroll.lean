import NextSocks5.Tui.Dashboard

set_option autoImplicit false

namespace NextSocks5

namespace Tui

def shownConnections (screen : Screen) (s : DashboardState) : ScrollWindow :=
  connWindow screen.mainRow s.connections.length s.connScroll

def connMax (screen : Screen) (s : DashboardState) : Nat := s.connections.length - max (panelAvail screen.height).1 1

-- With the connections focused, the first row shown moves by the key's count, up to the rows hidden on that side.
def Moves (screen : Screen) (s : DashboardState) : Input → Prop
  | .key (.scrollUp n) => s.focus = .connections →
      (shownConnections screen (press screen s (.scrollUp n))).start + min n (shownConnections screen s).above =
        (shownConnections screen s).start
  | .key (.scrollDown n) => s.focus = .connections →
      (shownConnections screen (press screen s (.scrollDown n))).start =
        (shownConnections screen s).start + min n (shownConnections screen s).below
  | _ => True

-- A key up finds the offset where it is drawn, or all that it asks for is the top or nothing.
def Settled (screen : Screen) (s : DashboardState) : Input → Prop
  | .key (.scrollUp n) => s.focus = .connections → s.connScroll ≤ connMax screen s ∨ n = 0 ∨ connMax screen s = 0 ∨ s.connScroll ≤ n
  | _ => True

def Covered (screen : Screen) (s : DashboardState) : Input → Prop
  | .tick _ _ conns => s.connScroll ≤ conns.length - max (panelAvail screen.height).1 1
  | .key _ => True

theorem shown_connections (screen : Screen) (s : DashboardState) :
    (shownConnections screen s).start = min s.connScroll (connMax screen s) ∧
      (shownConnections screen s).above = min s.connScroll (connMax screen s) ∧
      (shownConnections screen s).below = connMax screen s - s.connScroll := by
  refine ⟨rfl, rfl, ?_⟩
  simp only [shownConnections, connWindow, scrollWindow, connMax, panel_avail_conn]
  omega

theorem press_up (screen : Screen) (s : DashboardState) (n : Nat) (focused : s.focus = .connections) :
    press screen s (.scrollUp n) = { s with connScroll := s.connScroll - n } := by
  simp only [press, applyAction, focused]

theorem press_down (screen : Screen) (s : DashboardState) (n : Nat) (focused : s.focus = .connections) :
    press screen s (.scrollDown n) = { s with connScroll := min (s.connScroll + n) (connMax screen s) } := by
  simp only [press, applyAction, focused, connMax]

theorem moves_iff_settled (screen : Screen) (s : DashboardState) (input : Input) : Moves screen s input ↔ Settled screen s input := by
  obtain ⟨start, above, below⟩ := shown_connections screen s
  cases input with
  | tick _ _ _ => exact Iff.rfl
  | key action =>
      cases action with
      | quit | cycleSort | switchFocus => exact Iff.rfl
      | scrollUp n =>
          refine forall_congr' ?_
          intro focused
          have next : (shownConnections screen { s with connScroll := s.connScroll - n }).start =
              min (s.connScroll - n) (connMax screen s) := (shown_connections screen _).1
          rw [press_up screen s n focused, next, above, start]
          -- past the last offset the count is lost, and what is drawn is still the last page
          omega
      | scrollDown n =>
          refine iff_of_true ?_ trivial
          intro focused
          have next : (shownConnections screen { s with connScroll := min (s.connScroll + n) (connMax screen s) }).start =
              min (min (s.connScroll + n) (connMax screen s)) (connMax screen s) := (shown_connections screen _).1
          rw [press_down screen s n focused, next, below, start]
          omega

theorem tick_connections (screen : Screen) (s : DashboardState) (now : Nat) (batch : List Received) (conns : List ConnInfo) :
    (tick screen.height s now batch conns).connections.length = conns.length ∧
      (tick screen.height s now batch conns).connScroll = s.connScroll ∧ (tick screen.height s now batch conns).focus = s.focus := by
  refine ⟨?_, ?_, ?_⟩
  · simp only [tick]
    exact sort_connections_length conns _ _
  · simp only [tick, anchor]
    split <;> rfl
  · simp only [tick, anchor]
    split <;> rfl

-- No key leaves the offset past the last page, so only a tick can.
theorem settled_step (screen : Screen) (s : DashboardState) (input : Input) (after : DashboardState) (drawn : List Drawn)
    (settled : s.connScroll ≤ connMax screen s) (covered : Covered screen s input)
    (stepped : (machine screen).step s input = some (after, drawn)) : after.connScroll ≤ connMax screen after := by
  cases input with
  | tick now batch conns =>
      obtain ⟨length, scroll, _⟩ := tick_connections screen s now batch conns
      cases stepped
      rw [connMax, length, scroll]
      exact covered
  | key action =>
      cases action with
      | quit => cases stepped
      | cycleSort =>
          cases stepped
          exact Nat.zero_le _
      | switchFocus =>
          cases stepped
          exact settled
      | scrollUp n =>
          cases stepped
          cases focus : s.focus with
          | connections =>
              rw [press_up screen s n focus]
              exact (Nat.sub_le _ n).trans settled
          | log => simpa only [press, applyAction, focus, connMax] using settled
      | scrollDown n =>
          cases stepped
          cases focus : s.focus with
          | connections =>
              rw [press_down screen s n focus]
              exact Nat.min_le_right _ _
          | log => simpa only [press, applyAction, focus, connMax] using settled

theorem scroll_keys_iff (screen : Screen) (inputs : List Input) :
    ((machine screen).Throughout .new (Moves screen) inputs ↔ (machine screen).Throughout .new (Settled screen) inputs) ∧
      ((machine screen).Throughout .new (Covered screen) inputs → (machine screen).Throughout .new (Moves screen) inputs) := by
  have same := (machine screen).throughout_congr .new (Moves screen) (Settled screen)
    (fun s input _ => moves_iff_settled screen s input) inputs
  refine ⟨same, ?_⟩
  intro covered
  refine same.mpr ((machine screen).throughout_consequence .new (Covered screen) (Settled screen)
    (fun s => s.connScroll ≤ connMax screen s) (Nat.zero_le _) (settled_step screen) ?_ inputs covered)
  intro s input settled _
  cases input with
  | tick _ _ _ => trivial
  | key action =>
      cases action with
      | quit | cycleSort | switchFocus | scrollDown _ => trivial
      | scrollUp n => exact fun _ => .inl settled

-- Thirteen connections with three rows to show them; after the page down eight of them close.
def thirteen : List ConnInfo := (List.range 13).map fun id => ⟨id, .v4 (.new 127 0 0 1) 40000, "example.test:80", .connect, 0, 0⟩

theorem scroll_keys_break :
    ¬ ∀ (screen : Screen) (inputs : List Input), (machine screen).Throughout .new (Moves screen) inputs := by
  intro always
  let screen : Screen := ⟨20, by decide⟩
  let opened := tick 20 .new 0 [] thirteen
  let paged := press screen opened (.scrollDown 10)
  let closed := tick 20 paged 1 [] (thirteen.take 5)
  have run := (machine screen).exec_run .new [.tick 0 [] thirteen, .key (.scrollDown 10), .tick 1 [] (thirteen.take 5)] _ closed rfl
  obtain ⟨openedLength, openedScroll, openedFocus⟩ := tick_connections screen .new 0 [] thirteen
  obtain ⟨closedLength, closedScroll, closedFocus⟩ := tick_connections screen paged 1 [] (thirteen.take 5)
  have down : paged = { opened with connScroll := min (opened.connScroll + 10) (connMax screen opened) } :=
    press_down screen opened 10 openedFocus
  have pagedScroll : paged.connScroll = 10 := by
    rw [down]
    change min (opened.connScroll + 10) (opened.connections.length - 3) = 10
    rw [openedScroll, openedLength]
    rfl
  have last : connMax screen closed = 2 := by
    change closed.connections.length - 3 = 2
    rw [closedLength]
    rfl
  have focused : closed.focus = .connections := by rw [closedFocus, down]; exact openedFocus
  have moves := always screen _ _ (.key (.scrollUp 1)) [] _ closed rfl run
  have settled := (moves_iff_settled screen closed (.key (.scrollUp 1))).mp moves focused
  rw [last, closedScroll, pagedScroll] at settled
  omega

end Tui

end NextSocks5
