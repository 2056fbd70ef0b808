import NextSocks5.Library.Machine
import NextSocks5.Tui.Widgets

set_option autoImplicit false

namespace NextSocks5

namespace Tui

def logCapacity : Nat := 1000

-- The part of the state that the two scrollable panels are drawn from.
structure DashboardState where
  log : LogRing
  connections : List ConnInfo
  firstSeen : Nat → Option Nat
  sort : SortKey
  focus : Focus
  connScroll : Nat
  logScroll : Nat

def DashboardState.new : DashboardState := ⟨.new logCapacity, [], fun _ => none, .id, .connections, 0, 0⟩

inductive Received where
  | event (ev : Event)
  | lagged (n : Nat)

def connectId : Event → Option Nat
  | .connect id _ _ _ => some id
  | _ => none

def drainEvent (log : LogRing) : Received → LogRing × Nat
  | .event (.closed id) => (log.markClosed id, 0)
  | .event ev => (log.push (severityOf ev) (formatEvent ev) (connectId ev), 1)
  | .lagged n => (log.push .warn s!"(log lagged, dropped {n} events)" none, 1)

def drainEvents (log : LogRing) : List Received → LogRing × Nat
  | [] => (log, 0)
  | received :: batch =>
      let (log, one) := drainEvent log received
      let (log, added) := drainEvents log batch
      (log, one + added)

-- The subtractions saturate; the connections come first, then the log.
def panelAvail (termHeight : UInt16) : Nat × Nat :=
  let main := termHeight.toNat - (1 + infoBandHeight.toNat)
  (main - 3, main - 2)

-- From this height on the layout gives the main row all that the title and the band leave.
structure Screen where
  height : UInt16
  tall : 20 ≤ height.toNat

def Screen.mainRow (screen : Screen) : Nat := screen.height.toNat - 14

def scrollHint (above below : Nat) : String := if above = 0 ∧ below = 0 then "" else s!"  ↑{above} ↓{below}"

structure Panel (α : Type) where
  rows : List α
  title : String
  focused : Bool

def lineRange {α : Type} (lines : List α) (start stop : Nat) : Option (List α) :=
  if start ≤ stop ∧ stop ≤ lines.length then some ((lines.take stop).drop start) else none

def connWindow (areaHeight total connScroll : Nat) : ScrollWindow := scrollWindow total (areaHeight - 3) connScroll

-- The log scrolls from the bottom: the offset counts lines back from the newest.
def logWindow (areaHeight total logScroll : Nat) : ScrollWindow :=
  let avail := areaHeight - 2
  let maxOff := total - max avail 1
  let topOff := maxOff - logScroll
  scrollWindow total avail topOff

def logRows {α : Type} (areaHeight logScroll : Nat) (lines : List α) : Option (List α) :=
  let window := logWindow areaHeight lines.length logScroll
  lineRange lines window.start (window.start + window.shown)

def renderConnections (areaHeight : Nat) (s : DashboardState) : Panel ConnInfo :=
  let total := s.connections.length
  let window := connWindow areaHeight total s.connScroll
  { rows := (s.connections.drop window.start).take window.shown
    title := s!"Active connections ({total})  sort:{s.sort.label}{scrollHint window.above window.below}"
    focused := s.focus == .connections }

def renderLog (areaHeight : Nat) (s : DashboardState) : Option (Panel LogLine) :=
  let window := logWindow areaHeight s.log.len s.logScroll
  (logRows areaHeight s.logScroll s.log.buf).map fun rows =>
    { rows, title := s!"Log ({s.log.len}){scrollHint window.above window.below}", focused := s.focus == .log }

-- A log view that is not at its tail moves with the lines appended below it.
def anchor (termHeight : UInt16) (s : DashboardState) (added : Nat) : DashboardState :=
  if 0 < s.logScroll then
    let avail := (panelAvail termHeight).2
    let maxOff := s.log.len - avail
    { s with logScroll := min (s.logScroll + added) maxOff }
  else s

def observe (firstSeen : Nat → Option Nat) (now : Nat) (conns : List ConnInfo) (id : Nat) : Option Nat :=
  if id ∈ conns.map ConnInfo.id then some ((firstSeen id).getD now) else none

def tick (termHeight : UInt16) (s : DashboardState) (now : Nat) (batch : List Received) (conns : List ConnInfo) : DashboardState :=
  let (log, added) := drainEvents s.log batch
  let s := anchor termHeight { s with log } added
  let firstSeen := observe s.firstSeen now conns
  { s with firstSeen, connections := sortConnections conns s.sort firstSeen }

inductive KeyAction where
  | quit
  | cycleSort
  | switchFocus
  | scrollUp (n : Nat)
  | scrollDown (n : Nat)
deriving DecidableEq, Repr

def applyAction (s : DashboardState) (action : KeyAction) (connAvail logAvail : Nat) : DashboardState :=
  let connMax := s.connections.length - max connAvail 1
  let logMax := s.log.len - max logAvail 1
  match action with
  | .quit => s
  | .cycleSort => { s with sort := s.sort.next, connScroll := 0 }
  | .switchFocus => { s with focus := s.focus.next }
  | .scrollUp n =>
      match s.focus with
      | .connections => { s with connScroll := s.connScroll - n }
      | .log => { s with logScroll := min (s.logScroll + n) logMax }
  | .scrollDown n =>
      match s.focus with
      | .connections => { s with connScroll := min (s.connScroll + n) connMax }
      | .log => { s with logScroll := s.logScroll - n }

inductive Input where
  | tick (now : Nat) (batch : List Received) (conns : List ConnInfo)
  | key (action : KeyAction)

structure Drawn where
  connections : Panel ConnInfo
  log : Option (Panel LogLine)

def render (screen : Screen) (s : DashboardState) : Drawn := ⟨renderConnections screen.mainRow s, renderLog screen.mainRow s⟩

def press (screen : Screen) (s : DashboardState) (action : KeyAction) : DashboardState :=
  let (connAvail, logAvail) := panelAvail screen.height
  applyAction s action connAvail logAvail

-- Every tick and every key but quit, which ends the loop, is followed by a draw.
def machine (screen : Screen) : Machine DashboardState Input Drawn where
  step s
    | .tick now batch conns =>
        let after := tick screen.height s now batch conns
        some (after, [render screen after])
    | .key .quit => none
    | .key action =>
        let after := press screen s action
        some (after, [render screen after])

theorem panel_avail_conn (screen : Screen) : (panelAvail screen.height).1 = screen.mainRow - 3 := rfl

theorem panel_avail_log (screen : Screen) : (panelAvail screen.height).2 = screen.mainRow - 2 := rfl

theorem main_row_tall (screen : Screen) : 6 ≤ screen.mainRow := by
  have tall := screen.tall
  rw [Screen.mainRow]
  omega

end Tui

end NextSocks5
