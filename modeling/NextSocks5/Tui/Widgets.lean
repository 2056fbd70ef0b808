import NextSocks5.Library.Window
import NextSocks5.Metrics

set_option autoImplicit false

namespace NextSocks5

namespace Tui

def infoBandHeight : UInt16 := 13

inductive SortKey where
  | id
  | up
  | down
  | age
deriving DecidableEq, Repr

def SortKey.next : SortKey → SortKey
  | id => up
  | up => down
  | down => age
  | age => id

def SortKey.label : SortKey → String
  | id => "ID"
  | up => "UP↓"
  | down => "DOWN↓"
  | age => "AGE↓"

inductive Focus where
  | connections
  | log
deriving DecidableEq, Repr

def Focus.next : Focus → Focus
  | connections => log
  | log => connections

-- When each connection was first observed; an id never observed sorts first.
def SortKey.le (sort : SortKey) (firstSeen : Nat → Option Nat) (a b : ConnInfo) : Bool :=
  match sort with
  | id => decide (a.id ≤ b.id)
  | up => decide (b.up < a.up) || (a.up == b.up && decide (a.id ≤ b.id))
  | down => decide (b.down < a.down) || (a.down == b.down && decide (a.id ≤ b.id))
  | age =>
      match firstSeen a.id, firstSeen b.id with
      | none, none => decide (a.id ≤ b.id)
      | none, some _ => true
      | some _, none => false
      | some first, some second => decide (first < second) || (first == second && decide (a.id ≤ b.id))

def sortConnections (conns : List ConnInfo) (sort : SortKey) (firstSeen : Nat → Option Nat) : List ConnInfo :=
  conns.mergeSort (sort.le firstSeen)

structure ScrollWindow where
  start : Nat
  shown : Nat
  above : Nat
  below : Nat
deriving DecidableEq, Repr

def scrollWindow (total avail offset : Nat) : ScrollWindow :=
  let avail := max avail 1
  let maxOff := total - avail
  let start := min offset maxOff
  let shown := min avail (total - start)
  ⟨start, shown, start, total - start - shown⟩

inductive Severity where
  | info
  | dim
  | warn
  | error
deriving DecidableEq, Repr

def severityOf : Event → Severity
  | .connect _ _ _ _ | .log _ => .info
  | .closed _ => .dim
  | .auth ok _ => if ok then .info else .warn
  | .error _ _ => .error

structure LogLine where
  severity : Severity
  text : String
  connId : Option Nat
deriving DecidableEq, Repr

def LogLine.close (line : LogLine) : LogLine := { line with severity := .dim, text := line.text ++ "  closed" }

def LogLine.opens (id : Nat) (line : LogLine) : Bool := line.connId == some id && line.severity != .dim

-- Oldest first, and never empty once a line has been pushed.
structure LogRing where
  buf : List LogLine
  cap : Nat
  positive : 0 < cap
  bounded : buf.length ≤ cap

-- The first of the items that satisfies the predicate is changed.
def modifyFirst {α : Type} (p : α → Bool) (change : α → α) : List α → List α
  | [] => []
  | item :: items => if p item then change item :: items else item :: modifyFirst p change items

@[simp] theorem modify_first_length {α : Type} (p : α → Bool) (change : α → α) (items : List α) :
    (modifyFirst p change items).length = items.length := by
  induction items with
  | nil => rfl
  | cons item items ih =>
      rw [modifyFirst]
      split
      · rfl
      · rw [List.length_cons, List.length_cons, ih]

namespace LogRing

def new (cap : Nat) : LogRing := ⟨[], max cap 1, Nat.lt_of_lt_of_le Nat.one_pos (Nat.le_max_right cap 1), Nat.zero_le _⟩

def push (ring : LogRing) (severity : Severity) (text : String) (connId : Option Nat) : LogRing where
  buf := Window.push ring.cap ring.buf ⟨severity, text, connId⟩
  cap := ring.cap
  positive := ring.positive
  bounded := Window.push_length ring.cap ring.buf _ ring.positive ring.bounded

-- Newest first, a line of the connection that is not dim yet.
def markClosed (ring : LogRing) (id : Nat) : LogRing where
  buf := (modifyFirst (LogLine.opens id) LogLine.close ring.buf.reverse).reverse
  cap := ring.cap
  positive := ring.positive
  bounded := by simpa using ring.bounded

def len (ring : LogRing) : Nat := ring.buf.length

end LogRing

theorem sort_connections_length (conns : List ConnInfo) (sort : SortKey) (firstSeen : Nat → Option Nat) :
    (sortConnections conns sort firstSeen).length = conns.length := List.length_mergeSort conns

-- Neither subtraction of the source goes below zero.
theorem scroll_window_total (total avail offset : Nat) :
    (scrollWindow total avail offset).start ≤ total ∧
      (scrollWindow total avail offset).start + (scrollWindow total avail offset).shown ≤ total ∧
      (scrollWindow total avail offset).above + (scrollWindow total avail offset).shown +
        (scrollWindow total avail offset).below = total := by
  simp only [scrollWindow]
  omega

theorem scroll_window_shown (total avail offset : Nat) (nonempty : 0 < total) : 0 < (scrollWindow total avail offset).shown := by
  simp only [scrollWindow]
  omega

end Tui

end NextSocks5
