import NextSocks5.Headless
import NextSocks5.Library.Delivery

set_option autoImplicit false

namespace NextSocks5

namespace Headless

open Receiver (Report Books Covers)

-- The events sent on the bus, what the drain task reads of it, and the messages of the other tasks.
inductive Traffic where
  | sent (event : Event)
  | read (report : Report Event)
  | told (message : String)

def Traffic.event : Traffic → Option Event
  | .sent event => some event
  | _ => none

def Traffic.report : Traffic → Option (Report Event)
  | .read report => some report
  | _ => none

def line : Report Event → String
  | .value event => formatEvent event
  | .missed n => s!"dropped {n} events"

def Traffic.line : Traffic → Option String
  | .sent _ => none
  | .read report => some (Headless.line report)
  | .told message => some message

def published (cfg : Config) (s : State) : Wake → List Event
  | .server wake => (((AcceptLoop.machine cfg).step s.server wake).map Prod.snd).getD []
  | .connection _ event | .mockSends event => [event]
  | _ => []

def reads (s : State) : Wake → List (Report Event)
  | .drain => ((s.events.report (senders s)).map Prod.fst).toList
  | _ => []

def told : Wake → List String
  | .ctrlC failure => failure.toList.map fun e => s!"failed to listen for ctrl-c: {e}"
  | .adminFails error => [s!"admin endpoint disabled: {error}"]
  | .serverEnds | .graceElapses => ["shutdown complete"]
  | _ => []

def traffic (cfg : Config) (s : State) (wake : Wake) : List Traffic :=
  (published cfg s wake).map .sent ++ ((reads s wake).map .read ++ (told wake).map .told)

def sentOf (notes : List Traffic) : List Event := notes.filterMap Traffic.event

def readOf (notes : List Traffic) : List (Report Event) := notes.filterMap Traffic.report

def lineOf (notes : List Traffic) : List String := notes.filterMap Traffic.line

theorem sent_append (cfg : Config) (s : State) (wake : Wake) (notes : List Traffic) :
    sentOf (notes ++ traffic cfg s wake) = sentOf notes ++ published cfg s wake := by
  simp [sentOf, traffic, List.filterMap_append, List.filterMap_map, Function.comp_def, Traffic.event]

theorem read_append (cfg : Config) (s : State) (wake : Wake) (notes : List Traffic) :
    readOf (notes ++ traffic cfg s wake) = readOf notes ++ reads s wake := by
  simp [readOf, traffic, List.filterMap_append, List.filterMap_map, Function.comp_def, Traffic.report]

theorem line_append (cfg : Config) (s : State) (wake : Wake) (notes : List Traffic) :
    lineOf (notes ++ traffic cfg s wake) = lineOf notes ++ ((reads s wake).map line ++ told wake) := by
  simp [lineOf, traffic, List.filterMap_append, List.filterMap_map, Function.comp_def, Traffic.line]

theorem books_publish (s : State) (made sent : List Event) (reports : List (Report Event))
    (books : Books eventCapacity s.events sent reports) : Books eventCapacity (publish s made).events (sent ++ made) reports := by
  induction made generalizing s sent with
  | nil => simpa [publish] using books
  | cons event made ih =>
      have first := Receiver.books_send eventCapacity s.events sent reports event (by decide) books
      have rest := ih { s with events := s.events.send eventCapacity event } _ first
      simpa [publish] using rest

theorem drain_reads (s : State) (after : State) (made : List String) (drained : drain s = some (after, made)) :
    made = (reads s .drain).map line ∧
      (reads s .drain = [] ∧ after.events = s.events ∨
        ∃ report, reads s .drain = [report] ∧ s.events.report (senders s) = some (report, after.events)) := by
  rw [drain] at drained
  rw [reads, Receiver.report]
  split at drained
  · rename_i event rest read
    cases drained
    rw [read]
    exact ⟨rfl, .inr ⟨_, rfl, rfl⟩⟩
  · rename_i missed rest read
    cases drained
    rw [read]
    exact ⟨rfl, .inr ⟨_, rfl, rfl⟩⟩
  · rename_i rest read
    cases drained
    rw [read]
    refine ⟨rfl, .inl ⟨rfl, ?_⟩⟩
    rcases s.events.recv_cases (senders s) with ⟨_, _, other, _⟩ | ⟨_, _, other, _⟩ | ⟨_, other⟩
    · rw [read] at other
      cases other
    · rw [read] at other
      cases other
    · rw [read] at other
      exact (Prod.mk.inj other).2
  · cases drained

theorem step_books (cfg : Config) (s after : State) (wake : Wake) (made : List String) (sent : List Event)
    (reports : List (Report Event)) (books : Books eventCapacity s.events sent reports)
    (stepped : (machine cfg).step s wake = some (after, made)) :
    Books eventCapacity after.events (sent ++ published cfg s wake) (reports ++ reads s wake) ∧
      made = (reads s wake).map line ++ told wake := by
  have taken : step cfg s wake = some (after, made) := by
    rw [machine] at stepped
    exact (Option.ite_none_left_eq_some.mp stepped).2
  have quiet : Books eventCapacity s.events (sent ++ []) (reports ++ []) := by simpa using books
  cases wake with
  | server wake =>
      simp only [step, Option.ite_none_right_eq_some, Option.map_eq_some_iff, Prod.mk.injEq] at taken
      obtain ⟨_, ⟨server, events⟩, moved, rfl, rfl⟩ := taken
      have out : published cfg s (.server wake) = events := by rw [published, moved]; rfl
      rw [out]
      exact ⟨by simpa [reads] using books_publish { s with server } events sent reports books, rfl⟩
  | connection task event =>
      simp only [step, Option.ite_none_right_eq_some, Option.some.injEq, Prod.mk.injEq] at taken
      obtain ⟨_, rfl, rfl⟩ := taken
      exact ⟨by simpa [published, reads] using books_publish s [event] sent reports books, rfl⟩
  | mockSends event =>
      simp only [step, Option.ite_none_right_eq_some, Option.some.injEq, Prod.mk.injEq] at taken
      obtain ⟨_, rfl, rfl⟩ := taken
      exact ⟨by simpa [published, reads] using books_publish s [event] sent reports books, rfl⟩
  | drain =>
      simp only [step, Option.ite_none_left_eq_some] at taken
      have unsent : published cfg s .drain = [] := rfl
      obtain ⟨lines, idle | read⟩ := drain_reads s after made taken.2
      · obtain ⟨nothing, same⟩ := idle
        rw [nothing, same, unsent]
        refine ⟨quiet, ?_⟩
        rw [lines, nothing]
        rfl
      · obtain ⟨report, one, left⟩ := read
        rw [lines, one, unsent, List.append_nil]
        exact ⟨Receiver.books_report eventCapacity _ s.events after.events sent reports report books left, rfl⟩
  | ctrlC failure =>
      simp only [step, Option.ite_none_right_eq_some, Option.some.injEq, Prod.mk.injEq] at taken
      obtain ⟨_, rfl, rfl⟩ := taken
      exact ⟨quiet, rfl⟩
  | adminFails error | adminStops | mockStops | drainEnds | serverEnds | graceElapses =>
      simp only [step, Option.ite_none_right_eq_some, Option.some.injEq, Prod.mk.injEq] at taken
      obtain ⟨_, rfl, rfl⟩ := taken
      exact ⟨quiet, rfl⟩

-- The lines are those of the drain's reads, each once and in order, between the messages of the other tasks; the reads and
-- what still waits account for every event.
theorem stdout_accounts (cfg : Config) (mock : Bool) (wakes : List Wake) (lines : List String) (s : State)
    (run : (machine cfg).Run (start cfg mock) wakes lines s) :
    ∃ notes, ((machine cfg).noted (traffic cfg)).Run (start cfg mock) wakes notes s ∧ lines = lineOf notes ∧
      ∃ done gap, sentOf notes = done ++ (gap ++ s.events.queue) ∧ gap.length = s.events.lagged ∧
        Covers (readOf notes) done ∧ s.events.queue.length ≤ eventCapacity ∧
        (0 < gap.length → s.events.queue.length = eventCapacity) := by
  have known := (machine cfg).run_invariant (start cfg mock)
    (fun wakes lines s => ∃ notes, ((machine cfg).noted (traffic cfg)).Run (start cfg mock) wakes notes s ∧
      lines = lineOf notes ∧ Books eventCapacity s.events (sentOf notes) (readOf notes))
    ⟨[], .idle, rfl, Receiver.books_empty eventCapacity⟩ ?_ wakes lines s run
  · obtain ⟨notes, noted, printed, books⟩ := known
    obtain ⟨done, gap, whole, missed, covers⟩ := books.covered
    exact ⟨notes, noted, printed, done, gap, whole, missed, covers, books.bounded, fun late => books.behind (missed ▸ late)⟩
  · intro wakes lines s wake after made held stepped
    obtain ⟨notes, noted, printed, books⟩ := held
    obtain ⟨next, printedNow⟩ := step_books cfg s after wake made _ _ books stepped
    refine ⟨notes ++ traffic cfg s wake, noted.next wake _ after (by simp [Machine.noted, stepped]), ?_, ?_⟩
    · rw [line_append, printed, printedNow]
    · rw [sent_append, read_append]
      exact next

theorem stdout_accounts_drained : ∃ notes s, ((machine Config.default).noted (traffic Config.default)).Run (start Config.default true)
      [.mockSends (.closed 1), .mockSends (.closed 2), .drain] notes s ∧
    ["[#1] closed"] = lineOf notes ∧ s.events.queue = [.closed 2] := by
  have run := (machine Config.default).exec_run (start Config.default true) [.mockSends (.closed 1), .mockSends (.closed 2), .drain] _ _ rfl
  obtain ⟨notes, noted, printed, _⟩ := stdout_accounts Config.default true _ _ _ run
  exact ⟨notes, _, noted, printed, rfl⟩

end Headless

end NextSocks5
