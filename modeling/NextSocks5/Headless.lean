import NextSocks5.Library.Broadcast
import NextSocks5.Server.AcceptLoop

set_option autoImplicit false

namespace NextSocks5

namespace Headless

-- run_headless awaits Ctrl-C and then its drain task; main then awaits the server.
inductive Main where
  | running
  | draining
  | waiting
  | exited
deriving DecidableEq, Repr

-- The filler of the event ring and the attached clients own receivers only.
structure State where
  main : Main
  shutdown : Bool
  server : AcceptLoop.State
  admin : Bool
  mock : Bool
  events : Receiver Event
  drained : Bool

inductive Wake where
  | ctrlC (failure : Option String)
  | server (wake : AcceptLoop.Wake)
  | connection (task : AcceptLoop.ConnTask) (event : Event)
  | adminFails (error : String)
  | adminStops
  | mockSends (event : Event)
  | mockStops
  | drain
  | drainEnds
  | serverEnds
  | graceElapses

def eventCapacity : Nat := 1024

-- The events_tx of main lives to the end of its scope, and each task owns a clone.
def senders (s : State) : Nat :=
  (if s.main = .exited then 0 else 1) + (if s.server.phase = .returned then 0 else 1) +
    s.server.running.length + s.admin.toNat + s.mock.toNat

def publish (s : State) (made : List Event) : State :=
  { s with events := made.foldl (Receiver.send eventCapacity) s.events }

def heard (s : State) (wake : AcceptLoop.Wake) : Bool :=
  match wake with
  | .shutdown closing => closing && s.shutdown
  | _ => true

def drain (s : State) : Option (State × List String) :=
  match s.events.recv (senders s) with
  | (.value event, events) => some ({ s with events }, [formatEvent event])
  | (.lagged missed, events) => some ({ s with events }, [s!"dropped {missed} events"])
  | (.closed, events) => some ({ s with events, drained := true }, [])
  | (.pending, _) => none

def step (cfg : Config) (s : State) (wake : Wake) : Option (State × List String) :=
  match wake with
  | .ctrlC failure =>
      if s.main = .running then
        some ({ s with main := .draining, shutdown := true }, failure.toList.map fun e => s!"failed to listen for ctrl-c: {e}")
      else none
  | .server wake =>
      if heard s wake then
        ((AcceptLoop.machine cfg).step s.server wake).map fun (server, made) => (publish { s with server } made, [])
      else none
  | .connection task event => if task ∈ s.server.running then some (publish s [event], []) else none
  | .adminFails error => if s.admin then some ({ s with admin := false }, [s!"admin endpoint disabled: {error}"]) else none
  | .adminStops => if s.admin ∧ s.shutdown then some ({ s with admin := false }, []) else none
  | .mockSends event => if s.mock then some (publish s [event], []) else none
  | .mockStops => if s.mock ∧ s.shutdown then some ({ s with mock := false }, []) else none
  | .drain => if s.drained then none else drain s
  | .drainEnds => if s.main = .draining ∧ s.drained then some ({ s with main := .waiting, shutdown := true }, []) else none
  | .serverEnds =>
      if s.main = .waiting ∧ s.server.phase = .returned then some ({ s with main := .exited }, ["shutdown complete"]) else none
  | .graceElapses => if s.main = .waiting then some ({ s with main := .exited }, ["shutdown complete"]) else none

-- Nothing runs after main: the runtime ends with it.
def machine (cfg : Config) : Machine State Wake String where
  step s wake := if s.main = .exited then none else step cfg s wake

def start (cfg : Config) (mock : Bool) : State := ⟨.running, false, AcceptLoop.start, cfg.admin.enabled, mock, .empty, false⟩

structure Settled (s : State) : Prop where
  server : s.server.phase = .returned
  connections : s.server.running = []
  admin : s.admin = false
  mock : s.mock = false
  events : s.events.backlog = 0

def Deadlock (cfg : Config) (s : State) : Prop := s.main ≠ .exited ∧ ∀ wake, (machine cfg).step s wake = none

def CanReturn (cfg : Config) (s : State) : Prop := ∃ t, (machine cfg).Reachable s t ∧ t.main = .waiting

def ShutdownSound (cfg : Config) (mock : Bool) : Prop :=
  ∀ s, (machine cfg).Reachable (start cfg mock) s → s.shutdown = true → ¬ Deadlock cfg s ∧ (Settled s → CanReturn cfg s)

-- While main waits it owns a sender, so its drain never sees the channel closed.
structure Waits (s : State) : Prop where
  main : s.main = if s.shutdown then .draining else .running
  undrained : s.drained = false
  server : AcceptLoop.Winding s.server

theorem waits_alive (s : State) (waits : Waits s) : s.main ≠ .exited ∧ s.main ≠ .waiting := by
  rw [waits.main]
  split <;> simp

theorem waits_owned (s : State) (waits : Waits s) : senders s ≠ 0 := by
  simp only [senders, (waits_alive s waits).1, if_false]
  omega

theorem publish_waits (s : State) (made : List Event) (waits : Waits s) : Waits (publish s made) :=
  ⟨waits.main, waits.undrained, waits.server⟩

theorem drain_cases (s : State) (owned : senders s ≠ 0) :
    s.events.backlog = 0 ∧ drain s = none ∨
    ∃ events made, drain s = some ({ s with events }, made) ∧ events.backlog < s.events.backlog := by
  rcases s.events.recv_cases (senders s) with ⟨event, rest, taken, less⟩ | ⟨missed, rest, taken, less⟩ | ⟨printed, taken⟩
  · exact .inr ⟨rest, _, by rw [drain, taken], less⟩
  · exact .inr ⟨rest, _, by rw [drain, taken], less⟩
  · exact .inl ⟨printed, by simp [drain, taken, owned]⟩

theorem step_waits (cfg : Config) (s after : State) (wake : Wake) (made : List String) (waits : Waits s)
    (stepped : (machine cfg).step s wake = some (after, made)) : Waits after := by
  have taken : step cfg s wake = some (after, made) := by
    simpa only [machine, (waits_alive s waits).1, if_false] using stepped
  cases wake with
  | ctrlC failure =>
      simp only [step, Option.ite_none_right_eq_some, Option.some.injEq, Prod.mk.injEq] at taken
      obtain ⟨_, rfl, _⟩ := taken
      exact ⟨rfl, waits.undrained, waits.server⟩
  | server wake =>
      simp only [step, Option.ite_none_right_eq_some, Option.map_eq_some_iff, Prod.mk.injEq] at taken
      obtain ⟨_, ⟨server, sent⟩, moved, rfl, _⟩ := taken
      exact publish_waits _ sent ⟨waits.main, waits.undrained, AcceptLoop.step_winding cfg s.server server wake sent waits.server moved⟩
  | connection task event =>
      simp only [step, Option.ite_none_right_eq_some, Option.some.injEq, Prod.mk.injEq] at taken
      obtain ⟨_, rfl, _⟩ := taken
      exact publish_waits s [event] waits
  | adminFails error =>
      simp only [step, Option.ite_none_right_eq_some, Option.some.injEq, Prod.mk.injEq] at taken
      obtain ⟨_, rfl, _⟩ := taken
      exact ⟨waits.main, waits.undrained, waits.server⟩
  | adminStops =>
      simp only [step, Option.ite_none_right_eq_some, Option.some.injEq, Prod.mk.injEq] at taken
      obtain ⟨_, rfl, _⟩ := taken
      exact ⟨waits.main, waits.undrained, waits.server⟩
  | mockSends event =>
      simp only [step, Option.ite_none_right_eq_some, Option.some.injEq, Prod.mk.injEq] at taken
      obtain ⟨_, rfl, _⟩ := taken
      exact publish_waits s [event] waits
  | mockStops =>
      simp only [step, Option.ite_none_right_eq_some, Option.some.injEq, Prod.mk.injEq] at taken
      obtain ⟨_, rfl, _⟩ := taken
      exact ⟨waits.main, waits.undrained, waits.server⟩
  | drain =>
      simp only [step, waits.undrained, Bool.false_eq_true, if_false] at taken
      rcases drain_cases s (waits_owned s waits) with ⟨_, idle⟩ | ⟨events, lines, turned, _⟩
      · rw [idle] at taken
        cases taken
      · rw [turned] at taken
        cases taken
        exact ⟨waits.main, waits.undrained, waits.server⟩
  | drainEnds => simp [step, waits.undrained] at taken
  | serverEnds => simp [step, (waits_alive s waits).2] at taken
  | graceElapses => simp [step, (waits_alive s waits).2] at taken

theorem start_waits (cfg : Config) (mock : Bool) : Waits (start cfg mock) :=
  ⟨rfl, rfl, by simp [start, AcceptLoop.start], by simp [start, AcceptLoop.start]⟩

theorem reachable_waits (cfg : Config) (s t : State) (waits : Waits s) (reached : (machine cfg).Reachable s t) : Waits t :=
  Machine.reachable_invariant (machine cfg) s Waits waits
    (fun s wake after made held stepped => step_waits cfg s after wake made held stepped) t reached

theorem waits_never_return (cfg : Config) (s : State) (waits : Waits s) : ¬ CanReturn cfg s := by
  rintro ⟨t, reached, returned⟩
  exact (waits_alive t (reachable_waits cfg s t waits reached)).2 returned

theorem settled_deadlock (cfg : Config) (s : State) (waits : Waits s) (interrupted : s.shutdown = true) (settled : Settled s) :
    Deadlock cfg s := by
  refine ⟨(waits_alive s waits).1, fun wake => ?_⟩
  have main : s.main = .draining := by simpa [interrupted] using waits.main
  have ended := (waits.server.returned settled.server).2
  simp only [machine, main, reduceCtorEq, if_false]
  cases wake with
  | ctrlC failure => simp [step, main]
  | server wake => cases wake <;> simp [step, AcceptLoop.machine, settled.server, settled.connections, ended]
  | connection task event => simp [step, settled.connections]
  | adminFails error => simp [step, settled.admin]
  | adminStops => simp [step, settled.admin]
  | mockSends event => simp [step, settled.mock]
  | mockStops => simp [step, settled.mock]
  | drain =>
      rcases drain_cases s (waits_owned s waits) with ⟨_, idle⟩ | ⟨_, _, _, less⟩
      · simp [step, waits.undrained, idle]
      · simp [settled.events] at less
  | drainEnds => simp [step, waits.undrained]
  | serverEnds => simp [step, main]
  | graceElapses => simp [step, main]

def unfinished (s : State) : Nat := AcceptLoop.remaining s.server + s.admin.toNat + s.mock.toNat + s.events.backlog

theorem shutdown_settles (cfg : Config) (s : State) (waits : Waits s) (interrupted : s.shutdown = true) (busy : ¬ Settled s) :
    ∃ wake after made, (machine cfg).step s wake = some (after, made) ∧ (Waits after ∧ after.shutdown = true) ∧
      unfinished after < unfinished s := by
  have alive := (waits_alive s waits).1
  by_cases returned : s.server.phase = .returned
  · have connections := (waits.server.returned returned).1
    by_cases admin : s.admin = true
    · refine ⟨.adminStops, { s with admin := false }, [], by simp [machine, alive, step, admin, interrupted],
        ⟨⟨waits.main, waits.undrained, waits.server⟩, interrupted⟩, by simp [unfinished, admin]⟩
    · by_cases mock : s.mock = true
      · refine ⟨.mockStops, { s with mock := false }, [], by simp [machine, alive, step, mock, interrupted],
          ⟨⟨waits.main, waits.undrained, waits.server⟩, interrupted⟩, by simp [unfinished, mock]⟩
      · rcases drain_cases s (waits_owned s waits) with ⟨printed, _⟩ | ⟨events, made, turned, less⟩
        · exact absurd ⟨returned, connections, by simpa using admin, by simpa using mock, printed⟩ busy
        · refine ⟨.drain, { s with events }, made, by simp only [machine, alive, step, waits.undrained, turned, if_false, Bool.false_eq_true],
            ⟨⟨waits.main, waits.undrained, waits.server⟩, interrupted⟩, ?_⟩
          simp only [unfinished]
          omega
  · obtain ⟨wake, server, moved, less, told⟩ := AcceptLoop.winds_down cfg s.server waits.server returned
    have hears : heard s wake = true := by
      cases wake with
      | shutdown closing => simp [heard, told closing rfl, interrupted]
      | _ => rfl
    refine ⟨.server wake, { s with server }, [], by simp [machine, alive, step, hears, moved, publish],
      ⟨⟨waits.main, waits.undrained, AcceptLoop.step_winding cfg s.server server wake [] waits.server moved⟩, interrupted⟩, ?_⟩
    simp only [unfinished]
    omega

theorem deadlock_reached (cfg : Config) (s : State) (waits : Waits s) (interrupted : s.shutdown = true) :
    ∃ t, (machine cfg).Reachable s t ∧ t.shutdown = true ∧ Settled t ∧ Deadlock cfg t := by
  obtain ⟨t, reached, ⟨waits, interrupted⟩, settled⟩ :=
    Machine.reachable_goal (machine cfg) (fun s => Waits s ∧ s.shutdown = true) Settled unfinished
      (fun s held busy => shutdown_settles cfg s held.1 held.2 busy) s ⟨waits, interrupted⟩
  exact ⟨t, reached, interrupted, settled, settled_deadlock cfg t waits interrupted settled⟩

-- With any configuration, from any point after Ctrl-C: main never gets to its
-- bounded wait, and once the other tasks have finished nothing can move.
theorem headless_shutdown_stuck (cfg : Config) (mock : Bool) :
    ¬ ShutdownSound cfg mock ∧
    ∀ s, (machine cfg).Reachable (start cfg mock) s → s.shutdown = true →
      ¬ CanReturn cfg s ∧ (Settled s → Deadlock cfg s) ∧
      ∃ t, (machine cfg).Reachable s t ∧ t.shutdown = true ∧ Settled t ∧ Deadlock cfg t := by
  refine ⟨fun sound => ?_, fun s reached interrupted => ?_⟩
  · have interrupted : (machine cfg).step (start cfg mock) (.ctrlC none) =
        some ({ start cfg mock with main := .draining, shutdown := true }, []) := rfl
    have reached := Machine.reachable_step _ _ _ _ _ _ (Machine.reachable_start _ _) interrupted
    obtain ⟨t, later, interrupted, _, stuck⟩ := deadlock_reached cfg _ (reachable_waits cfg _ _ (start_waits cfg mock) reached) rfl
    exact (sound t (Machine.reachable_trans _ _ _ _ reached later) interrupted).1 stuck
  · have waits := reachable_waits cfg _ s (start_waits cfg mock) reached
    exact ⟨waits_never_return cfg s waits, settled_deadlock cfg s waits interrupted, deadlock_reached cfg s waits interrupted⟩

def inFlight : AcceptLoop.ConnTask := ⟨.v4 (.new 192 0 2 7) 40000, ⟨.v4 (.new 192 0 2 7)⟩⟩

theorem headless_shutdown_stuck_in_flight :
    ∃ s, s.server.running = [inFlight] ∧ ¬ CanReturn Config.default s ∧
      ∃ t, (machine Config.default).Reachable s t ∧ t.shutdown = true ∧ Settled t ∧ Deadlock Config.default t := by
  have known := (headless_shutdown_stuck Config.default false).2 _
    ⟨[.server (.accepted inFlight.peer), .ctrlC none], _, Machine.exec_run _ _ _ _ _ rfl⟩ rfl
  exact ⟨_, rfl, known.1, known.2.2⟩

theorem idle_interrupt_stuck :
    ¬ ShutdownSound Config.default false ∧
    ∃ t, (machine Config.default).exec (start Config.default false) [.ctrlC none, .server (.shutdown true), .adminStops] = some ([], t) ∧
      Settled t ∧ t.main = .draining ∧ t.drained = false ∧ senders t = 1 ∧ Deadlock Config.default t := by
  have idle : ∃ t, (machine Config.default).exec (start Config.default false) [.ctrlC none, .server (.shutdown true), .adminStops] =
      some ([], t) ∧ t.shutdown = true ∧ Settled t ∧ t.main = .draining ∧ t.drained = false ∧ senders t = 1 :=
    ⟨_, rfl, rfl, ⟨rfl, rfl, rfl, rfl, rfl⟩, rfl, rfl, rfl⟩
  obtain ⟨t, run, interrupted, settled, main, drained, owned⟩ := idle
  have reached : (machine Config.default).Reachable (start Config.default false) t := ⟨_, _, Machine.exec_run _ _ _ _ _ run⟩
  have stuck := settled_deadlock Config.default t (reachable_waits _ _ t (start_waits _ _) reached) interrupted settled
  exact ⟨fun sound => (sound t reached interrupted).1 stuck, t, run, settled, main, drained, owned, stuck⟩

end Headless

end NextSocks5
