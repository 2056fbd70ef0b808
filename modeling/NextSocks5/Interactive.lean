import NextSocks5.Headless
import NextSocks5.Tui.Session

set_option autoImplicit false

namespace NextSocks5

-- main with the dashboard as its front end.
namespace Interactive

open Headless (eventCapacity)
open Tui (Session Screen Drawn KeyAction session sentBy)

-- run may still be joining its reader thread when its loop is over; main then awaits the server.
inductive Main where
  | starting
  | dashboard
  | joining
  | waiting
  | exited
deriving DecidableEq, Repr

-- input_loop looks at its flag, and then polls for a while.
inductive Reader where
  | checking
  | polling
  | ended
deriving DecidableEq, Repr

inductive Polled where
  | nothing
  | key (action : KeyAction)
  | failed (error : String)

structure Tasks where
  server : AcceptLoop.State
  admin : Bool
  mock : Bool

structure State where
  main : Main
  shutdown : Bool
  tasks : Tasks
  seeds : List Event
  session : Session
  reader : Reader
  stop : Bool
  keys : List KeyAction

inductive TaskWake where
  | server (wake : AcceptLoop.Wake)
  | connection (task : AcceptLoop.ConnTask) (event : Event)
  | adminFails (error : String)
  | adminStops
  | mockSends (event : Event)
  | mockStops

inductive Wake where
  | task (wake : TaskWake)
  | seed
  | enter
  | enterFails (error : String)
  | tick
  | poll
  | swept
  | sample (now : Nat) (conns : List ConnInfo)
  | key
  | keysEnd
  | shutdownSeen
  | drawFails (error : String)
  | check
  | polled (outcome : Polled)
  | joined
  | serverEnds
  | graceElapses

def heard (shutdown : Bool) : AcceptLoop.Wake → Bool
  | .shutdown closing => closing && shutdown
  | _ => true

def Tasks.step (cfg : Config) (shutdown : Bool) (t : Tasks) : TaskWake → Option (Tasks × List Event)
  | .server wake =>
      if heard shutdown wake then ((AcceptLoop.machine cfg).step t.server wake).map fun (server, made) => ({ t with server }, made)
      else none
  | .connection task event => if task ∈ t.server.running then some (t, [event]) else none
  | .adminFails _ => if t.admin then some ({ t with admin := false }, []) else none
  | .adminStops => if t.admin ∧ shutdown then some ({ t with admin := false }, []) else none
  | .mockSends event => if t.mock then some (t, [event]) else none
  | .mockStops => if t.mock ∧ shutdown then some ({ t with mock := false }, []) else none

def publish (s : State) (made : List Event) : State :=
  { s with session := made.foldl (fun x ev => { x with events := x.events.send eventCapacity ev }) s.session }

def dashboard (screen : Screen) (s : State) (act : Tui.Act) : Option (State × List Drawn) :=
  if s.main = .dashboard then ((session eventCapacity screen).step s.session act).map fun (session, drawn) => ({ s with session }, drawn)
  else none

-- The select of run is polled between its branches only.
def idle (s : State) : Prop := s.main = .dashboard ∧ s.session.batch = none

instance (s : State) : Decidable (idle s) := inferInstanceAs (Decidable (_ ∧ s.session.batch = none))

def leave (s : State) : State := { s with main := .joining, stop := true }

def forward (s : State) : Polled → State
  | .nothing => { s with reader := .checking }
  | .failed _ => { s with reader := .ended }
  | .key action =>
      if s.main = .dashboard ∨ s.main = .joining then { s with reader := .checking, keys := s.keys ++ [action] }
      else { s with reader := .ended }

def step (cfg : Config) (screen : Screen) (s : State) : Wake → Option (State × List Drawn)
  | .task wake => (s.tasks.step cfg s.shutdown wake).map fun (tasks, made) => (publish { s with tasks } made, [])
  | .seed =>
      match s.main, s.seeds with
      | .starting, ev :: seeds => some (publish { s with seeds } [ev], [])
      | _, _ => none
  | .enter => if s.main = .starting ∧ s.seeds = [] then some ({ s with main := .dashboard, reader := .checking }, []) else none
  | .enterFails _ => if s.main = .starting ∧ s.seeds = [] then some ({ s with main := .waiting, shutdown := true }, []) else none
  | .tick => dashboard screen s .tick
  | .poll => dashboard screen s .poll
  | .swept => dashboard screen s .swept
  | .sample now conns => dashboard screen s (.sample now conns)
  | .key =>
      if idle s then
        match s.keys with
        | [] => none
        | .quit :: keys => some (leave { s with keys, shutdown := true }, [])
        | action :: keys => dashboard screen { s with keys } (.key action)
      else none
  | .keysEnd => if idle s ∧ s.reader = .ended ∧ s.keys = [] then some (leave s, []) else none
  | .shutdownSeen => if idle s ∧ s.shutdown then some (leave s, []) else none
  -- An error leaves run without a word to the reader.
  | .drawFails _ => if s.main = .dashboard then some ({ s with main := .waiting, shutdown := true }, []) else none
  | .check => if s.reader = .checking then some ({ s with reader := if s.stop then .ended else .polling }, []) else none
  | .polled outcome => if s.reader = .polling then some (forward s outcome, []) else none
  | .joined => if s.main = .joining ∧ s.reader = .ended then some ({ s with main := .waiting, shutdown := true }, []) else none
  | .serverEnds =>
      if s.main = .waiting ∧ s.tasks.server.phase = .returned then some ({ s with main := .exited }, []) else none
  | .graceElapses => if s.main = .waiting then some ({ s with main := .exited }, []) else none

-- Nothing runs after main: the runtime ends with it.
def machine (cfg : Config) (screen : Screen) : Machine State Wake Drawn where
  step s wake := if s.main = .exited then none else step cfg screen s wake

def authStr : AuthMethod → String
  | .none => "none"
  | .password => "password"

def start (cfg : Config) (listenStr : String) (mock : Bool) : State where
  main := .starting
  shutdown := false
  tasks := ⟨AcceptLoop.start, cfg.admin.enabled, mock⟩
  seeds := [.log s!"listening on {listenStr}", .log s!"auth: {authStr cfg.auth.method}", .log "press q to quit"]
  session := .new
  reader := .ended
  stop := false
  keys := []

def Wake.typed : Wake → Option KeyAction
  | .polled (.key action) => some action
  | _ => none

inductive Moves (cfg : Config) (screen : Screen) (s : State) : Wake → State → List Drawn → Prop where
  | task (wake : TaskWake) (tasks : Tasks) (made : List Event) (ran : s.tasks.step cfg s.shutdown wake = some (tasks, made)) :
      Moves cfg screen s (.task wake) (publish { s with tasks } made) []
  | seed (ev : Event) (seeds : List Event) (starting : s.main = .starting) (left : s.seeds = ev :: seeds) :
      Moves cfg screen s .seed (publish { s with seeds } [ev]) []
  | enter (starting : s.main = .starting) : Moves cfg screen s .enter { s with main := .dashboard, reader := .checking } []
  | enterFails (error : String) (starting : s.main = .starting) :
      Moves cfg screen s (.enterFails error) { s with main := .waiting, shutdown := true } []
  | dashboard (wake : Wake) (untyped : wake.typed = none) (act : Tui.Act) (silent : act.sent = none)
      (keyless : ∀ action, act ≠ .key action) (next : Session)
      (drawn : List Drawn) (inLoop : s.main = .dashboard)
      (moved : (session eventCapacity screen).step s.session act = some (next, drawn)) :
      Moves cfg screen s wake { s with session := next } drawn
  | quit (keys : List KeyAction) (ready : idle s) (typed : s.keys = .quit :: keys) :
      Moves cfg screen s .key (leave { s with keys, shutdown := true }) []
  | key (action : KeyAction) (keys : List KeyAction) (ready : idle s) (typed : s.keys = action :: keys) (stays : action ≠ .quit)
      (next : Session) (drawn : List Drawn)
      (moved : (session eventCapacity screen).step s.session (.key action) = some (next, drawn)) :
      Moves cfg screen s .key { s with keys, session := next } drawn
  | leave (wake : Wake) (untyped : wake.typed = none) (ready : idle s) : Moves cfg screen s wake (leave s) []
  | drawFails (error : String) (inLoop : s.main = .dashboard) :
      Moves cfg screen s (.drawFails error) { s with main := .waiting, shutdown := true } []
  | check (checking : s.reader = .checking) : Moves cfg screen s .check { s with reader := if s.stop then .ended else .polling } []
  | polled (outcome : Polled) (polling : s.reader = .polling) : Moves cfg screen s (.polled outcome) (forward s outcome) []
  | joined (joining : s.main = .joining) (ended : s.reader = .ended) :
      Moves cfg screen s .joined { s with main := .waiting, shutdown := true } []
  | exits (wake : Wake) (untyped : wake.typed = none) (waiting : s.main = .waiting) : Moves cfg screen s wake { s with main := .exited } []

theorem dashboard_moves (cfg : Config) (screen : Screen) (s after : State) (wake : Wake) (act : Tui.Act) (drawn : List Drawn)
    (untyped : wake.typed = none) (silent : act.sent = none) (keyless : ∀ action, act ≠ .key action)
    (stepped : dashboard screen s act = some (after, drawn)) :
    Moves cfg screen s wake after drawn := by
  obtain ⟨inLoop, stepped⟩ := Option.ite_none_right_eq_some.mp stepped
  obtain ⟨⟨next, pictures⟩, moved, same⟩ := Option.map_eq_some_iff.mp stepped
  cases same
  exact .dashboard wake untyped act silent keyless next drawn inLoop moved

theorem key_moves (cfg : Config) (screen : Screen) (s after : State) (drawn : List Drawn)
    (stepped : step cfg screen s .key = some (after, drawn)) : Moves cfg screen s .key after drawn := by
  obtain ⟨ready, stepped⟩ := Option.ite_none_right_eq_some.mp stepped
  cases typed : s.keys with
  | nil =>
      rw [typed] at stepped
      cases stepped
  | cons action keys =>
      rw [typed] at stepped
      by_cases stays : action = .quit
      · subst stays
        cases stepped
        exact .quit keys ready typed
      · have pressed : dashboard screen { s with keys } (.key action) = some (after, drawn) := by
          cases action with
          | quit => exact absurd rfl stays
          | _ => exact stepped
        obtain ⟨_, pressed⟩ := Option.ite_none_right_eq_some.mp pressed
        obtain ⟨⟨next, pictures⟩, moved, same⟩ := Option.map_eq_some_iff.mp pressed
        cases same
        exact .key action keys ready typed stays next drawn moved

theorem step_moves (cfg : Config) (screen : Screen) (s after : State) (wake : Wake) (drawn : List Drawn)
    (stepped : (machine cfg screen).step s wake = some (after, drawn)) : s.main ≠ .exited ∧ Moves cfg screen s wake after drawn := by
  obtain ⟨alive, stepped⟩ := Option.ite_none_left_eq_some.mp stepped
  refine ⟨alive, ?_⟩
  cases wake with
  | task wake =>
      obtain ⟨⟨tasks, made⟩, ran, same⟩ := Option.map_eq_some_iff.mp stepped
      cases same
      exact .task wake tasks made ran
  | seed =>
      simp only [step] at stepped
      split at stepped
      · rename_i ev seeds starting left
        cases stepped
        exact .seed ev seeds starting left
      · cases stepped
  | enter =>
      obtain ⟨guarded, same⟩ := Option.ite_none_right_eq_some.mp stepped
      cases same
      exact .enter guarded.1
  | enterFails error =>
      obtain ⟨guarded, same⟩ := Option.ite_none_right_eq_some.mp stepped
      cases same
      exact .enterFails error guarded.1
  | tick => exact dashboard_moves cfg screen s after .tick _ drawn rfl rfl (by simp) stepped
  | poll => exact dashboard_moves cfg screen s after .poll _ drawn rfl rfl (by simp) stepped
  | swept => exact dashboard_moves cfg screen s after .swept _ drawn rfl rfl (by simp) stepped
  | sample now conns => exact dashboard_moves cfg screen s after (.sample now conns) _ drawn rfl rfl (by simp) stepped
  | key => exact key_moves cfg screen s after drawn stepped
  | keysEnd =>
      obtain ⟨guarded, same⟩ := Option.ite_none_right_eq_some.mp stepped
      cases same
      exact .leave .keysEnd rfl guarded.1
  | shutdownSeen =>
      obtain ⟨guarded, same⟩ := Option.ite_none_right_eq_some.mp stepped
      cases same
      exact .leave .shutdownSeen rfl guarded.1
  | drawFails error =>
      obtain ⟨guarded, same⟩ := Option.ite_none_right_eq_some.mp stepped
      cases same
      exact .drawFails error guarded
  | check =>
      obtain ⟨guarded, same⟩ := Option.ite_none_right_eq_some.mp stepped
      cases same
      exact .check guarded
  | polled outcome =>
      obtain ⟨guarded, same⟩ := Option.ite_none_right_eq_some.mp stepped
      cases same
      exact .polled outcome guarded
  | joined =>
      obtain ⟨guarded, same⟩ := Option.ite_none_right_eq_some.mp stepped
      cases same
      exact .joined guarded.1 guarded.2
  | serverEnds =>
      obtain ⟨guarded, same⟩ := Option.ite_none_right_eq_some.mp stepped
      cases same
      exact .exits .serverEnds rfl guarded.1
  | graceElapses =>
      obtain ⟨guarded, same⟩ := Option.ite_none_right_eq_some.mp stepped
      cases same
      exact .exits .graceElapses rfl guarded

-- The shutdown is flagged before main awaits the server, and the reader is told before it is joined.
structure Inv (s : State) : Prop where
  flagged : s.main = .waiting ∨ s.main = .exited → s.shutdown = true
  told : s.main = .joining → s.stop = true
  server : AcceptLoop.Winding s.tasks.server

theorem tasks_winding (cfg : Config) (shutdown : Bool) (t after : Tasks) (wake : TaskWake) (made : List Event)
    (winding : AcceptLoop.Winding t.server) (ran : t.step cfg shutdown wake = some (after, made)) : AcceptLoop.Winding after.server := by
  cases wake with
  | server wake =>
      obtain ⟨_, ran⟩ := Option.ite_none_right_eq_some.mp ran
      obtain ⟨⟨server, sent⟩, moved, same⟩ := Option.map_eq_some_iff.mp ran
      cases same
      exact AcceptLoop.step_winding cfg t.server server wake made winding moved
  | _ =>
      obtain ⟨_, same⟩ := Option.ite_none_right_eq_some.mp ran
      cases same
      exact winding

theorem forward_main (s : State) (outcome : Polled) : (forward s outcome).main = s.main ∧ (forward s outcome).shutdown = s.shutdown ∧
    (forward s outcome).stop = s.stop ∧ (forward s outcome).tasks = s.tasks ∧ (forward s outcome).session = s.session := by
  cases outcome with
  | nothing | failed error => exact ⟨rfl, rfl, rfl, rfl, rfl⟩
  | key action =>
      rw [forward]
      split <;> exact ⟨rfl, rfl, rfl, rfl, rfl⟩

theorem moves_inv (cfg : Config) (screen : Screen) (s after : State) (wake : Wake) (drawn : List Drawn) (inv : Inv s)
    (moves : Moves cfg screen s wake after drawn) : Inv after := by
  cases moves with
  | task wake tasks made ran => exact ⟨inv.flagged, inv.told, tasks_winding cfg s.shutdown s.tasks tasks wake made inv.server ran⟩
  | seed ev seeds starting left => exact ⟨inv.flagged, inv.told, inv.server⟩
  | enter starting => exact ⟨by simp, by simp, inv.server⟩
  | enterFails error starting => exact ⟨fun _ => rfl, by simp, inv.server⟩
  | dashboard _ _ act silent keyless next pictures inLoop moved => exact ⟨inv.flagged, inv.told, inv.server⟩
  | quit keys ready typed => exact ⟨fun _ => rfl, fun _ => rfl, inv.server⟩
  | key action keys ready typed stays next pictures moved => exact ⟨inv.flagged, inv.told, inv.server⟩
  | leave _ _ ready => exact ⟨by simp [leave], fun _ => rfl, inv.server⟩
  | drawFails error inLoop => exact ⟨fun _ => rfl, by simp, inv.server⟩
  | check checking => exact ⟨inv.flagged, inv.told, inv.server⟩
  | polled outcome polling =>
      obtain ⟨main, shutdown, stop, tasks, _⟩ := forward_main s outcome
      exact ⟨by rw [main, shutdown]; exact inv.flagged, by rw [main, stop]; exact inv.told, by rw [tasks]; exact inv.server⟩
  | joined joining ended => exact ⟨fun _ => rfl, by simp, inv.server⟩
  | exits _ _ waiting => exact ⟨fun _ => inv.flagged (.inl waiting), by simp, inv.server⟩

theorem reachable_inv (cfg : Config) (screen : Screen) (listenStr : String) (mock : Bool) (s : State)
    (reached : (machine cfg screen).Reachable (start cfg listenStr mock) s) : Inv s := by
  refine (machine cfg screen).reachable_invariant (start cfg listenStr mock) Inv ?_ ?_ s reached
  · exact ⟨by simp [start], by simp [start], by simp [start, AcceptLoop.start], by simp [start, AcceptLoop.start]⟩
  · intro s wake after drawn inv stepped
    exact moves_inv cfg screen s after wake drawn inv (step_moves cfg screen s after wake drawn stepped).2

def Over (s : State) : Prop := s.main = .joining ∨ s.main = .waiting ∨ s.main = .exited

-- What main still waits for, once its front end is over: the reader while it joins it, and itself.
def front (s : State) : Wake → List Unit
  | .check | .polled _ => if s.main = .joining then [()] else []
  | .joined | .serverEnds | .graceElapses => [()]
  | _ => []

def Reader.rank : Reader → Nat
  | .polling => 2
  | .checking => 1
  | .ended => 0

def distance (s : State) : Nat :=
  match s.main with
  | .joining => s.reader.rank + 2
  | .waiting => 1
  | _ => 0

theorem forward_rank (s : State) (outcome : Polled) : (forward s outcome).reader.rank ≤ 1 := by
  cases outcome with
  | nothing => exact le_rfl
  | failed error => exact Nat.zero_le 1
  | key action =>
      rw [forward]
      split
      · exact le_rfl
      · exact Nat.zero_le 1

theorem joining_distance (s : State) (joining : s.main = .joining) : distance s = s.reader.rank + 2 := by rw [distance, joining]

theorem moves_distance (cfg : Config) (screen : Screen) (s after : State) (wake : Wake) (drawn : List Drawn) (inv : Inv s)
    (finished : Over s) (moves : Moves cfg screen s wake after drawn) :
    Over after ∧ distance after + (front s wake).length ≤ distance s := by
  have shut : s.main ≠ .starting ∧ s.main ≠ .dashboard := by
    rcases finished with main | main | main <;> rw [main] <;> exact ⟨by simp, by simp⟩
  cases moves with
  | task wake tasks made ran => exact ⟨finished, le_rfl⟩
  | seed ev seeds starting left => exact absurd starting shut.1
  | enter starting => exact absurd starting shut.1
  | enterFails error starting => exact absurd starting shut.1
  | dashboard _ _ act silent keyless next pictures inLoop moved => exact absurd inLoop shut.2
  | quit keys ready typed => exact absurd ready.1 shut.2
  | key action keys ready typed stays next pictures moved => exact absurd ready.1 shut.2
  | leave _ _ ready => exact absurd ready.1 shut.2
  | drawFails error inLoop => exact absurd inLoop shut.2
  | check checking =>
      refine ⟨finished, ?_⟩
      rcases finished with joining | waiting | exited
      · simp [distance, front, joining, checking, inv.told joining, Reader.rank]
      · simp [distance, front, waiting]
      · simp [distance, front, exited]
  | polled outcome polling =>
      have main := (forward_main s outcome).1
      have nearer := forward_rank s outcome
      refine ⟨by rw [Over, main]; exact finished, ?_⟩
      rcases finished with joining | waiting | exited
      · rw [joining_distance _ (main.trans joining), joining_distance s joining, polling]
        have one : (front s (.polled outcome)).length = 1 := by simp [front, joining]
        have two : Reader.polling.rank = 2 := rfl
        omega
      · simp [distance, front, main, waiting]
      · simp [distance, front, main, exited]
  | joined joining ended =>
      refine ⟨.inr (.inl rfl), ?_⟩
      rw [joining_distance s joining]
      simp [distance, front]
  | exits _ _ waiting =>
      refine ⟨.inr (.inr rfl), ?_⟩
      cases wake <;> simp [distance, front, waiting]

theorem front_enabled (cfg : Config) (screen : Screen) (s : State) (finished : Over s) (alive : s.main ≠ .exited) :
    ∃ wake after drawn, front s wake = [()] ∧ (machine cfg screen).step s wake = some (after, drawn) := by
  rcases finished with joining | waiting | exited
  · cases reader : s.reader with
    | checking => exact ⟨.check, _, [], by simp [front, joining], by simp [machine, joining, step, reader]; rfl⟩
    | polling => exact ⟨.polled .nothing, _, [], by simp [front, joining], by simp [machine, joining, step, reader]; rfl⟩
    | ended => exact ⟨.joined, _, [], rfl, by simp [machine, joining, step, reader]; rfl⟩
  · exact ⟨.graceElapses, _, [], rfl, by simp [machine, waiting, step]; rfl⟩
  · exact absurd exited alive

theorem over_run (cfg : Config) (screen : Screen) (s t : State) (wakes : List Wake) (notes : List Unit) (inv : Inv s) (ended : Over s)
    (run : ((machine cfg screen).noted front).Run s wakes notes t) : Inv t ∧ Over t ∧ distance t + notes.length ≤ distance s := by
  refine Machine.run_invariant _ s (fun _ notes t => Inv t ∧ Over t ∧ distance t + notes.length ≤ distance s) ⟨inv, ended, le_rfl⟩ ?_
    wakes notes t run
  intro wakes notes t wake after more held stepped
  obtain ⟨inv, ended, near⟩ := held
  obtain ⟨rfl, drawn, moved⟩ := Machine.noted_step _ _ _ _ _ _ stepped
  have moves := (step_moves cfg screen t after wake drawn moved).2
  obtain ⟨still, nearer⟩ := moves_distance cfg screen t after wake drawn inv ended moves
  refine ⟨moves_inv cfg screen t after wake drawn inv moves, still, ?_⟩
  rw [List.length_append]
  omega

-- With every task ended in its time, main leaves because the server has returned.
def Clean (s : State) : Prop := s.main = .exited ∧ s.tasks.server.phase = .returned ∧ s.tasks.server.running = []

def unfinished (s : State) : Nat := distance s + AcceptLoop.remaining s.tasks.server

theorem join_nearer (cfg : Config) (screen : Screen) (s : State) (inv : Inv s) (joining : s.main = .joining) :
    ∃ wake after, (machine cfg screen).step s wake = some (after, []) ∧ after.main ≠ .exited ∧ after.tasks = s.tasks ∧
      distance after < distance s := by
  rw [joining_distance s joining]
  cases reader : s.reader with
  | checking =>
      refine ⟨.check, { s with reader := .ended }, ?_, by simp [joining], rfl, ?_⟩
      · simp [machine, joining, step, reader, inv.told joining]
      · simp [distance, joining, Reader.rank]
  | polling =>
      refine ⟨.polled .nothing, { s with reader := .checking }, ?_, by simp [joining], rfl, ?_⟩
      · simp [machine, joining, step, reader, forward]
      · simp [distance, joining, Reader.rank]
  | ended =>
      refine ⟨.joined, { s with main := .waiting, shutdown := true }, ?_, by simp, rfl, ?_⟩
      · simp [machine, joining, step, reader]
      · simp [distance, Reader.rank]

theorem clean_nearer (cfg : Config) (screen : Screen) (s : State) (inv : Inv s) (ended : Over s) (alive : s.main ≠ .exited) :
    ∃ wake after drawn, (machine cfg screen).step s wake = some (after, drawn) ∧ (after.main = .exited → Clean after) ∧
      unfinished after < unfinished s := by
  rcases ended with joining | waiting | exited
  · obtain ⟨wake, after, stepped, alive, tasks, nearer⟩ := join_nearer cfg screen s inv joining
    refine ⟨wake, after, [], stepped, fun exited => absurd exited alive, ?_⟩
    rw [unfinished, unfinished, tasks]
    omega
  · by_cases returned : s.tasks.server.phase = .returned
    · refine ⟨.serverEnds, { s with main := .exited }, [], by simp [machine, waiting, step, returned],
        fun _ => ⟨rfl, returned, (inv.server.returned returned).1⟩, ?_⟩
      simp [unfinished, distance, waiting]
    · obtain ⟨wake, server, moved, less, told⟩ := AcceptLoop.winds_down cfg s.tasks.server inv.server returned
      have hears : heard s.shutdown wake = true := by
        cases wake with
        | shutdown closing => simp [heard, told closing rfl, inv.flagged (.inl waiting)]
        | _ => rfl
      refine ⟨.task (.server wake), { s with tasks := { s.tasks with server } }, [], ?_, fun exited => absurd exited alive, ?_⟩
      · simp [machine, waiting, step, Tasks.step, hears, moved, publish]
      · simp only [unfinished, distance, waiting]
        omega
  · exact absurd exited alive

theorem clean_reached (cfg : Config) (screen : Screen) (s : State) (inv : Inv s) (ended : Over s) (alive : s.main ≠ .exited) :
    ∃ t, (machine cfg screen).Reachable s t ∧ Clean t := by
  have nearer : ∀ s, Inv s ∧ Over s ∧ (s.main = .exited → Clean s) → ¬ s.main = .exited → ∃ wake after drawn,
      (machine cfg screen).step s wake = some (after, drawn) ∧ (Inv after ∧ Over after ∧ (after.main = .exited → Clean after)) ∧
        unfinished after < unfinished s := by
    intro s held busy
    obtain ⟨inv, ended, _⟩ := held
    obtain ⟨wake, after, drawn, stepped, clean, less⟩ := clean_nearer cfg screen s inv ended busy
    have moves := (step_moves cfg screen s after wake drawn stepped).2
    exact ⟨wake, after, drawn, stepped, ⟨moves_inv cfg screen s after wake drawn inv moves,
      (moves_distance cfg screen s after wake drawn inv ended moves).1, clean⟩, less⟩
  obtain ⟨t, reached, ⟨_, _, clean⟩, exited⟩ := Machine.reachable_goal (machine cfg screen)
    (fun s => Inv s ∧ Over s ∧ (s.main = .exited → Clean s)) (fun s => s.main = .exited) unfinished nearer s
    ⟨inv, ended, fun exited => absurd exited alive⟩
  exact ⟨t, reached, clean exited⟩

-- Once the dashboard is over nothing can keep main: at most four steps of its own and of the reader lie before its
-- end, one of them can always be taken, and it may as well end by waiting for every connection.
theorem interactive_exits (cfg : Config) (screen : Screen) (listenStr : String) (mock : Bool) (s : State)
    (reached : (machine cfg screen).Reachable (start cfg listenStr mock) s) :
    (s.main = .waiting ∨ s.main = .exited → s.shutdown = true) ∧
    (Over s → ∀ wakes notes t, ((machine cfg screen).noted front).Run s wakes notes t → notes.length ≤ 4 ∧
      (t.main ≠ .exited → (∃ wake after drawn, front t wake = [()] ∧ (machine cfg screen).step t wake = some (after, drawn)) ∧
        ∃ u, (machine cfg screen).Reachable t u ∧ Clean u)) := by
  have inv := reachable_inv cfg screen listenStr mock s reached
  refine ⟨inv.flagged, ?_⟩
  intro ended wakes notes t run
  obtain ⟨later, still, near⟩ := over_run cfg screen s t wakes notes inv ended run
  have four : distance s ≤ 4 := by
    rcases ended with joining | waiting | exited
    · rw [joining_distance s joining]
      cases s.reader <;> simp [Reader.rank]
    · simp [distance, waiting]
    · simp [distance, exited]
  refine ⟨by omega, ?_⟩
  intro alive
  exact ⟨front_enabled cfg screen t still alive, clean_reached cfg screen t later still alive⟩

theorem interactive_exits_quit : ∃ s : State, s.main = .joining ∧ s.reader = .polling ∧ s.tasks.server.running = [Headless.inFlight] ∧
    ∀ wakes notes t, ((machine Config.default ⟨24, by decide⟩).noted front).Run s wakes notes t → notes.length ≤ 4 := by
  have known := interactive_exits Config.default ⟨24, by decide⟩ "127.0.0.1:1080" false _
    ⟨[.task (.server (.accepted Headless.inFlight.peer)), .seed, .seed, .seed, .enter, .check, .polled (.key .quit), .check, .key], _,
      Machine.exec_run _ _ _ _ _ rfl⟩
  exact ⟨_, rfl, rfl, rfl, fun wakes notes t run => (known.2 (.inl rfl) wakes notes t run).1⟩

def typedBy (wakes : List Wake) : List KeyAction := wakes.filterMap Wake.typed

def handled : Tui.Act → Option KeyAction
  | .key action => some action
  | _ => none

def handledBy (acts : List Tui.Act) : List KeyAction := acts.filterMap handled

-- What the session was given, and where each key is that the reader read.
structure Lands (screen : Screen) (wakes : List Wake) (outputs : List Drawn) (s : State) (acts : List Tui.Act) : Prop where
  ran : (session eventCapacity screen).Run .new acts outputs s.session
  starting : s.main = .starting → s.reader = .ended
  keys : s.main = .starting ∨ s.main = .dashboard → typedBy wakes = handledBy acts ++ s.keys
  last : s.main = .joining → ∃ last, (last = [] ∨ last = [.quit]) ∧ typedBy wakes = handledBy acts ++ (last ++ s.keys)
  stays : .quit ∉ handledBy acts

theorem typed_snoc (wakes : List Wake) (wake : Wake) : typedBy (wakes ++ [wake]) = typedBy wakes ++ wake.typed.toList := by
  rw [typedBy, List.filterMap_append, ← typedBy]
  cases typed : wake.typed <;> simp [typed]

theorem handled_snoc (acts : List Tui.Act) (act : Tui.Act) : handledBy (acts ++ [act]) = handledBy acts ++ (handled act).toList := by
  rw [handledBy, List.filterMap_append, ← handledBy]
  cases act <;> rfl

theorem lands_publish (screen : Screen) (wakes : List Wake) (outputs : List Drawn) (s : State) (acts : List Tui.Act) (made : List Event)
    (lands : Lands screen wakes outputs s acts) : ∃ acts, Lands screen wakes outputs (publish s made) acts := by
  have sends := (session eventCapacity screen).run_fold .send _ (fun _ _ => rfl) s.session made
  have ran := (session eventCapacity screen).run_append _ _ _ _ _ _ _ lands.ran sends
  have nothing : handledBy (made.map .send) = [] := by
    rw [handledBy, List.filterMap_map]
    exact List.filterMap_eq_nil_iff.mpr fun _ _ => rfl
  have same : handledBy (acts ++ made.map .send) = handledBy acts := by
    rw [handledBy, List.filterMap_append, ← handledBy, ← handledBy, nothing, List.append_nil]
  rw [List.append_nil] at ran
  exact ⟨_, ran, lands.starting, by rw [same]; exact lands.keys, by rw [same]; exact lands.last, by rw [same]; exact lands.stays⟩

theorem moves_lands (cfg : Config) (screen : Screen) (wakes : List Wake) (outputs drawn : List Drawn) (s after : State) (wake : Wake)
    (acts : List Tui.Act) (lands : Lands screen wakes outputs s acts) (moves : Moves cfg screen s wake after drawn) :
    ∃ acts, Lands screen (wakes ++ [wake]) (outputs ++ drawn) after acts := by
  have quiet (untyped : wake.typed = none) : typedBy (wakes ++ [wake]) = typedBy wakes := by
    rw [typed_snoc, untyped, Option.toList_none, List.append_nil]
  -- A step that only tells the tasks or the reader something.
  have same (next : State) (acts : List Tui.Act) (untyped : wake.typed = none) (kept : Lands screen wakes outputs next acts) :
      ∃ acts, Lands screen (wakes ++ [wake]) (outputs ++ []) next acts := by
    rw [List.append_nil]
    exact ⟨acts, kept.ran, kept.starting, by rw [quiet untyped]; exact kept.keys, by rw [quiet untyped]; exact kept.last, kept.stays⟩
  obtain ⟨ran, starting, keys, last, stays⟩ := lands
  cases moves with
  | task wake tasks made _ =>
      obtain ⟨acts, kept⟩ := lands_publish screen wakes outputs { s with tasks } acts made ⟨ran, starting, keys, last, stays⟩
      exact same _ acts rfl kept
  | seed ev seeds _ _ =>
      obtain ⟨acts, kept⟩ := lands_publish screen wakes outputs { s with seeds } acts [ev] ⟨ran, starting, keys, last, stays⟩
      exact same _ acts rfl kept
  | enter began => exact same _ acts rfl ⟨ran, by simp, fun _ => keys (.inl began), by simp, stays⟩
  | enterFails error began => exact same _ acts rfl ⟨ran, by simp, by simp, by simp, stays⟩
  | dashboard _ untyped act silent keyless next _ inLoop moved =>
      have empty : handled act = none := by
        cases act with
        | key action => exact absurd rfl (keyless action)
        | _ => rfl
      have unhandled : handledBy (acts ++ [act]) = handledBy acts := by
        rw [handled_snoc, empty, Option.toList_none, List.append_nil]
      exact ⟨acts ++ [act], ran.next act drawn next moved, starting, by rw [quiet untyped, unhandled]; exact keys,
        by rw [quiet untyped, unhandled]; exact last, by rw [unhandled]; exact stays⟩
  | quit rest ready typed =>
      refine same _ acts rfl ⟨ran, by simp [leave], by simp [leave], fun _ => ⟨[.quit], .inr rfl, ?_⟩, stays⟩
      rw [keys (.inr ready.1), typed]
      rfl
  | key action rest ready typed other next _ moved =>
      refine ⟨acts ++ [.key action], ran.next (.key action) drawn next moved, starting, ?_, ?_, ?_⟩
      · intro _
        rw [quiet rfl, keys (.inr ready.1), typed, handled_snoc]
        simp [handled]
      · intro joining
        have inLoop : s.main = .joining := joining
        rw [ready.1] at inLoop
        cases inLoop
      · rw [handled_snoc]
        simpa [handled] using ⟨stays, fun quit => other quit.symm⟩
  | leave _ untyped ready =>
      refine same _ acts untyped ⟨ran, by simp [leave], by simp [leave], fun _ => ⟨[], .inl rfl, ?_⟩, stays⟩
      exact keys (.inr ready.1)
  | drawFails error inLoop => exact same _ acts rfl ⟨ran, by simp, by simp, by simp, stays⟩
  | check checking =>
      refine same _ acts rfl ⟨ran, ?_, keys, last, stays⟩
      intro began
      have ended := starting began
      rw [checking] at ended
      cases ended
  | polled outcome polling =>
      obtain ⟨main, _, _, _, sessionKept⟩ := forward_main s outcome
      have began : s.main ≠ .starting := by
        intro began
        have ended := starting began
        rw [polling] at ended
        cases ended
      have appended : s.main = .dashboard ∨ s.main = .joining → (forward s outcome).keys = s.keys ++ (Wake.polled outcome).typed.toList := by
        intro listens
        cases outcome with
        | nothing | failed error => exact (List.append_nil _).symm
        | key action => rw [forward, if_pos listens]; rfl
      rw [List.append_nil]
      refine ⟨acts, by rw [sessionKept]; exact ran, by rw [main]; exact fun first => absurd first began, ?_, ?_, stays⟩
      · rw [main]
        intro inLoop
        have listens := inLoop.resolve_left began
        rw [typed_snoc, keys inLoop, appended (.inl listens), List.append_assoc]
      · rw [main]
        intro joining
        obtain ⟨outcomeEnd, known, split⟩ := last joining
        refine ⟨outcomeEnd, known, ?_⟩
        rw [typed_snoc, split, appended (.inr joining)]
        simp
  | joined joining ended => exact same _ acts rfl ⟨ran, by simp, by simp, by simp, stays⟩
  | exits _ untyped waiting => exact same _ acts untyped ⟨ran, by simp, by simp, by simp, stays⟩

theorem run_lands (cfg : Config) (screen : Screen) (listenStr : String) (mock : Bool) (wakes : List Wake) (outputs : List Drawn)
    (s : State) (run : (machine cfg screen).Run (start cfg listenStr mock) wakes outputs s) :
    ∃ acts, Lands screen wakes outputs s acts := by
  refine (machine cfg screen).run_invariant (start cfg listenStr mock) (fun wakes outputs s => ∃ acts, Lands screen wakes outputs s acts)
    ⟨[], .idle, fun _ => rfl, fun _ => rfl, by simp [start], by simp [handledBy]⟩ ?_ wakes outputs s run
  intro wakes outputs s wake after drawn held stepped
  obtain ⟨acts, lands⟩ := held
  exact moves_lands cfg screen wakes outputs drawn s after wake acts lands (step_moves cfg screen s after wake drawn stepped).2

-- Every key lands: those read so far are the ones handled, in their order, and the ones queued; none is handled
-- after the one that quits.
theorem keys_land (cfg : Config) (screen : Screen) (listenStr : String) (mock : Bool) (wakes : List Wake) (outputs : List Drawn)
    (s : State) (run : (machine cfg screen).Run (start cfg listenStr mock) wakes outputs s) :
    ∃ acts, (session eventCapacity screen).Run .new acts outputs s.session ∧ .quit ∉ handledBy acts ∧
      (s.main = .dashboard → typedBy wakes = handledBy acts ++ s.keys) ∧
      (s.main = .joining → ∃ last, (last = [] ∨ last = [.quit]) ∧ typedBy wakes = handledBy acts ++ (last ++ s.keys)) := by
  obtain ⟨acts, lands⟩ := run_lands cfg screen listenStr mock wakes outputs s run
  exact ⟨acts, lands.ran, lands.stays, fun inLoop => lands.keys (.inr inLoop), lands.last⟩

-- Three keys, of which the reader sends one after the dashboard is over.
theorem keys_land_quit : ∃ (outputs : List Drawn) (s : State) (acts : List Tui.Act) (last : List KeyAction),
    (session eventCapacity ⟨24, by decide⟩).Run .new acts outputs s.session ∧ s.keys = [.cycleSort] ∧
    (last = [] ∨ last = [.quit]) ∧ [.switchFocus, .quit, .cycleSort] = handledBy acts ++ (last ++ [.cycleSort]) := by
  have run := (machine Config.default ⟨24, by decide⟩).exec_run (start Config.default "127.0.0.1:1080" false)
    [.seed, .seed, .seed, .enter, .check, .polled (.key .switchFocus), .check, .key, .polled (.key .quit), .check, .key,
      .polled (.key .cycleSort)] _ _ rfl
  obtain ⟨acts, ran, _, _, joining⟩ := keys_land _ _ _ _ _ _ _ run
  obtain ⟨last, known, split⟩ := joining rfl
  exact ⟨_, _, acts, last, ran, rfl, known, split⟩

end Interactive

end NextSocks5
