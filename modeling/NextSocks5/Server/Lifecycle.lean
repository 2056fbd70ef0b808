import NextSocks5.Server.Associate
import NextSocks5.Server.Connect
import NextSocks5.Server.Traffic

set_option autoImplicit false

namespace NextSocks5

namespace Registry

open Relay (Direction)

inductive Operation where
  | register (src : SocketAddr) (target : String) (kind : ConnKind)
  | add (dir : Direction) (n : Nat)
  | recordSuccess
  | recordError (code : UInt8)
  | unregister

def addBytes (m : Metrics) (id : Nat) (dir : Direction) (n : Nat) : Metrics :=
  match dir with
  | .up => m.addUp id n
  | .down => m.addDown id n

def perform : Option Nat × Metrics → Operation → Option Nat × Metrics
  | (_, m), .register src target kind => (some (m.register src target kind).1, (m.register src target kind).2)
  | (some id, m), .add dir n => (some id, addBytes m id dir n)
  | (some id, m), .unregister => (none, m.unregister id)
  | (id, m), .recordSuccess => (id, m.recordSuccess)
  | (id, m), .recordError code => (id, m.recordError code)
  | (none, m), _ => (none, m)

def telling (id : Nat) : Operation → Option Event
  | .register src target kind => some (.connect id src target kind)
  | .unregister => some (.closed id)
  | _ => none

def adds (amounts : List (Direction × Nat)) : List Operation := amounts.map fun (dir, n) => .add dir n

def closing (ended : Bool) : List Operation := if ended then [.recordSuccess, .unregister] else []

-- The operations of a task up to some point, and in all once it has ended.
inductive Lifecycle (ended : Bool) : List Operation → Prop where
  | silent : Lifecycle ended []
  | refused (code : UInt8) (finished : ended = true) : Lifecycle ended [.recordError code]
  | opened (src : SocketAddr) (target : String) (kind : ConnKind) (amounts : List (Direction × Nat)) :
      Lifecycle ended (.register src target kind :: (adds amounts ++ closing ended))

theorem adds_telling (id : Nat) (amounts : List (Direction × Nat)) : (adds amounts).filterMap (telling id) = [] := by
  simp [adds, List.filterMap_map, Function.comp_def, telling]

theorem adds_append (first second : List (Direction × Nat)) : adds (first ++ second) = adds first ++ adds second := List.map_append

end Registry

def Event.tells : Event → Option Event
  | .connect id src target kind => some (.connect id src target kind)
  | .closed id => some (.closed id)
  | _ => none

namespace Connect

open Registry (Operation Lifecycle perform adds closing telling)

def countedOperation (output : Relay.Output) : List Operation :=
  match output.trace with
  | .counted n => [.add output.dir n]
  | _ => []

def operations (c : Call) (s : State) (event : Nat × Wake) : List Operation :=
  match event.2, s.phase with
  | .accept k, .refusing err _ rest => if k = rest.length then [.recordError err.replyCode] else []
  | .writeFailed, .refusing err _ _ => [.recordError err.replyCode]
  | .accept k, .replying rest => if k = rest.length then [.register c.peer (addressToString c.target) .connect] else []
  | .accept k, .initial _ rest => if k = rest.length then [.add .up c.initial.length] else []
  | .writeFailed, .initial _ _ => [.recordSuccess, .unregister]
  | .relay dir act, .relaying _ relay =>
      match Relay.step c.idle relay ⟨event.1, dir, act⟩ with
      | some (_, outputs) => outputs.flatMap countedOperation
      | none => []
  | .joined, .relaying _ _ | .shutdown, .relaying _ _ => [.recordSuccess, .unregister]
  | _, _ => []

theorem count_performs (id : Nat) (m : Metrics) (outputs : List Relay.Output) :
    (outputs.flatMap countedOperation).foldl perform (some id, m) = (some id, outputs.foldl (count id) m) := by
  induction outputs generalizing m with
  | nil => rfl
  | cons output outputs ih =>
      have one : (countedOperation output).foldl perform (some id, m) = (some id, count id m output) := by
        obtain ⟨time, dir, trace⟩ := output
        cases trace <;> cases dir <;> rfl
      rw [List.flatMap_cons, List.foldl_append, one, ih, List.foldl_cons]

theorem counted_adds (outputs : List Relay.Output) : ∃ amounts, outputs.flatMap countedOperation = adds amounts := by
  induction outputs with
  | nil => exact ⟨[], rfl⟩
  | cons output outputs ih =>
      obtain ⟨amounts, rest⟩ := ih
      obtain ⟨time, dir, trace⟩ := output
      cases trace with
      | counted n => exact ⟨(dir, n) :: amounts, by simp [countedOperation, adds, rest]⟩
      | _ => exact ⟨amounts, by simp [countedOperation, rest]⟩

theorem step_performs (c : Call) (s after : State) (now : Nat) (wake : Wake) (made : List Output)
    (stepped : (machine c).step s (now, wake) = some (after, made)) (own : ∀ metrics, wake ≠ .others metrics) :
    (operations c s (now, wake)).foldl perform (s.phase.id, s.metrics) = (after.phase.id, after.metrics) := by
  have moves := step_moves c s after now wake made stepped
  obtain ⟨before, metrics, phase⟩ := s
  cases moves with
  | establishing e next wake dials phaseIs moved =>
      cases phaseIs
      have unnamed : (established c now next).id = none := by
        rw [established]
        split <;> rfl
      simp only [operations, List.foldl_nil]
      exact congrArg (fun id => (id, metrics)) unnamed.symm
  | refusing err msg rest k phaseIs partly =>
      cases phaseIs
      have short : k ≠ rest.length := by omega
      simp [operations, short, Phase.id]
  | refused err msg rest k phaseIs whole =>
      cases phaseIs
      simp [operations, whole, refuse, Phase.id, perform]
  | replying rest k phaseIs partly =>
      cases phaseIs
      have short : k ≠ rest.length := by omega
      simp [operations, short, Phase.id]
  | replied rest k phaseIs whole =>
      cases phaseIs
      by_cases empty : c.initial = []
      · simp [operations, whole, register, Phase.id, perform, empty]
      · simp [operations, whole, register, Phase.id, perform, empty]
  | forwarding id rest k phaseIs partly =>
      cases phaseIs
      have short : k ≠ rest.length := by omega
      simp [operations, short, Phase.id]
  | forwarded id rest k phaseIs whole =>
      cases phaseIs
      simp [operations, whole, Phase.id, perform, Registry.addBytes]
  | refusalFailed err msg rest phaseIs =>
      cases phaseIs
      simp [operations, refuse, Phase.id, perform]
  | replyFailed rest phaseIs =>
      cases phaseIs
      simp [operations, Phase.id]
  | initialFailed id rest phaseIs =>
      cases phaseIs
      simp [operations, finish, Phase.id, perform]
  | relaying id relay later dir act outputs phaseIs turned =>
      cases phaseIs
      simp only [operations, turned, Phase.id]
      exact count_performs id metrics outputs
  | joined id relay phaseIs done =>
      cases phaseIs
      simp [operations, finish, Phase.id, perform]
  | shutdown id relay phaseIs =>
      cases phaseIs
      simp [operations, finish, Phase.id, perform]
  | others metrics foreign => exact absurd rfl (own metrics)

def tale : Output → Option Event
  | .emit ev => ev.tells
  | _ => none

theorem step_tells (c : Call) (s after : State) (now : Nat) (wake : Wake) (made : List Output) (id : Nat)
    (stepped : (machine c).step s (now, wake) = some (after, made))
    (own : ∀ named, s.phase.id = some named ∨ after.phase.id = some named → named = id) :
    made.filterMap tale = (operations c s (now, wake)).filterMap (telling id) := by
  have moves := step_moves c s after now wake made stepped
  obtain ⟨before, metrics, phase⟩ := s
  cases moves with
  | establishing e next wake dials phaseIs moved =>
      simp [operations, List.filterMap_map, Function.comp_def, tale]
  | refusing err msg rest k phaseIs partly =>
      cases phaseIs
      have short : k ≠ rest.length := by omega
      simp [operations, short, tale, List.filterMap_cons]
  | refused err msg rest k phaseIs whole =>
      cases phaseIs
      simp [operations, whole, refuse, tale, Event.tells, telling, List.filterMap_cons]
  | replying rest k phaseIs partly =>
      cases phaseIs
      have short : k ≠ rest.length := by omega
      simp [operations, short, tale, List.filterMap_cons]
  | replied rest k phaseIs whole =>
      cases phaseIs
      have named : (metrics.register c.peer (addressToString c.target) .connect).1 = id := by
        refine own _ (.inr ?_)
        simp only [register]
        split <;> rfl
      simp [operations, whole, register, tale, Event.tells, telling, named, List.filterMap_cons]
  | forwarding id rest k phaseIs partly =>
      cases phaseIs
      have short : k ≠ rest.length := by omega
      simp [operations, short, tale, List.filterMap_cons]
  | forwarded id rest k phaseIs whole =>
      cases phaseIs
      simp [operations, whole, tale, telling, List.filterMap_cons]
  | refusalFailed err msg rest phaseIs =>
      cases phaseIs
      simp [operations, refuse, tale, Event.tells, telling, List.filterMap_cons]
  | replyFailed rest phaseIs =>
      cases phaseIs
      simp [operations, tale, List.filterMap_cons]
  | initialFailed held rest phaseIs =>
      cases phaseIs
      have named := own held (.inl rfl)
      simp [operations, finish, tale, Event.tells, telling, named, List.filterMap_cons]
  | relaying held relay later dir act outputs phaseIs turned =>
      cases phaseIs
      obtain ⟨amounts, counts⟩ := counted_adds outputs
      simp only [operations, turned, counts, Registry.adds_telling]
      simp [List.filterMap_map, Function.comp_def, tale]
  | joined held relay phaseIs done =>
      cases phaseIs
      have named := own held (.inl rfl)
      simp [operations, finish, tale, Event.tells, telling, named, List.filterMap_cons]
  | shutdown held relay phaseIs =>
      cases phaseIs
      have named := own held (.inl rfl)
      simp [operations, finish, tale, Event.tells, telling, named, List.filterMap_cons]
  | others metrics foreign => simp [operations]

def Called (c : Call) (phase : Phase) (called : List Operation) : Prop :=
  match phase with
  | .initial _ _ | .relaying _ _ =>
      ∃ amounts, called = .register c.peer (addressToString c.target) .connect :: adds amounts
  | .finished => Lifecycle true called
  | _ => called = []

theorem called_closing (c : Call) (called : List Operation)
    (opened : ∃ amounts, called = .register c.peer (addressToString c.target) .connect :: adds amounts) :
    Lifecycle true (called ++ [.recordSuccess, .unregister]) := by
  obtain ⟨amounts, rfl⟩ := opened
  exact .opened c.peer (addressToString c.target) .connect amounts

theorem established_called (c : Call) (now : Nat) (e : Establish.State) : Called c (established c now e) [] := by
  rw [established]
  split <;> rfl

theorem step_called (c : Call) (s after : State) (event : Nat × Wake) (made : List Output) (called : List Operation)
    (held : Called c s.phase called) (stepped : (machine c).step s event = some (after, made)) :
    Called c after.phase (called ++ operations c s event) := by
  obtain ⟨now, wake⟩ := event
  have moves := step_moves c s after now wake made stepped
  obtain ⟨before, metrics, phase⟩ := s
  cases moves with
  | establishing e next wake dials phaseIs moved =>
      cases phaseIs
      cases held
      exact established_called c now next
  | refusing err msg rest k phaseIs partly =>
      cases phaseIs
      cases held
      have short : k ≠ rest.length := by omega
      simp [operations, short, Called]
  | refused err msg rest k phaseIs whole =>
      cases phaseIs
      cases held
      simp only [operations, if_pos whole, List.nil_append]
      exact .refused err.replyCode rfl
  | replying rest k phaseIs partly =>
      cases phaseIs
      cases held
      have short : k ≠ rest.length := by omega
      simp [operations, short, Called]
  | replied rest k phaseIs whole =>
      cases phaseIs
      cases held
      simp only [operations, if_pos whole, List.nil_append, register]
      split <;> exact ⟨[], rfl⟩
  | forwarding id rest k phaseIs partly =>
      cases phaseIs
      have short : k ≠ rest.length := by omega
      simpa [operations, short, Called] using held
  | forwarded id rest k phaseIs whole =>
      cases phaseIs
      obtain ⟨amounts, rfl⟩ := held
      simp only [operations, if_pos whole]
      exact ⟨amounts ++ [(.up, c.initial.length)], by simp [adds]⟩
  | refusalFailed err msg rest phaseIs =>
      cases phaseIs
      cases held
      exact .refused err.replyCode rfl
  | replyFailed rest phaseIs =>
      cases phaseIs
      cases held
      exact .silent
  | initialFailed id rest phaseIs =>
      cases phaseIs
      exact called_closing c called held
  | relaying id relay later dir act outputs phaseIs turned =>
      cases phaseIs
      obtain ⟨amounts, rfl⟩ := held
      obtain ⟨more, counts⟩ := counted_adds outputs
      simp only [operations, turned, counts]
      exact ⟨amounts ++ more, by simp [adds]⟩
  | joined id relay phaseIs done =>
      cases phaseIs
      exact called_closing c called held
  | shutdown id relay phaseIs =>
      cases phaseIs
      exact called_closing c called held
  | others metrics foreign => simpa [operations] using held

theorem run_called (c : Call) (metrics : Metrics) (events : List (Nat × Wake)) (called : List Operation) (s : State)
    (run : ((machine c).noted (operations c)).Run (start c metrics) events called s) : Called c s.phase called := by
  have initial : Called c (start c metrics).phase [] := rfl
  refine Machine.run_invariant _ _ (fun _ called s => Called c s.phase called) initial ?_ events called s run
  intro events called s event after made held stepped
  obtain ⟨rfl, outputs, moved⟩ := Machine.noted_step _ _ s after event made stepped
  exact step_called c s after event outputs called held moved

def ended : Phase → Bool
  | .finished => true
  | _ => false

theorem registered_lifecycle (c : Call) (amounts : List (Relay.Direction × Nat)) :
    Lifecycle false (.register c.peer (addressToString c.target) .connect :: adds amounts) := by
  have opened : Lifecycle false _ := .opened c.peer (addressToString c.target) .connect amounts
  simpa [closing] using opened

theorem called_lifecycle (c : Call) (phase : Phase) (called : List Operation) (held : Called c phase called) :
    Lifecycle (ended phase) called := by
  cases phase with
  | initial id rest =>
      obtain ⟨amounts, rfl⟩ := held
      exact registered_lifecycle c amounts
  | relaying id relay =>
      obtain ⟨amounts, rfl⟩ := held
      exact registered_lifecycle c amounts
  | finished => exact held
  | _ =>
      cases held
      exact .silent

end Connect

namespace Udp

open Registry (Operation Lifecycle perform adds closing telling)

def operation : Output → List Operation
  | .addUp n => [.add .up n]
  | .addDown n => [.add .down n]
  | .recordSuccess => [.recordSuccess]
  | .unregister => [.unregister]
  | _ => []

def effectOperation : Effect → List Operation
  | .recordError code => [.recordError code]
  | _ => []

def tale : Output → Option Event
  | .emit ev => ev.tells
  | _ => none

def effectTale : Effect → Option Event
  | .emit ev => ev.tells
  | _ => none

structure Ordinary (s after : State) (made : List Output) : Prop where
  running : after.running = s.running
  adds : ∃ amounts, made.flatMap operation = adds amounts
  silent : made.filterMap tale = []

theorem ordinary_quiet (s after : State) (running : after.running = s.running) : Ordinary s after [] := ⟨running, ⟨[], rfl⟩, rfl⟩

theorem track_target_running (a : Association) (s : State) (target : SocketAddr) : (trackTarget a s target).running = s.running := by
  rw [trackTarget]
  split
  · rfl
  · dsimp only
    split
    · split <;> rfl
    · rfl

theorem charge_rate_running (a : Association) (s : State) : (chargeRate a s).running = s.running := by
  rw [chargeRate]
  split <;> rfl

theorem check_rate_running (a : Association) (s : State) : (checkRate a s).1.running = s.running := by
  rw [checkRate]
  split
  · rfl
  · dsimp only
    split <;> rfl

theorem after_lookup_running (s : State) (d : Arrival) (address : Address) : (afterLookup s d address).running = s.running := by
  cases address <;> rfl

theorem report_dns_ordinary (s : State) (msg : String) : Ordinary s (reportDns s msg).1 (reportDns s msg).2 := by
  rw [reportDns]
  split <;> exact ⟨rfl, ⟨[], rfl⟩, rfl⟩

theorem send_to_target_ordinary (a : Association) (s : State) (d : Arrival) (data : Bytes) (target : SocketAddr) :
    Ordinary s (sendToTarget a s d data target).1 (sendToTarget a s d data target).2 := by
  rw [sendToTarget]
  split
  · exact ⟨by rw [track_target_running, charge_rate_running], ⟨[(.up, data.length)], rfl⟩, rfl⟩
  · exact ⟨rfl, ⟨[], rfl⟩, rfl⟩

theorem relay_to_target_ordinary (a : Association) (s : State) (d : Arrival) :
    Ordinary s (relayToTarget a s d).1 (relayToTarget a s d).2 := by
  rw [relayToTarget]
  split
  · exact ordinary_quiet _ _ rfl
  · rename_i datagram _
    dsimp only
    have checked := check_rate_running a s
    have looked := (after_lookup_running (checkRate a s).1 d datagram.address).trans checked
    split
    · exact ordinary_quiet _ _ rfl
    · split
      · exact ordinary_quiet _ _ checked
      · split
        · exact ordinary_quiet _ _ looked
        · rename_i msg _
          have reported := report_dns_ordinary (afterLookup (checkRate a s).1 d datagram.address) msg
          exact ⟨reported.running.trans looked, reported.adds, reported.silent⟩
        · rename_i target _
          split
          · exact ordinary_quiet _ _ looked
          · have sent := send_to_target_ordinary a (afterLookup (checkRate a s).1 d datagram.address) d datagram.data target
            exact ⟨sent.running.trans looked, sent.adds, sent.silent⟩

theorem on_datagram_ordinary (a : Association) (s : State) (d : Arrival) :
    Ordinary s (onDatagram a s d).1 (onDatagram a s d).2 := by
  rw [onDatagram]
  split
  · have relayed := relay_to_target_ordinary a (lock s d.src) d
    exact ⟨relayed.running, relayed.adds, relayed.silent⟩
  · split
    · split
      · exact ⟨rfl, ⟨[(.down, d.data.length)], rfl⟩, rfl⟩
      · exact ordinary_quiet _ _ rfl
    · exact ordinary_quiet _ _ rfl

theorem step_operations (a : Association) (s after : State) (event : Nat × Wake) (made : List Output)
    (stepped : (machine a).step s event = some (after, made)) :
    ∃ amounts, made.flatMap operation = adds amounts ++ closing (!after.running) := by
  have running := running_before a s after event made stepped
  obtain ⟨now, wake⟩ := event
  simp only [machine, Option.ite_none_left_eq_some] at stepped
  obtain ⟨_, handled⟩ := stepped
  have stopped (state : State) : ∃ amounts, (teardown a state).2.flatMap operation = adds amounts ++ closing (!(teardown a state).1.running) :=
    ⟨[], rfl⟩
  have kept : ∃ amounts, ([] : List Output).flatMap operation = adds amounts ++ closing (!s.running) := ⟨[], by simp [running, closing, adds]⟩
  cases wake with
  | datagram d =>
      have ordinary := on_datagram_ordinary a { s with now := now } d
      obtain ⟨amounts, madeAdds⟩ := ordinary.adds
      have still : (onDatagram a { s with now := now } d).1.running = true := ordinary.running.trans running
      rw [handle] at handled
      generalize onDatagram a { s with now := now } d = result at handled madeAdds still
      cases handled
      exact ⟨amounts, by simp [madeAdds, wait, still, closing]⟩
  | recvFailed =>
      cases handled
      exact stopped _
  | idleElapsed =>
      simp only [handle, Option.ite_none_left_eq_some] at handled
      obtain ⟨_, done⟩ := handled
      cases done
      exact stopped _
  | control closed =>
      cases closed with
      | true =>
          cases handled
          exact stopped _
      | false =>
          cases handled
          exact kept
  | shutdown closing =>
      cases closing with
      | true =>
          cases handled
          exact stopped _
      | false =>
          cases handled
          exact kept

theorem step_tells (a : Association) (s after : State) (event : Nat × Wake) (made : List Output)
    (stepped : (machine a).step s event = some (after, made)) :
    made.filterMap tale = (made.flatMap operation).filterMap (telling a.id) := by
  obtain ⟨now, wake⟩ := event
  simp only [machine, Option.ite_none_left_eq_some] at stepped
  obtain ⟨_, handled⟩ := stepped
  cases wake with
  | datagram d =>
      have ordinary := on_datagram_ordinary a { s with now := now } d
      obtain ⟨amounts, calls⟩ := ordinary.adds
      have silent := ordinary.silent
      rw [handle] at handled
      generalize onDatagram a { s with now := now } d = result at handled calls silent
      cases handled
      rw [silent, calls, Registry.adds_telling]
  | recvFailed =>
      cases handled
      rfl
  | idleElapsed =>
      simp only [handle, Option.ite_none_left_eq_some] at handled
      obtain ⟨_, done⟩ := handled
      cases done
      rfl
  | control closed =>
      cases closed <;> cases handled <;> rfl
  | shutdown closing =>
      cases closing <;> cases handled <;> rfl

theorem run_operations (a : Association) (started : Nat) (events : List (Nat × Wake)) (outputs : List Output) (s : State)
    (run : (machine a).Run (start started) events outputs s) :
    ∃ amounts, outputs.flatMap operation = adds amounts ++ closing (!s.running) := by
  induction run with
  | idle => exact ⟨[], rfl⟩
  | @next _ outputs s before event made after stepped ih =>
      obtain ⟨amounts, early⟩ := ih
      obtain ⟨more, late⟩ := step_operations a s after event made stepped
      have running := running_before a s after event made stepped
      refine ⟨amounts ++ more, ?_⟩
      rw [List.flatMap_append, early, late, running, Registry.adds_append]
      simp [closing]

theorem associate_performs (cfg : Config) (peer : SocketAddr) (host : Host) (metrics registered : Metrics) (a : Association)
    (effects : List Effect) (setup : associate cfg peer host metrics = (.relaying a registered, effects)) :
    effects.flatMap effectOperation = [] ∧
    perform (none, metrics) (.register peer "udp-associate" .udp) = (some a.id, registered) ∧
    effects.filterMap effectTale = (telling a.id (.register peer "udp-associate" .udp)).toList := by
  simp only [associate] at setup
  split at setup
  · cases setup
  · split at setup
    · cases setup
    · cases setup
    · split at setup
      · cases setup
      · simp only [announce] at setup
        split at setup
        · cases setup
          exact ⟨rfl, rfl, rfl⟩
        · cases setup

theorem unassociated_lifecycle (cfg : Config) (peer : SocketAddr) (host : Host) (metrics : Metrics) (effects : List Effect)
    (setup : associate cfg peer host metrics = (.closed, effects)) : Lifecycle true (effects.flatMap effectOperation) := by
  simp only [associate] at setup
  split at setup
  · cases setup
    exact .silent
  · split at setup
    · cases setup
      exact .silent
    · cases setup
      exact .silent
    · split at setup
      · cases setup
        exact .refused Socks5Error.hostUnreachable.replyCode rfl
      · simp only [announce] at setup
        split at setup
        · cases setup
        · cases setup
          exact .silent

theorem unassociated_silent (cfg : Config) (peer : SocketAddr) (host : Host) (metrics : Metrics) (effects : List Effect)
    (setup : associate cfg peer host metrics = (.closed, effects)) : effects.filterMap effectTale = [] := by
  simp only [associate] at setup
  split at setup
  · cases setup
    rfl
  · split at setup
    · cases setup
      rfl
    · cases setup
      rfl
    · split at setup
      · cases setup
        rfl
      · simp only [announce] at setup
        split at setup
        · cases setup
        · cases setup
          rfl

theorem associated_lifecycle (a : Association) (peer : SocketAddr) (started : Nat) (events : List (Nat × Wake))
    (outputs : List Output) (s : State) (run : (machine a).Run (start started) events outputs s) :
    Lifecycle (!s.running) (.register peer "udp-associate" .udp :: outputs.flatMap operation) := by
  obtain ⟨amounts, called⟩ := run_operations a started events outputs s run
  rw [called]
  exact .opened peer "udp-associate" .udp amounts

end Udp

namespace Registry

inductive Execution where
  | connect (c : Connect.Call) (metrics : Metrics) (events : List (Nat × Connect.Wake)) (called : List Operation)
      (s : Connect.State) (run : ((Connect.machine c).noted (Connect.operations c)).Run (Connect.start c metrics) events called s)
  | unassociated (cfg : Config) (peer : SocketAddr) (host : Udp.Host) (metrics : Metrics) (effects : List Effect)
      (setup : Udp.associate cfg peer host metrics = (.closed, effects))
  | associated (cfg : Config) (peer : SocketAddr) (host : Udp.Host) (metrics registered : Metrics) (a : Udp.Association)
      (effects : List Effect) (setup : Udp.associate cfg peer host metrics = (.relaying a registered, effects)) (started : Nat)
      (events : List (Nat × Udp.Wake)) (outputs : List Udp.Output) (s : Udp.State)
      (run : (Udp.machine a).Run (Udp.start started) events outputs s)

def Execution.operations : Execution → List Operation
  | .connect _ _ _ called _ _ => called
  | .unassociated _ _ _ _ effects _ => effects.flatMap Udp.effectOperation
  | .associated _ peer _ _ _ _ _ _ _ _ outputs _ _ => .register peer "udp-associate" .udp :: outputs.flatMap Udp.operation

def Execution.ended : Execution → Bool
  | .connect _ _ _ _ s _ => Connect.ended s.phase
  | .unassociated _ _ _ _ _ _ => true
  | .associated _ _ _ _ _ _ _ _ _ _ _ s _ => !s.running

-- The operations are what the function itself does to the metrics, step by step, and its events tell of them as it does them.
def Execution.Performed : Execution → Prop
  | .connect c metrics events _ _ _ =>
      (Connect.machine c).Throughout (Connect.start c metrics) (fun s event => ∀ after made,
        (Connect.machine c).step s event = some (after, made) →
          ((∀ metrics, event.2 ≠ .others metrics) →
            (Connect.operations c s event).foldl perform (s.phase.id, s.metrics) = (after.phase.id, after.metrics)) ∧
          ∀ id, (∀ named, s.phase.id = some named ∨ after.phase.id = some named → named = id) →
            made.filterMap Connect.tale = (Connect.operations c s event).filterMap (telling id)) events
  | .unassociated _ _ _ _ effects _ => effects.filterMap Udp.effectTale = []
  | .associated _ peer _ metrics registered a effects _ started events _ _ _ =>
      (effects.flatMap Udp.effectOperation = [] ∧
        perform (none, metrics) (.register peer "udp-associate" .udp) = (some a.id, registered) ∧
        effects.filterMap Udp.effectTale = (telling a.id (.register peer "udp-associate" .udp)).toList) ∧
      (Udp.machine a).Throughout (Udp.start started) (fun s event => ∀ after made,
        (Udp.machine a).step s event = some (after, made) →
          made.filterMap Udp.tale = (made.flatMap Udp.operation).filterMap (telling a.id)) events

theorem execution_performed (execution : Execution) : execution.Performed := by
  cases execution with
  | connect c metrics events called s run =>
      intro before event rest outputs state cut ran after made stepped
      exact ⟨Connect.step_performs c state after event.1 event.2 made stepped,
        fun id own => Connect.step_tells c state after event.1 event.2 made id stepped own⟩
  | unassociated cfg peer host metrics effects setup => exact Udp.unassociated_silent cfg peer host metrics effects setup
  | associated cfg peer host metrics registered a effects setup started events outputs s run =>
      refine ⟨Udp.associate_performs cfg peer host metrics registered a effects setup, ?_⟩
      intro before event rest made state cut ran after more stepped
      exact Udp.step_tells a state after event more stepped

theorem execution_lifecycle (execution : Execution) : Lifecycle execution.ended execution.operations := by
  cases execution with
  | connect c metrics events called s run =>
      exact Connect.called_lifecycle c s.phase called (Connect.run_called c metrics events called s run)
  | unassociated cfg peer host metrics effects setup =>
      exact Udp.unassociated_lifecycle cfg peer host metrics effects setup
  | associated cfg peer host metrics registered a effects setup started events outputs s run =>
      exact Udp.associated_lifecycle a peer started events outputs s run

end Registry

end NextSocks5
