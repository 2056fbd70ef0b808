import NextSocks5.Server.Establish
import NextSocks5.Server.Negotiate
import NextSocks5.Server.Relay

set_option autoImplicit false

namespace NextSocks5

namespace Connect

open Relay (Direction Half Turns)

structure Call where
  cfg : Config
  target : Address
  initial : Bytes
  peer : SocketAddr
  resolver : DnsResolver
  tookMs : Family → Nat
  started : Nat
  client : Bytes
  upstream : Bytes

def Call.task (c : Call) : Establish.Task := .connect c.cfg c.target c.resolver c.tookMs c.started

def Call.idle (c : Call) : Nat := millis c.cfg.timeouts.tcpIdleMs

-- `rest` is what a write_all has yet to hand over.
inductive Phase where
  | establishing (s : Establish.State)
  | refusing (err : Socks5Error) (msg : String) (rest : Bytes)
  | replying (rest : Bytes)
  | initial (id : Nat) (rest : Bytes)
  | relaying (id : Nat) (relay : Relay.State)
  | finished

structure State where
  now : Nat
  metrics : Metrics
  phase : Phase

-- `others` is the work of the other connections on the shared metrics.
inductive Wake where
  | establish (wake : Establish.Wake)
  | accept (k : Nat)
  | writeFailed
  | relay (dir : Direction) (act : Relay.Act)
  | joined
  | shutdown
  | others (metrics : Metrics)

inductive Output where
  | dial (dial : Establish.Dial)
  | toClient (bytes : Bytes)
  | replied (code : UInt8) (written : Bool)
  | toUpstream (bytes : Bytes)
  | relay (output : Relay.Output)
  | recordError (code : UInt8)
  | emit (event : Event)

def addressToString : Address → String
  | .v4 ip port => s!"{ip.display}:{port}"
  | .v6 ip port => s!"[{ip.display}]:{port}"
  | .domain host port => s!"{host}:{port}"

def socketAddrToAddress (addr : SocketAddr) : Address := .ofSocket addr

def failure (c : Call) (now : Nat) : Establish.EstablishError → Socks5Error × String
  | .dns detail => (.hostUnreachable, s!"could not resolve {addressToString c.target}: {detail}")
  | .blocked => (.notAllowed, s!"destination not allowed: {addressToString c.target}")
  | .dial error =>
      (.fromIo error, s!"connect to {addressToString c.target} failed after {(now - c.started) / 1000000} ms: {error.msg}")

def established (c : Call) (now : Nat) (s : Establish.State) : Phase :=
  match s.phase with
  | .returned (.ok upstream) =>
      let bind := (upstream.localAddr.map socketAddrToAddress).getD (.v4 .unspecified 0)
      .replying (encodeReply repSucceeded bind [])
  | .returned (.error error) =>
      let (err, msg) := failure c now error
      .refusing err msg (encodeReply err.replyCode failureBind [])
  | _ => .establishing s

-- The failure is recorded however its reply went.
def refuse (s : State) (err : Socks5Error) (msg : String) (written : Bool) : State × List Output :=
  ({ s with metrics := s.metrics.recordError err.replyCode, phase := .finished },
    [.replied err.replyCode written, .recordError err.replyCode, .emit (.error err.replyCode msg)])

def beginRelay (c : Call) (now : Nat) : Relay.State := Relay.start now c.client c.upstream

def register (c : Call) (s : State) : State × List Output :=
  let (id, metrics) := s.metrics.register c.peer (addressToString c.target) .connect
  let phase := if c.initial = [] then Phase.relaying id (beginRelay c s.now) else .initial id c.initial
  ({ s with metrics, phase }, [.emit (.connect id c.peer (addressToString c.target) .connect)])

def finish (s : State) (id : Nat) : State × List Output :=
  ({ s with metrics := s.metrics.recordSuccess.unregister id, phase := .finished }, [.emit (.closed id)])

def onAccept (c : Call) (s : State) (k : Nat) : Option (State × List Output) :=
  let write := fun (rest : Bytes) (accepted : Bytes → Output) (next : Bytes → Phase) (complete : State × List Output) =>
    if 0 < k ∧ k < rest.length then some ({ s with phase := next (rest.drop k) }, [accepted (rest.take k)])
    else if k = rest.length then some (complete.1, accepted rest :: complete.2)
    else none
  match s.phase with
  | .refusing err msg rest => write rest .toClient (.refusing err msg) (refuse s err msg true)
  | .replying rest => write rest .toClient .replying ((register c s).1, .replied repSucceeded true :: (register c s).2)
  | .initial id rest =>
      write rest .toUpstream (.initial id)
        ({ s with metrics := s.metrics.addUp id c.initial.length, phase := .relaying id (beginRelay c s.now) }, [])
  | _ => none

def onWriteFailed (s : State) : Option (State × List Output) :=
  match s.phase with
  | .refusing err msg _ => some (refuse s err msg false)
  | .replying _ => some ({ s with phase := .finished }, [.replied repSucceeded false])
  | .initial id _ => some (finish s id)
  | _ => none

def count (id : Nat) (m : Metrics) (output : Relay.Output) : Metrics :=
  match output.dir, output.trace with
  | .up, .counted n => m.addUp id n
  | .down, .counted n => m.addDown id n
  | _, _ => m

def Phase.id : Phase → Option Nat
  | .initial id _ | .relaying id _ => some id
  | _ => none

def onWake (c : Call) (s : State) : Wake → Option (State × List Output)
  | .establish wake =>
      match s.phase with
      | .establishing e =>
          ((Establish.machine c.task).step e (s.now, wake)).map fun (e, dials) =>
            ({ s with phase := established c s.now e }, dials.map .dial)
      | _ => none
  | .accept k => onAccept c s k
  | .writeFailed => onWriteFailed s
  | .relay dir act =>
      match s.phase with
      | .relaying id relay =>
          (Relay.step c.idle relay ⟨s.now, dir, act⟩).map fun (relay, outputs) =>
            ({ s with metrics := outputs.foldl (count id) s.metrics, phase := .relaying id relay }, outputs.map .relay)
      | _ => none
  | .joined =>
      match s.phase with
      | .relaying id relay => if relay.Done then some (finish s id) else none
      | _ => none
  | .shutdown =>
      match s.phase with
      | .relaying id _ => some (finish s id)
      | _ => none
  -- No other connection has this one's id.
  | .others metrics => if s.phase.id.all (fun id => metrics.entry id = s.metrics.entry id) then some ({ s with metrics }, []) else none

def machine (c : Call) : Machine State (Nat × Wake) Output where
  step s event := if event.1 < s.now then none else onWake c { s with now := event.1 } event.2

def start (c : Call) (metrics : Metrics) : State := ⟨c.started, metrics, .establishing (Establish.start c.task)⟩

def dispatched (cfg : Config) (s : TcpStream) (request : Request) (tail : Bytes) (peer : SocketAddr) (resolver : DnsResolver)
    (tookMs : Family → Nat) (started : Nat) (upstream : Bytes) : Call :=
  ⟨cfg, request.address, tail, peer, resolver, tookMs, started, (negotiate cfg s).stream.unread, upstream⟩

inductive Moves (c : Call) (s : State) : Wake → State → List Output → Prop where
  | establishing (e next : Establish.State) (wake : Establish.Wake) (dials : List Establish.Dial) (phase : s.phase = .establishing e)
      (moved : (Establish.machine c.task).step e (s.now, wake) = some (next, dials)) :
      Moves c s (.establish wake) { s with phase := established c s.now next } (dials.map .dial)
  | refusing (err : Socks5Error) (msg : String) (rest : Bytes) (k : Nat) (phase : s.phase = .refusing err msg rest)
      (partly : 0 < k ∧ k < rest.length) : Moves c s (.accept k) { s with phase := .refusing err msg (rest.drop k) } [.toClient (rest.take k)]
  | refused (err : Socks5Error) (msg : String) (rest : Bytes) (k : Nat) (phase : s.phase = .refusing err msg rest)
      (whole : k = rest.length) : Moves c s (.accept k) (refuse s err msg true).1 (.toClient rest :: (refuse s err msg true).2)
  | replying (rest : Bytes) (k : Nat) (phase : s.phase = .replying rest) (partly : 0 < k ∧ k < rest.length) :
      Moves c s (.accept k) { s with phase := .replying (rest.drop k) } [.toClient (rest.take k)]
  | replied (rest : Bytes) (k : Nat) (phase : s.phase = .replying rest) (whole : k = rest.length) :
      Moves c s (.accept k) (register c s).1 (.toClient rest :: .replied repSucceeded true :: (register c s).2)
  | forwarding (id : Nat) (rest : Bytes) (k : Nat) (phase : s.phase = .initial id rest) (partly : 0 < k ∧ k < rest.length) :
      Moves c s (.accept k) { s with phase := .initial id (rest.drop k) } [.toUpstream (rest.take k)]
  | forwarded (id : Nat) (rest : Bytes) (k : Nat) (phase : s.phase = .initial id rest) (whole : k = rest.length) :
      Moves c s (.accept k) { s with metrics := s.metrics.addUp id c.initial.length, phase := .relaying id (beginRelay c s.now) }
        [.toUpstream rest]
  | refusalFailed (err : Socks5Error) (msg : String) (rest : Bytes) (phase : s.phase = .refusing err msg rest) :
      Moves c s .writeFailed (refuse s err msg false).1 (refuse s err msg false).2
  | replyFailed (rest : Bytes) (phase : s.phase = .replying rest) :
      Moves c s .writeFailed { s with phase := .finished } [.replied repSucceeded false]
  | initialFailed (id : Nat) (rest : Bytes) (phase : s.phase = .initial id rest) :
      Moves c s .writeFailed (finish s id).1 (finish s id).2
  | relaying (id : Nat) (relay later : Relay.State) (dir : Direction) (act : Relay.Act) (outputs : List Relay.Output)
      (phase : s.phase = .relaying id relay) (turned : Relay.step c.idle relay ⟨s.now, dir, act⟩ = some (later, outputs)) :
      Moves c s (.relay dir act) { s with metrics := outputs.foldl (count id) s.metrics, phase := .relaying id later }
        (outputs.map .relay)
  | joined (id : Nat) (relay : Relay.State) (phase : s.phase = .relaying id relay) (done : relay.Done) :
      Moves c s .joined (finish s id).1 (finish s id).2
  | shutdown (id : Nat) (relay : Relay.State) (phase : s.phase = .relaying id relay) :
      Moves c s .shutdown (finish s id).1 (finish s id).2
  | others (metrics : Metrics) (foreign : s.phase.id.all (fun id => metrics.entry id = s.metrics.entry id) = true) :
      Moves c s (.others metrics) { s with metrics } []

theorem accept_moves (c : Call) (s after : State) (k : Nat) (made : List Output) (stepped : onAccept c s k = some (after, made)) :
    Moves c s (.accept k) after made := by
  rw [onAccept] at stepped
  cases phase : s.phase with
  | refusing err msg rest =>
      simp only [phase] at stepped
      split at stepped
      · rename_i partly
        cases stepped
        exact .refusing err msg rest k phase partly
      · split at stepped
        · rename_i whole
          cases stepped
          exact .refused err msg rest k phase whole
        · cases stepped
  | replying rest =>
      simp only [phase] at stepped
      split at stepped
      · rename_i partly
        cases stepped
        exact .replying rest k phase partly
      · split at stepped
        · rename_i whole
          cases stepped
          exact .replied rest k phase whole
        · cases stepped
  | initial id rest =>
      simp only [phase] at stepped
      split at stepped
      · rename_i partly
        cases stepped
        exact .forwarding id rest k phase partly
      · split at stepped
        · rename_i whole
          cases stepped
          exact .forwarded id rest k phase whole
        · cases stepped
  | _ => simp [phase] at stepped

theorem write_failed_moves (c : Call) (s after : State) (made : List Output) (stepped : onWriteFailed s = some (after, made)) :
    Moves c s .writeFailed after made := by
  rw [onWriteFailed] at stepped
  cases phase : s.phase with
  | refusing err msg rest =>
      simp only [phase] at stepped
      cases stepped
      exact .refusalFailed err msg rest phase
  | replying rest =>
      simp only [phase] at stepped
      cases stepped
      exact .replyFailed rest phase
  | initial id rest =>
      simp only [phase] at stepped
      cases stepped
      exact .initialFailed id rest phase
  | _ => simp [phase] at stepped

theorem wake_moves (c : Call) (s after : State) (wake : Wake) (made : List Output) (stepped : onWake c s wake = some (after, made)) :
    Moves c s wake after made := by
  cases wake with
  | establish wake =>
      simp only [onWake] at stepped
      cases phase : s.phase with
      | establishing e =>
          simp only [phase, Option.map_eq_some_iff, Prod.exists, Prod.mk.injEq] at stepped
          obtain ⟨next, dials, moved, rfl, rfl⟩ := stepped
          exact .establishing e next wake dials phase moved
      | _ => simp [phase] at stepped
  | accept k => exact accept_moves c s after k made stepped
  | writeFailed => exact write_failed_moves c s after made stepped
  | relay dir act =>
      simp only [onWake] at stepped
      cases phase : s.phase with
      | relaying id relay =>
          simp only [phase, Option.map_eq_some_iff, Prod.exists, Prod.mk.injEq] at stepped
          obtain ⟨later, outputs, turned, rfl, rfl⟩ := stepped
          exact .relaying id relay later dir act outputs phase turned
      | _ => simp [phase] at stepped
  | joined =>
      simp only [onWake] at stepped
      cases phase : s.phase with
      | relaying id relay =>
          simp only [phase, Option.ite_none_right_eq_some, Option.some.injEq] at stepped
          obtain ⟨done, finished⟩ := stepped
          cases finished
          exact .joined id relay phase done
      | _ => simp [phase] at stepped
  | shutdown =>
      simp only [onWake] at stepped
      cases phase : s.phase with
      | relaying id relay =>
          simp only [phase, Option.some.injEq] at stepped
          cases stepped
          exact .shutdown id relay phase
      | _ => simp [phase] at stepped
  | others metrics =>
      simp only [onWake, Option.ite_none_right_eq_some, Option.some.injEq, Prod.mk.injEq] at stepped
      obtain ⟨foreign, rfl, rfl⟩ := stepped
      exact .others metrics foreign

theorem step_moves (c : Call) (s after : State) (now : Nat) (wake : Wake) (made : List Output)
    (stepped : (machine c).step s (now, wake) = some (after, made)) : Moves c { s with now } wake after made := by
  simp only [machine, Option.ite_none_left_eq_some] at stepped
  exact wake_moves c { s with now } after wake made stepped.2

end Connect

end NextSocks5
