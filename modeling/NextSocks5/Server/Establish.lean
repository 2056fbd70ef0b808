import NextSocks5.Config
import NextSocks5.Dns
import NextSocks5.Library.Machine
import NextSocks5.Protocol.Reply

set_option autoImplicit false

namespace NextSocks5

namespace Establish

-- `lookup` is what the lookup of a family returns once it is done.
structure Task where
  policy : Egress
  target : Address
  lookup : String → UInt16 → Family → Except ResolveError (List SocketAddr)
  started : Nat
  deadline : Nat

-- The call connect::run makes; a lookup that fails reports how long it took.
def Task.connect (cfg : Config) (target : Address) (resolver : DnsResolver) (tookMs : Family → Nat) (started : Nat) : Task where
  policy := cfg.egress
  target := target
  lookup host port family := resolver.lookup host port (family == .a) (tookMs family)
  started := started
  deadline := started + millis cfg.timeouts.connectMs

structure Upstream where
  localAddr : Option SocketAddr
deriving DecidableEq, Repr

inductive EstablishError where
  | dns (detail : String)
  | blocked
  | dial (error : IoError)
deriving DecidableEq, Repr

structure Select where
  host : String
  port : UInt16
  done : PerFamily Bool
  errors : PerFamily String
  queue : List SocketAddr
  seen : Finset SocketAddr
  blocked : Bool
  active : Option SocketAddr
  attemptDeadline : Nat
  lastError : Option IoError
deriving DecidableEq

inductive Phase where
  | called
  | dialOne (address : SocketAddr)
  | select (s : Select)
  | returned (result : Except EstablishError Upstream)

structure State where
  now : Nat
  phase : Phase

inductive Wake where
  | call
  | lookupDone (family : Family)
  | attemptDone (result : Except IoError Upstream)
  | attemptExpired
  | deadlineExpired
deriving DecidableEq

structure Dial where
  address : SocketAddr
  startedAt : Nat
deriving DecidableEq, Repr

def addCandidate (policy : Egress) (s : Select) (address : SocketAddr) : Select :=
  if policy.isBlocked address.ip then { s with blocked := true }
  else if address ∈ s.seen then s
  else { s with seen := insert address s.seen, queue := s.queue ++ [address] }

def addCandidates (policy : Egress) (addresses : List SocketAddr) (s : Select) : Select :=
  addresses.foldl (addCandidate policy) s

-- Reserve time for actual alternatives: a pending query is not a candidate.
def divisor (queued : Nat) : Nat := min (queued + 1) (2 ^ 32 - 1)

def share (deadline now queued : Nat) : Nat := now + (deadline - now) / divisor queued

def elapsedMs (task : Task) (now : Nat) : Nat := (now - task.started) / 1000000

def exhausted (task : Task) (now : Nat) (s : Select) : EstablishError :=
  match s.lastError with
  | some error => .dial error
  | none =>
      if s.blocked then .blocked
      else .dns s!"failed after {elapsedMs task now} ms: A: {s.errors.a}; AAAA: {s.errors.aaaa}"

def turn (task : Task) (now : Nat) (s : Select) : Phase × List Dial :=
  match s.active with
  | some _ => (.select s, [])
  | none =>
      match s.queue with
      | address :: queue =>
          (.select { s with queue, attemptDeadline := share task.deadline now queue.length, active := some address },
            [⟨address, now⟩])
      | [] =>
          if s.done.a && s.done.aaaa then (.returned (.error (exhausted task now s)), [])
          else (.select s, [])

def lookupArm (task : Task) (now : Nat) (s : Select) (family : Family) : Select :=
  let s := { s with done := s.done.set family true }
  let s := match task.lookup s.host s.port family with
    | .ok addresses => addCandidates task.policy addresses s
    | .error error => { s with errors := s.errors.set family error.display }
  if s.active.isSome && !s.queue.isEmpty then
    { s with attemptDeadline := min s.attemptDeadline (share task.deadline now s.queue.length) }
  else s

def timedOut (msg : String) : IoError := ⟨.timedOut, msg⟩

def budgetExhausted (task : Task) (now : Nat) (s : Select) : EstablishError :=
  if s.active.isSome || s.lastError.isSome then .dial (timedOut "DNS and connection budget exhausted")
  else if s.blocked then .blocked
  else .dns s!"timed out after {elapsedMs task now} ms; A: {s.errors.a}; AAAA: {s.errors.aaaa}"

-- One select, with the arm that was taken; `none` says it was not enabled.
def selectArm (task : Task) (now : Nat) (s : Select) : Wake → Option (Phase × List Dial)
  | .lookupDone family =>
      if s.done.get family then none else some (turn task now (lookupArm task now s family))
  | .attemptDone result =>
      if s.active.isNone then none
      else
        match result with
        | .ok stream => some (.returned (.ok stream), [])
        | .error error => some (turn task now { s with active := none, lastError := some error })
  | .attemptExpired =>
      if s.active.isNone || now < s.attemptDeadline then none
      else some (turn task now { s with active := none, lastError := some (timedOut "connection attempt timed out") })
  | .deadlineExpired =>
      if now < task.deadline then none else some (.returned (.error (budgetExhausted task now s)), [])
  | .call => none

def begin (task : Task) (now : Nat) : Phase × List Dial :=
  match task.target with
  | .domain host port =>
      turn task now ⟨host, port, ⟨false, false⟩, ⟨"", ""⟩, [], ∅, false, none, task.deadline, none⟩
  | .v4 ip port => literal (SocketAddr.new (.v4 ip) port)
  | .v6 ip port => literal (SocketAddr.new (.v6 ip) port)
where
  literal (address : SocketAddr) : Phase × List Dial :=
    if task.policy.isBlocked address.ip then (.returned (.error .blocked), [])
    else (.dialOne address, [⟨address, now⟩])

def dialOneArm (task : Task) (now : Nat) (address : SocketAddr) : Wake → Option (Phase × List Dial)
  | .attemptDone (.ok stream) => some (.returned (.ok stream), [])
  | .attemptDone (.error error) => some (.returned (.error (.dial error)), [])
  | .deadlineExpired =>
      if now < task.deadline then none
      else some (.returned (.error (.dial (timedOut s!"connect to {address.display} timed out"))), [])
  | _ => none

def arm (task : Task) (now : Nat) : Phase → Wake → Option (Phase × List Dial)
  | .called, .call => some (begin task now)
  | .called, _ => none
  | .dialOne address, wake => dialOneArm task now address wake
  | .select s, wake => selectArm task now s wake
  | .returned _, _ => none

-- Events carry the time they are handled at, which never goes back.
def machine (task : Task) : Machine State (Nat × Wake) Dial where
  step state event :=
    if event.1 < state.now then none
    else (arm task event.1 state.phase event.2).map fun (phase, dials) => (⟨event.1, phase⟩, dials)

def start (task : Task) : State := ⟨task.started, .called⟩

end Establish

end NextSocks5
