import NextSocks5.Server.Connection
import NextSocks5.Server.Handover
import NextSocks5.Server.Handshaking

set_option autoImplicit false

namespace NextSocks5

namespace Handshaking

def Wake.bytes : Wake → Bytes
  | .read chunk => chunk.bytes
  | _ => []

def Wake.ends : Wake → Bool
  | .readEnd _ => true
  | _ => false

theorem step_ends (cfg : Config) (stage next : Stage) (wake : Wake) (made : List Effect) (ends : wake.ends = true)
    (stepped : (machine cfg).step stage wake = some (next, made)) : ∃ ending, next = .returned (ended ending) := by
  cases wake with
  | readEnd ending =>
      refine ⟨ending, ?_⟩
      cases stage with
      | greeting buf =>
          cases stepped
          rfl
      | userpass buf =>
          cases stepped
          rfl
      | request buf =>
          cases stepped
          rfl
      | _ => cases stepped
  | _ => cases ends

theorem returned_stays (cfg : Config) (result : Negotiated) (wake : Wake) : (machine cfg).step (.returned result) wake = none := by
  cases wake <;> rfl

theorem run_ends (cfg : Config) (wakes : List Wake) (outputs : List Effect) (stage : Stage)
    (run : (machine cfg).Run start wakes outputs stage) :
    (∀ wake ∈ wakes, wake.ends = false) ∨ ∃ ending, stage = .returned (ended ending) := by
  induction run with
  | idle => exact .inl (by simp)
  | @next wakes outputs stage before wake made after stepped ih =>
      rcases ih with unended | ⟨ending, finished⟩
      · cases ends : wake.ends with
        | true => exact .inr (step_ends cfg stage after wake made ends stepped)
        | false =>
            refine .inl ?_
            intro other member
            rcases List.mem_append.mp member with old | new
            · exact unended other old
            · rw [List.mem_singleton.mp new]
              exact ends
      · rw [finished, returned_stays] at stepped
        cases stepped

theorem feed_unread (wakes : List Wake) (later : TcpStream) (unended : ∀ wake ∈ wakes, wake.ends = false) :
    (wakes.foldr feed later).unread = wakes.flatMap Wake.bytes ++ later.unread := by
  induction wakes with
  | nil => rfl
  | cons wake wakes ih =>
      have rest := ih fun other member => unended other (List.mem_cons_of_mem wake member)
      rw [List.foldr_cons, List.flatMap_cons, List.append_assoc, ← rest]
      cases wake with
      | read chunk => simp [feed, Wake.bytes, TcpStream.unread]
      | readEnd ending => cases unended (.readEnd ending) List.mem_cons_self
      | write outcome => rfl

theorem run_wire (cfg : Config) (wakes : List Wake) (outputs : List Effect) (request : Request) (tail : Bytes)
    (run : (machine cfg).Run start wakes outputs (.returned (.request request tail))) :
    ∃ handshake, HandshakeWire cfg handshake request ∧ wakes.flatMap Wake.bytes = handshake ++ tail := by
  have agrees := run_agrees cfg wakes outputs _ run ⟨[], .eof, []⟩
  obtain ⟨handshake, wire, cut⟩ := negotiate_sound cfg _ request tail agrees.result
  refine ⟨handshake, wire, ?_⟩
  rcases run_ends cfg wakes outputs _ run with unended | ⟨ending, ended⟩
  · rw [feed_unread wakes _ unended, agrees.left request tail rfl] at cut
    simpa [resume, TcpStream.unread] using cut
  · cases ending <;> cases ended

end Handshaking

namespace Handling

structure Env where
  cfg : Config
  peer : SocketAddr
  resolver : DnsResolver
  tookMs : Family → Nat
  started : Nat

inductive Phase where
  | negotiating (stage : Handshaking.Stage)
  | connecting (call : Connect.Call) (s : Connect.State)
  | associating (a : Udp.Association) (s : Udp.State)
  | closed

-- `unread` is what the client sends and nobody has read.
structure State where
  now : Nat
  unread : Bytes
  phase : Phase

-- `dispatch` finds the metrics as they are then, the upstream and the host that the command will meet.
inductive Wake where
  | negotiate (wake : Handshaking.Wake)
  | dispatch (metrics : Metrics) (upstream : Bytes) (host : Udp.Host)
  | connect (wake : Connect.Wake)
  | udp (wake : Udp.Wake)

inductive Output where
  | negotiate (effect : Effect)
  | dispatch (effect : Effect)
  | connect (output : Connect.Output)
  | udp (output : Udp.Output)

def deadline (env : Env) : Nat := env.started + millis env.cfg.timeouts.handshakeMs

-- A read takes what the client sent, and only the deadline stalls.
def allowed (env : Env) (s : State) : Handshaking.Wake → Bool
  | .read chunk => chunk.bytes.isPrefixOf s.unread
  | .readEnd .eof => s.unread.isEmpty
  | .readEnd .stalled | .write (.stalled _) => deadline env ≤ s.now
  | .readEnd .error | .write _ => true

def onNegotiate (env : Env) (s : State) (stage : Handshaking.Stage) (wake : Handshaking.Wake) : Option (State × List Output) :=
  if allowed env s wake then
    ((Handshaking.machine env.cfg).step stage wake).map fun (stage, effects) =>
      ({ s with unread := s.unread.drop wake.bytes.length, phase := .negotiating stage }, effects.map .negotiate)
  else none

def onDispatch (env : Env) (s : State) (request : Request) (tail : Bytes) (metrics : Metrics) (upstream : Bytes) (host : Udp.Host) :
    State × List Output :=
  match request.command with
  | .connect =>
      let call : Connect.Call := ⟨env.cfg, request.address, tail, env.peer, env.resolver, env.tookMs, s.now, s.unread, upstream⟩
      ({ s with phase := .connecting call (Connect.start call metrics) }, [])
  | .udpAssociate =>
      match Udp.associate env.cfg env.peer host metrics with
      | (.relaying a _, effects) => ({ s with phase := .associating a (Udp.start s.now) }, effects.map .dispatch)
      | (.closed, effects) => ({ s with phase := .closed }, effects.map .dispatch)
  | .bind => ({ s with phase := .closed }, (Connection.bindRefused host.outcome).map .dispatch)

def onWake (env : Env) (s : State) (wake : Wake) : Option (State × List Output) :=
  match s.phase, wake with
  | .negotiating stage, .negotiate wake => onNegotiate env s stage wake
  | .negotiating (.returned (.request request tail)), .dispatch metrics upstream host =>
      some (onDispatch env s request tail metrics upstream host)
  | .connecting call c, .connect wake =>
      ((Connect.machine call).step c (s.now, wake)).map fun (c, outputs) =>
        ({ s with phase := .connecting call c }, outputs.map .connect)
  | .associating a u, .udp wake =>
      ((Udp.machine a).step u (s.now, wake)).map fun (u, outputs) => ({ s with phase := .associating a u }, outputs.map .udp)
  | _, _ => none

def machine (env : Env) : Machine State (Nat × Wake) Output where
  step s event := if event.1 < s.now then none else onWake env { s with now := event.1 } event.2

def start (env : Env) (bytes : Bytes) : State := ⟨env.started, bytes, .negotiating Handshaking.start⟩

-- The client has sent an acceptable handshake, and nothing but it and what was pipelined after it has been read.
def Opened (env : Env) (bytes : Bytes) (effects : List Effect) (request : Request) (tail unread : Bytes) : Prop :=
  ∃ wakes handshake, (Handshaking.machine env.cfg).Run Handshaking.start wakes effects (.returned (.request request tail)) ∧
    HandshakeWire env.cfg handshake request ∧ bytes = handshake ++ (tail ++ unread)

-- The run so far is a run of negotiate, and then one of what the request asked for.
inductive Served (env : Env) (bytes : Bytes) : List Output → State → Prop where
  | negotiating (now : Nat) (unread : Bytes) (stage : Handshaking.Stage) (wakes : List Handshaking.Wake) (effects : List Effect)
      (run : (Handshaking.machine env.cfg).Run Handshaking.start wakes effects stage)
      (cut : bytes = wakes.flatMap Handshaking.Wake.bytes ++ unread) :
      Served env bytes (effects.map .negotiate) ⟨now, unread, .negotiating stage⟩
  | connecting (now : Nat) (unread : Bytes) (call : Connect.Call) (c : Connect.State) (effects : List Effect) (metrics : Metrics)
      (events : List (Nat × Connect.Wake)) (more : List Connect.Output)
      (opened : Opened env bytes effects ⟨.connect, call.target⟩ call.initial call.client) (same : call.cfg = env.cfg)
      (run : (Connect.machine call).Run (Connect.start call metrics) events more c) :
      Served env bytes (effects.map .negotiate ++ more.map .connect) ⟨now, unread, .connecting call c⟩
  | associating (now since : Nat) (unread tail : Bytes) (address : Address) (a : Udp.Association) (u : Udp.State)
      (effects replies : List Effect) (host : Udp.Host) (before after : Metrics) (events : List (Nat × Udp.Wake)) (more : List Udp.Output)
      (opened : Opened env bytes effects ⟨.udpAssociate, address⟩ tail unread)
      (setup : Udp.associate env.cfg env.peer host before = (.relaying a after, replies))
      (run : (Udp.machine a).Run (Udp.start since) events more u) :
      Served env bytes (effects.map .negotiate ++ (replies.map .dispatch ++ more.map .udp)) ⟨now, unread, .associating a u⟩
  | closed (now : Nat) (unread tail : Bytes) (request : Request) (effects replies : List Effect)
      (opened : Opened env bytes effects request tail unread) :
      Served env bytes (effects.map .negotiate ++ replies.map .dispatch) ⟨now, unread, .closed⟩

theorem served_later (env : Env) (bytes : Bytes) (outputs : List Output) (s : State) (now : Nat) (served : Served env bytes outputs s) :
    Served env bytes outputs { s with now } := by
  cases served with
  | negotiating _ unread stage wakes effects run cut => exact .negotiating now unread stage wakes effects run cut
  | connecting _ unread call c effects metrics events more opened same run =>
      exact .connecting now unread call c effects metrics events more opened same run
  | associating _ since unread tail address a u effects replies host before after events more opened setup run =>
      exact .associating now since unread tail address a u effects replies host before after events more opened setup run
  | closed _ unread tail request effects replies opened => exact .closed now unread tail request effects replies opened

theorem allowed_taken (env : Env) (s : State) (wake : Handshaking.Wake) (taken : allowed env s wake = true) :
    s.unread = wake.bytes ++ s.unread.drop wake.bytes.length := by
  cases wake with
  | read chunk =>
      obtain ⟨rest, whole⟩ := List.isPrefixOf_iff_prefix.mp taken
      rw [← whole]
      simp [Handshaking.Wake.bytes]
  | readEnd ending => rfl
  | write outcome => rfl

theorem negotiate_served (env : Env) (bytes : Bytes) (outputs made : List Output) (s after : State) (stage : Handshaking.Stage)
    (wake : Handshaking.Wake) (served : Served env bytes outputs s) (phase : s.phase = .negotiating stage)
    (stepped : onNegotiate env s stage wake = some (after, made)) : Served env bytes (outputs ++ made) after := by
  simp only [onNegotiate, Option.ite_none_right_eq_some, Option.map_eq_some_iff, Prod.exists, Prod.mk.injEq] at stepped
  obtain ⟨taken, next, effects, moved, rfl, rfl⟩ := stepped
  have read := allowed_taken env s wake taken
  cases served with
  | negotiating now unread stage wakes earlier run cut =>
      cases phase
      rw [← List.map_append]
      refine .negotiating now _ next (wakes ++ [wake]) (earlier ++ effects) (run.next wake effects next moved) ?_
      rw [List.flatMap_append, List.flatMap_singleton, List.append_assoc, ← read]
      exact cut
  | _ => cases phase

theorem dispatch_served (env : Env) (bytes : Bytes) (outputs : List Output) (s : State) (request : Request) (tail upstream : Bytes)
    (metrics : Metrics) (host : Udp.Host) (served : Served env bytes outputs s)
    (phase : s.phase = .negotiating (.returned (.request request tail))) :
    Served env bytes (outputs ++ (onDispatch env s request tail metrics upstream host).2)
      (onDispatch env s request tail metrics upstream host).1 := by
  cases served with
  | negotiating now unread stage wakes effects run cut =>
      cases phase
      obtain ⟨handshake, wire, read⟩ := Handshaking.run_wire env.cfg wakes effects request tail run
      have opened : Opened env bytes effects request tail unread :=
        ⟨wakes, handshake, run, wire, by rw [cut, read, List.append_assoc]⟩
      obtain ⟨command, address⟩ := request
      cases command with
      | connect =>
          have began : Served env bytes _ _ := .connecting now unread
            ⟨env.cfg, address, tail, env.peer, env.resolver, env.tookMs, now, unread, upstream⟩ _ effects metrics [] [] opened rfl .idle
          exact began
      | bind => exact .closed now unread tail _ effects _ opened
      | udpAssociate =>
          simp only [onDispatch]
          cases setup : Udp.associate env.cfg env.peer host metrics with
          | mk result replies =>
              cases result with
              | closed => exact .closed now unread tail _ effects replies opened
              | relaying a after =>
                  have began : Served env bytes _ _ := .associating now now unread tail address a _ effects replies host metrics after [] []
                    opened setup .idle
                  simpa using began
  | _ => cases phase

theorem step_served (env : Env) (bytes : Bytes) (outputs made : List Output) (s after : State) (event : Nat × Wake)
    (served : Served env bytes outputs s) (stepped : (machine env).step s event = some (after, made)) :
    Served env bytes (outputs ++ made) after := by
  obtain ⟨time, wake⟩ := event
  simp only [machine, Option.ite_none_left_eq_some] at stepped
  obtain ⟨_, moved⟩ := stepped
  have later := served_later env bytes outputs s time served
  generalize { s with now := time } = timed at later moved
  unfold onWake at moved
  split at moved
  · rename_i stage wake phase
    exact negotiate_served env bytes outputs made timed after stage wake later phase moved
  · rename_i request tail metrics upstream host phase
    have done := dispatch_served env bytes outputs timed request tail upstream metrics host later phase
    rwa [Option.some.inj moved] at done
  · rename_i call c wake phase
    simp only [Option.map_eq_some_iff, Prod.exists, Prod.mk.injEq] at moved
    obtain ⟨next, more, stepped, rfl, rfl⟩ := moved
    cases later with
    | connecting now unread call c effects metrics events earlier opened same run =>
        cases phase
        rw [List.append_assoc, ← List.map_append]
        exact .connecting _ unread _ next effects metrics _ _ opened same (run.next _ more next stepped)
    | _ => cases phase
  · rename_i a u wake phase
    simp only [Option.map_eq_some_iff, Prod.exists, Prod.mk.injEq] at moved
    obtain ⟨next, more, stepped, rfl, rfl⟩ := moved
    cases later with
    | associating now since unread tail address a u effects replies host before after events earlier opened setup run =>
        cases phase
        rw [List.append_assoc, List.append_assoc, ← List.map_append]
        exact .associating _ since unread tail address _ next effects replies host before after _ _ opened setup (run.next _ more next stepped)
    | _ => cases phase
  · cases moved

theorem run_served (env : Env) (bytes : Bytes) (wakes : List (Nat × Wake)) (outputs : List Output) (s : State)
    (run : (machine env).Run (start env bytes) wakes outputs s) : Served env bytes outputs s := by
  refine (machine env).run_invariant (start env bytes) (fun _ outputs s => Served env bytes outputs s) ?_ ?_ wakes outputs s run
  · exact .negotiating env.started bytes Handshaking.start [] [] .idle rfl
  · exact fun _ outputs s event after made served stepped => step_served env bytes outputs made s after event served stepped

def Output.handshake : Output → Bool
  | .negotiate _ => true
  | _ => false

def connectOutputs (outputs : List Output) : List Connect.Output :=
  outputs.filterMap fun output =>
    match output with
    | .connect output => some output
    | _ => none

theorem connect_outputs (effects : List Effect) (more : List Connect.Output) :
    connectOutputs (effects.map .negotiate ++ more.map .connect) = more := by
  simp [connectOutputs, List.filterMap_append, List.filterMap_map]

-- Nothing but the handshake happens for a client that has not sent an acceptable one, and an upstream is handed what
-- comes after the handshake that asked for it.
theorem session_guarded (env : Env) (bytes : Bytes) (wakes : List (Nat × Wake)) (outputs : List Output) (s : State)
    (run : (machine env).Run (start env bytes) wakes outputs s) :
    (∀ output ∈ outputs, output.handshake = false → ∃ handshake request rest, HandshakeWire env.cfg handshake request ∧
      bytes = handshake ++ rest) ∧
    ∀ call c, s.phase = .connecting call c → ∃ handshake rest, HandshakeWire env.cfg handshake ⟨.connect, call.target⟩ ∧
      bytes = handshake ++ rest ∧ Connect.handed .up (connectOutputs outputs) <+: rest := by
  have silent (effects : List Effect) (output : Output) (member : output ∈ effects.map Output.negotiate) : output.handshake = true := by
    obtain ⟨effect, _, rfl⟩ := List.mem_map.mp member
    rfl
  cases run_served env bytes wakes outputs s run with
  | negotiating now unread stage hs effects handshaking cut =>
      refine ⟨?_, fun call c phase => by cases phase⟩
      intro output member other
      rw [silent effects output member] at other
      cases other
  | connecting now unread call c effects metrics events more opened same connected =>
      obtain ⟨hs, handshake, _, wire, cut⟩ := opened
      refine ⟨fun _ _ _ => ⟨handshake, _, _, wire, cut⟩, ?_⟩
      intro other state phase
      cases phase
      refine ⟨handshake, _, wire, cut, ?_⟩
      rw [connect_outputs]
      exact Connect.stream_prefix call more c (Connect.stream_run call metrics events more c connected) .up
  | associating now since unread tail address a u effects replies host before after events more opened setup relayed =>
      obtain ⟨hs, handshake, _, wire, cut⟩ := opened
      exact ⟨fun _ _ _ => ⟨handshake, _, _, wire, cut⟩, fun call c phase => by cases phase⟩
  | closed now unread tail request effects replies opened =>
      obtain ⟨hs, handshake, _, wire, cut⟩ := opened
      exact ⟨fun _ _ _ => ⟨handshake, _, _, wire, cut⟩, fun call c phase => by cases phase⟩

def openEnv : Env := ⟨.default, .v4 (.new 192 0 2 7) 40000, ⟨fun _ => .ok [], fun _ => .ok []⟩, fun _ => 0, 0⟩

def eagerClient : Bytes := [5, 1, 0, 5, 1, 0, 1, 93, 184, 216, 34, 0, 80, 71, 72]

theorem session_guarded_eager : ∃ (outputs : List Output) (handshake : Bytes), Connect.handed .up (connectOutputs outputs) = [71] ∧
    HandshakeWire openEnv.cfg handshake ⟨.connect, .v4 (.new 93 184 216 34) 80⟩ ∧
    ∃ rest, eagerClient = handshake ++ rest ∧ [71] <+: rest := by
  obtain ⟨outputs, s, run, sent, call, c, phase, target⟩ : ∃ outputs s, (machine openEnv).Run (start openEnv eagerClient)
      [(1, .negotiate (.read ⟨[5, 1, 0, 5, 1, 0, 1, 93, 184, 216, 34, 0, 80, 71], by decide, by decide⟩)), (2, .negotiate (.write .done)),
        (3, .dispatch .new [] ⟨none, 0, fun _ _ => .ok none, ⟨fun _ => .ok [], fun _ => .ok []⟩, 0, .done⟩),
        (4, .connect (.establish .call)), (5, .connect (.establish (.attemptDone (.ok ⟨none⟩)))), (6, .connect (.accept 10)),
        (7, .connect (.accept 1))] outputs s ∧ Connect.handed .up (connectOutputs outputs) = [71] ∧
      ∃ call c, s.phase = .connecting call c ∧ call.target = .v4 (.new 93 184 216 34) 80 :=
    ⟨_, _, (machine openEnv).exec_run _ _ _ _ rfl, rfl, _, _, rfl, rfl⟩
  obtain ⟨handshake, rest, wire, cut, part⟩ := (session_guarded openEnv eagerClient _ outputs s run).2 call c phase
  rw [sent] at part
  exact ⟨outputs, handshake, sent, target ▸ wire, rest, cut, part⟩

end Handling

end NextSocks5
