import NextSocks5.Server.Handover
import NextSocks5.Server.Transcript

set_option autoImplicit false

namespace NextSocks5

def greeted (cfg : Config) : Bytes :=
  match cfg.auth.method with
  | .none => [5, 0]
  | .password => [5, 2, 1, 0]

theorem write_then_request (s : TcpStream) (data : Bytes) (effects : List Effect) (next : TcpStream → List Effect → Negotiation)
    (request : Request) (tail : Bytes) (accepted : (writeThen s data effects next).result = .request request tail) :
    writeThen s data effects next = next s.afterWrite (effects ++ [.wrote data .done]) := by
  cases outcome : s.writeOutcome <;> simp [writeThen, outcome] at accepted ⊢

theorem negotiate_request_effects (s : TcpStream) (buf : Bytes) (effects : List Effect) (request : Request) (tail : Bytes)
    (accepted : (negotiateRequest s buf effects).result = .request request tail) : (negotiateRequest s buf effects).effects = effects := by
  rw [negotiateRequest] at accepted ⊢
  cases read : readMessage requestVerdict buf s with
  | ready found rest reads => rfl
  | refused reason reads =>
      simp only [read] at accepted
      cases failure : requestFailure reason with
      | none =>
          rw [failure] at accepted
          cases accepted
      | some err =>
          rw [failure] at accepted
          exact absurd accepted (reply_request_error_closed _ err effects request tail)
  | overflow reads => rfl
  | starved =>
      rw [read] at accepted
      exact absurd accepted (starved_closed s effects request tail)

theorem negotiate_userpass_effects (cfg : Config) (s : TcpStream) (buf : Bytes) (effects : List Effect) (request : Request) (tail : Bytes)
    (accepted : (negotiateUserpass cfg s buf effects).result = .request request tail) :
    written (negotiateUserpass cfg s buf effects) = effects.flatMap Effect.bytes ++ [1, 0] := by
  rw [negotiateUserpass] at accepted ⊢
  cases read : readMessage userpassVerdict buf s with
  | ready pair rest reads =>
      simp only [read] at accepted ⊢
      have through := write_then_request _ _ _ _ request tail accepted
      rw [through] at accepted ⊢
      by_cases known : verifyCredentials cfg.auth.users pair.1 pair.2 = true
      · rw [if_pos known] at accepted ⊢
        rw [written, negotiate_request_effects _ _ _ request tail accepted, known]
        simp [List.flatMap_append, Effect.bytes, WriteOutcome.taken, userpassReply, userpassVersion]
      · rw [if_neg known] at accepted
        cases accepted
  | refused reason reads =>
      simp only [read] at accepted
      rw [write_then_request _ _ _ _ request tail accepted] at accepted
      cases accepted
  | overflow reads =>
      rw [read] at accepted
      cases accepted
  | starved =>
      rw [read] at accepted
      exact absurd accepted (starved_closed s effects request tail)

theorem accepted_greeted (cfg : Config) (s : TcpStream) (request : Request) (tail : Bytes)
    (accepted : (negotiate cfg s).result = .request request tail) : written (negotiate cfg s) = greeted cfg := by
  rw [negotiate] at accepted ⊢
  cases read : readMessage greetingVerdict [] s with
  | ready offered rest reads =>
      simp only [read] at accepted ⊢
      have through := write_then_request _ _ _ _ request tail accepted
      rw [through] at accepted ⊢
      rw [select_method_required] at accepted ⊢
      by_cases acceptable : requiredMethod cfg ∈ offered
      · rw [if_pos acceptable] at accepted ⊢
        cases method : cfg.auth.method with
        | none =>
            have plain : requiredMethod cfg = 0 := by simp [requiredMethod, method]
            rw [plain, if_neg (by decide), if_neg (by decide)] at accepted ⊢
            rw [written, negotiate_request_effects _ _ _ request tail accepted, greeted, method]
            rfl
        | password =>
            have login : requiredMethod cfg = 2 := by simp [requiredMethod, method]
            rw [login, if_neg (by decide), if_pos (by decide)] at accepted ⊢
            rw [negotiate_userpass_effects cfg _ _ _ request tail accepted, greeted, method]
            rfl
      · rw [if_neg acceptable, if_pos (by decide)] at accepted
        cases accepted
  | refused reason reads | overflow reads =>
      rw [read] at accepted
      cases accepted
  | starved =>
      rw [read] at accepted
      exact absurd accepted (starved_closed s [] request tail)

namespace Connect

open Relay (Direction)

def clientBytes : Output → Bytes
  | .toClient bytes => bytes
  | .relay ⟨_, .down, .accepted bytes⟩ => bytes
  | _ => []

def heard (outputs : List Output) : Bytes := outputs.flatMap clientBytes

def replies (outputs : List Output) : List (UInt8 × Bool) :=
  outputs.filterMap fun
    | .replied code whole => some (code, whole)
    | _ => none

def Apart (outputs : List Output) : Prop := ∀ dir, handed dir outputs = []

-- The reply so far, and nothing of the other side before all of it.
def Heard (outputs : List Output) : Phase → Prop
  | .establishing _ => heard outputs = [] ∧ Apart outputs ∧ replies outputs = []
  | .refusing err _ rest => heard outputs ++ rest = encodeReply err.replyCode failureBind [] ∧ Apart outputs ∧ replies outputs = []
  | .replying rest => ∃ bind, heard outputs ++ rest = encodeReply repSucceeded bind [] ∧ Apart outputs ∧ replies outputs = []
  | .initial _ _ | .relaying _ _ =>
      ∃ bind, heard outputs = encodeReply repSucceeded bind [] ++ handed .down outputs ∧ replies outputs = [(repSucceeded, true)]
  | .finished =>
      (∃ code bind whole, heard outputs <+: encodeReply code bind [] ∧ Apart outputs ∧ replies outputs = [(code, whole)] ∧
        (whole = true → code ≠ repSucceeded ∧ heard outputs = encodeReply code bind [])) ∨
      ∃ bind, heard outputs = encodeReply repSucceeded bind [] ++ handed .down outputs ∧ replies outputs = [(repSucceeded, true)]

@[simp] theorem heard_append (first second : List Output) : heard (first ++ second) = heard first ++ heard second := List.flatMap_append

@[simp] theorem replies_append (first second : List Output) : replies (first ++ second) = replies first ++ replies second :=
  List.filterMap_append

theorem heard_relay (outputs : List Relay.Output) :
    heard (outputs.map .relay) = handed .down (outputs.map .relay) ∧ replies (outputs.map .relay) = [] := by
  induction outputs with
  | nil => exact ⟨rfl, rfl⟩
  | cons output outputs ih =>
      obtain ⟨same, nothing⟩ := ih
      refine ⟨?_, nothing⟩
      obtain ⟨time, dir, trace⟩ := output
      rw [heard, handed] at same ⊢
      rw [List.map_cons, List.flatMap_cons, List.flatMap_cons, same]
      cases dir <;> cases trace <;> rfl

theorem apart_append (outputs made : List Output) (apart : Apart outputs) (silent : Apart made) : Apart (outputs ++ made) := by
  intro dir
  rw [handed_append, apart dir, silent dir]
  rfl

theorem heard_silent (outputs made : List Output) (phase : Phase) (soFar : Heard outputs phase) (nothing : heard made = [])
    (apart : Apart made) (empty : replies made = []) : Heard (outputs ++ made) phase := by
  have same : heard (outputs ++ made) = heard outputs := by rw [heard_append, nothing, List.append_nil]
  have replied : replies (outputs ++ made) = replies outputs := by rw [replies_append, empty, List.append_nil]
  have down : handed .down (outputs ++ made) = handed .down outputs := by rw [handed_append, apart .down, List.append_nil]
  have still (before : Apart outputs) : Apart (outputs ++ made) := apart_append outputs made before apart
  cases phase with
  | establishing e => exact ⟨same.trans soFar.1, still soFar.2.1, replied.trans soFar.2.2⟩
  | refusing err msg rest => exact ⟨by rw [same]; exact soFar.1, still soFar.2.1, replied.trans soFar.2.2⟩
  | replying rest =>
      obtain ⟨bind, partly, before, unsaid⟩ := soFar
      exact ⟨bind, by rw [same]; exact partly, still before, replied.trans unsaid⟩
  | initial id rest | relaying id relay =>
      obtain ⟨bind, whole, once⟩ := soFar
      exact ⟨bind, by rw [same, down]; exact whole, replied.trans once⟩
  | finished =>
      rcases soFar with ⟨code, bind, whole, partly, before, once, complete⟩ | ⟨bind, whole, once⟩
      · exact .inl ⟨code, bind, whole, by rw [same]; exact partly, still before, replied.trans once, by rw [same]; exact complete⟩
      · exact .inr ⟨bind, by rw [same, down]; exact whole, replied.trans once⟩

theorem established_heard (c : Call) (outputs : List Output) (now : Nat) (e : Establish.State) (nothing : heard outputs = [])
    (apart : Apart outputs) (empty : replies outputs = []) : Heard outputs (established c now e) := by
  rw [established]
  split
  · exact ⟨_, by rw [nothing]; rfl, apart, empty⟩
  · exact ⟨by rw [nothing]; rfl, apart, empty⟩
  · exact ⟨nothing, apart, empty⟩

theorem success_code (err : Socks5Error) : err.replyCode ≠ repSucceeded := by
  cases err <;> decide

theorem moves_heard (c : Call) (outputs : List Output) (s after : State) (wake : Wake) (made : List Output)
    (soFar : Heard outputs s.phase) (moves : Moves c s wake after made) : Heard (outputs ++ made) after.phase := by
  have finished (id : Nat) (bind : Address) (whole : heard outputs = encodeReply repSucceeded bind [] ++ handed .down outputs)
      (once : replies outputs = [(repSucceeded, true)]) : Heard (outputs ++ (finish s id).2) (finish s id).1.phase :=
    heard_silent outputs _ .finished (.inr ⟨bind, whole, once⟩) rfl (fun _ => rfl) rfl
  cases moves with
  | establishing e next wake dials phase moved =>
      simp only [phase] at soFar
      obtain ⟨nothing, apart, empty⟩ := soFar
      have quiet := established_heard c outputs s.now next nothing apart empty
      refine heard_silent outputs _ _ quiet ?_ ?_ ?_
      · simp [heard, clientBytes]
      · simp [Apart, handed, handedBytes]
      · simp [replies]
  | refusing err msg rest k phase partly =>
      simp only [phase] at soFar
      obtain ⟨part, apart, empty⟩ := soFar
      refine ⟨?_, apart_append outputs _ apart fun _ => rfl, by rw [replies_append, empty]; rfl⟩
      rw [← part]
      simp [heard, clientBytes]
  | refused err msg rest k phase whole =>
      simp only [phase] at soFar
      obtain ⟨part, apart, empty⟩ := soFar
      have all : heard (outputs ++ .toClient rest :: (refuse s err msg true).2) = encodeReply err.replyCode failureBind [] := by
        rw [← part]
        simp [heard, clientBytes, refuse]
      refine .inl ⟨err.replyCode, failureBind, true, by rw [all], ?_, by rw [replies_append, empty]; rfl, fun _ => ⟨success_code err, all⟩⟩
      exact apart_append outputs _ apart fun dir => by cases dir <;> rfl
  | replying rest k phase partly =>
      simp only [phase] at soFar
      obtain ⟨bind, part, apart, empty⟩ := soFar
      refine ⟨bind, ?_, apart_append outputs _ apart fun _ => rfl, by rw [replies_append, empty]; rfl⟩
      rw [← part]
      simp [heard, clientBytes]
  | replied rest k phase whole =>
      simp only [phase] at soFar
      obtain ⟨bind, part, apart, empty⟩ := soFar
      have all : heard (outputs ++ .toClient rest :: .replied repSucceeded true :: (register c s).2) =
          encodeReply repSucceeded bind [] ++ handed .down (outputs ++ .toClient rest :: .replied repSucceeded true :: (register c s).2) := by
        rw [handed_append, apart .down, ← part]
        simp [heard, clientBytes, register, handed, handedBytes]
      have once : replies (outputs ++ .toClient rest :: .replied repSucceeded true :: (register c s).2) = [(repSucceeded, true)] := by
        rw [replies_append, empty]
        rfl
      simp only [register] at all once ⊢
      split <;> exact ⟨bind, all, once⟩
  | forwarding id rest k phase partly =>
      simp only [phase] at soFar
      obtain ⟨bind, whole, once⟩ := soFar
      refine ⟨bind, ?_, by rw [replies_append, once]; rfl⟩
      rw [heard_append, handed_append, whole]
      simp [heard, clientBytes, handed, handedBytes]
  | forwarded id rest k phase whole =>
      simp only [phase] at soFar
      obtain ⟨bind, whole, once⟩ := soFar
      refine ⟨bind, ?_, by rw [replies_append, once]; rfl⟩
      rw [heard_append, handed_append, whole]
      simp [heard, clientBytes, handed, handedBytes]
  | refusalFailed err msg rest phase =>
      simp only [phase] at soFar
      obtain ⟨part, apart, empty⟩ := soFar
      refine .inl ⟨err.replyCode, failureBind, false, ?_, ?_, by rw [replies_append, empty]; rfl, fun whole => (by cases whole)⟩
      · rw [← part]
        simp [heard, clientBytes, refuse]
      · exact apart_append outputs _ apart fun dir => by cases dir <;> rfl
  | replyFailed rest phase =>
      simp only [phase] at soFar
      obtain ⟨bind, part, apart, empty⟩ := soFar
      refine .inl ⟨repSucceeded, bind, false, ?_, ?_, by rw [replies_append, empty]; rfl, fun whole => (by cases whole)⟩
      · rw [← part]
        simp [heard, clientBytes]
      · exact apart_append outputs _ apart fun _ => rfl
  | relaying id relay later dir act traced phase turned =>
      simp only [phase] at soFar
      obtain ⟨bind, whole, once⟩ := soFar
      obtain ⟨same, empty⟩ := heard_relay traced
      refine ⟨bind, ?_, by rw [replies_append, once, empty]; rfl⟩
      rw [heard_append, handed_append, whole, same, List.append_assoc]
  | initialFailed id rest phase =>
      simp only [phase] at soFar
      obtain ⟨bind, whole, once⟩ := soFar
      exact finished id bind whole once
  | joined id relay phase done =>
      simp only [phase] at soFar
      obtain ⟨bind, whole, once⟩ := soFar
      exact finished id bind whole once
  | shutdown id relay phase =>
      simp only [phase] at soFar
      obtain ⟨bind, whole, once⟩ := soFar
      exact finished id bind whole once
  | others metrics foreign =>
      rw [List.append_nil]
      exact soFar

theorem run_heard (c : Call) (metrics : Metrics) (events : List (Nat × Wake)) (outputs : List Output) (s : State)
    (run : (machine c).Run (start c metrics) events outputs s) : Heard outputs s.phase :=
  (machine c).run_invariant (start c metrics) (fun _ outputs s => Heard outputs s.phase) ⟨rfl, fun _ => rfl, rfl⟩
    (fun _ outputs s event after made soFar stepped =>
      moves_heard c outputs { s with now := event.1 } after event.2 made soFar (step_moves c s after event.1 event.2 made stepped))
    events outputs s run

-- What a client may read after the handshake: some of a reply, a whole refusal, or a success and what the upstream sent.
inductive Dialogue (outputs : List Output) (upstream : Bytes) : Bytes → Prop where
  | partly (code : UInt8) (bind : Address) (read : Bytes) (soFar : read <+: encodeReply code bind []) (apart : Apart outputs)
      (unanswered : ∀ code, (code, true) ∉ replies outputs) : Dialogue outputs upstream read
  | refused (code : UInt8) (bind : Address) (failed : code ≠ repSucceeded) (apart : Apart outputs) (once : replies outputs = [(code, true)]) :
      Dialogue outputs upstream (encodeReply code bind [])
  | relayed (bind : Address) (bytes : Bytes) (sent : bytes <+: upstream) (once : replies outputs = [(repSucceeded, true)]) :
      Dialogue outputs upstream (encodeReply repSucceeded bind [] ++ bytes)

theorem heard_dialogue (c : Call) (outputs : List Output) (phase : Phase) (soFar : Heard outputs phase)
    (down : handed .down outputs <+: c.upstream) : Dialogue outputs c.upstream (heard outputs) := by
  cases phase with
  | establishing e =>
      obtain ⟨nothing, apart, empty⟩ := soFar
      exact .partly repSucceeded failureBind _ (by rw [nothing]; exact List.nil_prefix) apart (by simp [empty])
  | refusing err msg rest =>
      obtain ⟨partly, apart, empty⟩ := soFar
      exact .partly err.replyCode failureBind _ ⟨rest, partly⟩ apart (by simp [empty])
  | replying rest =>
      obtain ⟨bind, partly, apart, empty⟩ := soFar
      exact .partly repSucceeded bind _ ⟨rest, partly⟩ apart (by simp [empty])
  | initial id rest | relaying id relay =>
      obtain ⟨bind, whole, once⟩ := soFar
      rw [whole]
      exact .relayed bind _ down once
  | finished =>
      rcases soFar with ⟨code, bind, whole, partly, apart, once, complete⟩ | ⟨bind, whole, once⟩
      · cases whole with
        | false => exact .partly code bind _ partly apart (by simp [once])
        | true =>
            obtain ⟨failed, all⟩ := complete rfl
            rw [all]
            exact .refused code bind failed apart once
      · rw [whole]
        exact .relayed bind _ down once

-- All that a CONNECT client reads, up to any point: the handshake, one reply, and after a success alone the relayed bytes.
theorem client_reads (cfg : Config) (s : TcpStream) (request : Request) (tail : Bytes)
    (accepted : (negotiate cfg s).result = .request request tail) (peer : SocketAddr) (resolver : DnsResolver)
    (tookMs : Family → Nat) (started : Nat) (upstream : Bytes) (metrics : Metrics) (events : List (Nat × Wake))
    (outputs : List Output) (state : State)
    (run : (machine (dispatched cfg s request tail peer resolver tookMs started upstream)).Run
      (start (dispatched cfg s request tail peer resolver tookMs started upstream) metrics) events outputs state) :
    ∃ read, written (negotiate cfg s) ++ heard outputs = greeted cfg ++ read ∧ Dialogue outputs upstream read := by
  have inv := stream_run _ metrics events outputs state run
  have relayed := stream_prefix _ outputs state inv .down
  refine ⟨heard outputs, by rw [accepted_greeted cfg s request tail accepted], ?_⟩
  exact heard_dialogue _ outputs state.phase (run_heard _ metrics events outputs state run) relayed

-- A reply that goes out in two writes, and a byte of the upstream behind it.
theorem client_reads_pipelined : ∃ outputs state read, (machine pipelinedCall).Run (start pipelinedCall .new)
      [(0, .establish .call), (1, .establish (.attemptDone (.ok ⟨none⟩))), (2, .accept 4), (2, .accept 6), (3, .accept 1),
        (4, .relay .down (.read 1)), (5, .relay .down (.accept 1))] outputs state ∧
    heard outputs = [5, 0, 0, 1, 0, 0, 0, 0, 0, 0, 72] ∧ written (negotiate .default chatting) ++ heard outputs = [5, 0] ++ read ∧
    Dialogue outputs [72, 73] read := by
  have run := (machine pipelinedCall).exec_run (start pipelinedCall .new)
    [(0, .establish .call), (1, .establish (.attemptDone (.ok ⟨none⟩))), (2, .accept 4), (2, .accept 6), (3, .accept 1),
      (4, .relay .down (.read 1)), (5, .relay .down (.accept 1))] _ _ rfl
  obtain ⟨read, whole, dialogue⟩ := client_reads .default chatting _ [71] (by decide) _ _ _ _ _ .new _ _ _ run
  exact ⟨_, _, read, run, rfl, whole, dialogue⟩

end Connect

end NextSocks5
