import NextSocks5.Server.Messages

set_option autoImplicit false

namespace NextSocks5

open Incremental

inductive Conversation where
  | accepted (request : Request)
  | malformed (err : Socks5Error) (outcome : WriteOutcome)
  | closed
deriving DecidableEq, Repr

def firstOutcome (writes : List WriteOutcome) : WriteOutcome := writes.head?.getD .done

def requestConversation (whole : Bytes) (writes : List WriteOutcome) : Conversation :=
  match requestVerdict whole with
  | .accept request _ => .accepted request
  | .reject reason =>
      match requestFailure reason with
      | some err => .malformed err (firstOutcome writes)
      | none => .closed
  | .more => .closed

def userpassConversation (cfg : Config) (whole : Bytes) (writes : List WriteOutcome) : Conversation :=
  match userpassVerdict whole with
  | .accept (user, pass) used =>
      if firstOutcome writes = .done ∧ verifyCredentials cfg.auth.users user pass then
        requestConversation (whole.drop used) writes.tail
      else .closed
  | _ => .closed

def conversation (cfg : Config) (whole : Bytes) (writes : List WriteOutcome) : Conversation :=
  match greetingVerdict whole with
  | .accept offered used =>
      let chosen := selectMethod offered (cfg.auth.method == .password)
      if firstOutcome writes ≠ .done ∨ chosen = methodNoneAcceptable then .closed
      else if chosen = methodUserpass then userpassConversation cfg (whole.drop used) writes.tail
      else requestConversation (whole.drop used) writes.tail
  | _ => .closed

def Effect.silent : Effect → Bool
  | .reply _ _ _ | .recordError _ | .emit (.error _ _) => false
  | _ => true

def Silent (effects : List Effect) : Prop := ∀ effect ∈ effects, effect.silent

def malformedEvent (err : Socks5Error) : WriteOutcome → List Effect
  | .stalled _ => []
  | .done | .failed _ => [.emit (.error err.replyCode "malformed request")]

def Unanswered (step : Negotiation) : Prop := ∀ request tail, step.result ≠ .request request tail

def Follows (conversation : Conversation) (step : Negotiation) : Prop :=
  match conversation with
  | .accepted request => (∃ tail, step.result = .request request tail) ∧ Silent step.effects
  | .malformed err outcome =>
      Unanswered step ∧ ∃ log, Silent log ∧ step.effects = log ++ .reply err.replyCode failureBind outcome :: malformedEvent err outcome
  | .closed => Unanswered step ∧ Silent step.effects

theorem silent_snoc (effects : List Effect) (effect : Effect) (silent : Silent effects) (quiet : effect.silent = true) :
    Silent (effects ++ [effect]) := by
  intro other member
  rcases List.mem_append.mp member with old | new
  · exact silent other old
  · rw [List.mem_singleton] at new
    rw [new, quiet]

theorem starved_follows (s : TcpStream) (effects : List Effect) (silent : Silent effects) : Follows .closed (starved s effects) :=
  ⟨starved_closed s effects, silent⟩

theorem reply_follows (s : TcpStream) (err : Socks5Error) (effects : List Effect) (silent : Silent effects) :
    Follows (.malformed err s.writeOutcome) (replyRequestError s err effects) := by
  refine ⟨reply_request_error_closed s err effects, effects, silent, ?_⟩
  cases outcome : s.writeOutcome <;> simp [replyRequestError, outcome, malformedEvent]

theorem negotiate_request_follows (s : TcpStream) (buf : Bytes) (effects : List Effect) (silent : Silent effects) :
    Follows (requestConversation (buf ++ s.unread) s.writes) (negotiateRequest s buf effects) := by
  have oneShot := fill_one_shot requestDecoder readBuf (by decide) Chunk.bytes buf s.reads
  change OneShot requestVerdict Chunk.bytes (buf ++ s.unread) (readMessage requestVerdict buf s) at oneShot
  rw [requestConversation, negotiateRequest]
  cases parsed : requestVerdict (buf ++ s.unread) with
  | accept request used =>
      simp only [OneShot, parsed] at oneShot
      obtain ⟨tail, reads, read, _⟩ := oneShot
      rw [read]
      exact ⟨⟨tail, rfl⟩, silent⟩
  | reject reason =>
      simp only [OneShot, parsed] at oneShot
      obtain ⟨reads, read⟩ := oneShot
      rw [read]
      dsimp only
      cases requestFailure reason with
      | none => exact ⟨by simp [Unanswered], silent⟩
      | some err => exact reply_follows { s with reads } err effects silent
  | more =>
      simp only [OneShot, parsed] at oneShot
      rw [oneShot]
      exact starved_follows s effects silent

theorem write_then_closed (s : TcpStream) (data : Bytes) (effects : List Effect) (next : TcpStream → List Effect → Negotiation)
    (silent : Silent effects) (closed : s.writeOutcome = .done → ∀ log, Silent log → Follows .closed (next s.afterWrite log)) :
    Follows .closed (writeThen s data effects next) := by
  have logged := fun outcome => silent_snoc effects (.wrote data outcome) silent rfl
  rw [writeThen]
  cases outcome : s.writeOutcome with
  | done => exact closed outcome _ (logged .done)
  | failed k => exact ⟨by simp [Unanswered], logged (.failed k)⟩
  | stalled k => exact ⟨by simp [Unanswered], logged (.stalled k)⟩

theorem write_then_follows (s : TcpStream) (data : Bytes) (effects : List Effect) (next : TcpStream → List Effect → Negotiation)
    (conversation : Conversation) (silent : Silent effects) (go : s.writeOutcome = .done)
    (follows : ∀ log, Silent log → Follows conversation (next s.afterWrite log)) :
    Follows conversation (writeThen s data effects next) := by
  rw [writeThen, go]
  exact follows _ (silent_snoc effects (.wrote data .done) silent rfl)

theorem negotiate_userpass_follows (cfg : Config) (s : TcpStream) (buf : Bytes) (effects : List Effect) (silent : Silent effects) :
    Follows (userpassConversation cfg (buf ++ s.unread) s.writes) (negotiateUserpass cfg s buf effects) := by
  have oneShot := fill_one_shot userpassDecoder readBuf (by decide) Chunk.bytes buf s.reads
  change OneShot userpassVerdict Chunk.bytes (buf ++ s.unread) (readMessage userpassVerdict buf s) at oneShot
  rw [userpassConversation, negotiateUserpass]
  cases parsed : userpassVerdict (buf ++ s.unread) with
  | accept pair used =>
      obtain ⟨user, pass⟩ := pair
      simp only [OneShot, parsed] at oneShot
      obtain ⟨tail, reads, read, left⟩ := oneShot
      rw [read]
      dsimp only
      have noted := silent_snoc effects (.emit (.auth (verifyCredentials cfg.auth.users user pass) user)) silent rfl
      by_cases go : firstOutcome s.writes = .done
      · refine write_then_follows { s with reads } _ _ _ _ noted go ?_
        intro log quiet
        by_cases known : verifyCredentials cfg.auth.users user pass = true
        · rw [if_pos ⟨go, known⟩, if_pos known, ← left]
          exact negotiate_request_follows { s with reads }.afterWrite tail log quiet
        · rw [if_neg (fun both => known both.2), if_neg known]
          exact ⟨by simp [Unanswered], quiet⟩
      · rw [if_neg (fun both => go both.1)]
        exact write_then_closed { s with reads } _ _ _ noted fun done => absurd done go
  | reject reason =>
      simp only [OneShot, parsed] at oneShot
      obtain ⟨reads, read⟩ := oneShot
      rw [read]
      exact write_then_closed _ _ _ _ silent fun _ log quiet => ⟨by simp [Unanswered], quiet⟩
  | more =>
      simp only [OneShot, parsed] at oneShot
      rw [oneShot]
      exact starved_follows s effects silent

theorem negotiate_follows (cfg : Config) (s : TcpStream) : Follows (conversation cfg s.unread s.writes) (negotiate cfg s) := by
  have oneShot := fill_one_shot greetingDecoder readBuf (by decide) Chunk.bytes [] s.reads
  change OneShot greetingVerdict Chunk.bytes s.unread (readMessage greetingVerdict [] s) at oneShot
  have nothing : Silent [] := by simp [Silent]
  rw [conversation, negotiate]
  cases parsed : greetingVerdict s.unread with
  | accept offered used =>
      simp only [OneShot, parsed] at oneShot
      obtain ⟨tail, reads, read, left⟩ := oneShot
      rw [read]
      dsimp only
      by_cases go : firstOutcome s.writes = .done
      · refine write_then_follows { s with reads } _ _ _ _ nothing go ?_
        intro log quiet
        by_cases acceptable : selectMethod offered (cfg.auth.method == .password) = methodNoneAcceptable
        · rw [if_pos (.inr acceptable), if_pos acceptable]
          exact ⟨by simp [Unanswered], quiet⟩
        · rw [if_neg (by simp [go, acceptable]), if_neg acceptable, ← left]
          split
          · exact negotiate_userpass_follows cfg { s with reads }.afterWrite tail log quiet
          · exact negotiate_request_follows { s with reads }.afterWrite tail log quiet
      · rw [if_pos (.inl go)]
        exact write_then_closed { s with reads } _ _ _ nothing fun done => absurd done go
  | reject reason =>
      simp only [OneShot, parsed] at oneShot
      obtain ⟨reads, read⟩ := oneShot
      rw [read]
      exact ⟨by simp [Unanswered], nothing⟩
  | more =>
      simp only [OneShot, parsed] at oneShot
      rw [oneShot]
      exact starved_follows s [] nothing

end NextSocks5
