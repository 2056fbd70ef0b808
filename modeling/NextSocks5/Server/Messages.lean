import NextSocks5.Server.Negotiate

set_option autoImplicit false

namespace NextSocks5

open Incremental

theorem greeting_verdict_complete (bytes methods rest : Bytes) (wire : GreetingBytes bytes methods) :
    greetingVerdict (bytes ++ rest) = .accept methods bytes.length := by
  rw [greetingVerdict, parse_greeting_complete bytes methods rest wire]
  obtain ⟨nmethods, rfl, _⟩ := wire
  simp only [List.length_cons, Verdict.accept.injEq, true_and]
  omega

theorem userpass_verdict_complete (bytes uname passwd rest : Bytes) (wire : UserpassBytes bytes uname passwd) :
    userpassVerdict (bytes ++ rest) =
      match userpassText uname passwd with
      | .ok pair => .accept pair bytes.length
      | .error reason => .reject reason := by
  rw [userpassVerdict, parse_userpass_complete bytes uname passwd rest wire]
  obtain ⟨ulen, plen, rfl, _, _⟩ := wire
  cases user : fromUtf8 uname with
  | none => simp [userpassText, user]
  | some username =>
      cases pass : fromUtf8 passwd with
      | none => simp [userpassText, user, pass]
      | some password =>
          have userText := (from_utf8_some_iff uname username).mp user
          have passText := (from_utf8_some_iff passwd password).mp pass
          simp only [userpassText, user, pass, userText, passText, Verdict.accept.injEq, true_and, List.length_cons,
            List.length_append]
          omega

theorem request_verdict_complete (bytes rest : Bytes) (request : Request) (denotes : Request.Denotes bytes request) :
    requestVerdict (bytes ++ rest) = .accept request bytes.length := by
  rw [requestVerdict, parse_request_complete bytes rest request denotes]
  simp only [request_denotes_length bytes request denotes]

theorem greeting_verdict_sound (buf methods : Bytes) (used : Nat) (parsed : greetingVerdict buf = .accept methods used) :
    ∃ bytes rest, buf = bytes ++ rest ∧ GreetingBytes bytes methods ∧ used = bytes.length := by
  rcases parse_greeting_cases buf with ⟨short, _⟩ | ⟨ver, rest, rfl, other⟩ | ⟨bytes, found, rest, rfl, wire⟩
  · simp [greetingVerdict, short] at parsed
  · simp [greetingVerdict, parse_greeting_bad_version ver rest other] at parsed
  · rw [greeting_verdict_complete bytes found rest wire] at parsed
    cases parsed
    exact ⟨bytes, rest, rfl, wire, rfl⟩

theorem userpass_verdict_sound (buf : Bytes) (user pass : String) (used : Nat)
    (parsed : userpassVerdict buf = .accept (user, pass) used) :
    ∃ bytes rest, buf = bytes ++ rest ∧ UserpassBytes bytes (asBytes user) (asBytes pass) ∧ used = bytes.length := by
  rcases parse_userpass_cases buf with ⟨short, _⟩ | ⟨ver, rest, rfl, other⟩ | ⟨bytes, uname, passwd, rest, rfl, wire⟩
  · simp [userpassVerdict, short] at parsed
  · simp [userpassVerdict, parse_userpass_bad_version ver rest other] at parsed
  · rw [userpass_verdict_complete bytes uname passwd rest wire] at parsed
    cases userEq : fromUtf8 uname with
    | none => simp [userpassText, userEq] at parsed
    | some username =>
        cases passEq : fromUtf8 passwd with
        | none => simp [userpassText, userEq, passEq] at parsed
        | some password =>
            have same : (username = user ∧ password = pass) ∧ bytes.length = used := by
              simpa [userpassText, userEq, passEq] using parsed
            obtain ⟨⟨rfl, rfl⟩, rfl⟩ := same
            refine ⟨bytes, rest, rfl, ?_, rfl⟩
            rwa [(from_utf8_some_iff uname username).mp userEq, (from_utf8_some_iff passwd password).mp passEq]

theorem request_verdict_sound (buf : Bytes) (request : Request) (used : Nat) (answered : requestVerdict buf = .accept request used) :
    ∃ bytes rest, buf = bytes ++ rest ∧ Request.Denotes bytes request ∧ used = bytes.length := by
  cases parsed : parseRequest buf with
  | error reason =>
      simp only [requestVerdict, parsed] at answered
      split at answered <;> cases answered
  | ok found =>
      obtain ⟨bytes, rest, rfl, denotes, _⟩ := parse_request_sound buf found parsed
      rw [request_verdict_complete bytes rest found denotes] at answered
      cases answered
      exact ⟨bytes, rest, rfl, denotes, rfl⟩

-- No unfinished message fills more than the read buffer.
def greetingDecoder : Decoder UInt8 Bytes HandshakeError where
  verdict := greetingVerdict
  limit := 256
  stable := by
    intro buf extra decided
    rcases parse_greeting_cases buf with ⟨short, _⟩ | ⟨ver, rest, rfl, other⟩ | ⟨bytes, methods, rest, rfl, wire⟩
    · exact absurd (by simp [greetingVerdict, short]) decided
    · simp [greetingVerdict, parse_greeting_bad_version ver _ other]
    · rw [List.append_assoc, greeting_verdict_complete bytes methods _ wire, greeting_verdict_complete bytes methods _ wire]
  bounded := by
    intro buf parsed
    rcases parse_greeting_cases buf with ⟨_, bound⟩ | ⟨ver, rest, rfl, other⟩ | ⟨bytes, methods, rest, rfl, wire⟩
    · exact bound
    · simp [greetingVerdict, parse_greeting_bad_version ver rest other] at parsed
    · simp [greeting_verdict_complete bytes methods rest wire] at parsed
  within := by
    intro buf methods used parsed
    obtain ⟨bytes, rest, rfl, _, rfl⟩ := greeting_verdict_sound buf methods used parsed
    simp

def userpassDecoder : Decoder UInt8 (String × String) HandshakeError where
  verdict := userpassVerdict
  limit := 512
  stable := by
    intro buf extra decided
    rcases parse_userpass_cases buf with ⟨short, _⟩ | ⟨ver, rest, rfl, other⟩ | ⟨bytes, uname, passwd, rest, rfl, wire⟩
    · exact absurd (by simp [userpassVerdict, short]) decided
    · simp [userpassVerdict, parse_userpass_bad_version ver _ other]
    · rw [List.append_assoc, userpass_verdict_complete bytes uname passwd _ wire, userpass_verdict_complete bytes uname passwd _ wire]
  bounded := by
    intro buf parsed
    rcases parse_userpass_cases buf with ⟨_, bound⟩ | ⟨ver, rest, rfl, other⟩ | ⟨bytes, uname, passwd, rest, rfl, wire⟩
    · exact bound
    · simp [userpassVerdict, parse_userpass_bad_version ver rest other] at parsed
    · rw [userpass_verdict_complete bytes uname passwd rest wire] at parsed
      split at parsed <;> cases parsed
  within := by
    intro buf (user, pass) used parsed
    obtain ⟨bytes, rest, rfl, _, rfl⟩ := userpass_verdict_sound buf user pass used parsed
    simp

def requestDecoder : Decoder UInt8 Request RequestError where
  verdict := requestVerdict
  limit := 261
  stable := by
    intro buf extra decided
    have settled : ∀ reason, parseRequest buf = .error reason → ¬ reason.Unfinished := by
      intro reason failed unfinished
      exact decided (by simp [requestVerdict, failed, unfinished])
    rw [requestVerdict, parse_request_stable buf extra settled, requestVerdict]
  bounded := by
    intro buf answered
    cases parsed : parseRequest buf with
    | ok request => simp [requestVerdict, parsed] at answered
    | error reason =>
        simp only [requestVerdict, parsed] at answered
        split at answered
        · exact parse_request_unfinished_bound buf reason parsed ‹_›
        · cases answered
  within := by
    intro buf request used answered
    obtain ⟨bytes, rest, rfl, _, rfl⟩ := request_verdict_sound buf request used answered
    simp

theorem greeting_recognized : Recognizes greetingDecoder GreetingBytes where
  sound := greeting_verdict_sound
  complete := fun bytes rest methods wire => greeting_verdict_complete bytes methods rest wire

def CredentialBytes (bytes : Bytes) (pair : String × String) : Prop := UserpassBytes bytes (asBytes pair.1) (asBytes pair.2)

theorem userpass_recognized : Recognizes userpassDecoder CredentialBytes where
  sound := fun buf (user, pass) used parsed => userpass_verdict_sound buf user pass used parsed
  complete := by
    intro bytes rest (user, pass) wire
    change userpassVerdict (bytes ++ rest) = _
    rw [userpass_verdict_complete bytes (asBytes user) (asBytes pass) rest wire]
    simp [userpassText]

theorem request_recognized : Recognizes requestDecoder Request.Denotes where
  sound := request_verdict_sound
  complete := fun bytes rest request denotes => request_verdict_complete bytes rest request denotes

end NextSocks5
