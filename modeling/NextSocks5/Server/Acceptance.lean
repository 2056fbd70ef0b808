import NextSocks5.Server.Messages

set_option autoImplicit false

namespace NextSocks5

open Incremental

def GreetingWire (cfg : Config) (bytes : Bytes) : Prop :=
  ∃ methods, GreetingBytes bytes methods ∧
    (match cfg.auth.method with | .password => 0x02 | .none => 0x00) ∈ methods

def LoginWire (cfg : Config) (bytes : Bytes) : Prop :=
  match cfg.auth.method with
  | .none => bytes = []
  | .password =>
      ∃ uname passwd, UserpassBytes bytes uname passwd ∧ (fromUtf8 uname).isSome ∧ (fromUtf8 passwd).isSome ∧
        ∃ user ∈ cfg.auth.users, asBytes user.username = uname ∧ asBytes user.password = passwd

def HandshakeWire (cfg : Config) (bytes : Bytes) (request : Request) : Prop :=
  ∃ greeting login body, bytes = greeting ++ login ++ body ∧ GreetingWire cfg greeting ∧ LoginWire cfg login ∧
    Request.Denotes body request

-- A request comes out exactly when the stream starts with the format, and leaves what follows it.
structure Exact (step : Negotiation) (whole : Bytes) (wire : Bytes → Request → Prop) : Prop where
  sound : ∀ request tail, step.result = .request request tail →
    ∃ bytes, wire bytes request ∧ whole = bytes ++ (tail ++ step.stream.unread)
  complete : ∀ bytes rest request, wire bytes request → whole = bytes ++ rest →
    ∃ tail, step.result = .request request tail ∧ tail ++ step.stream.unread = rest

theorem exact_none (step : Negotiation) (whole : Bytes) (wire : Bytes → Request → Prop)
    (closed : ∀ request tail, step.result ≠ .request request tail)
    (foreign : ∀ bytes rest request, wire bytes request → whole ≠ bytes ++ rest) : Exact step whole wire where
  sound := fun request tail accepted => absurd accepted (closed request tail)
  complete := fun bytes rest request message same => absurd same (foreign bytes rest request message)

theorem write_then_healthy (s : TcpStream) (data : Bytes) (effects : List Effect)
    (next : TcpStream → List Effect → Negotiation) (healthy : s.Healthy) :
    writeThen s data effects next = next s.afterWrite (effects ++ [.wrote data .done]) := by
  rw [writeThen, TcpStream.healthy_write s healthy]

theorem read_message_recognized {α ε : Type} (decoder : Decoder UInt8 α ε) (wire : Bytes → α → Prop)
    (recognizes : Recognizes decoder wire) (roomy : decoder.limit ≤ readBuf) (buf : Bytes) (s : TcpStream) :
    (∃ message value rest reads, buf ++ s.unread = message ++ (rest ++ { s with reads }.unread) ∧ wire message value ∧
      readMessage decoder.verdict buf s = .ready value rest reads) ∨
    ((∀ message value rest, wire message value → buf ++ s.unread ≠ message ++ rest) ∧
      (readMessage decoder.verdict buf s = .starved ∨
        ∃ reason reads, readMessage decoder.verdict buf s = .refused reason reads)) :=
  fill_recognized decoder wire recognizes readBuf roomy Chunk.bytes buf s.reads

theorem exact_after {α ε : Type} (decoder : Decoder UInt8 α ε) (format : Bytes → α → Prop)
    (recognizes : Recognizes decoder format) (step : Negotiation) (message rest : Bytes) (value : α)
    (good : α → Prop) (wire : Bytes → Request → Prop) (formatted : format message value) (fine : good value)
    (tail : Exact step rest wire) :
    Exact step (message ++ rest) (fun bytes request =>
      ∃ front body, bytes = front ++ body ∧ (∃ found, format front found ∧ good found) ∧ wire body request) where
  sound := by
    intro request kept accepted
    obtain ⟨body, wired, cut⟩ := tail.sound request kept accepted
    exact ⟨message ++ body, ⟨message, body, rfl, ⟨value, formatted, fine⟩, wired⟩, by rw [cut, List.append_assoc]⟩
  complete := by
    rintro bytes after request ⟨front, body, rfl, ⟨found, other, _⟩, wired⟩ same
    rw [List.append_assoc] at same
    obtain ⟨rfl, _, restEq⟩ := recognized_unique decoder format recognizes _ _ _ _ value found formatted other same
    exact tail.complete body after request wired restEq

theorem exact_congr (step : Negotiation) (whole : Bytes) (wire other : Bytes → Request → Prop)
    (same : ∀ bytes request, wire bytes request ↔ other bytes request) (exactly : Exact step whole wire) :
    Exact step whole other := by
  have equal : wire = other := funext fun bytes => funext fun request => propext (same bytes request)
  rwa [← equal]

theorem negotiate_request_exact (s : TcpStream) (buf : Bytes) (effects : List Effect) :
    Exact (negotiateRequest s buf effects) (buf ++ s.unread) Request.Denotes := by
  rcases read_message_recognized requestDecoder Request.Denotes request_recognized (by decide) buf s with
    ⟨message, request, rest, reads, cut, denotes, read⟩ | ⟨foreign, closed⟩
  · have step : negotiateRequest s buf effects = ⟨.request request rest, { s with reads }, effects⟩ := by
      rw [negotiateRequest, show requestVerdict = requestDecoder.verdict from rfl, read]
    rw [step, cut]
    refine ⟨?_, ?_⟩
    · intro found tail accepted
      cases accepted
      exact ⟨message, denotes, rfl⟩
    · intro bytes after found wired same
      obtain ⟨_, requestEq, restEq⟩ :=
        recognized_unique requestDecoder Request.Denotes request_recognized _ _ _ _ request found denotes wired same
      exact ⟨rest, by rw [requestEq], restEq⟩
  · refine exact_none _ _ _ ?_ (fun bytes rest request wired => foreign bytes request rest wired)
    intro request tail
    rw [negotiateRequest, show requestVerdict = requestDecoder.verdict from rfl]
    rcases closed with starvedEq | ⟨reason, reads, refusedEq⟩
    · rw [starvedEq]
      exact starved_closed s effects request tail
    · rw [refusedEq]
      dsimp only
      cases requestFailure reason with
      | none => simp
      | some err => exact reply_request_error_closed _ err effects request tail

def KnownUser (cfg : Config) (pair : String × String) : Prop :=
  ∃ user ∈ cfg.auth.users, user.username = pair.1 ∧ user.password = pair.2

def LoginRequestWire (cfg : Config) (bytes : Bytes) (request : Request) : Prop :=
  ∃ login body, bytes = login ++ body ∧ (∃ pair, CredentialBytes login pair ∧ KnownUser cfg pair) ∧
    Request.Denotes body request

theorem negotiate_userpass_exact (cfg : Config) (s : TcpStream) (buf : Bytes) (effects : List Effect) (healthy : s.Healthy) :
    Exact (negotiateUserpass cfg s buf effects) (buf ++ s.unread) (LoginRequestWire cfg) := by
  rcases read_message_recognized userpassDecoder CredentialBytes userpass_recognized (by decide) buf s with
    ⟨message, ⟨user, pass⟩, rest, reads, cut, credentials, read⟩ | ⟨foreign, closed⟩
  · have step : negotiateUserpass cfg s buf effects =
        writeThen { s with reads } (userpassReply (verifyCredentials cfg.auth.users user pass))
          (effects ++ [.emit (.auth (verifyCredentials cfg.auth.users user pass) user)]) fun s log =>
            if verifyCredentials cfg.auth.users user pass then negotiateRequest s rest log else ⟨.refused, s, log⟩ := by
      rw [negotiateUserpass, show userpassVerdict = userpassDecoder.verdict from rfl, read]
    rw [step, write_then_healthy _ _ _ _ (TcpStream.healthy_reads s reads healthy)]
    by_cases known : verifyCredentials cfg.auth.users user pass = true
    · rw [if_pos known, cut]
      exact exact_after userpassDecoder CredentialBytes userpass_recognized _ message _ (user, pass) (KnownUser cfg)
        Request.Denotes credentials ((verify_credentials_iff _ _ _).mp known) (negotiate_request_exact _ rest _)
    · rw [if_neg known]
      refine exact_none _ _ _ (by simp) ?_
      rintro bytes after request ⟨login, body, rfl, ⟨found, wired, registered⟩, _⟩ same
      rw [cut, List.append_assoc] at same
      obtain ⟨_, pairEq, _⟩ :=
        recognized_unique userpassDecoder CredentialBytes userpass_recognized _ _ _ _ (user, pass) found credentials wired same
      subst pairEq
      exact known ((verify_credentials_iff _ _ _).mpr registered)
  · refine exact_none _ _ _ ?_ ?_
    · intro request tail
      rw [negotiateUserpass, show userpassVerdict = userpassDecoder.verdict from rfl]
      rcases closed with starvedEq | ⟨reason, reads, refusedEq⟩
      · rw [starvedEq]
        exact starved_closed s effects request tail
      · rw [refusedEq]
        dsimp only
        rw [write_then_healthy _ _ _ _ (TcpStream.healthy_reads s reads healthy)]
        simp
    · rintro bytes rest request ⟨login, body, rfl, ⟨pair, wired, _⟩, _⟩ same
      rw [List.append_assoc] at same
      exact foreign login pair (body ++ rest) wired same

theorem login_wire_password (cfg : Config) (bytes : Bytes) (required : cfg.auth.method = .password) :
    LoginWire cfg bytes ↔ ∃ pair, CredentialBytes bytes pair ∧ KnownUser cfg pair := by
  simp only [LoginWire, required]
  constructor
  · rintro ⟨uname, passwd, wire, _, _, user, member, rfl, rfl⟩
    exact ⟨(user.username, user.password), wire, user, member, rfl, rfl⟩
  · rintro ⟨⟨name, pass⟩, wire, user, member, rfl, rfl⟩
    exact ⟨_, _, wire, by simp, by simp, user, member, rfl, rfl⟩

def wantedMethod (cfg : Config) : UInt8 :=
  match cfg.auth.method with
  | .password => 0x02
  | .none => 0x00

theorem select_method_offered (cfg : Config) (offered : Bytes) (present : wantedMethod cfg ∈ offered) :
    selectMethod offered (cfg.auth.method == .password) = wantedMethod cfg := by
  cases method : cfg.auth.method <;>
    simp_all [selectMethod, wantedMethod, methodUserpass, methodNoAuth]

theorem select_method_absent (cfg : Config) (offered : Bytes) (absent : wantedMethod cfg ∉ offered) :
    selectMethod offered (cfg.auth.method == .password) = methodNoneAcceptable := by
  cases method : cfg.auth.method <;>
    simp_all [selectMethod, wantedMethod, methodUserpass, methodNoAuth]

theorem wanted_method_acceptable (cfg : Config) : wantedMethod cfg ≠ methodNoneAcceptable := by
  cases method : cfg.auth.method <;> simp [wantedMethod, method, methodNoneAcceptable]

theorem negotiate_chosen_exact (cfg : Config) (s : TcpStream) (buf : Bytes) (effects : List Effect) (healthy : s.Healthy) :
    Exact (if wantedMethod cfg = methodUserpass then negotiateUserpass cfg s buf effects else negotiateRequest s buf effects)
      (buf ++ s.unread) (fun bytes request =>
        ∃ login body, bytes = login ++ body ∧ LoginWire cfg login ∧ Request.Denotes body request) := by
  cases method : cfg.auth.method with
  | none =>
      rw [if_neg (by simp [wantedMethod, method, methodUserpass])]
      refine exact_congr _ _ Request.Denotes _ ?_ (negotiate_request_exact s buf effects)
      intro bytes request
      constructor
      · intro denotes
        exact ⟨[], bytes, rfl, by simp [LoginWire, method], denotes⟩
      · rintro ⟨login, body, rfl, empty, denotes⟩
        have none : login = [] := by simpa [LoginWire, method] using empty
        rwa [none]
  | password =>
      rw [if_pos (by simp [wantedMethod, method, methodUserpass])]
      refine exact_congr _ _ (LoginRequestWire cfg) _ ?_ (negotiate_userpass_exact cfg s buf effects healthy)
      intro bytes request
      simp only [LoginRequestWire, login_wire_password cfg _ method]

theorem negotiate_wire_exact (cfg : Config) (s : TcpStream) (healthy : s.Healthy) :
    Exact (negotiate cfg s) s.unread (HandshakeWire cfg) := by
  have format : ∀ bytes request, (∃ front body, bytes = front ++ body ∧
      (∃ methods, GreetingBytes front methods ∧ wantedMethod cfg ∈ methods) ∧
      ∃ login rest, body = login ++ rest ∧ LoginWire cfg login ∧ Request.Denotes rest request) ↔
      HandshakeWire cfg bytes request := by
    intro bytes request
    constructor
    · rintro ⟨front, _, rfl, greeting, login, rest, rfl, wired, denotes⟩
      exact ⟨front, login, rest, by rw [List.append_assoc], greeting, wired, denotes⟩
    · rintro ⟨front, login, rest, rfl, greeting, wired, denotes⟩
      exact ⟨front, login ++ rest, by rw [List.append_assoc], greeting, login, rest, rfl, wired, denotes⟩
  refine exact_congr _ _ _ _ format ?_
  rcases read_message_recognized greetingDecoder GreetingBytes greeting_recognized (by decide) [] s with
    ⟨message, offered, rest, reads, cut, greeting, read⟩ | ⟨foreign, closed⟩
  · rw [negotiate, show greetingVerdict = greetingDecoder.verdict from rfl, read]
    dsimp only
    rw [write_then_healthy _ _ _ _ (TcpStream.healthy_reads s reads healthy)]
    rw [List.nil_append] at cut
    by_cases present : wantedMethod cfg ∈ offered
    · rw [select_method_offered cfg offered present, if_neg (wanted_method_acceptable cfg), cut]
      exact exact_after greetingDecoder GreetingBytes greeting_recognized _ message _ offered (wantedMethod cfg ∈ ·) _
        greeting present (negotiate_chosen_exact cfg _ rest _ (TcpStream.healthy_after_write _ healthy))
    · rw [select_method_absent cfg offered present, if_pos rfl]
      refine exact_none _ _ _ (by simp) ?_
      rintro bytes after request ⟨front, body, rfl, ⟨methods, wired, member⟩, _⟩ same
      rw [cut, List.append_assoc] at same
      obtain ⟨_, methodsEq, _⟩ :=
        recognized_unique greetingDecoder GreetingBytes greeting_recognized _ _ _ _ offered methods greeting wired same
      exact present (methodsEq ▸ member)
  · refine exact_none _ _ _ ?_ ?_
    · intro request tail
      rw [negotiate, show greetingVerdict = greetingDecoder.verdict from rfl]
      rcases closed with starvedEq | ⟨reason, reads, refusedEq⟩
      · rw [starvedEq]
        exact starved_closed s [] request tail
      · rw [refusedEq]
        simp
    · rintro bytes rest request ⟨front, body, rfl, ⟨methods, wired, _⟩, _⟩ same
      rw [List.append_assoc] at same
      exact foreign front methods (body ++ rest) wired (by simpa using same)

-- A request comes with every write complete, so a healthy stream of the same reads gives it too.
def Agrees (step other : Negotiation) : Prop :=
  ∀ request tail, step.result = .request request tail → other.result = .request request tail ∧ other.stream.unread = step.stream.unread

theorem read_message_reads {α ε : Type} (verdict : Bytes → Verdict α ε) (buf : Bytes) (s other : TcpStream)
    (same : other.reads = s.reads) : readMessage verdict buf other = readMessage verdict buf s := by
  rw [readMessage, readMessage, same]

theorem write_then_agrees (s other : TcpStream) (data : Bytes) (effects log : List Effect)
    (next following : TcpStream → List Effect → Negotiation) (healthy : other.Healthy)
    (agree : ∀ log later, Agrees (next s.afterWrite log) (following other.afterWrite later)) :
    Agrees (writeThen s data effects next) (writeThen other data log following) := by
  intro request tail accepted
  rw [write_then_healthy other data log following healthy]
  cases outcome : s.writeOutcome with
  | done =>
      simp only [writeThen, outcome] at accepted ⊢
      exact agree _ _ request tail accepted
  | failed k => simp [writeThen, outcome] at accepted
  | stalled k => simp [writeThen, outcome] at accepted

theorem negotiate_request_agrees (s other : TcpStream) (buf : Bytes) (effects log : List Effect) (same : other.reads = s.reads) :
    Agrees (negotiateRequest s buf effects) (negotiateRequest other buf log) := by
  intro request tail accepted
  simp only [negotiateRequest, read_message_reads requestVerdict buf s other same] at accepted ⊢
  cases read : readMessage requestVerdict buf s with
  | ready found rest reads =>
      simp only [read] at accepted ⊢
      exact ⟨accepted, rfl⟩
  | refused reason reads =>
      simp only [read] at accepted
      cases failed : requestFailure reason with
      | none => simp [failed] at accepted
      | some err =>
          simp only [failed] at accepted
          exact absurd accepted (reply_request_error_closed _ err effects request tail)
  | overflow reads => simp [read] at accepted
  | starved =>
      simp only [read] at accepted
      exact absurd accepted (starved_closed s effects request tail)

theorem negotiate_userpass_agrees (cfg : Config) (s other : TcpStream) (buf : Bytes) (effects log : List Effect)
    (same : other.reads = s.reads) (healthy : other.Healthy) :
    Agrees (negotiateUserpass cfg s buf effects) (negotiateUserpass cfg other buf log) := by
  intro request tail accepted
  simp only [negotiateUserpass, read_message_reads userpassVerdict buf s other same] at accepted ⊢
  cases read : readMessage userpassVerdict buf s with
  | ready pair rest reads =>
      simp only [read] at accepted ⊢
      refine write_then_agrees _ _ _ _ _ _ _ (TcpStream.healthy_reads other reads healthy) ?_ request tail accepted
      intro log later
      split
      · exact negotiate_request_agrees _ _ rest log later rfl
      · simp [Agrees]
  | refused reason reads =>
      simp only [read] at accepted ⊢
      refine write_then_agrees _ _ _ _ _ _ _ (TcpStream.healthy_reads other reads healthy) ?_ request tail accepted
      simp [Agrees]
  | overflow reads => simp [read] at accepted
  | starved =>
      simp only [read] at accepted
      exact absurd accepted (starved_closed s effects request tail)

theorem negotiate_agrees (cfg : Config) (s other : TcpStream) (same : other.reads = s.reads) (healthy : other.Healthy) :
    Agrees (negotiate cfg s) (negotiate cfg other) := by
  intro request tail accepted
  simp only [negotiate, read_message_reads greetingVerdict [] s other same] at accepted ⊢
  cases read : readMessage greetingVerdict [] s with
  | ready offered rest reads =>
      simp only [read] at accepted ⊢
      refine write_then_agrees _ _ _ _ _ _ _ (TcpStream.healthy_reads other reads healthy) ?_ request tail accepted
      intro log later
      split
      · simp [Agrees]
      · split
        · exact negotiate_userpass_agrees cfg _ _ rest log later rfl (TcpStream.healthy_after_write _ healthy)
        · exact negotiate_request_agrees _ _ rest log later rfl
  | refused reason reads => simp [read] at accepted
  | overflow reads => simp [read] at accepted
  | starved =>
      simp only [read] at accepted
      exact absurd accepted (starved_closed s [] request tail)

theorem negotiate_sound (cfg : Config) (s : TcpStream) (request : Request) (tail : Bytes)
    (accepted : (negotiate cfg s).result = .request request tail) :
    ∃ bytes, HandshakeWire cfg bytes request ∧ s.unread = bytes ++ (tail ++ (negotiate cfg s).stream.unread) := by
  have healthy : TcpStream.Healthy { s with readEnd := .eof, writes := [] } := ⟨by simp, by simp⟩
  obtain ⟨same, left⟩ := negotiate_agrees cfg s { s with readEnd := .eof, writes := [] } rfl healthy request tail accepted
  obtain ⟨bytes, wired, cut⟩ := (negotiate_wire_exact cfg _ healthy).sound request tail same
  rw [left] at cut
  exact ⟨bytes, wired, cut⟩

-- Whatever the segmentation, a request comes out of the handshake exactly when
-- the stream starts with an acceptable one; the tail and the unread bytes are
-- then exactly what follows it.
theorem negotiate_exact (cfg : Config) (s : TcpStream) (healthy : s.Healthy) :
    ((∃ request tail, (negotiate cfg s).result = .request request tail) ↔
      ∃ bytes rest request, s.unread = bytes ++ rest ∧ HandshakeWire cfg bytes request) ∧
    ∀ request tail, (negotiate cfg s).result = .request request tail →
      ∀ bytes rest denoted, s.unread = bytes ++ rest → HandshakeWire cfg bytes denoted →
        denoted = request ∧ tail ++ (negotiate cfg s).stream.unread = rest := by
  have exactness := negotiate_wire_exact cfg s healthy
  refine ⟨⟨?_, ?_⟩, ?_⟩
  · rintro ⟨request, tail, accepted⟩
    obtain ⟨bytes, wired, cut⟩ := exactness.sound request tail accepted
    exact ⟨bytes, _, request, cut, wired⟩
  · rintro ⟨bytes, rest, request, cut, wired⟩
    obtain ⟨tail, accepted, _⟩ := exactness.complete bytes rest request wired cut
    exact ⟨request, tail, accepted⟩
  · intro request tail accepted bytes rest denoted cut wired
    obtain ⟨kept, found, left⟩ := exactness.complete bytes rest denoted wired cut
    rw [accepted] at found
    cases found
    exact ⟨rfl, left⟩

def pipelined : TcpStream where
  reads := [⟨[5, 1, 0, 5], by decide, by decide⟩, ⟨[1, 0, 1, 93, 184, 216, 34, 0, 80, 71], by decide, by decide⟩]
  readEnd := .eof
  writes := []

theorem negotiate_exact_pipelined : ∃ bytes rest request, pipelined.unread = bytes ++ rest ∧
    HandshakeWire .default bytes request :=
  (negotiate_exact .default pipelined ⟨by decide, by simp [pipelined]⟩).1.mp
    ⟨⟨.connect, .v4 (.new 93 184 216 34) 80⟩, [71], by decide⟩

end NextSocks5
