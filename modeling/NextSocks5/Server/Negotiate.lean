import NextSocks5.Config
import NextSocks5.Library.Incremental
import NextSocks5.Protocol.Handshake
import NextSocks5.Protocol.Request
import NextSocks5.Server.Stream

set_option autoImplicit false

namespace NextSocks5

-- `expired` is the handshake deadline of the caller cancelling negotiate at an await.
inductive Negotiated where
  | request (request : Request) (tail : Bytes)
  | refused
  | expired
deriving DecidableEq, Repr

structure Negotiation where
  result : Negotiated
  stream : TcpStream
  effects : List Effect

-- The number of bytes drained is recomputed from the parsed value.
def greetingVerdict (buf : Bytes) : Verdict Bytes HandshakeError :=
  match parseGreeting buf with
  | .ok methods => .accept methods (2 + methods.length)
  | .error .truncated => .more
  | .error reason => .reject reason

def userpassVerdict (buf : Bytes) : Verdict (String × String) HandshakeError :=
  match parseUserpass buf with
  | .ok (user, pass) => .accept (user, pass) (2 + (asBytes user).length + 1 + (asBytes pass).length)
  | .error .truncated => .more
  | .error reason => .reject reason

def requestVerdict (buf : Bytes) : Verdict Request RequestError :=
  match parseRequest buf with
  | .ok request => .accept request (3 + (request.address.encode []).length)
  | .error reason => if reason.Unfinished then .more else .reject reason

def readMessage {α ε : Type} (verdict : Bytes → Verdict α ε) (buf : Bytes) (s : TcpStream) :
    Incremental.Filled UInt8 Chunk α ε :=
  Incremental.fill verdict readBuf Chunk.bytes buf s.reads

def starved (s : TcpStream) (effects : List Effect) : Negotiation :=
  let result := match s.readEnd with
    | .eof | .error => .refused
    | .stalled => .expired
  ⟨result, { s with reads := [] }, effects⟩

def writeThen (s : TcpStream) (data : Bytes) (effects : List Effect)
    (next : TcpStream → List Effect → Negotiation) : Negotiation :=
  let log := effects ++ [.wrote data s.writeOutcome]
  match s.writeOutcome with
  | .done => next s.afterWrite log
  | .failed _ => ⟨.refused, s.afterWrite, log⟩
  | .stalled _ => ⟨.expired, s.afterWrite, log⟩

-- The reply is best effort; the event follows unless the deadline strikes inside the write.
def replyRequestError (s : TcpStream) (err : Socks5Error) (effects : List Effect) : Negotiation :=
  let log := effects ++ [.reply err.replyCode failureBind s.writeOutcome]
  match s.writeOutcome with
  | .stalled _ => ⟨.expired, s.afterWrite, log⟩
  | .done | .failed _ => ⟨.refused, s.afterWrite, log ++ [.emit (.error err.replyCode "malformed request")]⟩

def requestFailure : RequestError → Option Socks5Error
  | .badCommand _ => some .commandNotSupported
  | .addr (.badAtyp _) => some .addressNotSupported
  | .addr .badDomain => some .general
  | .badVersion _ | .truncated | .addr .truncated => none

-- 3. SOCKS request.
def negotiateRequest (s : TcpStream) (buf : Bytes) (effects : List Effect) : Negotiation :=
  match readMessage requestVerdict buf s with
  | .ready request tail reads => ⟨.request request tail, { s with reads }, effects⟩
  | .refused reason reads =>
      match requestFailure reason with
      | some err => replyRequestError { s with reads } err effects
      | none => ⟨.refused, { s with reads }, effects⟩
  | .overflow reads => ⟨.refused, { s with reads }, effects⟩
  | .starved => starved s effects

-- 2. Username/password authentication (RFC 1929).
def negotiateUserpass (cfg : Config) (s : TcpStream) (buf : Bytes) (effects : List Effect) : Negotiation :=
  match readMessage userpassVerdict buf s with
  | .ready (user, pass) rest reads =>
      let ok := verifyCredentials cfg.auth.users user pass
      writeThen { s with reads } (userpassReply ok) (effects ++ [.emit (.auth ok user)]) fun s log =>
        if ok then negotiateRequest s rest log else ⟨.refused, s, log⟩
  | .refused _ reads =>
      writeThen { s with reads } (userpassReply false) effects fun s log => ⟨.refused, s, log⟩
  | .overflow reads => ⟨.refused, { s with reads }, effects⟩
  | .starved => starved s effects

-- 1. Greeting and method selection.
def negotiate (cfg : Config) (s : TcpStream) : Negotiation :=
  let requireUserpass := cfg.auth.method == .password
  match readMessage greetingVerdict [] s with
  | .ready offered buf reads =>
      let chosen := selectMethod offered requireUserpass
      writeThen { s with reads } (methodReply chosen) [] fun s log =>
        if chosen = methodNoneAcceptable then ⟨.refused, s, log⟩
        else if chosen = methodUserpass then negotiateUserpass cfg s buf log
        else negotiateRequest s buf log
  | .refused _ reads | .overflow reads => ⟨.refused, { s with reads }, []⟩
  | .starved => starved s []

theorem starved_closed (s : TcpStream) (effects : List Effect) (request : Request) (tail : Bytes) :
    (starved s effects).result ≠ .request request tail := by
  cases ending : s.readEnd <;> simp [starved, ending]

theorem reply_request_error_closed (s : TcpStream) (err : Socks5Error) (effects : List Effect) (request : Request)
    (tail : Bytes) : (replyRequestError s err effects).result ≠ .request request tail := by
  cases outcome : s.writeOutcome <;> simp [replyRequestError, outcome]

end NextSocks5
