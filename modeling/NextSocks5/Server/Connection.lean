import NextSocks5.Server.Associate
import NextSocks5.Server.Connect

set_option autoImplicit false

namespace NextSocks5

namespace Connection

structure Conn where
  cfg : Config
  peer : SocketAddr
  stream : TcpStream
  metrics : Metrics
  resolver : DnsResolver
  tookMs : Family → Nat
  started : Nat
  upstream : Bytes
  host : Udp.Host

inductive Note where
  | replied (code : UInt8)
  | recorded (code : UInt8)
  | event (code : UInt8)
deriving DecidableEq, Repr

def effectNotes : Effect → List Note
  | .reply code _ _ => [.replied code]
  | .recordError code => [.recorded code]
  | .emit (.error code _) => [.event code]
  | _ => []

def connectNotes : Connect.Output → List Note
  | .replied code _ => [.replied code]
  | .recordError code => [.recorded code]
  | .emit (.error code _) => [.event code]
  | _ => []

def associationNotes : Udp.Output → List Note
  | .emit (.error code _) => [.event code]
  | _ => []

def bindRefused (outcome : WriteOutcome) : List Effect :=
  [.reply Socks5Error.commandNotSupported.replyCode failureBind outcome,
    .emit (.error Socks5Error.commandNotSupported.replyCode "BIND not supported")]

def Conn.call (c : Conn) (request : Request) (tail : Bytes) : Connect.Call :=
  Connect.dispatched c.cfg c.stream request tail c.peer c.resolver c.tookMs c.started c.upstream

inductive Handles (c : Conn) : List Note → Prop where
  | closed (unanswered : ∀ request tail, (negotiate c.cfg c.stream).result ≠ .request request tail) :
      Handles c ((negotiate c.cfg c.stream).effects.flatMap effectNotes)
  | connect (address : Address) (tail : Bytes) (negotiated : (negotiate c.cfg c.stream).result = .request ⟨.connect, address⟩ tail)
      (events : List (Nat × Connect.Wake)) (outputs : List Connect.Output) (s : Connect.State)
      (run : (Connect.machine (c.call ⟨.connect, address⟩ tail)).Run (Connect.start (c.call ⟨.connect, address⟩ tail) c.metrics)
        events outputs s) (finished : s.phase = .finished) :
      Handles c ((negotiate c.cfg c.stream).effects.flatMap effectNotes ++ outputs.flatMap connectNotes)
  | bind (address : Address) (tail : Bytes) (negotiated : (negotiate c.cfg c.stream).result = .request ⟨.bind, address⟩ tail) :
      Handles c ((negotiate c.cfg c.stream).effects.flatMap effectNotes ++ (bindRefused c.host.outcome).flatMap effectNotes)
  | unassociated (address : Address) (tail : Bytes) (effects : List Effect)
      (negotiated : (negotiate c.cfg c.stream).result = .request ⟨.udpAssociate, address⟩ tail)
      (setup : Udp.associate c.cfg c.peer c.host c.metrics = (.closed, effects)) :
      Handles c ((negotiate c.cfg c.stream).effects.flatMap effectNotes ++ effects.flatMap effectNotes)
  | associated (address : Address) (tail : Bytes) (effects : List Effect) (a : Udp.Association) (metrics : Metrics)
      (negotiated : (negotiate c.cfg c.stream).result = .request ⟨.udpAssociate, address⟩ tail)
      (setup : Udp.associate c.cfg c.peer c.host c.metrics = (.relaying a metrics, effects))
      (events : List (Nat × Udp.Wake)) (outputs : List Udp.Output) (s : Udp.State)
      (run : (Udp.machine a).Run (Udp.start c.started) events outputs s) (ended : s.running = false) :
      Handles c ((negotiate c.cfg c.stream).effects.flatMap effectNotes ++ effects.flatMap effectNotes ++
        outputs.flatMap associationNotes)

end Connection

end NextSocks5
