import NextSocks5.Server.Association
import NextSocks5.Server.Stream

set_option autoImplicit false

namespace NextSocks5

namespace Udp

-- What the system answers while an association is set up; `cursor` is PORT_CURSOR.
structure Host where
  localAddr : Option SocketAddr
  cursor : UInt32
  bind : IpAddr → UInt16 → Except IoError (Option SocketAddr)
  resolver : DnsResolver
  tookMs : Nat
  outcome : WriteOutcome

def candidates (range : PortRange) (base : UInt32) : List UInt16 :=
  let width : UInt32 := (range.last - range.start).toUInt32 + 1
  (List.range width.toNat).map fun i => range.start + ((base + UInt32.ofNat i) % width).toUInt16

-- A port that is taken or privileged is skipped, any other error is fatal.
def tryPorts {α : Type} (bind : UInt16 → Except IoError α) : List UInt16 → Except IoError α
  | [] => .error ⟨.addrInUse, "udp_port_range exhausted"⟩
  | port :: ports =>
      match bind port with
      | .ok sock => .ok sock
      | .error error =>
          match error.kind with
          | .addrInUse | .permissionDenied => tryPorts bind ports
          | _ => .error error

def bindWithRetry {α : Type} (bind : UInt16 → Except IoError α) (range : Option PortRange) (cursor : UInt32) : Except IoError α :=
  match range with
  | none => bind 0
  | some range => tryPorts bind (candidates range cursor)

-- `ok none` leaves the bound address to be advertised.
def resolveAdvertiseIp (cfg : Config) (bindIp : IpAddr) (resolver : DnsResolver) (tookMs : Nat) : Except String (Option IpAddr) :=
  match cfg.udp.advertise with
  | none => .ok none
  | some (.ip ip) => if ip.isUnspecified then .ok none else .ok (some ip)
  | some (.domain host) =>
      match resolver.lookup host 0 bindIp.isIpv4 tookMs with
      | .error error => .error error.display
      | .ok addresses =>
          match (addresses.map SocketAddr.ip).find? fun ip => !ip.isUnspecified && ip.isIpv4 == bindIp.isIpv4 with
          | some ip => .ok (some ip)
          | none => .error s!"{host}: no addresses matching the UDP socket family"

inductive Setup where
  | closed
  | relaying (a : Association) (metrics : Metrics)

def bindFailed (outcome : WriteOutcome) : List Effect :=
  [.reply Socks5Error.general.replyCode failureBind outcome,
    .emit (.error Socks5Error.general.replyCode "udp relay bind failed (port range exhausted?)")]

def advertiseFailed (outcome : WriteOutcome) (error : String) : List Effect :=
  [.reply Socks5Error.hostUnreachable.replyCode failureBind outcome,
    .recordError Socks5Error.hostUnreachable.replyCode,
    .emit (.error Socks5Error.hostUnreachable.replyCode s!"could not resolve UDP advertise host: {error}")]

-- The association is registered only after a successful reply.
def announce (cfg : Config) (peer : SocketAddr) (host : Host) (metrics : Metrics) (bindIp : IpAddr) (bnd : SocketAddr) :
    Setup × List Effect :=
  let reply := Effect.reply repSucceeded (addrFromSocket bnd) host.outcome
  if host.outcome = .done then
    let (id, metrics) := metrics.register peer "udp-associate" .udp
    (.relaying ⟨cfg, peer, bindIp, id⟩ metrics, [reply, .emit (.connect id peer "udp-associate" .udp)])
  else (.closed, [reply])

def associate (cfg : Config) (peer : SocketAddr) (host : Host) (metrics : Metrics) : Setup × List Effect :=
  match host.localAddr with
  | none => (.closed, [])
  | some addr =>
      let bindIp := addr.ip.toCanonical
      match bindWithRetry (host.bind bindIp) cfg.udp.portRange host.cursor with
      | .error _ => (.closed, bindFailed host.outcome)
      | .ok none => (.closed, [])
      | .ok (some bound) =>
          match resolveAdvertiseIp cfg bound.ip host.resolver host.tookMs with
          | .error error => (.closed, advertiseFailed host.outcome error)
          | .ok advertised => announce cfg peer host metrics bindIp (.new (advertised.getD bound.ip) bound.port)

end Udp

end NextSocks5
