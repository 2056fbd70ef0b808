import NextSocks5.Config
import NextSocks5.Dns
import NextSocks5.Library.Machine
import NextSocks5.Metrics
import NextSocks5.Protocol.Reply
import NextSocks5.Protocol.Udp

set_option autoImplicit false

namespace NextSocks5

namespace Udp

def secondNs : Nat := 1000000000

structure Association where
  cfg : Config
  clientPeer : SocketAddr
  bindIp : IpAddr
  id : Nat

def Association.clientIp (a : Association) : IpAddr := a.clientPeer.ip.toCanonical

def Association.maxTargets (a : Association) : Nat := max a.cfg.limits.udpMaxTargets 1

def Association.idle (a : Association) : Nat := millis a.cfg.timeouts.udpIdleMs

-- `waitingSince` is when the select, and with it the idle timeout, was created.
structure State where
  now : Nat
  waitingSince : Nat
  running : Bool
  clientUdpAddr : Option SocketAddr
  knownTargets : Finset SocketAddr
  knownOrder : List SocketAddr
  lastDnsError : Option Nat
  windowStart : Nat
  windowCount : UInt32

structure Arrival where
  data : Bytes
  src : SocketAddr
  resolver : DnsResolver
  lookupTook : Nat
  sendTook : Nat
  sent : Bool

inductive Wake where
  | datagram (arrival : Arrival)
  | recvFailed
  | idleElapsed
  | control (closed : Bool)
  | shutdown (closing : Bool)

inductive Output where
  | toTarget (payload : Bytes) (target : SocketAddr) (sent : Bool) (endedAt : Nat)
  | toClient (framed : Bytes) (client : SocketAddr) (sent : Bool) (endedAt : Nat)
  | addUp (n : Nat)
  | addDown (n : Nat)
  | recordSuccess
  | unregister
  | emit (event : Event)
deriving DecidableEq, Repr

def addrFromSocket (sa : SocketAddr) : Address := .ofSocket sa

def isClient (a : Association) (s : State) (src : SocketAddr) : Bool :=
  match s.clientUdpAddr with
  | some addr => src == addr
  | none => src.ip == a.clientIp

def lock (s : State) (src : SocketAddr) : State := { s with clientUdpAddr := some (s.clientUdpAddr.getD src) }

-- A fixed window of one second; a window over its limit drops the datagram.
def checkRate (a : Association) (s : State) : State × Bool :=
  match a.cfg.limits.udpRatePps with
  | none => (s, true)
  | some limit =>
      let s := if secondNs ≤ s.now - s.windowStart then { s with windowStart := s.now, windowCount := 0 } else s
      (s, s.windowCount < limit)

def chargeRate (a : Association) (s : State) : State :=
  if a.cfg.limits.udpRatePps.isSome then { s with windowCount := s.windowCount + 1 } else s

inductive Resolution where
  | found (target : SocketAddr)
  | unusable
  | failed (msg : String)

def resolveTarget (a : Association) (d : Arrival) : Address → Resolution
  | .v4 ip port => .found (SocketAddr.new (.v4 ip) port)
  | .v6 ip port => .found (SocketAddr.new (.v6 ip) port)
  | .domain host port =>
      match d.resolver.lookup host port a.bindIp.isIpv4 (d.lookupTook / 1000000) with
      | .ok addresses =>
          match addresses.find? fun address =>
            address.ip.isIpv4 == a.bindIp.isIpv4 && !a.cfg.egress.isBlocked address.ip with
          | some address => .found address
          | none => .unusable
      | .error error => .failed s!"could not resolve UDP target {host}:{port}: {error.display}"

def afterLookup (s : State) (d : Arrival) : Address → State
  | .v4 _ _ | .v6 _ _ => s
  | .domain _ _ => { s with now := s.now + d.lookupTook }

def dnsErrorDue (s : State) : Bool :=
  match s.lastDnsError with
  | none => true
  | some last => decide (secondNs ≤ s.now - last)

def reportDns (s : State) (msg : String) : State × List Output :=
  if dnsErrorDue s then ({ s with lastDnsError := some s.now }, [.emit (.error Socks5Error.hostUnreachable.replyCode msg)])
  else (s, [])

def trackTarget (a : Association) (s : State) (target : SocketAddr) : State :=
  if target ∈ s.knownTargets then s
  else
    let s := { s with knownTargets := insert target s.knownTargets, knownOrder := s.knownOrder ++ [target] }
    if a.maxTargets < s.knownOrder.length then
      match s.knownOrder with
      | old :: rest => { s with knownTargets := s.knownTargets.erase old, knownOrder := rest }
      | [] => s
    else s

def sendToTarget (a : Association) (s : State) (d : Arrival) (data : Bytes) (target : SocketAddr) : State × List Output :=
  let s := { s with now := s.now + d.sendTook }
  if d.sent then (trackTarget a (chargeRate a s) target, [.toTarget data target true s.now, .addUp data.length])
  else (s, [.toTarget data target false s.now])

def relayToTarget (a : Association) (s : State) (d : Arrival) : State × List Output :=
  match decapRef d.data with
  | .error _ => (s, [])
  | .ok datagram =>
      if datagram.frag ≠ 0 then (s, [])
      else
        let (s, allowed) := checkRate a s
        if !allowed then (s, [])
        else
          let s := afterLookup s d datagram.address
          match resolveTarget a d datagram.address with
          | .unusable => (s, [])
          | .failed msg => reportDns s msg
          | .found target =>
              if a.cfg.egress.isBlocked target.ip then (s, [])
              else sendToTarget a s d datagram.data target

-- The result of this send is ignored.
def relayToClient (s : State) (d : Arrival) (dst : SocketAddr) : State × List Output :=
  let s := { s with now := s.now + d.sendTook }
  (s, [.toClient (encap (addrFromSocket d.src) d.data []) dst d.sent s.now, .addDown d.data.length])

def onDatagram (a : Association) (s : State) (d : Arrival) : State × List Output :=
  if isClient a s d.src then relayToTarget a (lock s d.src) d
  else if d.src ∈ s.knownTargets then
    match s.clientUdpAddr with
    | some dst => relayToClient s d dst
    | none => (s, [])
  else (s, [])

def teardown (a : Association) (s : State) : State × List Output :=
  ({ s with running := false }, [.recordSuccess, .unregister, .emit (.closed a.id)])

def wait (s : State) : State := { s with waitingSince := s.now }

def handle (a : Association) (s : State) : Wake → Option (State × List Output)
  | .datagram d =>
      let (s, outputs) := onDatagram a s d
      some (wait s, outputs)
  | .recvFailed => some (teardown a s)
  | .idleElapsed => if s.now < s.waitingSince + a.idle then none else some (teardown a s)
  | .control closed => some (if closed then teardown a s else (wait s, []))
  | .shutdown closing => some (if closing then teardown a s else (wait s, []))

def machine (a : Association) : Machine State (Nat × Wake) Output where
  step s event :=
    if !s.running || event.1 < s.now then none else handle a { s with now := event.1 } event.2

def start (now : Nat) : State := ⟨now, now, true, none, ∅, [], none, now, 0⟩

end Udp

end NextSocks5
