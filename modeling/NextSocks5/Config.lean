import NextSocks5.Auth

set_option autoImplicit false

namespace NextSocks5

inductive AuthMethod where
  | none
  | password
deriving DecidableEq, Repr

structure AuthConfig where
  method : AuthMethod
  users : List User
deriving DecidableEq, Repr

-- Instants and durations are nanoseconds.
def millis (ms : Nat) : Nat := ms * 1000000

structure Timeouts where
  handshakeMs : Nat
  connectMs : Nat
  tcpIdleMs : Nat
  udpIdleMs : Nat
deriving DecidableEq, Repr

structure PortRange where
  start : UInt16
  last : UInt16
deriving DecidableEq, Repr

inductive AdvertiseHost where
  | ip (ip : IpAddr)
  | domain (name : String)
deriving DecidableEq, Repr

structure UdpConfig where
  portRange : Option PortRange
  advertise : Option AdvertiseHost
deriving DecidableEq, Repr

structure Limits where
  maxConnections : Option Nat
  maxPerIp : Option Nat
  udpMaxTargets : Nat
  udpRatePps : Option UInt32
deriving DecidableEq, Repr

structure Egress where
  blockLoopback : Bool
  blockLinkLocal : Bool
  blockPrivate : Bool
deriving DecidableEq, Repr

structure AdminConfig where
  enabled : Bool
deriving DecidableEq, Repr

structure Config where
  auth : AuthConfig
  timeouts : Timeouts
  limits : Limits
  udp : UdpConfig
  egress : Egress
  admin : AdminConfig
deriving DecidableEq, Repr

def Egress.default : Egress := ⟨true, true, true⟩

def Egress.isBlockedV4 (policy : Egress) (v4 : Ipv4Addr) : Bool :=
  v4.isUnspecified ||
  (policy.blockLoopback && (v4.isLoopback || v4.octets.get 0 == 0)) ||
  (policy.blockLinkLocal && v4.isLinkLocal) ||
  (policy.blockPrivate && (v4.isPrivate || (v4.octets.get 0 == 100 && v4.octets.get 1 &&& 0xc0 == 64)))

def Egress.isBlocked (policy : Egress) (ip : IpAddr) : Bool :=
  match ip with
  | .v6 v6 =>
      if v6.isUnspecified ||
          (policy.blockLoopback && v6.isLoopback) ||
          (policy.blockLinkLocal && v6.segments[0] &&& 0xffc0 == 0xfe80) ||
          (policy.blockPrivate && v6.segments[0] &&& 0xfe00 == 0xfc00) then true
      else
        match v6.toIpv4 with
        | some v4 => policy.isBlockedV4 v4
        | none => false
  | .v4 v4 => policy.isBlockedV4 v4

def Timeouts.default : Timeouts := ⟨10000, 10000, 300000, 60000⟩

def Limits.default : Limits := ⟨none, none, 1024, none⟩

def Config.default : Config := ⟨⟨.none, []⟩, .default, .default, ⟨none, none⟩, .default, ⟨true⟩⟩

example : Egress.default.isBlocked (.v4 (.new 169 254 169 254)) = true := by decide

end NextSocks5
