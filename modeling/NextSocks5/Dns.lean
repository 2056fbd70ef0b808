import NextSocks5.Protocol.Address

set_option autoImplicit false

namespace NextSocks5

inductive Family where
  | a
  | aaaa
deriving DecidableEq, Repr

structure PerFamily (α : Type) where
  a : α
  aaaa : α
deriving DecidableEq, Repr

namespace PerFamily

variable {α : Type}

def get (pair : PerFamily α) : Family → α
  | .a => pair.a
  | .aaaa => pair.aaaa

def set (pair : PerFamily α) (family : Family) (value : α) : PerFamily α :=
  match family with
  | .a => { pair with a := value }
  | .aaaa => { pair with aaaa := value }

theorem get_set (pair : PerFamily α) (family other : Family) (value : α) :
    (pair.set family value).get other = if other = family then value else pair.get other := by
  cases family <;> cases other <;> rfl

end PerFamily

structure ResolveError where
  host : String
  elapsedMs : Nat
  reason : String
deriving DecidableEq, Repr

def ResolveError.display (error : ResolveError) : String :=
  s!"DNS lookup for {error.host} failed after {error.elapsedMs} ms: {error.reason}"

-- What the two Hickory resolvers answer for a name at this moment.
structure DnsResolver where
  ipv4 : String → Except String (List IpAddr)
  ipv6 : String → Except String (List IpAddr)

def query (resolver : String → Except String (List IpAddr)) (host : String) : Except String (List IpAddr) :=
  match resolver host with
  | .error reason => .error reason
  | .ok found =>
      let addresses := found.foldl (fun (addresses : List IpAddr) ip =>
        if ip.toCanonical ∈ addresses then addresses else addresses ++ [ip.toCanonical]) []
      if addresses.isEmpty then .error "no addresses returned" else .ok addresses

def DnsResolver.lookup (resolver : DnsResolver) (host : String) (port : UInt16) (ipv4 : Bool) (elapsedMs : Nat) :
    Except ResolveError (List SocketAddr) :=
  match query (if ipv4 then resolver.ipv4 else resolver.ipv6) host with
  | .ok addresses => .ok (addresses.map fun ip => SocketAddr.new ip port)
  | .error reason => .error ⟨host, elapsedMs, reason⟩

def DnsResolver.Offers (resolver : DnsResolver) (ipv4 : Bool) (destination : Address) (address : SocketAddr) : Prop :=
  match destination with
  | .v4 ip port => address = SocketAddr.new (.v4 ip) port
  | .v6 ip port => address = SocketAddr.new (.v6 ip) port
  | .domain host port =>
      ∃ ips ip, query (if ipv4 then resolver.ipv4 else resolver.ipv6) host = .ok ips ∧ ip ∈ ips ∧ address = SocketAddr.new ip port

theorem lookup_offers (resolver : DnsResolver) (host : String) (port : UInt16) (ipv4 : Bool) (elapsedMs : Nat)
    (addresses : List SocketAddr) (address : SocketAddr)
    (found : resolver.lookup host port ipv4 elapsedMs = .ok addresses) (member : address ∈ addresses) :
    resolver.Offers ipv4 (.domain host port) address := by
  rw [DnsResolver.lookup] at found
  split at found
  · rename_i ips answered
    cases found
    obtain ⟨ip, inside, rfl⟩ := List.mem_map.mp member
    exact ⟨ips, ip, answered, inside, rfl⟩
  · cases found

end NextSocks5
