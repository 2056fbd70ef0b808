import NextSocks5.Server.PortScan

set_option autoImplicit false

namespace NextSocks5

theorem to_canonical_idem (ip : IpAddr) : ip.toCanonical.toCanonical = ip.toCanonical := by
  cases ip with
  | v4 ip => rfl
  | v6 ip =>
      cases mapped : ip.toIpv4Mapped with
      | some v4 => simp [IpAddr.toCanonical, mapped]
      | none => simp [IpAddr.toCanonical, mapped]

theorem query_canonical (resolver : String → Except String (List IpAddr)) (host : String) (addresses : List IpAddr)
    (answered : query resolver host = .ok addresses) (ip : IpAddr) (member : ip ∈ addresses) : ip.toCanonical = ip := by
  have folded (found kept : List IpAddr) (canonical : ∀ ip ∈ kept, ip.toCanonical = ip) :
      ∀ ip ∈ found.foldl (fun (addresses : List IpAddr) ip =>
        if ip.toCanonical ∈ addresses then addresses else addresses ++ [ip.toCanonical]) kept, ip.toCanonical = ip := by
    induction found generalizing kept with
    | nil => exact canonical
    | cons first found ih =>
        rw [List.foldl_cons]
        apply ih
        split
        · exact canonical
        · intro ip inside
          rcases List.mem_append.mp inside with old | new
          · exact canonical ip old
          · rw [List.mem_singleton.mp new, to_canonical_idem]
  rw [query] at answered
  split at answered
  · cases answered
  · dsimp only at answered
    split at answered
    · cases answered
    · cases answered
      exact folded _ [] (by simp) ip member

namespace Udp

-- A bind gets the address asked for, and the port asked for unless that is 0.
def BindsAsAsked (host : Host) : Prop :=
  ∀ ip port bound, host.bind ip port = .ok (some bound) → bound.ip = ip ∧ (port ≠ 0 → bound.port = port)

def suitable (bindIp ip : IpAddr) : Prop := ip.toCanonical.isUnspecified = false ∧ ip.isIpv4 = bindIp.isIpv4

structure Usable (cfg : Config) (addr : SocketAddr) : Prop where
  reply : ∀ peer host metrics, host.localAddr = some addr → BindsAsAsked host →
    ∀ bnd outcome, Effect.reply repSucceeded bnd outcome ∈ (associate cfg peer host metrics).2 →
      ∃ bound ip, bindWithRetry (host.bind addr.ip.toCanonical) cfg.udp.portRange host.cursor = .ok (some bound) ∧
        bnd = addrFromSocket (.new ip bound.port) ∧ (∀ range, cfg.udp.portRange = some range → range.Contains bound.port) ∧
        suitable bound.ip ip
  refused : ∀ peer host metrics, host.localAddr = some addr → BindsAsAsked host →
    ∀ bound, bindWithRetry (host.bind addr.ip.toCanonical) cfg.udp.portRange host.cursor = .ok (some bound) →
      ∀ name, cfg.udp.advertise = some (.domain name) →
        (∀ addresses, host.resolver.lookup name 0 bound.ip.isIpv4 host.tookMs = .ok addresses →
          ∀ address ∈ addresses, ¬ suitable bound.ip address.ip) →
        Effect.reply Socks5Error.hostUnreachable.replyCode failureBind host.outcome ∈ (associate cfg peer host metrics).2 ∧
        ∀ bnd outcome, Effect.reply repSucceeded bnd outcome ∉ (associate cfg peer host metrics).2

-- The literal of the configuration is ignored, or suits the relay socket.
def LiteralFits (cfg : Config) (addr : SocketAddr) : Prop :=
  ∀ ip, cfg.udp.advertise = some (.ip ip) → ip.isUnspecified = true ∨ suitable addr.ip.toCanonical ip

theorem try_ports_ok {α : Type} (bind : UInt16 → Except IoError α) (ports : List UInt16) (sock : α)
    (done : tryPorts bind ports = .ok sock) : ∃ port ∈ ports, bind port = .ok sock := by
  induction ports with
  | nil => cases done
  | cons port ports ih =>
      rw [tryPorts] at done
      split at done
      · rename_i answer
        cases done
        exact ⟨port, List.mem_cons_self, answer⟩
      · split at done
        · obtain ⟨other, member, answer⟩ := ih done
          exact ⟨other, List.mem_cons_of_mem _ member, answer⟩
        · obtain ⟨other, member, answer⟩ := ih done
          exact ⟨other, List.mem_cons_of_mem _ member, answer⟩
        · cases done

theorem contains_positive (range : PortRange) (valid : range.Valid) (port : UInt16) (contains : range.Contains port) : port ≠ 0 := by
  rintro rfl
  have low := UInt16.le_iff_toNat_le.mp contains.1
  have positive := UInt16.le_iff_toNat_le.mp valid.positive
  exact absurd (Nat.le_trans positive low) (by decide)

theorem bound_socket (cfg : Config) (host : Host) (ip : IpAddr) (asked : BindsAsAsked host)
    (valid : ∀ range, cfg.udp.portRange = some range → range.Valid) (bound : SocketAddr)
    (done : bindWithRetry (host.bind ip) cfg.udp.portRange host.cursor = .ok (some bound)) :
    bound.ip = ip ∧ ∀ range, cfg.udp.portRange = some range → range.Contains bound.port := by
  cases ranged : cfg.udp.portRange with
  | none =>
      rw [ranged] at done
      exact ⟨(asked ip 0 bound done).1, by simp⟩
  | some range =>
      rw [ranged] at done
      obtain ⟨port, member, answer⟩ := try_ports_ok (host.bind ip) (candidates range host.cursor) (some bound) done
      have contains := candidates_inside range (valid range ranged) host.cursor port member
      obtain ⟨sameIp, samePort⟩ := asked ip port bound answer
      refine ⟨sameIp, ?_⟩
      rintro _ ⟨⟩
      rw [samePort (contains_positive range (valid range ranged) port contains)]
      exact contains

theorem lookup_canonical (resolver : DnsResolver) (name : String) (ipv4 : Bool) (tookMs : Nat) (addresses : List SocketAddr)
    (answered : resolver.lookup name 0 ipv4 tookMs = .ok addresses) (address : SocketAddr) (member : address ∈ addresses) :
    address.ip.toCanonical = address.ip := by
  rw [DnsResolver.lookup] at answered
  split at answered
  · rename_i ips found
    cases answered
    obtain ⟨ip, inside, rfl⟩ := List.mem_map.mp member
    rw [socket_addr_new_ip]
    exact query_canonical _ name ips found ip inside
  · cases answered

theorem resolve_suitable (cfg : Config) (bindIp : IpAddr) (resolver : DnsResolver) (tookMs : Nat) (advertised : Option IpAddr)
    (concrete : bindIp.toCanonical.isUnspecified = false)
    (literal : ∀ ip, cfg.udp.advertise = some (.ip ip) → ip.isUnspecified = true ∨ suitable bindIp ip)
    (resolved : resolveAdvertiseIp cfg bindIp resolver tookMs = .ok advertised) : suitable bindIp (advertised.getD bindIp) := by
  have self : suitable bindIp bindIp := ⟨concrete, rfl⟩
  rw [resolveAdvertiseIp] at resolved
  split at resolved
  · cases resolved
    exact self
  · rename_i ip configured
    split at resolved
    · cases resolved
      exact self
    · rename_i specified
      cases resolved
      exact (literal ip configured).resolve_left specified
  · split at resolved
    · cases resolved
    · rename_i addresses answered
      split at resolved
      · rename_i ip picked
        cases resolved
        obtain ⟨address, member, rfl⟩ := List.mem_map.mp (List.mem_of_find?_eq_some picked)
        have fits := List.find?_some picked
        simp only [Bool.and_eq_true, Bool.not_eq_true', beq_iff_eq] at fits
        refine ⟨?_, fits.2⟩
        rw [Option.getD_some, lookup_canonical resolver _ _ tookMs addresses answered address member]
        exact fits.1
      · cases resolved

theorem announce_reply (cfg : Config) (peer : SocketAddr) (host : Host) (metrics : Metrics) (bindIp : IpAddr) (told : SocketAddr)
    (bnd : Address) (outcome : WriteOutcome)
    (member : Effect.reply repSucceeded bnd outcome ∈ (announce cfg peer host metrics bindIp told).2) : bnd = addrFromSocket told := by
  rw [announce] at member
  split at member <;> simp at member <;> exact member.1

theorem failures_no_success (bnd : Address) (outcome other : WriteOutcome) (error : String) :
    Effect.reply repSucceeded bnd outcome ∉ bindFailed other ∧ Effect.reply repSucceeded bnd outcome ∉ advertiseFailed other error := by
  simp [bindFailed, advertiseFailed, Socks5Error.replyCode, repSucceeded]

theorem reply_usable (cfg : Config) (addr : SocketAddr) (concrete : addr.ip.toCanonical.isUnspecified = false)
    (valid : ∀ range, cfg.udp.portRange = some range → range.Valid) (fits : LiteralFits cfg addr) (peer : SocketAddr) (host : Host)
    (metrics : Metrics) (boundTo : host.localAddr = some addr) (asked : BindsAsAsked host) (bnd : Address) (outcome : WriteOutcome)
    (member : Effect.reply repSucceeded bnd outcome ∈ (associate cfg peer host metrics).2) :
    ∃ bound ip, bindWithRetry (host.bind addr.ip.toCanonical) cfg.udp.portRange host.cursor = .ok (some bound) ∧
      bnd = addrFromSocket (.new ip bound.port) ∧ (∀ range, cfg.udp.portRange = some range → range.Contains bound.port) ∧
      suitable bound.ip ip := by
  simp only [associate, boundTo] at member
  split at member
  · exact absurd member (failures_no_success bnd outcome host.outcome "").1
  · simp at member
  · rename_i bound found
    obtain ⟨sameIp, contains⟩ := bound_socket cfg host addr.ip.toCanonical asked valid bound found
    split at member
    · rename_i error _
      exact absurd member (failures_no_success bnd outcome host.outcome error).2
    · rename_i advertised resolved
      refine ⟨bound, _, found, announce_reply _ _ _ _ _ _ bnd outcome member, contains, ?_⟩
      rw [sameIp] at resolved ⊢
      exact resolve_suitable cfg _ _ _ advertised (by rw [to_canonical_idem]; exact concrete) fits resolved

theorem name_refused (cfg : Config) (addr : SocketAddr) (peer : SocketAddr) (host : Host) (metrics : Metrics)
    (boundTo : host.localAddr = some addr) (bound : SocketAddr)
    (found : bindWithRetry (host.bind addr.ip.toCanonical) cfg.udp.portRange host.cursor = .ok (some bound))
    (name : String) (configured : cfg.udp.advertise = some (.domain name))
    (empty : ∀ addresses, host.resolver.lookup name 0 bound.ip.isIpv4 host.tookMs = .ok addresses →
      ∀ address ∈ addresses, ¬ suitable bound.ip address.ip) :
    ∃ error, associate cfg peer host metrics = (.closed, advertiseFailed host.outcome error) := by
  have failed : ∃ error, resolveAdvertiseIp cfg bound.ip host.resolver host.tookMs = .error error := by
    simp only [resolveAdvertiseIp, configured]
    cases answered : host.resolver.lookup name 0 bound.ip.isIpv4 host.tookMs with
    | error error => exact ⟨_, rfl⟩
    | ok addresses =>
        have nothing : (addresses.map SocketAddr.ip).find? (fun ip => !ip.isUnspecified && ip.isIpv4 == bound.ip.isIpv4) = none := by
          rw [List.find?_eq_none]
          intro ip inside picked
          obtain ⟨address, member, rfl⟩ := List.mem_map.mp inside
          simp only [Bool.and_eq_true, Bool.not_eq_true', beq_iff_eq] at picked
          refine empty addresses answered address member ⟨?_, picked.2⟩
          rw [lookup_canonical host.resolver name _ host.tookMs addresses answered address member]
          exact picked.1
        simp only [nothing]
        exact ⟨_, rfl⟩
  obtain ⟨error, failed⟩ := failed
  exact ⟨error, by simp only [associate, boundTo, found, failed]⟩

theorem usable_of_fits (cfg : Config) (addr : SocketAddr) (concrete : addr.ip.toCanonical.isUnspecified = false)
    (valid : ∀ range, cfg.udp.portRange = some range → range.Valid) (fits : LiteralFits cfg addr) : Usable cfg addr where
  reply := reply_usable cfg addr concrete valid fits
  refused := by
    intro peer host metrics boundTo _ bound found name configured nothing
    obtain ⟨error, refusedWith⟩ := name_refused cfg addr peer host metrics boundTo bound found name configured nothing
    rw [refusedWith]
    exact ⟨List.mem_cons_self, fun bnd outcome => (failures_no_success bnd outcome host.outcome error).2⟩

def freeHost (addr : SocketAddr) : Host :=
  ⟨some addr, 0, fun ip port => .ok (some (.new ip (if port = 0 then 40000 else port))),
    ⟨fun _ => .error "no records found", fun _ => .error "no records found"⟩, 0, .done⟩

theorem free_host_asked (addr : SocketAddr) : BindsAsAsked (freeHost addr) := by
  rintro ip port _ ⟨⟩
  refine ⟨socket_addr_new_ip ip _, ?_⟩
  intro premise
  rw [socket_addr_new_port, if_neg premise]

theorem free_host_binds (addr : SocketAddr) (range : Option PortRange) (valid : ∀ r, range = some r → r.Valid) (ip : IpAddr) :
    ∃ bound, bindWithRetry ((freeHost addr).bind ip) range (freeHost addr).cursor = .ok (some bound) := by
  cases range with
  | none => exact ⟨_, rfl⟩
  | some range =>
      have member := candidates_all range (valid range rfl) 0 (.inl (by
        have fits := (width_bounds range (valid range rfl)).2.2.2
        simpa using fits)) range.start ⟨UInt16.le_refl _, (valid range rfl).ordered⟩
      rw [bindWithRetry]
      cases ports : candidates range (freeHost addr).cursor with
      | nil =>
          rw [show (0 : UInt32) = (freeHost addr).cursor from rfl, ports] at member
          cases member
      | cons port rest => exact ⟨_, rfl⟩

theorem addr_from_socket_new (first second : IpAddr) (port other : UInt16)
    (same : addrFromSocket (.new first port) = addrFromSocket (.new second other)) : first = second := by
  cases first <;> cases second <;> cases same <;> rfl

theorem fits_of_usable (cfg : Config) (addr : SocketAddr) (valid : ∀ range, cfg.udp.portRange = some range → range.Valid)
    (usable : Usable cfg addr) : LiteralFits cfg addr := by
  intro ip configured
  by_cases ignored : ip.isUnspecified = true
  · exact .inl ignored
  · right
    obtain ⟨bound, found⟩ := free_host_binds addr cfg.udp.portRange valid addr.ip.toCanonical
    have resolved : resolveAdvertiseIp cfg bound.ip (freeHost addr).resolver 0 = .ok (some ip) := by
      simp [resolveAdvertiseIp, configured, ignored]
    have told : Effect.reply repSucceeded (addrFromSocket (.new ip bound.port)) .done ∈
        (associate cfg addr (freeHost addr) .new).2 := by
      simp only [associate, show (freeHost addr).localAddr = some addr from rfl, found,
        show (freeHost addr).tookMs = 0 from rfl, resolved]
      exact List.mem_cons_self
    obtain ⟨other, advertised, again, same, _, suits⟩ :=
      usable.reply addr (freeHost addr) .new rfl (free_host_asked addr) _ _ told
    rw [addr_from_socket_new ip advertised bound.port other.port same]
    rw [(bound_socket cfg (freeHost addr) addr.ip.toCanonical (free_host_asked addr) valid other again).1] at suits
    exact suits

-- The replies are usable for every resolver and port exactly when the literal fits.
theorem associate_usable_iff (cfg : Config) (addr : SocketAddr) (concrete : addr.ip.toCanonical.isUnspecified = false)
    (valid : ∀ range, cfg.udp.portRange = some range → ∃ quote text, PortRange.parse quote text = .ok range) :
    Usable cfg addr ↔ LiteralFits cfg addr := by
  have rangesValid : ∀ range, cfg.udp.portRange = some range → range.Valid := by
    intro range configured
    obtain ⟨quote, text, parsed⟩ := valid range configured
    exact parse_valid quote text range parsed
  exact ⟨fits_of_usable cfg addr rangesValid, usable_of_fits cfg addr concrete rangesValid⟩

def natConfig : Config :=
  { Config.default with udp := ⟨some ⟨40000, 40002⟩, some (.ip (.v4 (.new 203 0 113 42)))⟩ }

theorem nat_config_parsed (range : PortRange) (configured : natConfig.udp.portRange = some range) :
    ∃ quote text, PortRange.parse quote text = .ok range := by
  cases configured
  exact ⟨id, "40000-40002", by decide⟩

theorem associate_usable_ipv4 : Usable natConfig (.v4 (.new 192 0 2 1) 1080) := by
  refine (associate_usable_iff natConfig (.v4 (.new 192 0 2 1) 1080) (by decide) nat_config_parsed).mpr ?_
  rintro _ ⟨⟩
  exact .inr ⟨by decide, rfl⟩

def ipv6Client : SocketAddr := .v6 ⟨#v[0x20, 1, 0x0d, 0xb8, 0, 0, 0, 0, 0, 0, 0, 0, 0, 0, 0, 1]⟩ 1080 0 0

-- An IPv4 literal is advertised for an IPv6 relay socket.
theorem literal_advertised : ¬ ∀ cfg (addr : SocketAddr), addr.ip.toCanonical.isUnspecified = false →
    (∀ range, cfg.udp.portRange = some range → ∃ quote text, PortRange.parse quote text = .ok range) → Usable cfg addr := by
  intro always
  have usable := always natConfig ipv6Client (by decide) nat_config_parsed
  have valid : ∀ range, natConfig.udp.portRange = some range → range.Valid := by
    intro range configured
    obtain ⟨quote, text, parsed⟩ := nat_config_parsed range configured
    exact parse_valid quote text range parsed
  rcases fits_of_usable natConfig ipv6Client valid usable (.v4 (.new 203 0 113 42)) rfl with ignored | suits
  · exact absurd ignored (by decide)
  · exact absurd suits.2 (by decide)

end Udp

end NextSocks5
