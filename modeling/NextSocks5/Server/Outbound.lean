import NextSocks5.Server.Datagrams

set_option autoImplicit false

namespace NextSocks5

namespace Udp

structure Authorizes (a : Association) (client : Option SocketAddr) (d : Arrival) (send : Bytes × SocketAddr) : Prop where
  source : client = some d.src
  framed : ∃ header address, d.data = header ++ send.1 ∧ HeaderBytes header 0 address ∧
    d.resolver.Offers a.bindIp.isIpv4 address send.2 ∧
    ∀ host port, address = .domain host port → send.2.ip.isIpv4 = a.bindIp.isIpv4
  allowed : a.cfg.egress.isBlocked send.2.ip = false

theorem resolve_target_sound (a : Association) (d : Arrival) (address : Address) (target : SocketAddr)
    (resolved : resolveTarget a d address = .found target) :
    d.resolver.Offers a.bindIp.isIpv4 address target ∧
    ∀ host port, address = .domain host port → target.ip.isIpv4 = a.bindIp.isIpv4 := by
  cases address with
  | v4 ip port =>
      cases resolved
      exact ⟨rfl, by simp⟩
  | v6 ip port =>
      cases resolved
      exact ⟨rfl, by simp⟩
  | domain host port =>
      rw [resolveTarget] at resolved
      split at resolved
      · rename_i addresses answered
        split at resolved
        · rename_i address picked
          cases resolved
          refine ⟨lookup_offers _ _ _ _ _ addresses target answered (List.mem_of_find?_eq_some picked), ?_⟩
          intro _ _ _
          have fits := List.find?_some picked
          simp only [Bool.and_eq_true, beq_iff_eq] at fits
          exact fits.1
        · cases resolved
      · cases resolved

theorem lock_client (a : Association) (s : State) (src : SocketAddr) (client : isClient a s src = true) :
    (lock s src).clientUdpAddr = some src := by
  cases locked : s.clientUdpAddr with
  | none => simp [lock, locked]
  | some addr =>
      have same : src = addr := by simpa [isClient, locked] using client
      simp [lock, locked, same]

theorem lock_ip (a : Association) (s : State) (src : SocketAddr) (client : isClient a s src = true)
    (fresh : s.clientUdpAddr = none) : src.ip = a.clientIp := by
  simpa [isClient, fresh] using client

@[simp] theorem track_target_client (a : Association) (s : State) (target : SocketAddr) :
    (trackTarget a s target).clientUdpAddr = s.clientUdpAddr := by
  rw [trackTarget]
  split
  · rfl
  · dsimp only
    split
    · cases s.knownOrder ++ [target] <;> rfl
    · rfl

theorem handled_client (a : Association) (s after : State) (d : Arrival) (made : List Output) (handled : Handled a s d after made) :
    after.clientUdpAddr = s.clientUdpAddr ∨
    (s.clientUdpAddr = none ∧ after.clientUdpAddr = some d.src ∧ d.src.ip = a.clientIp) := by
  have locked : isClient a s d.src = true → after.clientUdpAddr = (lock s d.src).clientUdpAddr →
      after.clientUdpAddr = s.clientUdpAddr ∨
      (s.clientUdpAddr = none ∧ after.clientUdpAddr = some d.src ∧ d.src.ip = a.clientIp) := by
    intro client same
    cases before : s.clientUdpAddr with
    | none => exact .inr ⟨rfl, by rw [same, lock_client a s d.src client], lock_ip a s d.src client before⟩
    | some addr => exact .inl (by simp [same, lock, before])
  cases handled with
  | foreign _ _ same => exact .inl same.client
  | dropped client _ _ same => exact locked client same.client
  | relayed client _ target _ _ _ _ _ same =>
      apply locked client
      rw [same.client]
      split <;> simp
  | forwarded _ _ _ _ _ same => exact .inl same.client

theorem step_client (a : Association) (s after : State) (event : Nat × Wake) (made : List Output)
    (stepped : (machine a).step s event = some (after, made)) :
    after.clientUdpAddr = s.clientUdpAddr ∨
    (s.clientUdpAddr = none ∧ ∃ d, event.2 = .datagram d ∧ after.clientUdpAddr = some d.src ∧ d.src.ip = a.clientIp) := by
  rcases step_cases a s after event made stepped with ⟨d, woken, handled⟩ | ⟨_, _, same⟩
  · rcases handled_client a s after d made handled with kept | ⟨fresh, ipSet, ip⟩
    · exact .inl kept
    · exact .inr ⟨fresh, d, woken, ipSet, ip⟩
  · exact .inl same.client

theorem step_sends (a : Association) (s after : State) (event : Nat × Wake) (made : List Output)
    (stepped : (machine a).step s event = some (after, made)) :
    targetSends made = [] ∨
    ∃ d send, event.2 = .datagram d ∧ targetSends made = [send] ∧ Authorizes a after.clientUdpAddr d send := by
  rcases step_cases a s after event made stepped with ⟨d, woken, handled⟩ | ⟨_, quiet, _⟩
  · cases handled with
    | foreign _ _ _ => exact .inl rfl
    | dropped _ _ quiet _ => exact .inl quiet.1
    | relayed client datagram target endedAt decoded whole resolved allowed same =>
        right
        refine ⟨d, (datagram.data, target), woken, ?_, ?_, ?_, allowed⟩
        · cases d.sent <;> rfl
        · rw [same.client, ← lock_client a s d.src client]
          split <;> simp
        · obtain ⟨header, cut, headed⟩ := decap_ref_sound d.data datagram decoded
          rw [whole] at headed
          exact ⟨header, datagram.address, cut, headed, resolve_target_sound a d datagram.address target resolved⟩
    | forwarded _ _ _ _ _ _ => exact .inl rfl
  · exact .inl quiet.1

structure OutboundInv (a : Association) (events : List (Nat × Wake)) (outputs : List Output) (s : State) : Prop where
  ip : ∀ client, s.clientUdpAddr = some client → client.ip = a.clientIp
  origins : ∃ origins, origins.Sublist (arrivals events) ∧
    List.Forall₂ (Authorizes a s.clientUdpAddr) origins (targetSends outputs)

-- Nothing is authorized before the lock is set, so setting it loses nothing.
theorem authorizes_later (a : Association) (s after : State) (event : Nat × Wake) (made : List Output)
    (stepped : (machine a).step s event = some (after, made)) (d : Arrival) (send : Bytes × SocketAddr)
    (authorized : Authorizes a s.clientUdpAddr d send) : Authorizes a after.clientUdpAddr d send := by
  rcases step_client a s after event made stepped with kept | ⟨fresh, _⟩
  · exact ⟨kept.trans authorized.source, authorized.framed, authorized.allowed⟩
  · have ipSet := authorized.source
    rw [fresh] at ipSet
    cases ipSet

theorem outbound_step (a : Association) (events : List (Nat × Wake)) (outputs : List Output) (s : State)
    (event : Nat × Wake) (after : State) (made : List Output) (inv : OutboundInv a events outputs s)
    (stepped : (machine a).step s event = some (after, made)) : OutboundInv a (events ++ [event]) (outputs ++ made) after where
  ip := by
    intro client locked
    rcases step_client a s after event made stepped with kept | ⟨_, d, _, ipSet, ip⟩
    · exact inv.ip client (kept ▸ locked)
    · rw [ipSet] at locked
      cases locked
      exact ip
  origins := by
    obtain ⟨origins, order, answered⟩ := inv.origins
    have kept := answered.imp (authorizes_later a s after event made stepped)
    rw [target_sends_append]
    rcases step_sends a s after event made stepped with silent | ⟨d, send, woken, one, authorized⟩
    · exact ⟨origins, order.trans (arrivals_sublist events event), by simpa [silent] using kept⟩
    · obtain ⟨now, wake⟩ := event
      cases woken
      refine ⟨origins ++ [d], ?_, ?_⟩
      · rw [arrivals_snoc]
        exact order.append_right [d]
      · rw [one]
        exact List.rel_append kept (.cons authorized .nil)

theorem outbound_run (a : Association) (now : Nat) (events : List (Nat × Wake)) (outputs : List Output) (s : State)
    (run : (machine a).Run (start now) events outputs s) : OutboundInv a events outputs s :=
  (machine a).run_invariant (start now) (OutboundInv a) ⟨by simp [start], [], by simp [arrivals], .nil⟩
    (outbound_step a) events outputs s run

theorem client_stays (a : Association) (s : State) (client : SocketAddr) (locked : s.clientUdpAddr = some client)
    (events : List (Nat × Wake)) (outputs : List Output) (after : State)
    (run : (machine a).Run s events outputs after) : after.clientUdpAddr = some client := by
  refine (machine a).run_invariant s (fun _ _ s => s.clientUdpAddr = some client) locked ?_ events outputs after run
  intro _ _ mid event next made held stepped
  rcases step_client a mid next event made stepped with kept | ⟨fresh, _⟩
  · exact kept.trans held
  · rw [held] at fresh
    cases fresh

-- Every run of an association: the lock is set once, to an address with the
-- canonical IP of the control peer, and the sends to targets answer, in order
-- and one each, to datagrams received from it.
theorem outbound_authentic (a : Association) (now : Nat) (events : List (Nat × Wake)) (outputs : List Output) (s : State)
    (run : (machine a).Run (start now) events outputs s) :
    (∀ client, s.clientUdpAddr = some client → client.ip = a.clientPeer.ip.toCanonical ∧
      ∀ later more after, (machine a).Run s later more after → after.clientUdpAddr = some client) ∧
    (∃ origins, origins.Sublist (arrivals events) ∧
      List.Forall₂ (Authorizes a s.clientUdpAddr) origins (targetSends outputs)) ∧
    ∀ event after made, (machine a).step s event = some (after, made) → targetSends made = [] ∨
      ∃ d send, event.2 = .datagram d ∧ targetSends made = [send] ∧ Authorizes a after.clientUdpAddr d send := by
  have inv := outbound_run a now events outputs s run
  refine ⟨?_, inv.origins, fun event after made => step_sends a s after event made⟩
  intro client locked
  exact ⟨inv.ip client locked, client_stays a s client locked⟩

def query53 : Association := ⟨.default, .v4 (.new 192 0 2 7) 40000, .v4 (.new 192 0 2 1), 1⟩

def queryArrival : Arrival :=
  ⟨[0, 0, 0, 1, 93, 184, 216, 34, 0, 53, 1, 2], .v4 (.new 192 0 2 7) 5000, ⟨fun _ => .ok [], fun _ => .ok []⟩, 0, 5, true⟩

theorem outbound_authentic_query : ∃ s : State, s.clientUdpAddr = some queryArrival.src ∧
    ∃ origins, origins.Sublist [queryArrival] ∧
      List.Forall₂ (Authorizes query53 s.clientUdpAddr) origins [([1, 2], .v4 (.new 93 184 216 34) 53)] :=
  ⟨_, rfl, (outbound_authentic query53 0 [(10, .datagram queryArrival)]
    [.toTarget [1, 2] (.v4 (.new 93 184 216 34) 53) true 15, .addUp 2] _
    ((machine query53).exec_run _ _ _ _ rfl)).2.1⟩

end Udp

end NextSocks5
