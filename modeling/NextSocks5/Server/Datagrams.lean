import NextSocks5.Server.Association

set_option autoImplicit false

namespace NextSocks5

namespace Udp

def arrivals (events : List (Nat × Wake)) : List Arrival :=
  events.filterMap fun event =>
    match event.2 with
    | .datagram d => some d
    | _ => none

def targetSends (outputs : List Output) : List (Bytes × SocketAddr) :=
  outputs.filterMap fun output =>
    match output with
    | .toTarget payload target _ _ => some (payload, target)
    | _ => none

def sentTargets (outputs : List Output) : List SocketAddr :=
  outputs.filterMap fun output =>
    match output with
    | .toTarget _ target true _ => some target
    | _ => none

def clientSends (outputs : List Output) : List (Bytes × SocketAddr) :=
  outputs.filterMap fun output =>
    match output with
    | .toClient framed client _ _ => some (framed, client)
    | _ => none

theorem arrivals_snoc (events : List (Nat × Wake)) (now : Nat) (d : Arrival) :
    arrivals (events ++ [(now, .datagram d)]) = arrivals events ++ [d] := by
  simp [arrivals]

theorem arrivals_sublist (events : List (Nat × Wake)) (event : Nat × Wake) :
    (arrivals events).Sublist (arrivals (events ++ [event])) := by
  simp [arrivals]

@[simp] theorem target_sends_append (first second : List Output) :
    targetSends (first ++ second) = targetSends first ++ targetSends second := List.filterMap_append

@[simp] theorem sent_targets_append (first second : List Output) :
    sentTargets (first ++ second) = sentTargets first ++ sentTargets second := List.filterMap_append

@[simp] theorem client_sends_append (first second : List Output) :
    clientSends (first ++ second) = clientSends first ++ clientSends second := List.filterMap_append

def Quiet (outputs : List Output) : Prop :=
  targetSends outputs = [] ∧ sentTargets outputs = [] ∧ clientSends outputs = []

structure SameRoute (s after : State) : Prop where
  client : after.clientUdpAddr = s.clientUdpAddr
  targets : after.knownTargets = s.knownTargets
  order : after.knownOrder = s.knownOrder

theorem same_route_refl (s : State) : SameRoute s s := ⟨rfl, rfl, rfl⟩

theorem same_route_trans (s middle after : State) (first : SameRoute s middle) (second : SameRoute middle after) :
    SameRoute s after :=
  ⟨second.client.trans first.client, second.targets.trans first.targets, second.order.trans first.order⟩

theorem check_rate_route (a : Association) (s : State) : SameRoute s (checkRate a s).1 := by
  rw [checkRate]
  split
  · exact same_route_refl s
  · dsimp only
    split <;> exact ⟨rfl, rfl, rfl⟩

theorem after_lookup_route (s : State) (d : Arrival) (address : Address) : SameRoute s (afterLookup s d address) := by
  cases address <;> exact ⟨rfl, rfl, rfl⟩

theorem report_dns_route (s : State) (msg : String) : SameRoute s (reportDns s msg).1 := by
  rw [reportDns]
  split <;> exact ⟨rfl, rfl, rfl⟩

theorem report_dns_quiet (s : State) (msg : String) : Quiet (reportDns s msg).2 := by
  rw [reportDns]
  split <;> exact ⟨rfl, rfl, rfl⟩

theorem charge_rate_route (a : Association) (s : State) : SameRoute s (chargeRate a s) := by
  rw [chargeRate]
  split <;> exact ⟨rfl, rfl, rfl⟩

theorem track_target_route (a : Association) (s other : State) (target : SocketAddr) (same : SameRoute s other) :
    SameRoute (trackTarget a s target) (trackTarget a other target) := by
  obtain ⟨client, targets, order⟩ := same
  by_cases known : target ∈ s.knownTargets
  · simp only [trackTarget, targets, known, if_true]
    exact ⟨client, targets, order⟩
  · simp only [trackTarget, targets, order, known, if_false]
    split
    · cases s.knownOrder ++ [target] <;> exact ⟨client, rfl, rfl⟩
    · exact ⟨client, rfl, rfl⟩

inductive Handled (a : Association) (s : State) (d : Arrival) (after : State) : List Output → Prop where
  | foreign (stranger : isClient a s d.src = false) (unknown : d.src ∉ s.knownTargets ∨ s.clientUdpAddr = none)
      (same : SameRoute s after) : Handled a s d after []
  | dropped (client : isClient a s d.src = true) (outputs : List Output) (quiet : Quiet outputs)
      (same : SameRoute (lock s d.src) after) : Handled a s d after outputs
  | relayed (client : isClient a s d.src = true) (datagram : UdpDatagramRef) (target : SocketAddr) (endedAt : Nat)
      (decoded : decapRef d.data = .ok datagram) (whole : datagram.frag = 0)
      (resolved : resolveTarget a d datagram.address = .found target) (allowed : a.cfg.egress.isBlocked target.ip = false)
      (same : SameRoute (if d.sent then trackTarget a (lock s d.src) target else lock s d.src) after) :
      Handled a s d after (.toTarget datagram.data target d.sent endedAt :: if d.sent then [.addUp datagram.data.length] else [])
  | forwarded (dst : SocketAddr) (endedAt : Nat) (stranger : isClient a s d.src = false) (known : d.src ∈ s.knownTargets)
      (locked : s.clientUdpAddr = some dst) (same : SameRoute s after) :
      Handled a s d after [.toClient (encap (addrFromSocket d.src) d.data []) dst d.sent endedAt, .addDown d.data.length]

theorem handled_congr (a : Association) (s woken mid after : State) (d : Arrival) (outputs : List Output)
    (before : SameRoute s woken) (later : SameRoute mid after) (handled : Handled a woken d mid outputs) :
    Handled a s d after outputs := by
  have clientEq : isClient a woken d.src = isClient a s d.src := by
    rw [isClient, isClient, before.client]
  have lockEq : SameRoute (lock s d.src) (lock woken d.src) :=
    ⟨by simp [lock, before.client], before.targets, before.order⟩
  cases handled with
  | foreign stranger unknown same =>
      rw [before.targets, before.client] at unknown
      exact .foreign (clientEq ▸ stranger) unknown
        (same_route_trans _ _ _ before (same_route_trans _ _ _ same later))
  | dropped client outputs quiet same =>
      exact .dropped (clientEq ▸ client) outputs quiet (same_route_trans _ _ _ lockEq (same_route_trans _ _ _ same later))
  | relayed client datagram target endedAt decoded whole resolved allowed same =>
      refine .relayed (clientEq ▸ client) datagram target endedAt decoded whole resolved allowed ?_
      refine same_route_trans _ _ _ ?_ (same_route_trans _ _ _ same later)
      split
      · exact track_target_route a _ _ target lockEq
      · exact lockEq
  | forwarded dst endedAt stranger known locked same =>
      exact .forwarded dst endedAt (clientEq ▸ stranger) (before.targets ▸ known) (before.client ▸ locked)
        (same_route_trans _ _ _ before (same_route_trans _ _ _ same later))

theorem send_to_target_handled (a : Association) (s mid : State) (d : Arrival) (datagram : UdpDatagramRef) (target : SocketAddr)
    (client : isClient a s d.src = true) (decoded : decapRef d.data = .ok datagram) (whole : datagram.frag = 0)
    (resolved : resolveTarget a d datagram.address = .found target) (allowed : a.cfg.egress.isBlocked target.ip = false)
    (same : SameRoute (lock s d.src) mid) :
    Handled a s d (sendToTarget a mid d datagram.data target).1 (sendToTarget a mid d datagram.data target).2 := by
  have later : SameRoute (lock s d.src) { mid with now := mid.now + d.sendTook } :=
    same_route_trans _ mid _ same ⟨rfl, rfl, rfl⟩
  cases sent : d.sent with
  | false =>
      have route : SameRoute (if d.sent then trackTarget a (lock s d.src) target else lock s d.src)
          { mid with now := mid.now + d.sendTook } := by
        simpa [sent] using later
      have made := Handled.relayed client datagram target (mid.now + d.sendTook) decoded whole resolved allowed route
      simpa [sendToTarget, sent] using made
  | true =>
      have tracked := track_target_route a _ _ target
        (same_route_trans _ _ _ later (charge_rate_route a { mid with now := mid.now + d.sendTook }))
      have made := Handled.relayed client datagram target (mid.now + d.sendTook) decoded whole resolved allowed
        (by simpa [sent] using tracked)
      simpa [sendToTarget, sent] using made

theorem relay_to_target_handled (a : Association) (s : State) (d : Arrival) (client : isClient a s d.src = true) :
    Handled a s d (relayToTarget a (lock s d.src) d).1 (relayToTarget a (lock s d.src) d).2 := by
  have drop : ∀ mid, SameRoute (lock s d.src) mid → Handled a s d mid [] :=
    fun mid same => .dropped client [] ⟨rfl, rfl, rfl⟩ same
  rw [relayToTarget]
  cases decoded : decapRef d.data with
  | error error => exact drop _ (same_route_refl _)
  | ok datagram =>
      dsimp only
      by_cases whole : datagram.frag = 0
      · rw [if_neg (not_not.mpr whole)]
        have rated := check_rate_route a (lock s d.src)
        cases (checkRate a (lock s d.src)).2 with
        | false => exact drop _ rated
        | true =>
            have waited := same_route_trans _ _ _ rated (after_lookup_route (checkRate a (lock s d.src)).1 d datagram.address)
            rw [if_neg (by simp)]
            cases resolved : resolveTarget a d datagram.address with
            | unusable => exact drop _ waited
            | failed msg =>
                exact .dropped client _ (report_dns_quiet _ msg) (same_route_trans _ _ _ waited (report_dns_route _ msg))
            | found target =>
                dsimp only
                cases allowed : a.cfg.egress.isBlocked target.ip with
                | true => exact drop _ waited
                | false =>
                    exact send_to_target_handled a s _ d datagram target client decoded whole resolved allowed waited
      · rw [if_pos whole]
        exact drop _ (same_route_refl _)

theorem on_datagram_handled (a : Association) (s : State) (d : Arrival) :
    Handled a s d (onDatagram a s d).1 (onDatagram a s d).2 := by
  rw [onDatagram]
  cases client : isClient a s d.src with
  | true => exact relay_to_target_handled a s d client
  | false =>
      by_cases known : d.src ∈ s.knownTargets
      · rw [if_neg (by simp), if_pos known]
        cases locked : s.clientUdpAddr with
        | none => exact .foreign client (.inr locked) (same_route_refl s)
        | some dst => exact .forwarded dst _ client known locked ⟨rfl, rfl, rfl⟩
      · rw [if_neg (by simp), if_neg known]
        exact .foreign client (.inl known) (same_route_refl s)

theorem step_cases (a : Association) (s after : State) (event : Nat × Wake) (made : List Output)
    (stepped : (machine a).step s event = some (after, made)) :
    (∃ d, event.2 = .datagram d ∧ Handled a s d after made) ∨
    ((∀ d, event.2 ≠ .datagram d) ∧ Quiet made ∧ SameRoute s after) := by
  obtain ⟨now, wake⟩ := event
  simp only [machine, Option.ite_none_left_eq_some] at stepped
  obtain ⟨_, handled⟩ := stepped
  cases wake with
  | datagram d =>
      left
      rw [handle] at handled
      have spec := on_datagram_handled a { s with now := now } d
      generalize onDatagram a { s with now := now } d = result at handled spec
      obtain ⟨mid, outputs⟩ := result
      simp only [Option.some.injEq, Prod.mk.injEq] at handled
      obtain ⟨rfl, rfl⟩ := handled
      refine ⟨d, rfl, ?_⟩
      exact handled_congr a s { s with now := now } mid _ d _ ⟨rfl, rfl, rfl⟩ ⟨rfl, rfl, rfl⟩ spec
  | recvFailed =>
      right
      simp only [handle, teardown, Option.some.injEq, Prod.mk.injEq] at handled
      obtain ⟨rfl, rfl⟩ := handled
      exact ⟨by simp, ⟨rfl, rfl, rfl⟩, ⟨rfl, rfl, rfl⟩⟩
  | idleElapsed =>
      right
      simp only [handle, teardown, Option.ite_none_left_eq_some, Option.some.injEq, Prod.mk.injEq] at handled
      obtain ⟨_, rfl, rfl⟩ := handled
      exact ⟨by simp, ⟨rfl, rfl, rfl⟩, ⟨rfl, rfl, rfl⟩⟩
  | control closed =>
      right
      cases closed <;> simp only [handle, teardown, wait, Bool.false_eq_true, if_true, if_false, Option.some.injEq, Prod.mk.injEq] at handled <;>
        obtain ⟨rfl, rfl⟩ := handled <;> exact ⟨by simp, ⟨rfl, rfl, rfl⟩, ⟨rfl, rfl, rfl⟩⟩
  | shutdown closing =>
      right
      cases closing <;> simp only [handle, teardown, wait, Bool.false_eq_true, if_true, if_false, Option.some.injEq, Prod.mk.injEq] at handled <;>
        obtain ⟨rfl, rfl⟩ := handled <;> exact ⟨by simp, ⟨rfl, rfl, rfl⟩, ⟨rfl, rfl, rfl⟩⟩

end Udp

end NextSocks5
