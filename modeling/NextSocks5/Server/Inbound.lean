import NextSocks5.Library.Recent
import NextSocks5.Server.Outbound

set_option autoImplicit false

namespace NextSocks5

namespace Udp

theorem max_targets_positive (a : Association) : 0 < a.maxTargets := by
  simp [Association.maxTargets]

theorem track_target_push (a : Association) (s : State) (target : SocketAddr) (nodup : s.knownOrder.Nodup)
    (mirrors : Recent.Mirrors s.knownTargets s.knownOrder) :
    (trackTarget a s target).knownOrder = Recent.push a.maxTargets s.knownOrder target ∧
      Recent.Mirrors (trackTarget a s target).knownTargets (trackTarget a s target).knownOrder := by
  by_cases known : target ∈ s.knownTargets
  · simp only [trackTarget, known, if_true]
    exact ⟨(Recent.push_known _ _ _ ((mirrors target).mp known)).symm, mirrors⟩
  · have fresh : target ∉ s.knownOrder := fun member => known ((mirrors target).mpr member)
    have grown := Recent.mirrors_insert s.knownTargets s.knownOrder target mirrors
    have pushed := Recent.push_nodup (s.knownOrder.length + 1) s.knownOrder target nodup
    rw [Recent.push_room _ _ _ fresh (by omega)] at pushed
    simp only [trackTarget, known, if_false, Recent.push, fresh]
    split
    · cases grownEq : s.knownOrder ++ [target] with
      | nil => simp at grownEq
      | cons old rest =>
          rw [grownEq] at grown pushed
          exact ⟨rfl, Recent.mirrors_evict _ old rest grown pushed⟩
    · exact ⟨rfl, grown⟩

-- A bounded memory of the targets of the successful sends, empty until the client is locked.
structure KnownInv (a : Association) (outputs : List Output) (s : State) : Prop where
  replayed : s.knownOrder = Recent.replay a.maxTargets (sentTargets outputs)
  mirrors : Recent.Mirrors s.knownTargets s.knownOrder
  locked : sentTargets outputs ≠ [] → s.clientUdpAddr.isSome

theorem known_nodup (a : Association) (outputs : List Output) (s : State) (inv : KnownInv a outputs s) : s.knownOrder.Nodup := by
  rw [inv.replayed]
  exact Recent.replay_nodup a.maxTargets _

theorem known_sent (a : Association) (outputs : List Output) (s : State) (inv : KnownInv a outputs s) (target : SocketAddr)
    (known : target ∈ s.knownTargets) : target ∈ sentTargets outputs := by
  have kept := (inv.mirrors target).mp known
  rw [inv.replayed] at kept
  exact (Recent.replay_sublist a.maxTargets _).subset kept

theorem same_route_known (a : Association) (outputs made : List Output) (s after : State) (inv : KnownInv a outputs s)
    (same : SameRoute s after) (unsent : sentTargets made = []) : KnownInv a (outputs ++ made) after := by
  refine ⟨?_, ?_, ?_⟩
  · rw [same.order, inv.replayed, sent_targets_append, unsent, List.append_nil]
  · rw [same.order, same.targets]
    exact inv.mirrors
  · rw [same.client, sent_targets_append, unsent, List.append_nil]
    exact inv.locked

theorem lock_known (a : Association) (outputs : List Output) (s : State) (src : SocketAddr) (inv : KnownInv a outputs s) :
    KnownInv a outputs (lock s src) := ⟨inv.replayed, inv.mirrors, fun _ => by simp [lock]⟩

theorem handled_known (a : Association) (outputs made : List Output) (s after : State) (d : Arrival) (inv : KnownInv a outputs s)
    (handled : Handled a s d after made) : KnownInv a (outputs ++ made) after := by
  cases handled with
  | foreign _ _ same => exact same_route_known a outputs _ s after inv same rfl
  | dropped _ _ quiet same => exact same_route_known a outputs _ _ after (lock_known a outputs s d.src inv) same quiet.2.1
  | relayed client datagram target endedAt _ _ _ _ same =>
      have locked := lock_known a outputs s d.src inv
      cases sent : d.sent with
      | false =>
          rw [sent] at same
          exact same_route_known a outputs _ _ after locked same rfl
      | true =>
          rw [sent] at same
          obtain ⟨pushed, mirrors⟩ :=
            track_target_push a (lock s d.src) target (known_nodup a outputs _ locked) locked.mirrors
          refine ⟨?_, ?_, ?_⟩
          · rw [same.order, if_pos rfl, pushed, locked.replayed, sent_targets_append]
            exact (Recent.replay_snoc _ _ _).symm
          · rw [same.order, same.targets]
            exact mirrors
          · intro _
            rw [same.client]
            simp [lock]
  | forwarded _ _ _ _ _ same => exact same_route_known a outputs _ s after inv same rfl

theorem known_step (a : Association) (outputs : List Output) (s : State) (event : Nat × Wake) (after : State) (made : List Output)
    (inv : KnownInv a outputs s) (stepped : (machine a).step s event = some (after, made)) : KnownInv a (outputs ++ made) after := by
  rcases step_cases a s after event made stepped with ⟨d, _, handled⟩ | ⟨_, quiet, same⟩
  · exact handled_known a outputs made s after d inv handled
  · exact same_route_known a outputs made s after inv same quiet.2.1

theorem known_run (a : Association) (now : Nat) (events : List (Nat × Wake)) (outputs : List Output) (s : State)
    (run : (machine a).Run (start now) events outputs s) : KnownInv a outputs s :=
  (machine a).run_invariant (start now) (fun _ outputs s => KnownInv a outputs s)
    ⟨rfl, by simp [Recent.Mirrors, start], by simp [sentTargets]⟩
    (fun _ outputs s event after made inv stepped => known_step a outputs s event after made inv stepped) events outputs s run

theorem step_order (a : Association) (outputs : List Output) (s : State) (event : Nat × Wake) (after : State) (made : List Output)
    (inv : KnownInv a outputs s) (stepped : (machine a).step s event = some (after, made)) :
    after.knownOrder = (sentTargets made).foldl (Recent.push a.maxTargets) s.knownOrder := by
  rw [(known_step a outputs s event after made inv stepped).replayed, inv.replayed, sent_targets_append]
  exact List.foldl_append

structure Forwards (s : State) (d : Arrival) (made : List Output) : Prop where
  filter : clientSends made ≠ [] ↔ s.clientUdpAddr ≠ some d.src ∧ d.src ∈ s.knownTargets
  once : (clientSends made).length ≤ 1
  framed : ∀ framed dst, (framed, dst) ∈ clientSends made →
    s.clientUdpAddr = some dst ∧ decap framed = .ok ⟨0, addrFromSocket d.src, d.data⟩

theorem addr_from_socket_fits (address : SocketAddr) : (addrFromSocket address).Fits := by
  cases address <;> trivial

theorem handled_forwards (a : Association) (outputs made : List Output) (s after : State) (d : Arrival) (inv : KnownInv a outputs s)
    (handled : Handled a s d after made) : Forwards s d made := by
  -- Before the lock there is no member, after it a client datagram has its address.
  have exclusive : isClient a s d.src = true → ¬ (s.clientUdpAddr ≠ some d.src ∧ d.src ∈ s.knownTargets) := by
    rintro client ⟨other, known⟩
    have someSent := List.ne_nil_of_mem (known_sent a outputs s inv d.src known)
    obtain ⟨addr, locked⟩ := Option.isSome_iff_exists.mp (inv.locked someSent)
    have same : d.src = addr := by simpa [isClient, locked] using client
    exact other (by rw [locked, same])
  have silent : ∀ outputs, clientSends outputs = [] → ¬ (s.clientUdpAddr ≠ some d.src ∧ d.src ∈ s.knownTargets) →
      Forwards s d outputs := by
    intro outputs nothing closed
    exact ⟨by simp [nothing, closed], by simp [nothing], by simp [nothing]⟩
  cases handled with
  | foreign stranger unknown same =>
      apply silent [] rfl
      rintro ⟨other, known⟩
      have someSent := List.ne_nil_of_mem (known_sent a outputs s inv d.src known)
      rcases unknown with absent | unlocked
      · exact absent known
      · simpa [unlocked] using inv.locked someSent
  | dropped client _ quiet _ => exact silent _ quiet.2.2 (exclusive client)
  | relayed client _ _ _ _ _ _ _ _ =>
      apply silent _ _ (exclusive client)
      cases d.sent <;> rfl
  | forwarded dst endedAt stranger known locked same =>
      have other : s.clientUdpAddr ≠ some d.src := by
        rw [locked]
        intro equal
        cases equal
        simp [isClient, locked] at stranger
      refine ⟨by simp [clientSends, other, known], by simp [clientSends], ?_⟩
      intro framed client member
      have same : framed = encap (addrFromSocket d.src) d.data [] ∧ client = dst := by simpa [clientSends] using member
      obtain ⟨rfl, rfl⟩ := same
      exact ⟨locked, decap_encap _ (addr_from_socket_fits d.src) d.data⟩

theorem step_forwards (a : Association) (outputs : List Output) (s : State) (event : Nat × Wake) (after : State)
    (made : List Output) (inv : KnownInv a outputs s) (stepped : (machine a).step s event = some (after, made)) :
    (∀ d, event.2 = .datagram d → Forwards s d made) ∧ ((∀ d, event.2 ≠ .datagram d) → clientSends made = []) := by
  rcases step_cases a s after event made stepped with ⟨d, woken, handled⟩ | ⟨other, quiet, _⟩
  · refine ⟨?_, fun nothing => absurd woken (nothing d)⟩
    intro arrival same
    rw [woken] at same
    cases same
    exact handled_forwards a outputs made s after d inv handled
  · exact ⟨fun d woken => absurd woken (other d), fun _ => quiet.2.2⟩

structure Known (a : Association) (outputs : List Output) (s : State) : Prop where
  same : ∀ target, target ∈ s.knownTargets ↔ target ∈ s.knownOrder
  distinct : s.knownOrder.Nodup
  size : s.knownTargets.card = s.knownOrder.length
  bounded : s.knownOrder.length ≤ max a.cfg.limits.udpMaxTargets 1
  replayed : s.knownOrder = Recent.replay (max a.cfg.limits.udpMaxTargets 1) (sentTargets outputs)
  ordered : s.knownOrder.Sublist (sentTargets outputs)
  latest : ∀ target, (sentTargets outputs).getLast? = some target → target ∈ s.knownTargets

theorem known_facts (a : Association) (outputs : List Output) (s : State) (inv : KnownInv a outputs s) : Known a outputs s where
  same := inv.mirrors
  distinct := known_nodup a outputs s inv
  size := Recent.mirrors_card _ _ inv.mirrors (known_nodup a outputs s inv)
  replayed := inv.replayed
  bounded := by
    rw [inv.replayed]
    exact Recent.replay_bound a.maxTargets _
  ordered := by
    rw [inv.replayed]
    exact Recent.replay_sublist a.maxTargets _
  latest := by
    intro target last
    obtain ⟨before, sent⟩ := List.getLast?_eq_some_iff.mp last
    rw [inv.mirrors target, inv.replayed, sent]
    exact Recent.replay_last a.maxTargets before target (max_targets_positive a)

structure Tracks (a : Association) (s after : State) (made : List Output) : Prop where
  kept : (∀ target ∈ sentTargets made, target ∈ s.knownOrder) → after.knownOrder = s.knownOrder
  appended : ∀ target ∈ sentTargets made, target ∉ s.knownOrder → s.knownOrder.length < max a.cfg.limits.udpMaxTargets 1 →
    after.knownOrder = s.knownOrder ++ [target]
  evicted : ∀ target ∈ sentTargets made, target ∉ s.knownOrder → s.knownOrder.length = max a.cfg.limits.udpMaxTargets 1 →
    after.knownOrder = s.knownOrder.tail ++ [target]

theorem sent_at_most_once (a : Association) (s after : State) (event : Nat × Wake) (made : List Output)
    (stepped : (machine a).step s event = some (after, made)) : sentTargets made = [] ∨ ∃ target, sentTargets made = [target] := by
  rcases step_cases a s after event made stepped with ⟨d, _, handled⟩ | ⟨_, quiet, _⟩
  · cases handled with
    | foreign _ _ _ => exact .inl rfl
    | dropped _ _ quiet _ => exact .inl quiet.2.1
    | relayed _ _ target _ _ _ _ _ _ =>
        cases d.sent with
        | false => exact .inl rfl
        | true => exact .inr ⟨target, rfl⟩
    | forwarded _ _ _ _ _ _ => exact .inl rfl
  · exact .inl quiet.2.1

theorem step_tracks (a : Association) (outputs : List Output) (s : State) (event : Nat × Wake) (after : State) (made : List Output)
    (inv : KnownInv a outputs s) (stepped : (machine a).step s event = some (after, made)) : Tracks a s after made := by
  have order := step_order a outputs s event after made inv stepped
  rcases sent_at_most_once a s after event made stepped with nothing | ⟨sent, one⟩
  · rw [nothing] at order
    exact ⟨fun _ => order, by simp [nothing], by simp [nothing]⟩
  · rw [one] at order
    refine ⟨?_, ?_, ?_⟩
    · intro known
      exact order.trans (Recent.push_known _ _ _ (known sent (by simp [one])))
    · intro target member fresh room
      have same : target = sent := by simpa [one] using member
      subst same
      exact order.trans (Recent.push_room _ _ _ fresh room)
    · intro target member fresh full
      have same : target = sent := by simpa [one] using member
      subst same
      cases orderEq : s.knownOrder with
      | nil =>
          have positive := max_targets_positive a
          rw [orderEq] at full
          simp only [Association.maxTargets, List.length_nil] at positive full
          omega
      | cons oldest rest =>
          rw [orderEq] at order fresh full
          exact order.trans (Recent.push_full _ oldest rest target fresh full)

-- Every run of an association: the known targets are the bounded memory of the
-- successful sends, and a datagram reaches the client only from one of them.
theorem replies_filtered (a : Association) (now : Nat) (events : List (Nat × Wake)) (outputs : List Output) (s : State)
    (run : (machine a).Run (start now) events outputs s) :
    Known a outputs s ∧
    ∀ event after made, (machine a).step s event = some (after, made) →
      Tracks a s after made ∧
      ((∀ d, event.2 ≠ .datagram d) → clientSends made = []) ∧
      ∀ d, event.2 = .datagram d → Forwards s d made ∧ (d.src ∉ sentTargets outputs → clientSends made = []) := by
  have inv := known_run a now events outputs s run
  refine ⟨known_facts a outputs s inv, ?_⟩
  intro event after made stepped
  obtain ⟨forwards, others⟩ := step_forwards a outputs s event after made inv stepped
  refine ⟨step_tracks a outputs s event after made inv stepped, others, ?_⟩
  intro d woken
  refine ⟨forwards d woken, ?_⟩
  intro unsent
  by_contra delivered
  exact unsent (known_sent a outputs s inv d.src ((forwards d woken).filter.mp delivered).2)

def queryReply : Arrival := ⟨[7, 7], .v4 (.new 93 184 216 34) 53, ⟨fun _ => .ok [], fun _ => .ok []⟩, 0, 5, true⟩

theorem replies_filtered_query : ∃ s made, sentTargets made = [] ∧ s.clientUdpAddr = some queryArrival.src ∧
    Known query53 [.toTarget [1, 2] queryReply.src true 15, .addUp 2] s ∧ Forwards s queryReply made := by
  have run := (machine query53).exec_run (start 0) [(10, .datagram queryArrival)]
    [.toTarget [1, 2] queryReply.src true 15, .addUp 2] _ rfl
  obtain ⟨known, step⟩ := replies_filtered query53 0 _ _ _ run
  exact ⟨_, _, rfl, rfl, known, ((step (20, .datagram queryReply) _ _ rfl).2.2 queryReply rfl).1⟩

end Udp

end NextSocks5
