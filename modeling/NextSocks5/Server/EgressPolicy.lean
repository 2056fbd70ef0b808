import NextSocks5.Server.Dialing
import NextSocks5.Server.Outbound

set_option autoImplicit false

namespace NextSocks5

namespace Establish

theorem delivered_lookups (task : Task) (host : String) (port : UInt16) (events : List (Nat × Wake)) (address : SocketAddr)
    (member : address ∈ delivered task host port events) :
    ∃ family addresses, task.lookup host port family = .ok addresses ∧ address ∈ addresses := by
  obtain ⟨⟨now, wake⟩, _, inside⟩ := List.mem_flatMap.mp member
  cases wake with
  | lookupDone family =>
      cases answer : task.lookup host port family with
      | error error => simp [answer] at inside
      | ok addresses => exact ⟨family, addresses, answer, by simpa [answer] using inside⟩
  | _ => simp at inside

theorem domain_dials (task : Task) (host : String) (port : UInt16) (named : task.target = .domain host port)
    (events : List (Nat × Wake)) (dials : List Dial) (state : State)
    (run : (machine task).Run (start task) events dials state) (dial : Dial) (started : dial ∈ dials) :
    task.policy.isBlocked dial.address.ip = false ∧
    ∃ family addresses, task.lookup host port family = .ok addresses ∧ dial.address ∈ addresses := by
  have ordered := phase_ordered _ _ _ _ _ _ _ (domain_run task host port named events dials state run)
  have kept := List.mem_eraseDups.mp (ordered.arrival.subset (List.mem_map_of_mem started))
  obtain ⟨arrived, allowed⟩ := List.mem_filter.mp kept
  exact ⟨by simpa using allowed, delivered_lookups task host port events dial.address arrived⟩

def Phase.InSelect : Phase → Prop
  | .select _ => True
  | _ => False

theorem literal_begins (task : Task) (now : Nat) (address : SocketAddr) :
    ¬ (begin.literal task now address).1.InSelect ∧
    ∀ dial ∈ (begin.literal task now address).2, task.policy.isBlocked dial.address.ip = false ∧ dial.address = address := by
  rw [begin.literal]
  split
  · simp [Phase.InSelect]
  · rename_i allowed
    simpa [Phase.InSelect] using allowed

theorem dial_one_returns (task : Task) (now : Nat) (address : SocketAddr) (wake : Wake) (phase : Phase) (dials : List Dial)
    (taken : dialOneArm task now address wake = some (phase, dials)) : ¬ phase.InSelect ∧ dials = [] := by
  rw [dialOneArm.eq_def] at taken
  split at taken
  · cases taken
    simp [Phase.InSelect]
  · cases taken
    simp [Phase.InSelect]
  · split at taken <;> cases taken
    simp [Phase.InSelect]
  · cases taken

theorem literal_dials (task : Task) (address : SocketAddr) (literal : ∀ now, begin task now = begin.literal task now address)
    (events : List (Nat × Wake)) (dials : List Dial) (state : State)
    (run : (machine task).Run (start task) events dials state) :
    ¬ state.phase.InSelect ∧ ∀ dial ∈ dials, task.policy.isBlocked dial.address.ip = false ∧ dial.address = address := by
  refine (machine task).run_invariant (start task)
    (fun _ dials state => ¬ state.phase.InSelect ∧
      ∀ dial ∈ dials, task.policy.isBlocked dial.address.ip = false ∧ dial.address = address)
    ⟨by simp [start, Phase.InSelect], by simp⟩ ?_ events dials state run
  intro _ dials before event after made inv stepped
  obtain ⟨now, wake⟩ := event
  simp only [machine, Option.ite_none_left_eq_some, Option.map_eq_some_iff, Prod.exists, Prod.mk.injEq] at stepped
  obtain ⟨_, phase, more, taken, rfl, rfl⟩ := stepped
  cases phaseEq : before.phase with
  | called =>
      cases wake with
      | call =>
          simp only [phaseEq, arm, literal now, Option.some.injEq] at taken
          have begun := literal_begins task now address
          rw [taken] at begun
          exact ⟨begun.1, fun dial member => (List.mem_append.mp member).elim (inv.2 dial) (begun.2 dial)⟩
      | _ => simp [phaseEq, arm] at taken
  | dialOne other =>
      rw [phaseEq, arm] at taken
      obtain ⟨left, nothing⟩ := dial_one_returns task now other wake phase more taken
      exact ⟨left, by simpa [nothing] using inv.2⟩
  | select s =>
      rw [phaseEq] at inv
      exact absurd trivial inv.1
  | returned result => simp [phaseEq, arm] at taken

theorem connect_dials (cfg : Config) (target : Address) (resolver : DnsResolver) (tookMs : Family → Nat) (started : Nat)
    (events : List (Nat × Wake)) (dials : List Dial) (state : State)
    (run : (machine (.connect cfg target resolver tookMs started)).Run (start (.connect cfg target resolver tookMs started))
      events dials state) (dial : Dial) (member : dial ∈ dials) :
    cfg.egress.isBlocked dial.address.ip = false ∧ ∃ ipv4, resolver.Offers ipv4 target dial.address := by
  cases target with
  | v4 ip port =>
      obtain ⟨allowed, same⟩ := (literal_dials _ (.new (.v4 ip) port) (fun _ => rfl) events dials state run).2 dial member
      exact ⟨allowed, true, same⟩
  | v6 ip port =>
      obtain ⟨allowed, same⟩ := (literal_dials _ (.new (.v6 ip) port) (fun _ => rfl) events dials state run).2 dial member
      exact ⟨allowed, false, same⟩
  | domain host port =>
      obtain ⟨allowed, family, addresses, found, inside⟩ := domain_dials _ host port rfl events dials state run dial member
      exact ⟨allowed, family == .a, lookup_offers resolver host port _ _ addresses dial.address found inside⟩

end Establish

namespace Udp

theorem target_sends_mem (outputs : List Output) (payload : Bytes) (target : SocketAddr) (sent : Bool) (endedAt : Nat)
    (member : .toTarget payload target sent endedAt ∈ outputs) : (payload, target) ∈ targetSends outputs :=
  List.mem_filterMap.mpr ⟨_, member, rfl⟩

theorem answered_mem {α β : Type} (rel : α → β → Prop) (origins : List α) (answers : List β)
    (answered : List.Forall₂ rel origins answers) (answer : β) (member : answer ∈ answers) :
    ∃ origin ∈ origins, rel origin answer := by
  induction answered with
  | nil => cases member
  | cons first _ ih =>
      rcases List.mem_cons.mp member with rfl | later
      · exact ⟨_, List.mem_cons_self, first⟩
      · obtain ⟨origin, inside, related⟩ := ih later
        exact ⟨origin, List.mem_cons_of_mem _ inside, related⟩

theorem associate_sends (a : Association) (now : Nat) (events : List (Nat × Wake)) (outputs : List Output) (s : State)
    (run : (machine a).Run (start now) events outputs s) (send : Bytes × SocketAddr) (member : send ∈ targetSends outputs) :
    ∃ d ∈ arrivals events, Authorizes a s.clientUdpAddr d send := by
  obtain ⟨origins, order, answered⟩ := (outbound_run a now events outputs s run).origins
  obtain ⟨d, inside, authorized⟩ := answered_mem _ origins _ answered send member
  exact ⟨d, order.subset inside, authorized⟩

end Udp

-- No run of a CONNECT dials, and no run of an association sends a client
-- datagram to, a blocked address; and every address they use is the literal
-- asked for or one the resolver returned for the name, with the port asked for.
theorem egress_not_bypassed (cfg : Config) :
    (∀ target resolver tookMs started events dials state,
      (Establish.machine (.connect cfg target resolver tookMs started)).Run
        (Establish.start (.connect cfg target resolver tookMs started)) events dials state →
      ∀ dial ∈ dials, cfg.egress.isBlocked dial.address.ip = false ∧ ∃ ipv4, resolver.Offers ipv4 target dial.address) ∧
    (∀ clientPeer bindIp id now events outputs s,
      (Udp.machine ⟨cfg, clientPeer, bindIp, id⟩).Run (Udp.start now) events outputs s →
      ∀ payload target sent endedAt, .toTarget payload target sent endedAt ∈ outputs →
        cfg.egress.isBlocked target.ip = false ∧
        ∃ d ∈ Udp.arrivals events, ∃ header address, d.data = header ++ payload ∧ HeaderBytes header 0 address ∧
          ∃ ipv4, d.resolver.Offers ipv4 address target) := by
  refine ⟨?_, ?_⟩
  · intro target resolver tookMs started events dials state run
    exact Establish.connect_dials cfg target resolver tookMs started events dials state run
  · intro clientPeer bindIp id now events outputs s run payload target sent endedAt member
    obtain ⟨d, received, authorized⟩ := Udp.associate_sends _ now events outputs s run (payload, target)
      (Udp.target_sends_mem outputs payload target sent endedAt member)
    obtain ⟨header, address, cut, headed, offered, _⟩ := authorized.framed
    exact ⟨authorized.allowed, d, received, header, address, cut, headed, _, offered⟩

def mixedAnswers : DnsResolver where
  ipv4 _ := .ok [.v4 (.new 127 0 0 1), .v4 (.new 93 184 216 34)]
  ipv6 _ := .error "no records found"

theorem egress_not_bypassed_mixed :
    Egress.default.isBlocked (.v4 (.new 93 184 216 34)) = false ∧
    ∃ ipv4, mixedAnswers.Offers ipv4 (.domain "example.test" 80) (.v4 (.new 93 184 216 34) 80) := by
  have run := (Establish.machine (.connect .default (.domain "example.test" 80) mixedAnswers (fun _ => 0) 0)).exec_run
    (Establish.start (.connect .default (.domain "example.test" 80) mixedAnswers (fun _ => 0) 0))
    [(0, .call), (1, .lookupDone .a)] [⟨.v4 (.new 93 184 216 34) 80, 1⟩] _ rfl
  have queried := (Udp.machine Udp.query53).exec_run (Udp.start 0) [(10, .datagram Udp.queryArrival)]
    [.toTarget [1, 2] (.v4 (.new 93 184 216 34) 53) true 15, .addUp 2] _ rfl
  have dialed := (egress_not_bypassed .default).1 _ _ _ _ _ _ _ run ⟨.v4 (.new 93 184 216 34) 80, 1⟩ (by simp)
  have sent := (egress_not_bypassed .default).2 _ _ _ _ _ _ _ queried [1, 2] (.v4 (.new 93 184 216 34) 53) true 15 (by simp)
  exact ⟨sent.1, dialed.2⟩

end NextSocks5
