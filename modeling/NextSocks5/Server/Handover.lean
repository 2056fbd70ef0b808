import NextSocks5.Server.Integrity

set_option autoImplicit false

namespace NextSocks5

namespace Connect

open Relay (Direction)

structure Delivered (c : Call) (outputs : List Output) (s : State) : Prop where
  ordered : ∀ dir, handed dir outputs <+: c.stream dir
  counted : ∀ id, s.phase.id = some id →
    ∃ info, s.metrics.entry id = some info ∧ ∀ dir, counter info dir ≤ (handed dir outputs).length
  atEof : ∀ id relay dir, s.phase = .relaying id relay → (relay.half dir).phase = .ended .eof →
    handed dir outputs = c.stream dir ∧ ∃ info, s.metrics.entry id = some info ∧ counter info dir = (handed dir outputs).length

-- The stream is complete before the half-close, and the other direction goes on as it was.
structure HalfCloses (c : Call) (outputs : List Output) (s after : State) (dir : Direction) : Prop where
  complete : handed dir outputs = c.stream dir
  other : ∃ id relay later, s.phase = .relaying id relay ∧ after.phase = .relaying id later ∧
    later.half dir.other = relay.half dir.other ∧ later.lastActivity = relay.lastActivity

theorem stream_delivered (c : Call) (outputs : List Output) (s : State) (inv : StreamInv c outputs s) : Delivered c outputs s where
  ordered := stream_prefix c outputs s inv
  counted := by
    intro id registered
    rw [StreamInv] at inv
    cases phase : s.phase with
    | initial other rest =>
        simp only [phase, Phase.id, Option.some.injEq] at inv registered
        subst registered
        obtain ⟨_, _, info, entry, zero⟩ := inv
        exact ⟨info, entry, fun dir => by rw [zero dir]; exact Nat.zero_le _⟩
    | relaying other relay =>
        simp only [phase, Phase.id, Option.some.injEq] at inv registered
        subst registered
        obtain ⟨info, entry, halves⟩ := inv
        exact ⟨info, entry, fun dir => (half_safe _ _ _ _ (halves dir)).2⟩
    | _ => simp [phase, Phase.id] at registered
  atEof := by
    intro id relay dir phase ended
    simp only [StreamInv, phase] at inv
    obtain ⟨info, entry, halves⟩ := inv
    have half := halves dir
    simp only [HalfInv, ended] at half
    exact ⟨half.1, info, entry, half.2⟩

theorem relay_traced (c : Call) (s after : State) (now : Nat) (wake : Wake) (made : List Output) (output : Relay.Output)
    (stepped : (machine c).step s (now, wake) = some (after, made)) (traced : .relay output ∈ made) :
    ∃ id relay later dir act traces, s.phase = .relaying id relay ∧ after.phase = .relaying id later ∧ output ∈ traces ∧
      Relay.step c.idle relay ⟨now, dir, act⟩ = some (later, traces) := by
  cases step_moves c s after now wake made stepped with
  | relaying id relay later dir act traces phase turned =>
      obtain ⟨_, member, same⟩ := List.mem_map.mp traced
      cases same
      exact ⟨id, relay, later, dir, act, traces, phase, rfl, member, turned⟩
  | _ => simp [refuse, register, finish] at traced

theorem half_closes (c : Call) (outputs : List Output) (s after : State) (event : Nat × Wake) (made : List Output) (time : Nat)
    (dir : Direction) (inv : StreamInv c outputs s) (stepped : (machine c).step s event = some (after, made))
    (closed : .relay ⟨time, dir, .shutdown .eof⟩ ∈ made) : HalfCloses c outputs s after dir := by
  obtain ⟨id, relay, later, origin, act, traces, phase, next, member, turned⟩ := relay_traced c s after event.1 event.2 made _ stepped closed
  simp only [StreamInv, phase] at inv
  obtain ⟨info, entry, halves⟩ := inv
  obtain ⟨_, half, stamp, traced, moved, rfl, _, stampEq, _, otherEq⟩ := Relay.step_cases c.idle relay later _ traces turned
  obtain ⟨trace, inside, same⟩ := List.mem_map.mp member
  cases same
  cases Relay.copy_half_turns _ _ _ _ _ _ _ _ moved with
  | eof since reading empty =>
      have held := halves origin
      simp only [HalfInv, reading, empty, List.append_nil] at held
      exact ⟨held.1, id, relay, later, phase, next, otherEq, stampEq⟩
  | _ => simp at inside

-- The relay is over when both loops are, or by shutdown; never by one EOF.
theorem relay_ends (c : Call) (s after : State) (event : Nat × Wake) (made : List Output) (id : Nat) (relay : Relay.State)
    (phase : s.phase = .relaying id relay) (stepped : (machine c).step s event = some (after, made))
    (through : after.phase = .finished) : relay.Done ∨ event.2 = .shutdown := by
  obtain ⟨now, wake⟩ := event
  cases step_moves c s after now wake made stepped with
  | joined other ended instant done =>
      cases phase.symm.trans instant
      exact .inl done
  | shutdown => exact .inr rfl
  | relaying other ended later dir act traces instant turned => cases through
  | others metrics foreign =>
      have stays := phase.symm.trans through
      cases stays
  | _ => simp_all only [reduceCtorEq]

-- Along every run the upstream holds a prefix of what follows the request, the client a
-- prefix of the upstream's bytes, and an EOF finds its stream complete.
theorem stream_integrity (cfg : Config) (s : TcpStream) (request : Request) (tail : Bytes)
    (accepted : (negotiate cfg s).result = .request request tail) (peer : SocketAddr) (resolver : DnsResolver)
    (tookMs : Family → Nat) (started : Nat) (upstream : Bytes) (metrics : Metrics) (events : List (Nat × Wake))
    (outputs : List Output) (state : State)
    (run : (machine (dispatched cfg s request tail peer resolver tookMs started upstream)).Run
      (start (dispatched cfg s request tail peer resolver tookMs started upstream) metrics) events outputs state) :
    (∃ handshake, HandshakeWire cfg handshake request ∧
      s.unread = handshake ++ (dispatched cfg s request tail peer resolver tookMs started upstream).stream .up) ∧
    Delivered (dispatched cfg s request tail peer resolver tookMs started upstream) outputs state ∧
    ∀ event after made,
      (machine (dispatched cfg s request tail peer resolver tookMs started upstream)).step state event = some (after, made) →
      (∀ time dir, .relay ⟨time, dir, .shutdown .eof⟩ ∈ made →
        HalfCloses (dispatched cfg s request tail peer resolver tookMs started upstream) outputs state after dir) ∧
      ∀ id relay, state.phase = .relaying id relay → after.phase = .finished → relay.Done ∨ event.2 = .shutdown := by
  have inv := stream_run _ metrics events outputs state run
  refine ⟨negotiate_sound cfg s request tail accepted, stream_delivered _ outputs state inv, ?_⟩
  intro event after made stepped
  refine ⟨?_, ?_⟩
  · intro time dir closed
    exact half_closes _ outputs state after event made time dir inv stepped closed
  · intro id relay phase ended
    exact relay_ends _ state after event made id relay phase stepped ended

def chatting : TcpStream := { pipelined with reads := pipelined.reads ++ [⟨[9, 10], by decide, by decide⟩] }

def pipelinedCall : Call :=
  dispatched .default chatting ⟨.connect, .v4 (.new 93 184 216 34) 80⟩ [71] (.v4 (.new 192 0 2 7) 40000)
    ⟨fun _ => .ok [], fun _ => .ok []⟩ (fun _ => 0) 0 [72, 73]

-- The pipelined byte, then two bytes up and one down through the copy loops.
theorem stream_integrity_pipelined : ∃ outputs state, handed .up outputs = [71, 9, 10] ∧ handed .down outputs = [72] ∧
    Delivered pipelinedCall outputs state := by
  have run := (machine pipelinedCall).exec_run (start pipelinedCall .new)
    [(0, .establish .call), (1, .establish (.attemptDone (.ok ⟨none⟩))), (2, .accept 10), (3, .accept 1), (4, .relay .up (.read 2)),
      (4, .relay .down (.read 1)), (5, .relay .up (.accept 1)), (5, .relay .up (.accept 1)), (6, .relay .down (.accept 1)),
      (7, .relay .up .eof)] _ _ rfl
  exact ⟨_, _, rfl, rfl, (stream_integrity .default chatting _ [71] (by decide) _ _ _ _ _ .new _ _ _ run).2.1⟩

end Connect

end NextSocks5
