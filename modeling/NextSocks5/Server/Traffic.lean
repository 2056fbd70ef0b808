import NextSocks5.Server.Associate
import NextSocks5.Server.Inbound

set_option autoImplicit false

namespace NextSocks5

namespace Udp

def meter (id : Nat) (m : Metrics) : Output → Metrics
  | .addUp n => m.addUp id n
  | .addDown n => m.addDown id n
  | .recordSuccess => m.recordSuccess
  | .unregister => m.unregister id
  | _ => m

def metered (id : Nat) (m : Metrics) (outputs : List Output) : Metrics := outputs.foldl (meter id) m

def replyPayload (framed : Bytes) : Bytes :=
  match decapRef framed with
  | .ok datagram => datagram.data
  | .error _ => []

def relayedUp (outputs : List Output) : Nat :=
  (outputs.map fun output =>
    match output with
    | .toTarget payload _ true _ => payload.length
    | _ => 0).sum

def relayedDown (outputs : List Output) : Nat :=
  (outputs.map fun output =>
    match output with
    | .toClient framed _ true _ => (replyPayload framed).length
    | _ => 0).sum

def addedUp (outputs : List Output) : Nat :=
  (outputs.map fun output =>
    match output with
    | .addUp n => n
    | _ => 0).sum

def addedDown (outputs : List Output) : Nat :=
  (outputs.map fun output =>
    match output with
    | .addDown n => n
    | _ => 0).sum

structure CountsRelayed (a : Association) (m : Metrics) (outputs : List Output) (s : State) : Prop where
  up : (metered a.id m outputs).bytesUp = m.bytesUp + relayedUp outputs
  down : (metered a.id m outputs).bytesDown = m.bytesDown + relayedDown outputs
  entry : s.running = true → ∃ info, (metered a.id m outputs).entry a.id = some info ∧
    info.up = relayedUp outputs ∧ info.down = relayedDown outputs

def LostReply (a : Association) (s : State) (event : Nat × Wake) : Prop :=
  ∃ d, event.2 = .datagram d ∧ isClient a s d.src = false ∧ d.src ∈ s.knownTargets ∧ s.clientUdpAddr ≠ none ∧
    d.sent = false ∧ d.data ≠ []

@[simp] theorem relayed_up_append (first second : List Output) :
    relayedUp (first ++ second) = relayedUp first + relayedUp second := by simp [relayedUp]

@[simp] theorem relayed_down_append (first second : List Output) :
    relayedDown (first ++ second) = relayedDown first + relayedDown second := by simp [relayedDown]

@[simp] theorem added_up_append (first second : List Output) : addedUp (first ++ second) = addedUp first + addedUp second := by
  simp [addedUp]

@[simp] theorem added_down_append (first second : List Output) :
    addedDown (first ++ second) = addedDown first + addedDown second := by simp [addedDown]

theorem metered_append (id : Nat) (m : Metrics) (first second : List Output) :
    metered id m (first ++ second) = metered id (metered id m first) second := List.foldl_append

theorem metered_bytes (id : Nat) (m : Metrics) (outputs : List Output) :
    (metered id m outputs).bytesUp = m.bytesUp + addedUp outputs ∧
    (metered id m outputs).bytesDown = m.bytesDown + addedDown outputs := by
  induction outputs generalizing m with
  | nil => exact ⟨rfl, rfl⟩
  | cons output outputs ih =>
      have first : (meter id m output).bytesUp = m.bytesUp + addedUp [output] ∧
          (meter id m output).bytesDown = m.bytesDown + addedDown [output] := by
        cases output with
        | addUp n => exact ⟨Metrics.bytes_up_modify _ _ _, Metrics.bytes_down_modify _ _ _⟩
        | addDown n => exact ⟨Metrics.bytes_up_modify _ _ _, Metrics.bytes_down_modify _ _ _⟩
        | _ => exact ⟨rfl, rfl⟩
      obtain ⟨up, down⟩ := ih (meter id m output)
      have whole : output :: outputs = [output] ++ outputs := rfl
      rw [whole, metered_append, added_up_append, added_down_append]
      refine ⟨?_, ?_⟩
      · rw [← Nat.add_assoc, ← first.1]
        exact up
      · rw [← Nat.add_assoc, ← first.2]
        exact down

theorem metered_entry (id : Nat) (m : Metrics) (outputs : List Output) (info : ConnInfo) (registered : m.entry id = some info)
    (kept : Output.unregister ∉ outputs) :
    (metered id m outputs).entry id = some { info with up := info.up + addedUp outputs, down := info.down + addedDown outputs } := by
  induction outputs generalizing m info with
  | nil => exact registered
  | cons output outputs ih =>
      have later : Output.unregister ∉ outputs := fun member => kept (List.mem_cons_of_mem _ member)
      have whole : output :: outputs = [output] ++ outputs := rfl
      have first : (meter id m output).entry id =
          some { info with up := info.up + addedUp [output], down := info.down + addedDown [output] } := by
        cases output with
        | unregister => exact absurd List.mem_cons_self kept
        | addUp n => simp [meter, registered, addedUp, addedDown]
        | addDown n => simp [meter, registered, addedUp, addedDown]
        | _ => simpa [meter, addedUp, addedDown] using registered
      have rest := ih (meter id m output) _ first later
      rw [whole, added_up_append, added_down_append, ← Nat.add_assoc, ← Nat.add_assoc]
      exact rest

theorem reply_payload (src : SocketAddr) (data : Bytes) : replyPayload (encap (addrFromSocket src) data []) = data := by
  have back := decap_encap (addrFromSocket src) (addr_from_socket_fits src) data
  rw [decap] at back
  rw [replyPayload]
  split at back
  · cases back
  · rename_i datagram found
    rw [found]
    exact congrArg UdpDatagram.data (Except.ok.inj back)

structure Outward (made : List Output) : Prop where
  up : addedUp made = relayedUp made
  added : addedDown made = 0
  relayed : relayedDown made = 0
  kept : Output.unregister ∉ made

theorem outward_nil : Outward [] := ⟨rfl, rfl, rfl, by simp⟩

theorem report_dns_outward (s : State) (msg : String) : Outward (reportDns s msg).2 := by
  rw [reportDns]
  split <;> exact ⟨rfl, rfl, rfl, by simp⟩

theorem send_to_target_outward (a : Association) (s : State) (d : Arrival) (data : Bytes) (target : SocketAddr) :
    Outward (sendToTarget a s d data target).2 := by
  rw [sendToTarget]
  split
  · exact ⟨by simp [addedUp, relayedUp], rfl, rfl, by simp⟩
  · exact ⟨rfl, rfl, rfl, by simp⟩

theorem relay_to_target_outward (a : Association) (s : State) (d : Arrival) : Outward (relayToTarget a s d).2 := by
  rw [relayToTarget]
  split
  · exact outward_nil
  · dsimp only
    split
    · exact outward_nil
    · split
      · exact outward_nil
      · split
        · exact outward_nil
        · exact report_dns_outward _ _
        · split
          · exact outward_nil
          · exact send_to_target_outward _ _ _ _ _

-- A lost reply is the only step whose counters and sends differ.
structure StepCounts (a : Association) (s after : State) (event : Nat × Wake) (made : List Output) : Prop where
  up : addedUp made = relayedUp made
  least : relayedDown made ≤ addedDown made
  down : addedDown made = relayedDown made ↔ ¬ LostReply a s event
  kept : after.running = true → Output.unregister ∉ made

theorem outward_counts (a : Association) (s after : State) (event : Nat × Wake) (made : List Output) (outward : Outward made)
    (nothing : ¬ LostReply a s event) : StepCounts a s after event made where
  up := outward.up
  least := by rw [outward.relayed]; exact Nat.zero_le _
  down := by simp [outward.added, outward.relayed, nothing]
  kept := fun _ => outward.kept

theorem teardown_counts (a : Association) (s : State) (event : Nat × Wake) (other : ∀ d, event.2 ≠ .datagram d) :
    StepCounts a s (teardown a s).1 event (teardown a s).2 where
  up := rfl
  least := Nat.le_refl 0
  down := by
    refine ⟨fun _ => ?_, fun _ => rfl⟩
    intro premise
    obtain ⟨d, woken, _⟩ := premise
    exact other d woken
  kept := by simp [teardown]

theorem datagram_counts (a : Association) (s : State) (now : Nat) (d : Arrival) :
    StepCounts a s (onDatagram a { s with now := now } d).1 (now, .datagram d) (onDatagram a { s with now := now } d).2 := by
  have sameClient : isClient a { s with now := now } d.src = isClient a s d.src := rfl
  rw [onDatagram, sameClient]
  by_cases client : isClient a s d.src = true
  · rw [if_pos client]
    refine outward_counts a s _ _ _ (relay_to_target_outward a _ d) ?_
    intro premise
    obtain ⟨other, woken, foreign, _⟩ := premise
    cases woken
    rw [client] at foreign
    cases foreign
  · rw [if_neg client]
    have foreign : isClient a s d.src = false := by simpa using client
    dsimp only
    by_cases known : d.src ∈ s.knownTargets
    · rw [if_pos known]
      cases locked : s.clientUdpAddr with
      | none =>
          refine outward_counts a s _ _ _ outward_nil ?_
          intro premise
          obtain ⟨other, woken, _, _, clientSet, _⟩ := premise
          exact clientSet locked
      | some dst =>
          have lost : LostReply a s (now, .datagram d) ↔ d.sent = false ∧ d.data ≠ [] := by
            constructor
            · intro premise
              obtain ⟨other, woken, _, _, _, unsent, nonempty⟩ := premise
              cases woken
              exact ⟨unsent, nonempty⟩
            · intro premise
              obtain ⟨unsent, nonempty⟩ := premise
              exact ⟨d, rfl, foreign, known, by simp [locked], unsent, nonempty⟩
          refine ⟨?_, ?_, ?_, ?_⟩
          · simp [relayToClient, addedUp, relayedUp]
          · cases sent : d.sent <;> simp [relayToClient, addedDown, relayedDown, sent, reply_payload]
          · rw [lost]
            cases sent : d.sent <;> simp [relayToClient, addedDown, relayedDown, sent, reply_payload]
          · simp [relayToClient]
    · rw [if_neg known]
      refine outward_counts a s _ _ _ outward_nil ?_
      intro premise
      obtain ⟨other, woken, _, inside, _⟩ := premise
      cases woken
      exact known inside

theorem step_counts (a : Association) (s after : State) (event : Nat × Wake) (made : List Output)
    (stepped : (machine a).step s event = some (after, made)) : StepCounts a s after event made := by
  obtain ⟨now, wake⟩ := event
  simp only [machine, Option.ite_none_left_eq_some] at stepped
  obtain ⟨_, handled⟩ := stepped
  have quiet (state : State) (other : ∀ d, wake ≠ .datagram d) : StepCounts a s state (now, wake) [] := by
    refine outward_counts a s _ _ _ outward_nil ?_
    intro premise
    obtain ⟨d, woken, _⟩ := premise
    exact other d woken
  have ends (other : ∀ d, wake ≠ .datagram d) :
      StepCounts a s (teardown a { s with now := now }).1 (now, wake) (teardown a { s with now := now }).2 := by
    have counts := teardown_counts a s (now, wake) other
    exact ⟨counts.up, counts.least, counts.down, counts.kept⟩
  cases wake with
  | datagram d =>
      have counts := datagram_counts a s now d
      rw [handle] at handled
      cases handled
      exact ⟨counts.up, counts.least, counts.down, counts.kept⟩
  | recvFailed =>
      cases handled
      exact ends (by simp)
  | idleElapsed =>
      simp only [handle, Option.ite_none_left_eq_some] at handled
      obtain ⟨_, done⟩ := handled
      cases done
      exact ends (by simp)
  | control closed =>
      cases closed with
      | true =>
          cases handled
          exact ends (by simp)
      | false =>
          cases handled
          exact quiet _ (by simp)
  | shutdown closing =>
      cases closing with
      | true =>
          cases handled
          exact ends (by simp)
      | false =>
          cases handled
          exact quiet _ (by simp)

structure RunCounts (a : Association) (started : Nat) (events : List (Nat × Wake)) (outputs : List Output) (s : State) : Prop where
  run : (machine a).Run (start started) events outputs s
  up : addedUp outputs = relayedUp outputs
  least : relayedDown outputs ≤ addedDown outputs
  down : addedDown outputs = relayedDown outputs ↔ (machine a).Throughout (start started) (fun s event => ¬ LostReply a s event) events
  kept : s.running = true → Output.unregister ∉ outputs

theorem running_before (a : Association) (s after : State) (event : Nat × Wake) (made : List Output)
    (stepped : (machine a).step s event = some (after, made)) : s.running = true := by
  cases running : s.running with
  | true => rfl
  | false => simp [machine, running] at stepped

theorem run_counts (a : Association) (started : Nat) (events : List (Nat × Wake)) (outputs : List Output) (s : State)
    (run : (machine a).Run (start started) events outputs s) : RunCounts a started events outputs s := by
  induction run with
  | idle => exact ⟨.idle, rfl, Nat.le_refl 0, iff_of_true rfl (Machine.throughout_nil _ _ _), by simp⟩
  | @next events outputs s before event made after stepped ih =>
      have counts := step_counts a s after event made stepped
      refine ⟨before.next event made after stepped, ?_, ?_, ?_, ?_⟩
      · rw [added_up_append, relayed_up_append, ih.up, counts.up]
      · rw [added_down_append, relayed_down_append]
        exact Nat.add_le_add ih.least counts.least
      · rw [Machine.throughout_snoc _ _ s _ events outputs before, ← ih.down, ← counts.down, added_down_append, relayed_down_append]
        have first := ih.least
        have second := counts.least
        omega
      · intro running member
        rcases List.mem_append.mp member with old | new
        · exact ih.kept (running_before a s after event made stepped) old
        · exact counts.kept running new

theorem associate_registered (cfg : Config) (peer : SocketAddr) (host : Host) (metrics registered : Metrics) (a : Association)
    (effects : List Effect) (setup : associate cfg peer host metrics = (.relaying a registered, effects)) :
    registered.entry a.id = some ⟨a.id, peer, "udp-associate", .udp, 0, 0⟩ := by
  simp only [associate] at setup
  split at setup
  · cases setup
  · split at setup
    · cases setup
    · cases setup
    · split at setup
      · cases setup
      · simp only [announce] at setup
        split at setup
        · cases setup
          exact Metrics.entry_register metrics peer "udp-associate" .udp
        · cases setup

-- The counters are the bytes relayed exactly when no reply is lost.
theorem traffic_counted_iff (cfg : Config) (peer : SocketAddr) (host : Host) (metrics registered : Metrics) (a : Association)
    (effects : List Effect) (setup : associate cfg peer host metrics = (.relaying a registered, effects)) (started : Nat)
    (events : List (Nat × Wake)) (outputs : List Output) (s : State)
    (run : (machine a).Run (start started) events outputs s) :
    CountsRelayed a registered outputs s ↔
      (machine a).Throughout (start started) (fun s event => ¬ LostReply a s event) events := by
  have counts := run_counts a started events outputs s run
  have bytes := metered_bytes a.id registered outputs
  rw [← counts.down]
  constructor
  · intro relayed
    have down := relayed.down
    rw [bytes.2] at down
    exact Nat.add_left_cancel down
  · intro down
    refine ⟨by rw [bytes.1, counts.up], by rw [bytes.2, down], ?_⟩
    intro running
    have entry := metered_entry a.id registered outputs _
      (associate_registered cfg peer host metrics registered a effects setup) (counts.kept running)
    exact ⟨_, entry, by simp [counts.up], by simp [down]⟩

def queryHost : Host :=
  ⟨some (.v4 (.new 192 0 2 1) 1080), 0, fun ip _ => .ok (some (.new ip 40000)), ⟨fun _ => .ok [], fun _ => .ok []⟩, 0, .done⟩

def queryReply53 (sent : Bool) : Arrival :=
  ⟨[9, 8, 7], .v4 (.new 93 184 216 34) 53, ⟨fun _ => .ok [], fun _ => .ok []⟩, 0, 5, sent⟩

def queryTraffic (sent : Bool) : List Output :=
  [.toTarget [1, 2] (.v4 (.new 93 184 216 34) 53) true 15, .addUp 2,
    .toClient [0, 0, 0, 1, 93, 184, 216, 34, 0, 53, 9, 8, 7] queryArrival.src sent 25, .addDown 3]

theorem traffic_counted_query : ∃ s, CountsRelayed query53 (Metrics.new.register query53.clientPeer "udp-associate" .udp).2
    (queryTraffic true) s := by
  have setup : associate .default query53.clientPeer queryHost .new =
      (.relaying query53 (Metrics.new.register query53.clientPeer "udp-associate" .udp).2, _) := rfl
  have run := (machine query53).exec_run (start 0) [(10, .datagram queryArrival), (20, .datagram (queryReply53 true))]
    (queryTraffic true) _ rfl
  refine ⟨_, (traffic_counted_iff _ _ _ _ _ _ _ setup 0 _ _ _ run).mpr ?_⟩
  rw [← (run_counts query53 0 _ _ _ run).down]
  decide

-- A reply whose send does not complete in time is counted all the same.
theorem lost_reply_counted : ¬ ∀ cfg peer host metrics registered a effects,
    associate cfg peer host metrics = (.relaying a registered, effects) →
    ∀ started events outputs s, (machine a).Run (start started) events outputs s → CountsRelayed a registered outputs s := by
  intro always
  have setup : associate .default query53.clientPeer queryHost .new =
      (.relaying query53 (Metrics.new.register query53.clientPeer "udp-associate" .udp).2, _) := rfl
  have run := (machine query53).exec_run (start 0) [(10, .datagram queryArrival), (20, .datagram (queryReply53 false))]
    (queryTraffic false) _ rfl
  have down := (always _ _ _ _ _ _ _ setup 0 _ _ _ run).down
  rw [(metered_bytes _ _ _).2] at down
  have equal : addedDown (queryTraffic false) = relayedDown (queryTraffic false) := Nat.add_left_cancel down
  exact absurd equal (by decide)

end Udp

end NextSocks5
