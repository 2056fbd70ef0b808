import NextSocks5.Server.Connect
import NextSocks5.Server.Teardown

set_option autoImplicit false

namespace NextSocks5

namespace Relay

def Phase.deadline (idle : Nat) : Phase → Option Nat
  | .reading since => some (since + idle)
  | .writing since _ _ => some (since + idle)
  | .ended _ => none

def latest (began : Nat) (outputs : List Output) : Nat := (moves outputs).foldl max began

theorem max_above (began : Nat) (times : List Nat) :
    began ≤ times.foldl max began ∧ ∀ time ∈ times, time ≤ times.foldl max began := by
  induction times generalizing began with
  | nil => simp
  | cons first times ih =>
      obtain ⟨least, above⟩ := ih (max began first)
      refine ⟨(Nat.le_max_left began first).trans least, ?_⟩
      intro time member
      rcases List.mem_cons.mp member with rfl | later
      · exact (Nat.le_max_right began time).trans least
      · exact above time later

theorem latest_append (began : Nat) (outputs made : List Output) :
    latest began (outputs ++ made) = (moves made).foldl max (latest began outputs) := by
  rw [latest, moves_append, List.foldl_append, latest]

-- Every wait began within the window of a byte that moved by the limit.
structure Fresh (idle limit : Nat) (s : State) : Prop where
  past : s.lastActivity ≤ s.now
  stamp : s.lastActivity ≤ limit
  reading : ∀ dir since, (s.half dir).phase = .reading since → since ≤ s.lastActivity + idle
  writing : ∀ dir since n rest, (s.half dir).phase = .writing since n rest → since ≤ limit

theorem fresh_start (idle began : Nat) (up down : Bytes) : Fresh idle began (start began up down) where
  past := Nat.le_refl began
  stamp := Nat.le_refl began
  reading dir since reading := by
    cases dir <;> cases reading <;> exact Nat.le_add_right _ _
  writing dir since n rest writing := by
    cases dir <;> cases writing

theorem fresh_deadline (idle limit : Nat) (s : State) (fresh : Fresh idle limit s) (dir : Direction) (deadline : Nat)
    (timed : (s.half dir).phase.deadline idle = some deadline) : deadline ≤ limit + 2 * idle := by
  have stamp := fresh.stamp
  cases phase : (s.half dir).phase with
  | reading since =>
      have recent := fresh.reading dir since phase
      simp only [phase, Phase.deadline, Option.some.injEq] at timed
      omega
  | writing since n rest =>
      have recent := fresh.writing dir since n rest phase
      simp only [phase, Phase.deadline, Option.some.injEq] at timed
      omega
  | ended how => simp [phase, Phase.deadline] at timed

section

variable (idle now stamp later : Nat) (half next : Half) (traces : List Trace)

theorem turns_stamp (turned : Turns idle now stamp half next later traces) :
    later = stamp ∨ later = now ∧ ∃ bytes, .accepted bytes ∈ traces := by
  cases turned with
  | complete since n rest _ => exact .inr ⟨rfl, rest, by simp⟩
  | _ => exact .inl rfl

theorem turns_reading (turned : Turns idle now stamp half next later traces) (since : Nat)
    (reading : next.phase = .reading since) : since ≤ later + idle := by
  cases turned with
  | active _ _ _ active =>
      cases reading
      omega
  | complete _ n rest _ =>
      cases reading
      omega
  | _ => cases reading

theorem turns_writing (turned : Turns idle now stamp half next later traces) (since n : Nat) (rest : Bytes)
    (writing : next.phase = .writing since n rest) :
    since = now ∧ .read n ∈ traces ∨ ∃ more, half.phase = .writing since n more := by
  cases turned with
  | read _ m _ _ _ =>
      cases writing
      exact .inl ⟨rfl, by simp⟩
  | accept _ m k more was _ =>
      cases writing
      exact .inr ⟨more, was⟩
  | _ => cases writing

end

theorem moved_in (time : Nat) (dir : Direction) (traces : List Trace) (trace : Trace) (member : trace ∈ traces)
    (moving : (∃ n, trace = .read n) ∨ ∃ bytes, trace = .accepted bytes) :
    time ∈ moves (traces.map fun trace => ⟨time, dir, trace⟩) := by
  refine List.mem_filterMap.mpr ⟨⟨time, dir, trace⟩, List.mem_map_of_mem member, ?_⟩
  rcases moving with ⟨n, rfl⟩ | ⟨bytes, rfl⟩ <;> rfl

theorem fresh_step (idle limit later : Nat) (s after : State) (event : Event) (made : List Output) (fresh : Fresh idle limit s)
    (stepped : step idle s event = some (after, made)) (grows : limit ≤ later) (covered : ∀ moved ∈ moves made, moved ≤ later) :
    Fresh idle later after := by
  obtain ⟨onwards, half, stamp, traces, turned, rfl, now, stampEq, halfEq, otherEq⟩ := step_cases idle s after event made stepped
  have turns := copy_half_turns _ _ _ _ _ _ _ _ turned
  have past := fresh.past
  have old := fresh.stamp
  have moved (trace : Trace) (member : trace ∈ traces) (moving : (∃ n, trace = .read n) ∨ ∃ bytes, trace = .accepted bytes) :
      event.time ≤ later := covered event.time (moved_in event.time event.dir traces trace member moving)
  have stamped : s.lastActivity ≤ stamp ∧ stamp ≤ event.time ∧ stamp ≤ later := by
    rcases turns_stamp _ _ _ _ _ _ _ turns with rfl | ⟨rfl, bytes, member⟩
    · exact ⟨Nat.le_refl _, by omega, by omega⟩
    · exact ⟨by omega, Nat.le_refl _, moved _ member (.inr ⟨bytes, rfl⟩)⟩
  obtain ⟨kept, before, bounded⟩ := stamped
  rw [← stampEq] at kept before bounded
  constructor
  · rw [now]
    exact before
  · exact bounded
  · intro dir since reading
    rcases direction_cases event.dir dir with rfl | rfl
    · rw [halfEq] at reading
      rw [stampEq]
      exact turns_reading _ _ _ _ _ _ _ turns since reading
    · rw [otherEq] at reading
      exact (fresh.reading _ since reading).trans (Nat.add_le_add_right kept idle)
  · intro dir since n rest writing
    rcases direction_cases event.dir dir with rfl | rfl
    · rw [halfEq] at writing
      rcases turns_writing _ _ _ _ _ _ _ turns since n rest writing with ⟨rfl, member⟩ | ⟨more, was⟩
      · exact moved _ member (.inl ⟨n, rfl⟩)
      · exact (fresh.writing _ since n more was).trans grows
    · rw [otherEq] at writing
      exact (fresh.writing _ since n rest writing).trans grows

def Phase.patience (idle stamp : Nat) : Phase → Nat
  | .reading since => 1 + (stamp + idle - since)
  | .writing _ _ _ => 1
  | .ended _ => 0

def patience (idle : Nat) (s : State) : Nat :=
  (s.half .up).phase.patience idle s.lastActivity + (s.half .down).phase.patience idle s.lastActivity

theorem patience_split (idle : Nat) (s : State) (dir : Direction) :
    patience idle s = (s.half dir).phase.patience idle s.lastActivity + (s.half dir.other).phase.patience idle s.lastActivity := by
  cases dir with
  | up => rfl
  | down => exact Nat.add_comm _ _

def Act.timer : Act → Bool
  | .idleElapsed | .writeExpired => true
  | _ => false

theorem timer_turn (idle now stamp : Nat) (half : Half) (waiting : ¬ half.phase.Over) :
    ∃ deadline act next traces, half.phase.deadline idle = some deadline ∧ act.timer = true ∧
      copyHalf idle (max now deadline) stamp half act = some (next, stamp, traces) ∧
      next.phase.patience idle stamp < half.phase.patience idle stamp ∧
      ∀ trace ∈ traces, trace = .shutdown .idle := by
  cases phase : half.phase with
  | reading since =>
      have due : ¬ max now (since + idle) < since + idle := Nat.not_lt.mpr (Nat.le_max_right _ _)
      by_cases stale : idle ≤ max now (since + idle) - stamp
      · exact ⟨since + idle, .idleElapsed, { half with phase := .ended .idle }, [.shutdown .idle], rfl, rfl,
          by simp [copyHalf, phase, onReading, due, stale], by simp [Phase.patience], by simp⟩
      · refine ⟨since + idle, .idleElapsed, { half with phase := .reading (max now (since + idle)) }, [], rfl, rfl,
          by simp [copyHalf, phase, onReading, due, stale], ?_, by simp⟩
        simp only [Phase.patience]
        omega
  | writing since n rest =>
      have due : ¬ max now (since + idle) < since + idle := Nat.not_lt.mpr (Nat.le_max_right _ _)
      exact ⟨since + idle, .writeExpired, { half with phase := .ended .writeFailed }, [], rfl, rfl,
        by simp [copyHalf, phase, onWriting, due], by simp [Phase.patience], by simp⟩
  | ended how => simp [phase, Phase.Over] at waiting

theorem timer_step (idle limit now : Nat) (s : State) (fresh : Fresh idle limit s) (reached : s.now ≤ now) (unfinished : ¬ s.Done) :
    ∃ time dir act after made, act.timer = true ∧ now ≤ time ∧ time ≤ max now (limit + 2 * idle) ∧
      step idle s ⟨time, dir, act⟩ = some (after, made) ∧ Fresh idle limit after ∧ after.now = time ∧
      patience idle after < patience idle s := by
  have waiting : ∃ dir, ¬ (s.half dir).phase.Over := by
    by_contra nothing
    have allOver (dir : Direction) : (s.half dir).phase.Over := not_not.mp fun waiting => nothing ⟨dir, waiting⟩
    exact unfinished ⟨allOver .up, allOver .down⟩
  obtain ⟨dir, waiting⟩ := waiting
  obtain ⟨deadline, act, next, traces, timed, timer, turned, shorter, still⟩ := timer_turn idle now s.lastActivity (s.half dir) waiting
  have soon := fresh_deadline idle limit s fresh dir deadline timed
  have onwards : ¬ max now deadline < s.now := by omega
  have taken : ∃ after made, step idle s ⟨max now deadline, dir, act⟩ = some (after, made) := by simp [step, onwards, turned]
  obtain ⟨after, made, stepped⟩ := taken
  obtain ⟨_, half, stamp, traces₂, turned₂, rfl, time, stampEq, halfEq, otherEq⟩ := step_cases idle s after _ made stepped
  obtain ⟨rfl, rfl, rfl⟩ : next = half ∧ s.lastActivity = stamp ∧ traces = traces₂ := by simpa [turned] using turned₂
  have silent : moves (traces.map fun trace => (⟨max now deadline, dir, trace⟩ : Output)) = [] := by
    refine List.filterMap_eq_nil_iff.mpr ?_
    intro output member
    obtain ⟨trace, traced, rfl⟩ := List.mem_map.mp member
    rw [still trace traced]
  refine ⟨max now deadline, dir, act, after, _, timer, Nat.le_max_left _ _, by omega, stepped, ?_, time, ?_⟩
  · exact fresh_step idle limit limit s after _ _ fresh stepped (Nat.le_refl _) (by simp [silent])
  · rw [patience_split idle s dir, patience_split idle after dir, stampEq, halfEq, otherEq]
    exact Nat.add_lt_add_right shorter _

end Relay

namespace Connect

def relayOutputs (outputs : List Output) : List Relay.Output :=
  outputs.filterMap fun output =>
    match output with
    | .relay output => some output
    | _ => none

def Wake.timer : Wake → Bool
  | .relay _ act => act.timer
  | .joined => true
  | _ => false

def timers (c : Call) : Machine State (Nat × Wake) Output where
  step s event := if event.2.timer then (machine c).step s event else none

def Began (c : Call) (metrics : Metrics) (events : List (Nat × Wake)) (began : Nat) : Prop :=
  ∃ before made s id, before <+: events ∧ (machine c).Run (start c metrics) before made s ∧ s.phase = .relaying id (beginRelay c began)

def RelayFresh (c : Call) (metrics : Metrics) (events : List (Nat × Wake)) (outputs : List Output) (s : State) : Prop :=
  match s.phase with
  | .relaying _ relay => ∃ began, Began c metrics events began ∧ Relay.Fresh c.idle (Relay.latest began (relayOutputs outputs)) relay ∧
      relay.now ≤ s.now
  | .finished => True
  | _ => relayOutputs outputs = []

theorem relay_outputs_append (outputs made : List Output) : relayOutputs (outputs ++ made) = relayOutputs outputs ++ relayOutputs made :=
  List.filterMap_append

theorem relay_outputs_relay (outputs : List Relay.Output) : relayOutputs (outputs.map .relay) = outputs := by
  simp [relayOutputs, List.filterMap_map]

theorem relay_outputs_dial (dials : List Establish.Dial) : relayOutputs (dials.map .dial) = [] := by
  simp [relayOutputs, List.filterMap_map]

theorem began_later (c : Call) (metrics : Metrics) (events : List (Nat × Wake)) (event : Nat × Wake) (began : Nat)
    (known : Began c metrics events began) : Began c metrics (events ++ [event]) began := by
  obtain ⟨before, made, s, id, part, run, phase⟩ := known
  exact ⟨before, made, s, id, part.trans (List.prefix_append _ _), run, phase⟩

theorem relay_fresh_moves (c : Call) (metrics : Metrics) (events : List (Nat × Wake)) (outputs made : List Output) (s after : State)
    (event : Nat × Wake) (wake : Wake) (ran : (machine c).Run (start c metrics) (events ++ [event]) (outputs ++ made) after)
    (inv : RelayFresh c metrics events outputs s) (moves : Moves c s wake after made) :
    RelayFresh c metrics (events ++ [event]) (outputs ++ made) after := by
  have begins (id : Nat) (phase : after.phase = .relaying id (beginRelay c s.now)) : Began c metrics (events ++ [event]) s.now :=
    ⟨_, _, after, id, List.prefix_refl _, ran, phase⟩
  have fresh := Relay.fresh_start c.idle s.now c.client c.upstream
  cases moves with
  | establishing e next wake dials phase moved =>
      simp only [RelayFresh, phase] at inv
      have silent : relayOutputs (outputs ++ dials.map .dial) = [] := by
        rw [relay_outputs_append, inv, relay_outputs_dial]
        rfl
      simp only [RelayFresh, established]
      cases next.phase with
      | returned result => cases result <;> exact silent
      | _ => exact silent
  | refusing err msg rest k phase _ =>
      simp only [RelayFresh, phase] at inv ⊢
      rw [relay_outputs_append, inv]
      rfl
  | replying rest k phase _ =>
      simp only [RelayFresh, phase] at inv ⊢
      rw [relay_outputs_append, inv]
      rfl
  | replied rest k phase _ =>
      simp only [RelayFresh, phase] at inv
      have silent : relayOutputs (outputs ++ .toClient rest :: .replied repSucceeded true :: (register c s).2) = [] := by
        rw [relay_outputs_append, inv]
        rfl
      by_cases empty : c.initial = []
      · have began := begins
        simp only [register, empty, if_true, RelayFresh] at began silent ⊢
        refine ⟨s.now, began _ rfl, ?_, Nat.le_refl _⟩
        rw [silent]
        exact fresh
      · simp only [register, empty, if_false, RelayFresh] at silent ⊢
        exact silent
  | forwarding id rest k phase _ =>
      simp only [RelayFresh, phase] at inv ⊢
      rw [relay_outputs_append, inv]
      rfl
  | forwarded id rest k phase _ =>
      simp only [RelayFresh, phase] at inv ⊢
      refine ⟨s.now, begins id rfl, ?_, Nat.le_refl _⟩
      rw [relay_outputs_append, inv]
      exact fresh
  | relaying id relay later dir act moved phase turned =>
      simp only [RelayFresh, phase] at inv ⊢
      obtain ⟨began, known, kept, behind⟩ := inv
      obtain ⟨_, _, _, _, _, _, now, _⟩ := Relay.step_cases _ _ _ _ _ turned
      obtain ⟨grows, covered⟩ := Relay.max_above (Relay.latest began (relayOutputs outputs)) (Relay.moves moved)
      refine ⟨began, began_later c metrics events _ began known, ?_, by rw [now]⟩
      rw [relay_outputs_append, relay_outputs_relay, Relay.latest_append]
      exact Relay.fresh_step c.idle _ _ relay later _ moved kept turned grows covered
  | others bystander foreign =>
      simp only [RelayFresh, List.append_nil] at inv ⊢
      split
      · rename_i id relay phase
        simp only [phase] at inv
        obtain ⟨began, known, kept, behind⟩ := inv
        exact ⟨began, began_later c metrics events _ began known, kept, behind⟩
      · trivial
      · rename_i relaying finished
        split at inv
        · rename_i id relay phase
          exact absurd phase (relaying id relay)
        · rename_i phase
          exact absurd phase finished
        · exact inv
  | _ => trivial

theorem relay_fresh_later (c : Call) (metrics : Metrics) (events : List (Nat × Wake)) (outputs : List Output) (s : State) (now : Nat)
    (onwards : s.now ≤ now) (inv : RelayFresh c metrics events outputs s) : RelayFresh c metrics events outputs { s with now } := by
  rw [RelayFresh] at inv ⊢
  cases phase : s.phase with
  | relaying id relay =>
      simp only [phase] at inv ⊢
      obtain ⟨began, known, fresh, behind⟩ := inv
      exact ⟨began, known, fresh, behind.trans onwards⟩
  | finished => simp only
  | _ =>
      simp only [phase] at inv ⊢
      exact inv

theorem relay_fresh_run (c : Call) (metrics : Metrics) (events : List (Nat × Wake)) (outputs : List Output) (s : State)
    (run : (machine c).Run (start c metrics) events outputs s) : RelayFresh c metrics events outputs s := by
  induction run with
  | idle => rfl
  | @next events outputs s before event made after stepped ih =>
      have onwards : s.now ≤ event.1 := by
        simp only [machine, Option.ite_none_left_eq_some, Nat.not_lt] at stepped
        exact stepped.1
      exact relay_fresh_moves c metrics events outputs made _ after event event.2 (before.next event made after stepped)
        (relay_fresh_later c metrics events outputs s event.1 onwards ih) (step_moves c s after event.1 event.2 made stepped)

-- What the timers keep until the registry entry is given back.
structure Winding (c : Call) (id limit bound : Nat) (s : State) : Prop where
  early : s.now ≤ bound
  phase : (∃ relay, s.phase = .relaying id relay ∧ Relay.Fresh c.idle limit relay ∧ relay.now ≤ s.now) ∨
    s.phase = .finished ∧ s.metrics.entry id = none

def left (c : Call) (s : State) : Nat :=
  match s.phase with
  | .relaying _ relay => 1 + Relay.patience c.idle relay
  | _ => 0

theorem timers_nearer (c : Call) (id limit bound : Nat) (wide : limit + 2 * c.idle ≤ bound) (s : State)
    (winding : Winding c id limit bound s) (unfinished : s.phase ≠ .finished) :
    ∃ event after made, (timers c).step s event = some (after, made) ∧ Winding c id limit bound after ∧ left c after < left c s := by
  obtain ⟨early, ⟨relay, phase, fresh, behind⟩ | ⟨finished, _⟩⟩ := winding
  · by_cases done : relay.Done
    · refine ⟨(s.now, .joined), (finish s id).1, (finish s id).2, ?_, ?_, ?_⟩
      · simp [timers, Wake.timer, machine, onWake, phase, done, finish]
      · exact ⟨early, .inr ⟨rfl, by simp [finish]⟩⟩
      · simp [left, finish, phase]
    · obtain ⟨time, dir, act, later, made, timer, onwards, soon, stepped, kept, now, shorter⟩ :=
        Relay.timer_step c.idle limit s.now relay fresh behind done
      have after : (timers c).step s (time, .relay dir act) =
          some ({ s with now := time, metrics := made.foldl (count id) s.metrics, phase := .relaying id later }, made.map .relay) := by
        simp [timers, Wake.timer, timer, machine, onWake, phase, stepped, Nat.not_lt.mpr onwards]
      refine ⟨_, _, _, after, ⟨by show time ≤ bound; omega, .inl ⟨later, rfl, kept, by rw [now]⟩⟩, ?_⟩
      simp only [left, phase]
      omega
  · exact absurd finished unfinished

-- No timer of a session that relays goes off later than two idle windows after the last byte, and by then they have
-- ended both directions and the registry entry is gone, whatever the two ends do.
theorem session_reclaimed (c : Call) (metrics : Metrics) (events : List (Nat × Wake)) (outputs : List Output) (s : State)
    (run : (machine c).Run (start c metrics) events outputs s) (id : Nat) (relay : Relay.State) (relaying : s.phase = .relaying id relay) :
    ∃ began, Began c metrics events began ∧
      (∀ dir deadline, (relay.half dir).phase.deadline c.idle = some deadline →
        deadline ≤ Relay.latest began (relayOutputs outputs) + 2 * c.idle) ∧
      ∃ t, (timers c).Reachable s t ∧ t.phase = .finished ∧ t.metrics.entry id = none ∧
        t.now ≤ max s.now (Relay.latest began (relayOutputs outputs) + 2 * c.idle) := by
  have inv := relay_fresh_run c metrics events outputs s run
  simp only [RelayFresh, relaying] at inv
  obtain ⟨began, known, fresh, behind⟩ := inv
  refine ⟨began, known, Relay.fresh_deadline c.idle _ relay fresh, ?_⟩
  obtain ⟨t, reached, ⟨early, phase⟩, finished⟩ := (timers c).reachable_goal
    (Winding c id _ (max s.now (Relay.latest began (relayOutputs outputs) + 2 * c.idle))) (·.phase = .finished) (left c)
    (timers_nearer c id (Relay.latest began (relayOutputs outputs)) _ (Nat.le_max_right _ _)) s
    ⟨Nat.le_max_left _ _, .inl ⟨relay, relaying, fresh, behind⟩⟩
  rcases phase with ⟨_, still, _⟩ | ⟨_, gone⟩
  · rw [finished] at still
    cases still
  · exact ⟨t, reached, finished, gone, early⟩

def quietCall : Call :=
  ⟨.default, .v4 (.new 93 184 216 34) 80, [], .v4 (.new 192 0 2 7) 40000, ⟨fun _ => .ok [], fun _ => .ok []⟩, fun _ => 0, 0, [71], []⟩

def Phase.relay : Phase → Option (Nat × Relay.State)
  | .relaying id relay => some (id, relay)
  | _ => none

theorem phase_relay (phase : Phase) (id : Nat) (relay : Relay.State) (found : phase.relay = some (id, relay)) :
    phase = .relaying id relay := by
  cases phase with
  | relaying other state =>
      cases found
      rfl
  | _ => cases found

-- The only byte moves just after the relay began: the download finds it too recent after one window and waits for another.
theorem session_reclaimed_quiet : ∃ began outputs s, (machine quietCall).Run (start quietCall .new) [(0, .establish .call),
      (1, .establish (.attemptDone (.ok ⟨none⟩))), (2, .accept 10), (3, .relay .up (.read 1)), (4, .relay .up (.accept 1)),
      (2 + quietCall.idle, .relay .down .idleElapsed)] outputs s ∧
    2 + 2 * quietCall.idle ≤ Relay.latest began (relayOutputs outputs) + 2 * quietCall.idle ∧
    ∃ t, (timers quietCall).Reachable s t ∧ t.phase = .finished ∧ t.metrics.entry 1 = none := by
  have ran : ((machine quietCall).exec (start quietCall .new) [(0, .establish .call), (1, .establish (.attemptDone (.ok ⟨none⟩))),
      (2, .accept 10), (3, .relay .up (.read 1)), (4, .relay .up (.accept 1)),
      (2 + quietCall.idle, .relay .down .idleElapsed)]).map (fun ended => ended.2.phase.relay) =
      some (some (1, ⟨2 + quietCall.idle, 4, ⟨[], .reading 4⟩, ⟨[], .reading (2 + quietCall.idle)⟩⟩)) := by decide +kernel
  obtain ⟨⟨outputs, s⟩, done, phase⟩ := Option.map_eq_some_iff.mp ran
  have run := (machine quietCall).exec_run _ _ _ _ done
  obtain ⟨began, _, soon, t, reached, finished, gone, _⟩ := session_reclaimed quietCall .new _ _ _ run 1 _ (phase_relay _ _ _ phase)
  refine ⟨began, outputs, s, run, ?_, t, reached, finished, gone⟩
  have waits := soon .down (2 + quietCall.idle + quietCall.idle) rfl
  omega

end Connect

end NextSocks5
