import NextSocks5.Server.Dialing

set_option autoImplicit false

namespace NextSocks5

namespace Establish

-- Loop steps take no time: nothing is handled after a timer that was to fire before it.
def Punctual (task : Task) (state : State) (event : Nat × Wake) : Prop :=
  event.1 ≤ task.deadline ∧ ∀ s, state.phase = .select s → s.active.isSome = true → event.1 ≤ s.attemptDeadline

def recomputes (before : Phase) (wake : Wake) (after : Phase) (made : List Dial) : Bool :=
  !made.isEmpty ||
    match before, wake, after with
    | .select s, .lookupDone _, .select next => s.active.isSome && !next.queue.isEmpty
    | _, _, _ => false

def dated (task : Task) : Machine (State × Nat) (Nat × Wake) Dial where
  step s event :=
    ((machine task).step s.1 event).map fun (after, made) =>
      ((after, if recomputes s.1.phase event.2 after.phase made then event.1 else s.2), made)

def timely (task : Task) (host : String) (port : UInt16) (events : List (Nat × Wake)) : List SocketAddr :=
  permitted task.policy (delivered task host port (events.filter fun event => event.1 < task.deadline))

def AllStarted (task : Task) (host : String) (port : UInt16) (events : List (Nat × Wake)) (dials : List Dial) : Prop :=
  ∀ address ∈ timely task host port events, ∃ dial ∈ dials, dial.address = address ∧ dial.startedAt < task.deadline

theorem share_lone (deadline now : Nat) (early : now ≤ deadline) : share deadline now 0 = deadline := by
  have alone : divisor 0 = 1 := rfl
  rw [share, alone, Nat.div_one]
  omega

theorem share_le (deadline now queued : Nat) (early : now ≤ deadline) : share deadline now queued ≤ deadline := by
  have part := Nat.div_le_self (deadline - now) (divisor queued)
  rw [share]
  omega

theorem share_lt (deadline now queued : Nat) (early : now < deadline) (others : 0 < queued) : share deadline now queued < deadline := by
  have several : 1 < divisor queued := by
    rw [divisor]
    omega
  have part := Nat.div_lt_self (by omega : 0 < deadline - now) several
  rw [share]
  omega

structure Fair (task : Task) (host : String) (port : UInt16) (events : List (Nat × Wake)) (dials : List Dial) (now computed : Nat)
    (s : Select) : Prop where
  onTime : now ≤ task.deadline
  computedBy : computed ≤ now
  past : ∀ dial ∈ dials, dial.startedAt ≤ now
  dialed : ∀ address, s.active = some address → address ∈ dials.map Dial.address
  bounded : s.attemptDeadline ≤ task.deadline
  pending : s.active.isSome = true → now ≤ s.attemptDeadline
  alternative : s.active.isSome = true → s.attemptDeadline < task.deadline → s.queue ≠ []
  shared : s.active.isSome = true → s.queue ≠ [] → computed < task.deadline → s.attemptDeadline < task.deadline
  late : now = task.deadline → AllStarted task host port events dials

def PhaseFair (task : Task) (host : String) (port : UInt16) (events : List (Nat × Wake)) (dials : List Dial) (now computed : Nat) :
    Phase → Prop
  | .called => computed ≤ now
  | .dialOne _ => False
  | .select s => Fair task host port events dials now computed s
  | .returned (.ok _) => task.deadline ≤ now → AllStarted task host port events dials
  | .returned (.error _) => AllStarted task host port events dials

section

variable (task : Task) (host : String) (port : UInt16) (events : List (Nat × Wake)) (dials : List Dial)

theorem timely_delivered (address : SocketAddr) (required : address ∈ timely task host port events) :
    address ∈ permitted task.policy (delivered task host port events) := by
  rw [timely, permitted, List.mem_filter] at required
  obtain ⟨answered, allowed⟩ := required
  rw [permitted, List.mem_filter]
  refine ⟨?_, allowed⟩
  rw [delivered, List.mem_flatMap] at answered ⊢
  obtain ⟨event, early, answer⟩ := answered
  exact ⟨event, (List.mem_filter.mp early).1, answer⟩

theorem timely_late (event : Nat × Wake) (late : task.deadline ≤ event.1) :
    timely task host port (events ++ [event]) = timely task host port events := by
  simp [timely, Nat.not_lt.mpr late]

theorem all_started_mono (later : List (Nat × Wake)) (more : List Dial) (same : timely task host port later = timely task host port events)
    (started : AllStarted task host port events dials) : AllStarted task host port later (dials ++ more) := by
  intro address required
  rw [same] at required
  obtain ⟨dial, made, found⟩ := started address required
  exact ⟨dial, List.mem_append_left more made, found⟩

theorem drained_started (s : Select) (now : Nat) (inv : TopInv task host port events dials s) (empty : s.queue = [])
    (early : now < task.deadline) (past : ∀ dial ∈ dials, dial.startedAt ≤ now) : AllStarted task host port events dials := by
  intro address required
  have tracks := inv.tracks
  rw [empty] at tracks
  have known : address ∈ dials.map Dial.address := by
    rw [Worklist.tracks_drained _ _ _ tracks]
    exact List.mem_eraseDups.mpr (timely_delivered task host port events address required)
  obtain ⟨dial, made, same⟩ := List.mem_map.mp known
  have before := past dial made
  exact ⟨dial, made, same, by omega⟩

-- A candidate still queued would have cut the attempt off before the deadline.
theorem deadline_started (s : Select) (now computed : Nat) (inv : SelectInv task host port events dials s)
    (fair : Fair task host port events dials now computed s) (waited : s.active.isSome = true → task.deadline ≤ s.attemptDeadline) :
    AllStarted task host port events dials := by
  by_cases reached : now = task.deadline
  · exact fair.late reached
  · have early : now < task.deadline := lt_of_le_of_ne fair.onTime reached
    have computedNow := fair.computedBy
    have empty : s.queue = [] := by
      by_contra queued
      have active : s.active.isSome = true := by
        by_contra idle
        exact queued (inv.resting (by simpa using idle))
      have cut := fair.shared active queued (by omega)
      have wait := waited active
      omega
    exact drained_started task host port events dials s now inv.toTopInv empty early fair.past

theorem turn_fair (s : Select) (now computed : Nat) (inv : TopInv task host port events dials s)
    (fair : Fair task host port events dials now computed s) :
    PhaseFair task host port events (dials ++ (turn task now s).2) now (if (turn task now s).2.isEmpty then computed else now)
      (turn task now s).1 := by
  cases active : s.active with
  | some address =>
      simp only [turn, active, List.append_nil, List.isEmpty_nil, if_true]
      exact fair
  | none =>
      cases queued : s.queue with
      | nil =>
          by_cases finished : s.done.a = true ∧ s.done.aaaa = true
          · simp only [turn, active, queued, finished, Bool.and_self, if_true, List.append_nil]
            by_cases reached : now = task.deadline
            · exact fair.late reached
            · exact drained_started task host port events dials s now inv queued (lt_of_le_of_ne fair.onTime reached) fair.past
          · have waiting : (s.done.a && s.done.aaaa) = false := by simpa using finished
            simp only [turn, active, queued, waiting, List.append_nil, List.isEmpty_nil, Bool.false_eq_true, if_true, if_false]
            exact fair
      | cons address queue =>
          simp only [turn, active, queued, List.isEmpty_cons, Bool.false_eq_true, if_false]
          refine ⟨fair.onTime, le_refl _, ?_, ?_, share_le _ _ _ fair.onTime, ?_, ?_, ?_, ?_⟩
          · intro dial made
            rcases List.mem_append.mp made with old | new
            · exact fair.past dial old
            · rw [List.mem_singleton.mp new]
          · intro other dialed
            cases dialed
            simp
          · intro _
            exact Nat.le_add_right _ _
          · intro _ cut empty
            have alone : share task.deadline now queue.length = task.deadline := by
              rw [List.length_eq_zero_iff.mpr empty, share_lone _ _ fair.onTime]
            exact absurd alone (Nat.ne_of_lt cut)
          · intro _ others early
            exact share_lt _ _ _ early (List.length_pos_iff.mpr others)
          · intro reached
            exact all_started_mono task host port events dials events _ rfl (fair.late reached)

theorem add_candidates_queue (policy : Egress) (addresses : List SocketAddr) (s : Select) :
    ∃ fresh seen blocked, addCandidates policy addresses s = { s with queue := s.queue ++ fresh, seen, blocked } := by
  induction addresses generalizing s with
  | nil => exact ⟨[], s.seen, s.blocked, by simp [addCandidates]⟩
  | cons address addresses ih =>
      have one : ∃ fresh seen blocked, addCandidate policy s address = { s with queue := s.queue ++ fresh, seen, blocked } := by
        rw [addCandidate]
        split
        · exact ⟨[], s.seen, true, by simp⟩
        · split
          · exact ⟨[], s.seen, s.blocked, by simp⟩
          · exact ⟨[address], insert address s.seen, s.blocked, rfl⟩
      obtain ⟨first, seen, blocked, added⟩ := one
      obtain ⟨rest, seenAll, blockedAll, all⟩ := ih { s with queue := s.queue ++ first, seen, blocked }
      refine ⟨first ++ rest, seenAll, blockedAll, ?_⟩
      rw [addCandidates, List.foldl_cons, added]
      simpa [addCandidates, List.append_assoc] using all

def absorb (family : Family) (s : Select) : Select :=
  match task.lookup s.host s.port family with
  | .ok addresses => addCandidates task.policy addresses { s with done := s.done.set family true }
  | .error error => { s with done := s.done.set family true, errors := s.errors.set family error.display }

def reserve (now : Nat) (s : Select) : Select :=
  if s.active.isSome && !s.queue.isEmpty then
    { s with attemptDeadline := min s.attemptDeadline (share task.deadline now s.queue.length) }
  else s

theorem lookup_arm_eq (s : Select) (now : Nat) (family : Family) : lookupArm task now s family = reserve task now (absorb task family s) := rfl

theorem absorb_queue (s : Select) (family : Family) :
    ∃ fresh, (absorb task family s).queue = s.queue ++ fresh ∧ (absorb task family s).active = s.active ∧
      (absorb task family s).attemptDeadline = s.attemptDeadline := by
  rw [absorb]
  cases task.lookup s.host s.port family with
  | error error => exact ⟨[], by simp⟩
  | ok addresses =>
      obtain ⟨fresh, seen, blocked, added⟩ := add_candidates_queue task.policy addresses { s with done := s.done.set family true }
      dsimp only
      rw [added]
      exact ⟨fresh, rfl, rfl, rfl⟩

theorem reserve_kept (s : Select) (now : Nat) : (reserve task now s).queue = s.queue ∧ (reserve task now s).active = s.active := by
  rw [reserve]
  split <;> exact ⟨rfl, rfl⟩

theorem reserve_shares (s : Select) (now : Nat) (active : s.active.isSome = true) (queued : s.queue ≠ []) :
    (reserve task now s).attemptDeadline = min s.attemptDeadline (share task.deadline now s.queue.length) := by
  rw [reserve, if_pos (by simp [active, queued])]

theorem lookup_fair (s : Select) (now computed : Nat) (state : State) (family : Family) (before : state.now ≤ now)
    (inv : SelectInv task host port events dials s) (fair : Fair task host port events dials state.now computed s)
    (phase : state.phase = .select s) (punctual : Punctual task state (now, .lookupDone family)) :
    Fair task host port (events ++ [(now, .lookupDone family)]) dials now
      (if s.active.isSome && !(lookupArm task now s family).queue.isEmpty then now else computed) (lookupArm task now s family) := by
  obtain ⟨onTime, wait⟩ := punctual
  have waitIs := wait s phase
  obtain ⟨fresh, queued, active, deadline⟩ := absorb_queue task s family
  obtain ⟨queueKept, activeKept⟩ := reserve_kept task (absorb task family s) now
  rw [lookup_arm_eq]
  have activeEq : (reserve task now (absorb task family s)).active = s.active := activeKept.trans active
  have queueEq : (reserve task now (absorb task family s)).queue = s.queue ++ fresh := queueKept.trans queued
  have shortened : s.active.isSome = true → s.queue ++ fresh ≠ [] → (reserve task now (absorb task family s)).attemptDeadline =
      min s.attemptDeadline (share task.deadline now (s.queue ++ fresh).length) := by
    intro busy nonempty
    rw [reserve_shares task _ now (by rw [active]; exact busy) (by rw [queued]; exact nonempty), deadline, queued]
  have unshared : (¬ s.active.isSome = true ∨ s.queue ++ fresh = []) →
      (reserve task now (absorb task family s)).attemptDeadline = s.attemptDeadline := by
    intro lone
    rw [reserve, if_neg, deadline]
    rw [active, queued]
    rcases lone with idle | empty
    · simp [idle]
    · simp [empty]
  refine ⟨onTime, ?_, ?_, ?_, ?_, ?_, ?_, ?_, ?_⟩
  · have computedBy := fair.computedBy
    split
    · exact le_refl _
    · exact le_trans computedBy before
  · intro dial made
    exact le_trans (fair.past dial made) before
  · intro address busy
    rw [activeEq] at busy
    exact fair.dialed address busy
  · by_cases timed : s.active.isSome = true ∧ s.queue ++ fresh ≠ []
    · rw [shortened timed.1 timed.2]
      exact le_trans (min_le_left _ _) fair.bounded
    · rw [unshared (by tauto)]
      exact fair.bounded
  · intro busy
    rw [activeEq] at busy
    by_cases nonempty : s.queue ++ fresh = []
    · rw [unshared (.inr nonempty)]
      exact waitIs busy
    · rw [shortened busy nonempty]
      exact le_min (waitIs busy) (Nat.le_add_right _ _)
  · intro busy cut empty
    rw [activeEq] at busy
    rw [queueEq] at empty
    rw [unshared (.inr empty)] at cut
    exact fair.alternative busy cut (List.append_eq_nil_iff.mp empty).1
  · intro busy others early
    rw [activeEq] at busy
    rw [queueEq] at others early
    have recomputed : (s.active.isSome && !(s.queue ++ fresh).isEmpty) = true := by simpa [busy] using others
    rw [if_pos recomputed] at early
    rw [shortened busy others]
    exact lt_of_le_of_lt (min_le_right _ _) (share_lt _ _ _ early (List.length_pos_iff.mpr others))
  · intro reached
    have waited : s.active.isSome = true → task.deadline ≤ s.attemptDeadline := by
      intro busy
      rw [← reached]
      exact waitIs busy
    have started := deadline_started task host port events dials s state.now computed inv fair waited
    have same := timely_late task host port events (now, .lookupDone family) (le_of_eq reached.symm)
    simpa using all_started_mono task host port events dials _ [] same started

theorem waited_started (s : Select) (now computed : Nat) (state : State) (wake : Wake) (phase : state.phase = .select s)
    (inv : SelectInv task host port events dials s) (fair : Fair task host port events dials state.now computed s)
    (punctual : Punctual task state (now, wake)) (reached : now = task.deadline) (made : List Dial) :
    AllStarted task host port (events ++ [(now, wake)]) (dials ++ made) := by
  have waited : s.active.isSome = true → task.deadline ≤ s.attemptDeadline := by
    intro busy
    rw [← reached]
    exact punctual.2 s phase busy
  have started := deadline_started task host port events dials s state.now computed inv fair waited
  exact all_started_mono task host port events dials _ made
    (timely_late task host port events (now, wake) (le_of_eq reached.symm)) started

theorem ended_fair (s : Select) (now computed : Nat) (state : State) (wake : Wake) (error : IoError) (before : state.now ≤ now)
    (phase : state.phase = .select s) (inv : SelectInv task host port events dials s)
    (fair : Fair task host port events dials state.now computed s) (punctual : Punctual task state (now, wake)) :
    Fair task host port (events ++ [(now, wake)]) dials now computed { s with active := none, lastError := some error } := by
  refine ⟨punctual.1, le_trans fair.computedBy before, ?_, by simp, fair.bounded, by simp, by simp, by simp, ?_⟩
  · intro dial made
    exact le_trans (fair.past dial made) before
  · intro reached
    simpa using waited_started task host port events dials s now computed state wake phase inv fair punctual reached []

theorem select_fair (s : Select) (now computed : Nat) (state : State) (wake : Wake) (next : Phase) (made : List Dial)
    (before : state.now ≤ now) (phase : state.phase = .select s) (inv : SelectInv task host port events dials s)
    (fair : Fair task host port events dials state.now computed s) (punctual : Punctual task state (now, wake))
    (stepped : selectArm task now s wake = some (next, made)) :
    PhaseFair task host port (events ++ [(now, wake)]) (dials ++ made) now
      (if recomputes (.select s) wake next made then now else computed) next := by
  have final := fun (reached : now = task.deadline) =>
    waited_started task host port events dials s now computed state wake phase inv fair punctual reached
  cases select_arm_cases task s now wake next made stepped with
  | lookup family _ _ unclosed turnIs =>
      have top := lookup_inv task host port events dials s now family inv
      have shared := lookup_fair task host port events dials s now computed state family before inv fair phase punctual
      have turned := turn_fair task host port _ dials _ now _ top shared
      have activeEq : (lookupArm task now s family).active = s.active := by
        rw [lookup_arm_eq, (reserve_kept task _ now).2]
        obtain ⟨_, _, active, _⟩ := absorb_queue task s family
        exact active
      have ghost : (if recomputes (.select s) (.lookupDone family) next made then now else computed) =
          if (turn task now (lookupArm task now s family)).2.isEmpty then
            if s.active.isSome && !(lookupArm task now s family).queue.isEmpty then now else computed
          else now := by
        rw [turnIs]
        cases made with
        | cons dial rest => simp [recomputes]
        | nil =>
            cases active : s.active with
            | none => cases next <;> simp [recomputes, active]
            | some address =>
                have kept : turn task now (lookupArm task now s family) = (.select (lookupArm task now s family), []) := by
                  simp [turn, activeEq, active]
                rw [kept] at turnIs
                cases turnIs
                simp [recomputes, active]
      rw [turnIs] at ghost turned
      rw [ghost]
      exact turned
  | connected stream address active =>
      intro reached
      exact final (le_antisymm punctual.1 reached) []
  | failed _ error address _ _ active ended _ turnIs =>
      have top := failed_inv task host port events dials s now wake error address inv active ended
      have turned := turn_fair task host port _ dials _ now computed top
        (ended_fair task host port events dials s now computed state wake error before phase inv fair punctual)
      have ghost : recomputes (.select s) wake next made = !made.isEmpty := by
        cases wake with
        | lookupDone family => cases ended
        | _ => simp [recomputes]
      rw [turnIs] at turned
      rw [ghost]
      cases made <;> simpa using turned
  | cut late => exact final (le_antisymm punctual.1 late) []

theorem begin_fair (now computed : Nat) (named : task.target = .domain host port) (onTime : now ≤ task.deadline)
    (computedBy : computed ≤ now) :
    PhaseFair task host port [(now, .call)] (begin task now).2 now
      (if recomputes .called .call (begin task now).1 (begin task now).2 then now else computed) (begin task now).1 := by
  have waiting : begin task now =
      (.select ⟨host, port, ⟨false, false⟩, ⟨"", ""⟩, [], ∅, false, none, task.deadline, none⟩, []) := by
    simp [begin, named, turn]
  rw [waiting]
  refine ⟨onTime, computedBy, by simp, by simp, le_refl _, by simp, by simp, by simp, ?_⟩
  intro _ address required
  have nothing : timely task host port [(now, .call)] = [] := by simp [timely, delivered, permitted]
  rw [nothing] at required
  cases required

theorem step_fair (state after : State) (computed later : Nat) (event : Nat × Wake) (made : List Dial)
    (named : task.target = .domain host port) (inv : PhaseInv task host port events dials state.now state.phase)
    (fair : PhaseFair task host port events dials state.now computed state.phase) (punctual : Punctual task state event)
    (stepped : (dated task).step (state, computed) event = some ((after, later), made)) :
    PhaseFair task host port (events ++ [event]) (dials ++ made) after.now later after.phase := by
  obtain ⟨now, wake⟩ := event
  simp only [dated, machine, Option.map_eq_some_iff, Option.ite_none_left_eq_some, Prod.exists, Prod.mk.injEq, not_lt] at stepped
  obtain ⟨_, _, ⟨before, phase, dialsGrow, taken, rfl, rfl⟩, ⟨rfl, rfl⟩, rfl⟩ := stepped
  cases phaseEq : state.phase with
  | called =>
      rw [phaseEq] at inv taken fair
      obtain ⟨rfl, rfl⟩ := inv
      cases wake with
      | call =>
          simp only [arm, Option.some.injEq] at taken
          have first := begin_fair task host port now computed named punctual.1 (le_trans fair before)
          rw [taken] at first
          exact first
      | _ => simp [arm] at taken
  | dialOne address =>
      rw [phaseEq] at inv
      exact inv.elim
  | select s =>
      rw [phaseEq] at inv taken fair
      exact select_fair task host port events dials s now computed state wake phase _ before phaseEq inv fair punctual taken
  | returned result =>
      rw [phaseEq] at taken
      simp [arm] at taken

end

theorem dated_step (task : Task) (state after : State) (computed : Nat) (event : Nat × Wake) (made : List Dial)
    (stepped : (machine task).step state event = some (after, made)) :
    (dated task).step (state, computed) event =
      some ((after, if recomputes state.phase event.2 after.phase made then event.1 else computed), made) := by
  simp [dated, stepped]

theorem punctual_run (task : Task) (host : String) (port : UInt16) (named : task.target = .domain host port)
    (events : List (Nat × Wake)) (dials : List Dial) (state : State)
    (run : (machine task).Run (start task) events dials state)
    (punctual : (machine task).Throughout (start task) (Punctual task) events) :
    ∃ computed, (dated task).Run (start task, task.started) events dials (state, computed) ∧
      PhaseFair task host port events dials state.now computed state.phase := by
  have both := (machine task).throughout_invariant (start task) (Punctual task)
    (fun events dials state => PhaseInv task host port events dials state.now state.phase ∧
      ∃ computed, (dated task).Run (start task, task.started) events dials (state, computed) ∧
        PhaseFair task host port events dials state.now computed state.phase)
    ⟨⟨rfl, rfl⟩, task.started, .idle, le_refl _⟩ ?_ events dials state run punctual
  · exact both.2
  · intro events dials state event after made known prompt stepped
    obtain ⟨inv, computed, before, fair⟩ := known
    have ghost := dated_step task state after computed event made stepped
    refine ⟨step_inv task host port events dials state after event made named inv stepped, _,
      before.next event made _ ghost, ?_⟩
    exact step_fair task host port events dials state after computed _ event made named inv fair prompt ghost

theorem queued_other (task : Task) (host : String) (port : UInt16) (events : List (Nat × Wake)) (dials : List Dial) (s : Select)
    (now computed : Nat) (inv : SelectInv task host port events dials s) (fair : Fair task host port events dials now computed s)
    (address : SocketAddr) (queued : address ∈ s.queue) :
    task.policy.isBlocked address.ip = false ∧ s.active ≠ some address := by
  have order := inv.tracks.order
  constructor
  · have offered : address ∈ permitted task.policy (delivered task host port events) := by
      rw [← List.mem_eraseDups, ← order]
      exact List.mem_append_right _ queued
    simpa using (List.mem_filter.mp offered).2
  · intro active
    have unique : (dials.map Dial.address ++ s.queue).Nodup := by
      rw [order]
      exact Worklist.erase_dups_nodup _
    exact (List.nodup_append.mp unique).2.2 address (fair.dialed address active) address queued rfl

theorem expired_early (task : Task) (host : String) (port : UInt16) (events : List (Nat × Wake)) (dials made : List Dial) (s : Select)
    (state after : State) (now computed : Nat) (phase : state.phase = .select s)
    (fair : Fair task host port events dials state.now computed s)
    (stepped : (machine task).step state (now, .attemptExpired) = some (after, made)) (early : now < task.deadline) :
    s.queue ≠ [] := by
  simp only [machine, phase, arm, Option.ite_none_left_eq_some, Option.map_eq_some_iff] at stepped
  obtain ⟨_, ⟨next, dialed⟩, taken, _⟩ := stepped
  cases select_arm_cases task s now .attemptExpired next dialed taken with
  | failed _ _ address _ _ active _ waited _ =>
      have expired := waited rfl
      exact fair.alternative (by rw [active]; rfl) (by omega)

section

variable (task : Task) (events : List (Nat × Wake)) (dials : List Dial) (state : State) (s : Select)
  (run : (machine task).Run (start task) events dials state)
  (punctual : (machine task).Throughout (start task) (Punctual task) events) (phase : state.phase = .select s)

include run punctual phase

theorem deadline_ends (onTime : state.now ≤ task.deadline) (waited : s.active.isSome = true → task.deadline ≤ s.attemptDeadline) :
    ∃ rest made error, (∀ event ∈ rest, event.2 = Wake.attemptExpired ∨ event.2 = .deadlineExpired) ∧
      (machine task).Run (start task) (events ++ rest) (dials ++ made) ⟨task.deadline, .returned (.error error)⟩ ∧
      (machine task).Throughout (start task) (Punctual task) (events ++ rest) := by
  have stepped : (machine task).step state (task.deadline, .deadlineExpired) =
      some (⟨task.deadline, .returned (.error (budgetExhausted task task.deadline s))⟩, []) := by
    simp [machine, Nat.not_lt.mpr onTime, phase, arm, selectArm]
  refine ⟨[(task.deadline, .deadlineExpired)], [], budgetExhausted task task.deadline s, by simp, run.next _ _ _ stepped, ?_⟩
  refine ((machine task).throughout_snoc (start task) state _ events dials run _).mpr ⟨punctual, le_refl _, ?_⟩
  intro other same busy
  rw [phase] at same
  cases same
  exact waited busy

theorem cut_off_next (address next : SocketAddr) (queue : List SocketAddr) (active : s.active = some address)
    (queued : s.queue = next :: queue) (pending : state.now ≤ s.attemptDeadline) (early : s.attemptDeadline ≤ task.deadline) :
    ∃ event made after later, event.2 = Wake.attemptExpired ∧ (machine task).Run (start task) (events ++ [event]) (dials ++ made) after ∧
      (machine task).Throughout (start task) (Punctual task) (events ++ [event]) ∧ after.phase = .select later ∧
      later.queue = queue := by
  have stepped : (machine task).step state (s.attemptDeadline, .attemptExpired) =
      some (⟨s.attemptDeadline, .select { s with
          active := some next, queue, attemptDeadline := share task.deadline s.attemptDeadline queue.length,
          lastError := some (timedOut "connection attempt timed out") }⟩, [⟨next, s.attemptDeadline⟩]) := by
    simp [machine, Nat.not_lt.mpr pending, phase, arm, selectArm, active, turn, queued]
  refine ⟨(s.attemptDeadline, .attemptExpired), _, _, _, rfl, run.next _ _ _ stepped, ?_, rfl, rfl⟩
  refine ((machine task).throughout_snoc (start task) state _ events dials run _).mpr ⟨punctual, early, ?_⟩
  intro other same _
  rw [phase] at same
  cases same
  exact le_refl _

end

-- Let every attempt hang: the timers alone bring the loop to its end.
theorem hang_to_deadline (task : Task) (host : String) (port : UInt16) (named : task.target = .domain host port) (n : Nat)
    (events : List (Nat × Wake)) (dials : List Dial) (state : State) (s : Select)
    (run : (machine task).Run (start task) events dials state)
    (punctual : (machine task).Throughout (start task) (Punctual task) events) (phase : state.phase = .select s)
    (sized : s.queue.length = n) :
    ∃ rest made error, (∀ event ∈ rest, event.2 = Wake.attemptExpired ∨ event.2 = .deadlineExpired) ∧
      (machine task).Run (start task) (events ++ rest) (dials ++ made) ⟨task.deadline, .returned (.error error)⟩ ∧
      (machine task).Throughout (start task) (Punctual task) (events ++ rest) := by
  induction n generalizing events dials state s with
  | zero =>
      obtain ⟨computed, _, fair⟩ := punctual_run task host port named events dials state run punctual
      rw [phase] at fair
      refine deadline_ends task events dials state s run punctual phase fair.onTime ?_
      intro busy
      by_contra early
      exact fair.alternative busy (by omega) (List.length_eq_zero_iff.mp sized)
  | succ n ih =>
      obtain ⟨computed, _, fair⟩ := punctual_run task host port named events dials state run punctual
      rw [phase] at fair
      cases active : s.active with
      | none => exact deadline_ends task events dials state s run punctual phase fair.onTime (by simp [active])
      | some address =>
          obtain ⟨next, queue, queued⟩ := List.exists_cons_of_length_eq_add_one sized
          have pending := fair.pending (by simp [active])
          obtain ⟨event, made, after, later, cut, longer, prompt, phaseLater, left⟩ :=
            cut_off_next task events dials state s run punctual phase address next queue active queued pending fair.bounded
          have shorter : later.queue.length = n := by
            rw [queued, List.length_cons] at sized
            rw [left]
            omega
          obtain ⟨rest, more, error, timers, ended, promptLater⟩ := ih _ _ after later longer prompt phaseLater shorter
          refine ⟨event :: rest, made ++ more, error, ?_, ?_, ?_⟩
          · intro other known
            rcases List.mem_cons.mp known with rfl | old
            · exact .inl cut
            · exact timers other old
          · simpa [List.append_assoc] using ended
          · simpa [List.append_assoc] using promptLater

theorem dial_time_shared (task : Task) (host : String) (port : UInt16) (named : task.target = .domain host port)
    (events : List (Nat × Wake)) (dials : List Dial) (state : State)
    (run : (machine task).Run (start task) events dials state)
    (punctual : (machine task).Throughout (start task) (Punctual task) events) :
    (∀ s, state.phase = .select s →
      s.attemptDeadline ≤ task.deadline ∧
      (∀ now after made, (machine task).step state (now, .attemptExpired) = some (after, made) → now < task.deadline →
        ∃ address ∈ s.queue, task.policy.isBlocked address.ip = false ∧ s.active ≠ some address) ∧
      (∃ computed, (dated task).Run (start task, task.started) events dials (state, computed) ∧
        (s.queue ≠ [] → computed < task.deadline → s.attemptDeadline < task.deadline)) ∧
      ∃ rest made error, (∀ event ∈ rest, event.2 = Wake.attemptExpired ∨ event.2 = .deadlineExpired) ∧
        (machine task).Run (start task) (events ++ rest) (dials ++ made) ⟨task.deadline, .returned (.error error)⟩ ∧
        (machine task).Throughout (start task) (Punctual task) (events ++ rest)) ∧
    (task.deadline ≤ state.now ∨ (∃ error, state.phase = .returned (.error error)) →
      ∀ address ∈ timely task host port events, ∃ dial ∈ dials, dial.address = address ∧ dial.startedAt < task.deadline) := by
  obtain ⟨computed, ghost, fair⟩ := punctual_run task host port named events dials state run punctual
  have inv := domain_run task host port named events dials state run
  constructor
  · intro s phase
    rw [phase] at fair inv
    refine ⟨fair.bounded, ?_, ⟨computed, ghost, ?_⟩, hang_to_deadline task host port named _ events dials state s run punctual phase rfl⟩
    · intro now after made stepped early
      have others := expired_early task host port events dials made s state after now computed phase fair stepped early
      obtain ⟨address, queue, queued⟩ := List.exists_cons_of_ne_nil others
      have member : address ∈ s.queue := by rw [queued]; exact .head _
      exact ⟨address, member, queued_other task host port events dials s state.now computed inv fair address member⟩
    · intro queued early
      have active : s.active.isSome = true := by
        by_contra idle
        exact queued (inv.resting (by simpa using idle))
      exact fair.shared active queued early
  · intro finished
    cases phase : state.phase with
    | called =>
        rw [phase] at inv
        obtain ⟨rfl, rfl⟩ := inv
        simp [timely, delivered, permitted]
    | dialOne address =>
        rw [phase] at inv
        exact inv.elim
    | select s =>
        rw [phase] at finished fair
        rcases finished with late | ⟨_, ended⟩
        · exact fair.late (le_antisymm fair.onTime late)
        · cases ended
    | returned result =>
        rw [phase] at finished fair
        cases result with
        | error error => exact fair
        | ok stream =>
            rcases finished with late | ⟨_, ended⟩
            · exact fair late
            · cases ended

def hungTask : Task where
  policy := .default
  target := .domain "example.test" 80
  lookup host port family :=
    match family with
    | .a => .ok [.v4 (.new 93 184 216 34) port, .v4 (.new 93 184 216 35) port]
    | .aaaa => .error ⟨host, 3, "no records found"⟩
  started := 0
  deadline := 100

-- Both attempts hang, and the AAAA answer never arrives.
theorem dial_time_shared_hung :
    (timely hungTask "example.test" 80 [(0, .call), (10, .lookupDone .a), (55, .attemptExpired), (100, .deadlineExpired)]).length = 2 ∧
      AllStarted hungTask "example.test" 80 [(0, .call), (10, .lookupDone .a), (55, .attemptExpired), (100, .deadlineExpired)]
        [⟨.v4 (.new 93 184 216 34) 80, 10⟩, ⟨.v4 (.new 93 184 216 35) 80, 55⟩] := by
  have called := (machine hungTask).exec_run (start hungTask) [(0, .call)] _ _ rfl
  have answered := (machine hungTask).exec_run (start hungTask) [(0, .call), (10, .lookupDone .a)] _ _ rfl
  have cut := (machine hungTask).exec_run (start hungTask) [(0, .call), (10, .lookupDone .a), (55, .attemptExpired)] _ _ rfl
  have ended := (machine hungTask).exec_run (start hungTask)
    [(0, .call), (10, .lookupDone .a), (55, .attemptExpired), (100, .deadlineExpired)] _ _ rfl
  refine ⟨rfl, (dial_time_shared hungTask "example.test" 80 rfl _ _ _ ended ?_).2 (.inl (by decide))⟩
  refine (Machine.throughout_snoc (machine hungTask) _ _ _ [(0, .call), (10, .lookupDone .a), (55, .attemptExpired)] _ cut _).mpr
    ⟨?_, by decide, ?_⟩
  · refine (Machine.throughout_snoc (machine hungTask) _ _ _ [(0, .call), (10, .lookupDone .a)] _ answered _).mpr ⟨?_, by decide, ?_⟩
    · refine (Machine.throughout_snoc (machine hungTask) _ _ _ [(0, .call)] _ called _).mpr ⟨?_, by decide, ?_⟩
      · refine (Machine.throughout_snoc (machine hungTask) _ _ _ [] _ .idle _).mpr ⟨Machine.throughout_nil _ _ _, by decide, ?_⟩
        intro s same
        cases same
      · intro s same busy
        cases same
        cases busy
    · intro s same _
      cases same
      decide
  · intro s same _
    cases same
    decide

end Establish

end NextSocks5
