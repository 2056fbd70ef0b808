import NextSocks5.Library.Worklist
import NextSocks5.Server.Establish

set_option autoImplicit false

namespace NextSocks5

namespace Establish

def delivered (task : Task) (host : String) (port : UInt16) (events : List (Nat × Wake)) : List SocketAddr :=
  events.flatMap fun event =>
    match event.2 with
    | .lookupDone family =>
        match task.lookup host port family with
        | .ok addresses => addresses
        | .error _ => []
    | _ => []

def permitted (policy : Egress) (addresses : List SocketAddr) : List SocketAddr :=
  addresses.filter fun address => !policy.isBlocked address.ip

def attemptEnd : Wake → Option (Except IoError Upstream)
  | .attemptDone result => some result
  | .attemptExpired => some (.error (timedOut "connection attempt timed out"))
  | _ => none

def attemptEnds (events : List (Nat × Wake)) : List (Except IoError Upstream) := events.filterMap fun event => attemptEnd event.2

def Answered (events : List (Nat × Wake)) (family : Family) : Prop := ∃ now, (now, Wake.lookupDone family) ∈ events

theorem delivered_snoc (task : Task) (host : String) (port : UInt16) (events : List (Nat × Wake)) (event : Nat × Wake) :
    delivered task host port (events ++ [event]) = delivered task host port events ++ delivered task host port [event] := by
  simp [delivered]

theorem attempt_ends_snoc (events : List (Nat × Wake)) (event : Nat × Wake) :
    attemptEnds (events ++ [event]) = attemptEnds events ++ (attemptEnd event.2).toList := by
  cases ended : attemptEnd event.2 <;> simp [attemptEnds, ended]

theorem answered_snoc (events : List (Nat × Wake)) (now : Nat) (wake : Wake) (family : Family) :
    Answered (events ++ [(now, wake)]) family ↔ Answered events family ∨ wake = .lookupDone family := by
  simp only [Answered, List.mem_append, List.mem_singleton, Prod.mk.injEq]
  constructor
  · rintro ⟨time, old | ⟨_, same⟩⟩
    · exact .inl ⟨time, old⟩
    · exact .inr same.symm
  · rintro (⟨time, old⟩ | same)
    · exact ⟨time, .inl old⟩
    · exact ⟨now, .inr ⟨rfl, same.symm⟩⟩

structure TopInv (task : Task) (host : String) (port : UInt16) (events : List (Nat × Wake)) (dials : List Dial)
    (s : Select) : Prop where
  name : s.host = host ∧ s.port = port
  tracks : Worklist.Tracks (permitted task.policy (delivered task host port events)) (dials.map Dial.address) s.queue s.seen
  blocked : s.blocked = true ↔ ∃ address ∈ delivered task host port events, task.policy.isBlocked address.ip = true
  done : ∀ family, s.done.get family = true ↔ Answered events family
  attempts : dials.length = (attemptEnds events).length + s.active.toList.length
  failed : ∀ result ∈ attemptEnds events, ∃ error, result = .error error
  lastError : s.lastError.isSome = true ↔ attemptEnds events ≠ []

structure SelectInv (task : Task) (host : String) (port : UInt16) (events : List (Nat × Wake)) (dials : List Dial)
    (s : Select) : Prop extends TopInv task host port events dials s where
  resting : s.active = none → s.queue = []

structure Report (task : Task) (host : String) (port : UInt16) (events : List (Nat × Wake)) (dials : List Dial)
    (now : Nat) (error : EstablishError) : Prop where
  early : now < task.deadline → (∀ family, Answered events family) ∧
    dials.map Dial.address = (permitted task.policy (delivered task host port events)).eraseDups ∧
    (attemptEnds events).length = dials.length
  failed : ∀ result ∈ attemptEnds events, ∃ cause, result = .error cause
  blocked : error = .blocked → (∃ address ∈ delivered task host port events, task.policy.isBlocked address.ip = true) ∧
    permitted task.policy (delivered task host port events) = []
  dns : ∀ detail, error = .dns detail → delivered task host port events = []
  dial : dials ≠ [] → ∃ cause, error = .dial cause

structure Ordered (task : Task) (host : String) (port : UInt16) (events : List (Nat × Wake)) (dials : List Dial) : Prop where
  arrival : dials.map Dial.address <+: (permitted task.policy (delivered task host port events)).eraseDups
  single : (attemptEnds events).length ≤ dials.length ∧ dials.length ≤ (attemptEnds events).length + 1

def PhaseInv (task : Task) (host : String) (port : UInt16) (events : List (Nat × Wake)) (dials : List Dial) (now : Nat) :
    Phase → Prop
  | .called => events = [] ∧ dials = []
  | .dialOne _ => False
  | .select s => SelectInv task host port events dials s
  | .returned (.ok _) => Ordered task host port events dials
  | .returned (.error error) => Ordered task host port events dials ∧ Report task host port events dials now error

section

variable (task : Task) (host : String) (port : UInt16) (events : List (Nat × Wake)) (dials : List Dial) (s : Select)

theorem top_ordered (inv : TopInv task host port events dials s) : Ordered task host port events dials where
  arrival := Worklist.tracks_taken_prefix _ _ _ _ inv.tracks
  single := by
    have counted := inv.attempts
    cases active : s.active <;> simp [active] at counted <;> omega

theorem nothing_permitted (taken : List SocketAddr) (seen : Finset SocketAddr)
    (tracks : Worklist.Tracks (permitted task.policy (delivered task host port events)) taken [] seen) (none : taken = []) :
    permitted task.policy (delivered task host port events) = [] := by
  have drained := Worklist.tracks_drained _ _ _ tracks
  rw [none] at drained
  apply List.eq_nil_iff_forall_not_mem.mpr
  intro address member
  have kept := List.mem_eraseDups.mpr member
  rw [← drained] at kept
  cases kept

theorem no_attempt (inv : TopInv task host port events dials s) (idle : s.active = none) (unfailed : s.lastError = none) :
    dials = [] := by
  have noEnd : attemptEnds events = [] := by
    by_contra some
    have failed := inv.lastError.mpr some
    simp [unfailed] at failed
  have counted := inv.attempts
  simpa [noEnd, idle] using counted

theorem nothing_delivered (inv : TopInv task host port events dials s) (unblocked : s.blocked ≠ true)
    (empty : permitted task.policy (delivered task host port events) = []) : delivered task host port events = [] := by
  apply List.eq_nil_iff_forall_not_mem.mpr
  intro address member
  by_cases bad : task.policy.isBlocked address.ip = true
  · exact unblocked (inv.blocked.mpr ⟨address, member, bad⟩)
  · have kept : address ∈ permitted task.policy (delivered task host port events) := by
      simp [permitted, member, bad]
    rw [empty] at kept
    cases kept

theorem exhausted_report (now : Nat) (inv : TopInv task host port events dials s) (idle : s.active = none)
    (empty : s.queue = []) (finished : ∀ family, s.done.get family = true) :
    Report task host port events dials now (exhausted task now s) := by
  have tracks := inv.tracks
  rw [empty] at tracks
  have everyEnd : (attemptEnds events).length = dials.length := by
    have counted := inv.attempts
    simp only [idle, Option.toList_none, List.length_nil, Nat.add_zero] at counted
    exact counted.symm
  refine ⟨fun _ => ⟨fun family => (inv.done family).mp (finished family), Worklist.tracks_drained _ _ _ tracks, everyEnd⟩,
    inv.failed, ?_, ?_, ?_⟩
  · intro answered
    cases last : s.lastError with
    | some error => simp [exhausted, last] at answered
    | none =>
        have nothing := no_attempt task host port events dials s inv idle last
        have bad : s.blocked = true := by
          by_contra unblocked
          simp [exhausted, last, unblocked] at answered
        exact ⟨inv.blocked.mp bad, nothing_permitted task host port events _ s.seen tracks (by simp [nothing])⟩
  · intro detail answered
    cases last : s.lastError with
    | some error => simp [exhausted, last] at answered
    | none =>
        have nothing := no_attempt task host port events dials s inv idle last
        have unblocked : s.blocked ≠ true := by
          intro bad
          simp [exhausted, last, bad] at answered
        exact nothing_delivered task host port events dials s inv unblocked
          (nothing_permitted task host port events _ s.seen tracks (by simp [nothing]))
  · intro dialed
    cases last : s.lastError with
    | some error => exact ⟨error, by simp [exhausted, last]⟩
    | none => exact absurd (no_attempt task host port events dials s inv idle last) dialed

theorem deadline_report (now : Nat) (inv : SelectInv task host port events dials s) (late : task.deadline ≤ now) :
    Report task host port events dials now (budgetExhausted task now s) := by
  -- Without an attempt and without a failure nothing was ever queued.
  have untouched : s.active = none → s.lastError = none → dials = [] ∧
      permitted task.policy (delivered task host port events) = [] := by
    intro idle last
    have empty := no_attempt task host port events dials s inv.toTopInv idle last
    have tracks := inv.tracks
    rw [inv.resting idle] at tracks
    exact ⟨empty, nothing_permitted task host port events _ s.seen tracks (by simp [empty])⟩
  refine ⟨fun early => absurd early (by omega), inv.failed, ?_, ?_, ?_⟩
  · intro answered
    cases idle : s.active with
    | some address => simp [budgetExhausted, idle] at answered
    | none =>
        cases last : s.lastError with
        | some error => simp [budgetExhausted, idle, last] at answered
        | none =>
            have bad : s.blocked = true := by
              by_contra unblocked
              simp [budgetExhausted, idle, last, unblocked] at answered
            exact ⟨inv.blocked.mp bad, (untouched idle last).2⟩
  · intro detail answered
    cases idle : s.active with
    | some address => simp [budgetExhausted, idle] at answered
    | none =>
        cases last : s.lastError with
        | some error => simp [budgetExhausted, idle, last] at answered
        | none =>
            have unblocked : s.blocked ≠ true := by
              intro bad
              simp [budgetExhausted, idle, last, bad] at answered
            exact nothing_delivered task host port events dials s inv.toTopInv unblocked (untouched idle last).2
  · intro dialed
    cases idle : s.active with
    | some address => exact ⟨timedOut "DNS and connection budget exhausted", by simp [budgetExhausted, idle]⟩
    | none =>
        cases last : s.lastError with
        | some error => exact ⟨timedOut "DNS and connection budget exhausted", by simp [budgetExhausted, last]⟩
        | none => exact absurd (untouched idle last).1 dialed

theorem turn_inv (now : Nat) (inv : TopInv task host port events dials s) :
    PhaseInv task host port events (dials ++ (turn task now s).2) now (turn task now s).1 := by
  cases active : s.active with
  | some address =>
      simp only [turn, active, List.append_nil]
      exact ⟨inv, by simp [active]⟩
  | none =>
      cases queued : s.queue with
      | nil =>
          by_cases finished : s.done.a = true ∧ s.done.aaaa = true
          · simp only [turn, active, queued, finished, Bool.and_self, if_true, List.append_nil]
            refine ⟨top_ordered task host port events dials s inv, exhausted_report task host port events dials s now inv active queued ?_⟩
            rintro (_ | _)
            · exact finished.1
            · exact finished.2
          · have waiting : (s.done.a && s.done.aaaa) = false := by simpa using finished
            simp only [turn, active, queued, waiting, List.append_nil, Bool.false_eq_true, if_false]
            exact ⟨inv, fun _ => queued⟩
      | cons address queue =>
          simp only [turn, active, queued]
          have tracks := inv.tracks
          rw [queued] at tracks
          refine ⟨⟨inv.name, ?_, inv.blocked, inv.done, ?_, inv.failed, inv.lastError⟩, by simp⟩
          · simpa only [List.map_append, List.map_cons, List.map_nil] using Worklist.tracks_take _ _ _ _ _ tracks
          · have counted := inv.attempts
            simp only [active, Option.toList_none, List.length_nil, Nat.add_zero] at counted
            simp [counted]

end

theorem permitted_snoc (policy : Egress) (addresses : List SocketAddr) (address : SocketAddr) :
    permitted policy (addresses ++ [address]) =
      permitted policy addresses ++ (if policy.isBlocked address.ip then [] else [address]) := by
  by_cases bad : policy.isBlocked address.ip = true <;> simp [permitted, bad]

theorem add_candidate_tracks (policy : Egress) (offered taken : List SocketAddr) (s : Select) (address : SocketAddr)
    (tracks : Worklist.Tracks (permitted policy offered) taken s.queue s.seen)
    (noted : s.blocked = true ↔ ∃ old ∈ offered, policy.isBlocked old.ip = true) :
    ∃ queue seen blocked, addCandidate policy s address = { s with queue, seen, blocked } ∧
      Worklist.Tracks (permitted policy (offered ++ [address])) taken queue seen ∧
      (blocked = true ↔ ∃ old ∈ offered ++ [address], policy.isBlocked old.ip = true) := by
  rw [permitted_snoc]
  by_cases bad : policy.isBlocked address.ip = true
  · refine ⟨s.queue, s.seen, true, by simp [addCandidate, bad], by simpa [bad] using tracks, ?_⟩
    simp [bad]
  · have stillNoted : s.blocked = true ↔ ∃ old ∈ offered ++ [address], policy.isBlocked old.ip = true := by
      rw [noted]
      simp [bad]
    by_cases known : address ∈ s.seen
    · refine ⟨s.queue, s.seen, s.blocked, by simp [addCandidate, bad, known], ?_, stillNoted⟩
      simpa [bad] using Worklist.tracks_known _ _ _ _ address tracks known
    · refine ⟨s.queue ++ [address], insert address s.seen, s.blocked, by simp [addCandidate, bad, known], ?_, stillNoted⟩
      simpa [bad] using Worklist.tracks_fresh _ _ _ _ address tracks known

theorem add_candidates_tracks (policy : Egress) (addresses offered taken : List SocketAddr) (s : Select)
    (tracks : Worklist.Tracks (permitted policy offered) taken s.queue s.seen)
    (noted : s.blocked = true ↔ ∃ old ∈ offered, policy.isBlocked old.ip = true) :
    ∃ queue seen blocked, addCandidates policy addresses s = { s with queue, seen, blocked } ∧
      Worklist.Tracks (permitted policy (offered ++ addresses)) taken queue seen ∧
      (blocked = true ↔ ∃ old ∈ offered ++ addresses, policy.isBlocked old.ip = true) := by
  induction addresses generalizing offered s with
  | nil => exact ⟨s.queue, s.seen, s.blocked, rfl, by simpa using tracks, by simpa using noted⟩
  | cons address addresses ih =>
      obtain ⟨queue, seen, blocked, one, nextTracks, nextNoted⟩ :=
        add_candidate_tracks policy offered taken s address tracks noted
      obtain ⟨lastQueue, lastSeen, lastBlocked, all, lastTracks, lastNoted⟩ :=
        ih (offered ++ [address]) { s with queue, seen, blocked } nextTracks nextNoted
      refine ⟨lastQueue, lastSeen, lastBlocked, ?_, ?_, ?_⟩
      · rw [addCandidates, List.foldl_cons, one]
        exact all
      · simpa only [List.append_assoc, List.singleton_append] using lastTracks
      · simpa only [List.append_assoc, List.singleton_append] using lastNoted

inductive Selects (task : Task) (now : Nat) (s : Select) : Wake → Phase → List Dial → Prop where
  | lookup (family : Family) (phase : Phase) (made : List Dial) (unanswered : s.done.get family = false)
      (turned : turn task now (lookupArm task now s family) = (phase, made)) : Selects task now s (.lookupDone family) phase made
  | connected (stream : Upstream) (address : SocketAddr) (active : s.active = some address) :
      Selects task now s (.attemptDone (.ok stream)) (.returned (.ok stream)) []
  | failed (wake : Wake) (error : IoError) (address : SocketAddr) (phase : Phase) (made : List Dial)
      (active : s.active = some address) (ended : attemptEnd wake = some (.error error))
      (waited : wake = .attemptExpired → s.attemptDeadline ≤ now)
      (turned : turn task now { s with active := none, lastError := some error } = (phase, made)) : Selects task now s wake phase made
  | cut (late : task.deadline ≤ now) :
      Selects task now s .deadlineExpired (.returned (.error (budgetExhausted task now s))) []

theorem select_arm_cases (task : Task) (s : Select) (now : Nat) (wake : Wake) (phase : Phase) (made : List Dial)
    (stepped : selectArm task now s wake = some (phase, made)) : Selects task now s wake phase made := by
  cases wake with
  | call => cases stepped
  | lookupDone family =>
      simp only [selectArm, Option.ite_none_left_eq_some, Option.some.injEq, Bool.not_eq_true] at stepped
      exact .lookup family phase made stepped.1 stepped.2
  | attemptDone result =>
      cases active : s.active with
      | none => simp [selectArm, active] at stepped
      | some address =>
          simp only [selectArm, active, Option.isNone_some, Bool.false_eq_true, if_false] at stepped
          cases result with
          | ok stream =>
              cases stepped
              exact .connected stream address active
          | error error =>
              exact .failed _ error address phase made active rfl (by simp) (Option.some.inj stepped)
  | attemptExpired =>
      cases active : s.active with
      | none => simp [selectArm, active] at stepped
      | some address =>
          simp only [selectArm, active, Option.isNone_some, Bool.false_or, Option.ite_none_left_eq_some, Option.some.injEq,
            decide_eq_true_eq, Nat.not_lt] at stepped
          exact .failed _ _ address phase made active rfl (fun _ => stepped.1) stepped.2
  | deadlineExpired =>
      simp only [selectArm, Option.ite_none_left_eq_some, Option.some.injEq, Prod.mk.injEq, Nat.not_lt] at stepped
      obtain ⟨late, rfl, rfl⟩ := stepped
      exact .cut late

section

variable (task : Task) (host : String) (port : UInt16) (events : List (Nat × Wake)) (dials : List Dial) (s : Select)

theorem delivered_lookup (now : Nat) (family : Family) :
    delivered task host port (events ++ [(now, .lookupDone family)]) = delivered task host port events ++
      (match task.lookup host port family with | .ok addresses => addresses | .error _ => []) := by
  rw [delivered_snoc]
  simp [delivered]

theorem delivered_other (now : Nat) (wake : Wake) (other : ∀ family, wake ≠ .lookupDone family) :
    delivered task host port (events ++ [(now, wake)]) = delivered task host port events := by
  rw [delivered_snoc]
  cases wake with
  | lookupDone family => exact absurd rfl (other family)
  | _ => simp [delivered]

theorem lookup_noted (now : Nat) (family : Family) (inv : SelectInv task host port events dials s) :
    ∃ queue seen blocked errors attemptDeadline,
      lookupArm task now s family = { s with done := s.done.set family true, queue, seen, blocked, errors, attemptDeadline } ∧
      Worklist.Tracks (permitted task.policy (delivered task host port (events ++ [(now, .lookupDone family)])))
        (dials.map Dial.address) queue seen ∧
      (blocked = true ↔ ∃ address ∈ delivered task host port (events ++ [(now, .lookupDone family)]),
        task.policy.isBlocked address.ip = true) := by
  have timer : ∀ r : Select, ∃ attemptDeadline, (if r.active.isSome && !r.queue.isEmpty then
      { r with attemptDeadline := min r.attemptDeadline (share task.deadline now r.queue.length) } else r) =
      { r with attemptDeadline } := by
    intro r
    split
    · exact ⟨_, rfl⟩
    · exact ⟨r.attemptDeadline, rfl⟩
  have named : task.lookup s.host s.port family = task.lookup host port family := by rw [inv.name.1, inv.name.2]
  rw [lookupArm, delivered_lookup]
  dsimp only
  rw [named]
  cases task.lookup host port family with
  | error error =>
      obtain ⟨attemptDeadline, same⟩ := timer { s with done := s.done.set family true, errors := s.errors.set family error.display }
      exact ⟨s.queue, s.seen, s.blocked, _, attemptDeadline, same, by simpa using inv.tracks, by simpa using inv.blocked⟩
  | ok addresses =>
      obtain ⟨queue, seen, blocked, added, tracks, noted⟩ :=
        add_candidates_tracks task.policy addresses _ _ { s with done := s.done.set family true } inv.tracks inv.blocked
      obtain ⟨attemptDeadline, same⟩ := timer (addCandidates task.policy addresses { s with done := s.done.set family true })
      exact ⟨queue, seen, blocked, s.errors, attemptDeadline, same.trans (by rw [added]), tracks, noted⟩

theorem lookup_inv (now : Nat) (family : Family) (inv : SelectInv task host port events dials s) :
    TopInv task host port (events ++ [(now, .lookupDone family)]) dials (lookupArm task now s family) := by
  have ends : attemptEnds (events ++ [(now, .lookupDone family)]) = attemptEnds events := by
    simp [attempt_ends_snoc, attemptEnd]
  have doneEq : ∀ other, (s.done.set family true).get other = true ↔
      Answered (events ++ [(now, .lookupDone family)]) other := by
    intro other
    rw [PerFamily.get_set, answered_snoc]
    by_cases same : other = family
    · simp [same]
    · simp [same, inv.done other, Ne.symm same]
  obtain ⟨queue, seen, blocked, errors, attemptDeadline, same, tracks, noted⟩ :=
    lookup_noted task host port events dials s now family inv
  rw [same]
  exact ⟨inv.name, tracks, noted, doneEq, ends ▸ inv.attempts, ends ▸ inv.failed, ends ▸ inv.lastError⟩

theorem failed_inv (now : Nat) (wake : Wake) (error : IoError) (address : SocketAddr)
    (inv : SelectInv task host port events dials s) (active : s.active = some address)
    (ended : attemptEnd wake = some (.error error)) :
    TopInv task host port (events ++ [(now, wake)]) dials { s with active := none, lastError := some error } := by
  have ends : attemptEnds (events ++ [(now, wake)]) = attemptEnds events ++ [.error error] := by
    simp [attempt_ends_snoc, ended]
  have other : ∀ family, wake ≠ .lookupDone family := by
    intro family same
    simp [same, attemptEnd] at ended
  refine ⟨inv.name, ?_, ?_, ?_, ?_, ?_, ?_⟩
  · rw [delivered_other task host port events now wake other]
    exact inv.tracks
  · rw [delivered_other task host port events now wake other]
    exact inv.blocked
  · intro family
    rw [inv.done family, answered_snoc]
    simp [other family]
  · have counted := inv.attempts
    simp only [active, Option.toList_some, List.length_singleton] at counted
    simp [ends, counted]
  · intro result member
    rw [ends, List.mem_append, List.mem_singleton] at member
    rcases member with old | rfl
    · exact inv.failed result old
    · exact ⟨error, rfl⟩
  · simp [ends]

theorem deadline_inv (now : Nat) (inv : SelectInv task host port events dials s) :
    SelectInv task host port (events ++ [(now, .deadlineExpired)]) dials s := by
  have ends : attemptEnds (events ++ [(now, .deadlineExpired)]) = attemptEnds events := by
    simp [attempt_ends_snoc, attemptEnd]
  have same := delivered_other task host port events now .deadlineExpired (by simp)
  refine ⟨⟨inv.name, by rw [same]; exact inv.tracks, by rw [same]; exact inv.blocked, ?_, by rw [ends]; exact inv.attempts,
    by rw [ends]; exact inv.failed, by rw [ends]; exact inv.lastError⟩, inv.resting⟩
  intro family
  rw [inv.done family, answered_snoc]
  simp

theorem connected_ordered (now : Nat) (stream : Upstream) (address : SocketAddr)
    (inv : SelectInv task host port events dials s) (active : s.active = some address) :
    Ordered task host port (events ++ [(now, .attemptDone (.ok stream))]) dials where
  arrival := by
    rw [delivered_other task host port events now _ (by simp)]
    exact (top_ordered task host port events dials s inv.toTopInv).arrival
  single := by
    have counted := inv.attempts
    simp only [active, Option.toList_some, List.length_singleton] at counted
    simp [attempt_ends_snoc, attemptEnd, counted]

theorem select_step (now : Nat) (wake : Wake) (phase : Phase) (made : List Dial)
    (inv : SelectInv task host port events dials s) (stepped : selectArm task now s wake = some (phase, made)) :
    PhaseInv task host port (events ++ [(now, wake)]) (dials ++ made) now phase := by
  cases select_arm_cases task s now wake phase made stepped with
  | lookup family _ _ _ turned =>
      have next := turn_inv task host port _ dials _ now (lookup_inv task host port events dials s now family inv)
      rw [turned] at next
      exact next
  | connected stream address active =>
      rw [List.append_nil]
      exact connected_ordered task host port events dials s now stream address inv active
  | failed _ error address _ _ active ended _ turned =>
      have next := turn_inv task host port _ dials _ now
        (failed_inv task host port events dials s now wake error address inv active ended)
      rw [turned] at next
      exact next
  | cut late =>
      have held := deadline_inv task host port events dials s now inv
      rw [List.append_nil]
      exact ⟨top_ordered _ _ _ _ _ s held.toTopInv, deadline_report _ _ _ _ _ s now held late⟩

theorem begin_inv (now : Nat) (named : task.target = .domain host port) :
    PhaseInv task host port [(now, .call)] (begin task now).2 now (begin task now).1 := by
  have fresh : TopInv task host port [(now, .call)] []
      ⟨host, port, ⟨false, false⟩, ⟨"", ""⟩, [], ∅, false, none, task.deadline, none⟩ := by
    have nothing : delivered task host port [(now, .call)] = [] := by simp [delivered]
    refine ⟨⟨rfl, rfl⟩, ?_, by simp [nothing], ?_, by simp [attemptEnds, attemptEnd], by simp [attemptEnds, attemptEnd],
      by simp [attemptEnds, attemptEnd]⟩
    · simpa [nothing, permitted] using Worklist.tracks_start
    · rintro (_ | _) <;> simp [PerFamily.get, Answered]
  simpa [begin, named] using turn_inv task host port _ [] _ now fresh

theorem step_inv (state after : State) (event : Nat × Wake) (made : List Dial) (named : task.target = .domain host port)
    (inv : PhaseInv task host port events dials state.now state.phase)
    (stepped : (machine task).step state event = some (after, made)) :
    PhaseInv task host port (events ++ [event]) (dials ++ made) after.now after.phase := by
  obtain ⟨now, wake⟩ := event
  simp only [machine, Option.ite_none_left_eq_some, Option.map_eq_some_iff, Prod.exists, Prod.mk.injEq] at stepped
  obtain ⟨_, phase, _, taken, rfl, rfl⟩ := stepped
  cases phaseEq : state.phase with
  | called =>
      rw [phaseEq] at inv taken
      obtain ⟨rfl, rfl⟩ := inv
      cases wake with
      | call =>
          simp only [arm, Option.some.injEq] at taken
          have first := begin_inv task host port now named
          rw [taken] at first
          simpa using first
      | _ => simp [arm] at taken
  | dialOne address =>
      rw [phaseEq] at inv
      exact inv.elim
  | select s =>
      rw [phaseEq] at inv taken
      exact select_step task host port events dials s now wake phase _ inv taken
  | returned result =>
      rw [phaseEq] at taken
      simp [arm] at taken

end

theorem domain_run (task : Task) (host : String) (port : UInt16) (named : task.target = .domain host port)
    (events : List (Nat × Wake)) (dials : List Dial) (state : State)
    (run : (machine task).Run (start task) events dials state) :
    PhaseInv task host port events dials state.now state.phase :=
  (machine task).run_invariant (start task)
    (fun events dials state => PhaseInv task host port events dials state.now state.phase) ⟨rfl, rfl⟩
    (fun events dials state event after made held stepped =>
      step_inv task host port events dials state after event made named held stepped) events dials state run

theorem phase_ordered (task : Task) (host : String) (port : UInt16) (events : List (Nat × Wake)) (dials : List Dial)
    (now : Nat) (phase : Phase) (inv : PhaseInv task host port events dials now phase) :
    Ordered task host port events dials := by
  cases phase with
  | called =>
      obtain ⟨rfl, rfl⟩ := inv
      exact ⟨by simp [delivered, permitted], by simp [attemptEnds]⟩
  | dialOne address => exact inv.elim
  | select s => exact top_ordered task host port events dials s inv.toTopInv
  | returned result =>
      cases result with
      | ok stream => exact inv
      | error error => exact inv.1

-- Every run of establish for a name: the dials follow the order of arrival
-- without repetition and one at a time, and an error return has its reason in
-- what the lookups delivered and how the attempts ended.
theorem establish_loses_no_address (task : Task) (host : String) (port : UInt16) (named : task.target = .domain host port)
    (events : List (Nat × Wake)) (dials : List Dial) (state : State)
    (run : (machine task).Run (start task) events dials state) :
    Ordered task host port events dials ∧ (dials.map Dial.address).Nodup ∧
    ∀ error, state.phase = .returned (.error error) → Report task host port events dials state.now error := by
  have inv := domain_run task host port named events dials state run
  have ordered := phase_ordered task host port events dials state.now state.phase inv
  refine ⟨ordered, ordered.arrival.sublist.nodup (Worklist.erase_dups_nodup _), ?_⟩
  intro error returned
  rw [returned] at inv
  exact inv.2

-- The A answer mixes a blocked address with a permitted one.
def slowTask : Task where
  policy := .default
  target := .domain "example.test" 80
  lookup host port family :=
    match family with
    | .a => .ok [.v4 (.new 127 0 0 1) port, .v4 (.new 93 184 216 34) port]
    | .aaaa => .error ⟨host, 3, "no records found"⟩
  started := 0
  deadline := millis 10000

def slowEvents : List (Nat × Wake) :=
  [(0, .call), (1, .lookupDone .a), (2, .attemptDone (.error ⟨.connectionRefused, "refused"⟩)), (3, .lookupDone .aaaa)]

theorem establish_loses_no_address_slow : Report slowTask "example.test" 80 slowEvents [⟨.v4 (.new 93 184 216 34) 80, 1⟩] 3
    (.dial ⟨.connectionRefused, "refused"⟩) :=
  (establish_loses_no_address slowTask "example.test" 80 rfl slowEvents _ ⟨3, .returned (.error (.dial ⟨.connectionRefused, "refused"⟩))⟩
    ((machine slowTask).exec_run _ _ _ _ rfl)).2.2 _ rfl

end Establish

end NextSocks5
