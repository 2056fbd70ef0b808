import NextSocks5.Server.Traffic

set_option autoImplicit false

namespace NextSocks5

namespace Udp

def relevant (a : Association) (s : State) : Wake → Bool
  | .datagram d => isClient a s d.src || decide (d.src ∈ s.knownTargets)
  | _ => false

-- The association as time passes: an instant is reached with nothing to handle, or a wake is handled at it.
def timed (a : Association) : Machine State (Nat × Option Wake) Output where
  step s event :=
    match event.2 with
    | some wake => (machine a).step s (event.1, wake)
    | none => if !s.running || event.1 < s.now then none else some ({ s with now := event.1 }, [])

-- With a history variable: when the last datagram of the client or of a known target was handled.
def observed (a : Association) : Machine (State × Nat) (Nat × Option Wake) Output where
  step s event :=
    ((timed a).step s.1 event).map fun (after, made) =>
      ((after, if event.2.any (relevant a s.1) then after.now else s.2), made)

-- No instant goes by at which the timer arm of the select would have been taken.
def Punctual (a : Association) (s : State) (event : Nat × Option Wake) : Prop :=
  ∀ fired < event.1, (machine a).step s (fired, .idleElapsed) = none

-- The loop is in time now, and however long it goes on waiting.
structure Reclaimed (a : Association) (s : State × Nat) : Prop where
  reached : s.1.running = true → s.1.now ≤ s.2 + a.idle
  waiting : ∀ now after made, Punctual a s.1 (now, none) → (timed a).step s.1 (now, none) = some (after, made) →
    after.now ≤ s.2 + a.idle

def Wake.Ends : Wake → Prop
  | .recvFailed | .idleElapsed | .control true | .shutdown true => True
  | _ => False

-- An event that restarts the idle window and is no datagram of the client or a known target.
def Prolongs (a : Association) (s : State × Nat) (event : Nat × Option Wake) : Prop :=
  match event.2 with
  | some wake => ¬ wake.Ends ∧ relevant a s.1 wake = false ∧ s.2 < event.1
  | none => False

theorem idle_ends (a : Association) (s : State) (running : s.running = true) (since : s.now ≤ s.waitingSince + a.idle) :
    (machine a).step s (s.waitingSince + a.idle, .idleElapsed) = some (teardown a { s with now := s.waitingSince + a.idle }) := by
  simp [machine, running, handle, Nat.not_lt.mpr since]

theorem idle_waits (a : Association) (s : State) (fired : Nat) (early : fired < s.waitingSince + a.idle) :
    (machine a).step s (fired, .idleElapsed) = none := by
  simp [machine, handle, early]

theorem timed_quiet (a : Association) (s after : State) (now : Nat) (made : List Output) :
    (timed a).step s (now, none) = some (after, made) ↔
      s.running = true ∧ s.now ≤ now ∧ after = { s with now := now } ∧ made = [] := by
  cases running : s.running with
  | false => simp [timed, running]
  | true =>
      simp only [timed, running, Bool.not_true, Bool.false_or, decide_eq_true_eq, Option.ite_none_left_eq_some, Nat.not_lt,
        Option.some.injEq, Prod.mk.injEq, true_and]
      constructor <;> (rintro ⟨ordered, rfl, rfl⟩; exact ⟨ordered, rfl, rfl⟩)

def Waiting (a : Association) (s : State) : Prop :=
  s.running = true → s.waitingSince ≤ s.now ∧ s.now ≤ s.waitingSince + a.idle

-- The timer arm itself bounds how far time passes.
theorem punctual_iff (a : Association) (s : State) (event : Nat × Option Wake) (running : s.running = true)
    (waiting : Waiting a s) : Punctual a s event ↔ event.1 ≤ s.waitingSince + a.idle := by
  constructor
  · intro punctual
    by_contra late
    have fires := idle_ends a s running (waiting running).2
    rw [punctual _ (Nat.lt_of_not_le late)] at fires
    cases fires
  · intro early fired before
    exact idle_waits a s fired (Nat.lt_of_lt_of_le before early)

theorem reclaimed_iff (a : Association) (s : State × Nat) (waiting : Waiting a s.1) :
    Reclaimed a s ↔ (s.1.running = true → s.1.waitingSince ≤ s.2) := by
  constructor
  · intro reclaimed running
    have punctual := (punctual_iff a s.1 (s.1.waitingSince + a.idle, none) running waiting).mpr (Nat.le_refl _)
    have passed := (timed_quiet a s.1 _ _ []).mpr ⟨running, (waiting running).2, rfl, rfl⟩
    exact Nat.le_of_add_le_add_right (reclaimed.waiting _ _ _ punctual passed)
  · intro fresh
    refine ⟨?_, ?_⟩
    · intro running
      exact Nat.le_trans (waiting running).2 (Nat.add_le_add_right (fresh running) a.idle)
    · intro now after made punctual passed
      obtain ⟨running, _, rfl, _⟩ := (timed_quiet a s.1 after now made).mp passed
      have bound := (punctual_iff a s.1 (now, none) running waiting).mp punctual
      exact Nat.le_trans bound (Nat.add_le_add_right (fresh running) a.idle)

theorem foreign_datagram (a : Association) (s : State) (d : Arrival) (foreign : relevant a s (.datagram d) = false) :
    onDatagram a s d = (s, []) := by
  simp only [relevant, Bool.or_eq_false_iff, decide_eq_false_iff_not] at foreign
  simp [onDatagram, foreign.1, foreign.2]

theorem step_waits (a : Association) (s after : State) (event : Nat × Wake) (made : List Output)
    (stepped : (machine a).step s event = some (after, made)) :
    (event.2.Ends ∧ after.running = false) ∨
    (¬ event.2.Ends ∧ after.waitingSince = after.now ∧ (relevant a s event.2 = false → after.running = true ∧ after.now = event.1)) := by
  have running := running_before a s after event made stepped
  obtain ⟨now, wake⟩ := event
  simp only [machine, Option.ite_none_left_eq_some] at stepped
  obtain ⟨_, handled⟩ := stepped
  cases wake with
  | datagram d =>
      right
      simp only [handle, Option.some.injEq, Prod.mk.injEq] at handled
      obtain ⟨rfl, _⟩ := handled
      refine ⟨id, rfl, ?_⟩
      intro foreign
      rw [foreign_datagram a { s with now := now } d foreign]
      exact ⟨running, rfl⟩
  | recvFailed =>
      cases handled
      exact .inl ⟨trivial, rfl⟩
  | idleElapsed =>
      simp only [handle, Option.ite_none_left_eq_some] at handled
      obtain ⟨_, done⟩ := handled
      cases done
      exact .inl ⟨trivial, rfl⟩
  | control closed =>
      cases closed with
      | true =>
          cases handled
          exact .inl ⟨trivial, rfl⟩
      | false =>
          cases handled
          exact .inr ⟨id, rfl, fun _ => ⟨running, rfl⟩⟩
  | shutdown closing =>
      cases closing with
      | true =>
          cases handled
          exact .inl ⟨trivial, rfl⟩
      | false =>
          cases handled
          exact .inr ⟨id, rfl, fun _ => ⟨running, rfl⟩⟩

theorem observed_step (a : Association) (s after : State × Nat) (event : Nat × Option Wake) (made : List Output)
    (stepped : (observed a).step s event = some (after, made)) :
    (timed a).step s.1 event = some (after.1, made) ∧ after.2 = if event.2.any (relevant a s.1) then after.1.now else s.2 := by
  simp only [observed, Option.map_eq_some_iff, Prod.exists, Prod.mk.injEq] at stepped
  obtain ⟨next, _, taken, rfl, rfl⟩ := stepped
  exact ⟨taken, rfl⟩

theorem step_waiting (a : Association) (s after : State × Nat) (event : Nat × Option Wake) (made : List Output)
    (waiting : Waiting a s.1) (punctual : Punctual a s.1 event) (stepped : (observed a).step s event = some (after, made)) :
    Waiting a after.1 := by
  obtain ⟨taken, _⟩ := observed_step a s after event made stepped
  obtain ⟨now, wake⟩ := event
  intro on
  cases wake with
  | none =>
      obtain ⟨running, ordered, same, _⟩ := (timed_quiet a s.1 after.1 now made).mp taken
      have bound := (punctual_iff a s.1 (now, none) running waiting).mp punctual
      rw [same]
      exact ⟨Nat.le_trans (waiting running).1 ordered, bound⟩
  | some wake =>
      rcases step_waits a s.1 after.1 (now, wake) made taken with ⟨_, stopped⟩ | ⟨_, since, _⟩
      · rw [stopped] at on
        cases on
      · rw [since]
        exact ⟨Nat.le_refl _, Nat.le_add_right _ _⟩

theorem step_reclaimed (a : Association) (s after : State × Nat) (event : Nat × Option Wake) (made : List Output)
    (waiting : Waiting a s.1) (punctual : Punctual a s.1 event) (reclaimed : Reclaimed a s)
    (stepped : (observed a).step s event = some (after, made)) : Reclaimed a after ↔ ¬ Prolongs a s event := by
  have later := step_waiting a s after event made waiting punctual stepped
  obtain ⟨taken, last⟩ := observed_step a s after event made stepped
  rw [reclaimed_iff a after later]
  obtain ⟨now, wake⟩ := event
  cases wake with
  | none =>
      obtain ⟨running, _, same, _⟩ := (timed_quiet a s.1 after.1 now made).mp taken
      have fresh := (reclaimed_iff a s waiting).mp reclaimed running
      simpa [Prolongs, same, last, running] using fresh
  | some wake =>
      rcases step_waits a s.1 after.1 (now, wake) made taken with ⟨ends, stopped⟩ | ⟨continues, since, quiet⟩
      · have vacuous : ¬ Prolongs a s (now, some wake) := fun prolongs => prolongs.1 ends
        simp [stopped, vacuous]
      · cases seen : relevant a s.1 wake with
        | true =>
            have heard : ¬ Prolongs a s (now, some wake) := fun prolongs => by
              simp only [Prolongs, seen] at prolongs
              exact Bool.noConfusion prolongs.2.1
            simp [since, last, seen, heard]
        | false =>
            obtain ⟨running, instant⟩ := quiet seen
            simp [running, since, instant, last, Prolongs, continues, seen]

-- In every state of a run in which the timer is punctual the loop stops waiting in time
-- exactly when no step restarted the window for an irrelevant event.
theorem idle_reclaimed_iff (a : Association) (started : Nat) (events : List (Nat × Option Wake)) (outputs : List Output) (s : State × Nat)
    (run : (observed a).Run (start started, started) events outputs s)
    (punctual : (observed a).Throughout (start started, started) (fun s event => Punctual a s.1 event) events) :
    (observed a).Always (start started, started) (Reclaimed a) events ↔
      (observed a).Throughout (start started, started) (fun s event => ¬ Prolongs a s event) events := by
  have waiting : Waiting a (start started) := fun _ => ⟨Nat.le_refl _, Nat.le_add_right _ _⟩
  have initial : Reclaimed a (start started, started) := (reclaimed_iff a _ waiting).mpr fun _ => Nat.le_refl started
  exact Machine.always_iff_throughout (observed a) _ (fun s => Waiting a s.1) (Reclaimed a) _ _ ⟨waiting, initial⟩
    (fun s event after made held fair stepped => step_waiting a s after event made held fair stepped)
    (fun s event after made held fair kept stepped => step_reclaimed a s after event made held fair kept stepped)
    events outputs s run punctual

theorem idle_reclaimed_query : ∃ outputs s,
    (observed query53).Run (start 0, 0)
      [(10, some (.datagram queryArrival)), (15, some (.control false)), (millis 60000, none)] outputs s ∧
    s.1.running = true ∧ (observed query53).Always (start 0, 0) (Reclaimed query53)
      [(10, some (.datagram queryArrival)), (15, some (.control false)), (millis 60000, none)] := by
  have first := (observed query53).exec_run (start 0, 0) [(10, some (.datagram queryArrival))] _ _ rfl
  have second := (observed query53).exec_run (start 0, 0) [(10, some (.datagram queryArrival)), (15, some (.control false))] _ _ rfl
  have run := (observed query53).exec_run (start 0, 0)
    [(10, some (.datagram queryArrival)), (15, some (.control false)), (millis 60000, none)] _ _ rfl
  have steps (ok : State × Nat → Nat × Option Wake → Prop) :=
    (Machine.throughout_snoc (observed query53) (start 0, 0) _ ok _ _ second (millis 60000, none)).trans
      (and_congr_left' ((Machine.throughout_snoc (observed query53) (start 0, 0) _ ok _ _ first (15, some (.control false))).trans
        (and_congr_left' (Machine.throughout_snoc (observed query53) (start 0, 0) _ ok [] [] .idle (10, some (.datagram queryArrival))))))
  refine ⟨_, _, run, rfl, (idle_reclaimed_iff query53 0 _ _ _ run ?_).mpr ?_⟩
  · refine (steps _).mpr ⟨⟨⟨Machine.throughout_nil _ _ _, ?_⟩, ?_⟩, ?_⟩ <;>
      exact fun fired before => idle_waits query53 _ fired (Nat.lt_of_lt_of_le before (by decide))
  · refine (steps _).mpr ⟨⟨⟨Machine.throughout_nil _ _ _, ?_⟩, ?_⟩, ?_⟩
    · exact fun prolongs => Bool.noConfusion prolongs.2.1
    · exact fun prolongs => Nat.lt_irrefl _ prolongs.2.2
    · exact id

def chatter : List (Nat × Option Wake) :=
  [(millis 40000, some (.control false)), (millis 80000, some (.control false)), (millis 80001, none)]

-- A byte on the control connection every 40 s keeps the association for good.
theorem control_bytes_prolong : ¬ ∀ a started events outputs s, 0 < a.idle →
    (observed a).Run (start started, started) events outputs s →
    (observed a).Throughout (start started, started) (fun s event => Punctual a s.1 event) events →
    (observed a).Always (start started, started) (Reclaimed a) events := by
  intro always
  have first := (observed query53).exec_run (start 0, 0) [(millis 40000, some (.control false))] _ _ rfl
  have second := (observed query53).exec_run (start 0, 0)
    [(millis 40000, some (.control false)), (millis 80000, some (.control false))] _ _ rfl
  have run := (observed query53).exec_run (start 0, 0) chatter [] _ rfl
  have punctual : (observed query53).Throughout (start 0, 0) (fun s event => Punctual query53 s.1 event) chatter := by
    refine (Machine.throughout_snoc (observed query53) (start 0, 0) _ _ _ _ second _).mpr ⟨?_, ?_⟩
    · refine (Machine.throughout_snoc (observed query53) (start 0, 0) _ _ _ _ first _).mpr ⟨?_, ?_⟩
      · refine (Machine.throughout_snoc (observed query53) (start 0, 0) _ _ [] [] .idle _).mpr ⟨Machine.throughout_nil _ _ _, ?_⟩
        exact fun fired before => idle_waits query53 _ fired (Nat.lt_of_lt_of_le before (by decide))
      · exact fun fired before => idle_waits query53 _ fired (Nat.lt_of_lt_of_le before (by decide))
    · exact fun fired before => idle_waits query53 _ fired (Nat.lt_of_lt_of_le before (by decide))
  have reclaimed := always query53 0 chatter [] _ (by decide) run punctual chatter [] [] _ (by simp) run
  have late := reclaimed.reached rfl
  exact absurd late (by decide)

end Udp

end NextSocks5
