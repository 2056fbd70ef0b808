import NextSocks5.Server.Relay

set_option autoImplicit false

namespace NextSocks5

namespace Relay

def moves (outputs : List Output) : List Nat :=
  outputs.filterMap fun output =>
    match output.trace with
    | .read _ | .accepted _ => some output.time
    | _ => none

-- Those of a loop's read-then-write cycle that has not come to its end.
def openMove (dir : Direction) (times : List Nat) (output : Output) : List Nat :=
  if output.dir = dir then
    match output.trace with
    | .read _ | .accepted _ => times ++ [output.time]
    | .counted _ => []
    | .shutdown _ => times
  else times

def openMoves (dir : Direction) (outputs : List Output) : List Nat := outputs.foldl (openMove dir) []

def Quiet (idle : Nat) (history : List Output) (time : Nat) : Prop := ∀ moved ∈ moves history, moved + idle ≤ time

def Settled (idle : Nat) (dir : Direction) (history : List Output) (time : Nat) : Prop :=
  ∀ moved ∈ openMoves dir.other history, moved + idle ≤ time

def EveryTeardown (holds : Direction → List Output → Nat → Prop) (outputs : List Output) : Prop :=
  ∀ before dir time after, outputs = before ++ ⟨time, dir, .shutdown .idle⟩ :: after → holds dir before time

theorem open_moves_append (dir : Direction) (outputs made : List Output) :
    openMoves dir (outputs ++ made) = made.foldl (openMove dir) (openMoves dir outputs) := List.foldl_append

theorem open_moves_other (dir : Direction) (times : List Nat) (time : Nat) (traces : List Trace) :
    (traces.map fun trace => (⟨time, dir, trace⟩ : Output)).foldl (openMove dir.other) times = times := by
  induction traces generalizing times with
  | nil => rfl
  | cons trace traces ih =>
      rw [List.map_cons, List.foldl_cons]
      have kept : openMove dir.other times ⟨time, dir, trace⟩ = times := if_neg (other_ne dir).symm
      rw [kept]
      exact ih times

theorem open_moves_subset (dir : Direction) (outputs : List Output) : openMoves dir outputs ⊆ moves outputs := by
  induction outputs using List.reverseRecOn with
  | nil => simp [openMoves]
  | append_singleton outputs output ih =>
      obtain ⟨time, origin, trace⟩ := output
      rw [open_moves_append]
      simp only [List.foldl_cons, List.foldl_nil, openMove, moves, List.filterMap_append]
      intro moved member
      rw [List.mem_append]
      split at member
      · cases trace with
        | counted n => cases member
        | shutdown how => exact .inl (ih member)
        | _ =>
            rcases List.mem_append.mp member with old | new
            · exact .inl (ih old)
            · exact .inr (by simpa using new)
      · exact .inl (ih member)

-- The shared stamp covers every movement but those of the open cycles.
structure ActivityInv (outputs : List Output) (s : State) : Prop where
  past : s.lastActivity ≤ s.now
  stamped : ∀ moved ∈ moves outputs, moved ≤ s.now ∧ (moved ≤ s.lastActivity ∨ ∃ dir, moved ∈ openMoves dir outputs)
  resting : ∀ dir since, (s.half dir).phase = .reading since → openMoves dir outputs = []

theorem moves_append (outputs made : List Output) : moves (outputs ++ made) = moves outputs ++ moves made := List.filterMap_append

inductive Moved (time : Nat) (dir : Direction) (outputs made : List Output) (stamp later : Nat) (half next : Half) : Prop where
  | silent (nothing : moves made = []) (cycle : openMoves dir (outputs ++ made) = openMoves dir outputs) (same : later = stamp)
      (before : ∀ since, next.phase = .reading since → ∃ since, half.phase = .reading since)
  | inside (one : moves made = [time]) (cycle : openMoves dir (outputs ++ made) = openMoves dir outputs ++ [time])
      (same : later = stamp) (writing : ∀ since, next.phase ≠ .reading since)
  | closing (one : moves made = [time]) (cycle : openMoves dir (outputs ++ made) = []) (noted : later = time)

theorem turns_moved (idle time stamp later : Nat) (dir : Direction) (outputs : List Output) (half next : Half) (traces : List Trace)
    (turned : Turns idle time stamp half next later traces) :
    Moved time dir outputs (traces.map fun trace => ⟨time, dir, trace⟩) stamp later half next := by
  cases turned with
  | read since n reading _ _ => exact .inside rfl (by simp [open_moves_append, openMove]) rfl (by simp)
  | eof since reading _ => exact .silent rfl (by simp [open_moves_append, openMove]) rfl (fun _ _ => ⟨since, reading⟩)
  | readFailed since reading => exact .silent rfl (by simp) rfl (fun _ _ => ⟨since, reading⟩)
  | stale since reading _ _ => exact .silent rfl (by simp [open_moves_append, openMove]) rfl (fun _ _ => ⟨since, reading⟩)
  | active since reading _ _ => exact .silent rfl (by simp) rfl (fun _ _ => ⟨since, reading⟩)
  | accept since n k rest _ _ => exact .inside rfl (by simp [open_moves_append, openMove]) rfl (by simp)
  | complete since n rest _ => exact .closing rfl (by simp [open_moves_append, openMove]) rfl
  | writeFailed since n rest _ => exact .silent rfl (by simp) rfl (by simp)

section

variable (idle : Nat) (outputs : List Output) (s after : State) (event : Event) (made : List Output)

theorem step_moved (stepped : step idle s event = some (after, made)) :
    s.now ≤ event.time ∧ after.now = event.time ∧
    Moved event.time event.dir outputs made s.lastActivity after.lastActivity (s.half event.dir) (after.half event.dir) ∧
    after.half event.dir.other = s.half event.dir.other ∧
    openMoves event.dir.other (outputs ++ made) = openMoves event.dir.other outputs := by
  obtain ⟨later, half, stamp, traces, turned, rfl, now, stampEq, halfEq, otherEq⟩ := step_cases idle s after event made stepped
  refine ⟨later, now, ?_, otherEq, ?_⟩
  · rw [stampEq, halfEq]
    exact turns_moved idle event.time s.lastActivity stamp event.dir outputs (s.half event.dir) half traces
      (copy_half_turns _ _ _ _ _ _ _ _ turned)
  · rw [open_moves_append]
    exact open_moves_other event.dir _ event.time traces

theorem resting_step (inv : ActivityInv outputs s) (stepped : step idle s event = some (after, made)) (dir : Direction) (since : Nat)
    (reading : (after.half dir).phase = .reading since) : openMoves dir (outputs ++ made) = [] := by
  obtain ⟨_, _, moved, same, kept⟩ := step_moved idle outputs s after event made stepped
  rcases direction_cases event.dir dir with rfl | rfl
  · cases moved with
    | silent _ cycle _ before =>
        obtain ⟨earlier, was⟩ := before since reading
        rw [cycle]
        exact inv.resting event.dir earlier was
    | inside _ _ _ writing => exact absurd reading (writing since)
    | closing _ cycle _ => exact cycle
  · rw [same] at reading
    rw [kept]
    exact inv.resting _ since reading

theorem stamped_step (inv : ActivityInv outputs s) (stepped : step idle s event = some (after, made)) (time : Nat)
    (member : time ∈ moves (outputs ++ made)) :
    time ≤ after.now ∧ (time ≤ after.lastActivity ∨ ∃ dir, time ∈ openMoves dir (outputs ++ made)) := by
  obtain ⟨later, now, moved, _, kept⟩ := step_moved idle outputs s after event made stepped
  have past := inv.past
  rw [moves_append] at member
  cases moved with
  | silent nothing cycle same _ =>
      rw [nothing, List.append_nil] at member
      obtain ⟨seen, stamped | ⟨dir, unclosed⟩⟩ := inv.stamped time member
      · exact ⟨by omega, .inl (by omega)⟩
      · refine ⟨by omega, .inr ⟨dir, ?_⟩⟩
        rcases direction_cases event.dir dir with rfl | rfl
        · rwa [cycle]
        · rwa [kept]
  | inside one cycle same _ =>
      rw [one, List.mem_append, List.mem_singleton] at member
      rcases member with old | rfl
      · obtain ⟨seen, stamped | ⟨dir, unclosed⟩⟩ := inv.stamped time old
        · exact ⟨by omega, .inl (by omega)⟩
        · refine ⟨by omega, .inr ⟨dir, ?_⟩⟩
          rcases direction_cases event.dir dir with rfl | rfl
          · rw [cycle]
            exact List.mem_append_left _ unclosed
          · rwa [kept]
      · exact ⟨by omega, .inr ⟨event.dir, by rw [cycle]; simp⟩⟩
  | closing one cycle noted =>
      rw [one, List.mem_append, List.mem_singleton] at member
      have seen : time ≤ event.time := by
        rcases member with old | rfl
        · exact (inv.stamped time old).1.trans later
        · exact Nat.le_refl _
      exact ⟨by omega, .inl (by omega)⟩

theorem activity_step (inv : ActivityInv outputs s) (stepped : step idle s event = some (after, made)) :
    ActivityInv (outputs ++ made) after where
  past := by
    have past := inv.past
    obtain ⟨later, now, moved, _, _⟩ := step_moved idle outputs s after event made stepped
    cases moved <;> omega
  stamped := stamped_step idle outputs s after event made inv stepped
  resting := resting_step idle outputs s after event made inv stepped

end

-- A loop that finds the stamp stale has nothing of its own to answer for.
theorem teardown_verdict (idle : Nat) (outputs : List Output) (s after : State) (event : Event) (made : List Output)
    (inv : ActivityInv outputs s) (stepped : step idle s event = some (after, made)) (dir : Direction) (time : Nat)
    (torn : ⟨time, dir, .shutdown .idle⟩ ∈ made) :
    made = [⟨time, dir, .shutdown .idle⟩] ∧ (Quiet idle outputs time ↔ Settled idle dir outputs time) := by
  obtain ⟨later, half, stamp, traces, turned, rfl, _, _, _, _⟩ := step_cases idle s after event made stepped
  obtain ⟨trace, member, same⟩ := List.mem_map.mp torn
  cases same
  cases copy_half_turns _ _ _ _ _ _ _ _ turned with
  | stale since reading _ stale =>
      refine ⟨rfl, fun quiet moved member => quiet moved (open_moves_subset _ _ member), ?_⟩
      intro settled moved member
      have past := inv.past
      rcases (inv.stamped moved member).2 with stamped | ⟨dir, unclosed⟩
      · omega
      · rcases direction_cases event.dir dir with rfl | rfl
        · rw [inv.resting _ since reading] at unclosed
          cases unclosed
        · exact settled moved unclosed
  | _ => simp at member

def Judged (idle : Nat) (outputs : List Output) : Prop :=
  ∀ before dir time after, outputs = before ++ ⟨time, dir, .shutdown .idle⟩ :: after →
    (Quiet idle before time ↔ Settled idle dir before time)

theorem judged_append (idle : Nat) (outputs made : List Output) (judged : Judged idle outputs)
    (verdict : ∀ dir time, ⟨time, dir, .shutdown .idle⟩ ∈ made →
      made = [⟨time, dir, .shutdown .idle⟩] ∧ (Quiet idle outputs time ↔ Settled idle dir outputs time)) :
    Judged idle (outputs ++ made) := by
  intro before dir time rest cut
  rcases List.append_eq_append_iff.mp cut with ⟨middle, rfl, tail⟩ | ⟨middle, rfl, tail⟩
  · -- The teardown is the one of this step.
    obtain ⟨alone, settled⟩ := verdict dir time (by simp [tail])
    have nothing : middle = [] := by
      rw [alone] at tail
      cases middle with
      | nil => rfl
      | cons first middle => simp at tail
    simpa [nothing] using settled
  · cases middle with
    | nil =>
        have torn : ⟨time, dir, .shutdown .idle⟩ ∈ made := by simp at tail; simp [← tail]
        simpa using (verdict dir time torn).2
    | cons first middle =>
        simp only [List.cons_append, List.cons.injEq] at tail
        obtain ⟨rfl, _⟩ := tail
        exact judged before dir time middle rfl

theorem judged_run (idle now : Nat) (up down : Bytes) (events : List Event) (outputs : List Output) (s : State)
    (run : (machine idle).Run (start now up down) events outputs s) : ActivityInv outputs s ∧ Judged idle outputs := by
  refine (machine idle).run_invariant (start now up down) (fun _ outputs s => ActivityInv outputs s ∧ Judged idle outputs)
    ⟨⟨Nat.le_refl _, by simp [moves], by simp [openMoves]⟩, by simp [Judged]⟩ ?_ events outputs s run
  rintro _ outputs s event after made ⟨inv, judged⟩ stepped
  exact ⟨activity_step idle outputs s after event made inv stepped,
    judged_append idle outputs made judged fun dir time torn => teardown_verdict idle outputs s after event made inv stepped dir time torn⟩

-- Every run of the relay: its teardowns find both directions quiet exactly
-- when they find nothing recent in the open cycle of the other loop.
theorem idle_teardowns_quiet_iff (idle now : Nat) (up down : Bytes) (events : List Event) (outputs : List Output) (s : State)
    (run : (machine idle).Run (start now up down) events outputs s) :
    EveryTeardown (fun _ history time => Quiet idle history time) outputs ↔
      EveryTeardown (fun dir history time => Settled idle dir history time) outputs := by
  have judged := (judged_run idle now up down events outputs s run).2
  constructor
  · intro quiet before dir time after cut
    exact (judged before dir time after cut).mp (quiet before dir time after cut)
  · intro settled before dir time after cut
    exact (judged before dir time after cut).mpr (settled before dir time after cut)

-- The download reads at 50 and has part of it accepted at 90; the idle upload
-- finds the stamp of the start at 100 and shuts the upstream down.
def slowDownload : List Event :=
  [⟨50, .down, .read 5⟩, ⟨90, .down, .accept 2⟩, ⟨100, .up, .idleElapsed⟩]

def slowDownloadOutputs : List Output :=
  [⟨50, .down, .read 5⟩, ⟨90, .down, .accepted [1, 2]⟩, ⟨100, .up, .shutdown .idle⟩]

theorem slow_download_run : ∃ s, (machine 100).Run (start 0 [9] [1, 2, 3, 4, 5]) slowDownload slowDownloadOutputs s :=
  ⟨_, Machine.exec_run _ _ _ _ _ rfl⟩

theorem slow_download_moved : ¬ EveryTeardown (fun _ history time => Quiet 100 history time) slowDownloadOutputs := by
  intro quiet
  have late := quiet [⟨50, .down, .read 5⟩, ⟨90, .down, .accepted [1, 2]⟩] .up 100 [] rfl 90 (by simp [moves])
  omega

theorem idle_teardowns_quiet_iff_slow : ¬ EveryTeardown (fun dir history time => Settled 100 dir history time) slowDownloadOutputs := by
  obtain ⟨s, run⟩ := slow_download_run
  rw [← idle_teardowns_quiet_iff 100 0 [9] [1, 2, 3, 4, 5] slowDownload slowDownloadOutputs s run]
  exact slow_download_moved

theorem idle_teardown_truncates : ¬ ∀ idle now up down events outputs s, 0 < idle →
    (machine idle).Run (start now up down) events outputs s →
    EveryTeardown (fun _ history time => Quiet idle history time) outputs := by
  intro always
  obtain ⟨s, run⟩ := slow_download_run
  exact slow_download_moved (always 100 0 _ _ _ _ s (by decide) run)

end Relay

end NextSocks5
