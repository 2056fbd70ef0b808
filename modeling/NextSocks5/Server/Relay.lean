import NextSocks5.Library.Machine
import NextSocks5.Net

set_option autoImplicit false

namespace NextSocks5

namespace Relay

def relayBuf : Nat := 64 * 1024

inductive Direction where
  | up
  | down
deriving DecidableEq, Repr

def Direction.other : Direction → Direction
  | .up => .down
  | .down => .up

inductive Ended where
  | eof
  | idle
  | readFailed
  | writeFailed
deriving DecidableEq, Repr

-- `rest` of the `n` bytes is not accepted yet; both timers run from `since`.
inductive Phase where
  | reading (since : Nat)
  | writing (since n : Nat) (rest : Bytes)
  | ended (how : Ended)
deriving DecidableEq, Repr

structure Half where
  source : Bytes
  phase : Phase
deriving DecidableEq, Repr

structure State where
  now : Nat
  lastActivity : Nat
  up : Half
  down : Half
deriving DecidableEq, Repr

def State.half (s : State) : Direction → Half
  | .up => s.up
  | .down => s.down

def State.setHalf (s : State) (dir : Direction) (half : Half) : State :=
  match dir with
  | .up => { s with up := half }
  | .down => { s with down := half }

inductive Act where
  | read (n : Nat)
  | eof
  | readFailed
  | idleElapsed
  | accept (k : Nat)
  | writeFailed
  | writeExpired
deriving DecidableEq, Repr

structure Event where
  time : Nat
  dir : Direction
  act : Act
deriving DecidableEq, Repr

inductive Trace where
  | read (n : Nat)
  | accepted (bytes : Bytes)
  | counted (n : Nat)
  | shutdown (how : Ended)
deriving DecidableEq, Repr

structure Output where
  time : Nat
  dir : Direction
  trace : Trace
deriving DecidableEq, Repr

abbrev Turn := Half × Nat × List Trace

def onReading (idle now lastActivity since : Nat) (half : Half) : Act → Option Turn
  | .read n =>
      if 0 < n ∧ n ≤ relayBuf ∧ n ≤ half.source.length then
        some (⟨half.source.drop n, .writing now n (half.source.take n)⟩, lastActivity, [.read n])
      else none
  | .eof =>
      if half.source = [] then some ({ half with phase := .ended .eof }, lastActivity, [.shutdown .eof]) else none
  | .readFailed => some ({ half with phase := .ended .readFailed }, lastActivity, [])
  | .idleElapsed =>
      if now < since + idle then none
      -- Both directions must have been idle for the window.
      else if idle ≤ now - lastActivity then some ({ half with phase := .ended .idle }, lastActivity, [.shutdown .idle])
      else some ({ half with phase := .reading now }, lastActivity, [])
  | _ => none

def onWriting (idle now lastActivity since n : Nat) (rest : Bytes) (half : Half) : Act → Option Turn
  | .accept k =>
      if 0 < k ∧ k < rest.length then
        some ({ half with phase := .writing since n (rest.drop k) }, lastActivity, [.accepted (rest.take k)])
      else if k = rest.length then
        -- The write is complete: only now is the activity noted and counted.
        some ({ half with phase := .reading now }, now, [.accepted rest, .counted n])
      else none
  | .writeFailed => some ({ half with phase := .ended .writeFailed }, lastActivity, [])
  | .writeExpired =>
      if now < since + idle then none else some ({ half with phase := .ended .writeFailed }, lastActivity, [])
  | _ => none

def copyHalf (idle now lastActivity : Nat) (half : Half) (act : Act) : Option Turn :=
  match half.phase with
  | .reading since => onReading idle now lastActivity since half act
  | .writing since n rest => onWriting idle now lastActivity since n rest half act
  | .ended _ => none

def step (idle : Nat) (s : State) (event : Event) : Option (State × List Output) :=
  if event.time < s.now then none
  else
    (copyHalf idle event.time s.lastActivity (s.half event.dir) event.act).map fun (half, lastActivity, traces) =>
      ({ s with now := event.time, lastActivity }.setHalf event.dir half, traces.map fun trace => ⟨event.time, event.dir, trace⟩)

def machine (idle : Nat) : Machine State Event Output := ⟨step idle⟩

def start (now : Nat) (up down : Bytes) : State := ⟨now, now, ⟨up, .reading now⟩, ⟨down, .reading now⟩⟩

def Phase.Over : Phase → Prop
  | .ended _ => True
  | _ => False

instance (phase : Phase) : Decidable phase.Over := by
  cases phase <;> unfold Phase.Over <;> infer_instance

def State.Done (s : State) : Prop := s.up.phase.Over ∧ s.down.phase.Over

instance (s : State) : Decidable s.Done := by
  unfold State.Done
  infer_instance

@[simp] theorem half_set_half (s : State) (dir : Direction) (half : Half) : (s.setHalf dir half).half dir = half := by
  cases dir <;> rfl

@[simp] theorem half_set_other (s : State) (dir : Direction) (half : Half) :
    (s.setHalf dir half).half dir.other = s.half dir.other := by
  cases dir <;> rfl

@[simp] theorem set_half_now (s : State) (dir : Direction) (half : Half) : (s.setHalf dir half).now = s.now := by
  cases dir <;> rfl

@[simp] theorem set_half_last_activity (s : State) (dir : Direction) (half : Half) :
    (s.setHalf dir half).lastActivity = s.lastActivity := by
  cases dir <;> rfl

theorem direction_cases (dir other : Direction) : other = dir ∨ other = dir.other := by
  cases dir <;> cases other <;> simp [Direction.other]

theorem other_ne (dir : Direction) : dir.other ≠ dir := by
  cases dir <;> simp [Direction.other]

theorem step_cases (idle : Nat) (s after : State) (event : Event) (made : List Output)
    (stepped : step idle s event = some (after, made)) :
    s.now ≤ event.time ∧ ∃ half lastActivity traces,
      copyHalf idle event.time s.lastActivity (s.half event.dir) event.act = some (half, lastActivity, traces) ∧
      made = traces.map (fun trace => ⟨event.time, event.dir, trace⟩) ∧ after.now = event.time ∧
      after.lastActivity = lastActivity ∧ after.half event.dir = half ∧ after.half event.dir.other = s.half event.dir.other := by
  simp only [step, Option.ite_none_left_eq_some, Option.map_eq_some_iff, Prod.exists, Prod.mk.injEq, Nat.not_lt] at stepped
  obtain ⟨later, half, lastActivity, traces, turned, rfl, rfl⟩ := stepped
  refine ⟨later, half, lastActivity, traces, turned, rfl, by simp, by simp, by simp, ?_⟩
  rw [half_set_other]
  cases event.dir <;> rfl

inductive Turns (idle now lastActivity : Nat) (half : Half) : Half → Nat → List Trace → Prop where
  | read (since n : Nat) (reading : half.phase = .reading since) (positive : 0 < n) (sized : n ≤ half.source.length) :
      Turns idle now lastActivity half ⟨half.source.drop n, .writing now n (half.source.take n)⟩ lastActivity [.read n]
  | eof (since : Nat) (reading : half.phase = .reading since) (closed : half.source = []) :
      Turns idle now lastActivity half { half with phase := .ended .eof } lastActivity [.shutdown .eof]
  | readFailed (since : Nat) (reading : half.phase = .reading since) :
      Turns idle now lastActivity half { half with phase := .ended .readFailed } lastActivity []
  | stale (since : Nat) (reading : half.phase = .reading since) (waited : since + idle ≤ now) (stale : idle ≤ now - lastActivity) :
      Turns idle now lastActivity half { half with phase := .ended .idle } lastActivity [.shutdown .idle]
  | active (since : Nat) (reading : half.phase = .reading since) (waited : since + idle ≤ now) (active : now - lastActivity < idle) :
      Turns idle now lastActivity half { half with phase := .reading now } lastActivity []
  | accept (since n k : Nat) (rest : Bytes) (writing : half.phase = .writing since n rest) (partly : k < rest.length) :
      Turns idle now lastActivity half { half with phase := .writing since n (rest.drop k) } lastActivity [.accepted (rest.take k)]
  | complete (since n : Nat) (rest : Bytes) (writing : half.phase = .writing since n rest) :
      Turns idle now lastActivity half { half with phase := .reading now } now [.accepted rest, .counted n]
  | writeFailed (since n : Nat) (rest : Bytes) (writing : half.phase = .writing since n rest) :
      Turns idle now lastActivity half { half with phase := .ended .writeFailed } lastActivity []

theorem copy_half_turns (idle now lastActivity : Nat) (half next : Half) (act : Act) (later : Nat) (traces : List Trace)
    (turned : copyHalf idle now lastActivity half act = some (next, later, traces)) :
    Turns idle now lastActivity half next later traces := by
  rw [copyHalf] at turned
  cases phase : half.phase with
  | reading since =>
      simp only [phase] at turned
      cases act with
      | read n =>
          simp only [onReading, Option.ite_none_right_eq_some, Option.some.injEq, Prod.mk.injEq] at turned
          obtain ⟨⟨positive, _, sized⟩, rfl, rfl, rfl⟩ := turned
          exact .read since n phase positive sized
      | eof =>
          simp only [onReading, Option.ite_none_right_eq_some, Option.some.injEq, Prod.mk.injEq] at turned
          obtain ⟨closed, rfl, rfl, rfl⟩ := turned
          exact .eof since phase closed
      | readFailed =>
          simp only [onReading, Option.some.injEq, Prod.mk.injEq] at turned
          obtain ⟨rfl, rfl, rfl⟩ := turned
          exact .readFailed since phase
      | idleElapsed =>
          simp only [onReading, Option.ite_none_left_eq_some, Nat.not_lt] at turned
          obtain ⟨waited, turned⟩ := turned
          split at turned
          · rename_i stale
            cases turned
            exact .stale since phase waited stale
          · rename_i active
            cases turned
            exact .active since phase waited (by omega)
      | _ => simp [onReading] at turned
  | writing since n rest =>
      simp only [phase] at turned
      cases act with
      | accept k =>
          simp only [onWriting] at turned
          split at turned
          · rename_i partly
            cases turned
            exact .accept since n k rest phase partly.2
          · split at turned
            · cases turned
              exact .complete since n rest phase
            · cases turned
      | writeFailed =>
          simp only [onWriting, Option.some.injEq, Prod.mk.injEq] at turned
          obtain ⟨rfl, rfl, rfl⟩ := turned
          exact .writeFailed since n rest phase
      | writeExpired =>
          simp only [onWriting, Option.ite_none_left_eq_some, Option.some.injEq, Prod.mk.injEq] at turned
          obtain ⟨_, rfl, rfl, rfl⟩ := turned
          exact .writeFailed since n rest phase
      | _ => simp [onWriting] at turned
  | ended how =>
      simp only [phase] at turned
      cases turned

end Relay

end NextSocks5
