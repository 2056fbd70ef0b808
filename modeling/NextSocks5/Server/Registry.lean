import NextSocks5.Library.Census
import NextSocks5.Server.Lifecycle

set_option autoImplicit false

namespace NextSocks5

namespace Registry

open Relay (Direction)
open Census

structure Registration where
  id : Nat
  src : SocketAddr
  target : String
  kind : ConnKind

def Registration.info (r : Registration) (up down : Nat) : ConnInfo := ⟨r.id, r.src, r.target, r.kind, up, down⟩

inductive Stage where
  | fresh
  | recording (code : UInt8)
  | allocated (r : Registration)
  | totalled (r : Registration)
  | activated (r : Registration)
  | running (r : Registration)
  | adding (r : Registration) (dir : Direction) (n : Nat)
  | leaving (r : Registration)
  | finished (r : Registration)

namespace Stage

def registration : Stage → Option Registration
  | fresh | recording _ => none
  | allocated r | totalled r | activated r | running r | adding r _ _ | leaving r | finished r => some r

def counted : Stage → Bool
  | fresh | recording _ | allocated _ => false
  | _ => true

def held : Stage → Bool
  | activated _ | running _ | adding _ _ _ => true
  | _ => false

def entering : Stage → Bool
  | activated _ => true
  | _ => false

def departing : Stage → Bool
  | leaving _ => true
  | _ => false

def listed : Stage → Option Registration
  | running r | adding r _ _ | leaving r => some r
  | _ => none

def entered : Stage → Bool
  | running _ | adding _ _ _ | leaving _ | finished _ => true
  | _ => false

def between : Stage → Bool
  | fresh | running _ | finished _ => true
  | _ => false

def uncounted : Stage → Bool
  | allocated _ => true
  | _ => false

def past : Stage → Bool
  | finished _ => true
  | _ => false

def current : Stage → Option Operation
  | fresh | running _ | finished _ => none
  | recording code => some (.recordError code)
  | allocated r | totalled r | activated r => some (.register r.src r.target r.kind)
  | adding _ dir n => some (.add dir n)
  | leaving _ => some .unregister

theorem listed_registration (stage : Stage) (r : Registration) (shown : stage.listed = some r) : stage.registration = some r := by
  cases stage <;> first | exact shown | cases shown

theorem balance (stage : Stage) :
    stage.held.toNat + stage.departing.toNat = stage.listed.isSome.toNat + stage.entering.toNat := by
  cases stage <;> rfl

end Stage

structure Task where
  stage : Stage
  rest : List Operation

def Operation.registers : Operation → Bool
  | .register _ _ _ => true
  | _ => false

def Task.left (task : Task) : List Operation := task.stage.current.toList ++ task.rest

def Task.done (program : List Operation) (task : Task) : List Operation := program.take (program.length - task.left.length)

def volume (dir : Direction) (operations : List Operation) : Nat :=
  (operations.map fun
    | .add way n => if way = dir then n else 0
    | _ => 0).sum

def addGlobal (m : Metrics) (dir : Direction) (n : Nat) : Metrics :=
  match dir with
  | .up => { m with bytesUp := m.bytesUp + n }
  | .down => { m with bytesDown := m.bytesDown + n }

def credit (dir : Direction) (n : Nat) (info : ConnInfo) : ConnInfo :=
  match dir with
  | .up => { info with up := info.up + n }
  | .down => { info with down := info.down + n }

-- The next update of one counter, or of the locked registry.
def atomic (m : Metrics) : Task → Option (Metrics × Task × List (Direction × Nat))
  | ⟨.fresh, .register src target kind :: rest⟩ =>
      some ({ m with nextId := m.nextId + 1 }, ⟨.allocated ⟨m.nextId, src, target, kind⟩, rest⟩, [])
  | ⟨.allocated r, rest⟩ => some ({ m with totalConns := m.totalConns + 1 }, ⟨.totalled r, rest⟩, [])
  | ⟨.totalled r, rest⟩ => some ({ m with activeConns := m.activeConns + 1 }, ⟨.activated r, rest⟩, [])
  | ⟨.activated r, rest⟩ => some ({ m with registry := m.registry.insert r.id (r.info 0 0) }, ⟨.running r, rest⟩, [])
  | ⟨.running r, .add dir n :: rest⟩ => some (addGlobal m dir n, ⟨.adding r dir n, rest⟩, [])
  | ⟨.adding r dir n, rest⟩ => some (m.modify r.id (credit dir n), ⟨.running r, rest⟩, [(dir, n)])
  | ⟨.running r, .unregister :: rest⟩ => some ({ m with activeConns := m.activeConns - 1 }, ⟨.leaving r, rest⟩, [])
  | ⟨.leaving r, rest⟩ => some ({ m with registry := m.registry.erase r.id }, ⟨.finished r, rest⟩, [])
  | ⟨.running r, .recordSuccess :: rest⟩ => some (m.recordSuccess, ⟨.running r, rest⟩, [])
  | ⟨.fresh, .recordError code :: rest⟩ => some ({ m with failures := m.failures + 1 }, ⟨.recording code, rest⟩, [])
  | ⟨.recording code, rest⟩ => some (m.countCode code, ⟨.fresh, rest⟩, [])
  | _ => none

inductive Steps (m : Metrics) : Task → Metrics → Task → List (Direction × Nat) → Prop where
  | register (src : SocketAddr) (target : String) (kind : ConnKind) (rest : List Operation) :
      Steps m ⟨.fresh, .register src target kind :: rest⟩ { m with nextId := m.nextId + 1 }
        ⟨.allocated ⟨m.nextId, src, target, kind⟩, rest⟩ []
  | total (r : Registration) (rest : List Operation) :
      Steps m ⟨.allocated r, rest⟩ { m with totalConns := m.totalConns + 1 } ⟨.totalled r, rest⟩ []
  | activate (r : Registration) (rest : List Operation) :
      Steps m ⟨.totalled r, rest⟩ { m with activeConns := m.activeConns + 1 } ⟨.activated r, rest⟩ []
  | insert (r : Registration) (rest : List Operation) :
      Steps m ⟨.activated r, rest⟩ { m with registry := m.registry.insert r.id (r.info 0 0) } ⟨.running r, rest⟩ []
  | add (r : Registration) (dir : Direction) (n : Nat) (rest : List Operation) :
      Steps m ⟨.running r, .add dir n :: rest⟩ (addGlobal m dir n) ⟨.adding r dir n, rest⟩ []
  | credit (r : Registration) (dir : Direction) (n : Nat) (rest : List Operation) :
      Steps m ⟨.adding r dir n, rest⟩ (m.modify r.id (credit dir n)) ⟨.running r, rest⟩ [(dir, n)]
  | unregister (r : Registration) (rest : List Operation) :
      Steps m ⟨.running r, .unregister :: rest⟩ { m with activeConns := m.activeConns - 1 } ⟨.leaving r, rest⟩ []
  | remove (r : Registration) (rest : List Operation) :
      Steps m ⟨.leaving r, rest⟩ { m with registry := m.registry.erase r.id } ⟨.finished r, rest⟩ []
  | success (r : Registration) (rest : List Operation) :
      Steps m ⟨.running r, .recordSuccess :: rest⟩ m.recordSuccess ⟨.running r, rest⟩ []
  | fail (code : UInt8) (rest : List Operation) :
      Steps m ⟨.fresh, .recordError code :: rest⟩ { m with failures := m.failures + 1 } ⟨.recording code, rest⟩ []
  | code (code : UInt8) (rest : List Operation) : Steps m ⟨.recording code, rest⟩ (m.countCode code) ⟨.fresh, rest⟩ []

theorem atomic_steps (m after : Metrics) (task next : Task) (credited : List (Direction × Nat))
    (stepped : atomic m task = some (after, next, credited)) : Steps m task after next credited := by
  obtain ⟨stage, rest⟩ := task
  cases stage with
  | fresh =>
      cases rest with
      | nil => cases stepped
      | cons operation rest =>
          cases operation with
          | register src target kind =>
              cases stepped
              exact .register src target kind rest
          | recordError code =>
              cases stepped
              exact .fail code rest
          | _ => cases stepped
  | recording code =>
      cases stepped
      exact .code code rest
  | allocated r =>
      cases stepped
      exact .total r rest
  | totalled r =>
      cases stepped
      exact .activate r rest
  | activated r =>
      cases stepped
      exact .insert r rest
  | running r =>
      cases rest with
      | nil => cases stepped
      | cons operation rest =>
          cases operation with
          | add dir n =>
              cases stepped
              exact .add r dir n rest
          | recordSuccess =>
              cases stepped
              exact .success r rest
          | unregister =>
              cases stepped
              exact .unregister r rest
          | _ => cases stepped
  | adding r dir n =>
      cases stepped
      exact .credit r dir n rest
  | leaving r =>
      cases stepped
      exact .remove r rest
  | finished r => cases stepped

def Stage.id : Stage → Option Nat
  | running r => some r.id
  | _ => none

inductive Orderly : Stage → Operation → Prop where
  | register (src : SocketAddr) (target : String) (kind : ConnKind) : Orderly .fresh (.register src target kind)
  | recordError (code : UInt8) : Orderly .fresh (.recordError code)
  | add (r : Registration) (dir : Direction) (n : Nat) : Orderly (.running r) (.add dir n)
  | recordSuccess (r : Registration) : Orderly (.running r) .recordSuccess
  | unregister (r : Registration) : Orderly (.running r) .unregister

theorem steps_atomic (m after : Metrics) (task next : Task) (credited : List (Direction × Nat))
    (steps : Steps m task after next credited) : atomic m task = some (after, next, credited) := by
  cases steps <;> rfl

def Alone (before after : Metrics × Task) : Prop := ∃ credited, Steps before.1 before.2 after.1 after.2 credited

theorem steps_alone (m after : Metrics) (task next : Task) (credited : List (Direction × Nat))
    (steps : Steps m task after next credited) : Alone (m, task) (after, next) := ⟨credited, steps⟩

theorem operation_alone (m : Metrics) (stage : Stage) (operation : Operation) (rest : List Operation)
    (orderly : Orderly stage operation) :
    ∃ later : Stage, later.id = (perform (stage.id, m) operation).1 ∧ later.current = none ∧
      Relation.ReflTransGen Alone (m, ⟨stage, operation :: rest⟩) ((perform (stage.id, m) operation).2, ⟨later, rest⟩) := by
  cases orderly with
  | register src target kind =>
      refine ⟨.running ⟨m.nextId, src, target, kind⟩, rfl, rfl, ?_⟩
      apply Relation.ReflTransGen.head (steps_alone _ _ _ _ _ (.register src target kind rest))
      apply Relation.ReflTransGen.head (steps_alone _ _ _ _ _ (.total _ rest))
      apply Relation.ReflTransGen.head (steps_alone _ _ _ _ _ (.activate _ rest))
      exact .single (steps_alone _ _ _ _ _ (.insert _ rest))
  | recordError code =>
      refine ⟨.fresh, rfl, rfl, ?_⟩
      have whole : perform (none, m) (.recordError code) = (none, { m with failures := m.failures + 1 }.countCode code) :=
        congrArg (Prod.mk none) (Metrics.record_error_steps m code)
      change Relation.ReflTransGen Alone _ ((perform (none, m) (.recordError code)).2, _)
      rw [whole]
      apply Relation.ReflTransGen.head (steps_alone _ _ _ _ _ (.fail code rest))
      exact .single (steps_alone _ _ _ _ _ (.code code rest))
  | add r dir n =>
      refine ⟨.running r, rfl, rfl, ?_⟩
      apply Relation.ReflTransGen.head (steps_alone _ _ _ _ _ (.add r dir n rest))
      cases dir with
      | up => exact .single (steps_alone _ _ _ _ _ (.credit r .up n rest))
      | down => exact .single (steps_alone _ _ _ _ _ (.credit r .down n rest))
  | recordSuccess r => exact ⟨.running r, rfl, rfl, .single (steps_alone _ _ _ _ _ (.success r rest))⟩
  | unregister r =>
      refine ⟨.finished r, rfl, rfl, ?_⟩
      apply Relation.ReflTransGen.head (steps_alone _ _ _ _ _ (.unregister r rest))
      exact .single (steps_alone _ _ _ _ _ (.remove r rest))

def amount (dir : Direction) (credited : List (Direction × Nat)) : Nat :=
  (credited.map fun (way, n) => if way = dir then n else 0).sum

theorem steps_left (m after : Metrics) (task next : Task) (credited : List (Direction × Nat))
    (steps : Steps m task after next credited) :
    (next.left = task.left ∧ credited = [] ∧ next.stage.entered = task.stage.entered ∧ next.stage.past = task.stage.past) ∨
    ∃ operation, task.left = operation :: next.left ∧ (∀ dir, volume dir [operation] = amount dir credited) ∧
      next.stage.entered.toNat = task.stage.entered.toNat + (Operation.registers operation).toNat ∧
      task.stage.past = false ∧ (operation = .unregister ↔ next.stage.past = true) ∧
      (∀ r, next.stage.registration = some r → task.stage.entered = false → operation = .register r.src r.target r.kind) := by
  cases steps with
  | register | total | activate | add | unregister | fail => exact .inl ⟨rfl, rfl, rfl, rfl⟩
  | insert r rest =>
      refine .inr ⟨.register r.src r.target r.kind, rfl, fun _ => rfl, rfl, rfl, by simp [Stage.past], ?_⟩
      intro q same _
      cases same
      rfl
  | credit r dir n rest =>
      refine .inr ⟨.add dir n, rfl, fun _ => rfl, rfl, rfl, by simp [Stage.past], ?_⟩
      intro q _ outside
      cases outside
  | remove r rest =>
      refine .inr ⟨.unregister, rfl, fun _ => rfl, rfl, rfl, by simp [Stage.past], ?_⟩
      intro q _ outside
      cases outside
  | success r rest =>
      refine .inr ⟨.recordSuccess, rfl, fun _ => rfl, rfl, rfl, by simp [Stage.past], ?_⟩
      intro q _ outside
      cases outside
  | code code rest =>
      refine .inr ⟨.recordError code, rfl, fun _ => rfl, rfl, rfl, by simp [Stage.past], ?_⟩
      intro q same _
      cases same

theorem count_code_eq (m : Metrics) (code : UInt8) : ∃ codes, m.countCode code = { m with errorCodes := codes } := by
  rw [Metrics.countCode]
  split
  · exact ⟨_, rfl⟩
  · exact ⟨m.errorCodes, rfl⟩

theorem modify_eq (m : Metrics) (id : Nat) (change : ConnInfo → ConnInfo) :
    ∃ registry, m.modify id change = { m with registry := registry } := by
  rw [Metrics.modify]
  split
  · exact ⟨m.registry, rfl⟩
  · exact ⟨_, rfl⟩

theorem steps_registration (m after : Metrics) (task next : Task) (credited : List (Direction × Nat))
    (steps : Steps m task after next credited) :
    (next.stage.registration = task.stage.registration ∧ after.nextId = m.nextId) ∨
    (task.stage.registration = none ∧ after.nextId = m.nextId + 1 ∧ ∃ r, next.stage.registration = some r ∧ r.id = m.nextId) := by
  cases steps with
  | register src target kind rest => exact .inr ⟨rfl, rfl, _, rfl, rfl⟩
  | add r dir n rest => exact .inl ⟨rfl, by cases dir <;> rfl⟩
  | credit r dir n rest =>
      obtain ⟨registry, same⟩ := modify_eq m r.id (credit dir n)
      exact .inl ⟨rfl, by rw [same]⟩
  | code code rest =>
      obtain ⟨codes, same⟩ := count_code_eq m code
      exact .inl ⟨rfl, by rw [same]⟩
  | _ => exact .inl ⟨rfl, rfl⟩

theorem steps_total (m after : Metrics) (task next : Task) (credited : List (Direction × Nat))
    (steps : Steps m task after next credited) :
    after.totalConns + task.stage.counted.toNat = m.totalConns + next.stage.counted.toNat := by
  cases steps with
  | add r dir n rest => cases dir <;> rfl
  | credit r dir n rest =>
      obtain ⟨registry, same⟩ := modify_eq m r.id (credit dir n)
      rw [same]
      rfl
  | code code rest =>
      obtain ⟨codes, same⟩ := count_code_eq m code
      rw [same]
      rfl
  | _ => rfl

theorem steps_active (m after : Metrics) (task next : Task) (credited : List (Direction × Nat))
    (steps : Steps m task after next credited) :
    after.activeConns + UInt64.ofNat task.stage.held.toNat = m.activeConns + UInt64.ofNat next.stage.held.toNat := by
  cases steps with
  | add r dir n rest => cases dir <;> rfl
  | credit r dir n rest =>
      obtain ⟨registry, same⟩ := modify_eq m r.id (credit dir n)
      rw [same]
      rfl
  | code code rest =>
      obtain ⟨codes, same⟩ := count_code_eq m code
      rw [same]
      rfl
  | activate r rest => exact add_zero _
  | unregister r rest => exact (sub_add_cancel m.activeConns 1).trans (add_zero m.activeConns).symm
  | _ => rfl

theorem entry_modify_ne (m : Metrics) (id other : Nat) (change : ConnInfo → ConnInfo) (apart : other ≠ id) :
    (m.modify id change).entry other = m.entry other := by
  rw [Metrics.modify]
  split
  · rfl
  · exact AList.lookup_insert_ne apart

theorem steps_elsewhere (m after : Metrics) (task next : Task) (credited : List (Direction × Nat))
    (steps : Steps m task after next credited) (id : Nat) (foreign : ∀ r, task.stage.registration = some r → r.id ≠ id) :
    after.entry id = m.entry id := by
  cases steps with
  | insert r rest => exact AList.lookup_insert_ne (foreign r rfl).symm
  | add r dir n rest => cases dir <;> rfl
  | credit r dir n rest => exact entry_modify_ne m r.id id (credit dir n) (foreign r rfl).symm
  | remove r rest => exact AList.lookup_erase_ne (foreign r rfl).symm
  | code code rest =>
      obtain ⟨codes, same⟩ := count_code_eq m code
      rw [same]
      rfl
  | _ => rfl

theorem credit_info (r : Registration) (dir : Direction) (n up down : Nat) :
    credit dir n (r.info up down) = r.info (up + amount .up [(dir, n)]) (down + amount .down [(dir, n)]) := by
  cases dir <;> simp [credit, Registration.info, amount]

theorem steps_own (m after : Metrics) (task next : Task) (credited : List (Direction × Nat))
    (steps : Steps m task after next credited) (r : Registration) (up down : Nat) (listed : next.stage.listed = some r)
    (known : task.stage.listed = some r → m.entry r.id = some (r.info up down))
    (unknown : task.stage.entered = false → up = 0 ∧ down = 0) :
    after.entry r.id = some (r.info (up + amount .up credited) (down + amount .down credited)) := by
  cases steps with
  | insert r rest =>
      cases listed
      obtain ⟨rfl, rfl⟩ := unknown rfl
      exact AList.lookup_insert m.registry
  | credit r dir n rest =>
      cases listed
      rw [Metrics.entry_modify, known rfl, Option.map_some, credit_info]
  | add r dir n rest =>
      cases listed
      cases dir <;> exact known rfl
  | unregister r rest =>
      cases listed
      exact known rfl
  | success r rest =>
      cases listed
      exact known rfl
  | _ => cases listed

theorem steps_owned (m after : Metrics) (task next : Task) (credited : List (Direction × Nat))
    (steps : Steps m task after next credited) (id : Nat) (info : ConnInfo) (found : after.entry id = some info)
    (foreign : ∀ r, next.stage.listed = some r → r.id ≠ id) :
    (∃ old, m.entry id = some old) ∧ ∀ r, task.stage.listed = some r → r.id ≠ id := by
  cases steps with
  | insert r rest =>
      refine ⟨⟨info, ?_⟩, fun other listed => by cases listed⟩
      rw [← found]
      exact (AList.lookup_insert_ne (foreign r rfl).symm).symm
  | credit r dir n rest =>
      refine ⟨⟨info, ?_⟩, foreign⟩
      rw [← found]
      exact (entry_modify_ne m r.id id (credit dir n) (foreign r rfl).symm).symm
  | remove r rest =>
      have apart : r.id ≠ id := by
        intro same
        subst same
        rw [Metrics.entry, AList.lookup_erase] at found
        cases found
      refine ⟨⟨info, ?_⟩, fun other listed => by cases listed; exact apart⟩
      rw [← found]
      exact (AList.lookup_erase_ne apart.symm).symm
  | add r dir n rest =>
      refine ⟨⟨info, ?_⟩, foreign⟩
      cases dir <;> exact found
  | code code rest =>
      obtain ⟨codes, same⟩ := count_code_eq m code
      rw [same] at found
      exact ⟨⟨info, found⟩, foreign⟩
  | _ => exact ⟨⟨info, found⟩, foreign⟩

structure Stands (program : List Operation) (task : Task) : Prop where
  split : program = task.done program ++ task.left
  registers : (task.done program).countP Operation.registers = task.stage.entered.toNat
  entered : ∀ r, task.stage.registration = some r → task.stage.entered = true → .register r.src r.target r.kind ∈ task.done program
  past : .unregister ∈ task.done program ↔ task.stage.past = true

theorem volume_append (dir : Direction) (first second : List Operation) :
    volume dir (first ++ second) = volume dir first + volume dir second := by
  rw [volume, List.map_append, List.sum_append, ← volume, ← volume]

theorem done_split (program before : List Operation) (task : Task) (split : program = before ++ task.left) :
    task.done program = before := by
  rw [Task.done, split, List.length_append, Nat.add_sub_cancel, List.take_left]

theorem stands_fresh (program : List Operation) : Stands program ⟨.fresh, program⟩ := by
  have none_done : Task.done program ⟨.fresh, program⟩ = [] := done_split program [] ⟨.fresh, program⟩ rfl
  refine ⟨?_, ?_, ?_, ?_⟩
  · rw [none_done]
    rfl
  · rw [none_done]
    rfl
  · intro r has
    cases has
  · simp [none_done, Stage.past]

theorem entered_registration (stage : Stage) (entered : stage.entered = true) : stage.registration ≠ none := by
  cases stage <;> simp [Stage.entered, Stage.registration] at *

theorem stands_step (program : List Operation) (m after : Metrics) (task next : Task) (credited : List (Direction × Nat))
    (stands : Stands program task) (steps : Steps m task after next credited) :
    Stands program next ∧ ∀ dir, volume dir (next.done program) = volume dir (task.done program) + amount dir credited := by
  -- An id that an entered task has was there before the step.
  have kept (r : Registration) (has : next.stage.registration = some r) (before : task.stage.entered = true) :
      .register r.src r.target r.kind ∈ task.done program := by
    obtain ⟨same, _⟩ | ⟨unregistered, _⟩ := steps_registration m after task next credited steps
    · exact stands.entered r (same ▸ has) before
    · exact absurd unregistered (entered_registration task.stage before)
  obtain ⟨left, silent, entered, past⟩ | ⟨operation, left, bytes, entered, unended, past, registers⟩ :=
    steps_left m after task next credited steps
  · have same : next.done program = task.done program := by rw [Task.done, Task.done, left]
    refine ⟨⟨?_, ?_, ?_, ?_⟩, ?_⟩
    · rw [same, left]
      exact stands.split
    · rw [same, entered]
      exact stands.registers
    · intro r has inside
      rw [same]
      exact kept r has (entered ▸ inside)
    · rw [same, past]
      exact stands.past
    · intro dir
      rw [same, silent]
      rfl
  · have split : program = (task.done program ++ [operation]) ++ next.left := by
      rw [List.append_assoc, List.singleton_append, ← left]
      exact stands.split
    have more := done_split program _ next split
    refine ⟨⟨?_, ?_, ?_, ?_⟩, ?_⟩
    · rw [more]
      exact split
    · rw [more, List.countP_append, stands.registers, entered, List.countP_singleton]
      cases Operation.registers operation <;> rfl
    · intro r has inside
      rw [more, List.mem_append, List.mem_singleton]
      by_cases before : task.stage.entered = true
      · exact .inl (kept r has before)
      · exact .inr (registers r has (Bool.eq_false_iff.mpr before)).symm
    · have absent : .unregister ∉ task.done program := by
        rw [stands.past, unended]
        exact Bool.false_ne_true
      rw [more, List.mem_append, List.mem_singleton, ← past]
      exact ⟨fun held => (held.resolve_left absent).symm, fun last => .inr last.symm⟩
    · intro dir
      rw [more, volume_append, bytes]

theorem listed_iff (program : List Operation) (task : Task) (stands : Stands program task) (r : Registration) :
    task.stage.listed = some r ↔ task.stage.registration = some r ∧
      .register r.src r.target r.kind ∈ task.done program ∧ .unregister ∉ task.done program := by
  rw [stands.past]
  constructor
  · intro listed
    have registered := Stage.listed_registration task.stage r listed
    have inside : task.stage.entered = true ∧ task.stage.past = false := by
      cases stage : task.stage <;> simp [stage, Stage.listed, Stage.entered, Stage.past] at listed ⊢
    exact ⟨registered, stands.entered r registered inside.1, by simp [inside.2]⟩
  · intro performed
    obtain ⟨registered, member, unended⟩ := performed
    have positive : 0 < (task.done program).countP Operation.registers := List.countP_pos_iff.mpr ⟨_, member, rfl⟩
    rw [stands.registers] at positive
    cases stage : task.stage <;> simp [stage, Stage.listed, Stage.entered, Stage.past, Stage.registration] at *
    all_goals exact registered

theorem entry_none (m : Metrics) (id : Nat) (absent : m.entry id = none) : id ∉ m.registry.keys := by
  rw [← AList.mem_keys]
  exact AList.lookup_eq_none.mp absent

theorem entry_some (m : Metrics) (id : Nat) (info : ConnInfo) (found : m.entry id = some info) : id ∈ m.registry.keys := by
  rw [← AList.mem_keys]
  apply AList.lookup_isSome.mp
  have foundInfo : m.registry.lookup id = some info := found
  rw [foundInfo]
  rfl

theorem modify_keys (m : Metrics) (id : Nat) (change : ConnInfo → ConnInfo) :
    (m.modify id change).registry.keys.length = m.registry.keys.length := by
  cases found : m.registry.lookup id with
  | none => simp [Metrics.modify, found]
  | some info =>
      have member := entry_some m id info found
      have positive := List.length_pos_of_mem member
      simp only [Metrics.modify, found, AList.keys_insert, List.length_cons, List.length_erase_of_mem member]
      omega

theorem steps_size (m after : Metrics) (task next : Task) (credited : List (Direction × Nat))
    (steps : Steps m task after next credited) (absent : ∀ r, task.stage = .activated r → m.entry r.id = none)
    (present : ∀ r, task.stage.listed = some r → ∃ info, m.entry r.id = some info) :
    after.registry.keys.length + task.stage.listed.isSome.toNat = m.registry.keys.length + next.stage.listed.isSome.toNat := by
  cases steps with
  | insert r rest =>
      have out := entry_none m r.id (absent r rfl)
      simp [AList.keys_insert, List.erase_of_not_mem out, Stage.listed]
  | add r dir n rest => cases dir <;> rfl
  | credit r dir n rest => exact congrArg (· + 1) (modify_keys m r.id (credit dir n))
  | remove r rest =>
      obtain ⟨info, found⟩ := present r rfl
      have member := entry_some m r.id info found
      have positive := List.length_pos_of_mem member
      simp only [AList.keys_erase, List.length_erase_of_mem member, Stage.listed, Option.isSome_some, Option.isSome_none,
        Bool.toNat_true, Bool.toNat_false]
      omega
  | code code rest =>
      obtain ⟨codes, same⟩ := count_code_eq m code
      rw [same]
      rfl
  | _ => rfl

theorem steps_entered (m after : Metrics) (task next : Task) (credited : List (Direction × Nat))
    (steps : Steps m task after next credited) (outside : next.stage.entered = false) :
    task.stage.entered = false ∧ credited = [] := by
  cases steps <;> first | exact ⟨rfl, rfl⟩ | cases outside

def Stage.attached : Stage → Bool
  | allocated _ | totalled _ | activated _ | running _ | adding _ _ _ => true
  | _ => false

inductive Fits (ended : Bool) : Task → Prop where
  | fresh (rest : List Operation) (whole : Lifecycle ended rest) : Fits ended ⟨.fresh, rest⟩
  | recording (code : UInt8) : Fits ended ⟨.recording code, []⟩
  | attached (stage : Stage) (amounts : List (Direction × Nat)) (inside : stage.attached = true) :
      Fits ended ⟨stage, adds amounts ++ closing ended⟩
  | succeeded (r : Registration) (through : ended = true) : Fits ended ⟨.running r, [.unregister]⟩
  | leaving (r : Registration) (through : ended = true) : Fits ended ⟨.leaving r, []⟩
  | finished (r : Registration) (through : ended = true) : Fits ended ⟨.finished r, []⟩

theorem fits_running (ended : Bool) (r : Registration) (operation : Operation) (rest : List Operation)
    (fits : Fits ended ⟨.running r, operation :: rest⟩) :
    (∃ dir n amounts, operation = .add dir n ∧ rest = adds amounts ++ closing ended) ∨
    (ended = true ∧ operation = .recordSuccess ∧ rest = [.unregister]) ∨ (ended = true ∧ operation = .unregister ∧ rest = []) := by
  generalize shape : (⟨.running r, operation :: rest⟩ : Task) = task at fits
  cases fits with
  | attached stage amounts inside =>
      cases amounts with
      | nil =>
          cases ended with
          | false => simp [adds, closing] at shape
          | true =>
              simp only [adds, closing, List.map_nil, List.nil_append, if_true, Task.mk.injEq, List.cons.injEq] at shape
              exact .inr (.inl ⟨rfl, shape.2.1, shape.2.2⟩)
      | cons amount amounts =>
          simp only [adds, List.map_cons, List.cons_append, Task.mk.injEq, List.cons.injEq] at shape
          exact .inl ⟨amount.1, amount.2, amounts, shape.2.1, shape.2.2⟩
  | succeeded q finished =>
      simp only [Task.mk.injEq, List.cons.injEq] at shape
      exact .inr (.inr ⟨finished, shape.2.1, shape.2.2⟩)
  | _ => simp at shape

theorem fits_fresh (ended : Bool) (rest : List Operation) (fits : Fits ended ⟨.fresh, rest⟩) : Lifecycle ended rest := by
  cases fits with
  | fresh _ whole => exact whole
  | attached _ _ inside => cases inside

theorem fits_step (ended : Bool) (m after : Metrics) (task next : Task) (credited : List (Direction × Nat))
    (fits : Fits ended task) (steps : Steps m task after next credited) : Fits ended next := by
  -- Inside an operation the program is not looked at.
  have inside (stage later : Stage) (rest : List Operation) (fits : Fits ended ⟨stage, rest⟩) (stageIs : stage.attached = true)
      (between : stage.between = false) (attachedLater : later.attached = true) : Fits ended ⟨later, rest⟩ := by
    cases fits with
    | attached _ amounts _ => exact .attached later amounts attachedLater
    | succeeded r through => cases between
    | _ => cases stageIs
  cases steps with
  | register src target kind rest =>
      cases fits_fresh ended _ fits with
      | opened _ _ _ amounts => exact .attached _ amounts rfl
  | total r rest => exact inside _ _ rest fits rfl rfl rfl
  | activate r rest => exact inside _ _ rest fits rfl rfl rfl
  | insert r rest => exact inside _ _ rest fits rfl rfl rfl
  | credit r dir n rest => exact inside _ _ rest fits rfl rfl rfl
  | add r dir n rest =>
      obtain ⟨_, _, amounts, _, rfl⟩ | ⟨_, other, _⟩ | ⟨_, other, _⟩ := fits_running ended r _ rest fits
      · exact .attached _ amounts rfl
      · cases other
      · cases other
  | unregister r rest =>
      obtain ⟨_, _, _, other, _⟩ | ⟨_, other, _⟩ | ⟨through, _, rfl⟩ := fits_running ended r _ rest fits
      · cases other
      · cases other
      · exact .leaving r through
  | success r rest =>
      obtain ⟨_, _, _, other, _⟩ | ⟨through, _, rfl⟩ | ⟨_, other, _⟩ := fits_running ended r _ rest fits
      · cases other
      · exact .succeeded r through
      · cases other
  | remove r rest =>
      cases fits with
      | leaving _ through => exact .finished r through
      | attached _ _ inside => cases inside
  | fail code rest =>
      cases fits_fresh ended _ fits with
      | refused _ _ => exact .recording code
  | code code rest =>
      cases fits with
      | recording _ => exact .fresh [] .silent
      | attached _ _ inside => cases inside

def Task.Over (task : Task) : Prop := task.rest = [] ∧ task.stage.between = true

instance (task : Task) : Decidable task.Over := by
  unfold Task.Over
  infer_instance

theorem fits_progress (ended : Bool) (m : Metrics) (task : Task) (fits : Fits ended task) :
    task.Over ∨ ∃ after next credited, atomic m task = some (after, next, credited) := by
  obtain ⟨stage, rest⟩ := task
  cases stage with
  | fresh =>
      cases fits_fresh ended rest fits with
      | silent => exact .inl ⟨rfl, rfl⟩
      | refused code _ => exact .inr ⟨_, _, _, rfl⟩
      | opened src target kind amounts => exact .inr ⟨_, _, _, rfl⟩
  | running r =>
      cases rest with
      | nil => exact .inl ⟨rfl, rfl⟩
      | cons operation rest =>
          obtain ⟨_, _, _, rfl, _⟩ | ⟨_, rfl, _⟩ | ⟨_, rfl, _⟩ := fits_running ended r _ rest fits
          · exact .inr ⟨_, _, _, rfl⟩
          · exact .inr ⟨_, _, _, rfl⟩
          · exact .inr ⟨_, _, _, rfl⟩
  | finished r =>
      cases fits with
      | finished _ _ => exact .inl ⟨rfl, rfl⟩
      | attached _ _ inside => cases inside
  | _ => exact .inr ⟨_, _, _, rfl⟩

theorem fits_over (task : Task) (fits : Fits true task) (ended : task.Over) :
    task.stage.held = false ∧ task.stage.listed = none ∧ task.stage.counted = task.stage.registration.isSome := by
  obtain ⟨empty, between⟩ := ended
  cases fits with
  | fresh rest whole => exact ⟨rfl, rfl, rfl⟩
  | recording code => exact ⟨rfl, rfl, rfl⟩
  | attached stage amounts inside => simp [closing] at empty
  | succeeded r _ => cases empty
  | leaving r _ => cases between
  | finished r _ => exact ⟨rfl, rfl, rfl⟩

variable {τ : Type} [DecidableEq τ]

structure State (τ : Type) where
  metrics : Metrics
  tasks : τ → Task

-- An event names the task that takes its next step, an output the bytes an entry is credited with.
def machine : Machine (State τ) τ (τ × Direction × Nat) where
  step s t :=
    (atomic s.metrics (s.tasks t)).map fun (metrics, task, credited) =>
      (⟨metrics, Function.update s.tasks t task⟩, credited.map fun amount => (t, amount))

def start (programs : τ → Execution) : State τ := ⟨.new, fun t => ⟨.fresh, (programs t).operations⟩⟩

def added (t : τ) (dir : Direction) (outputs : List (τ × Direction × Nat)) : Nat :=
  (outputs.map fun (other, way, n) => if other = t ∧ way = dir then n else 0).sum

theorem machine_steps (s after : State τ) (t : τ) (made : List (τ × Direction × Nat))
    (stepped : machine.step s t = some (after, made)) :
    ∃ credited, Steps s.metrics (s.tasks t) after.metrics (after.tasks t) credited ∧
      after.tasks = Function.update s.tasks t (after.tasks t) ∧ made = credited.map fun amount => (t, amount) := by
  simp only [machine, Option.map_eq_some_iff, Prod.exists, Prod.mk.injEq] at stepped
  obtain ⟨metrics, next, credited, moved, rfl, rfl⟩ := stepped
  have self : Function.update s.tasks t next t = next := Function.update_self t next s.tasks
  refine ⟨credited, ?_, ?_, rfl⟩
  · dsimp only
    rw [self]
    exact atomic_steps s.metrics metrics (s.tasks t) next credited moved
  · dsimp only
    rw [self]

theorem machine_answers (s : State τ) (t : τ) (metrics : Metrics) (next : Task) (credited : List (Direction × Nat))
    (moved : atomic s.metrics (s.tasks t) = some (metrics, next, credited)) :
    machine.step s t = some (⟨metrics, Function.update s.tasks t next⟩, credited.map fun amount => (t, amount)) := by
  simp [machine, moved]

theorem others_stay (s after : State τ) (t u : τ) (moved : after.tasks = Function.update s.tasks t (after.tasks t)) (other : u ≠ t) :
    after.tasks u = s.tasks u := by
  rw [moved, Function.update_of_ne other]

theorem added_self (t : τ) (dir : Direction) (outputs : List (τ × Direction × Nat)) (credited : List (Direction × Nat)) :
    added t dir (outputs ++ credited.map fun amount => (t, amount)) = added t dir outputs + amount dir credited := by
  simp [added, amount, Function.comp_def]

theorem added_other (t other : τ) (apart : other ≠ t) (dir : Direction) (outputs : List (τ × Direction × Nat))
    (credited : List (Direction × Nat)) :
    added other dir (outputs ++ credited.map fun amount => (t, amount)) = added other dir outputs := by
  simp [added, Function.comp_def, apart.symm]

theorem alone_run (s : State τ) (t : τ) (last : Metrics × Task) (alone : Relation.ReflTransGen Alone (s.metrics, s.tasks t) last) :
    ∃ count outputs, machine.Run s (List.replicate count t) outputs ⟨last.1, Function.update s.tasks t last.2⟩ := by
  induction alone with
  | refl =>
      refine ⟨0, [], ?_⟩
      rw [Function.update_eq_self]
      exact .idle
  | @tail middle final _ step ih =>
      obtain ⟨count, outputs, run⟩ := ih
      obtain ⟨credited, steps⟩ := step
      have self : Function.update s.tasks t middle.2 t = middle.2 := Function.update_self t middle.2 s.tasks
      have answered := machine_answers (⟨middle.1, Function.update s.tasks t middle.2⟩ : State τ) t final.1 final.2 credited
        (by dsimp only; rw [self]; exact steps_atomic _ _ _ _ _ steps)
      rw [Function.update_idem] at answered
      refine ⟨count + 1, outputs ++ credited.map (fun amount => (t, amount)), ?_⟩
      rw [List.replicate_succ']
      exact run.next t _ _ answered

structure Ids (s : State τ) : Prop where
  distinct : ∀ first second r q, (s.tasks first).stage.registration = some r → (s.tasks second).stage.registration = some q →
    r.id = q.id → first = second
  allotted : ∀ t r, (s.tasks t).stage.registration = some r → r.id < s.metrics.nextId

structure Entries (outputs : List (τ × Direction × Nat)) (s : State τ) : Prop where
  entry : ∀ t r, (s.tasks t).stage.listed = some r →
    s.metrics.entry r.id = some (r.info (added t .up outputs) (added t .down outputs))
  owned : ∀ id info, s.metrics.entry id = some info → ∃ t r, (s.tasks t).stage.listed = some r ∧ r.id = id
  unspent : ∀ t, (s.tasks t).stage.entered = false → ∀ dir, added t dir outputs = 0

theorem ids_step (s after : State τ) (t : τ) (made : List (τ × Direction × Nat)) (ids : Ids s)
    (stepped : machine.step s t = some (after, made)) : Ids after := by
  obtain ⟨credited, steps, moved, rfl⟩ := machine_steps s after t made stepped
  have premise := steps_registration _ _ _ _ _ steps
  -- An id that a task has after the step was its own before, or is the next one.
  have origin (u : τ) (r : Registration) (has : (after.tasks u).stage.registration = some r) :
      (s.tasks u).stage.registration = some r ∨ (u = t ∧ r.id = s.metrics.nextId ∧ after.metrics.nextId = s.metrics.nextId + 1) := by
    by_cases own : u = t
    · subst own
      obtain ⟨same, _⟩ | ⟨_, advanced, q, registered, fresh⟩ := premise
      · exact .inl (same ▸ has)
      · rw [registered] at has
        cases has
        exact .inr ⟨rfl, fresh, advanced⟩
    · rw [others_stay s after t u moved own] at has
      exact .inl has
  refine ⟨?_, ?_⟩
  · intro first second r q left right same
    obtain left | ⟨rfl, fresh, _⟩ := origin first r left
    · obtain right | ⟨rfl, fresh, _⟩ := origin second q right
      · exact ids.distinct first second r q left right same
      · have below := ids.allotted first r left
        omega
    · obtain right | ⟨rfl, _, _⟩ := origin second q right
      · have below := ids.allotted second q right
        omega
      · rfl
  · intro u r has
    have grown : s.metrics.nextId ≤ after.metrics.nextId := by
      obtain ⟨_, same⟩ | ⟨_, advanced, _⟩ := premise <;> omega
    obtain old | ⟨_, fresh, advanced⟩ := origin u r has
    · exact Nat.lt_of_lt_of_le (ids.allotted u r old) grown
    · omega

theorem entries_step (outputs : List (τ × Direction × Nat)) (s after : State τ) (t : τ) (made : List (τ × Direction × Nat))
    (ids : Ids s) (entries : Entries outputs s) (stepped : machine.step s t = some (after, made)) :
    Entries (outputs ++ made) after := by
  obtain ⟨credited, steps, moved, rfl⟩ := machine_steps s after t made stepped
  refine ⟨?_, ?_, ?_⟩
  · intro u r listed
    by_cases own : u = t
    · subst own
      rw [added_self, added_self]
      exact steps_own _ _ _ _ credited steps r _ _ listed (entries.entry u r)
        fun outside => ⟨entries.unspent u outside .up, entries.unspent u outside .down⟩
    · rw [others_stay s after t u moved own] at listed
      rw [added_other t u own, added_other t u own, ← entries.entry u r listed]
      refine steps_elsewhere _ _ _ _ credited steps r.id ?_
      intro q registered same
      exact own (ids.distinct u t r q (Stage.listed_registration _ r listed) registered same.symm)
  · intro id info found
    by_cases mine : ∃ r, (after.tasks t).stage.listed = some r ∧ r.id = id
    · exact ⟨t, mine⟩
    · have foreign : ∀ r, (after.tasks t).stage.listed = some r → r.id ≠ id := fun r listed same => mine ⟨r, listed, same⟩
      obtain ⟨⟨old, before⟩, kept⟩ := steps_owned _ _ _ _ credited steps id info found foreign
      obtain ⟨u, r, listed, same⟩ := entries.owned id old before
      have other : u ≠ t := by
        intro own
        subst own
        exact kept r listed same
      exact ⟨u, r, by rw [others_stay s after t u moved other, listed], same⟩
  · intro u outside dir
    by_cases own : u = t
    · subst own
      obtain ⟨before, rfl⟩ := steps_entered _ _ _ _ credited steps outside
      rw [added_self, entries.unspent u before dir]
      rfl
    · rw [others_stay s after t u moved own] at outside
      rw [added_other t u own]
      exact entries.unspent u outside dir

variable [Fintype τ]

def active (s : State τ) : Nat := census (fun task : Task => task.stage.held) s.tasks

def listed (s : State τ) : Nat := census (fun task : Task => task.stage.listed.isSome) s.tasks

def entering (s : State τ) : Nat := census (fun task : Task => task.stage.entering) s.tasks

def departing (s : State τ) : Nat := census (fun task : Task => task.stage.departing) s.tasks

structure Counts (s : State τ) : Prop where
  next : s.metrics.nextId = census (fun task : Task => task.stage.registration.isSome) s.tasks + 1
  total : s.metrics.totalConns = census (fun task : Task => task.stage.counted) s.tasks
  active : s.metrics.activeConns = UInt64.ofNat (active s)
  size : s.metrics.registry.keys.length = listed s

theorem counts_step (outputs : List (τ × Direction × Nat)) (s after : State τ) (t : τ) (made : List (τ × Direction × Nat))
    (ids : Ids s) (entries : Entries outputs s) (counts : Counts s) (stepped : machine.step s t = some (after, made)) :
    Counts after := by
  obtain ⟨credited, steps, moved, rfl⟩ := machine_steps s after t made stepped
  have idsStep := steps_registration _ _ _ _ _ steps
  have total := steps_total _ _ _ _ _ steps
  have activeStep := steps_active _ _ _ _ _ steps
  -- The id that a task is about to insert is in no entry.
  have absent : ∀ r, (s.tasks t).stage = .activated r → s.metrics.entry r.id = none := by
    intro r stageIs
    cases found : s.metrics.entry r.id with
    | none => rfl
    | some info =>
        obtain ⟨u, q, listed, same⟩ := entries.owned r.id info found
        have own := ids.distinct u t q r (Stage.listed_registration _ q listed) (by rw [stageIs]; rfl) same
        subst own
        rw [stageIs] at listed
        cases listed
  have size := steps_size _ _ _ _ _ steps absent fun r listed => ⟨_, entries.entry t r listed⟩
  have nexts := census_update (fun task : Task => task.stage.registration.isSome) s.tasks t (after.tasks t)
  have totals := census_update (fun task : Task => task.stage.counted) s.tasks t (after.tasks t)
  have actives := census_update (fun task : Task => task.stage.held) s.tasks t (after.tasks t)
  have sizes := census_update (fun task : Task => task.stage.listed.isSome) s.tasks t (after.tasks t)
  rw [← moved] at nexts totals actives sizes
  refine ⟨?_, ?_, ?_, ?_⟩
  · have before := counts.next
    obtain ⟨same, kept⟩ | ⟨unregistered, advanced, r, registered, _⟩ := idsStep
    · rw [same] at nexts
      omega
    · rw [unregistered, registered] at nexts
      simp only [Option.isSome_none, Option.isSome_some, Bool.toNat_false, Bool.toNat_true] at nexts
      omega
  · have before := counts.total
    omega
  · have machineWord := congrArg UInt64.ofNat actives
    rw [UInt64.ofNat_add, UInt64.ofNat_add] at machineWord
    have before : s.metrics.activeConns = UInt64.ofNat (census (fun task : Task => task.stage.held) s.tasks) := counts.active
    rw [← before, ← activeStep] at machineWord
    exact (add_right_cancel machineWord).symm
  · have before : s.metrics.registry.keys.length = census (fun task : Task => task.stage.listed.isSome) s.tasks := counts.size
    show after.metrics.registry.keys.length = census _ after.tasks
    omega

structure Inv (programs : τ → Execution) (outputs : List (τ × Direction × Nat)) (s : State τ) : Prop where
  ids : Ids s
  entries : Entries outputs s
  counts : Counts s
  fits : ∀ t, Fits (programs t).ended (s.tasks t)
  stands : ∀ t, Stands (programs t).operations (s.tasks t)
  credits : ∀ t dir, added t dir outputs = volume dir ((s.tasks t).done (programs t).operations)

theorem inv_start (programs : τ → Execution) : Inv programs [] (start programs) where
  ids := ⟨fun _ _ _ _ has => (by cases has), fun _ _ has => (by cases has)⟩
  entries := ⟨fun _ _ listed => (by cases listed), fun _ _ found => (by cases found), fun _ _ _ => rfl⟩
  counts := by
    refine ⟨?_, ?_, ?_, ?_⟩
    · exact congrArg (· + 1) (census_none (fun task : Task => task.stage.registration.isSome) (start programs).tasks fun _ => rfl).symm
    · exact (census_none _ _ fun _ => rfl).symm
    · exact congrArg UInt64.ofNat (census_none (fun task : Task => task.stage.held) _ fun _ => rfl).symm
    · exact (census_none _ _ fun _ => rfl).symm
  fits := fun t => .fresh _ (execution_lifecycle (programs t))
  stands := fun t => stands_fresh (programs t).operations
  credits := by
    intro t dir
    have none_done : ((start programs).tasks t).done (programs t).operations = [] :=
      done_split (programs t).operations [] ⟨.fresh, (programs t).operations⟩ rfl
    rw [none_done]
    rfl

theorem inv_step (programs : τ → Execution) (outputs : List (τ × Direction × Nat)) (s after : State τ) (t : τ)
    (made : List (τ × Direction × Nat)) (inv : Inv programs outputs s) (stepped : machine.step s t = some (after, made)) :
    Inv programs (outputs ++ made) after := by
  obtain ⟨credited, steps, moved, paid⟩ := machine_steps s after t made stepped
  have stands := stands_step _ _ _ _ _ _ (inv.stands t) steps
  refine ⟨ids_step s after t made inv.ids stepped, entries_step outputs s after t made inv.ids inv.entries stepped,
    counts_step outputs s after t made inv.ids inv.entries inv.counts stepped, ?_, ?_, ?_⟩
  · intro u
    by_cases own : u = t
    · subst own
      exact fits_step _ _ _ _ _ _ (inv.fits u) steps
    · rw [others_stay s after t u moved own]
      exact inv.fits u
  · intro u
    by_cases own : u = t
    · subst own
      exact stands.1
    · rw [others_stay s after t u moved own]
      exact inv.stands u
  · intro u dir
    rw [paid]
    by_cases own : u = t
    · subst own
      rw [added_self, inv.credits u dir, stands.2 dir]
    · rw [added_other t u own, others_stay s after t u moved own]
      exact inv.credits u dir

theorem inv_run (programs : τ → Execution) (schedule : List τ) (outputs : List (τ × Direction × Nat)) (s : State τ)
    (run : machine.Run (start programs) schedule outputs s) : Inv programs outputs s :=
  Machine.run_invariant machine (start programs) (fun _ outputs s => Inv programs outputs s) (inv_start programs)
    (fun _ outputs s t after made inv stepped => inv_step programs outputs s after t made inv stepped) schedule outputs s run

omit [DecidableEq τ] in
theorem active_balance (s : State τ) : active s + departing s = listed s + entering s :=
  census_balance _ _ _ _ s.tasks fun task => task.stage.balance

def Task.begun (program : List Operation) (task : Task) : List Operation := task.done program ++ task.stage.current.toList

theorem begun_registers (program : List Operation) (task : Task) (stands : Stands program task) :
    (task.begun program).countP Operation.registers = task.stage.counted.toNat + task.stage.uncounted.toNat := by
  rw [Task.begun, List.countP_append, stands.registers]
  cases task.stage <;> rfl

def registrations (programs : τ → Execution) : Nat := ∑ t, (programs t).operations.countP Operation.registers

def uncounted (s : State τ) : Nat := census (fun task : Task => task.stage.uncounted) s.tasks

structure Consistent (programs : τ → Execution) (s : State τ) : Prop where
  stands : ∀ t, Stands (programs t).operations (s.tasks t)
  distinct : ∀ first second r q, (s.tasks first).stage.registration = some r → (s.tasks second).stage.registration = some q →
    first ≠ second → r.id ≠ q.id
  word : s.metrics.activeConns = UInt64.ofNat (active s)
  balance : active s + departing s = s.metrics.registry.keys.length + entering s
  decrement : ∀ t r rest, s.tasks t = ⟨.running r, .unregister :: rest⟩ → 0 < active s
  total : s.metrics.totalConns + uncounted s = ∑ t, ((s.tasks t).begun (programs t).operations).countP Operation.registers
  entry : ∀ id info, s.metrics.entry id = some info ↔
    ∃ t r, (s.tasks t).stage.registration = some r ∧ r.id = id ∧
      .register r.src r.target r.kind ∈ (s.tasks t).done (programs t).operations ∧
      .unregister ∉ (s.tasks t).done (programs t).operations ∧
      info = r.info (volume .up ((s.tasks t).done (programs t).operations)) (volume .down ((s.tasks t).done (programs t).operations))
  -- With fewer tasks than a word counts, no counter wraps and no id comes twice.
  words : Fintype.card τ < UInt64.size → s.metrics.activeConns.toNat = active s ∧ s.metrics.totalConns < UInt64.size ∧
    s.metrics.nextId ≤ UInt64.size ∧ ∀ t r, (s.tasks t).stage.registration = some r → r.id < UInt64.size
  bytes : ∀ t dir, volume dir ((s.tasks t).done (programs t).operations) ≤ volume dir (programs t).operations

structure Settled (programs : τ → Execution) (s : State τ) : Prop where
  active : s.metrics.activeConns = 0
  registry : s.metrics.registry = ∅
  total : s.metrics.totalConns = registrations programs

omit [DecidableEq τ] in
theorem inv_total (programs : τ → Execution) (s : State τ) (stands : ∀ t, Stands (programs t).operations (s.tasks t))
    (total : s.metrics.totalConns = census (fun task : Task => task.stage.counted) s.tasks) :
    s.metrics.totalConns + uncounted s = ∑ t, ((s.tasks t).begun (programs t).operations).countP Operation.registers := by
  rw [total, uncounted, census, census, ← Finset.sum_add_distrib]
  exact Finset.sum_congr rfl fun t _ => (begun_registers _ _ (stands t)).symm

theorem inv_entry (programs : τ → Execution) (outputs : List (τ × Direction × Nat)) (s : State τ) (inv : Inv programs outputs s)
    (id : Nat) (info : ConnInfo) : s.metrics.entry id = some info ↔
      ∃ t r, (s.tasks t).stage.listed = some r ∧ r.id = id ∧
        info = r.info (volume .up ((s.tasks t).done (programs t).operations)) (volume .down ((s.tasks t).done (programs t).operations)) := by
  constructor
  · intro found
    obtain ⟨t, r, listed, rfl⟩ := inv.entries.owned id info found
    have own := inv.entries.entry t r listed
    rw [inv.credits, inv.credits] at own
    exact ⟨t, r, listed, rfl, Option.some.inj (found.symm.trans own)⟩
  · intro held
    obtain ⟨t, r, listed, rfl, rfl⟩ := held
    rw [← inv.credits, ← inv.credits]
    exact inv.entries.entry t r listed

theorem inv_words (programs : τ → Execution) (outputs : List (τ × Direction × Nat)) (s : State τ) (inv : Inv programs outputs s)
    (few : Fintype.card τ < UInt64.size) : s.metrics.activeConns.toNat = active s ∧ s.metrics.totalConns < UInt64.size ∧
      s.metrics.nextId ≤ UInt64.size ∧ ∀ t r, (s.tasks t).stage.registration = some r → r.id < UInt64.size := by
  have activeBelow : active s < UInt64.size := Nat.lt_of_le_of_lt (census_le_card _ s.tasks) few
  have totalBelow := Nat.lt_of_le_of_lt (census_le_card (fun task : Task => task.stage.counted) s.tasks) few
  have nextBelow := census_le_card (fun task : Task => task.stage.registration.isSome) s.tasks
  have next := inv.counts.next
  refine ⟨?_, ?_, by omega, ?_⟩
  · rw [inv.counts.active]
    exact UInt64.toNat_ofNat_of_lt' activeBelow
  · rw [inv.counts.total]
    exact totalBelow
  · intro t r registered
    have allotted := inv.ids.allotted t r registered
    omega

theorem inv_consistent (programs : τ → Execution) (outputs : List (τ × Direction × Nat)) (s : State τ)
    (inv : Inv programs outputs s) : Consistent programs s where
  stands := inv.stands
  distinct := fun first second r q left right apart same => apart (inv.ids.distinct first second r q left right same)
  word := inv.counts.active
  balance := by rw [inv.counts.size, active_balance]
  decrement := by
    intro t r rest stage
    exact census_pos (fun task : Task => task.stage.held) s.tasks t (by rw [stage]; rfl)
  total := inv_total programs s inv.stands inv.counts.total
  entry := by
    intro id info
    rw [inv_entry programs outputs s inv]
    refine exists_congr fun t => exists_congr fun r => ?_
    rw [listed_iff _ _ (inv.stands t)]
    tauto
  words := inv_words programs outputs s inv
  bytes := by
    intro t dir
    have split := congrArg (volume dir) (inv.stands t).split
    rw [volume_append] at split
    omega

omit [DecidableEq τ] in
theorem consistent_listed (programs : τ → Execution) (s : State τ) (consistent : Consistent programs s) (id : Nat) (info : ConnInfo) :
    s.metrics.entry id = some info ↔
      ∃ t r, (s.tasks t).stage.listed = some r ∧ r.id = id ∧
        info = r.info (volume .up ((s.tasks t).done (programs t).operations)) (volume .down ((s.tasks t).done (programs t).operations)) := by
  rw [consistent.entry]
  refine exists_congr fun t => exists_congr fun r => ?_
  rw [listed_iff _ _ (consistent.stands t)]
  tauto

theorem inv_settled (programs : τ → Execution) (outputs : List (τ × Direction × Nat)) (s : State τ)
    (inv : Inv programs outputs s) (ended : ∀ t, (programs t).ended = true ∧ (s.tasks t).Over) : Settled programs s := by
  have done (t : τ) := fits_over (s.tasks t) ((ended t).1 ▸ inv.fits t) (ended t).2
  refine ⟨?_, ?_, ?_⟩
  · have idle : active s = 0 := census_none _ s.tasks fun t => (done t).1
    rw [inv.counts.active, idle]
    rfl
  · have unlisted : listed s = 0 := census_none _ s.tasks fun t => by rw [(done t).2.1]; rfl
    have empty : s.metrics.registry.keys = [] := List.length_eq_zero_iff.mp (inv.counts.size.trans unlisted)
    exact AList.ext (List.map_eq_nil_iff.mp empty)
  · have total := inv_total programs s inv.stands inv.counts.total
    have past (t : τ) : (s.tasks t).begun (programs t).operations = (programs t).operations ∧ (s.tasks t).stage.uncounted = false := by
      obtain ⟨empty, between⟩ := (ended t).2
      have split := (inv.stands t).split
      rw [Task.left, empty, List.append_nil] at split
      refine ⟨split.symm, ?_⟩
      cases stage : (s.tasks t).stage <;> simp [stage, Stage.between] at between <;> rfl
    have none_waiting : uncounted s = 0 := census_none _ s.tasks fun t => (past t).2
    rw [none_waiting, Nat.add_zero] at total
    rw [total, registrations]
    exact Finset.sum_congr rfl fun t _ => by rw [(past t).1]

theorem fits_orderly (ended : Bool) (stage : Stage) (operation : Operation) (rest : List Operation)
    (fits : Fits ended ⟨stage, operation :: rest⟩) (between : stage.between = true) : Orderly stage operation := by
  cases stage with
  | fresh =>
      have whole := fits_fresh ended _ fits
      cases operation with
      | register src target kind => exact .register src target kind
      | recordError code => exact .recordError code
      | _ => cases whole
  | running r =>
      obtain ⟨dir, n, _, rfl, _⟩ | ⟨_, rfl, _⟩ | ⟨_, rfl, _⟩ := fits_running ended r operation rest fits
      · exact .add r dir n
      · exact .recordSuccess r
      · exact .unregister r
  | finished r =>
      generalize shape : (⟨.finished r, operation :: rest⟩ : Task) = task at fits
      cases fits with
      | attached stage amounts inside =>
          cases (congrArg Task.stage shape).symm
          cases inside
      | _ => cases shape
  | _ => cases between

def Performs (s : State τ) : Prop :=
  ∀ t stage operation rest, s.tasks t = ⟨stage, operation :: rest⟩ → stage.between = true →
    ∃ count outputs later, later.id = (perform (stage.id, s.metrics) operation).1 ∧ later.current = none ∧
      machine.Run s (List.replicate count t) outputs
        ⟨(perform (stage.id, s.metrics) operation).2, Function.update s.tasks t ⟨later, rest⟩⟩

theorem inv_performs (programs : τ → Execution) (outputs : List (τ × Direction × Nat)) (s : State τ)
    (inv : Inv programs outputs s) : Performs s := by
  intro t stage operation rest stands between
  have orderly := fits_orderly _ stage operation rest (stands ▸ inv.fits t) between
  obtain ⟨later, id, outside, alone⟩ := operation_alone s.metrics stage operation rest orderly
  rw [← stands] at alone
  obtain ⟨count, made, run⟩ := alone_run s t _ alone
  exact ⟨count, made, later, id, outside, run⟩

-- Any number of tasks, in any order of their atomic steps.
theorem registry_consistent (programs : τ → Execution) (schedule : List τ) (outputs : List (τ × Direction × Nat)) (s : State τ)
    (run : machine.Run (start programs) schedule outputs s) :
    Consistent programs s ∧ (∀ t, (programs t).Performed) ∧ Performs s ∧
    (∀ t, (s.tasks t).Over ∨ ∃ after made, machine.step s t = some (after, made)) ∧
    ((∀ t, (programs t).ended = true ∧ (s.tasks t).Over) → Settled programs s) := by
  have inv := inv_run programs schedule outputs s run
  refine ⟨inv_consistent programs outputs s inv, fun t => execution_performed (programs t), inv_performs programs outputs s inv, ?_,
    inv_settled programs outputs s inv⟩
  intro t
  obtain past | ⟨after, next, credited, stepped⟩ := fits_progress _ s.metrics (s.tasks t) (inv.fits t)
  · exact .inl past
  · exact .inr ⟨_, _, machine_answers s t after next credited stepped⟩

def queryOperations : List Operation :=
  [.register Udp.query53.clientPeer "udp-associate" .udp, .add .up 2, .add .down 3, .recordSuccess, .unregister]

theorem query_program : ∃ program : Execution, program.ended = true ∧ program.operations = queryOperations := by
  have setup : Udp.associate .default Udp.query53.clientPeer Udp.queryHost .new =
      (.relaying Udp.query53 (Metrics.new.register Udp.query53.clientPeer "udp-associate" .udp).2, _) := rfl
  have run := (Udp.machine Udp.query53).exec_run (Udp.start 0)
    [(10, .datagram Udp.queryArrival), (20, .datagram (Udp.queryReply53 true)), (30, .control true)]
    (Udp.queryTraffic true ++ [.recordSuccess, .unregister, .emit (.closed Udp.query53.id)]) _ rfl
  exact ⟨.associated .default Udp.query53.clientPeer Udp.queryHost .new _ Udp.query53 _ setup 0 _ _ _ run, rfl, rfl⟩

-- Two associations that take turns at every atomic step: in the middle of their transfers, and at the end.
theorem registry_consistent_pair : ∃ (programs : Bool → Execution) (early late : List (Bool × Direction × Nat)) (middle s : State Bool),
    machine.Run (start programs) (List.replicate 6 [false, true]).flatten early middle ∧
    Consistent programs middle ∧ middle.metrics.entry 2 = some ⟨2, Udp.query53.clientPeer, "udp-associate", .udp, 2, 0⟩ ∧
    machine.Run (start programs) (List.replicate 11 [false, true]).flatten late s ∧
    Consistent programs s ∧ Settled programs s ∧ s.metrics.totalConns = 2 := by
  obtain ⟨program, ended, operations⟩ := query_program
  have begins : start (fun _ : Bool => program) = ⟨.new, fun _ => ⟨.fresh, queryOperations⟩⟩ := by rw [start, operations]
  have first : (machine.exec (⟨.new, fun _ => ⟨.fresh, queryOperations⟩⟩ : State Bool) (List.replicate 6 [false, true]).flatten).map
      (fun ended => ended.2.metrics.entry 2) = some (some ⟨2, Udp.query53.clientPeer, "udp-associate", .udp, 2, 0⟩) := by decide +kernel
  have second : (machine.exec (⟨.new, fun _ => ⟨.fresh, queryOperations⟩⟩ : State Bool) (List.replicate 11 [false, true]).flatten).map
      (fun ended => (ended.2.metrics.totalConns, decide (∀ t, (ended.2.tasks t).Over))) = some (2, true) := by decide +kernel
  rw [← begins] at first second
  obtain ⟨⟨early, middle⟩, half, entry⟩ := Option.map_eq_some_iff.mp first
  obtain ⟨⟨late, s⟩, whole, facts⟩ := Option.map_eq_some_iff.mp second
  obtain ⟨total, finished⟩ := Prod.mk.inj facts
  have earlyRun := machine.exec_run _ _ _ _ half
  have lateRun := machine.exec_run _ _ _ _ whole
  obtain ⟨between, _⟩ := registry_consistent (fun _ => program) _ _ _ earlyRun
  obtain ⟨consistent, _, _, _, settled⟩ := registry_consistent (fun _ => program) _ _ _ lateRun
  exact ⟨fun _ => program, early, late, middle, s, earlyRun, between, entry, lateRun, consistent,
    settled fun t => ⟨ended, of_decide_eq_true finished t⟩, total⟩

end Registry

end NextSocks5
