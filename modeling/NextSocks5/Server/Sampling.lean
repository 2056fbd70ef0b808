import NextSocks5.Server.Registry

set_option autoImplicit false

namespace NextSocks5

namespace Sampling

open Census

-- Metrics::snapshot loads one counter after the other, in this order.
inductive Load where
  | code (i : Fin 9)
  | bytesUp
  | bytesDown
  | totalConns
  | activeConns
  | successes
  | failures
deriving DecidableEq, Repr

def loads : List Load :=
  (List.finRange 9).map Load.code ++ [.bytesUp, .bytesDown, .totalConns, .activeConns, .successes, .failures]

def Load.of (s : Snapshot) : Load → Nat
  | .code i => s.errorCodes[i]
  | .bytesUp => s.bytesUp
  | .bytesDown => s.bytesDown
  | .totalConns => s.totalConns
  | .activeConns => s.activeConns.toNat
  | .successes => s.successes
  | .failures => s.failures

def Load.take (m : Metrics) (s : Snapshot) : Load → Snapshot
  | .code i => { s with errorCodes := s.errorCodes.set i (m.errorCodes[i]) }
  | .bytesUp => { s with bytesUp := m.bytesUp }
  | .bytesDown => { s with bytesDown := m.bytesDown }
  | .totalConns => { s with totalConns := m.totalConns }
  | .activeConns => { s with activeConns := m.activeConns }
  | .successes => { s with successes := m.successes }
  | .failures => { s with failures := m.failures }

-- A counter is a u64 that wraps.
def Load.word (s : Snapshot) (load : Load) : UInt64 := UInt64.ofNat (load.of s)

-- A reader of the counters, with what it has loaded of its next snapshot. `past` is all that the counters have been, and
-- `seen` where in it the reader was at its last load of each.
structure State (τ : Type) where
  registry : Registry.State τ
  past : List Metrics
  seen : Load → Nat
  rest : List Load
  partly : Snapshot

inductive Wake (τ : Type) where
  | task (t : τ)
  | load (place : Nat)
deriving DecidableEq

variable {τ : Type} [DecidableEq τ]

-- The loads and the updates are relaxed: a load finds any value of its counter from the one last seen to the newest,
-- whatever was seen of the other counters.
def step (s : State τ) : Wake τ → Option (State τ × List Snapshot)
  | .task t =>
      (Registry.machine.step s.registry t).map fun (registry, _) =>
        ({ s with registry, past := s.past ++ [registry.metrics] }, [])
  | .load place =>
      match s.rest, s.past[place]? with
      | load :: rest, some m =>
          if place < s.seen load then none
          else
            let seen := Function.update s.seen load place
            let partly := load.take m s.partly
            match rest with
            | [] => some ({ s with seen, rest := loads, partly := .default }, [partly])
            | _ => some ({ s with seen, rest, partly }, [])
      | _, _ => none

def machine : Machine (State τ) (Wake τ) Snapshot := ⟨step⟩

def start (programs : τ → Registry.Execution) : State τ := ⟨Registry.start programs, [.new], fun _ => 0, loads, .default⟩

def Below (a b : Snapshot) : Prop := ∀ load : Load, load ≠ .activeConns → load.of a ≤ load.of b

theorem below_refl (a : Snapshot) : Below a a := fun _ _ => le_rfl

theorem below_trans (a b c : Snapshot) (first : Below a b) (second : Below b c) : Below a c :=
  fun load grows => (first load grows).trans (second load grows)

theorem take_of (m : Metrics) (s : Snapshot) (load other : Load) :
    other.of (load.take m s) = if other = load then other.of m.snapshot else other.of s := by
  by_cases same : other = load
  · subst same
    cases other <;> simp [Load.of, Load.take, Metrics.snapshot]
  · rw [if_neg same]
    cases load with
    | code i =>
        cases other with
        | code j =>
            have apart : (i : Nat) ≠ j := fun equal => same (by rw [Fin.ext equal])
            simp [Load.of, Load.take, apart]
        | _ => rfl
    | _ =>
        cases other with
        | code j => rfl
        | _ => first | rfl | exact absurd rfl same

theorem count_code_below (m : Metrics) (code : UInt8) : Below m.snapshot (m.countCode code).snapshot := by
  rw [Metrics.countCode]
  split
  · rename_i bucket
    intro load _
    cases load with
    | code i =>
        by_cases own : i = ⟨code.toNat, by omega⟩
        · subst own
          simp [Load.of, Metrics.snapshot]
        · have apart : code.toNat ≠ (i : Nat) := fun same => own (Fin.ext same.symm)
          simp [Load.of, Metrics.snapshot, apart]
    | _ => exact le_rfl
  · exact below_refl _

theorem steps_below (m after : Metrics) (task next : Registry.Task) (credited : List (Relay.Direction × Nat))
    (steps : Registry.Steps m task after next credited) : Below m.snapshot after.snapshot := by
  cases steps with
  | total r rest =>
      intro load _
      cases load <;> simp [Load.of, Metrics.snapshot]
  | activate r rest =>
      intro load grows
      cases load <;> first | exact absurd rfl grows | exact le_rfl
  | unregister r rest =>
      intro load grows
      cases load <;> first | exact absurd rfl grows | exact le_rfl
  | add r dir n rest =>
      intro load _
      cases dir <;> cases load <;> simp [Load.of, Metrics.snapshot, Registry.addGlobal]
  | credit r dir n rest =>
      obtain ⟨registry, modified⟩ := Registry.modify_eq m r.id (Registry.credit dir n)
      rw [modified]
      exact below_refl _
  | success r rest =>
      intro load _
      cases load <;> simp [Load.of, Metrics.snapshot, Metrics.recordSuccess]
  | fail code rest =>
      intro load _
      cases load <;> simp [Load.of, Metrics.snapshot]
  | code code rest => exact count_code_below m code
  | _ => exact below_refl _

section

variable [Fintype τ]

structure History (registry : Metrics) (past : List Metrics) : Prop where
  last : past.getLast? = some registry
  grows : past.Pairwise fun m n => Below m.snapshot n.snapshot
  active : Fintype.card τ < UInt64.size → ∀ m ∈ past, m.activeConns.toNat ≤ Fintype.card τ

structure Seen (outputs : List Snapshot) (s : State τ) (load : Load) (m : Metrics) : Prop where
  found : s.past[s.seen load]? = some m
  made : load ≠ .activeConns → ∀ snapshot ∈ outputs, load.of snapshot ≤ load.of m.snapshot

structure Inv (programs : τ → Registry.Execution) (outputs : List Snapshot) (s : State τ) : Prop where
  registry : ∃ credits, Registry.Inv programs credits s.registry
  history : History (τ := τ) s.registry.metrics s.past
  seen : ∀ load, ∃ m, Seen outputs s load m
  place : ∃ done, loads = done ++ s.rest ∧ s.rest ≠ [] ∧
    ∀ load ∈ done, ∀ m, s.past[s.seen load]? = some m → load.of s.partly = load.of m.snapshot
  active : Fintype.card τ < UInt64.size → s.partly.activeConns.toNat ≤ Fintype.card τ ∧
    ∀ snapshot ∈ outputs, snapshot.activeConns.toNat ≤ Fintype.card τ
  ordered : outputs.Pairwise Below

theorem mem_loads (load : Load) : load ∈ loads := by
  cases load <;> simp [loads]

omit [DecidableEq τ] in
theorem history_between (registry m n : Metrics) (past : List Metrics) (i j : Nat) (history : History (τ := τ) registry past)
    (first : past[i]? = some m) (second : past[j]? = some n) (ordered : i ≤ j) : Below m.snapshot n.snapshot := by
  obtain ⟨inside, rfl⟩ := List.getElem?_eq_some_iff.mp first
  obtain ⟨within, rfl⟩ := List.getElem?_eq_some_iff.mp second
  rcases Nat.lt_or_eq_of_le ordered with before | same
  · exact List.pairwise_iff_getElem.mp history.grows i j inside within before
  · subst same
    exact below_refl _

omit [DecidableEq τ] in
theorem history_current (registry m : Metrics) (past : List Metrics) (i : Nat) (history : History (τ := τ) registry past)
    (found : past[i]? = some m) : Below m.snapshot registry.snapshot := by
  have inside := (List.getElem?_eq_some_iff.mp found).1
  have last := history.last
  rw [List.getLast?_eq_getElem?] at last
  exact history_between registry m registry past i (past.length - 1) history found last (by omega)

omit [DecidableEq τ] in
theorem history_next (registry next : Metrics) (past : List Metrics) (history : History (τ := τ) registry past)
    (grows : Below registry.snapshot next.snapshot)
    (active : Fintype.card τ < UInt64.size → next.activeConns.toNat ≤ Fintype.card τ) : History (τ := τ) next (past ++ [next]) := by
  refine ⟨List.getLast?_concat, List.pairwise_append.mpr ⟨history.grows, List.pairwise_singleton _ _, ?_⟩, ?_⟩
  · intro m member n newest
    obtain ⟨i, found⟩ := List.mem_iff_getElem?.mp member
    rw [List.mem_singleton.mp newest]
    exact below_trans _ _ _ (history_current registry m past i history found) grows
  · intro few m member
    rcases List.mem_append.mp member with old | new
    · exact history.active few m old
    · rw [List.mem_singleton.mp new]
      exact active few

theorem inv_start (programs : τ → Registry.Execution) : Inv programs [] (start programs) where
  registry := ⟨[], Registry.inv_start programs⟩
  history := by
    refine ⟨rfl, List.pairwise_singleton _ _, ?_⟩
    intro _ m member
    rw [List.mem_singleton.mp member]
    exact Nat.zero_le _
  seen _ := ⟨.new, rfl, by simp⟩
  place := ⟨[], rfl, by simp [start, loads], by simp⟩
  active _ := ⟨Nat.zero_le _, by simp⟩
  ordered := .nil

theorem inv_task (programs : τ → Registry.Execution) (outputs : List Snapshot) (s : State τ) (registry : Registry.State τ) (t : τ)
    (credits : List (τ × Relay.Direction × Nat)) (inv : Inv programs outputs s)
    (stepped : Registry.machine.step s.registry t = some (registry, credits)) :
    Inv programs outputs { s with registry, past := s.past ++ [registry.metrics] } := by
  obtain ⟨before, known⟩ := inv.registry
  obtain ⟨credited, steps, _, _⟩ := Registry.machine_steps s.registry registry t credits stepped
  have next := Registry.inv_step programs before s.registry registry t credits known stepped
  have stays (i : Nat) (m : Metrics) (found : s.past[i]? = some m) : (s.past ++ [registry.metrics])[i]? = some m := by
    rw [List.getElem?_append_left (List.getElem?_eq_some_iff.mp found).1, found]
  obtain ⟨done, split, left, level⟩ := inv.place
  refine ⟨⟨_, next⟩, history_next _ _ _ inv.history (steps_below _ _ _ _ _ steps) ?_, ?_, ⟨done, split, left, ?_⟩, inv.active,
    inv.ordered⟩
  · intro few
    exact ((Registry.inv_consistent programs _ registry next).words few).1.le.trans (census_le_card _ _)
  · intro load
    obtain ⟨m, found, made⟩ := inv.seen load
    exact ⟨m, stays _ m found, made⟩
  · intro load member m found
    obtain ⟨earlier, known, _⟩ := inv.seen load
    have kept := stays _ earlier known
    rw [found] at kept
    cases kept
    exact level load member m known

structure Loads (s after : State τ) (place : Nat) (made : List Snapshot) (load : Load) (rest : List Load) (m : Metrics) : Prop where
  left : s.rest = load :: rest
  found : s.past[place]? = some m
  later : s.seen load ≤ place
  moved : rest = [] ∧ made = [load.take m s.partly] ∧
      after = { s with seen := Function.update s.seen load place, rest := loads, partly := .default } ∨
    rest ≠ [] ∧ made = [] ∧ after = { s with seen := Function.update s.seen load place, rest, partly := load.take m s.partly }

omit [Fintype τ] in
theorem step_loads (s after : State τ) (place : Nat) (made : List Snapshot) (stepped : machine.step s (.load place) = some (after, made)) :
    ∃ load rest m, Loads s after place made load rest m := by
  simp only [machine, step] at stepped
  split at stepped
  · rename_i load rest m left found
    obtain ⟨later, moved⟩ := Option.ite_none_left_eq_some.mp stepped
    refine ⟨load, rest, m, left, found, Nat.le_of_not_lt later, ?_⟩
    cases rest with
    | nil =>
        cases moved
        exact .inl ⟨rfl, rfl, rfl⟩
    | cons next more =>
        cases moved
        exact .inr ⟨by simp, rfl, rfl⟩
  · cases stepped

theorem load_seen (programs : τ → Registry.Execution) (outputs : List Snapshot) (s : State τ) (place : Nat) (load : Load) (m : Metrics)
    (done : List Load) (inv : Inv programs outputs s) (found : s.past[place]? = some m) (later : s.seen load ≤ place)
    (level : ∀ load ∈ done, ∀ m, s.past[s.seen load]? = some m → load.of s.partly = load.of m.snapshot) (other : Load) :
    ∃ n, s.past[Function.update s.seen load place other]? = some n ∧
      (other ≠ .activeConns → ∀ snapshot ∈ outputs, other.of snapshot ≤ other.of n.snapshot) ∧
      (other ∈ done ++ [load] → other.of (load.take m s.partly) = other.of n.snapshot) := by
  obtain ⟨old, known, made⟩ := inv.seen other
  rw [Function.update_apply]
  by_cases same : other = load
  · subst same
    rw [if_pos rfl]
    refine ⟨m, found, ?_, fun _ => by rw [take_of, if_pos rfl]⟩
    intro grows snapshot member
    exact (made grows snapshot member).trans (history_between _ old m _ _ _ inv.history known found later other grows)
  · rw [if_neg same]
    refine ⟨old, known, made, ?_⟩
    intro member
    have listed : other ∈ done := by
      rcases List.mem_append.mp member with before | now
      · exact before
      · exact absurd (List.mem_singleton.mp now) same
    rw [take_of, if_neg same]
    exact level other listed old known

theorem load_active (programs : τ → Registry.Execution) (outputs : List Snapshot) (s : State τ) (place : Nat) (load : Load) (m : Metrics)
    (inv : Inv programs outputs s) (found : s.past[place]? = some m) (few : Fintype.card τ < UInt64.size) :
    (load.take m s.partly).activeConns.toNat ≤ Fintype.card τ := by
  have either := take_of m s.partly load .activeConns
  simp only [Load.of] at either
  rw [either]
  split
  · exact inv.history.active few m (List.mem_of_getElem? found)
  · exact (inv.active few).1

theorem inv_load (programs : τ → Registry.Execution) (outputs made : List Snapshot) (s after : State τ) (place : Nat)
    (inv : Inv programs outputs s) (stepped : machine.step s (.load place) = some (after, made)) :
    Inv programs (outputs ++ made) after := by
  obtain ⟨load, rest, m, left, found, later, moved⟩ := step_loads s after place made stepped
  obtain ⟨done, split, _, level⟩ := inv.place
  have seen := load_seen programs outputs s place load m done inv found later level
  have active := load_active programs outputs s place load m inv found
  rcases moved with ⟨rfl, rfl, rfl⟩ | ⟨more, rfl, rfl⟩
  · have whole (other : Load) : other ∈ done ++ [load] := by
      rw [← left, ← split]
      exact mem_loads other
    refine ⟨inv.registry, inv.history, ?_, ⟨[], rfl, by simp [loads], by simp⟩, ?_, ?_⟩
    · intro other
      obtain ⟨n, known, before, same⟩ := seen other
      refine ⟨n, known, ?_⟩
      intro grows snapshot member
      rcases List.mem_append.mp member with old | new
      · exact before grows snapshot old
      · rw [List.mem_singleton.mp new, same (whole other)]
    · intro few
      refine ⟨Nat.zero_le _, ?_⟩
      intro snapshot member
      rcases List.mem_append.mp member with old | new
      · exact (inv.active few).2 snapshot old
      · rw [List.mem_singleton.mp new]
        exact active few
    · refine List.pairwise_append.mpr ⟨inv.ordered, List.pairwise_singleton _ _, ?_⟩
      intro earlier listed snapshot member other grows
      obtain ⟨n, _, before, same⟩ := seen other
      rw [List.mem_singleton.mp member, same (whole other)]
      exact before grows earlier listed
  · rw [List.append_nil]
    refine ⟨inv.registry, inv.history, ?_, ⟨done ++ [load], by rw [split, left]; simp, more, ?_⟩,
      fun few => ⟨active few, (inv.active few).2⟩,
      inv.ordered⟩
    · intro other
      obtain ⟨n, known, before, _⟩ := seen other
      exact ⟨n, known, before⟩
    · intro other member n known
      obtain ⟨latest, placeOther, _, same⟩ := seen other
      rw [placeOther] at known
      cases known
      exact same member

theorem inv_run (programs : τ → Registry.Execution) (wakes : List (Wake τ)) (outputs : List Snapshot) (s : State τ)
    (run : machine.Run (start programs) wakes outputs s) : Inv programs outputs s := by
  refine Machine.run_invariant machine (start programs) (fun _ outputs s => Inv programs outputs s) (inv_start programs) ?_ wakes
    outputs s run
  intro wakes outputs s wake after made inv stepped
  cases wake with
  | task t =>
      obtain ⟨⟨registry, credits⟩, moved, same⟩ := Option.map_eq_some_iff.mp stepped
      cases same
      rw [List.append_nil]
      exact inv_task programs outputs s registry t credits inv moved
  | load place => exact inv_load programs outputs made s after place inv stepped

theorem inv_below (programs : τ → Registry.Execution) (outputs : List Snapshot) (s : State τ) (inv : Inv programs outputs s)
    (snapshot : Snapshot) (member : snapshot ∈ outputs) : Below snapshot s.registry.metrics.snapshot := by
  intro load grows
  obtain ⟨m, found, made⟩ := inv.seen load
  exact (made grows snapshot member).trans (history_current _ m _ _ inv.history found load grows)

end

-- What each tick adds to a counter that the one before has read, subtracted as the dashboard does it.
def deltas (counter : Snapshot → Nat) : List Snapshot → List Nat
  | first :: second :: rest => (counter second - counter first) :: deltas counter (second :: rest)
  | _ => []

theorem deltas_sum (counter : Snapshot → Nat) (first last : Snapshot) (middle : List Snapshot)
    (ordered : (first :: middle ++ [last]).Pairwise fun a b => counter a ≤ counter b) :
    counter first + (deltas counter (first :: middle ++ [last])).sum = counter last := by
  induction middle generalizing first with
  | nil =>
      have grows : counter first ≤ counter last := (List.pairwise_cons.mp ordered).1 last (by simp)
      simp only [List.cons_append, List.nil_append, deltas, List.sum_cons, List.sum_nil]
      omega
  | cons second middle ih =>
      obtain ⟨ahead, rest⟩ := List.pairwise_cons.mp ordered
      have grows : counter first ≤ counter second := ahead second (by simp)
      have sum := ih second rest
      simp only [List.cons_append, deltas, List.sum_cons] at sum ⊢
      omega

theorem word_toNat (s : Snapshot) (load : Load) (small : load.of s < UInt64.size) : (load.word s).toNat = load.of s :=
  UInt64.toNat_ofNat_of_lt' small

-- The snapshots of a reader are no picture of one instant, but a counter that has not wrapped never goes back nor gets ahead,
-- what the ticks add up is all there is, and the active count stays below the number of tasks.
theorem snapshots_coherent [Fintype τ] (programs : τ → Registry.Execution) (wakes : List (Wake τ)) (outputs : List Snapshot)
    (s : State τ) (run : machine.Run (start programs) wakes outputs s) :
    (∀ load : Load, load ≠ .activeConns → load.of s.registry.metrics.snapshot < UInt64.size →
      outputs.Pairwise (fun a b => load.word a ≤ load.word b) ∧
      (∀ snapshot ∈ outputs, load.word snapshot ≤ load.word s.registry.metrics.snapshot) ∧
      ∀ first middle last, outputs = first :: middle ++ [last] →
        (load.word first).toNat + (deltas (fun snapshot => (load.word snapshot).toNat) outputs).sum = (load.word last).toNat) ∧
    (Fintype.card τ < UInt64.size → ∀ snapshot ∈ outputs, snapshot.activeConns.toNat ≤ Fintype.card τ) := by
  have inv := inv_run programs wakes outputs s run
  refine ⟨?_, fun few => (inv.active few).2⟩
  intro load grows small
  have below (snapshot : Snapshot) (member : snapshot ∈ outputs) : (load.word snapshot).toNat = load.of snapshot :=
    word_toNat snapshot load ((inv_below programs outputs s inv snapshot member load grows).trans_lt small)
  have ordered : outputs.Pairwise fun a b => load.word a ≤ load.word b := by
    refine inv.ordered.imp_of_mem ?_
    intro a b first second held
    rw [UInt64.le_iff_toNat_le, below a first, below b second]
    exact held load grows
  refine ⟨ordered, ?_, ?_⟩
  · intro snapshot member
    rw [UInt64.le_iff_toNat_le, below snapshot member, word_toNat _ load small]
    exact inv_below programs outputs s inv snapshot member load grows
  · intro first middle last whole
    subst whole
    exact deltas_sum (fun snapshot => (load.word snapshot).toNat) first last middle
      (ordered.imp fun held => UInt64.le_iff_toNat_le.mp held)

-- Four steps register a connection. The first twelve loads give a counter's oldest value, and the active count's newest.
def tornLoads : List (Wake Unit) :=
  List.replicate 4 (.task ()) ++ List.replicate 12 (.load 0) ++ List.replicate 3 (.load 4) ++ List.replicate 15 (.load 4)

-- The first snapshot sees the active count of a registration but not its total: one connection is active, of none in total.
theorem snapshots_coherent_torn : ∃ (program : Registry.Execution) (outputs : List Snapshot) (s : State Unit),
    machine.Run (start fun _ => program) tornLoads outputs s ∧
    outputs.map (fun snapshot => (snapshot.totalConns, snapshot.activeConns)) = [(0, 1), (1, 1)] ∧
    s.registry.metrics.totalConns = 1 ∧ outputs.Pairwise (fun a b => Load.totalConns.word a ≤ Load.totalConns.word b) ∧
    ∀ snapshot ∈ outputs, snapshot.activeConns.toNat ≤ 1 := by
  obtain ⟨program, _, operations⟩ := Registry.query_program
  have begins : start (fun _ : Unit => program) =
      ⟨⟨.new, fun _ => ⟨.fresh, Registry.queryOperations⟩⟩, [.new], fun _ => 0, loads, .default⟩ := by
    rw [start, Registry.start, operations]
  have ran : (machine.exec (⟨⟨.new, fun _ => ⟨.fresh, Registry.queryOperations⟩⟩, [.new], fun _ => 0, loads, .default⟩ : State Unit)
      tornLoads).map (fun ended =>
        (ended.1.map fun snapshot => (snapshot.totalConns, snapshot.activeConns), ended.2.registry.metrics.totalConns)) =
      some ([(0, 1), (1, 1)], 1) := by decide +kernel
  rw [← begins] at ran
  obtain ⟨⟨outputs, s⟩, done, facts⟩ := Option.map_eq_some_iff.mp ran
  obtain ⟨counts, total⟩ := Prod.mk.inj facts
  have run := machine.exec_run _ _ _ _ done
  obtain ⟨counters, active⟩ := snapshots_coherent (fun _ => program) _ outputs s run
  have small : Load.totalConns.of s.registry.metrics.snapshot < UInt64.size := by
    rw [show Load.totalConns.of s.registry.metrics.snapshot = s.registry.metrics.totalConns from rfl, total]
    decide
  exact ⟨program, outputs, s, run, counts, total, (counters .totalConns (by simp) small).1, active (by decide)⟩

end Sampling

end NextSocks5
