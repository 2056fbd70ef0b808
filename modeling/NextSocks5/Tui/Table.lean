import NextSocks5.Library.Ranked
import NextSocks5.Tui.Dashboard

set_option autoImplicit false

namespace NextSocks5

namespace Tui

-- Lower first: the fullest, or the oldest, and one never seen before all others.
def SortKey.rank (sort : SortKey) (firstSeen : Nat → Option Nat) (c : ConnInfo) : Int :=
  match sort with
  | id => 0
  | up => -(c.up : Int)
  | down => -(c.down : Int)
  | age =>
      match firstSeen c.id with
      | none => -1
      | some first => first

theorem le_rank (sort : SortKey) (firstSeen : Nat → Option Nat) (a b : ConnInfo) :
    sort.le firstSeen a b = true ↔ Ranked.Before (sort.rank firstSeen) ConnInfo.id a b := by
  cases sort with
  | id => simp [SortKey.le, SortKey.rank, Ranked.Before]
  | up | down =>
      simp only [SortKey.le, SortKey.rank, Ranked.Before, Bool.or_eq_true, Bool.and_eq_true, decide_eq_true_eq, beq_iff_eq]
      omega
  | age =>
      cases first : firstSeen a.id with
      | none =>
          cases second : firstSeen b.id with
          | none => simp [SortKey.le, SortKey.rank, Ranked.Before, first, second]
          | some two =>
              simp only [SortKey.le, SortKey.rank, Ranked.Before, first, second, true_iff]
              omega
      | some one =>
          cases second : firstSeen b.id with
          | none =>
              simp only [SortKey.le, SortKey.rank, Ranked.Before, first, second, Bool.false_eq_true, false_iff]
              omega
          | some two => simp [SortKey.le, SortKey.rank, Ranked.Before, first, second]

theorem sort_connections_sorted (conns : List ConnInfo) (sort : SortKey) (firstSeen : Nat → Option Nat) :
    (sortConnections conns sort firstSeen).Pairwise (Ranked.Before (sort.rank firstSeen) ConnInfo.id) :=
  Ranked.sort_pairwise _ _ _ (le_rank sort firstSeen) conns

structure Sample where
  now : Nat
  conns : List ConnInfo

def Sample.lists (id : Nat) (sample : Sample) : Bool := decide (id ∈ sample.conns.map ConnInfo.id)

def Input.sample : Input → Option Sample
  | .tick now _ conns => some ⟨now, conns⟩
  | .key _ => none

def samples (inputs : List Input) : List Sample := inputs.filterMap Input.sample

-- When the samples that list the id without a break up to now began.
def since (taken : List Sample) (id : Nat) : Option Nat := (taken.reverse.takeWhile (Sample.lists id)).getLast?.map Sample.now

def chosen (inputs : List Input) : SortKey :=
  inputs.foldl (fun sort input => if let .key .cycleSort := input then sort.next else sort) .id

theorem since_snoc (taken : List Sample) (now : Nat) (conns : List ConnInfo) (id : Nat) :
    since (taken ++ [⟨now, conns⟩]) id = observe (since taken) now conns id := by
  rw [since, List.reverse_append, List.reverse_singleton, List.singleton_append, List.takeWhile_cons, observe]
  by_cases listed : id ∈ conns.map ConnInfo.id
  · have lists : Sample.lists id ⟨now, conns⟩ = true := decide_eq_true listed
    rw [if_pos lists, if_pos listed, since, List.getLast?_cons]
    cases (taken.reverse.takeWhile (Sample.lists id)).getLast? <;> rfl
  · have lists : ¬ Sample.lists id ⟨now, conns⟩ = true := by simpa [Sample.lists] using listed
    rw [if_neg lists, if_neg listed]
    rfl

theorem tick_table (termHeight : UInt16) (s : DashboardState) (now : Nat) (batch : List Received) (conns : List ConnInfo) :
    (tick termHeight s now batch conns).sort = s.sort ∧ (tick termHeight s now batch conns).firstSeen = observe s.firstSeen now conns ∧
      (tick termHeight s now batch conns).connections = sortConnections conns s.sort (observe s.firstSeen now conns) := by
  simp only [tick, anchor]
  split <;> exact ⟨rfl, rfl, rfl⟩

theorem press_table (screen : Screen) (s : DashboardState) (action : KeyAction) :
    (press screen s action).firstSeen = s.firstSeen ∧ (press screen s action).connections = s.connections ∧
      (press screen s action).sort = if action = .cycleSort then s.sort.next else s.sort := by
  cases action with
  | quit | cycleSort | switchFocus => exact ⟨rfl, rfl, rfl⟩
  | scrollUp n | scrollDown n => cases focus : s.focus <;> simp [press, applyAction, focus]

-- The rows are those of the last sample, in the order that was chosen when it was taken.
def Tabled (inputs : List Input) (s : DashboardState) : Prop :=
  samples inputs = [] ∧ s.connections = [] ∨
    ∃ before now batch conns keys, inputs = before ++ .tick now batch conns :: keys ∧ samples keys = [] ∧
      s.connections.Perm conns ∧ s.connections.Pairwise (Ranked.Before ((chosen before).rank s.firstSeen) ConnInfo.id)

structure Current (inputs : List Input) (s : DashboardState) : Prop where
  sort : s.sort = chosen inputs
  firstSeen : s.firstSeen = since (samples inputs)
  tabled : Tabled inputs s

theorem samples_snoc (inputs : List Input) (input : Input) : samples (inputs ++ [input]) = samples inputs ++ input.sample.toList := by
  rw [samples, List.filterMap_append, ← samples]
  cases input <;> rfl

theorem chosen_snoc (inputs : List Input) (input : Input) :
    chosen (inputs ++ [input]) = if let .key .cycleSort := input then (chosen inputs).next else chosen inputs := by
  rw [chosen, List.foldl_append]
  rfl

theorem current_tick (termHeight : UInt16) (inputs : List Input) (s : DashboardState) (now : Nat) (batch : List Received)
    (conns : List ConnInfo) (current : Current inputs s) :
    Current (inputs ++ [.tick now batch conns]) (tick termHeight s now batch conns) := by
  obtain ⟨sort, firstSeen, connections⟩ := tick_table termHeight s now batch conns
  refine ⟨?_, ?_, .inr ⟨inputs, now, batch, conns, [], rfl, rfl, ?_, ?_⟩⟩
  · rw [sort, current.sort, chosen_snoc]
  · rw [firstSeen, current.firstSeen, samples_snoc]
    funext id
    exact (since_snoc _ now conns id).symm
  · rw [connections]
    exact List.mergeSort_perm _ _
  · rw [connections, firstSeen, current.sort]
    exact sort_connections_sorted conns _ _

theorem current_press (screen : Screen) (inputs : List Input) (s : DashboardState) (action : KeyAction) (current : Current inputs s) :
    Current (inputs ++ [.key action]) (press screen s action) := by
  obtain ⟨firstSeen, connections, sort⟩ := press_table screen s action
  have quiet (more : List Input) : samples (more ++ [.key action]) = samples more := by
    rw [samples_snoc]
    exact List.append_nil _
  refine ⟨?_, ?_, ?_⟩
  · rw [sort, current.sort, chosen_snoc]
    cases action <;> rfl
  · rw [firstSeen, current.firstSeen, quiet]
  · rw [Tabled, connections, firstSeen, quiet]
    rcases current.tabled with ⟨nothing, empty⟩ | ⟨before, now, batch, conns, keys, cut, later, rows⟩
    · exact .inl ⟨nothing, empty⟩
    · exact .inr ⟨before, now, batch, conns, keys ++ [.key action], by simp [cut], by rw [quiet, later], rows⟩

-- The table shows each connection of the last sample once, with its age and in the order asked for.
theorem table_current (screen : Screen) (inputs : List Input) (outputs : List Drawn) (s : DashboardState)
    (run : (machine screen).Run .new inputs outputs s) : Current inputs s := by
  refine (machine screen).run_invariant .new (fun inputs _ s => Current inputs s) ⟨rfl, rfl, .inl ⟨rfl, rfl⟩⟩ ?_ inputs outputs s run
  intro inputs _ s input after made current stepped
  cases input with
  | tick now batch conns =>
      cases stepped
      exact current_tick screen.height inputs s now batch conns current
  | key action =>
      cases action with
      | quit => cases stepped
      | cycleSort | switchFocus | scrollUp _ | scrollDown _ =>
          cases stepped
          exact current_press screen inputs s _ current

-- A connection that left and came back counts from its return.
theorem table_current_returned : ∃ outputs s, (machine ⟨24, by decide⟩).Run .new
    [.tick 3 [] [⟨7, .v4 (.new 127 0 0 1) 9, "x:1", .udp, 0, 0⟩],
      .tick 4 [] [], .tick 5 [] [⟨7, .v4 (.new 127 0 0 1) 9, "x:1", .udp, 8, 0⟩], .key .cycleSort] outputs s ∧
    s.firstSeen 7 = some 5 ∧ s.sort = .up ∧ Tabled [.tick 3 [] [⟨7, .v4 (.new 127 0 0 1) 9, "x:1", .udp, 0, 0⟩],
      .tick 4 [] [], .tick 5 [] [⟨7, .v4 (.new 127 0 0 1) 9, "x:1", .udp, 8, 0⟩], .key .cycleSort] s := by
  have run := (machine ⟨24, by decide⟩).exec_run .new [.tick 3 [] [⟨7, .v4 (.new 127 0 0 1) 9, "x:1", .udp, 0, 0⟩],
    .tick 4 [] [], .tick 5 [] [⟨7, .v4 (.new 127 0 0 1) 9, "x:1", .udp, 8, 0⟩], .key .cycleSort] _ _ rfl
  have current := table_current ⟨24, by decide⟩ _ _ _ run
  refine ⟨_, _, run, ?_, current.sort, current.tabled⟩
  rw [current.firstSeen]
  rfl

-- The same input, with the connections of a sample in another order.
inductive Reordered : Input → Input → Prop where
  | tick (now : Nat) (batch : List Received) (conns others : List ConnInfo) (perm : conns.Perm others)
      (distinct : (conns.map ConnInfo.id).Nodup) : Reordered (.tick now batch conns) (.tick now batch others)
  | key (action : KeyAction) : Reordered (.key action) (.key action)

theorem tick_perm (termHeight : UInt16) (s : DashboardState) (now : Nat) (batch : List Received) (conns others : List ConnInfo)
    (perm : conns.Perm others) (distinct : (conns.map ConnInfo.id).Nodup) :
    tick termHeight s now batch conns = tick termHeight s now batch others := by
  have seen : observe s.firstSeen now conns = observe s.firstSeen now others := by
    funext id
    simp only [observe, (perm.map ConnInfo.id).mem_iff]
  have sorted (sort : SortKey) (firstSeen : Nat → Option Nat) : sortConnections conns sort firstSeen = sortConnections others sort firstSeen :=
    Ranked.sort_perm _ _ _ (le_rank sort firstSeen) conns others perm distinct
  have anchored (added : Nat) (log : LogRing) : (anchor termHeight { s with log } added).firstSeen = s.firstSeen := by
    rw [anchor]
    split <;> rfl
  simp only [tick, anchored, seen, sorted]

-- The registry is a hash map, and its order is never seen.
theorem table_order_free (screen : Screen) (inputs others : List Input) (outputs : List Drawn) (s : DashboardState)
    (same : List.Forall₂ Reordered others inputs) (run : (machine screen).Run .new inputs outputs s) :
    (machine screen).Run .new others outputs s := by
  refine (machine screen).run_alike Reordered ?_ .new s inputs others outputs same run
  intro s other input alike
  cases alike with
  | key action => rfl
  | tick now batch conns reordered perm distinct => simp only [machine, tick_perm screen.height s now batch conns reordered perm distinct]

theorem table_order_free_two : ∃ outputs s,
    (machine ⟨24, by decide⟩).Run .new [.tick 0 [] [⟨1, .v4 (.new 127 0 0 1) 9, "x:1", .connect, 0, 4⟩,
      ⟨2, .v4 (.new 127 0 0 1) 9, "y:1", .udp, 0, 0⟩], .key .cycleSort] outputs s ∧
    (machine ⟨24, by decide⟩).Run .new [.tick 0 [] [⟨2, .v4 (.new 127 0 0 1) 9, "y:1", .udp, 0, 0⟩,
      ⟨1, .v4 (.new 127 0 0 1) 9, "x:1", .connect, 0, 4⟩], .key .cycleSort] outputs s := by
  have run := (machine ⟨24, by decide⟩).exec_run .new [.tick 0 [] [⟨1, .v4 (.new 127 0 0 1) 9, "x:1", .connect, 0, 4⟩,
    ⟨2, .v4 (.new 127 0 0 1) 9, "y:1", .udp, 0, 0⟩], .key .cycleSort] _ _ rfl
  exact ⟨_, _, run, table_order_free ⟨24, by decide⟩ _ _ _ _
    (.cons (.tick 0 [] _ _ (.swap _ _ []) (by decide)) (.cons (.key .cycleSort) .nil)) run⟩

end Tui

end NextSocks5
