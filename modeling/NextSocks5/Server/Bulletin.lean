import NextSocks5.Server.Registry

set_option autoImplicit false

namespace NextSocks5

def Event.opens : Event → Option Nat
  | .connect id _ _ _ => some id
  | _ => none

def Event.closes : Event → Option Nat
  | .closed id => some id
  | _ => none

def openedIds (events : List Event) : List Nat := events.filterMap Event.opens

def closedIds (events : List Event) : List Nat := events.filterMap Event.closes

-- An id is opened once, and closed at most once and after that.
structure Paired (events : List Event) : Prop where
  opened : (openedIds events).Nodup
  closed : (closedIds events).Nodup
  ordered : ∀ before id after, events = before ++ .closed id :: after → id ∈ openedIds before

theorem opened_ids_append (events : List Event) (ev : Event) : openedIds (events ++ [ev]) = openedIds events ++ ev.opens.toList := by
  rw [openedIds, List.filterMap_append, ← openedIds]
  cases ev <;> rfl

theorem closed_ids_append (events : List Event) (ev : Event) : closedIds (events ++ [ev]) = closedIds events ++ ev.closes.toList := by
  rw [closedIds, List.filterMap_append, ← closedIds]
  cases ev <;> rfl

theorem paired_append (events : List Event) (ev : Event) (paired : Paired events) (unopened : ∀ id, ev.opens = some id → id ∉ openedIds events)
    (unclosed : ∀ id, ev.closes = some id → id ∉ closedIds events ∧ id ∈ openedIds events) : Paired (events ++ [ev]) := by
  refine ⟨?_, ?_, ?_⟩
  · rw [opened_ids_append]
    cases opens : ev.opens with
    | none => simpa using paired.opened
    | some id =>
        rw [Option.toList_some, ← List.concat_eq_append]
        exact paired.opened.concat (unopened id opens)
  · rw [closed_ids_append]
    cases closes : ev.closes with
    | none => simpa using paired.closed
    | some id =>
        rw [Option.toList_some, ← List.concat_eq_append]
        exact paired.closed.concat (unclosed id closes).1
  · intro before id after cut
    rcases List.eq_nil_or_concat after with rfl | ⟨init, last, rfl⟩
    · obtain ⟨rfl, same⟩ := List.append_inj' cut rfl
      obtain rfl := List.singleton_inj.mp same
      exact (unclosed id rfl).2
    · have longer : events ++ [ev] = (before ++ .closed id :: init) ++ [last] := by simpa using cut
      exact paired.ordered before id init (List.append_inj' longer rfl).1

namespace Bulletin

open Registry (Stage Task Registration telling)

inductive Told where
  | nothing
  | opened
  | closed
deriving DecidableEq

variable {τ : Type} [DecidableEq τ]

structure State (τ : Type) where
  registry : Registry.State τ
  told : τ → Told

def State.stage (s : State τ) (t : τ) : Stage := (s.registry.tasks t).stage

def State.tell (s : State τ) (t : τ) (told : Told) : State τ := { s with told := Function.update s.told t told }

theorem tell_self (s : State τ) (t : τ) (told : Told) : (s.tell t told).told t = told := by simp [State.tell]

theorem tell_other (s : State τ) (t u : τ) (told : Told) (other : u ≠ t) : (s.tell t told).told u = s.told u := by
  simp [State.tell, other]

inductive Wake (τ : Type) where
  | step (t : τ)
  | tell (t : τ)
  | note (ev : Event)

-- The event is sent right after the call that it tells of.
def announcement : Stage → Told → Option (Event × Told)
  | .running r, .nothing => (telling r.id (.register r.src r.target r.kind)).map fun ev => (ev, .opened)
  | .finished r, .opened => (telling r.id .unregister).map fun ev => (ev, .closed)
  | _, _ => none

def machine : Machine (State τ) (Wake τ) Event where
  step s
    | .step t =>
        match announcement (s.stage t) (s.told t) with
        | some _ => none
        | none => (Registry.machine.step s.registry t).map fun (registry, _) => ({ s with registry }, [])
    | .tell t =>
        (announcement (s.stage t) (s.told t)).map fun (ev, told) => (s.tell t told, [ev])
    | .note ev => if ev.opens = none ∧ ev.closes = none then some (s, [ev]) else none

def start (programs : τ → Registry.Execution) : State τ := ⟨Registry.start programs, fun _ => .nothing⟩

def Agrees (stage : Stage) : Told → Prop
  | .nothing => stage.entered = false ∨ ∃ r, stage = .running r
  | .opened => stage.entered = true
  | .closed => ∃ r, stage = .finished r

theorem agrees_registered (stage : Stage) (told : Told) (agrees : Agrees stage told) (spoke : told ≠ .nothing) :
    ∃ r, stage.registration = some r := by
  cases told with
  | nothing => exact absurd rfl spoke
  | opened =>
      cases stage with
      | running r | adding r _ _ | leaving r | finished r => exact ⟨r, rfl⟩
      | _ => cases agrees
  | closed =>
      obtain ⟨r, rfl⟩ := agrees
      exact ⟨r, rfl⟩

theorem agrees_steps (m after : Metrics) (task next : Task) (credited : List (Relay.Direction × Nat)) (told : Told)
    (agrees : Agrees task.stage told) (quiet : announcement task.stage told = none) (steps : Registry.Steps m task after next credited) :
    Agrees next.stage told := by
  cases told with
  | nothing =>
      cases steps with
      | insert r rest => exact .inr ⟨r, rfl⟩
      | add r dir n rest | unregister r rest | success r rest => cases quiet
      | credit r dir n rest | remove r rest =>
          rcases agrees with outside | ⟨q, stageIs⟩
          · cases outside
          · cases stageIs
      | _ => exact .inl rfl
  | opened =>
      cases steps with
      | add r dir n rest | unregister r rest | success r rest | credit r dir n rest | remove r rest => rfl
      | _ => cases agrees
  | closed =>
      obtain ⟨r, stageIs⟩ := agrees
      cases steps <;> cases stageIs

def Known (s : State τ) (spoke : Told → Prop) (id : Nat) : Prop := ∃ t r, spoke (s.told t) ∧ (s.stage t).registration = some r ∧ r.id = id

structure Ledger (events : List Event) (s : State τ) : Prop where
  ids : Registry.Ids s.registry
  entries : ∃ outputs, Registry.Entries outputs s.registry
  agrees : ∀ t, Agrees (s.stage t) (s.told t)
  opened : ∀ id, id ∈ openedIds events ↔ Known s (· ≠ .nothing) id
  closed : ∀ id, id ∈ closedIds events ↔ Known s (· = .closed) id
  paired : Paired events

theorem ledger_start (programs : τ → Registry.Execution) : Ledger [] (start programs) where
  ids := ⟨fun _ _ _ _ has => (by cases has), fun _ _ has => (by cases has)⟩
  entries := ⟨[], fun _ _ listed => (by cases listed), fun _ _ found => (by cases found), fun _ _ _ => rfl⟩
  agrees := fun _ => .inl rfl
  opened := fun id => ⟨fun member => (by cases member), fun known => (by obtain ⟨_, _, spoke, _⟩ := known; exact absurd rfl spoke)⟩
  closed := fun id => ⟨fun member => (by cases member), fun known => (by obtain ⟨_, _, spoke, _⟩ := known; cases spoke)⟩
  paired := ⟨List.nodup_nil, List.nodup_nil, fun before id after cut => (by simp at cut)⟩

theorem ledger_step (events : List Event) (s : State τ) (t : τ) (registry : Registry.State τ) (made : List (τ × Relay.Direction × Nat))
    (ledger : Ledger events s) (quiet : announcement (s.stage t) (s.told t) = none)
    (moved : Registry.machine.step s.registry t = some (registry, made)) : Ledger events { s with registry } := by
  obtain ⟨outputs, entries⟩ := ledger.entries
  obtain ⟨credited, steps, updated, _⟩ := Registry.machine_steps s.registry registry t made moved
  have agrees (u : τ) : Agrees (registry.tasks u).stage (s.told u) := by
    by_cases own : u = t
    · subst own
      exact agrees_steps _ _ _ _ _ (s.told u) (ledger.agrees u) quiet steps
    · rw [Registry.others_stay s.registry registry t u updated own]
      exact ledger.agrees u
  -- A task that has told anything has its registration already.
  have same (u : τ) (spoke : s.told u ≠ .nothing) : (registry.tasks u).stage.registration = (s.stage u).registration := by
    by_cases own : u = t
    · subst own
      obtain ⟨r, has⟩ := agrees_registered _ _ (ledger.agrees u) spoke
      obtain ⟨kept, _⟩ | ⟨empty, _⟩ := Registry.steps_registration _ _ _ _ _ steps
      · exact kept
      · rw [State.stage, empty] at has
        cases has
    · rw [Registry.others_stay s.registry registry t u updated own, State.stage]
  have known (spoke : Told → Prop) (loud : ∀ told, spoke told → told ≠ .nothing) (id : Nat) :
      Known { s with registry } spoke id ↔ Known s spoke id := by
    constructor
    · intro held
      obtain ⟨u, r, spoken, has, named⟩ := held
      exact ⟨u, r, spoken, (same u (loud _ spoken)).symm.trans has, named⟩
    · intro held
      obtain ⟨u, r, spoken, has, named⟩ := held
      exact ⟨u, r, spoken, (same u (loud _ spoken)).trans has, named⟩
  have ids := Registry.ids_step s.registry registry t made ledger.ids moved
  have credits := Registry.entries_step outputs s.registry registry t made ledger.ids entries moved
  refine ⟨ids, ⟨_, credits⟩, agrees, ?_, ?_, ledger.paired⟩
  · intro id
    rw [ledger.opened, known _ (fun _ loud => loud)]
  · intro id
    rw [ledger.closed, known _ (fun _ spoken => by rw [spoken]; decide)]

theorem known_tell (s : State τ) (t : τ) (r : Registration) (told : Told)
    (has : (s.stage t).registration = some r) (spoke : Told → Prop) (more : spoke (s.told t) → spoke told) (id : Nat) :
    Known (s.tell t told) spoke id ↔ Known s spoke id ∨ spoke told ∧ r.id = id := by
  constructor
  · intro held
    obtain ⟨u, q, spoken, holds, named⟩ := held
    by_cases own : u = t
    · subst own
      obtain rfl := Option.some.inj (has.symm.trans holds)
      rw [tell_self] at spoken
      exact .inr ⟨spoken, named⟩
    · rw [tell_other s t u told own] at spoken
      exact .inl ⟨u, q, spoken, holds, named⟩
  · intro held
    obtain ⟨u, q, spoken, rest⟩ | ⟨spoken, named⟩ := held
    · refine ⟨u, q, ?_, rest⟩
      by_cases own : u = t
      · subst own
        rw [tell_self]
        exact more spoken
      · rw [tell_other s t u told own]
        exact spoken
    · exact ⟨t, r, by rw [tell_self]; exact spoken, has, named⟩

theorem agrees_tell (events : List Event) (s : State τ) (t : τ) (told : Told) (ledger : Ledger events s)
    (now : Agrees (s.stage t) told) (u : τ) : Agrees ((s.tell t told).stage u) ((s.tell t told).told u) := by
  by_cases own : u = t
  · subst own
    rw [tell_self]
    exact now
  · rw [tell_other s t u told own]
    exact ledger.agrees u

theorem ledger_open (events : List Event) (s : State τ) (t : τ) (r : Registration) (ledger : Ledger events s)
    (stageIs : s.stage t = .running r) (mute : s.told t = .nothing) :
    Ledger (events ++ [.connect r.id r.src r.target r.kind]) (s.tell t .opened) := by
  have has : (s.stage t).registration = some r := by rw [stageIs]; rfl
  refine ⟨ledger.ids, ledger.entries, agrees_tell events s t .opened ledger (by rw [stageIs]; rfl), ?_, ?_,
    paired_append events _ ledger.paired ?_ ?_⟩
  · intro id
    rw [opened_ids_append, List.mem_append, ledger.opened, known_tell s t r .opened has _ (fun _ => by decide)]
    simp [Event.opens, eq_comm]
  · intro id
    have silent : (Event.connect r.id r.src r.target r.kind).closes = none := rfl
    rw [closed_ids_append, silent, Option.toList_none, List.append_nil, ledger.closed,
      known_tell s t r .opened has _ (fun spoken => by rw [mute] at spoken; cases spoken)]
    simp
  · intro id opens member
    obtain rfl := Option.some.inj opens
    obtain ⟨u, q, spoke, holds, named⟩ := (ledger.opened r.id).mp member
    obtain rfl := ledger.ids.distinct u t q r holds has named
    exact spoke mute
  · intro id closes
    cases closes

theorem ledger_close (events : List Event) (s : State τ) (t : τ) (r : Registration) (ledger : Ledger events s)
    (stageIs : s.stage t = .finished r) (unclosed : s.told t = .opened) : Ledger (events ++ [.closed r.id]) (s.tell t .closed) := by
  have has : (s.stage t).registration = some r := by rw [stageIs]; rfl
  have known : Known s (· ≠ .nothing) r.id := ⟨t, r, by rw [unclosed]; decide, has, rfl⟩
  refine ⟨ledger.ids, ledger.entries, agrees_tell events s t .closed ledger ⟨r, stageIs⟩, ?_, ?_,
    paired_append events _ ledger.paired ?_ ?_⟩
  · intro id
    have silent : (Event.closed r.id).opens = none := rfl
    rw [opened_ids_append, silent, Option.toList_none, List.append_nil, ledger.opened,
      known_tell s t r .closed has _ (fun _ => by decide)]
    refine (or_iff_left_of_imp ?_).symm
    intro self
    exact self.2 ▸ known
  · intro id
    rw [closed_ids_append, List.mem_append, ledger.closed, known_tell s t r .closed has (· = .closed) (fun _ => rfl)]
    simp [Event.closes, eq_comm]
  · intro id opens
    cases opens
  · intro id closes
    obtain rfl := Option.some.inj closes
    refine ⟨?_, (ledger.opened r.id).mpr known⟩
    intro member
    obtain ⟨u, q, spoken, holds, named⟩ := (ledger.closed r.id).mp member
    obtain rfl := ledger.ids.distinct u t q r holds has named
    rw [unclosed] at spoken
    cases spoken

theorem announced (stage : Stage) (told next : Told) (ev : Event) (made : announcement stage told = some (ev, next)) :
    (∃ r, stage = .running r ∧ told = .nothing ∧ ev = .connect r.id r.src r.target r.kind ∧ next = .opened) ∨
    (∃ r, stage = .finished r ∧ told = .opened ∧ ev = .closed r.id ∧ next = .closed) := by
  cases stage with
  | running r =>
      cases told with
      | nothing =>
          cases made
          exact .inl ⟨r, rfl, rfl, rfl, rfl⟩
      | _ => cases made
  | finished r =>
      cases told with
      | opened =>
          cases made
          exact .inr ⟨r, rfl, rfl, rfl, rfl⟩
      | _ => cases made
  | _ => cases made

theorem ledger_next (events : List Event) (s after : State τ) (wake : Wake τ) (made : List Event) (ledger : Ledger events s)
    (stepped : machine.step s wake = some (after, made)) : Ledger (events ++ made) after := by
  simp only [machine] at stepped
  cases wake with
  | step t =>
      dsimp only at stepped
      cases quiet : announcement (s.stage t) (s.told t) with
      | some spoken =>
          rw [quiet] at stepped
          cases stepped
      | none =>
          rw [quiet] at stepped
          obtain ⟨⟨registry, credited⟩, moved, rest⟩ := Option.map_eq_some_iff.mp stepped
          cases rest
          rw [List.append_nil]
          exact ledger_step events s t registry credited ledger quiet moved
  | tell t =>
      obtain ⟨⟨ev, told⟩, spoken, rest⟩ := Option.map_eq_some_iff.mp stepped
      cases rest
      rcases announced _ _ _ _ spoken with ⟨r, stageIs, mute, rfl, rfl⟩ | ⟨r, stageIs, unclosed, rfl, rfl⟩
      · exact ledger_open events s t r ledger stageIs mute
      · exact ledger_close events s t r ledger stageIs unclosed
  | note ev =>
      obtain ⟨neither, rest⟩ := Option.ite_none_right_eq_some.mp stepped
      cases rest
      refine ⟨ledger.ids, ledger.entries, ledger.agrees, ?_, ?_, paired_append events ev ledger.paired ?_ ?_⟩
      · intro id
        rw [opened_ids_append, neither.1, Option.toList_none, List.append_nil, ledger.opened]
      · intro id
        rw [closed_ids_append, neither.2, Option.toList_none, List.append_nil, ledger.closed]
      · intro id opens
        rw [neither.1] at opens
        cases opens
      · intro id closes
        rw [neither.2] at closes
        cases closes

theorem ledger_run (programs : τ → Registry.Execution) (wakes : List (Wake τ)) (events : List Event) (s : State τ)
    (run : machine.Run (start programs) wakes events s) : Ledger events s :=
  Machine.run_invariant machine (start programs) (fun _ events s => Ledger events s) (ledger_start programs)
    (fun _ events s wake after made ledger stepped => ledger_next events s after wake made ledger stepped) wakes events s run

theorem registry_run (programs : τ → Registry.Execution) (wakes : List (Wake τ)) (events : List Event) (s : State τ)
    (run : machine.Run (start programs) wakes events s) :
    ∃ schedule outputs, Registry.machine.Run (Registry.start programs) schedule outputs s.registry := by
  refine Machine.run_invariant machine (start programs)
    (fun _ _ s => ∃ schedule outputs, Registry.machine.Run (Registry.start programs) schedule outputs s.registry)
    ⟨[], [], .idle⟩ ?_ wakes events s run
  intro _ _ s wake after made held stepped
  obtain ⟨schedule, outputs, before⟩ := held
  simp only [machine] at stepped
  cases wake with
  | step t =>
      dsimp only at stepped
      split at stepped
      · cases stepped
      · obtain ⟨⟨registry, credited⟩, moved, rest⟩ := Option.map_eq_some_iff.mp stepped
        cases rest
        exact ⟨_, _, before.next t credited registry moved⟩
  | tell t =>
      obtain ⟨_, _, rest⟩ := Option.map_eq_some_iff.mp stepped
      cases rest
      exact ⟨schedule, outputs, before⟩
  | note ev =>
      obtain ⟨_, rest⟩ := Option.ite_none_right_eq_some.mp stepped
      cases rest
      exact ⟨schedule, outputs, before⟩

def Wake.Spares (u : τ) : Wake τ → Prop
  | .step t | .tell t => u ≠ t
  | .note _ => True

theorem step_spares (s after : State τ) (wake : Wake τ) (made : List Event) (stepped : machine.step s wake = some (after, made))
    (u : τ) (spares : wake.Spares u) : after.registry.tasks u = s.registry.tasks u ∧ after.told u = s.told u := by
  simp only [machine] at stepped
  cases wake with
  | step t =>
      dsimp only at stepped
      split at stepped
      · cases stepped
      · obtain ⟨⟨registry, credited⟩, moved, rest⟩ := Option.map_eq_some_iff.mp stepped
        cases rest
        obtain ⟨_, _, updated, _⟩ := Registry.machine_steps s.registry registry t credited moved
        exact ⟨Registry.others_stay s.registry registry t u updated spares, rfl⟩
  | tell t =>
      obtain ⟨⟨ev, told⟩, _, rest⟩ := Option.map_eq_some_iff.mp stepped
      cases rest
      exact ⟨rfl, tell_other s t u told spares⟩
  | note ev =>
      obtain ⟨_, rest⟩ := Option.ite_none_right_eq_some.mp stepped
      cases rest
      exact ⟨rfl, rfl⟩

theorem notes_run (s : State τ) (events : List Event) (neither : ∀ ev ∈ events, ev.opens = none ∧ ev.closes = none) :
    machine.Run s (events.map Wake.note) events s := by
  induction events using List.reverseRecOn with
  | nil => exact .idle
  | append_singleton events ev ih =>
      rw [List.map_append]
      exact (ih fun other member => neither other (List.mem_append_left _ member)).next (.note ev) [ev] s
        (if_pos (neither ev (by simp)))

-- No task is inside a call, or between a call and the event that tells of it.
def Quiet (s : State τ) : Prop := ∀ t, (s.stage t).between = true ∧ announcement (s.stage t) (s.told t) = none

theorem quiet_open (events : List Event) (s : State τ) (ledger : Ledger events s) (quiet : Quiet s) (id : Nat) :
    (∃ info, s.registry.metrics.entry id = some info) ↔ id ∈ openedIds events ∧ id ∉ closedIds events := by
  obtain ⟨outputs, entries⟩ := ledger.entries
  rw [ledger.opened, ledger.closed]
  constructor
  · intro held
    obtain ⟨info, found⟩ := held
    obtain ⟨t, r, listed, named⟩ := entries.owned id info found
    have has : (s.stage t).registration = some r := Stage.listed_registration _ r listed
    have spoke : s.told t = .opened := by
      obtain ⟨between, spoken⟩ := quiet t
      have agrees := ledger.agrees t
      change (s.stage t).listed = some r at listed
      cases told : s.told t with
      | opened => rfl
      | nothing =>
          rw [told] at spoken
          cases stage : s.stage t with
          | running q => rw [stage] at spoken; cases spoken
          | leaving q | adding q _ _ => rw [stage] at between; cases between
          | _ => rw [stage] at listed; cases listed
      | closed =>
          rw [told] at agrees
          obtain ⟨q, stageIs⟩ := agrees
          rw [stageIs] at listed
          cases listed
    refine ⟨⟨t, r, by rw [spoke]; decide, has, named⟩, ?_⟩
    intro closed
    obtain ⟨u, q, spoken, holds, sameId⟩ := closed
    obtain rfl := ledger.ids.distinct u t q r holds has (sameId.trans named.symm)
    rw [spoke] at spoken
    cases spoken
  · intro held
    obtain ⟨⟨t, r, spoke, has, named⟩, unclosed⟩ := held
    have told : s.told t = .opened := by
      cases told : s.told t with
      | nothing => exact absurd told spoke
      | opened => rfl
      | closed => exact absurd ⟨t, r, told, has, named⟩ unclosed
    obtain ⟨between, spoken⟩ := quiet t
    have agrees := ledger.agrees t
    rw [told] at agrees spoken
    cases stage : s.stage t with
    | running q =>
        rw [stage] at has
        obtain rfl := Option.some.inj has
        have listed : (s.registry.tasks t).stage.listed = some q := by
          change (s.stage t).listed = some q
          rw [stage]
          rfl
        exact ⟨_, named ▸ entries.entry t q listed⟩
    | finished q => rw [stage] at spoken; cases spoken
    | adding q _ _ | leaving q => rw [stage] at between; cases between
    | _ => rw [stage] at agrees; cases agrees

-- The events tell of every registration once, and the registry holds what they leave open.
theorem events_account (programs : τ → Registry.Execution) (wakes : List (Wake τ)) (events : List Event) (s : State τ)
    (run : machine.Run (start programs) wakes events s) :
    Paired events ∧ (∀ id, id ∈ openedIds events ↔ Known s (· ≠ .nothing) id) ∧
    (∀ id, id ∈ closedIds events ↔ Known s (· = .closed) id) ∧
      (Quiet s → ∀ id, (∃ info, s.registry.metrics.entry id = some info) ↔ id ∈ openedIds events ∧ id ∉ closedIds events) := by
  have ledger := ledger_run programs wakes events s run
  exact ⟨ledger.paired, ledger.opened, ledger.closed, quiet_open events s ledger⟩

-- Two associations of which one is over, while the registry still holds the other.
theorem events_account_two : ∃ (s : State Bool) (src : SocketAddr),
    Paired [.connect 1 src "udp-associate" .udp, .log "x", .connect 2 src "udp-associate" .udp, .closed 1] ∧
    ∀ id, id ∈ [1, 2] ↔ Known s (· ≠ .nothing) id := by
  obtain ⟨program, _, operations⟩ := Registry.query_program
  let wakes : List (Wake Bool) := [.step true, .step true, .step true, .step true, .tell true, .note (.log "x"), .step false, .step true,
    .step true, .step true, .step true, .step false, .step false, .step false, .tell false, .step true, .step true, .step true, .tell true]
  have begins : start (fun _ : Bool => program) = ⟨⟨.new, fun _ => ⟨.fresh, Registry.queryOperations⟩⟩, fun _ => .nothing⟩ := by
    rw [start, Registry.start, operations]
  have ran : (machine.exec (⟨⟨.new, fun _ => ⟨.fresh, Registry.queryOperations⟩⟩, fun _ => .nothing⟩ : State Bool) wakes).map Prod.fst =
      some [.connect 1 Udp.query53.clientPeer "udp-associate" .udp, .log "x", .connect 2 Udp.query53.clientPeer "udp-associate" .udp,
        .closed 1] := by decide +kernel
  rw [← begins] at ran
  obtain ⟨⟨events, s⟩, done, made⟩ := Option.map_eq_some_iff.mp ran
  obtain ⟨paired, opened, _⟩ := events_account (fun _ => program) wakes events s (machine.exec_run _ _ _ _ done)
  have all : events = [.connect 1 Udp.query53.clientPeer "udp-associate" .udp, .log "x",
    .connect 2 Udp.query53.clientPeer "udp-associate" .udp, .closed 1] := made
  rw [all] at paired opened
  exact ⟨s, Udp.query53.clientPeer, paired, opened⟩

end Bulletin

end NextSocks5
