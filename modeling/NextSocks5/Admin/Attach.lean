import NextSocks5.Admin.Frame
import NextSocks5.Library.Machine
import NextSocks5.Library.Window

set_option autoImplicit false

namespace NextSocks5

namespace Admin

def adminEventRingCapacity : Nat := 500

namespace EventRing

variable {α : Type}

def new : List α := []

-- At capacity the oldest is evicted first.
def push (q : List α) (ev : α) : List α := Window.push adminEventRingCapacity q ev

def snapshot (q : List α) : List α := q

end EventRing

namespace Attach

abbrev Message := Event × Nat

structure Filler where
  pushed : Nat
  holding : Option Message
deriving DecidableEq, Repr

inductive Phase where
  | greeting
  | sending
  | ended
deriving DecidableEq, Repr

-- `next` is the place of the receiver, `rest` what is left of the replay; the others are history.
structure Session where
  next : Nat
  phase : Phase
  rest : List Message
  subscribed : Nat
  filled : Nat
  replay : List Message
  written : List Message
deriving DecidableEq, Repr

structure State (κ : Type) where
  sent : List Event
  filler : Filler
  ring : List Message
  accepting : Option (κ × Nat)
  sessions : κ → Option Session

inductive Act (κ : Type) where
  | send (ev : Event)
  | receive
  | push
  | subscribe (client : κ)
  | snapshot
  | hello (client : κ)
  | replay (client : κ)
  | live (client : κ)
  | tick (client : κ) (snapshot : Snapshot) (connections : List ConnInfo)
  | finish (client : κ)
deriving DecidableEq, Repr

def numbered (sent : List Event) : List Message := sent.zipIdx

variable {κ : Type} [DecidableEq κ]

def State.set (s : State κ) (client : κ) (x : Session) : State κ :=
  { s with sessions := Function.update s.sessions client (some x) }

-- handle_client: the hello, the replay, then what the select brings; a failed write ends it as a shutdown does.
def handleClient (s : State κ) (client : κ) (x : Session) (listenAddr : Option String) : Act κ → Option (State κ × List (κ × Frame))
  | .hello _ =>
      match x.phase with
      | .greeting => some (s.set client { x with phase := .sending }, [(client, .hello protoVersion listenAddr)])
      | _ => none
  | .replay _ =>
      match x.phase, x.rest with
      | .sending, message :: rest =>
          some (s.set client { x with rest := rest, written := x.written ++ [message] }, [(client, .event message.1)])
      | _, _ => none
  | .live _ =>
      match x.phase, x.rest, (numbered s.sent)[x.next]? with
      | .sending, [], some message =>
          some (s.set client { x with next := x.next + 1, written := x.written ++ [message] }, [(client, .event message.1)])
      | _, _, _ => none
  | .tick _ snapshot connections =>
      match x.phase, x.rest with
      | .sending, [] => some (s, [(client, .stats snapshot connections)])
      | _, _ => none
  | .finish _ => some (s.set client { x with phase := .ended }, [])
  | _ => none

-- No receiver lags: every event stays until the receivers have taken it.
def step (listenAddr : Option String) (s : State κ) (act : Act κ) : Option (State κ × List (κ × Frame)) :=
  match act with
  | .send ev => some ({ s with sent := s.sent ++ [ev] }, [])
  | .receive =>
      match s.filler.holding, (numbered s.sent)[s.filler.pushed]? with
      | none, some message => some ({ s with filler := { s.filler with holding := some message } }, [])
      | _, _ => none
  | .push =>
      match s.filler.holding with
      | some message => some ({ s with filler := ⟨s.filler.pushed + 1, none⟩, ring := EventRing.push s.ring message }, [])
      | none => none
  | .subscribe client =>
      match s.accepting, s.sessions client with
      | none, none => some ({ s with accepting := some (client, s.sent.length) }, [])
      | _, _ => none
  | .snapshot =>
      match s.accepting with
      | some (client, place) =>
          let replay := EventRing.snapshot s.ring
          some ({ s with accepting := none }.set client ⟨place, .greeting, replay, place, s.filler.pushed, replay, []⟩, [])
      | none => none
  | .hello client | .replay client | .live client | .tick client _ _ | .finish client =>
      (s.sessions client).bind fun x => handleClient s client x listenAddr act

def machine (listenAddr : Option String) : Machine (State κ) (Act κ) (κ × Frame) := ⟨step listenAddr⟩

-- The filler subscribes after the `earlier` events.
def start (earlier : List Event) : State κ := ⟨earlier, ⟨earlier.length, none⟩, EventRing.new, none, fun _ => none⟩

inductive Serves (all : List Message) (x : Session) : Session → List Frame → Prop where
  | hello (listenAddr : Option String) : Serves all x { x with phase := .sending } [.hello protoVersion listenAddr]
  | replay (message : Message) (rest : List Message) (left : x.rest = message :: rest) :
      Serves all x { x with rest := rest, written := x.written ++ [message] } [.event message.1]
  | live (message : Message) (replayed : x.rest = []) (queued : all[x.next]? = some message) :
      Serves all x { x with next := x.next + 1, written := x.written ++ [message] } [.event message.1]
  | tick (snapshot : Snapshot) (connections : List ConnInfo) : Serves all x x [.stats snapshot connections]
  | finish : Serves all x { x with phase := .ended } []

inductive Moves (s : State κ) : Act κ → State κ → List (κ × Frame) → Prop where
  | send (ev : Event) : Moves s (.send ev) { s with sent := s.sent ++ [ev] } []
  | receive (message : Message) (idle : s.filler.holding = none) (queued : (numbered s.sent)[s.filler.pushed]? = some message) :
      Moves s .receive { s with filler := { s.filler with holding := some message } } []
  | push (message : Message) (held : s.filler.holding = some message) :
      Moves s .push { s with filler := ⟨s.filler.pushed + 1, none⟩, ring := EventRing.push s.ring message } []
  | subscribe (client : κ) (idle : s.accepting = none) (absent : s.sessions client = none) :
      Moves s (.subscribe client) { s with accepting := some (client, s.sent.length) } []
  | snapshot (client : κ) (place : Nat) (accepting : s.accepting = some (client, place)) :
      Moves s .snapshot ({ s with accepting := none }.set client ⟨place, .greeting, s.ring, place, s.filler.pushed, s.ring, []⟩) []
  | serve (act : Act κ) (other : act ≠ .snapshot) (client : κ) (x y : Session) (frames : List Frame)
      (found : s.sessions client = some x) (serves : Serves (numbered s.sent) x y frames) :
      Moves s act (s.set client y) (frames.map fun frame => (client, frame))

theorem set_same (s : State κ) (client : κ) (x : Session) (found : s.sessions client = some x) : s.set client x = s := by
  rw [State.set, ← found, Function.update_eq_self]

theorem handle_client_serves (s after : State κ) (client : κ) (x : Session) (listenAddr : Option String) (act : Act κ)
    (made : List (κ × Frame)) (found : s.sessions client = some x)
    (stepped : handleClient s client x listenAddr act = some (after, made)) :
    ∃ y frames, Serves (numbered s.sent) x y frames ∧ after = s.set client y ∧ made = frames.map fun frame => (client, frame) := by
  cases act with
  | hello _ =>
      simp only [handleClient] at stepped
      split at stepped
      · cases stepped
        exact ⟨_, _, .hello listenAddr, rfl, rfl⟩
      · cases stepped
  | replay _ =>
      simp only [handleClient] at stepped
      split at stepped
      · rename_i message rest _ left
        cases stepped
        exact ⟨_, _, .replay message rest left, rfl, rfl⟩
      · cases stepped
  | live _ =>
      simp only [handleClient] at stepped
      split at stepped
      · rename_i message _ replayed queued
        cases stepped
        exact ⟨_, _, .live message replayed queued, rfl, rfl⟩
      · cases stepped
  | tick _ snapshot connections =>
      simp only [handleClient] at stepped
      split at stepped
      · cases stepped
        exact ⟨x, _, .tick snapshot connections, (set_same _ client x found).symm, rfl⟩
      · cases stepped
  | finish _ =>
      cases stepped
      exact ⟨_, _, .finish, rfl, rfl⟩
  | _ => cases stepped

theorem step_moves (listenAddr : Option String) (s after : State κ) (act : Act κ) (made : List (κ × Frame))
    (stepped : (machine listenAddr).step s act = some (after, made)) : Moves s act after made := by
  have served (client : κ) (other : act ≠ .snapshot)
      (bound : ((s.sessions client).bind fun x => handleClient s client x listenAddr act) = some (after, made)) :
      Moves s act after made := by
    obtain ⟨x, found, handled⟩ := Option.bind_eq_some_iff.mp bound
    obtain ⟨y, frames, serves, rfl, rfl⟩ := handle_client_serves s after client x listenAddr act made found handled
    exact .serve act other client x y frames found serves
  simp only [machine, step] at stepped
  cases act with
  | send ev =>
      cases stepped
      exact .send ev
  | receive =>
      dsimp only at stepped
      split at stepped
      · rename_i message idle queued
        cases stepped
        exact .receive message idle queued
      · cases stepped
  | push =>
      dsimp only at stepped
      split at stepped
      · rename_i message held
        cases stepped
        exact .push message held
      · cases stepped
  | subscribe client =>
      dsimp only at stepped
      split at stepped
      · rename_i idle absent
        cases stepped
        exact .subscribe client idle absent
      · cases stepped
  | snapshot =>
      dsimp only at stepped
      split at stepped
      · rename_i client place accepting
        cases stepped
        exact .snapshot client place accepting
      · cases stepped
  | hello client => exact served client (by simp) stepped
  | replay client => exact served client (by simp) stepped
  | live client => exact served client (by simp) stepped
  | tick client snapshot connections => exact served client (by simp) stepped
  | finish client => exact served client (by simp) stepped

@[simp] theorem numbered_length (sent : List Event) : (numbered sent).length = sent.length := List.length_zipIdx

theorem numbered_nodup (sent : List Event) : (numbered sent).Nodup := by
  apply List.Nodup.of_map Prod.snd
  rw [numbered, List.zipIdx_map_snd]
  exact List.nodup_range'

theorem numbered_send (sent : List Event) (ev : Event) : numbered (sent ++ [ev]) = numbered sent ++ [(ev, sent.length)] := by
  rw [numbered, List.zipIdx_append, List.zipIdx_singleton, Nat.zero_add]
  rfl

theorem segment_send (sent : List Event) (ev : Event) (n first : Nat) (inside : n ≤ sent.length) :
    ((numbered (sent ++ [ev])).take n).drop first = ((numbered sent).take n).drop first := by
  rw [numbered_send, List.take_append_of_le_length (by rw [numbered_length]; exact inside)]

theorem queued_send (sent : List Event) (ev : Event) (n : Nat) (message : Message) (queued : (numbered sent)[n]? = some message) :
    (numbered (sent ++ [ev]))[n]? = some message := by
  rw [numbered_send, List.getElem?_append_left (List.getElem?_eq_some_iff.mp queued).1, queued]

theorem queued_inside (sent : List Event) (n : Nat) (message : Message) (queued : (numbered sent)[n]? = some message) :
    n < sent.length := by
  have inside := (List.getElem?_eq_some_iff.mp queued).1
  rwa [numbered_length] at inside

def eventsOf (client : κ) (outputs : List (κ × Frame)) : List Event :=
  outputs.filterMap fun (other, frame) => if other = client then frame.ev else none

theorem events_self (client : κ) (outputs : List (κ × Frame)) (frames : List Frame) :
    eventsOf client (outputs ++ frames.map fun frame => (client, frame)) = eventsOf client outputs ++ frames.filterMap Frame.ev := by
  simp [eventsOf, List.filterMap_map]

theorem events_other (client other : κ) (apart : other ≠ client) (outputs : List (κ × Frame)) (frames : List Frame) :
    eventsOf other (outputs ++ frames.map fun frame => (client, frame)) = eventsOf other outputs := by
  simp [eventsOf, List.filterMap_map, apart.symm]

-- What was written, and what is left of the replay, is the replay and what the receiver took.
structure SessionInv (sent : List Event) (earlier : Nat) (x : Session) : Prop where
  split : x.written ++ x.rest = x.replay ++ ((numbered sent).take x.next).drop x.subscribed
  ordered : x.subscribed ≤ x.next
  inside : x.next ≤ sent.length
  waiting : x.rest ≠ [] → x.next = x.subscribed
  after : earlier ≤ x.filled
  filled : x.filled ≤ sent.length
  source : x.replay = Window.last adminEventRingCapacity (((numbered sent).take x.filled).drop earlier)

theorem session_send (sent : List Event) (ev : Event) (earlier : Nat) (x : Session) (inv : SessionInv sent earlier x) :
    SessionInv (sent ++ [ev]) earlier x where
  split := by rw [segment_send sent ev x.next x.subscribed inv.inside, inv.split]
  ordered := inv.ordered
  inside := by rw [List.length_append]; exact Nat.le_add_right_of_le inv.inside
  waiting := inv.waiting
  after := inv.after
  filled := by rw [List.length_append]; exact Nat.le_add_right_of_le inv.filled
  source := by rw [segment_send sent ev x.filled earlier inv.filled]; exact inv.source

theorem serves_session (sent : List Event) (earlier : Nat) (x y : Session) (frames : List Frame) (inv : SessionInv sent earlier x)
    (serves : Serves (numbered sent) x y frames) :
    SessionInv sent earlier y ∧ y.written.map Prod.fst = x.written.map Prod.fst ++ frames.filterMap Frame.ev ∧
      y.replay = x.replay ∧ y.filled = x.filled ∧ y.subscribed = x.subscribed := by
  cases serves with
  | hello listenAddr =>
      exact ⟨⟨inv.split, inv.ordered, inv.inside, inv.waiting, inv.after, inv.filled, inv.source⟩, by simp [Frame.ev], rfl, rfl, rfl⟩
  | replay message rest left =>
      refine ⟨⟨?_, inv.ordered, inv.inside, ?_, inv.after, inv.filled, inv.source⟩, by simp [Frame.ev], rfl, rfl, rfl⟩
      · rw [← inv.split, left, List.append_assoc, List.singleton_append]
      · intro _
        exact inv.waiting (by rw [left]; simp)
  | live message replayed queued =>
      have inside := queued_inside sent x.next message queued
      refine ⟨⟨?_, Nat.le_succ_of_le inv.ordered, inside, ?_, inv.after, inv.filled, inv.source⟩, by simp [Frame.ev], rfl, rfl, rfl⟩
      · have before := inv.split
        rw [replayed, List.append_nil] at before
        dsimp only
        rw [Window.take_succ_drop _ _ _ message queued inv.ordered, ← List.append_assoc, ← before, replayed, List.append_nil]
      · intro nonempty
        exact absurd replayed nonempty
  | tick snapshot connections => exact ⟨inv, by simp [Frame.ev], rfl, rfl, rfl⟩
  | finish => exact ⟨⟨inv.split, inv.ordered, inv.inside, inv.waiting, inv.after, inv.filled, inv.source⟩, by simp, rfl, rfl, rfl⟩

structure Inv (earlier : Nat) (outputs : List (κ × Frame)) (s : State κ) : Prop where
  after : earlier ≤ s.filler.pushed
  pushed : s.filler.pushed ≤ s.sent.length
  holding : ∀ message, s.filler.holding = some message → (numbered s.sent)[s.filler.pushed]? = some message
  ring : s.ring = Window.last adminEventRingCapacity (((numbered s.sent).take s.filler.pushed).drop earlier)
  accepting : ∀ client place, s.accepting = some (client, place) → s.sessions client = none ∧ place ≤ s.sent.length
  sessions : ∀ client x, s.sessions client = some x → SessionInv s.sent earlier x
  frames : ∀ client x, s.sessions client = some x → eventsOf client outputs = x.written.map Prod.fst
  quiet : ∀ client, s.sessions client = none → eventsOf client outputs = []

theorem set_sessions (s : State κ) (client other : κ) (x : Session) :
    (s.set client x).sessions other = if other = client then some x else s.sessions other := Function.update_apply _ _ _ _

theorem inv_start (earlier : List Event) : Inv earlier.length ([] : List (κ × Frame)) (start earlier) where
  after := Nat.le_refl _
  pushed := Nat.le_refl _
  holding _ held := by cases held
  ring := by
    have nothing : ((numbered earlier).take earlier.length).drop earlier.length = [] := by simp
    exact (congrArg (Window.last adminEventRingCapacity) nothing).symm
  accepting _ _ accepted := by cases accepted
  sessions _ _ found := by cases found
  frames _ _ found := by cases found
  quiet _ _ := rfl

theorem inv_send (earlier : Nat) (outputs : List (κ × Frame)) (s : State κ) (ev : Event) (inv : Inv earlier outputs s) :
    Inv earlier outputs { s with sent := s.sent ++ [ev] } := by
  have longer (n : Nat) (inside : n ≤ s.sent.length) : n ≤ (s.sent ++ [ev]).length := by
    rw [List.length_append]
    exact Nat.le_add_right_of_le inside
  refine ⟨inv.after, longer _ inv.pushed, ?_, ?_, ?_, ?_, inv.frames, inv.quiet⟩
  · intro message held
    exact queued_send s.sent ev _ message (inv.holding message held)
  · rw [segment_send s.sent ev _ _ inv.pushed]
    exact inv.ring
  · intro client place accepted
    obtain ⟨absent, within⟩ := inv.accepting client place accepted
    exact ⟨absent, longer place within⟩
  · intro client x found
    exact session_send s.sent ev earlier x (inv.sessions client x found)

theorem inv_push (earlier : Nat) (outputs : List (κ × Frame)) (s : State κ) (message : Message) (inv : Inv earlier outputs s)
    (held : s.filler.holding = some message) :
    Inv earlier outputs { s with filler := ⟨s.filler.pushed + 1, none⟩, ring := EventRing.push s.ring message } := by
  have queued := inv.holding message held
  refine ⟨Nat.le_succ_of_le inv.after, queued_inside s.sent _ message queued, ?_, ?_, inv.accepting, inv.sessions, inv.frames,
    inv.quiet⟩
  · intro _ nothing
    cases nothing
  · dsimp only
    rw [Window.take_succ_drop _ _ _ message queued inv.after, ← Window.push_last _ _ _ (by decide), ← inv.ring]
    rfl

theorem inv_set (earlier : Nat) (outputs : List (κ × Frame)) (frames : List Frame) (s : State κ) (client : κ) (y : Session)
    (inv : Inv earlier outputs s) (kept : SessionInv s.sent earlier y)
    (written : eventsOf client outputs ++ frames.filterMap Frame.ev = y.written.map Prod.fst)
    (accepted : ∀ waiting place, s.accepting = some (waiting, place) → waiting ≠ client) :
    Inv earlier (outputs ++ frames.map fun frame => (client, frame)) (s.set client y) := by
  refine ⟨inv.after, inv.pushed, inv.holding, inv.ring, ?_, ?_, ?_, ?_⟩
  · intro waiting place accepting
    obtain ⟨absent, within⟩ := inv.accepting waiting place accepting
    rw [set_sessions, if_neg (accepted waiting place accepting)]
    exact ⟨absent, within⟩
  · intro other z known
    rw [set_sessions] at known
    split at known
    · cases known
      exact kept
    · exact inv.sessions other z known
  · intro other z known
    rw [set_sessions] at known
    split at known
    · rename_i same
      cases known
      rw [same, events_self, written]
    · rename_i apart
      rw [events_other client other apart, inv.frames other z known]
  · intro other nothing
    rw [set_sessions] at nothing
    split at nothing
    · cases nothing
    · rename_i apart
      rw [events_other client other apart, inv.quiet other nothing]

theorem inv_snapshot (earlier : Nat) (outputs : List (κ × Frame)) (s : State κ) (client : κ) (place : Nat)
    (inv : Inv earlier outputs s) (accepting : s.accepting = some (client, place)) :
    Inv earlier outputs ({ s with accepting := none }.set client ⟨place, .greeting, s.ring, place, s.filler.pushed, s.ring, []⟩) := by
  obtain ⟨absent, within⟩ := inv.accepting client place accepting
  have idle : Inv earlier outputs { s with accepting := none } :=
    ⟨inv.after, inv.pushed, inv.holding, inv.ring, fun _ _ nothing => (by cases nothing), inv.sessions, inv.frames, inv.quiet⟩
  have fresh : SessionInv s.sent earlier ⟨place, .greeting, s.ring, place, s.filler.pushed, s.ring, []⟩ := by
    refine ⟨?_, Nat.le_refl _, within, fun _ => rfl, inv.after, inv.pushed, inv.ring⟩
    have nothing : ((numbered s.sent).take place).drop place = [] := by
      rw [List.drop_eq_nil_iff, List.length_take]
      exact Nat.min_le_left _ _
    rw [nothing, List.append_nil]
    rfl
  have set := inv_set earlier outputs [] { s with accepting := none } client _ idle fresh (by rw [inv.quiet client absent]; rfl)
    (fun _ _ nothing => by cases nothing)
  rwa [List.map_nil, List.append_nil] at set

theorem inv_serve (earlier : Nat) (outputs : List (κ × Frame)) (frames : List Frame) (s : State κ) (client : κ) (x y : Session)
    (inv : Inv earlier outputs s) (found : s.sessions client = some x) (serves : Serves (numbered s.sent) x y frames) :
    Inv earlier (outputs ++ frames.map fun frame => (client, frame)) (s.set client y) := by
  obtain ⟨kept, written, _⟩ := serves_session s.sent earlier x y frames (inv.sessions client x found) serves
  refine inv_set earlier outputs frames s client y inv kept (by rw [inv.frames client x found, written]) ?_
  -- A client that is being accepted has no session yet.
  intro waiting place accepting same
  have absent := (inv.accepting waiting place accepting).1
  rw [same, found] at absent
  cases absent

theorem inv_step (earlier : Nat) (outputs made : List (κ × Frame)) (s after : State κ) (act : Act κ) (inv : Inv earlier outputs s)
    (moves : Moves s act after made) : Inv earlier (outputs ++ made) after := by
  cases moves with
  | send ev =>
      rw [List.append_nil]
      exact inv_send earlier outputs s ev inv
  | receive message idle queued =>
      rw [List.append_nil]
      refine ⟨inv.after, inv.pushed, ?_, inv.ring, inv.accepting, inv.sessions, inv.frames, inv.quiet⟩
      intro other held
      cases held
      exact queued
  | push message held =>
      rw [List.append_nil]
      exact inv_push earlier outputs s message inv held
  | subscribe client idle absent =>
      rw [List.append_nil]
      refine ⟨inv.after, inv.pushed, inv.holding, inv.ring, ?_, inv.sessions, inv.frames, inv.quiet⟩
      intro other place accepted
      cases accepted
      exact ⟨absent, Nat.le_refl _⟩
  | snapshot client place accepting =>
      rw [List.append_nil]
      exact inv_snapshot earlier outputs s client place inv accepting
  | serve _ other client x y frames found serves => exact inv_serve earlier outputs frames s client x y inv found serves

theorem inv_run (listenAddr : Option String) (earlier : List Event) (acts : List (Act κ)) (outputs : List (κ × Frame)) (s : State κ)
    (run : (machine listenAddr).Run (start earlier) acts outputs s) : Inv earlier.length outputs s :=
  Machine.run_invariant _ _ (fun _ outputs s => Inv earlier.length outputs s) (inv_start earlier)
    (fun _ outputs s act after made inv stepped =>
      inv_step earlier.length outputs made s after act inv (step_moves listenAddr s after act made stepped)) acts outputs s run

def CaughtUp (s : State κ) (x : Session) : Prop := x.rest = [] ∧ x.next = s.sent.length

-- A contiguous piece of the bus, and its end once the client has all.
def ExactlyOnce (s : State κ) (x : Session) : Prop :=
  ∃ first, x.written <+: (numbered s.sent).drop first ∧ (CaughtUp s x → x.written = (numbered s.sent).drop first)

-- The snapshot is taken when the filler has pushed the events before the subscription and no others.
def InStep (s : State κ) (act : Act κ) : Prop :=
  act = .snapshot → ∀ client place, s.accepting = some (client, place) → s.ring = [] ∨ s.filler.pushed = place

def Session.Joined (x : Session) : Prop := x.replay = [] ∨ x.filled = x.subscribed

theorem joined_iff (sent : List Event) (earlier : Nat) (x : Session) (inv : SessionInv sent earlier x) :
    x.Joined ↔ ∃ first, x.replay ++ (numbered sent).drop x.subscribed = (numbered sent).drop first := by
  obtain ⟨first, ordered, piece⟩ := Window.last_segment adminEventRingCapacity (numbered sent) x.filled earlier inv.after
    (by rw [numbered_length]; exact inv.filled)
  have within : x.subscribed ≤ (numbered sent).length := by
    rw [numbered_length]
    exact Nat.le_trans inv.ordered inv.inside
  have filled : x.filled ≤ (numbered sent).length := by
    rw [numbered_length]
    exact inv.filled
  rw [Session.Joined, inv.source, piece]
  exact (Window.resumes_iff (numbered sent) (numbered_nodup sent) first x.filled x.subscribed ordered filled within).symm

omit [DecidableEq κ] in
theorem joined_exactly_once (s : State κ) (earlier : Nat) (x : Session) (inv : SessionInv s.sent earlier x) (joined : x.Joined) :
    ExactlyOnce s x := by
  obtain ⟨first, whole⟩ := (joined_iff s.sent earlier x inv).mp joined
  refine ⟨first, ?_, ?_⟩
  · have taken : ((numbered s.sent).take x.next).drop x.subscribed <+: (numbered s.sent).drop x.subscribed :=
      (List.take_prefix x.next (numbered s.sent)).drop x.subscribed
    have sent : x.written ++ x.rest <+: (numbered s.sent).drop first := by
      rw [inv.split, ← whole]
      exact (List.prefix_append_right_inj x.replay).mpr taken
    exact (List.prefix_append x.written x.rest).trans sent
  · intro premise
    obtain ⟨replayed, taken⟩ := premise
    have split := inv.split
    rw [replayed, List.append_nil, taken, ← numbered_length, List.take_length] at split
    rw [split, whole]

omit [DecidableEq κ] in
theorem exactly_once_joined (s : State κ) (earlier : Nat) (x : Session) (inv : SessionInv s.sent earlier x) (caughtUp : CaughtUp s x)
    (once : ExactlyOnce s x) : x.Joined := by
  obtain ⟨first, _, whole⟩ := once
  have split := inv.split
  rw [caughtUp.1, List.append_nil, caughtUp.2, ← numbered_length, List.take_length] at split
  exact (joined_iff s.sent earlier x inv).mpr ⟨first, by rw [← split, whole caughtUp]⟩

theorem joined_set (s : State κ) (client : κ) (y : Session) :
    (∀ other z, (s.set client y).sessions other = some z → z.Joined) ↔
      y.Joined ∧ ∀ other z, other ≠ client → s.sessions other = some z → z.Joined := by
  constructor
  · intro joined
    refine ⟨joined client y (by rw [set_sessions, if_pos rfl]), ?_⟩
    intro other z apart known
    exact joined other z (by rw [set_sessions, if_neg apart]; exact known)
  · intro premise other z known
    obtain ⟨own, joined⟩ := premise
    rw [set_sessions] at known
    split at known
    · cases known
      exact own
    · rename_i apart
      exact joined other z apart known

theorem joined_step (earlier : Nat) (outputs made : List (κ × Frame)) (s after : State κ) (act : Act κ) (inv : Inv earlier outputs s)
    (moves : Moves s act after made) :
    (∀ client x, after.sessions client = some x → x.Joined) ↔
      (∀ client x, s.sessions client = some x → x.Joined) ∧ InStep s act := by
  cases moves with
  | snapshot client place accepting =>
      obtain ⟨absent, _⟩ := inv.accepting client place accepting
      rw [joined_set]
      constructor
      · intro premise
        obtain ⟨own, joined⟩ := premise
        refine ⟨?_, ?_⟩
        · intro other z known
          refine joined other z ?_ known
          rintro rfl
          rw [absent] at known
          cases known
        · intro _ other z accepted
          rw [accepting] at accepted
          cases accepted
          exact own
      · intro premise
        obtain ⟨joined, inStep⟩ := premise
        exact ⟨inStep rfl client place accepting, fun other z _ known => joined other z known⟩
  | serve _ notSnapshot client x y frames found serves =>
      obtain ⟨_, _, replay, filled, subscribed⟩ := serves_session s.sent earlier x y frames (inv.sessions client x found) serves
      have same : y.Joined ↔ x.Joined := by rw [Session.Joined, Session.Joined, replay, filled, subscribed]
      rw [joined_set, same]
      constructor
      · intro premise
        obtain ⟨own, joined⟩ := premise
        refine ⟨?_, fun taken => absurd taken notSnapshot⟩
        intro other z known
        by_cases apart : other = client
        · rw [apart, found] at known
          cases known
          exact own
        · exact joined other z apart known
      · intro premise
        obtain ⟨joined, _⟩ := premise
        exact ⟨joined client x found, fun other z _ known => joined other z known⟩
  | _ =>
      constructor
      · intro joined
        exact ⟨joined, fun taken => by cases taken⟩
      · intro joined
        exact joined.1

theorem joined_run (listenAddr : Option String) (earlier : List Event) (acts : List (Act κ)) (outputs : List (κ × Frame)) (s : State κ)
    (run : (machine listenAddr).Run (start earlier) acts outputs s) :
    (∀ client x, s.sessions client = some x → x.Joined) ↔ (machine listenAddr).Throughout (start earlier) InStep acts := by
  refine Machine.kept_iff_throughout (machine listenAddr) (start earlier) (fun _ outputs s => Inv earlier.length outputs s)
    (fun s => ∀ client x, s.sessions client = some x → x.Joined) InStep ?_ ?_ ?_ acts outputs s run
  · intro client x found
    cases found
  · exact inv_run listenAddr earlier
  · intro acts outputs s act after made inv stepped
    exact joined_step earlier.length outputs made s after act inv (step_moves listenAddr s after act made stepped)

-- The clients are sent each event once as long as every snapshot is in step with its subscription, and no longer.
theorem attach_exactly_once_iff (listenAddr : Option String) (earlier : List Event) (acts : List (Act κ))
    (outputs : List (κ × Frame)) (s : State κ) (run : (machine listenAddr).Run (start earlier) acts outputs s) :
    (∀ client x, s.sessions client = some x → eventsOf client outputs = x.written.map Prod.fst) ∧
    ((machine listenAddr).Throughout (start earlier) InStep acts → ∀ client x, s.sessions client = some x → ExactlyOnce s x) ∧
    ((∀ client x, s.sessions client = some x → CaughtUp s x) →
      ((∀ client x, s.sessions client = some x → ExactlyOnce s x) ↔ (machine listenAddr).Throughout (start earlier) InStep acts)) := by
  have inv := inv_run listenAddr earlier acts outputs s run
  have joined := joined_run listenAddr earlier acts outputs s run
  have enough : (machine listenAddr).Throughout (start earlier) InStep acts →
      ∀ client x, s.sessions client = some x → ExactlyOnce s x := by
    intro inStep client x found
    exact joined_exactly_once s earlier.length x (inv.sessions client x found) (joined.mpr inStep client x found)
  refine ⟨inv.frames, enough, ?_⟩
  intro caughtUp
  refine ⟨?_, enough⟩
  intro once
  apply joined.mp
  intro client x found
  exact exactly_once_joined s earlier.length x (inv.sessions client x found) (caughtUp client x found) (once client x found)

-- The filler has pushed the one event when the client subscribes.
def joinedAttach : List (Act Unit) :=
  [.send (.closed 1), .receive, .push, .subscribe (), .snapshot, .send (.closed 2), .hello (), .replay (), .live ()]

theorem attach_exactly_once_joined : ∃ (s : State Unit) (x : Session), s.sessions () = some x ∧ ExactlyOnce s x ∧
    x.written = [(.closed 1, 0), (.closed 2, 1)] := by
  have run := (machine none : Machine (State Unit) (Act Unit) (Unit × Frame)).exec_run (start []) joinedAttach
    [((), .hello protoVersion none), ((), .event (.closed 1)), ((), .event (.closed 2))] _ rfl
  obtain ⟨_, enough, _⟩ := attach_exactly_once_iff none [] joinedAttach _ _ run
  refine ⟨_, ⟨2, .sending, [], 1, 1, [(.closed 1, 0)], [(.closed 1, 0), (.closed 2, 1)]⟩, rfl, enough ?_ () _ rfl, rfl⟩
  refine (joined_run none [] joinedAttach _ _ run).mp ?_
  intro client x found
  cases found
  exact .inr rfl

-- The second event is in the ring too late for the snapshot and on the bus too early for the subscription.
def lostAttach : List (Act Unit) :=
  [.send (.closed 1), .receive, .push, .send (.closed 2), .subscribe (), .snapshot, .receive, .push, .send (.closed 3), .hello (),
    .replay (), .live ()]

theorem attach_event_lost : ¬ ∀ (listenAddr : Option String) (earlier : List Event) (acts : List (Act Unit))
    (outputs : List (Unit × Frame)) (s : State Unit), (machine listenAddr).Run (start earlier) acts outputs s →
    ∀ client x, s.sessions client = some x → ExactlyOnce s x := by
  intro always
  have run := (machine none : Machine (State Unit) (Act Unit) (Unit × Frame)).exec_run (start []) lostAttach
    [((), .hello protoVersion none), ((), .event (.closed 1)), ((), .event (.closed 3))] _ rfl
  have once := always none [] lostAttach _ _ run () ⟨3, .sending, [], 2, 1, [(.closed 1, 0)], [(.closed 1, 0), (.closed 3, 2)]⟩ rfl
  have inv := (inv_run none [] lostAttach _ _ run).sessions () _ rfl
  obtain empty | apart := exactly_once_joined _ _ _ inv ⟨rfl, rfl⟩ once
  · cases empty
  · cases apart

end Attach

end Admin

end NextSocks5
