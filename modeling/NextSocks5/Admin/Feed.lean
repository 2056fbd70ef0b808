import NextSocks5.Admin.Attach
import NextSocks5.Admin.Client
import NextSocks5.Admin.Postcard
import NextSocks5.Library.Delivery

set_option autoImplicit false

namespace NextSocks5

namespace Admin

-- The same tasks over a bus that keeps so many events for a receiver: what is overwritten is skipped in silence.
namespace Feed

open Attach (Act Phase)
open Receiver (Report Books Covers)

-- `reports` is history: what the receiver has reported.
structure Filler where
  events : Receiver Event
  holding : Option Event
  reports : List (Report Event)

-- `replay` and `reports` are history: the ring as it was copied, and what the receiver has reported since.
structure Handler where
  events : Receiver Event
  phase : Phase
  rest : List Event
  replay : List Event
  reports : List (Report Event)

structure State (κ : Type) where
  filler : Filler
  ring : List Event
  accepting : Option (κ × Receiver Event)
  handlers : κ → Option Handler

variable {κ : Type} [DecidableEq κ]

def State.set (s : State κ) (client : κ) (x : Handler) : State κ :=
  { s with handlers := Function.update s.handlers client (some x) }

def Handler.send (capacity : Nat) (ev : Event) (x : Handler) : Handler := { x with events := x.events.send capacity ev }

def publish (capacity : Nat) (s : State κ) (ev : Event) : State κ where
  filler := { s.filler with events := s.filler.events.send capacity ev }
  ring := s.ring
  accepting := s.accepting.map fun (client, events) => (client, events.send capacity ev)
  handlers client := (s.handlers client).map (Handler.send capacity ev)

-- A frame that cannot be written ends the handler; one that fails on the stream is written, and then the handler is finished.
def write (postcard : Postcard) (s : State κ) (client : κ) (x next : Handler) (frame : Frame) : State κ × List (κ × Frame) :=
  match (writeFrame postcard [] frame).1 with
  | .ok _ => (s.set client next, [(client, frame)])
  | .error _ => (s.set client { x with phase := .ended }, [])

def handleClient (postcard : Postcard) (listenAddr : Option String) (s : State κ) (client : κ) (x : Handler) :
    Act κ → Option (State κ × List (κ × Frame))
  | .hello _ =>
      match x.phase with
      | .greeting => some (write postcard s client x { x with phase := .sending } (.hello protoVersion listenAddr))
      | _ => none
  | .replay _ =>
      match x.phase, x.rest with
      | .sending, ev :: rest => some (write postcard s client x { x with rest } (.event ev))
      | _, _ => none
  | .live _ =>
      match x.phase, x.rest, x.events.report 1 with
      | .sending, [], some (.value ev, events) =>
          some (write postcard s client x { x with events, reports := x.reports ++ [.value ev] } (.event ev))
      | .sending, [], some (.missed n, events) =>
          some (s.set client { x with events, reports := x.reports ++ [.missed n] }, [])
      | _, _, _ => none
  | .tick _ snapshot connections =>
      match x.phase, x.rest with
      | .sending, [] => some (write postcard s client x x (.stats snapshot connections))
      | _, _ => none
  | .finish _ => some (s.set client { x with phase := .ended }, [])
  | _ => none

def step (postcard : Postcard) (listenAddr : Option String) (capacity : Nat) (s : State κ) (act : Act κ) :
    Option (State κ × List (κ × Frame)) :=
  match act with
  | .send ev => some (publish capacity s ev, [])
  | .receive =>
      match s.filler.holding, s.filler.events.report 1 with
      | none, some (report, events) =>
          some ({ s with filler := ⟨events, report.taken, s.filler.reports ++ [report]⟩ }, [])
      | _, _ => none
  | .push =>
      match s.filler.holding with
      | some ev => some ({ s with filler := { s.filler with holding := none }, ring := EventRing.push s.ring ev }, [])
      | none => none
  | .subscribe client =>
      match s.accepting, s.handlers client with
      | none, none => some ({ s with accepting := some (client, .empty) }, [])
      | _, _ => none
  | .snapshot =>
      match s.accepting with
      | some (client, events) =>
          let replay := EventRing.snapshot s.ring
          some ({ s with accepting := none }.set client ⟨events, .greeting, replay, replay, []⟩, [])
      | none => none
  | .hello client | .replay client | .live client | .tick client _ _ | .finish client =>
      (s.handlers client).bind fun x => handleClient postcard listenAddr s client x act

def machine (postcard : Postcard) (listenAddr : Option String) (capacity : Nat) : Machine (State κ) (Act κ) (κ × Frame) :=
  ⟨step postcard listenAddr capacity⟩

-- The filler subscribes before anything is sent.
def start : State κ := ⟨⟨.empty, none, []⟩, EventRing.new, none, fun _ => none⟩

inductive Serves (postcard : Postcard) (listenAddr : Option String) (x : Handler) : Handler → List Frame → Prop where
  | hello (greeting : x.phase = .greeting) :
      Serves postcard listenAddr x { x with phase := .sending } [.hello protoVersion listenAddr]
  | replay (ev : Event) (rest : List Event) (sending : x.phase = .sending) (left : x.rest = ev :: rest) :
      Serves postcard listenAddr x { x with rest } [.event ev]
  | live (ev : Event) (events : Receiver Event) (sending : x.phase = .sending) (replayed : x.rest = [])
      (read : x.events.report 1 = some (.value ev, events)) :
      Serves postcard listenAddr x { x with events, reports := x.reports ++ [.value ev] } [.event ev]
  | lagged (missed : Nat) (events : Receiver Event) (sending : x.phase = .sending) (replayed : x.rest = [])
      (read : x.events.report 1 = some (.missed missed, events)) :
      Serves postcard listenAddr x { x with events, reports := x.reports ++ [.missed missed] } []
  | tick (snapshot : Snapshot) (connections : List ConnInfo) (sending : x.phase = .sending) (replayed : x.rest = []) :
      Serves postcard listenAddr x x [.stats snapshot connections]
  | finish : Serves postcard listenAddr x { x with phase := .ended } []

def sampled (act : Act κ) : Frame → Prop
  | .stats snapshot connections => ∃ client, act = .tick client snapshot connections
  | _ => True

def Own : Act κ → Prop
  | .hello _ | .replay _ | .live _ | .tick _ _ _ | .finish _ => True
  | _ => False

inductive Moves (postcard : Postcard) (listenAddr : Option String) (capacity : Nat) (s : State κ) :
    Act κ → State κ → List (κ × Frame) → Prop where
  | send (ev : Event) : Moves postcard listenAddr capacity s (.send ev) (publish capacity s ev) []
  | receive (report : Report Event) (events : Receiver Event) (idle : s.filler.holding = none)
      (read : s.filler.events.report 1 = some (report, events)) :
      Moves postcard listenAddr capacity s .receive
        { s with filler := ⟨events, report.taken, s.filler.reports ++ [report]⟩ } []
  | push (ev : Event) (held : s.filler.holding = some ev) :
      Moves postcard listenAddr capacity s .push
        { s with filler := { s.filler with holding := none }, ring := EventRing.push s.ring ev } []
  | subscribe (client : κ) (idle : s.accepting = none) (absent : s.handlers client = none) :
      Moves postcard listenAddr capacity s (.subscribe client) { s with accepting := some (client, .empty) } []
  | snapshot (client : κ) (events : Receiver Event) (accepting : s.accepting = some (client, events)) :
      Moves postcard listenAddr capacity s .snapshot
        ({ s with accepting := none }.set client ⟨events, .greeting, s.ring, s.ring, []⟩) []
  | serve (act : Act κ) (own : Own act) (client : κ) (x y : Handler) (frames : List Frame)
      (found : s.handlers client = some x) (serves : Serves postcard listenAddr x y frames)
      (wrote : ∀ frame ∈ frames, (writeFrame postcard [] frame).1 = .ok () ∧ sampled act frame) :
      Moves postcard listenAddr capacity s act (s.set client y) (frames.map fun frame => (client, frame))

theorem write_serves (postcard : Postcard) (listenAddr : Option String) (s : State κ) (client : κ) (x next : Handler) (frame : Frame)
    (act : Act κ) (sample : sampled act frame) (serves : Serves postcard listenAddr x next [frame]) :
    ∃ y frames, Serves postcard listenAddr x y frames ∧
      (∀ frame ∈ frames, (writeFrame postcard [] frame).1 = .ok () ∧ sampled act frame) ∧
      write postcard s client x next frame = (s.set client y, frames.map fun frame => (client, frame)) := by
  rw [write]
  cases wrote : (writeFrame postcard [] frame).1 with
  | ok done =>
      refine ⟨next, [frame], serves, ?_, rfl⟩
      intro other member
      rw [List.mem_singleton.mp member]
      exact ⟨wrote, sample⟩
  | error error => exact ⟨_, [], .finish, by simp, rfl⟩

theorem handle_client_serves (postcard : Postcard) (listenAddr : Option String) (s after : State κ) (client : κ) (x : Handler)
    (act : Act κ) (made : List (κ × Frame)) (stepped : handleClient postcard listenAddr s client x act = some (after, made)) :
    ∃ y frames, Serves postcard listenAddr x y frames ∧
      (∀ frame ∈ frames, (writeFrame postcard [] frame).1 = .ok () ∧ sampled act frame) ∧
      after = s.set client y ∧ made = frames.map fun frame => (client, frame) := by
  have written (next : Handler) (frame : Frame) (sample : sampled act frame) (serves : Serves postcard listenAddr x next [frame])
      (same : some (write postcard s client x next frame) = some (after, made)) :
      ∃ y frames, Serves postcard listenAddr x y frames ∧
        (∀ frame ∈ frames, (writeFrame postcard [] frame).1 = .ok () ∧ sampled act frame) ∧
        after = s.set client y ∧ made = frames.map fun frame => (client, frame) := by
    obtain ⟨y, frames, served, wrote, whole⟩ := write_serves postcard listenAddr s client x next frame act sample serves
    rw [whole] at same
    cases same
    exact ⟨y, frames, served, wrote, rfl, rfl⟩
  cases act with
  | hello _ =>
      simp only [handleClient] at stepped
      split at stepped
      · rename_i greeting
        exact written _ (.hello protoVersion listenAddr) trivial (.hello greeting) stepped
      · cases stepped
  | replay _ =>
      simp only [handleClient] at stepped
      split at stepped
      · rename_i ev rest sending left
        exact written _ (.event ev) trivial (.replay ev rest sending left) stepped
      · cases stepped
  | live _ =>
      simp only [handleClient] at stepped
      split at stepped
      · rename_i ev events sending replayed read
        exact written _ (.event ev) trivial (.live ev events sending replayed read) stepped
      · rename_i missed events sending replayed read
        cases stepped
        exact ⟨_, [], .lagged missed events sending replayed read, by simp, rfl, rfl⟩
      · cases stepped
  | tick other snapshot connections =>
      simp only [handleClient] at stepped
      split at stepped
      · rename_i sending replayed
        exact written _ (.stats snapshot connections) ⟨other, rfl⟩ (.tick snapshot connections sending replayed) stepped
      · cases stepped
  | finish _ =>
      cases stepped
      exact ⟨_, [], .finish, by simp, rfl, rfl⟩
  | _ => cases stepped

theorem step_moves (postcard : Postcard) (listenAddr : Option String) (capacity : Nat) (s after : State κ) (act : Act κ)
    (made : List (κ × Frame)) (stepped : (machine postcard listenAddr capacity).step s act = some (after, made)) :
    Moves postcard listenAddr capacity s act after made := by
  have served (client : κ) (own : Own act)
      (bound : ((s.handlers client).bind fun x => handleClient postcard listenAddr s client x act) = some (after, made)) :
      Moves postcard listenAddr capacity s act after made := by
    obtain ⟨x, found, handled⟩ := Option.bind_eq_some_iff.mp bound
    obtain ⟨y, frames, serves, wrote, rfl, rfl⟩ := handle_client_serves postcard listenAddr s after client x act made handled
    exact .serve act own client x y frames found serves wrote
  simp only [machine, step] at stepped
  cases act with
  | send ev =>
      cases stepped
      exact .send ev
  | receive =>
      dsimp only at stepped
      split at stepped
      · rename_i report events idle read
        cases stepped
        exact .receive report events idle read
      · cases stepped
  | push =>
      dsimp only at stepped
      split at stepped
      · rename_i ev held
        cases stepped
        exact .push ev held
      · cases stepped
  | subscribe client =>
      dsimp only at stepped
      split at stepped
      · rename_i idle absent
        cases stepped
        exact .subscribe client idle absent
      · cases stepped
  | snapshot =>
      dsimp only at stepped
      split at stepped
      · rename_i client events accepting
        cases stepped
        exact .snapshot client events accepting
      · cases stepped
  | hello client => exact served client trivial stepped
  | replay client => exact served client trivial stepped
  | live client => exact served client trivial stepped
  | tick client snapshot connections => exact served client trivial stepped
  | finish client => exact served client trivial stepped

def sentBy (acts : List (Act κ)) : List Event :=
  acts.filterMap fun
    | .send ev => some ev
    | _ => none

def framesOf (client : κ) (outputs : List (κ × Frame)) : List Frame :=
  outputs.filterMap fun (other, frame) => if other = client then some frame else none

theorem frames_append (client : κ) (first second : List (κ × Frame)) :
    framesOf client (first ++ second) = framesOf client first ++ framesOf client second := List.filterMap_append

theorem frames_self (client : κ) (outputs : List (κ × Frame)) (frames : List Frame) :
    framesOf client (outputs ++ frames.map fun frame => (client, frame)) = framesOf client outputs ++ frames := by
  simp [framesOf, List.filterMap_map]

theorem frames_other (client other : κ) (apart : other ≠ client) (outputs : List (κ × Frame)) (frames : List Frame) :
    framesOf other (outputs ++ frames.map fun frame => (client, frame)) = framesOf other outputs := by
  simp [framesOf, List.filterMap_map, apart.symm]

-- The hello, the replay from its start, and only after all of it the live events between the stats.
def Dealt (listenAddr : Option String) (replay live rest : List Event) (frames : List Frame) : Prop :=
  frames = [] ∧ rest = replay ∧ live = [] ∨
  ∃ replayed more, frames = .hello protoVersion listenAddr :: (replayed.map Frame.event ++ more) ∧ replay = replayed ++ rest ∧
    (rest ≠ [] → more = []) ∧ more.filterMap Frame.ev = live

structure Joined (client : κ) (acts before between since : List (Act κ)) : Prop where
  split : acts = before ++ .subscribe client :: (between ++ .snapshot :: since)
  first : .subscribe client ∉ before
  copied : .snapshot ∉ between

structure Filled (capacity : Nat) (sent : List Event) (filler : Filler) (ring pushed : List Event) : Prop where
  books : Books capacity filler.events sent filler.reports
  taken : filler.reports.filterMap Report.taken = pushed ++ filler.holding.toList
  ring : ring = Window.last adminEventRingCapacity pushed

def Copied (postcard : Postcard) (listenAddr : Option String) (capacity : Nat) (acts : List (Act κ)) (replay : List Event) : Prop :=
  ∃ outputs s pushed, (machine postcard listenAddr capacity).Run start acts outputs s ∧
    Filled capacity (sentBy acts) s.filler s.ring pushed ∧ replay = EventRing.snapshot s.ring

structure Handed (postcard : Postcard) (listenAddr : Option String) (capacity : Nat) (client : κ) (acts : List (Act κ)) (x : Handler)
    (frames : List Frame) (before between since : List (Act κ)) : Prop where
  joined : Joined client acts before between since
  copied : Copied postcard listenAddr capacity (before ++ .subscribe client :: between) x.replay
  books : Books capacity x.events (sentBy (between ++ since)) x.reports
  dealt : Dealt listenAddr x.replay (x.reports.filterMap Report.taken) x.rest frames
  greeting : x.phase = .greeting → frames = []
  sending : x.phase = .sending → frames ≠ []

structure Accepting (capacity : Nat) (client : κ) (acts : List (Act κ)) (events : Receiver Event) (before between : List (Act κ)) :
    Prop where
  split : acts = before ++ .subscribe client :: between
  first : .subscribe client ∉ before
  copied : .snapshot ∉ between
  books : Books capacity events (sentBy between) []

structure Inv (postcard : Postcard) (listenAddr : Option String) (capacity : Nat) (acts : List (Act κ)) (outputs : List (κ × Frame))
    (s : State κ) : Prop where
  filled : ∃ pushed, Filled capacity (sentBy acts) s.filler s.ring pushed
  accepting : ∀ client events, s.accepting = some (client, events) → s.handlers client = none ∧
    ∃ before between, Accepting capacity client acts events before between
  handlers : ∀ client x, s.handlers client = some x → ∃ before between since,
    Handed postcard listenAddr capacity client acts x (framesOf client outputs) before between since
  fresh : ∀ client, s.handlers client = none → (∀ events, s.accepting ≠ some (client, events)) → .subscribe client ∉ acts
  quiet : ∀ client, s.handlers client = none → framesOf client outputs = []
  wrote : ∀ client, ∀ frame ∈ framesOf client outputs, (writeFrame postcard [] frame).1 = .ok ()

theorem dealt_sent (listenAddr : Option String) (replay live rest : List Event) (frames : List Frame)
    (dealt : Dealt listenAddr replay live rest frames) (nonempty : frames ≠ []) :
    ∃ replayed more, frames = .hello protoVersion listenAddr :: (replayed.map Frame.event ++ more) ∧ replay = replayed ++ rest ∧
      (rest ≠ [] → more = []) ∧ more.filterMap Frame.ev = live := by
  rcases dealt with ⟨nothing, _⟩ | sent
  · exact absurd nothing nonempty
  · exact sent

theorem serves_handed (postcard : Postcard) (listenAddr : Option String) (capacity : Nat) (client : κ) (acts : List (Act κ))
    (x y : Handler) (sent frames : List Frame) (before between since : List (Act κ))
    (handed : Handed postcard listenAddr capacity client acts x sent before between since) (serves : Serves postcard listenAddr x y frames) :
    Handed postcard listenAddr capacity client acts y (sent ++ frames) before between since := by
  obtain ⟨joined, copied, books, dealt, greeting, sending⟩ := handed
  cases serves with
  | hello first =>
      obtain rfl := greeting first
      rcases dealt with ⟨_, rest, live⟩ | ⟨_, _, same, _⟩
      · refine ⟨joined, copied, books, .inr ⟨[], [], rfl, rest.symm, fun _ => rfl, live.symm⟩, ?_, fun _ => by simp⟩
        intro again
        cases again
      · cases same
  | replay ev rest going left =>
      obtain ⟨replayed, more, same, whole, unread, live⟩ := dealt_sent _ _ _ _ _ dealt (sending going)
      obtain rfl := unread (by rw [left]; simp)
      refine ⟨joined, copied, books, .inr ⟨replayed ++ [ev], [], ?_, ?_, fun _ => rfl, live⟩, ?_, fun _ => by simp⟩
      · rw [same]
        simp
      · rw [whole, left, List.append_assoc, List.singleton_append]
      · intro again
        rw [going] at again
        cases again
  | live ev events going replayed read =>
      obtain ⟨old, more, same, whole, _, live⟩ := dealt_sent _ _ _ _ _ dealt (sending going)
      refine ⟨joined, copied, Receiver.books_report capacity 1 x.events events _ _ _ books read,
        .inr ⟨old, more ++ [.event ev], ?_, whole, fun left => absurd replayed left, ?_⟩, ?_, fun _ => by simp⟩
      · rw [same]
        simp
      · rw [List.filterMap_append, List.filterMap_append, live]
        rfl
      · intro again
        rw [going] at again
        cases again
  | lagged missed events going replayed read =>
      rw [List.append_nil]
      refine ⟨joined, copied, Receiver.books_report capacity 1 x.events events _ _ _ books read, ?_, greeting, sending⟩
      have skipped : [(Report.missed missed : Report Event)].filterMap Report.taken = [] := rfl
      rw [List.filterMap_append, skipped, List.append_nil]
      exact dealt
  | tick snapshot connections going replayed =>
      obtain ⟨old, more, same, whole, _, live⟩ := dealt_sent _ _ _ _ _ dealt (sending going)
      refine ⟨joined, copied, books, .inr ⟨old, more ++ [.stats snapshot connections], ?_, whole,
        fun left => absurd replayed left, ?_⟩, ?_, fun _ => by simp⟩
      · rw [same]
        simp
      · rw [List.filterMap_append, live]
        exact List.append_nil _
      · intro again
        rw [going] at again
        cases again
  | finish =>
      rw [List.append_nil]
      refine ⟨joined, copied, books, dealt, ?_, ?_⟩
      · intro again
        cases again
      · intro again
        cases again

theorem set_handlers (s : State κ) (client other : κ) (y : Handler) :
    (s.set client y).handlers other = if other = client then some y else s.handlers other := by
  simp [State.set, Function.update_apply]

omit [DecidableEq κ] in
theorem sent_append (first second : List (Act κ)) : sentBy (first ++ second) = sentBy first ++ sentBy second :=
  List.filterMap_append

omit [DecidableEq κ] in
theorem joined_next (client : κ) (acts before between since : List (Act κ)) (act : Act κ)
    (joined : Joined client acts before between since) : Joined client (acts ++ [act]) before between (since ++ [act]) where
  split := by rw [joined.split]; simp
  first := joined.first
  copied := joined.copied

theorem filled_send (capacity : Nat) (positive : 0 < capacity) (sent : List Event) (filler : Filler) (ring pushed : List Event)
    (ev : Event) (filled : Filled capacity sent filler ring pushed) :
    Filled capacity (sent ++ [ev]) { filler with events := filler.events.send capacity ev } ring pushed :=
  ⟨Receiver.books_send capacity filler.events sent filler.reports ev positive filled.books, filled.taken, filled.ring⟩

theorem handed_send (postcard : Postcard) (listenAddr : Option String) (capacity : Nat) (positive : 0 < capacity) (client : κ)
    (acts : List (Act κ)) (x : Handler) (frames : List Frame) (before between since : List (Act κ)) (ev : Event)
    (handed : Handed postcard listenAddr capacity client acts x frames before between since) :
    Handed postcard listenAddr capacity client (acts ++ [.send ev]) (x.send capacity ev) frames before between (since ++ [.send ev]) := by
  refine ⟨joined_next client acts before between since _ handed.joined, handed.copied, ?_, handed.dealt, handed.greeting,
    handed.sending⟩
  rw [← List.append_assoc, sent_append]
  exact Receiver.books_send capacity x.events _ x.reports ev positive handed.books

theorem handed_next (postcard : Postcard) (listenAddr : Option String) (capacity : Nat) (client : κ) (acts : List (Act κ)) (x : Handler)
    (frames : List Frame) (before between since : List (Act κ)) (act : Act κ) (silent : sentBy [act] = [])
    (handed : Handed postcard listenAddr capacity client acts x frames before between since) :
    Handed postcard listenAddr capacity client (acts ++ [act]) x frames before between (since ++ [act]) := by
  refine ⟨joined_next client acts before between since act handed.joined, handed.copied, ?_, handed.dealt, handed.greeting,
    handed.sending⟩
  rw [← List.append_assoc, sent_append, silent, List.append_nil]
  exact handed.books

theorem inv_start (postcard : Postcard) (listenAddr : Option String) (capacity : Nat) :
    Inv postcard listenAddr capacity [] ([] : List (κ × Frame)) start where
  filled := ⟨[], Receiver.books_empty capacity, rfl, rfl⟩
  accepting _ _ accepted := by cases accepted
  handlers _ _ found := by cases found
  fresh _ _ _ := List.not_mem_nil
  quiet _ _ := rfl
  wrote _ _ member := by cases member

theorem inv_send (postcard : Postcard) (listenAddr : Option String) (capacity : Nat) (positive : 0 < capacity) (acts : List (Act κ))
    (outputs : List (κ × Frame)) (s : State κ) (ev : Event) (inv : Inv postcard listenAddr capacity acts outputs s) :
    Inv postcard listenAddr capacity (acts ++ [.send ev]) outputs (publish capacity s ev) := by
  obtain ⟨pushed, filled⟩ := inv.filled
  refine ⟨⟨pushed, ?_⟩, ?_, ?_, ?_, ?_, inv.wrote⟩
  · rw [sent_append]
    exact filled_send capacity positive _ s.filler s.ring pushed ev filled
  · intro client events accepted
    obtain ⟨⟨other, earlier⟩, old, same⟩ := Option.map_eq_some_iff.mp accepted
    cases same
    obtain ⟨absent, before, between, waiting⟩ := inv.accepting client earlier old
    refine ⟨by simp [publish, absent], before, between ++ [.send ev], by rw [waiting.split]; simp, waiting.first, ?_, ?_⟩
    · simpa using waiting.copied
    · rw [sent_append]
      exact Receiver.books_send capacity earlier _ [] ev positive waiting.books
  · intro client x found
    obtain ⟨earlier, known, same⟩ := Option.map_eq_some_iff.mp found
    obtain ⟨before, between, since, handed⟩ := inv.handlers client earlier known
    rw [← same]
    exact ⟨before, between, since ++ [.send ev],
      handed_send postcard listenAddr capacity positive client acts earlier _ before between since ev handed⟩
  · intro client absent apart member
    refine inv.fresh client (Option.map_eq_none_iff.mp absent) ?_ (by simpa using member)
    intro events accepting
    exact apart (events.send capacity ev) (by simp [publish, accepting])
  · intro client absent
    exact inv.quiet client (Option.map_eq_none_iff.mp absent)

theorem inv_next (postcard : Postcard) (listenAddr : Option String) (capacity : Nat) (acts : List (Act κ)) (outputs : List (κ × Frame))
    (s : State κ) (act : Act κ) (silent : sentBy [act] = []) (other : act ≠ .snapshot) (joins : ∀ client, act ≠ .subscribe client)
    (inv : Inv postcard listenAddr capacity acts outputs s) : Inv postcard listenAddr capacity (acts ++ [act]) outputs s := by
  have grown : sentBy (acts ++ [act]) = sentBy acts := by rw [sent_append, silent, List.append_nil]
  refine ⟨by rw [grown]; exact inv.filled, ?_, ?_, ?_, inv.quiet, inv.wrote⟩
  · intro client events accepted
    obtain ⟨absent, before, between, waiting⟩ := inv.accepting client events accepted
    refine ⟨absent, before, between ++ [act], by rw [waiting.split]; simp, waiting.first, ?_, ?_⟩
    · intro member
      rcases List.mem_append.mp member with old | new
      · exact waiting.copied old
      · exact other (List.mem_singleton.mp new).symm
    · rw [sent_append, silent, List.append_nil]
      exact waiting.books
  · intro client x found
    obtain ⟨before, between, since, handed⟩ := inv.handlers client x found
    exact ⟨before, between, since ++ [act],
      handed_next postcard listenAddr capacity client acts x _ before between since act silent handed⟩
  · intro client absent apart member
    rcases List.mem_append.mp member with old | new
    · exact inv.fresh client absent apart old
    · exact joins client (List.mem_singleton.mp new).symm

theorem inv_set (postcard : Postcard) (listenAddr : Option String) (capacity : Nat) (acts : List (Act κ)) (outputs : List (κ × Frame))
    (s : State κ) (client : κ) (y : Handler) (frames : List Frame) (inv : Inv postcard listenAddr capacity acts outputs s)
    (wrote : ∀ frame ∈ frames, (writeFrame postcard [] frame).1 = .ok ())
    (handed : ∃ before between since,
      Handed postcard listenAddr capacity client acts y (framesOf client outputs ++ frames) before between since)
    (accepted : ∀ other events, s.accepting = some (other, events) → other ≠ client) :
    Inv postcard listenAddr capacity acts (outputs ++ frames.map fun frame => (client, frame)) (s.set client y) := by
  refine ⟨inv.filled, ?_, ?_, ?_, ?_, ?_⟩
  · intro other events accepting
    obtain ⟨absent, rest⟩ := inv.accepting other events accepting
    refine ⟨?_, rest⟩
    rw [set_handlers, if_neg (accepted other events accepting), absent]
  · intro other x known
    rw [set_handlers] at known
    split at known
    · rename_i same
      cases known
      rw [same, frames_self]
      exact handed
    · rename_i apart
      rw [frames_other client other apart]
      exact inv.handlers other x known
  · intro other absent apart
    rw [set_handlers] at absent
    split at absent
    · cases absent
    · exact inv.fresh other absent apart
  · intro other absent
    rw [set_handlers] at absent
    split at absent
    · cases absent
    · rename_i apart
      rw [frames_other client other apart, inv.quiet other absent]
  · intro other frame member
    by_cases same : other = client
    · rw [same, frames_self] at member
      rcases List.mem_append.mp member with before | now
      · exact inv.wrote client frame before
      · exact wrote frame now
    · rw [frames_other client other same] at member
      exact inv.wrote other frame member

theorem inv_snapshot (postcard : Postcard) (listenAddr : Option String) (capacity : Nat) (acts : List (Act κ))
    (outputs : List (κ × Frame)) (s : State κ) (client : κ) (events : Receiver Event)
    (run : (machine postcard listenAddr capacity).Run start acts outputs s) (inv : Inv postcard listenAddr capacity acts outputs s)
    (accepting : s.accepting = some (client, events)) :
    Inv postcard listenAddr capacity (acts ++ [.snapshot]) outputs
      ({ s with accepting := none }.set client ⟨events, .greeting, s.ring, s.ring, []⟩) := by
  obtain ⟨absent, before, between, waiting⟩ := inv.accepting client events accepting
  obtain ⟨pushed, filled⟩ := inv.filled
  have grown : sentBy (acts ++ [.snapshot]) = sentBy acts := by
    rw [sent_append]
    exact List.append_nil _
  refine ⟨⟨pushed, by rw [grown]; exact filled⟩, fun _ _ accepted => (by cases accepted), ?_, ?_, ?_, inv.wrote⟩
  · intro other x known
    rw [set_handlers] at known
    split at known
    · rename_i same
      cases known
      subst same
      refine ⟨before, between, [], ⟨by rw [waiting.split]; simp, waiting.first, waiting.copied⟩, ?_, ?_, ?_, ?_, ?_⟩
      · rw [← waiting.split]
        exact ⟨outputs, s, pushed, run, filled, rfl⟩
      · rw [List.append_nil]
        exact waiting.books
      · exact .inl ⟨inv.quiet other absent, rfl, rfl⟩
      · intro _
        exact inv.quiet other absent
      · intro going
        cases going
    · obtain ⟨before, between, since, handed⟩ := inv.handlers other x known
      exact ⟨before, between, since ++ [.snapshot],
        handed_next postcard listenAddr capacity other acts x _ before between since .snapshot rfl handed⟩
  · intro other absent apart member
    rw [set_handlers] at absent
    split at absent
    · cases absent
    · rename_i different
      refine inv.fresh other absent ?_ (by simpa using member)
      intro events accepted
      rw [accepting] at accepted
      cases accepted
      exact different rfl
  · intro other absent
    rw [set_handlers] at absent
    split at absent
    · cases absent
    · exact inv.quiet other absent

theorem inv_subscribe (postcard : Postcard) (listenAddr : Option String) (capacity : Nat) (acts : List (Act κ))
    (outputs : List (κ × Frame)) (s : State κ) (client : κ) (inv : Inv postcard listenAddr capacity acts outputs s)
    (idle : s.accepting = none) (absent : s.handlers client = none) :
    Inv postcard listenAddr capacity (acts ++ [.subscribe client]) outputs { s with accepting := some (client, .empty) } := by
  have grown : sentBy (acts ++ [.subscribe client]) = sentBy acts := by
    rw [sent_append]
    exact List.append_nil _
  refine ⟨by rw [grown]; exact inv.filled, ?_, ?_, ?_, inv.quiet, inv.wrote⟩
  · intro other events accepted
    cases accepted
    exact ⟨absent, acts, [], rfl, inv.fresh client absent (by simp [idle]), List.not_mem_nil, Receiver.books_empty capacity⟩
  · intro other x found
    obtain ⟨before, between, since, handed⟩ := inv.handlers other x found
    exact ⟨before, between, since ++ [.subscribe client],
      handed_next postcard listenAddr capacity other acts x _ before between since (.subscribe client) rfl handed⟩
  · intro other none apart member
    rcases List.mem_append.mp member with old | new
    · exact inv.fresh other none (by simp [idle]) old
    · cases List.mem_singleton.mp new
      exact apart .empty rfl

theorem inv_step (postcard : Postcard) (listenAddr : Option String) (capacity : Nat) (positive : 0 < capacity) (acts : List (Act κ))
    (outputs made : List (κ × Frame)) (s after : State κ) (act : Act κ)
    (run : (machine postcard listenAddr capacity).Run start acts outputs s) (inv : Inv postcard listenAddr capacity acts outputs s)
    (moves : Moves postcard listenAddr capacity s act after made) :
    Inv postcard listenAddr capacity (acts ++ [act]) (outputs ++ made) after := by
  cases moves with
  | send ev =>
      rw [List.append_nil]
      exact inv_send postcard listenAddr capacity positive acts outputs s ev inv
  | receive report events idle read =>
      rw [List.append_nil]
      have next := inv_next postcard listenAddr capacity acts outputs s .receive rfl (by simp) (by simp) inv
      obtain ⟨pushed, filled⟩ := next.filled
      refine ⟨⟨pushed, Receiver.books_report capacity 1 s.filler.events events _ _ report filled.books read, ?_, filled.ring⟩,
        next.accepting, next.handlers, next.fresh, next.quiet, next.wrote⟩
      have taken := filled.taken
      rw [idle, Option.toList_none, List.append_nil] at taken
      rw [List.filterMap_append, taken]
      cases report <;> rfl
  | push ev held =>
      rw [List.append_nil]
      have next := inv_next postcard listenAddr capacity acts outputs s .push rfl (by simp) (by simp) inv
      obtain ⟨pushed, filled⟩ := next.filled
      refine ⟨⟨pushed ++ [ev], filled.books, ?_, ?_⟩, next.accepting, next.handlers, next.fresh, next.quiet, next.wrote⟩
      · rw [filled.taken, held]
        simp
      · dsimp only
        rw [filled.ring, EventRing.push, Window.push_last _ _ _ (by decide)]
  | subscribe client idle absent =>
      rw [List.append_nil]
      exact inv_subscribe postcard listenAddr capacity acts outputs s client inv idle absent
  | snapshot client events accepting =>
      rw [List.append_nil]
      exact inv_snapshot postcard listenAddr capacity acts outputs s client events run inv accepting
  | serve _ own client x y frames found serves wrote =>
      have next := inv_next postcard listenAddr capacity acts outputs s act (by cases act <;> first | rfl | cases own)
        (by rintro rfl; cases own) (by rintro _ rfl; cases own) inv
      obtain ⟨before, between, since, handed⟩ := next.handlers client x found
      refine inv_set postcard listenAddr capacity (acts ++ [act]) outputs s client y frames next
        (fun frame member => (wrote frame member).1) ⟨before, between, since, ?_⟩ ?_
      · exact serves_handed postcard listenAddr capacity client (acts ++ [act]) x y _ frames before between since handed serves
      · intro other events accepted same
        have absent := (inv.accepting other events accepted).1
        rw [same, found] at absent
        cases absent

theorem inv_run (postcard : Postcard) (listenAddr : Option String) (capacity : Nat) (positive : 0 < capacity) (acts : List (Act κ))
    (outputs : List (κ × Frame)) (s : State κ) (run : (machine postcard listenAddr capacity).Run start acts outputs s) :
    Inv postcard listenAddr capacity acts outputs s := by
  induction run with
  | idle => exact inv_start postcard listenAddr capacity
  | @next acts outputs s before act made after stepped ih =>
      exact inv_step postcard listenAddr capacity positive acts outputs made s after act before ih
        (step_moves postcard listenAddr capacity s after act made stepped)

-- What a client is sent: the hello, the ring as it was when it was copied, then what its receiver has read of the bus since
-- its subscription, which is all but what was overwritten and what waits.
structure Accounts (postcard : Postcard) (listenAddr : Option String) (capacity : Nat) (client : κ) (acts : List (Act κ)) (x : Handler)
    (frames : List Frame) (before between since : List (Act κ)) : Prop where
  joined : Joined client acts before between since
  copied : Copied postcard listenAddr capacity (before ++ .subscribe client :: between) x.replay
  covered : ∃ done gap, sentBy (between ++ since) = done ++ (gap ++ x.events.queue) ∧ gap.length = x.events.lagged ∧
    Covers x.reports done
  dealt : Dealt listenAddr x.replay (x.reports.filterMap Report.taken) x.rest frames

theorem handed_accounts (postcard : Postcard) (listenAddr : Option String) (capacity : Nat) (client : κ) (acts : List (Act κ))
    (x : Handler) (frames : List Frame) (before between since : List (Act κ))
    (handed : Handed postcard listenAddr capacity client acts x frames before between since) :
    Accounts postcard listenAddr capacity client acts x frames before between since :=
  ⟨handed.joined, handed.copied, handed.books.covered, handed.dealt⟩

-- Whatever overtakes whom, the only events that the frames of a client skip are those that the bus overwrote.
theorem feed_accounts (postcard : Postcard) (listenAddr : Option String) (capacity : Nat) (positive : 0 < capacity)
    (acts : List (Act κ)) (outputs : List (κ × Frame)) (s : State κ)
    (run : (machine postcard listenAddr capacity).Run start acts outputs s) (client : κ) (x : Handler)
    (found : s.handlers client = some x) :
    ∃ before between since,
      Accounts postcard listenAddr capacity client acts x (framesOf client outputs) before between since := by
  obtain ⟨before, between, since, handed⟩ :=
    (inv_run postcard listenAddr capacity positive acts outputs s run).handlers client x found
  exact ⟨before, between, since, handed_accounts postcard listenAddr capacity client acts x _ before between since handed⟩

-- With room for one event, the second of three is skipped.
theorem feed_accounts_skipped : ∃ (outputs : List (Unit × Frame)) (s : State Unit) (x : Handler) (before between since : List (Act Unit)),
    (machine Postcard.format none 1).Run start [.send (.closed 1), .receive, .push, .subscribe (), .snapshot, .send (.closed 2),
      .send (.closed 3), .hello (), .replay (), .live (), .live ()] outputs s ∧ s.handlers () = some x ∧
    outputs.map Prod.snd = [.hello protoVersion none, .event (.closed 1), .event (.closed 3)] ∧
    x.reports = [.missed 1, .value (.closed 3)] ∧
    Accounts Postcard.format none 1 () [.send (.closed 1), .receive, .push, .subscribe (), .snapshot, .send (.closed 2),
      .send (.closed 3), .hello (), .replay (), .live (), .live ()] x (framesOf () outputs) before between since := by
  have ran : ((machine Postcard.format none 1 : Machine (State Unit) (Act Unit) (Unit × Frame)).exec start
      [.send (.closed 1), .receive, .push, .subscribe (), .snapshot, .send (.closed 2), .send (.closed 3), .hello (), .replay (),
        .live (), .live ()]).map (fun ended => (ended.1.map Prod.snd, (ended.2.handlers ()).map Handler.reports)) =
      some ([.hello protoVersion none, .event (.closed 1), .event (.closed 3)], some [.missed 1, .value (.closed 3)]) := by
    decide +kernel
  obtain ⟨⟨outputs, s⟩, done, facts⟩ := Option.map_eq_some_iff.mp ran
  obtain ⟨frames, handled⟩ := Prod.mk.inj facts
  obtain ⟨x, found, reports⟩ := Option.map_eq_some_iff.mp handled
  have run := Machine.exec_run _ _ _ _ _ done
  obtain ⟨before, between, since, accounts⟩ := feed_accounts Postcard.format none 1 (by decide) _ outputs s run () x found
  exact ⟨outputs, s, x, before, between, since, run, found, frames, reports, accounts⟩

end Feed

end Admin

end NextSocks5
