import NextSocks5.Server.Acceptance
import NextSocks5.Server.Connect

set_option autoImplicit false

namespace NextSocks5

namespace Connect

open Relay (Direction Half Turns)

def handedBytes (dir : Direction) : Output → Bytes
  | .toUpstream bytes => if dir = .up then bytes else []
  | .relay ⟨_, origin, .accepted bytes⟩ => if origin = dir then bytes else []
  | _ => []

def handed (dir : Direction) (outputs : List Output) : Bytes := outputs.flatMap (handedBytes dir)

-- What a direction has to carry: the pipelined tail goes first.
def Call.stream (c : Call) : Direction → Bytes
  | .up => c.initial ++ c.client
  | .down => c.upstream

def counter (info : ConnInfo) : Direction → Nat
  | .up => info.up
  | .down => info.down

def accepted (traces : List Relay.Trace) : Bytes :=
  traces.flatMap fun trace =>
    match trace with
    | .accepted bytes => bytes
    | _ => []

def counted (traces : List Relay.Trace) : Nat :=
  (traces.map fun trace =>
    match trace with
    | .counted n => n
    | _ => 0).sum

def HalfInv (stream handed : Bytes) (count : Nat) (half : Half) : Prop :=
  match half.phase with
  | .reading _ => handed ++ half.source = stream ∧ count = handed.length
  | .writing _ n rest => handed ++ (rest ++ half.source) = stream ∧ count + n = handed.length + rest.length ∧ rest.length ≤ n
  | .ended .eof => handed = stream ∧ count = handed.length
  | .ended _ => handed <+: stream ∧ count ≤ handed.length

theorem half_safe (stream handed : Bytes) (count : Nat) (half : Half) (inv : HalfInv stream handed count half) :
    handed <+: stream ∧ count ≤ handed.length := by
  rw [HalfInv] at inv
  split at inv
  · exact ⟨⟨_, inv.1⟩, by omega⟩
  · exact ⟨⟨_, inv.1⟩, by omega⟩
  · exact ⟨inv.1 ▸ List.prefix_refl _, by omega⟩
  · exact inv

theorem turns_inv (idle now lastActivity later count : Nat) (stream handed : Bytes) (half next : Half) (traces : List Relay.Trace)
    (inv : HalfInv stream handed count half) (turned : Turns idle now lastActivity half next later traces) :
    HalfInv stream (handed ++ accepted traces) (count + counted traces) next := by
  have safe := half_safe stream handed count half inv
  rw [HalfInv] at inv
  cases turned with
  | read since n reading positive sized =>
      simp only [reading] at inv
      refine ⟨?_, ?_, ?_⟩
      · simpa [accepted] using inv.1
      · simp [accepted, counted, inv.2, sized]
      · simp
  | eof since reading closed =>
      simp only [reading, closed, List.append_nil] at inv
      exact ⟨by simpa [accepted] using inv.1, by simpa [accepted, counted] using inv.2⟩
  | readFailed since reading => exact ⟨by simpa [accepted] using safe.1, by simpa [accepted, counted] using safe.2⟩
  | stale since reading waited stale => exact ⟨by simpa [accepted] using safe.1, by simpa [accepted, counted] using safe.2⟩
  | active since reading waited active =>
      simp only [reading] at inv
      exact ⟨by simpa [accepted] using inv.1, by simpa [accepted, counted] using inv.2⟩
  | accept since n k rest writing partly =>
      simp only [writing] at inv
      obtain ⟨whole, sum, bound⟩ := inv
      refine ⟨?_, ?_, ?_⟩
      · calc handed ++ accepted [.accepted (rest.take k)] ++ (rest.drop k ++ half.source)
            = handed ++ ((rest.take k ++ rest.drop k) ++ half.source) := by
              simp only [accepted, List.flatMap_cons, List.flatMap_nil, List.append_nil, List.append_assoc]
          _ = stream := by rw [List.take_append_drop, whole]
      · simp only [accepted, counted, List.flatMap_cons, List.flatMap_nil, List.append_nil, List.length_append, List.length_take,
          List.length_drop, List.map_cons, List.map_nil, List.sum_cons, List.sum_nil]
        omega
      · simp only [List.length_drop]
        omega
  | complete since n rest writing =>
      simp only [writing] at inv
      obtain ⟨whole, sum, bound⟩ := inv
      refine ⟨?_, ?_⟩
      · rw [← whole]
        simp [accepted]
      · simp [accepted, counted, sum]
  | writeFailed since n rest writing =>
      exact ⟨by simpa [accepted] using safe.1, by simpa [accepted, counted] using safe.2⟩

@[simp] theorem handed_append (dir : Direction) (first second : List Output) :
    handed dir (first ++ second) = handed dir first ++ handed dir second := List.flatMap_append

theorem handed_relay (time : Nat) (origin dir : Direction) (traces : List Relay.Trace) :
    handed dir ((traces.map fun trace => (⟨time, origin, trace⟩ : Relay.Output)).map .relay) =
      if origin = dir then accepted traces else [] := by
  induction traces with
  | nil => simp [handed, accepted]
  | cons trace traces ih =>
      simp only [handed, accepted, List.map_cons, List.flatMap_cons] at ih ⊢
      rw [ih]
      cases trace <;> by_cases same : origin = dir <;> simp [handedBytes, same]

theorem count_relay (id time : Nat) (origin : Direction) (traces : List Relay.Trace) (m : Metrics) (info : ConnInfo)
    (entry : m.entry id = some info) :
    ∃ later, ((traces.map fun trace => (⟨time, origin, trace⟩ : Relay.Output)).foldl (count id) m).entry id = some later ∧
      ∀ dir, counter later dir = counter info dir + if origin = dir then counted traces else 0 := by
  induction traces generalizing m info with
  | nil => exact ⟨info, entry, fun dir => by simp [counted]⟩
  | cons trace traces ih =>
      have next : ∃ mid, (count id m ⟨time, origin, trace⟩).entry id = some mid ∧
          ∀ dir, counter mid dir = counter info dir + if origin = dir then counted [trace] else 0 := by
        cases trace with
        | counted n =>
            cases origin with
            | up => exact ⟨{ info with up := info.up + n }, by simp [count, entry], fun dir => by cases dir <;> simp [counter, counted]⟩
            | down => exact ⟨{ info with down := info.down + n }, by simp [count, entry], fun dir => by cases dir <;> simp [counter, counted]⟩
        | _ => exact ⟨info, by cases origin <;> simpa [count] using entry, fun dir => by simp [counted]⟩
      obtain ⟨mid, midEntry, midCount⟩ := next
      obtain ⟨later, lastEntry, lastCount⟩ := ih _ mid midEntry
      refine ⟨later, lastEntry, ?_⟩
      intro dir
      rw [lastCount dir, midCount dir]
      split
      · simp [counted, Nat.add_assoc]
      · rfl

def StreamInv (c : Call) (outputs : List Output) (s : State) : Prop :=
  match s.phase with
  | .establishing _ | .refusing _ _ _ | .replying _ => ∀ dir, handed dir outputs = []
  | .initial id rest =>
      handed .up outputs ++ rest = c.initial ∧ handed .down outputs = [] ∧
      ∃ info, s.metrics.entry id = some info ∧ ∀ dir, counter info dir = 0
  | .relaying id relay =>
      ∃ info, s.metrics.entry id = some info ∧ ∀ dir, HalfInv (c.stream dir) (handed dir outputs) (counter info dir) (relay.half dir)
  | .finished => ∀ dir, handed dir outputs <+: c.stream dir

section

variable (c : Call) (outputs made : List Output) (s after : State)

theorem stream_prefix (inv : StreamInv c outputs s) (dir : Direction) : handed dir outputs <+: c.stream dir := by
  rw [StreamInv] at inv
  split at inv
  · rw [inv dir]
    exact List.nil_prefix
  · rw [inv dir]
    exact List.nil_prefix
  · rw [inv dir]
    exact List.nil_prefix
  · obtain ⟨tail, nothing, _⟩ := inv
    cases dir with
    | up => exact ⟨_, by rw [Call.stream, ← tail, List.append_assoc]⟩
    | down =>
        rw [nothing]
        exact List.nil_prefix
  · obtain ⟨info, _, halves⟩ := inv
    exact (half_safe _ _ _ _ (halves dir)).1
  · exact inv dir

theorem handed_silent (inv : ∀ dir, handed dir outputs = []) (silent : ∀ dir, handed dir made = []) (dir : Direction) :
    handed dir (outputs ++ made) = [] := by
  rw [handed_append, inv dir, silent dir]
  rfl

theorem begin_relay_inv (now : Nat) (info : ConnInfo) (up : handed .up outputs = c.initial) (down : handed .down outputs = [])
    (sum : counter info .up = c.initial.length) (nothing : counter info .down = 0) (dir : Direction) :
    HalfInv (c.stream dir) (handed dir outputs) (counter info dir) ((beginRelay c now).half dir) := by
  cases dir with
  | up => exact ⟨by rw [up]; rfl, by rw [sum, up]⟩
  | down => exact ⟨by rw [down]; rfl, by rw [nothing, down]; rfl⟩

theorem established_inv (now : Nat) (e : Establish.State) (silent : ∀ dir, handed dir outputs = []) :
    StreamInv c outputs { s with phase := established c now e } := by
  rw [StreamInv, established]
  rcases e.phase with _ | _ | _ | (_ | _) <;> exact silent

theorem register_inv (silent : ∀ dir, handed dir outputs = []) : StreamInv c outputs (register c s).1 := by
  simp only [register, StreamInv]
  by_cases nothing : c.initial = []
  · simp only [nothing, if_true]
    refine ⟨_, Metrics.entry_register s.metrics c.peer (addressToString c.target) .connect, ?_⟩
    exact begin_relay_inv c outputs s.now _ (by rw [silent, nothing]) (silent .down) (by simp [counter, nothing]) rfl
  · simp only [nothing, if_false]
    refine ⟨by rw [silent]; rfl, silent .down, _, Metrics.entry_register s.metrics c.peer (addressToString c.target) .connect, ?_⟩
    intro dir
    cases dir <;> rfl

theorem finish_inv (id : Nat) (safe : ∀ dir, handed dir outputs <+: c.stream dir) :
    StreamInv c (outputs ++ (finish s id).2) (finish s id).1 := fun dir => by simpa [finish, handed, handedBytes] using safe dir

theorem refuse_inv (err : Socks5Error) (msg : String) (written : Bool) (silent : ∀ dir, handed dir outputs = []) :
    StreamInv c outputs (refuse s err msg written).1 := fun dir => by rw [silent dir]; exact List.nil_prefix

theorem relay_inv (dir : Direction) (act : Relay.Act) (id : Nat) (relay later : Relay.State) (traced : List Relay.Output)
    (inv : StreamInv c outputs s) (phase : s.phase = .relaying id relay)
    (stepped : Relay.step c.idle relay ⟨s.now, dir, act⟩ = some (later, traced)) :
    StreamInv c (outputs ++ traced.map .relay)
      { s with metrics := traced.foldl (count id) s.metrics, phase := .relaying id later } := by
  simp only [StreamInv, phase] at inv
  obtain ⟨info, entry, halves⟩ := inv
  obtain ⟨_, half, stamp, traces, turned, rfl, _, _, halfEq, otherEq⟩ := Relay.step_cases c.idle relay later _ traced stepped
  obtain ⟨more, moreEntry, moreCount⟩ := count_relay id s.now dir traces s.metrics info entry
  refine ⟨more, moreEntry, ?_⟩
  intro which
  rw [handed_append, handed_relay, moreCount which]
  rcases Relay.direction_cases dir which with rfl | rfl
  · rw [if_pos rfl, if_pos rfl, halfEq]
    exact turns_inv _ _ _ _ _ _ _ _ _ _ (halves which) (Relay.copy_half_turns _ _ _ _ _ _ _ _ turned)
  · rw [if_neg (Relay.other_ne dir).symm, if_neg (Relay.other_ne dir).symm, otherEq, List.append_nil, Nat.add_zero]
    exact halves dir.other

theorem forward_inv (id k : Nat) (rest : Bytes) (inv : StreamInv c outputs s) (phase : s.phase = .initial id rest) :
    StreamInv c (outputs ++ [.toUpstream (rest.take k)]) { s with phase := .initial id (rest.drop k) } := by
  simp only [StreamInv, phase] at inv
  obtain ⟨tail, down, info, entry, zero⟩ := inv
  refine ⟨?_, ?_, info, entry, zero⟩
  · calc handed .up (outputs ++ [.toUpstream (rest.take k)]) ++ rest.drop k
        = handed .up outputs ++ (rest.take k ++ rest.drop k) := by simp [handed, handedBytes]
      _ = c.initial := by rw [List.take_append_drop, tail]
  · rw [handed_append, down]
    simp [handed, handedBytes]

theorem forwarded_inv (id : Nat) (rest : Bytes) (inv : StreamInv c outputs s) (phase : s.phase = .initial id rest) :
    StreamInv c (outputs ++ [.toUpstream rest])
      { s with metrics := s.metrics.addUp id c.initial.length, phase := .relaying id (beginRelay c s.now) } := by
  simp only [StreamInv, phase] at inv
  obtain ⟨tail, down, info, entry, zero⟩ := inv
  refine ⟨{ info with up := info.up + c.initial.length }, by simp [entry], ?_⟩
  have nothing := zero .up
  refine begin_relay_inv c _ s.now _ ?_ ?_ ?_ (zero .down)
  · rw [handed_append, ← tail]
    simp [handed, handedBytes]
  · rw [handed_append, down]
    simp [handed, handedBytes]
  · simp only [counter] at nothing ⊢
    omega

theorem others_inv (metrics : Metrics) (inv : StreamInv c outputs s)
    (foreign : s.phase.id.all (fun id => metrics.entry id = s.metrics.entry id) = true) : StreamInv c outputs { s with metrics } := by
  rw [StreamInv] at inv ⊢
  cases phase : s.phase with
  | initial id rest =>
      simp only [phase] at inv ⊢
      have same : metrics.entry id = s.metrics.entry id := by simpa [phase, Phase.id] using foreign
      rwa [same]
  | relaying id relay =>
      simp only [phase] at inv ⊢
      have same : metrics.entry id = s.metrics.entry id := by simpa [phase, Phase.id] using foreign
      rwa [same]
  | _ => simpa only [phase] using inv

theorem moves_inv (wake : Wake) (inv : StreamInv c outputs s) (moves : Moves c s wake after made) :
    StreamInv c (outputs ++ made) after := by
  have safe := stream_prefix c outputs s inv
  cases moves with
  | establishing e next wake dials phase moved =>
      simp only [StreamInv, phase] at inv
      have silent : ∀ dir, handed dir (dials.map Output.dial) = [] := fun dir => by simp [handed, handedBytes]
      exact established_inv c _ s s.now next (handed_silent outputs _ inv silent)
  | refusing err msg rest k phase _ =>
      simp only [StreamInv, phase] at inv
      exact handed_silent outputs _ inv (fun dir => rfl)
  | refused err msg rest k phase _ =>
      simp only [StreamInv, phase] at inv
      exact refuse_inv c _ s err msg true (handed_silent outputs _ inv (fun dir => rfl))
  | replying rest k phase _ =>
      simp only [StreamInv, phase] at inv
      exact handed_silent outputs _ inv (fun dir => rfl)
  | replied rest k phase _ =>
      simp only [StreamInv, phase] at inv
      exact register_inv c _ s (handed_silent outputs _ inv (fun dir => rfl))
  | forwarding id rest k phase _ => exact forward_inv c outputs s id k rest inv phase
  | forwarded id rest k phase _ => exact forwarded_inv c outputs s id rest inv phase
  | refusalFailed err msg rest phase =>
      simp only [StreamInv, phase] at inv
      exact refuse_inv c _ s err msg false (handed_silent outputs _ inv (fun dir => rfl))
  | replyFailed rest phase => exact fun dir => by simpa [handed, handedBytes] using safe dir
  | initialFailed id rest phase => exact finish_inv c outputs s id safe
  | relaying id relay later dir act traced phase turned => exact relay_inv c outputs s dir act id relay later traced inv phase turned
  | joined id relay phase done => exact finish_inv c outputs s id safe
  | shutdown id relay phase => exact finish_inv c outputs s id safe
  | others metrics foreign =>
      rw [List.append_nil]
      exact others_inv c outputs s metrics inv foreign

theorem step_inv (event : Nat × Wake) (inv : StreamInv c outputs s) (stepped : (machine c).step s event = some (after, made)) :
    StreamInv c (outputs ++ made) after :=
  moves_inv c outputs made { s with now := event.1 } after event.2 inv (step_moves c s after event.1 event.2 made stepped)

end

theorem stream_run (c : Call) (metrics : Metrics) (events : List (Nat × Wake)) (outputs : List Output) (s : State)
    (run : (machine c).Run (start c metrics) events outputs s) : StreamInv c outputs s :=
  (machine c).run_invariant (start c metrics) (fun _ outputs s => StreamInv c outputs s) (fun _ => rfl)
    (fun _ outputs s event after made inv stepped => step_inv c outputs made s after event inv stepped) events outputs s run

end Connect

end NextSocks5
