import Mathlib

set_option autoImplicit false

-- `none` says that the event cannot happen in that state.
structure Machine (σ ε ο : Type) where
  step : σ → ε → Option (σ × List ο)

namespace Machine

variable {σ ε ο : Type}

inductive Run (m : Machine σ ε ο) (start : σ) : List ε → List ο → σ → Prop where
  | idle : Run m start [] [] start
  | next {events : List ε} {outputs : List ο} {state : σ} (before : Run m start events outputs state)
      (event : ε) (made : List ο) (after : σ) (stepped : m.step state event = some (after, made)) :
      Run m start (events ++ [event]) (outputs ++ made) after

def Reachable (m : Machine σ ε ο) (start state : σ) : Prop :=
  ∃ events outputs, m.Run start events outputs state

def noted {α : Type} (m : Machine σ ε ο) (note : σ → ε → List α) : Machine σ ε α where
  step state event := (m.step state event).map fun (after, _) => (after, note state event)

def exec (m : Machine σ ε ο) : σ → List ε → Option (List ο × σ)
  | state, [] => some ([], state)
  | state, event :: events =>
      match m.step state event with
      | none => none
      | some (after, made) => (m.exec after events).map fun (outputs, final) => (made ++ outputs, final)

theorem run_invariant (m : Machine σ ε ο) (start : σ) (inv : List ε → List ο → σ → Prop)
    (initial : inv [] [] start)
    (preserved : ∀ events outputs state event after made, inv events outputs state →
      m.step state event = some (after, made) → inv (events ++ [event]) (outputs ++ made) after)
    (events : List ε) (outputs : List ο) (state : σ) (run : m.Run start events outputs state) :
    inv events outputs state := by
  induction run with
  | idle => exact initial
  | next _ event made after stepped ih => exact preserved _ _ _ event after made ih stepped

theorem run_deterministic (m : Machine σ ε ο) (start first second : σ) (events : List ε) (made more : List ο)
    (left : m.Run start events made first) (right : m.Run start events more second) : made = more ∧ first = second := by
  induction left generalizing more second with
  | idle =>
      generalize nothing : ([] : List ε) = events at right
      cases right with
      | idle => exact ⟨rfl, rfl⟩
      | next _ event _ _ _ => simp at nothing
  | @next events _ state _ event out after stepped ih =>
      generalize whole : events ++ [event] = all at right
      cases right with
      | idle => simp at whole
      | next before other out₂ after₂ stepped₂ =>
          obtain ⟨rfl, rfl⟩ : events = _ ∧ event = other := by simpa using List.append_inj' whole rfl
          obtain ⟨rfl, rfl⟩ := ih _ _ before
          rw [stepped] at stepped₂
          cases stepped₂
          exact ⟨rfl, rfl⟩

theorem noted_step {α : Type} (m : Machine σ ε ο) (note : σ → ε → List α) (state after : σ) (event : ε) (notes : List α)
    (stepped : (m.noted note).step state event = some (after, notes)) :
    notes = note state event ∧ ∃ made, m.step state event = some (after, made) := by
  simp only [noted, Option.map_eq_some_iff, Prod.exists, Prod.mk.injEq] at stepped
  obtain ⟨next, made, moved, rfl, rfl⟩ := stepped
  exact ⟨rfl, made, moved⟩

def Throughout (m : Machine σ ε ο) (start : σ) (ok : σ → ε → Prop) (events : List ε) : Prop :=
  ∀ before event rest outputs state, events = before ++ event :: rest → m.Run start before outputs state → ok state event

theorem throughout_nil (m : Machine σ ε ο) (start : σ) (ok : σ → ε → Prop) : m.Throughout start ok [] := by
  intro before event rest _ _ cut
  simp at cut

theorem throughout_snoc (m : Machine σ ε ο) (start state : σ) (ok : σ → ε → Prop) (events : List ε) (outputs : List ο)
    (run : m.Run start events outputs state) (event : ε) :
    m.Throughout start ok (events ++ [event]) ↔ m.Throughout start ok events ∧ ok state event := by
  constructor
  · intro held
    refine ⟨?_, held events event [] outputs state rfl run⟩
    intro before other rest made reached cut
    exact held before other (rest ++ [event]) made reached (by simp [cut])
  · rintro ⟨held, last⟩ before other rest made middle cut reached
    rcases List.eq_nil_or_concat rest with rfl | ⟨init, final, rfl⟩
    · obtain ⟨rfl, rfl⟩ : events = before ∧ event = other := by simpa using List.append_inj' cut rfl
      obtain ⟨_, rfl⟩ := run_deterministic m start state middle events outputs made run reached
      exact last
    · have longer : events ++ [event] = (before ++ other :: init) ++ [final] := by simpa using cut
      exact held before other init made middle (List.append_inj' longer rfl).1 reached

theorem throughout_invariant (m : Machine σ ε ο) (start : σ) (ok : σ → ε → Prop) (inv : List ε → List ο → σ → Prop)
    (initial : inv [] [] start)
    (preserved : ∀ events outputs state event after made, inv events outputs state → ok state event →
      m.step state event = some (after, made) → inv (events ++ [event]) (outputs ++ made) after)
    (events : List ε) (outputs : List ο) (state : σ) (run : m.Run start events outputs state)
    (held : m.Throughout start ok events) : inv events outputs state := by
  induction run with
  | idle => exact initial
  | @next events outputs state before event made after stepped ih =>
      obtain ⟨earlier, last⟩ := (throughout_snoc m start state ok events outputs before event).mp held
      exact preserved events outputs state event after made (ih earlier) last stepped

theorem throughout_congr (m : Machine σ ε ο) (start : σ) (ok other : σ → ε → Prop)
    (same : ∀ state event, m.Reachable start state → (ok state event ↔ other state event)) (events : List ε) :
    m.Throughout start ok events ↔ m.Throughout start other events := by
  constructor
  · intro held before event rest outputs state cut run
    exact (same state event ⟨before, outputs, run⟩).mp (held before event rest outputs state cut run)
  · intro held before event rest outputs state cut run
    exact (same state event ⟨before, outputs, run⟩).mpr (held before event rest outputs state cut run)

theorem throughout_consequence (m : Machine σ ε ο) (start : σ) (ok other : σ → ε → Prop) (inv : σ → Prop) (initial : inv start)
    (preserved : ∀ state event after made, inv state → ok state event → m.step state event = some (after, made) → inv after)
    (implied : ∀ state event, inv state → ok state event → other state event) (events : List ε)
    (held : m.Throughout start ok events) : m.Throughout start other events := by
  intro before event rest outputs state cut run
  have earlier : m.Throughout start ok before := by
    intro first act later made reached cutEarlier ran
    exact held first act (later ++ event :: rest) made reached (by simp [cut, cutEarlier]) ran
  have kept := throughout_invariant m start ok (fun _ _ s => inv s) initial
    (fun _ _ s e a o known met stepped => preserved s e a o known met stepped) before outputs state run earlier
  exact implied state event kept (held before event rest outputs state cut run)

def Always (m : Machine σ ε ο) (start : σ) (holds : σ → Prop) (events : List ε) : Prop :=
  ∀ before rest outputs state, events = before ++ rest → m.Run start before outputs state → holds state

theorem always_nil (m : Machine σ ε ο) (start : σ) (holds : σ → Prop) : m.Always start holds [] ↔ holds start := by
  constructor
  · intro always
    exact always [] [] [] start rfl .idle
  · intro initial before rest outputs state cut run
    obtain ⟨rfl, rfl⟩ := List.append_eq_nil_iff.mp cut.symm
    obtain ⟨_, rfl⟩ := run_deterministic m start start state [] [] outputs .idle run
    exact initial

theorem always_snoc (m : Machine σ ε ο) (start after : σ) (holds : σ → Prop) (events : List ε) (outputs : List ο) (event : ε)
    (run : m.Run start (events ++ [event]) outputs after) :
    m.Always start holds (events ++ [event]) ↔ m.Always start holds events ∧ holds after := by
  constructor
  · intro always
    refine ⟨?_, always _ [] outputs after (by simp) run⟩
    intro before rest made state cut reached
    exact always before (rest ++ [event]) made state (by simp [cut]) reached
  · rintro ⟨always, last⟩ before rest made state cut reached
    rcases List.eq_nil_or_concat rest with rfl | ⟨init, final, rfl⟩
    · rw [List.append_nil] at cut
      subst cut
      obtain ⟨_, rfl⟩ := run_deterministic m start after state _ outputs made run reached
      exact last
    · have longer : events ++ [event] = (before ++ init) ++ [final] := by simpa using cut
      exact always before init made state (List.append_inj' longer rfl).1 reached

theorem always_iff_throughout (m : Machine σ ε ο) (start : σ) (inv holds : σ → Prop) (fair ok : σ → ε → Prop)
    (initial : inv start ∧ holds start)
    (kept : ∀ state event after made, inv state → fair state event → m.step state event = some (after, made) → inv after)
    (decided : ∀ state event after made, inv state → fair state event → holds state →
      m.step state event = some (after, made) → (holds after ↔ ok state event))
    (events : List ε) (outputs : List ο) (state : σ) (run : m.Run start events outputs state) (all : m.Throughout start fair events) :
    m.Always start holds events ↔ m.Throughout start ok events := by
  induction run with
  | idle => exact iff_of_true ((always_nil m start holds).mpr initial.2) (throughout_nil m start ok)
  | @next events outputs state before event made after stepped ih =>
      obtain ⟨earlier, last⟩ := (throughout_snoc m start state fair events outputs before event).mp all
      have known : inv state := throughout_invariant m start fair (fun _ _ s => inv s) initial.1
        (fun _ _ s e t o held met moved => kept s e t o held met moved) events outputs state before earlier
      rw [always_snoc m start after holds events _ event (before.next event made after stepped),
        throughout_snoc m start state ok events outputs before event, ← ih earlier]
      refine and_congr_right fun always => ?_
      exact decided state event after made known last (always events [] outputs state (by simp) before) stepped

theorem kept_iff_throughout (m : Machine σ ε ο) (start : σ) (inv : List ε → List ο → σ → Prop) (holds : σ → Prop)
    (ok : σ → ε → Prop) (initial : holds start)
    (known : ∀ events outputs state, m.Run start events outputs state → inv events outputs state)
    (decided : ∀ events outputs state event after made, inv events outputs state → m.step state event = some (after, made) →
      (holds after ↔ holds state ∧ ok state event))
    (events : List ε) (outputs : List ο) (state : σ) (run : m.Run start events outputs state) :
    holds state ↔ m.Throughout start ok events := by
  induction run with
  | idle => exact iff_of_true initial (throughout_nil m start ok)
  | @next events outputs state before event made after stepped ih =>
      rw [decided events outputs state event after made (known _ _ _ before) stepped, ih,
        throughout_snoc m start state ok events outputs before event]

theorem reachable_invariant (m : Machine σ ε ο) (start : σ) (inv : σ → Prop) (initial : inv start)
    (preserved : ∀ state event after made, inv state → m.step state event = some (after, made) → inv after)
    (state : σ) (reached : m.Reachable start state) : inv state := by
  obtain ⟨events, outputs, run⟩ := reached
  exact run_invariant m start (fun _ _ s => inv s) initial
    (fun _ _ s e a o held stepped => preserved s e a o held stepped) events outputs state run

-- Interleaved parties: each keeps its own assertion, and no other party breaks it.
theorem assertions_reachable {π α : Type} [DecidableEq π] (m : Machine σ (π × α) ο) (start : σ) (holds : σ → π → Prop)
    (initial : ∀ p, holds start p)
    (correct : ∀ state p act after made, holds state p → m.step state (p, act) = some (after, made) → holds after p)
    (undisturbed : ∀ state p q act after made, q ≠ p → holds state p → holds state q →
      m.step state (p, act) = some (after, made) → holds after q)
    (state : σ) (reached : m.Reachable start state) : ∀ p, holds state p := by
  refine reachable_invariant m start (fun s => ∀ p, holds s p) initial ?_ state reached
  intro state event after made held stepped q
  obtain ⟨p, act⟩ := event
  by_cases own : q = p
  · subst own
    exact correct state q act after made (held q) stepped
  · exact undisturbed state p q act after made own (held p) (held q) stepped

theorem reachable_start (m : Machine σ ε ο) (start : σ) : m.Reachable start start := ⟨[], [], .idle⟩

theorem reachable_step (m : Machine σ ε ο) (start state after : σ) (event : ε) (made : List ο)
    (reached : m.Reachable start state) (stepped : m.step state event = some (after, made)) :
    m.Reachable start after := by
  obtain ⟨events, outputs, run⟩ := reached
  exact ⟨_, _, run.next event made after stepped⟩

theorem run_append (m : Machine σ ε ο) (start middle state : σ) (first second : List ε) (made more : List ο)
    (head : m.Run start first made middle) (tail : m.Run middle second more state) :
    m.Run start (first ++ second) (made ++ more) state := by
  induction tail with
  | idle => simpa using head
  | next _ event out after stepped ih => simpa [List.append_assoc] using ih.next event out after stepped

theorem run_fold {α : Type} (m : Machine σ ε ο) (event : α → ε) (apply : σ → α → σ)
    (each : ∀ state value, m.step state (event value) = some (apply state value, [])) (state : σ) (values : List α) :
    m.Run state (values.map event) [] (values.foldl apply state) := by
  induction values generalizing state with
  | nil => exact .idle
  | cons value values ih =>
      have first : m.Run state [event value] [] (apply state value) := .next .idle (event value) [] _ (each state value)
      exact run_append m state _ _ [event value] _ [] [] first (ih (apply state value))

theorem run_last (m : Machine σ ε ο) (start after : σ) (events : List ε) (event : ε) (outputs : List ο)
    (run : m.Run start (events ++ [event]) outputs after) :
    ∃ earlier made state, m.Run start events earlier state ∧ m.step state event = some (after, made) ∧ outputs = earlier ++ made := by
  generalize whole : events ++ [event] = all at run
  cases run with
  | idle => simp at whole
  | @next before earlier state ran last made _ stepped =>
      obtain ⟨rfl, same⟩ := List.append_inj' whole rfl
      obtain rfl := List.singleton_inj.mp same
      exact ⟨earlier, made, state, ran, stepped, rfl⟩

theorem reachable_trans (m : Machine σ ε ο) (start middle state : σ)
    (first : m.Reachable start middle) (second : m.Reachable middle state) : m.Reachable start state := by
  obtain ⟨events, outputs, head⟩ := first
  obtain ⟨later, more, tail⟩ := second
  exact ⟨_, _, run_append m start middle state events later outputs more head tail⟩

theorem exec_run (m : Machine σ ε ο) (start : σ) (events : List ε) (outputs : List ο) (state : σ)
    (done : m.exec start events = some (outputs, state)) : m.Run start events outputs state := by
  induction events generalizing start outputs with
  | nil =>
      cases done
      exact .idle
  | cons event rest ih =>
      cases stepped : m.step start event with
      | none => simp [exec, stepped] at done
      | some result =>
          obtain ⟨after, made⟩ := result
          cases finished : m.exec after rest with
          | none => simp [exec, stepped, finished] at done
          | some tail =>
              obtain ⟨more, final⟩ := tail
              have same : made ++ more = outputs ∧ final = state := by
                simpa [exec, stepped, finished] using done
              obtain ⟨rfl, rfl⟩ := same
              have head : m.Run start [event] made after := by
                simpa using Run.idle.next event made after stepped
              exact run_append m start after final [event] rest made more head (ih after more finished)

-- Possibility by a measure that some step always brings down.
theorem reachable_goal (m : Machine σ ε ο) (inv goal : σ → Prop) (distance : σ → Nat)
    (nearer : ∀ state, inv state → ¬ goal state →
      ∃ event after made, m.step state event = some (after, made) ∧ inv after ∧ distance after < distance state)
    (state : σ) (held : inv state) : ∃ final, m.Reachable state final ∧ inv final ∧ goal final := by
  induction remaining : distance state using Nat.strong_induction_on generalizing state with
  | _ remainder ih =>
      by_cases met : goal state
      · exact ⟨state, reachable_start m state, held, met⟩
      · obtain ⟨event, after, made, stepped, kept, closer⟩ := nearer state held met
        obtain ⟨final, rest, ending⟩ := ih (distance after) (remaining ▸ closer) after kept rfl
        exact ⟨final, reachable_trans m state after final
          (reachable_step m state state after event made (reachable_start m state) stepped) rest, ending⟩

-- Forward simulation: each step is answered by a run of the abstract machine.
theorem simulation {σ₂ ε₂ ο₂ : Type} (m : Machine σ ε ο) (spec : Machine σ₂ ε₂ ο₂) (rel : σ → σ₂ → Prop)
    (start : σ) (specStart : σ₂) (initial : rel start specStart)
    (answered : ∀ state abstract event after made, rel state abstract →
      m.step state event = some (after, made) → ∃ next, rel after next ∧ spec.Reachable abstract next)
    (state : σ) (reached : m.Reachable start state) :
    ∃ abstract, rel state abstract ∧ spec.Reachable specStart abstract := by
  refine reachable_invariant m start (fun s => ∃ a, rel s a ∧ spec.Reachable specStart a)
    ⟨specStart, initial, reachable_start spec specStart⟩ ?_ state reached
  intro state event after made held stepped
  obtain ⟨abstract, related, known⟩ := held
  obtain ⟨next, nextRelated, more⟩ := answered state abstract event after made related stepped
  exact ⟨next, nextRelated, reachable_trans spec specStart abstract next known more⟩

theorem run_alike (m : Machine σ ε ο) (alike : ε → ε → Prop)
    (same : ∀ state other event, alike other event → m.step state other = m.step state event)
    (start state : σ) (events others : List ε) (outputs : List ο) (pairs : List.Forall₂ alike others events)
    (run : m.Run start events outputs state) : m.Run start others outputs state := by
  induction run generalizing others with
  | idle =>
      rw [List.forall₂_nil_right_iff.mp pairs]
      exact .idle
  | @next events outputs middle before event made after stepped ih =>
      have first := List.forall₂_take_append others events [event] pairs
      have last := List.forall₂_drop_append others events [event] pairs
      obtain ⟨other, rest, similar, nothing, cut⟩ := List.forall₂_cons_right_iff.mp last
      rw [List.forall₂_nil_right_iff.mp nothing] at cut
      rw [← List.take_append_drop events.length others, cut]
      exact (ih _ first).next other made after (by rw [same middle other event similar, stepped])

end Machine
