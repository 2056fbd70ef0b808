import Mathlib

set_option autoImplicit false

-- A limiter whose window opens anew on its first use a full period after the last opening.
namespace FixedWindow

structure Span where
  opened : Nat
  uses : List Nat
deriving DecidableEq, Repr

-- The newest span comes first, and a span ends where the next one opens.
def Follows (period : Nat) (newer older : Span) : Prop :=
  older.opened + period ≤ newer.opened ∧ ∀ instant ∈ older.uses, instant ≤ newer.opened

structure Paced (period limit : Nat) (spans : List Span) : Prop where
  chain : spans.IsChain (Follows period)
  opened : ∀ span ∈ spans, ∀ instant ∈ span.uses, span.opened ≤ instant
  limited : ∀ span ∈ spans, span.uses.length ≤ limit

def uses (spans : List Span) : List Nat := spans.flatMap Span.uses

def between (start stop : Nat) (instants : List Nat) : Nat := instants.countP fun instant => start ≤ instant ∧ instant < stop

@[simp] theorem uses_cons (span : Span) (spans : List Span) : uses (span :: spans) = span.uses ++ uses spans := rfl

variable {period limit : Nat}

theorem paced_single (opened : Nat) : Paced period limit [⟨opened, []⟩] :=
  ⟨.singleton _, by simp, by simp⟩

theorem paced_tail (span : Span) (spans : List Span) (paced : Paced period limit (span :: spans)) : Paced period limit spans := by
  refine ⟨paced.chain.of_cons, ?_, ?_⟩
  · intro other known
    exact paced.opened other (.tail span known)
  · intro other known
    exact paced.limited other (.tail span known)

theorem paced_open (span : Span) (spans : List Span) (now : Nat) (paced : Paced period limit (span :: spans))
    (elapsed : span.opened + period ≤ now) (past : ∀ instant ∈ span.uses, instant ≤ now) :
    Paced period limit (⟨now, []⟩ :: span :: spans) := by
  refine ⟨List.isChain_cons_cons.mpr ⟨⟨elapsed, past⟩, paced.chain⟩, ?_, ?_⟩
  · intro other known
    rcases List.mem_cons.mp known with rfl | older
    · simp
    · exact paced.opened other older
  · intro other known
    rcases List.mem_cons.mp known with rfl | older
    · simp
    · exact paced.limited other older

theorem paced_use (span : Span) (spans : List Span) (now : Nat) (paced : Paced period limit (span :: spans))
    (room : span.uses.length < limit) (current : span.opened ≤ now) :
    Paced period limit (⟨span.opened, now :: span.uses⟩ :: spans) := by
  refine ⟨?_, ?_, ?_⟩
  · cases spans with
    | nil => exact .singleton _
    | cons older rest =>
        have chain := List.isChain_cons_cons.mp paced.chain
        exact List.isChain_cons_cons.mpr ⟨chain.1, chain.2⟩
  · intro other known instant used
    rcases List.mem_cons.mp known with rfl | older
    · rcases List.mem_cons.mp used with rfl | before
      · exact current
      · exact paced.opened span (.head _) instant before
    · exact paced.opened other (.tail span older) instant used
  · intro other known
    rcases List.mem_cons.mp known with rfl | older
    · exact room
    · exact paced.limited other (.tail span older)

theorem older_uses_before (span : Span) (spans : List Span) (paced : Paced period limit (span :: spans)) :
    ∀ instant ∈ uses spans, instant ≤ span.opened := by
  induction spans generalizing span with
  | nil => simp [uses]
  | cons older rest ih =>
      have follows := (List.isChain_cons_cons.mp paced.chain).1
      intro instant used
      rcases List.mem_append.mp used with recent | early
      · exact follows.2 instant recent
      · have earlier := ih older (paced_tail span _ paced) instant early
        have apart := follows.1
        omega

theorem older_uses_since (span : Span) (spans : List Span) (paced : Paced period limit (span :: spans)) (start k : Nat)
    (near : span.opened < start + k * period) : (uses spans).countP (fun instant => start ≤ instant) ≤ k * limit := by
  induction spans generalizing span k with
  | nil => simp [uses]
  | cons older rest ih =>
      cases k with
      | zero =>
          have before := older_uses_before span (older :: rest) paced
          rw [Nat.zero_mul, Nat.le_zero, List.countP_eq_zero]
          intro instant used
          have early := before instant used
          simp only [decide_eq_true_eq]
          omega
      | succ k =>
          have apart := (List.isChain_cons_cons.mp paced.chain).1.1
          rw [Nat.succ_mul] at near
          have countedRest := ih older (paced_tail span _ paced) k (by omega)
          have here := List.countP_le_length (p := fun instant => decide (start ≤ instant)) (l := older.uses)
          have capped := paced.limited older (by simp)
          rw [uses_cons, List.countP_append, Nat.succ_mul]
          omega

theorem uses_between (spans : List Span) (paced : Paced period limit spans) (start stop k : Nat)
    (short : stop ≤ start + k * period) : between start stop (uses spans) ≤ (k + 1) * limit := by
  induction spans with
  | nil => simp [between, uses]
  | cons span rest ih =>
      rw [between, uses_cons, List.countP_append]
      by_cases inside : span.opened < stop
      · have here := List.countP_le_length (p := fun instant => decide (start ≤ instant ∧ instant < stop)) (l := span.uses)
        have capped := paced.limited span (by simp)
        have since := older_uses_since span rest paced start k (by omega)
        have fewer : (uses rest).countP (fun instant => decide (start ≤ instant ∧ instant < stop)) ≤
            (uses rest).countP (fun instant => decide (start ≤ instant)) := by
          apply List.countP_mono_left
          intro instant _ held
          simp only [decide_eq_true_eq] at held ⊢
          exact held.1
        rw [Nat.succ_mul]
        omega
      · have late : span.uses.countP (fun instant => decide (start ≤ instant ∧ instant < stop)) = 0 := by
          rw [List.countP_eq_zero]
          intro instant used
          have opened := paced.opened span (by simp) instant used
          simp only [decide_eq_true_eq]
          omega
        rw [late, Nat.zero_add]
        exact ih (paced_tail span rest paced)

end FixedWindow
