import Mathlib

set_option autoImplicit false

inductive Verdict (α ε : Type) where
  | more
  | accept (value : α) (used : Nat)
  | reject (reason : ε)
deriving DecidableEq, Repr

-- A verdict once given stands, and an unfinished message has at most `limit` elements.
structure Decoder (β α ε : Type) where
  verdict : List β → Verdict α ε
  limit : Nat
  stable : ∀ buf extra, verdict buf ≠ .more → verdict (buf ++ extra) = verdict buf
  bounded : ∀ buf, verdict buf = .more → buf.length ≤ limit
  within : ∀ buf value used, verdict buf = .accept value used → used ≤ buf.length

namespace Incremental

variable {β χ α ε : Type}

-- `starved` is the end of the reads, `overflow` the guard on the size of the buffer.
inductive Filled (β χ α ε : Type) where
  | ready (value : α) (rest : List β) (reads : List χ)
  | refused (reason : ε) (reads : List χ)
  | overflow (reads : List χ)
  | starved
deriving DecidableEq, Repr

def fill (verdict : List β → Verdict α ε) (guard : Nat) (bytes : χ → List β) (buf : List β) : List χ → Filled β χ α ε
  | [] =>
      match verdict buf with
      | .accept value used => .ready value (buf.drop used) []
      | .reject reason => .refused reason []
      | .more => if guard < buf.length then .overflow [] else .starved
  | read :: reads =>
      match verdict buf with
      | .accept value used => .ready value (buf.drop used) (read :: reads)
      | .reject reason => .refused reason (read :: reads)
      | .more => if guard < buf.length then .overflow (read :: reads) else fill verdict guard bytes (buf ++ bytes read) reads

def stream (bytes : χ → List β) (buf : List β) (reads : List χ) : List β := buf ++ reads.flatMap bytes

theorem stream_cons (bytes : χ → List β) (buf : List β) (read : χ) (reads : List χ) :
    stream bytes buf (read :: reads) = stream bytes (buf ++ bytes read) reads := by
  simp [stream, List.append_assoc]

theorem fill_accept (verdict : List β → Verdict α ε) (guard : Nat) (bytes : χ → List β) (buf : List β) (reads : List χ)
    (value : α) (used : Nat) (parsed : verdict buf = .accept value used) :
    fill verdict guard bytes buf reads = .ready value (buf.drop used) reads := by
  cases reads <;> simp [fill, parsed]

theorem fill_reject (verdict : List β → Verdict α ε) (guard : Nat) (bytes : χ → List β) (buf : List β) (reads : List χ)
    (reason : ε) (parsed : verdict buf = .reject reason) :
    fill verdict guard bytes buf reads = .refused reason reads := by
  cases reads <;> simp [fill, parsed]

-- One-shot decoding of the whole stream decides how the loop ends, and a
-- message leaves exactly the bytes after it: first the rest of the buffer,
-- then the reads not made.
def OneShot (verdict : List β → Verdict α ε) (bytes : χ → List β) (whole : List β) (result : Filled β χ α ε) : Prop :=
  match verdict whole with
  | .accept value used => ∃ rest reads, result = .ready value rest reads ∧ stream bytes rest reads = whole.drop used
  | .reject reason => ∃ reads, result = .refused reason reads
  | .more => result = .starved

theorem fill_one_shot (decoder : Decoder β α ε) (guard : Nat) (roomy : decoder.limit ≤ guard) (bytes : χ → List β)
    (buf : List β) (reads : List χ) :
    OneShot decoder.verdict bytes (stream bytes buf reads) (fill decoder.verdict guard bytes buf reads) := by
  induction reads generalizing buf with
  | nil =>
      have whole : stream bytes buf [] = buf := by simp [stream]
      rw [whole, OneShot]
      cases parsed : decoder.verdict buf with
      | accept value used => exact ⟨buf.drop used, [], fill_accept _ _ _ _ _ _ _ parsed, by simp [stream]⟩
      | reject reason => exact ⟨[], fill_reject _ _ _ _ _ _ parsed⟩
      | more =>
          have small : ¬ guard < buf.length := by
            have bound := decoder.bounded buf parsed
            omega
          simp [fill, parsed, small]
  | cons read reads ih =>
      cases parsed : decoder.verdict buf with
      | accept value used =>
          have whole : decoder.verdict (stream bytes buf (read :: reads)) = .accept value used := by
            rw [stream, decoder.stable buf _ (by rw [parsed]; simp), parsed]
          rw [OneShot, whole]
          refine ⟨buf.drop used, read :: reads, fill_accept _ _ _ _ _ _ _ parsed, ?_⟩
          exact (List.drop_append_of_le_length (decoder.within buf value used parsed)).symm
      | reject reason =>
          have whole : decoder.verdict (stream bytes buf (read :: reads)) = .reject reason := by
            rw [stream, decoder.stable buf _ (by rw [parsed]; simp), parsed]
          rw [OneShot, whole]
          exact ⟨read :: reads, fill_reject _ _ _ _ _ _ parsed⟩
      | more =>
          have small : ¬ guard < buf.length := by
            have bound := decoder.bounded buf parsed
            omega
          rw [stream_cons, fill, parsed]
          simpa only [if_neg small] using ih (buf ++ bytes read)

structure Recognizes (decoder : Decoder β α ε) (wire : List β → α → Prop) : Prop where
  sound : ∀ buf value used, decoder.verdict buf = .accept value used →
    ∃ bytes rest, buf = bytes ++ rest ∧ wire bytes value ∧ used = bytes.length
  complete : ∀ bytes rest value, wire bytes value → decoder.verdict (bytes ++ rest) = .accept value bytes.length

theorem recognized_unique (decoder : Decoder β α ε) (wire : List β → α → Prop) (recognizes : Recognizes decoder wire)
    (bytes other rest left : List β) (value second : α) (first : wire bytes value) (next : wire other second)
    (same : bytes ++ rest = other ++ left) : bytes = other ∧ value = second ∧ rest = left := by
  have parsed := recognizes.complete bytes rest value first
  rw [same, recognizes.complete other left second next] at parsed
  injection parsed with valueEq sizeEq
  obtain ⟨bytesEq, restEq⟩ := List.append_inj same sizeEq.symm
  exact ⟨bytesEq, valueEq.symm, restEq⟩

theorem fill_recognized (decoder : Decoder β α ε) (wire : List β → α → Prop) (recognizes : Recognizes decoder wire)
    (guard : Nat) (roomy : decoder.limit ≤ guard) (bytes : χ → List β) (buf : List β) (reads : List χ) :
    (∃ message value rest left, stream bytes buf reads = message ++ stream bytes rest left ∧ wire message value ∧
      fill decoder.verdict guard bytes buf reads = .ready value rest left) ∨
    ((∀ message value rest, wire message value → stream bytes buf reads ≠ message ++ rest) ∧
      (fill decoder.verdict guard bytes buf reads = .starved ∨
        ∃ reason left, fill decoder.verdict guard bytes buf reads = .refused reason left)) := by
  have oneShot := fill_one_shot decoder guard roomy bytes buf reads
  cases parsed : decoder.verdict (stream bytes buf reads) with
  | accept value used =>
      rw [OneShot, parsed] at oneShot
      obtain ⟨rest, left, filled, kept⟩ := oneShot
      obtain ⟨message, after, cut, wired, sized⟩ := recognizes.sound _ value used parsed
      refine .inl ⟨message, value, rest, left, ?_, wired, filled⟩
      rw [kept, cut, sized, List.drop_left]
  | reject reason =>
      rw [OneShot, parsed] at oneShot
      obtain ⟨left, filled⟩ := oneShot
      refine .inr ⟨?_, .inr ⟨reason, left, filled⟩⟩
      intro message value rest wired same
      rw [same, recognizes.complete message rest value wired] at parsed
      cases parsed
  | more =>
      rw [OneShot, parsed] at oneShot
      refine .inr ⟨?_, .inl oneShot⟩
      intro message value rest wired same
      rw [same, recognizes.complete message rest value wired] at parsed
      cases parsed

end Incremental
