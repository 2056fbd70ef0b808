import NextSocks5.Tui.Dashboard

set_option autoImplicit false

namespace NextSocks5

namespace Tui

section

variable {α : Type}

theorem modify_first_take (p : α → Bool) (change : α → α) (items : List α) (n : Nat) :
    (modifyFirst p change items).take n = modifyFirst p change (items.take n) := by
  induction items generalizing n with
  | nil => simp [modifyFirst]
  | cons item items ih =>
      cases n with
      | zero => simp [modifyFirst]
      | succ n =>
          rw [List.take_succ_cons, modifyFirst, modifyFirst]
          split
          · rw [List.take_succ_cons]
          · rw [List.take_succ_cons, ih]

theorem modify_first_only (p : α → Bool) (change : α → α) (items : List α)
    (only : items.Pairwise fun a b => ¬ (p a = true ∧ p b = true)) :
    modifyFirst p change items = items.map fun item => if p item then change item else item := by
  induction items with
  | nil => rfl
  | cons item items ih =>
      obtain ⟨apart, only⟩ := List.pairwise_cons.mp only
      rw [modifyFirst, List.map_cons]
      by_cases found : p item = true
      · have rest : items.map (fun item => if p item then change item else item) = items := by
          have same : items.map (fun item => if p item then change item else item) = items.map id := by
            refine List.map_congr_left ?_
            intro other member
            rw [if_neg fun also => apart other member ⟨found, also⟩, id]
          rw [same, List.map_id]
        rw [if_pos found, if_pos found, rest]
      · rw [if_neg found, if_neg found, ih only]

end

def appended : Received → Option LogLine
  | .event (.closed _) => none
  | .event ev => some ⟨severityOf ev, formatEvent ev, connectId ev⟩
  | .lagged n => some ⟨.warn, s!"(log lagged, dropped {n} events)", none⟩

def closeLast (id : Nat) (lines : List LogLine) : List LogLine :=
  (modifyFirst (LogLine.opens id) LogLine.close lines.reverse).reverse

def record (lines : List LogLine) (received : Received) : List LogLine :=
  match received with
  | .event (.closed id) => closeLast id lines
  | other => lines ++ (appended other).toList

def journal (received : List Received) : List LogLine := received.foldl record []

theorem last_reverse (cap : Nat) (lines : List LogLine) : (Window.last cap lines).reverse = lines.reverse.take cap := by
  rw [Window.last, List.take_reverse]

theorem close_last_window (cap id : Nat) (lines : List LogLine) :
    closeLast id (Window.last cap lines) = Window.last cap (closeLast id lines) := by
  apply List.reverse_injective
  rw [last_reverse, closeLast, closeLast, List.reverse_reverse, List.reverse_reverse, last_reverse, modify_first_take]

theorem drain_event_last (log : LogRing) (lines : List LogLine) (received : Received) (held : log.buf = Window.last log.cap lines) :
    (drainEvent log received).1.buf = Window.last log.cap (record lines received) ∧ (drainEvent log received).1.cap = log.cap := by
  cases received with
  | lagged n =>
      refine ⟨?_, rfl⟩
      exact (congrArg (fun items => Window.push log.cap items _) held).trans (Window.push_last log.cap lines _ log.positive)
  | event ev =>
      cases ev with
      | closed id =>
          refine ⟨?_, rfl⟩
          rw [record, ← close_last_window, ← held]
          rfl
      | connect | auth | error | log =>
          refine ⟨?_, rfl⟩
          exact (congrArg (fun items => Window.push log.cap items _) held).trans (Window.push_last log.cap lines _ log.positive)

theorem drain_events_last (log : LogRing) (lines : List LogLine) (batch : List Received) (held : log.buf = Window.last log.cap lines) :
    (drainEvents log batch).1.buf = Window.last log.cap (batch.foldl record lines) ∧ (drainEvents log batch).1.cap = log.cap := by
  induction batch generalizing log lines with
  | nil => exact ⟨held, rfl⟩
  | cons received batch ih =>
      obtain ⟨first, cap⟩ := drain_event_last log lines received held
      obtain ⟨rest, capped⟩ := ih (drainEvent log received).1 (record lines received) (by rw [cap]; exact first)
      rw [cap] at rest
      exact ⟨rest, capped.trans cap⟩

def closes (id : Nat) (received : List Received) : Bool :=
  received.any fun
    | .event (.closed other) => other == id
    | _ => false

-- What the log is for: a line for every item but a close, and on a connection's line whether a close came after it.
def shown : List Received → List LogLine
  | [] => []
  | received :: rest =>
      match appended received with
      | none => shown rest
      | some line => (if line.connId.any fun id => closes id rest then line.close else line) :: shown rest

def connectIds (received : List Received) : List Nat := received.filterMap fun item => (appended item).bind LogLine.connId

theorem appended_open (received : Received) (line : LogLine) (id : Nat) (made : appended received = some line)
    (owned : line.connId = some id) : line.severity = .info := by
  cases received with
  | lagged n =>
      cases made
      cases owned
  | event ev =>
      cases ev with
      | closed id => cases made
      | connect id src target kind =>
          cases made
          rfl
      | auth | error | log =>
          cases made
          cases owned

theorem shown_conn_ids (received : List Received) : (shown received).filterMap LogLine.connId = connectIds received := by
  induction received with
  | nil => rfl
  | cons item rest ih =>
      rw [shown, connectIds, List.filterMap_cons]
      cases made : appended item with
      | none => simpa [made, connectIds] using ih
      | some line =>
          have same : (if line.connId.any fun id => closes id rest then line.close else line).connId = line.connId := by
            split <;> rfl
          simp only [List.filterMap_cons, same, Option.bind_some, ih]
          rfl

theorem closes_one (id other : Nat) : closes id [.event (.closed other)] = (other == id) := by simp [closes]

theorem closes_append (id : Nat) (received : List Received) (item : Received) :
    closes id (received ++ [item]) = (closes id received || closes id [item]) := List.any_append

theorem shown_append (received : List Received) (item : Received) (line : LogLine) (made : appended item = some line) :
    shown (received ++ [item]) = shown received ++ [line] := by
  have silent (id : Nat) : closes id [item] = false := by
    cases item with
    | lagged n => rfl
    | event ev =>
        cases ev with
        | closed other => cases made
        | _ => rfl
  induction received with
  | nil =>
      rw [List.nil_append]
      simp [shown, made, closes]
  | cons first rest ih =>
      rw [List.cons_append, shown, shown]
      cases firstLine : appended first with
      | none => exact ih
      | some appendedLine =>
          dsimp only
          rw [ih]
          simp only [closes_append, silent, Bool.or_false, List.cons_append]

theorem close_last_shown (received : List Received) (id : Nat) (once : (connectIds received).Nodup) :
    closeLast id (shown received) = (shown received).map fun line => if line.opens id then line.close else line := by
  rw [← shown_conn_ids, List.Nodup, List.pairwise_filterMap] at once
  have only : (shown received).reverse.Pairwise fun a b => ¬ (a.opens id = true ∧ b.opens id = true) := by
    rw [List.pairwise_reverse]
    refine once.imp ?_
    intro a b apart both
    have first : a.connId = some id := by simpa using (Bool.and_eq_true_iff.mp both.2).1
    have second : b.connId = some id := by simpa using (Bool.and_eq_true_iff.mp both.1).1
    exact apart id first id second rfl
  rw [closeLast, modify_first_only _ _ _ only, List.map_reverse, List.reverse_reverse]

theorem shown_closed (received : List Received) (id : Nat) :
    shown (received ++ [.event (.closed id)]) = (shown received).map fun line => if line.opens id then line.close else line := by
  induction received with
  | nil => rfl
  | cons first rest ih =>
      rw [List.cons_append, shown, shown]
      cases made : appended first with
      | none => exact ih
      | some line =>
          dsimp only
          rw [ih, List.map_cons]
          congr 1
          cases owned : line.connId with
          | none => simp [LogLine.opens, owned]
          | some own =>
              have info := appended_open first line own made owned
              by_cases already : closes own rest = true
              · simp [closes_append, already, LogLine.opens, LogLine.close]
              · by_cases same : own = id
                · subst same
                  simp [closes_append, closes_one, already, LogLine.opens, owned, info]
                · simp [closes_append, closes_one, already, LogLine.opens, owned, same, Ne.symm same]

theorem journal_shown (received : List Received) (once : (connectIds received).Nodup) : journal received = shown received := by
  induction received using List.reverseRecOn with
  | nil => rfl
  | append_singleton received item ih =>
      have earlier : (connectIds received).Nodup := by
        rw [connectIds, List.filterMap_append] at once
        exact (List.nodup_append.mp once).1
      rw [journal, List.foldl_append, List.foldl_cons, List.foldl_nil]
      change record (journal received) item = _
      rw [ih earlier]
      cases item with
      | lagged n => exact (shown_append received _ _ rfl).symm
      | event ev =>
          cases ev with
          | closed id => exact (close_last_shown received id earlier).trans (shown_closed received id).symm
          | connect | auth | error | log => exact (shown_append received _ _ rfl).symm

end Tui

end NextSocks5
