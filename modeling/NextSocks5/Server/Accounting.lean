import NextSocks5.Server.Connection
import NextSocks5.Server.Conversation
import NextSocks5.Server.Datagrams

set_option autoImplicit false

namespace NextSocks5

namespace Connection

def failureCodes (notes : List Note) : List UInt8 :=
  notes.filterMap fun note =>
    match note with
    | .replied code => if code = repSucceeded then none else some code
    | _ => none

def recordedCodes (notes : List Note) : List UInt8 :=
  notes.filterMap fun note =>
    match note with
    | .recorded code => some code
    | _ => none

def eventCodes (notes : List Note) : List UInt8 :=
  notes.filterMap fun note =>
    match note with
    | .event code => some code
    | _ => none

-- Each failure reply has its record_error and its error event, and no other is made.
def Accounted (notes : List Note) : Prop :=
  (recordedCodes notes).Perm (failureCodes notes) ∧
  ∀ code ∈ failureCodes notes, (eventCodes notes).count code = (failureCodes notes).count code

def Balanced (notes : List Note) : Prop := recordedCodes notes = failureCodes notes ∧ eventCodes notes = failureCodes notes

def Unreported (notes : List Note) : Prop := failureCodes notes = [] ∧ recordedCodes notes = []

@[simp] theorem failure_codes_append (first second : List Note) :
    failureCodes (first ++ second) = failureCodes first ++ failureCodes second := List.filterMap_append

@[simp] theorem recorded_codes_append (first second : List Note) :
    recordedCodes (first ++ second) = recordedCodes first ++ recordedCodes second := List.filterMap_append

@[simp] theorem event_codes_append (first second : List Note) :
    eventCodes (first ++ second) = eventCodes first ++ eventCodes second := List.filterMap_append

theorem balanced_append (first second : List Note) (left : Balanced first) (right : Balanced second) : Balanced (first ++ second) := by
  refine ⟨?_, ?_⟩
  · rw [recorded_codes_append, failure_codes_append, left.1, right.1]
  · rw [event_codes_append, failure_codes_append, left.2, right.2]

theorem balanced_accounted (notes : List Note) (balanced : Balanced notes) : Accounted notes :=
  ⟨balanced.1 ▸ List.Perm.refl _, fun code _ => by rw [balanced.2]⟩

theorem unreported_append (first second : List Note) (left : Unreported first) (right : Unreported second) :
    Unreported (first ++ second) := by
  refine ⟨?_, ?_⟩
  · rw [failure_codes_append, left.1, right.1]
    rfl
  · rw [recorded_codes_append, left.2, right.2]
    rfl

theorem unreported_accounted (notes : List Note) (unreported : Unreported notes) : Accounted notes := by
  rw [Accounted, unreported.1, unreported.2]
  exact ⟨.refl [], by simp⟩

theorem silent_notes (effects : List Effect) (silent : Silent effects) : effects.flatMap effectNotes = [] := by
  apply List.flatMap_eq_nil_iff.mpr
  intro effect member
  have quiet := silent effect member
  cases effect with
  | reply code bind outcome => cases quiet
  | recordError code => cases quiet
  | wrote data outcome => rfl
  | emit event =>
      cases event with
      | error code msg => cases quiet
      | _ => rfl

theorem failure_code (err : Socks5Error) : err.replyCode ≠ repSucceeded := by
  cases err <;> decide

theorem refuse_balanced (s : Connect.State) (err : Socks5Error) (msg : String) (written : Bool) :
    Balanced ((Connect.refuse s err msg written).2.flatMap connectNotes) := by
  simp [Connect.refuse, connectNotes, Balanced, failureCodes, recordedCodes, eventCodes, failure_code err]

theorem connect_step_balanced (c : Connect.Call) (s after : Connect.State) (event : Nat × Connect.Wake) (made : List Connect.Output)
    (stepped : (Connect.machine c).step s event = some (after, made)) : Balanced (made.flatMap connectNotes) := by
  have silent : ∀ notes : List Note, notes = [] → Balanced notes := fun notes nothing => nothing ▸ ⟨rfl, rfl⟩
  obtain ⟨now, wake⟩ := event
  cases Connect.step_moves c s after now wake made stepped with
  | establishing e next wake dials phase moved => exact silent _ (by simp [connectNotes])
  | refused err msg rest k phase whole => exact refuse_balanced { s with now } err msg true
  | refusalFailed err msg rest phase => exact refuse_balanced { s with now } err msg false
  | relaying id relay later dir act outputs phase turned => exact silent _ (by simp [connectNotes])
  | _ => exact ⟨rfl, rfl⟩

theorem connect_run_balanced (c : Connect.Call) (metrics : Metrics) (events : List (Nat × Connect.Wake)) (outputs : List Connect.Output)
    (s : Connect.State) (run : (Connect.machine c).Run (Connect.start c metrics) events outputs s) :
    Balanced (outputs.flatMap connectNotes) := by
  refine (Connect.machine c).run_invariant (Connect.start c metrics) (fun _ outputs _ => Balanced (outputs.flatMap connectNotes))
    ⟨rfl, rfl⟩ ?_ events outputs s run
  intro _ outputs s event after made held stepped
  rw [List.flatMap_append]
  exact balanced_append _ _ held (connect_step_balanced c s after event made stepped)

theorem association_unreported (outputs : List Udp.Output) : Unreported (outputs.flatMap associationNotes) := by
  induction outputs with
  | nil => exact ⟨rfl, rfl⟩
  | cons output outputs ih =>
      rw [List.flatMap_cons]
      refine unreported_append _ _ ?_ ih
      cases output with
      | emit event => cases event <;> exact ⟨rfl, rfl⟩
      | _ => exact ⟨rfl, rfl⟩

def Unbound (c : Conn) : Prop :=
  ∃ addr error, c.host.localAddr = some addr ∧
    Udp.bindWithRetry (c.host.bind addr.ip.toCanonical) c.cfg.udp.portRange c.host.cursor = .error error

theorem associate_unbound (c : Conn) (unbound : Unbound c) :
    Udp.associate c.cfg c.peer c.host c.metrics = (.closed, Udp.bindFailed c.host.outcome) := by
  obtain ⟨addr, error, known, failed⟩ := unbound
  simp only [Udp.associate, known, failed]

theorem associate_notes (c : Conn) (bound : ¬ Unbound c) :
    Balanced ((Udp.associate c.cfg c.peer c.host c.metrics).2.flatMap effectNotes) ∧
    ∀ a metrics, (Udp.associate c.cfg c.peer c.host c.metrics).1 = .relaying a metrics →
      Unreported ((Udp.associate c.cfg c.peer c.host c.metrics).2.flatMap effectNotes) := by
  rw [Udp.associate]
  cases known : c.host.localAddr with
  | none => exact ⟨⟨rfl, rfl⟩, fun _ _ _ => ⟨rfl, rfl⟩⟩
  | some addr =>
      dsimp only
      cases found : Udp.bindWithRetry (c.host.bind addr.ip.toCanonical) c.cfg.udp.portRange c.host.cursor with
      | error error => exact absurd ⟨addr, error, known, found⟩ bound
      | ok sock =>
          cases sock with
          | none => exact ⟨⟨rfl, rfl⟩, fun _ _ _ => ⟨rfl, rfl⟩⟩
          | some boundAddr =>
              dsimp only
              cases Udp.resolveAdvertiseIp c.cfg boundAddr.ip c.host.resolver c.host.tookMs with
              | error error => exact ⟨⟨rfl, rfl⟩, by simp⟩
              | ok advertised =>
                  dsimp only [Udp.announce]
                  split <;> exact ⟨⟨rfl, rfl⟩, fun _ _ _ => ⟨rfl, rfl⟩⟩

-- A run that answers the client with a failure it does not record: a request
-- it cannot parse, BIND, or a relay socket that cannot be bound.
def Uncounted (c : Conn) : Prop :=
  match conversation c.cfg c.stream.unread c.stream.writes with
  | .malformed _ _ => True
  | .accepted request =>
      match request.command with
      | .bind => True
      | .udpAssociate => Unbound c
      | .connect => False
  | .closed => False

theorem negotiated_conversation (c : Conn) (request : Request) (tail : Bytes)
    (negotiated : (negotiate c.cfg c.stream).result = .request request tail) :
    conversation c.cfg c.stream.unread c.stream.writes = .accepted request ∧
      (negotiate c.cfg c.stream).effects.flatMap effectNotes = [] := by
  have follows := negotiate_follows c.cfg c.stream
  cases conversed : conversation c.cfg c.stream.unread c.stream.writes with
  | accepted found =>
      rw [conversed] at follows
      obtain ⟨⟨rest, result⟩, silent⟩ := follows
      rw [negotiated] at result
      cases result
      exact ⟨rfl, silent_notes _ silent⟩
  | malformed err outcome =>
      rw [conversed] at follows
      exact absurd negotiated (follows.1 request tail)
  | closed =>
      rw [conversed] at follows
      exact absurd negotiated (follows.1 request tail)

theorem unrecorded (notes : List Note) (told : failureCodes notes ≠ []) (nothing : recordedCodes notes = []) : ¬ Accounted notes := by
  intro accounted
  have same := accounted.1
  rw [nothing] at same
  exact told same.symm.eq_nil

theorem malformed_unrecorded (err : Socks5Error) (outcome : WriteOutcome) (log : List Effect) (silent : Silent log) :
    ¬ Accounted ((log ++ .reply err.replyCode failureBind outcome :: malformedEvent err outcome).flatMap effectNotes) := by
  rw [List.flatMap_append, silent_notes log silent, List.nil_append]
  apply unrecorded
  · simp [effectNotes, failureCodes, failure_code err]
  · cases outcome <;> rfl

theorem handles_accounted (c : Conn) (notes : List Note) (handled : Handles c notes) : Accounted notes ↔ ¬ Uncounted c := by
  cases handled with
  | closed unanswered =>
      have follows := negotiate_follows c.cfg c.stream
      rw [Uncounted]
      cases conversed : conversation c.cfg c.stream.unread c.stream.writes with
      | accepted request =>
          rw [conversed] at follows
          obtain ⟨⟨tail, result⟩, _⟩ := follows
          exact absurd result (unanswered request tail)
      | malformed err outcome =>
          rw [conversed] at follows
          obtain ⟨_, log, silent, effects⟩ := follows
          rw [effects]
          exact iff_of_false (malformed_unrecorded err outcome log silent) (by simp)
      | closed =>
          rw [conversed] at follows
          rw [silent_notes _ follows.2]
          exact iff_of_true (balanced_accounted [] ⟨rfl, rfl⟩) id
  | connect address tail negotiated events outputs s run finished =>
      obtain ⟨conversed, silent⟩ := negotiated_conversation c _ tail negotiated
      rw [silent, List.nil_append, Uncounted, conversed]
      exact iff_of_true (balanced_accounted _ (connect_run_balanced _ c.metrics events outputs s run)) id
  | bind address tail negotiated =>
      obtain ⟨conversed, silent⟩ := negotiated_conversation c _ tail negotiated
      rw [silent, List.nil_append, Uncounted, conversed]
      exact iff_of_false (unrecorded _ (List.cons_ne_nil _ _) rfl) (by simp)
  | unassociated address tail effects negotiated setup =>
      obtain ⟨conversed, silent⟩ := negotiated_conversation c _ tail negotiated
      rw [silent, List.nil_append, Uncounted, conversed]
      by_cases bound : Unbound c
      · rw [associate_unbound c bound] at setup
        cases setup
        exact iff_of_false (unrecorded _ (List.cons_ne_nil _ _) rfl) (not_not.mpr bound)
      · have balanced := (associate_notes c bound).1
        rw [setup] at balanced
        exact iff_of_true (balanced_accounted _ balanced) bound
  | associated address tail effects a metrics negotiated setup events outputs s run ended =>
      obtain ⟨conversed, silent⟩ := negotiated_conversation c _ tail negotiated
      rw [silent, List.nil_append, Uncounted, conversed]
      have bound : ¬ Unbound c := by
        intro unbound
        rw [associate_unbound c unbound] at setup
        cases setup
      have unreported := (associate_notes c bound).2 a metrics (by rw [setup])
      rw [setup] at unreported
      exact iff_of_true (unreported_accounted _ (unreported_append _ _ unreported (association_unreported outputs))) bound

def CountersAgree (runs : List (Conn × List Note)) : Prop :=
  ∀ codes : List UInt8, codes.Perm (runs.flatMap fun run => recordedCodes run.2) →
    (codes.foldl Metrics.recordError .new).failures = (runs.flatMap fun run => failureCodes run.2).length ∧
    ∀ (code : UInt8) (bucket : code.toNat < 9),
      (codes.foldl Metrics.recordError .new).errorCodes[code.toNat] = (runs.flatMap fun run => failureCodes run.2).count code

theorem accounted_agree (runs : List (Conn × List Note)) (accounted : ∀ run ∈ runs, Accounted run.2) : CountersAgree runs := by
  intro codes order
  have same : codes.Perm (runs.flatMap fun run => failureCodes run.2) :=
    order.trans (List.Perm.flatMap_left runs fun run member => (accounted run member).1)
  obtain ⟨failures, buckets⟩ := Metrics.record_errors .new codes
  refine ⟨?_, ?_⟩
  · rw [failures, same.length_eq]
    exact Nat.zero_add _
  · intro code bucket
    rw [buckets code bucket, same.count_eq]
    simp [Metrics.new]

-- Any set of runs: each accounts for its failure reply, and the counters agree
-- with the replies, exactly when none of them is of the uncounted kind.
theorem failures_accounted_iff (runs : List (Conn × List Note)) (handled : ∀ run ∈ runs, Handles run.1 run.2) :
    ((∀ run ∈ runs, Accounted run.2) ∧ CountersAgree runs) ↔ ∀ run ∈ runs, ¬ Uncounted run.1 := by
  constructor
  · rintro ⟨accounted, _⟩ run member
    exact (handles_accounted run.1 run.2 (handled run member)).mp (accounted run member)
  · intro counted
    have accounted : ∀ run ∈ runs, Accounted run.2 :=
      fun run member => (handles_accounted run.1 run.2 (handled run member)).mpr (counted run member)
    exact ⟨accounted, accounted_agree runs accounted⟩

def client (bytes : Bytes) (nonempty : bytes ≠ []) (bounded : bytes.length ≤ readBuf) : Conn :=
  ⟨.default, .v4 (.new 192 0 2 7) 40000, ⟨[⟨bytes, nonempty, bounded⟩], .eof, []⟩, .new,
    ⟨fun _ => .ok [], fun _ => .ok []⟩, fun _ => 0, 0, [],
    ⟨none, 0, fun _ _ => .ok none, ⟨fun _ => .ok [], fun _ => .ok []⟩, 0, .done⟩⟩

def loopbackClient : Conn := client [5, 1, 0, 5, 1, 0, 1, 127, 0, 0, 1, 0, 80] (by decide) (by decide)

theorem loopback_handled : Handles loopbackClient [.replied 2, .recorded 2, .event 2] :=
  Handles.connect (c := loopbackClient) (.v4 (.new 127 0 0 1) 80) [] (by decide) [(0, .establish .call), (0, .accept 10)] _ _
    (Machine.exec_run _ _ _ _ _ rfl) rfl

theorem failures_accounted_iff_loopback : CountersAgree [(loopbackClient, [.replied 2, .recorded 2, .event 2])] := by
  refine ((failures_accounted_iff [(loopbackClient, [.replied 2, .recorded 2, .event 2])] ?_).mpr ?_).2
  · simpa using loopback_handled
  · have conversed : conversation loopbackClient.cfg loopbackClient.stream.unread loopbackClient.stream.writes =
        .accepted ⟨.connect, .v4 (.new 127 0 0 1) 80⟩ := by decide
    simp [Uncounted, conversed]

-- An unknown command is answered with code 7 that nobody records.
def unknownCommandClient : Conn := client [5, 1, 0, 5, 9, 0, 1] (by decide) (by decide)

theorem unknown_command_unrecorded : ¬ ∀ c notes, Handles c notes → Accounted notes := by
  intro always
  have result : (negotiate unknownCommandClient.cfg unknownCommandClient.stream).result = .refused := by decide
  have noted : (negotiate unknownCommandClient.cfg unknownCommandClient.stream).effects.flatMap effectNotes =
      [.replied 7, .event 7] := by decide
  have handled := Handles.closed (c := unknownCommandClient) (by simp [result])
  rw [noted] at handled
  exact unrecorded [.replied 7, .event 7] (by decide) rfl (always _ _ handled)

end Connection

end NextSocks5
