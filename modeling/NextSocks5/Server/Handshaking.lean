import NextSocks5.Library.Machine
import NextSocks5.Server.Messages

set_option autoImplicit false

namespace NextSocks5

namespace Handshaking

-- Where negotiate waits: a read with what is buffered, a write_all with what is left for the next step.
inductive Stage where
  | greeting (buf : Bytes)
  | selecting (chosen : UInt8) (rest : Bytes)
  | userpass (buf : Bytes)
  | answering (ok : Bool) (rest : Bytes)
  | rejecting
  | request (buf : Bytes)
  | refusing (err : Socks5Error)
  | returned (result : Negotiated)
deriving DecidableEq

-- Where the read or the write ends by the handshake deadline it is stalled.
inductive Wake where
  | read (chunk : Chunk)
  | readEnd (ending : ReadEnd)
  | write (outcome : WriteOutcome)

abbrev Turn := Stage × List Effect

def settle {α ε : Type} (verdict : Bytes → Verdict α ε) (buf : Bytes) (accepted : α → Bytes → Turn) (refused : ε → Stage)
    (waiting : Bytes → Stage) : Turn :=
  match verdict buf with
  | .accept value used => accepted value (buf.drop used)
  | .reject reason => (refused reason, [])
  | .more => if readBuf < buf.length then (.returned .refused, []) else (waiting buf, [])

def greet (cfg : Config) (buf : Bytes) : Turn :=
  settle greetingVerdict buf (fun offered rest => (.selecting (selectMethod offered (cfg.auth.method == .password)) rest, []))
    (fun _ => .returned .refused) .greeting

def authenticate (cfg : Config) (buf : Bytes) : Turn :=
  settle userpassVerdict buf
    (fun pair rest =>
      let ok := verifyCredentials cfg.auth.users pair.1 pair.2
      (.answering ok rest, [.emit (.auth ok pair.1)]))
    (fun _ => .rejecting) .userpass

def requestRefused (reason : RequestError) : Stage :=
  match requestFailure reason with
  | some err => .refusing err
  | none => .returned .refused

def ask (buf : Bytes) : Turn :=
  settle requestVerdict buf (fun request rest => (.returned (.request request rest), [])) requestRefused .request

def ended : ReadEnd → Negotiated
  | .eof | .error => .refused
  | .stalled => .expired

def afterWrite (data : Bytes) (outcome : WriteOutcome) (next : Turn) : Turn :=
  match outcome with
  | .done => (next.1, .wrote data outcome :: next.2)
  | .failed _ => (.returned .refused, [.wrote data outcome])
  | .stalled _ => (.returned .expired, [.wrote data outcome])

def selected (cfg : Config) (chosen : UInt8) (rest : Bytes) : Turn :=
  if chosen = methodNoneAcceptable then (.returned .refused, [])
  else if chosen = methodUserpass then authenticate cfg rest
  else ask rest

def afterReply (err : Socks5Error) (outcome : WriteOutcome) : Turn :=
  let replied := Effect.reply err.replyCode failureBind outcome
  match outcome with
  | .stalled _ => (.returned .expired, [replied])
  | .done | .failed _ => (.returned .refused, [replied, .emit (.error err.replyCode "malformed request")])

def onRead (cfg : Config) (chunk : Chunk) : Stage → Option Turn
  | .greeting buf => some (greet cfg (buf ++ chunk.bytes))
  | .userpass buf => some (authenticate cfg (buf ++ chunk.bytes))
  | .request buf => some (ask (buf ++ chunk.bytes))
  | _ => none

def onReadEnd (ending : ReadEnd) : Stage → Option Turn
  | .greeting _ | .userpass _ | .request _ => some (.returned (ended ending), [])
  | _ => none

def onWrite (cfg : Config) (outcome : WriteOutcome) : Stage → Option Turn
  | .selecting chosen rest => some (afterWrite (methodReply chosen) outcome (selected cfg chosen rest))
  | .answering ok rest => some (afterWrite (userpassReply ok) outcome (if ok then ask rest else (.returned .refused, [])))
  | .rejecting => some (afterWrite (userpassReply false) outcome (.returned .refused, []))
  | .refusing err => some (afterReply err outcome)
  | _ => none

def machine (cfg : Config) : Machine Stage Wake Effect where
  step stage wake :=
    match wake with
    | .read chunk => onRead cfg chunk stage
    | .readEnd ending => onReadEnd ending stage
    | .write outcome => onWrite cfg outcome stage

def start : Stage := .greeting []

def feed (wake : Wake) (later : TcpStream) : TcpStream :=
  match wake with
  | .read chunk => { later with reads := chunk :: later.reads }
  | .readEnd ending => ⟨[], ending, later.writes⟩
  | .write outcome => { later with writes := outcome :: later.writes }

-- What negotiate does from where it waits, on a stream known in advance.
def resume (cfg : Config) (s : TcpStream) (effects : List Effect) : Stage → Negotiation
  | .greeting buf =>
      match readMessage greetingVerdict buf s with
      | .ready offered rest reads => chosen { s with reads } (selectMethod offered (cfg.auth.method == .password)) rest
      | .refused _ reads | .overflow reads => ⟨.refused, { s with reads }, effects⟩
      | .starved => starved s effects
  | .selecting method rest => chosen s method rest
  | .userpass buf => negotiateUserpass cfg s buf effects
  | .answering ok rest =>
      writeThen s (userpassReply ok) effects fun s log => if ok then negotiateRequest s rest log else ⟨.refused, s, log⟩
  | .rejecting => writeThen s (userpassReply false) effects fun s log => ⟨.refused, s, log⟩
  | .request buf => negotiateRequest s buf effects
  | .refusing err => replyRequestError s err effects
  | .returned result => ⟨result, s, effects⟩
where
  chosen (s : TcpStream) (method : UInt8) (rest : Bytes) : Negotiation :=
    writeThen s (methodReply method) effects fun s log =>
      if method = methodNoneAcceptable then ⟨.refused, s, log⟩
      else if method = methodUserpass then negotiateUserpass cfg s rest log
      else negotiateRequest s rest log

theorem resume_start (cfg : Config) (s : TcpStream) : resume cfg s [] start = negotiate cfg s := rfl

section

variable (cfg : Config) (buf : Bytes) (s : TcpStream) (effects : List Effect)

theorem resume_greet : resume cfg s (effects ++ (greet cfg buf).2) (greet cfg buf).1 = resume cfg s effects (.greeting buf) := by
  rw [greet, settle]
  cases parsed : greetingVerdict buf with
  | accept offered used =>
      simp only [List.append_nil, resume, readMessage, Incremental.fill_accept _ _ _ _ _ _ _ parsed]
  | reject reason =>
      simp only [List.append_nil, resume, readMessage, Incremental.fill_reject _ _ _ _ _ _ parsed]
  | more =>
      by_cases full : readBuf < buf.length
      · simp only [if_pos full, List.append_nil, resume, readMessage]
        cases reads : s.reads <;> simp [Incremental.fill, parsed, full, ← reads]
      · simp only [if_neg full, List.append_nil]

theorem resume_authenticate :
    resume cfg s (effects ++ (authenticate cfg buf).2) (authenticate cfg buf).1 = resume cfg s effects (.userpass buf) := by
  rw [authenticate, settle]
  cases parsed : userpassVerdict buf with
  | accept pair used =>
      simp only [resume, negotiateUserpass, readMessage, Incremental.fill_accept _ _ _ _ _ _ _ parsed]
  | reject reason =>
      simp only [List.append_nil, resume, negotiateUserpass, readMessage, Incremental.fill_reject _ _ _ _ _ _ parsed]
  | more =>
      by_cases full : readBuf < buf.length
      · simp only [if_pos full, List.append_nil, resume, negotiateUserpass, readMessage]
        cases reads : s.reads <;> simp [Incremental.fill, parsed, full, ← reads]
      · simp only [if_neg full, List.append_nil]

theorem resume_ask : resume cfg s (effects ++ (ask buf).2) (ask buf).1 = resume cfg s effects (.request buf) := by
  rw [ask, settle]
  cases parsed : requestVerdict buf with
  | accept request used =>
      simp only [List.append_nil, resume, negotiateRequest, readMessage, Incremental.fill_accept _ _ _ _ _ _ _ parsed]
  | reject reason =>
      simp only [List.append_nil, requestRefused, resume, negotiateRequest, readMessage, Incremental.fill_reject _ _ _ _ _ _ parsed]
      cases requestFailure reason <;> rfl
  | more =>
      by_cases full : readBuf < buf.length
      · simp only [if_pos full, List.append_nil, resume, negotiateRequest, readMessage]
        cases reads : s.reads <;> simp [Incremental.fill, parsed, full, ← reads]
      · simp only [if_neg full, List.append_nil]

end

-- A read is awaited only where the message is not complete.
def Stage.Waiting : Stage → Prop
  | .greeting buf => greetingVerdict buf = .more
  | .userpass buf => userpassVerdict buf = .more
  | .request buf => requestVerdict buf = .more
  | _ => True

def Stage.held : Stage → Nat
  | .greeting buf | .userpass buf | .request buf => buf.length
  | .selecting _ rest | .answering _ rest | .returned (.request _ rest) => rest.length
  | _ => 0

def Stage.reading : Stage → Bool
  | .greeting _ | .userpass _ | .request _ => true
  | _ => false

-- The most reads and writes that are still to come.
def patience : Stage → Nat
  | .greeting buf => 778 + (257 - buf.length)
  | .selecting _ _ => 778
  | .userpass buf => 264 + (513 - buf.length)
  | .answering _ _ => 264
  | .request buf => 1 + (262 - buf.length)
  | .rejecting | .refusing _ => 1
  | .returned _ => 0

structure Fits (turn : Turn) (size left : Nat) : Prop where
  waiting : turn.1.Waiting
  held : turn.1.held ≤ size
  left : patience turn.1 ≤ left

theorem fits_mono (turn : Turn) (size left wider longer : Nat) (fits : Fits turn size left) (wide : size ≤ wider) (long : left ≤ longer) :
    Fits turn wider longer := ⟨fits.waiting, fits.held.trans wide, fits.left.trans long⟩

theorem fits_returned (result : Negotiated) (effects : List Effect) (size left : Nat) (closed : ∀ request tail, result ≠ .request request tail) :
    Fits (.returned result, effects) size left := by
  refine ⟨trivial, ?_, Nat.zero_le _⟩
  cases result with
  | request request tail => exact absurd rfl (closed request tail)
  | _ => exact Nat.zero_le _

-- The guard on the buffer never refuses: an incomplete message is shorter.
theorem settle_cases {α ε : Type} (decoder : Decoder UInt8 α ε) (roomy : decoder.limit ≤ readBuf) (buf : Bytes)
    (accepted : α → Bytes → Turn) (refused : ε → Stage) (waiting : Bytes → Stage) :
    (∃ value used, settle decoder.verdict buf accepted refused waiting = accepted value (buf.drop used)) ∨
    (∃ reason, settle decoder.verdict buf accepted refused waiting = (refused reason, [])) ∨
    (decoder.verdict buf = .more ∧ buf.length ≤ decoder.limit ∧ settle decoder.verdict buf accepted refused waiting = (waiting buf, [])) := by
  rw [settle]
  cases parsed : decoder.verdict buf with
  | accept value used => exact .inl ⟨value, used, rfl⟩
  | reject reason => exact .inr (.inl ⟨reason, rfl⟩)
  | more =>
      have small := decoder.bounded buf parsed
      exact .inr (.inr ⟨rfl, small, if_neg (Nat.not_lt.mpr (small.trans roomy))⟩)

theorem ask_fits (buf : Bytes) : Fits (ask buf) buf.length (1 + (262 - buf.length)) := by
  have outcomes := settle_cases requestDecoder (by decide) buf (fun request rest => (.returned (.request request rest), []))
    requestRefused .request
  rcases outcomes with ⟨request, used, turn⟩ | ⟨reason, turn⟩ | ⟨parsed, small, turn⟩
  · rw [ask, show settle requestVerdict buf _ _ _ = _ from turn]
    exact ⟨trivial, by simp [Stage.held], Nat.zero_le _⟩
  · rw [ask, show settle requestVerdict buf _ _ _ = _ from turn, requestRefused]
    cases requestFailure reason with
    | some err => exact ⟨trivial, Nat.zero_le _, Nat.le_add_right _ _⟩
    | none => exact ⟨trivial, Nat.zero_le _, Nat.zero_le _⟩
  · rw [ask, show settle requestVerdict buf _ _ _ = _ from turn]
    exact ⟨parsed, Nat.le_refl _, Nat.le_refl _⟩

theorem authenticate_fits (cfg : Config) (buf : Bytes) : Fits (authenticate cfg buf) buf.length (264 + (513 - buf.length)) := by
  have outcomes := settle_cases userpassDecoder (by decide) buf
    (fun pair rest => (.answering (verifyCredentials cfg.auth.users pair.1 pair.2) rest,
      [.emit (.auth (verifyCredentials cfg.auth.users pair.1 pair.2) pair.1)]))
    (fun _ => .rejecting) .userpass
  rcases outcomes with ⟨pair, used, turn⟩ | ⟨reason, turn⟩ | ⟨parsed, small, turn⟩
  · rw [authenticate, show settle userpassVerdict buf _ _ _ = _ from turn]
    exact ⟨trivial, by simp [Stage.held], Nat.le_add_right _ _⟩
  · rw [authenticate, show settle userpassVerdict buf _ _ _ = _ from turn]
    exact ⟨trivial, Nat.zero_le _, by simp only [patience]; omega⟩
  · rw [authenticate, show settle userpassVerdict buf _ _ _ = _ from turn]
    exact ⟨parsed, Nat.le_refl _, Nat.le_refl _⟩

theorem greet_fits (cfg : Config) (buf : Bytes) : Fits (greet cfg buf) buf.length (778 + (257 - buf.length)) := by
  have outcomes := settle_cases greetingDecoder (by decide) buf
    (fun offered rest => (.selecting (selectMethod offered (cfg.auth.method == .password)) rest, []))
    (fun _ => .returned .refused) .greeting
  rcases outcomes with ⟨offered, used, turn⟩ | ⟨reason, turn⟩ | ⟨parsed, small, turn⟩
  · rw [greet, show settle greetingVerdict buf _ _ _ = _ from turn]
    exact ⟨trivial, by simp [Stage.held], Nat.le_add_right _ _⟩
  · rw [greet, show settle greetingVerdict buf _ _ _ = _ from turn]
    exact ⟨trivial, Nat.zero_le _, Nat.zero_le _⟩
  · rw [greet, show settle greetingVerdict buf _ _ _ = _ from turn]
    exact ⟨parsed, Nat.le_refl _, Nat.le_refl _⟩

theorem after_write_fits (data : Bytes) (outcome : WriteOutcome) (next : Turn) (size left : Nat) (fits : Fits next size left) :
    Fits (afterWrite data outcome next) size left := by
  cases outcome with
  | done => exact ⟨fits.waiting, fits.held, fits.left⟩
  | failed accepted => exact fits_returned _ _ _ _ (by simp)
  | stalled accepted => exact fits_returned _ _ _ _ (by simp)

theorem selected_fits (cfg : Config) (chosen : UInt8) (rest : Bytes) : Fits (selected cfg chosen rest) rest.length 777 := by
  rw [selected]
  split
  · exact fits_returned _ _ _ _ (by simp)
  · split
    · exact fits_mono _ _ _ _ _ (authenticate_fits cfg rest) (Nat.le_refl _) (by omega)
    · exact fits_mono _ _ _ _ _ (ask_fits rest) (Nat.le_refl _) (by omega)

theorem read_fits (cfg : Config) (chunk : Chunk) (stage : Stage) (turn : Turn) (waiting : stage.Waiting)
    (stepped : onRead cfg chunk stage = some turn) : ∃ left, left < patience stage ∧ Fits turn (2 * readBuf) left := by
  have present := List.length_pos_iff.mpr chunk.nonempty
  have few := chunk.bounded
  cases stage with
  | greeting buf =>
      cases stepped
      have small : buf.length ≤ 256 := greetingDecoder.bounded buf waiting
      have wide : (buf ++ chunk.bytes).length ≤ 2 * readBuf := by
        rw [List.length_append, readBuf] at *
        omega
      refine ⟨_, ?_, fits_mono _ _ _ _ _ (greet_fits cfg (buf ++ chunk.bytes)) wide (Nat.le_refl _)⟩
      simp only [patience, List.length_append]
      omega
  | userpass buf =>
      cases stepped
      have small : buf.length ≤ 512 := userpassDecoder.bounded buf waiting
      have wide : (buf ++ chunk.bytes).length ≤ 2 * readBuf := by
        rw [List.length_append, readBuf] at *
        omega
      refine ⟨_, ?_, fits_mono _ _ _ _ _ (authenticate_fits cfg (buf ++ chunk.bytes)) wide (Nat.le_refl _)⟩
      simp only [patience, List.length_append]
      omega
  | request buf =>
      cases stepped
      have small : buf.length ≤ 261 := requestDecoder.bounded buf waiting
      have wide : (buf ++ chunk.bytes).length ≤ 2 * readBuf := by
        rw [List.length_append, readBuf] at *
        omega
      refine ⟨_, ?_, fits_mono _ _ _ _ _ (ask_fits (buf ++ chunk.bytes)) wide (Nat.le_refl _)⟩
      simp only [patience, List.length_append]
      omega
  | _ => cases stepped

theorem read_end_fits (ending : ReadEnd) (stage : Stage) (turn : Turn) (stepped : onReadEnd ending stage = some turn) :
    ∃ left, left < patience stage ∧ Fits turn (2 * readBuf) left := by
  have closed : ∀ request tail, ended ending ≠ .request request tail := by cases ending <;> simp [ended]
  cases stage with
  | greeting buf =>
      cases stepped
      exact ⟨0, by simp only [patience]; omega, fits_returned _ _ _ _ closed⟩
  | userpass buf =>
      cases stepped
      exact ⟨0, by simp only [patience]; omega, fits_returned _ _ _ _ closed⟩
  | request buf =>
      cases stepped
      exact ⟨0, by simp only [patience]; omega, fits_returned _ _ _ _ closed⟩
  | _ => cases stepped

theorem write_fits (cfg : Config) (outcome : WriteOutcome) (stage : Stage) (turn : Turn) (roomy : stage.held ≤ 2 * readBuf)
    (stepped : onWrite cfg outcome stage = some turn) : ∃ left, left < patience stage ∧ Fits turn (2 * readBuf) left := by
  cases stage with
  | selecting chosen rest =>
      cases stepped
      have fits := fits_mono _ _ _ (2 * readBuf) 777 (selected_fits cfg chosen rest) roomy (Nat.le_refl _)
      exact ⟨777, by simp only [patience]; omega, after_write_fits _ outcome _ _ _ fits⟩
  | answering ok rest =>
      cases stepped
      have fits : Fits (if ok then ask rest else (.returned .refused, [])) (2 * readBuf) 263 := by
        cases ok with
        | true => exact fits_mono _ _ _ _ _ (ask_fits rest) roomy (by omega)
        | false => exact fits_returned _ _ _ _ (by simp)
      exact ⟨263, by simp only [patience]; omega, after_write_fits _ outcome _ _ _ fits⟩
  | rejecting =>
      cases stepped
      exact ⟨0, Nat.zero_lt_one, after_write_fits _ outcome _ _ _ (fits_returned _ _ _ _ (by simp))⟩
  | refusing err =>
      cases stepped
      refine ⟨0, Nat.zero_lt_one, ?_⟩
      cases outcome <;> exact fits_returned _ _ _ _ (by simp)
  | _ => cases stepped

theorem step_fits (cfg : Config) (stage next : Stage) (wake : Wake) (made : List Effect) (waiting : stage.Waiting)
    (roomy : stage.held ≤ 2 * readBuf) (stepped : (machine cfg).step stage wake = some (next, made)) :
    ∃ left, left < patience stage ∧ Fits (next, made) (2 * readBuf) left := by
  cases wake with
  | read chunk => exact read_fits cfg chunk stage _ waiting stepped
  | readEnd ending => exact read_end_fits ending stage _ stepped
  | write outcome => exact write_fits cfg outcome stage _ roomy stepped

structure Bounded (wakes : List Wake) (stage : Stage) : Prop where
  waiting : stage.Waiting
  held : stage.held ≤ 2 * readBuf
  left : wakes.length + patience stage ≤ patience start

theorem run_bounded (cfg : Config) (wakes : List Wake) (outputs : List Effect) (stage : Stage)
    (run : (machine cfg).Run start wakes outputs stage) : Bounded wakes stage := by
  refine (machine cfg).run_invariant start (fun wakes _ stage => Bounded wakes stage) ?_ ?_ wakes outputs stage run
  · exact ⟨rfl, Nat.zero_le _, Nat.le_refl _⟩
  · intro wakes outputs stage wake next made inv stepped
    obtain ⟨left, fewer, fits⟩ := step_fits cfg stage next wake made inv.waiting inv.held stepped
    have before := inv.left
    have after : patience next ≤ left := fits.left
    refine ⟨fits.waiting, fits.held, ?_⟩
    rw [List.length_append, List.length_singleton]
    omega

theorem waiting_held (stage : Stage) (waiting : stage.Waiting) (reads : stage.reading = true) : stage.held ≤ readBuf := by
  cases stage with
  | greeting buf => exact (greetingDecoder.bounded buf waiting).trans (by decide)
  | userpass buf => exact userpassDecoder.bounded buf waiting
  | request buf => exact (requestDecoder.bounded buf waiting).trans (by decide)
  | _ => cases reads

-- One result with the same effects, and the same bytes left where a request was found.
structure Agrees (first second : Negotiation) : Prop where
  result : first.result = second.result
  effects : first.effects = second.effects
  left : ∀ request tail, second.result = .request request tail → first.stream = second.stream

theorem agrees_refl (negotiation : Negotiation) : Agrees negotiation negotiation := ⟨rfl, rfl, fun _ _ _ => rfl⟩

theorem agrees_trans (first second third : Negotiation) (left : Agrees first second) (right : Agrees second third) :
    Agrees first third where
  result := left.result.trans right.result
  effects := left.effects.trans right.effects
  left := by
    intro request tail found
    exact (left.left request tail (right.result.trans found)).trans (right.left request tail found)

section

variable (cfg : Config) (s : TcpStream) (effects : List Effect)

theorem fill_read {α ε : Type} (decoder : Decoder UInt8 α ε) (roomy : decoder.limit ≤ readBuf) (buf : Bytes) (chunk : Chunk)
    (waiting : decoder.verdict buf = .more) :
    readMessage decoder.verdict buf (feed (.read chunk) s) = readMessage decoder.verdict (buf ++ chunk.bytes) s := by
  have small : ¬ readBuf < buf.length := Nat.not_lt.mpr ((decoder.bounded buf waiting).trans roomy)
  simp only [readMessage, feed, Incremental.fill, waiting, if_neg small]

theorem resume_read (chunk : Chunk) (stage : Stage) (turn : Turn) (waiting : stage.Waiting) (stepped : onRead cfg chunk stage = some turn) :
    resume cfg (feed (.read chunk) s) effects stage = resume cfg s (effects ++ turn.2) turn.1 := by
  cases stage with
  | greeting buf =>
      cases stepped
      have filled : readMessage greetingVerdict buf (feed (.read chunk) s) = readMessage greetingVerdict (buf ++ chunk.bytes) s :=
        fill_read s greetingDecoder (by decide) buf chunk waiting
      rw [resume_greet, resume, resume, filled]
      rfl
  | userpass buf =>
      cases stepped
      have filled : readMessage userpassVerdict buf (feed (.read chunk) s) = readMessage userpassVerdict (buf ++ chunk.bytes) s :=
        fill_read s userpassDecoder (by decide) buf chunk waiting
      rw [resume_authenticate, resume, resume, negotiateUserpass, negotiateUserpass, filled]
      rfl
  | request buf =>
      cases stepped
      have filled : readMessage requestVerdict buf (feed (.read chunk) s) = readMessage requestVerdict (buf ++ chunk.bytes) s :=
        fill_read s requestDecoder (by decide) buf chunk waiting
      rw [resume_ask, resume, resume, negotiateRequest, negotiateRequest, filled]
      rfl
  | _ => cases stepped

theorem starved_agrees (ending : ReadEnd) : Agrees (starved ⟨[], ending, s.writes⟩ effects) ⟨ended ending, s, effects⟩ where
  result := by cases ending <;> rfl
  effects := rfl
  left request tail found := by cases ending <;> cases found

omit cfg in
theorem starved_dry (dry : s.reads = []) : starved s effects = ⟨ended s.readEnd, s, effects⟩ := by
  obtain ⟨reads, ending, writes⟩ := s
  obtain rfl : reads = [] := dry
  cases ending <;> rfl

theorem resume_starved (ending : ReadEnd) (stage : Stage) (waiting : stage.Waiting) (reading : stage.reading = true) :
    resume cfg (feed (.readEnd ending) s) effects stage = starved (feed (.readEnd ending) s) effects := by
  have starves {α ε : Type} (decoder : Decoder UInt8 α ε) (roomy : decoder.limit ≤ readBuf) (buf : Bytes)
      (parsed : decoder.verdict buf = .more) : readMessage decoder.verdict buf (feed (.readEnd ending) s) = .starved := by
    have small : ¬ readBuf < buf.length := Nat.not_lt.mpr ((decoder.bounded buf parsed).trans roomy)
    simp only [readMessage, feed, Incremental.fill, parsed, if_neg small]
  cases stage with
  | greeting buf =>
      have unread : readMessage greetingVerdict buf (feed (.readEnd ending) s) = .starved :=
        starves greetingDecoder (by decide) buf waiting
      rw [resume, unread]
  | userpass buf =>
      have unread : readMessage userpassVerdict buf (feed (.readEnd ending) s) = .starved :=
        starves userpassDecoder (by decide) buf waiting
      rw [resume, negotiateUserpass, unread]
  | request buf =>
      have unread : readMessage requestVerdict buf (feed (.readEnd ending) s) = .starved :=
        starves requestDecoder (by decide) buf waiting
      rw [resume, negotiateRequest, unread]
  | _ => cases reading

theorem resume_read_end (ending : ReadEnd) (stage : Stage) (turn : Turn) (waiting : stage.Waiting)
    (stepped : onReadEnd ending stage = some turn) :
    Agrees (resume cfg (feed (.readEnd ending) s) effects stage) (resume cfg s (effects ++ turn.2) turn.1) := by
  obtain ⟨reading, same⟩ : stage.reading = true ∧ turn = (.returned (ended ending), []) := by
    cases stage <;> cases stepped <;> exact ⟨rfl, rfl⟩
  rw [resume_starved cfg s effects ending stage waiting reading, same, List.append_nil]
  exact starved_agrees s effects ending

theorem resume_selected (chosen : UInt8) (rest : Bytes) : resume cfg s (effects ++ (selected cfg chosen rest).2) (selected cfg chosen rest).1 =
    if chosen = methodNoneAcceptable then ⟨.refused, s, effects⟩
    else if chosen = methodUserpass then negotiateUserpass cfg s rest effects
    else negotiateRequest s rest effects := by
  rw [selected]
  split
  · rw [List.append_nil, resume]
  · split
    · exact resume_authenticate cfg rest s effects
    · exact resume_ask cfg rest s effects

theorem resume_after_write (data : Bytes) (outcome : WriteOutcome) (turn : Turn) (next : TcpStream → List Effect → Negotiation)
    (goes : ∀ log, resume cfg s (log ++ turn.2) turn.1 = next s log) :
    writeThen (feed (.write outcome) s) data effects next =
      resume cfg s (effects ++ (afterWrite data outcome turn).2) (afterWrite data outcome turn).1 := by
  cases outcome with
  | done =>
      have went := goes (effects ++ [.wrote data .done])
      rw [List.append_assoc] at went
      exact went.symm
  | failed accepted => rfl
  | stalled accepted => rfl

theorem resume_write (outcome : WriteOutcome) (stage : Stage) (turn : Turn) (stepped : onWrite cfg outcome stage = some turn) :
    resume cfg (feed (.write outcome) s) effects stage = resume cfg s (effects ++ turn.2) turn.1 := by
  cases stage with
  | selecting chosen rest =>
      cases stepped
      have goes := fun log => resume_selected cfg s log chosen rest
      rw [resume, resume.chosen]
      exact resume_after_write cfg s effects _ outcome (selected cfg chosen rest) (fun s log =>
        if chosen = methodNoneAcceptable then ⟨.refused, s, log⟩
        else if chosen = methodUserpass then negotiateUserpass cfg s rest log
        else negotiateRequest s rest log) goes
  | answering ok rest =>
      cases stepped
      have goes (log : List Effect) : resume cfg s (log ++ (if ok then ask rest else (.returned .refused, [])).2)
          (if ok then ask rest else (.returned .refused, [])).1 = if ok then negotiateRequest s rest log else ⟨.refused, s, log⟩ := by
        cases ok with
        | true => exact resume_ask cfg rest s log
        | false => exact congrArg (resume cfg s · (.returned .refused)) (List.append_nil log)
      rw [resume]
      exact resume_after_write cfg s effects _ outcome (if ok then ask rest else (.returned .refused, []))
        (fun s log => if ok then negotiateRequest s rest log else ⟨.refused, s, log⟩) goes
  | rejecting =>
      cases stepped
      have goes (log : List Effect) : resume cfg s (log ++ []) (.returned .refused) = ⟨.refused, s, log⟩ :=
        congrArg (resume cfg s · (.returned .refused)) (List.append_nil log)
      rw [resume]
      exact resume_after_write cfg s effects _ outcome (.returned .refused, []) (fun s log => ⟨.refused, s, log⟩) goes
  | refusing err =>
      cases stepped
      cases outcome with
      | stalled accepted => rfl
      | done => simp [resume, replyRequestError, afterReply, feed, TcpStream.writeOutcome, TcpStream.afterWrite]
      | failed accepted => simp [resume, replyRequestError, afterReply, feed, TcpStream.writeOutcome, TcpStream.afterWrite]
  | _ => cases stepped

theorem resume_step (stage next : Stage) (wake : Wake) (made : List Effect) (waiting : stage.Waiting)
    (stepped : (machine cfg).step stage wake = some (next, made)) :
    Agrees (resume cfg (feed wake s) effects stage) (resume cfg s (effects ++ made) next) := by
  cases wake with
  | read chunk =>
      rw [resume_read cfg s effects chunk stage _ waiting stepped]
      exact agrees_refl _
  | readEnd ending => exact resume_read_end cfg s effects ending stage _ waiting stepped
  | write outcome =>
      rw [resume_write cfg s effects outcome stage _ stepped]
      exact agrees_refl _

end

theorem run_agrees (cfg : Config) (wakes : List Wake) (outputs : List Effect) (stage : Stage)
    (run : (machine cfg).Run start wakes outputs stage) (later : TcpStream) :
    Agrees (negotiate cfg (wakes.foldr feed later)) (resume cfg later outputs stage) := by
  induction run generalizing later with
  | idle => exact agrees_refl _
  | @next wakes outputs stage before wake made after stepped ih =>
      rw [List.foldr_append]
      have waiting := (run_bounded cfg wakes outputs stage before).waiting
      exact agrees_trans _ _ _ (ih (feed wake later)) (resume_step cfg later outputs stage after wake made waiting stepped)

-- What was fed is the stream, with the writes past its end that succeed written out.
structure Streams (s fed : TcpStream) : Prop where
  reads : fed.reads = s.reads
  readEnd : fed.readEnd = s.readEnd
  writes : ∃ n, fed.writes = s.writes ++ List.replicate n .done

theorem streams_refl (s : TcpStream) : Streams s s := ⟨rfl, rfl, 0, (List.append_nil _).symm⟩

theorem streams_feed (s later fed : TcpStream) (wake : Wake) (first : Streams s (feed wake later)) (rest : Streams later fed) :
    Streams s (feed wake fed) := by
  obtain ⟨reads, readEnd, n, writes⟩ := first
  obtain ⟨read, endedThere, m, wrote⟩ := rest
  have longer (more : List WriteOutcome) (same : more = s.writes ++ List.replicate n .done) :
      more ++ List.replicate m .done = s.writes ++ List.replicate (n + m) .done := by
    rw [same, List.append_assoc, List.replicate_add]
  cases wake with
  | read chunk => exact ⟨(congrArg (chunk :: ·) read).trans reads, endedThere.trans readEnd, n + m, wrote.trans (longer _ writes)⟩
  | readEnd ending => exact ⟨reads, readEnd, n + m, wrote.trans (longer _ writes)⟩
  | write outcome =>
      exact ⟨read.trans reads, endedThere.trans readEnd, n + m, (congrArg (outcome :: ·) wrote).trans (longer _ writes)⟩

theorem streams_write (s : TcpStream) : Streams s (feed (.write s.writeOutcome) s.afterWrite) := by
  refine ⟨rfl, rfl, ?_⟩
  cases queued : s.writes with
  | nil => exact ⟨1, by simp [feed, TcpStream.afterWrite, TcpStream.writeOutcome, queued]⟩
  | cons outcome rest => exact ⟨0, by simp [feed, TcpStream.afterWrite, TcpStream.writeOutcome, queued]⟩

structure Answers (cfg : Config) (s : TcpStream) (effects : List Effect) (stage : Stage) (wake : Wake) (later : TcpStream)
    (turn : Turn) : Prop where
  stepped : (machine cfg).step stage wake = some turn
  streams : Streams s (feed wake later)
  same : resume cfg s effects stage = resume cfg later (effects ++ turn.2) turn.1

theorem answers_write (cfg : Config) (s : TcpStream) (effects : List Effect) (stage : Stage) (turn : Turn)
    (stepped : onWrite cfg s.writeOutcome stage = some turn)
    (known : resume cfg s effects stage = resume cfg (feed (.write s.writeOutcome) s.afterWrite) effects stage) :
    Answers cfg s effects stage (.write s.writeOutcome) s.afterWrite turn :=
  ⟨stepped, streams_write s, known.trans (resume_write cfg s.afterWrite effects s.writeOutcome stage turn stepped)⟩

theorem answers_read (cfg : Config) (s : TcpStream) (effects : List Effect) (stage : Stage) (waiting : stage.Waiting)
    (reading : stage.reading = true) : ∃ wake later turn, Answers cfg s effects stage wake later turn := by
  cases queued : s.reads with
  | nil =>
      have fed : feed (.readEnd s.readEnd) s = s := by rw [feed, ← queued]
      refine ⟨.readEnd s.readEnd, s, (.returned (ended s.readEnd), []), ?_, by rw [fed]; exact streams_refl s, ?_⟩
      · cases stage <;> first | rfl | cases reading
      · have starves := resume_starved cfg s effects s.readEnd stage waiting reading
        rw [fed] at starves
        rw [starves, starved_dry s effects queued, List.append_nil, resume]
  | cons chunk rest =>
      have fed : feed (.read chunk) { s with reads := rest } = s := by rw [feed, ← queued]
      obtain ⟨turn, stepped⟩ : ∃ turn, onRead cfg chunk stage = some turn := by
        cases stage <;> first | exact ⟨_, rfl⟩ | cases reading
      have read := resume_read cfg { s with reads := rest } effects chunk stage turn waiting stepped
      rw [fed] at read
      exact ⟨.read chunk, { s with reads := rest }, turn, stepped, by rw [fed]; exact streams_refl s, read⟩

theorem stream_answers (cfg : Config) (s : TcpStream) (effects : List Effect) (stage : Stage) (waiting : stage.Waiting)
    (unfinished : ∀ result, stage ≠ .returned result) : ∃ wake later turn, Answers cfg s effects stage wake later turn := by
  have outcome : (feed (.write s.writeOutcome) s.afterWrite).writeOutcome = s.writeOutcome := rfl
  have after : (feed (.write s.writeOutcome) s.afterWrite).afterWrite = s.afterWrite := rfl
  cases stage with
  | greeting buf => exact answers_read cfg s effects (.greeting buf) waiting rfl
  | userpass buf => exact answers_read cfg s effects (.userpass buf) waiting rfl
  | request buf => exact answers_read cfg s effects (.request buf) waiting rfl
  | selecting chosen rest =>
      refine ⟨_, _, _, answers_write cfg s effects _ _ rfl ?_⟩
      simp only [resume, resume.chosen, writeThen, outcome, after]
  | answering ok rest =>
      refine ⟨_, _, _, answers_write cfg s effects _ _ rfl ?_⟩
      simp only [resume, writeThen, outcome, after]
  | rejecting =>
      refine ⟨_, _, _, answers_write cfg s effects _ _ rfl ?_⟩
      simp only [resume, writeThen, outcome, after]
  | refusing err =>
      refine ⟨_, _, _, answers_write cfg s effects _ _ rfl ?_⟩
      simp only [resume, replyRequestError, outcome, after]
  | returned result => exact absurd rfl (unfinished result)

theorem resume_run (cfg : Config) (s : TcpStream) (effects : List Effect) (stage : Stage) (waiting : stage.Waiting)
    (roomy : stage.held ≤ 2 * readBuf) :
    ∃ wakes made, (machine cfg).Run stage wakes made (.returned (resume cfg s effects stage).result) ∧
      (resume cfg s effects stage).effects = effects ++ made ∧
      Streams s (wakes.foldr feed (resume cfg s effects stage).stream) := by
  induction remaining : patience stage using Nat.strong_induction_on generalizing stage s effects with
  | _ remainder ih =>
      by_cases finished : ∃ result, stage = .returned result
      · obtain ⟨result, rfl⟩ := finished
        exact ⟨[], [], .idle, by rw [resume, List.append_nil], streams_refl s⟩
      · have unfinished (result : Negotiated) : stage ≠ .returned result := fun same => finished ⟨result, same⟩
        obtain ⟨wake, later, ⟨next, made⟩, stepped, streams, same⟩ := stream_answers cfg s effects stage waiting unfinished
        obtain ⟨left, fewer, fits⟩ := step_fits cfg stage next wake made waiting roomy stepped
        have less : patience next < remainder := by
          have after : patience next ≤ left := fits.left
          omega
        obtain ⟨wakes, more, run, parsed, fed⟩ := ih (patience next) less later (effects ++ made) next fits.waiting fits.held rfl
        have first : (machine cfg).Run stage [wake] made next := by
          simpa using Machine.Run.idle.next wake made next stepped
        refine ⟨[wake] ++ wakes, made ++ more, ?_, ?_, ?_⟩
        · rw [same]
          exact (machine cfg).run_append stage next _ [wake] wakes made more first run
        · rw [same, parsed, List.append_assoc]
        · rw [same]
          exact streams_feed s later _ wake streams fed

-- Whatever a client does, the handshake ends within a fixed number of reads and writes and buffers two reads at most, and it
-- comes to the result of the function on the stream it has read.
theorem handshake_runs (cfg : Config) (wakes : List Wake) (outputs : List Effect) (stage : Stage)
    (run : (machine cfg).Run start wakes outputs stage) :
    wakes.length + patience stage ≤ 1035 ∧ stage.held ≤ 2 * readBuf ∧ (stage.reading = true → stage.held ≤ readBuf) ∧
      ∀ result, stage = .returned result → ∀ later, Agrees (negotiate cfg (wakes.foldr feed later)) ⟨result, later, outputs⟩ := by
  have bounded := run_bounded cfg wakes outputs stage run
  refine ⟨bounded.left, bounded.held, waiting_held stage bounded.waiting, ?_⟩
  intro result ended later
  have agrees := run_agrees cfg wakes outputs stage run later
  rwa [ended, resume] at agrees

def passwordOnly : Config := { Config.default with auth := ⟨.password, [⟨"alice", "secret"⟩]⟩ }

-- A login and a request that come in pieces, with a byte behind the request.
theorem handshake_runs_pieces : ∃ (wakes : List Wake) (outputs : List Effect) (tail : Bytes), wakes.length ≤ 1035 ∧
    outputs = [.wrote [0x05, 0x02] .done, .emit (.auth true "alice"), .wrote [0x01, 0x00] .done] ∧ tail = [42] ∧
    Agrees (negotiate passwordOnly (wakes.foldr feed ⟨[], .eof, []⟩))
      ⟨.request ⟨.connect, .v4 (.new 127 0 0 1) 80⟩ tail, ⟨[], .eof, []⟩, outputs⟩ := by
  have ran : (machine passwordOnly).exec start
      [.read ⟨[5], by decide, by decide⟩, .read ⟨[1, 2], by decide, by decide⟩, .write .done,
        .read ⟨[1, 5, 97, 108, 105, 99], by decide, by decide⟩,
        .read ⟨[101, 6, 115, 101, 99, 114, 101, 116, 5, 1, 0], by decide, by decide⟩, .write .done,
        .read ⟨[1, 127, 0, 0], by decide, by decide⟩, .read ⟨[1, 0, 80, 42], by decide, by decide⟩] =
      some ([.wrote [0x05, 0x02] .done, .emit (.auth true "alice"), .wrote [0x01, 0x00] .done],
        .returned (.request ⟨.connect, .v4 (.new 127 0 0 1) 80⟩ [42])) := by decide +kernel
  obtain ⟨few, _, _, ends⟩ := handshake_runs passwordOnly _ _ _ (Machine.exec_run _ _ _ _ _ ran)
  exact ⟨_, _, [42], Nat.le_of_add_right_le few, rfl, rfl, ends _ rfl ⟨[], .eof, []⟩⟩

-- Every result of the function is one that a run comes to on the same stream, and the run leaves the same part of it unread.
theorem handshake_answers (cfg : Config) (s : TcpStream) :
    ∃ wakes, (machine cfg).Run start wakes (negotiate cfg s).effects (.returned (negotiate cfg s).result) ∧
      Streams s (wakes.foldr feed (negotiate cfg s).stream) := by
  obtain ⟨wakes, made, run, parsed, fed⟩ := resume_run cfg s [] start rfl (Nat.zero_le _)
  rw [resume_start] at run parsed fed
  rw [List.nil_append] at parsed
  exact ⟨wakes, parsed ▸ run, fed⟩

end Handshaking

end NextSocks5
