import NextSocks5.Protocol.Address

set_option autoImplicit false

namespace NextSocks5

inductive Command where
  | connect
  | bind
  | udpAssociate
deriving DecidableEq, Repr

structure Request where
  command : Command
  address : Address
deriving DecidableEq, Repr

inductive RequestError where
  | truncated
  | badVersion (version : UInt8)
  | badCommand (command : UInt8)
  | addr (reason : AddrError)
deriving DecidableEq, Repr

def cmdConnect : UInt8 := 0x01
def cmdBind : UInt8 := 0x02
def cmdUdpAssociate : UInt8 := 0x03

def parseCommand (byte : UInt8) : Option Command :=
  if byte = cmdConnect then some .connect
  else if byte = cmdBind then some .bind
  else if byte = cmdUdpAssociate then some .udpAssociate
  else none

-- The third byte is reserved and ignored; the address starts at the fourth.
def parseRequest (buf : Bytes) : Except RequestError Request :=
  if short : buf.length < 4 then .error .truncated
  else if buf[0] ≠ 0x05 then .error (.badVersion buf[0])
  else
    match parseCommand buf[1] with
    | none => .error (.badCommand buf[1])
    | some command =>
        match Address.decode (buf.drop 3) with
        | .error reason => .error (.addr reason)
        | .ok (address, _) => .ok ⟨command, address⟩

theorem parse_request_cons (version byte rsv : UInt8) (rest : Bytes) :
    parseRequest (version :: byte :: rsv :: rest) =
      if rest.length < 1 then .error .truncated
      else if version ≠ 0x05 then .error (.badVersion version)
      else
        match parseCommand byte with
        | none => .error (.badCommand byte)
        | some command =>
            match Address.decode rest with
            | .error reason => .error (.addr reason)
            | .ok (address, _) => .ok ⟨command, address⟩ := by
  by_cases short : rest.length < 1
  · rw [parseRequest, dif_pos (by simp only [List.length_cons]; omega), if_pos short]
  · rw [parseRequest, dif_neg (by simp only [List.length_cons]; omega), if_neg short]
    rfl

theorem long_buffer (buf : Bytes) (long : ¬ buf.length < 4) :
    ∃ version byte rsv rest, buf = version :: byte :: rsv :: rest ∧ ¬ rest.length < 1 := by
  match buf, long with
  | version :: byte :: rsv :: rest, long =>
      refine ⟨version, byte, rsv, rest, rfl, ?_⟩
      simp only [List.length_cons] at long
      omega
  | [], long | [_], long | [_, _], long => simp at long

def Request.Denotes (bytes : Bytes) (request : Request) : Prop :=
  ∃ byte rsv body, bytes = 0x05 :: byte :: rsv :: body ∧ parseCommand byte = some request.command ∧
    Address.Denotes body request.address

theorem parse_request_sound (buf : Bytes) (request : Request) (parsed : parseRequest buf = .ok request) :
    ∃ bytes rest, buf = bytes ++ rest ∧ Request.Denotes bytes request ∧
      bytes.length = 3 + (request.address.encode []).length := by
  by_cases short : buf.length < 4
  · rw [parseRequest, dif_pos short] at parsed
    cases parsed
  · obtain ⟨version, byte, rsv, body, rfl, filled⟩ := long_buffer buf short
    rw [parse_request_cons, if_neg filled] at parsed
    by_cases current : version = 0x05
    · rw [if_neg (not_not.mpr current)] at parsed
      cases known : parseCommand byte with
      | none => simp [known] at parsed
      | some command =>
          rw [known] at parsed
          cases decoded : Address.decode body with
          | error reason => simp [decoded] at parsed
          | ok pair =>
              obtain ⟨address, used⟩ := pair
              have same : ⟨command, address⟩ = request := by simpa [decoded] using parsed
              subst same current
              obtain ⟨front, rest, rfl, denotes, sized⟩ := Address.decode_sound body address used decoded
              refine ⟨0x05 :: byte :: rsv :: front, rest, rfl, ⟨byte, rsv, front, rfl, known, denotes⟩, ?_⟩
              rw [Address.encode_denotes front address denotes]
              simp only [List.length_cons]
              omega
    · rw [if_pos current] at parsed
      cases parsed

theorem parse_request_complete (bytes rest : Bytes) (request : Request) (denotes : Request.Denotes bytes request) :
    parseRequest (bytes ++ rest) = .ok request := by
  obtain ⟨command, target⟩ := request
  obtain ⟨byte, rsv, body, rfl, known, address⟩ := denotes
  have filled : ¬ (body ++ rest).length < 1 := by cases address <;> simp
  rw [List.cons_append, List.cons_append, List.cons_append, parse_request_cons, if_neg filled]
  simp [known, Address.decode_complete body rest target address]

theorem request_denotes_length (bytes : Bytes) (request : Request) (denotes : Request.Denotes bytes request) :
    bytes.length = 3 + (request.address.encode []).length := by
  obtain ⟨byte, rsv, body, rfl, _, address⟩ := denotes
  rw [Address.encode_denotes body request.address address]
  simp only [List.length_cons]
  omega

-- The verdicts on which negotiate keeps reading.
def RequestError.Unfinished : RequestError → Prop
  | .truncated => True
  | .addr .truncated => True
  | _ => False

instance (reason : RequestError) : Decidable reason.Unfinished :=
  match reason with
  | .truncated | .addr .truncated => .isTrue trivial
  | .badVersion _ | .badCommand _ | .addr (.badAtyp _) | .addr .badDomain => .isFalse id

theorem parse_request_stable (buf extra : Bytes)
    (decided : ∀ reason, parseRequest buf = .error reason → ¬ reason.Unfinished) :
    parseRequest (buf ++ extra) = parseRequest buf := by
  by_cases short : buf.length < 4
  · exact absurd trivial (decided .truncated (by rw [parseRequest, dif_pos short]))
  · obtain ⟨version, byte, rsv, body, rfl, filled⟩ := long_buffer buf short
    have longer : ¬ (body ++ extra).length < 1 := by rw [List.length_append]; omega
    rw [parse_request_cons, if_neg filled] at decided
    rw [List.cons_append, List.cons_append, List.cons_append, parse_request_cons, parse_request_cons, if_neg longer, if_neg filled]
    by_cases current : version = 0x05
    · rw [if_neg (not_not.mpr current)] at decided
      cases known : parseCommand byte with
      | none => rfl
      | some command =>
          rw [known] at decided
          have settled : Address.decode body ≠ .error .truncated := by
            intro truncated
            exact decided (.addr .truncated) (by simp [truncated]) trivial
          rw [Address.decode_stable body extra settled]
    · rw [if_pos current, if_pos current]

theorem parse_request_unfinished_bound (buf : Bytes) (reason : RequestError)
    (failed : parseRequest buf = .error reason) (unfinished : reason.Unfinished) : buf.length ≤ 261 := by
  by_cases short : buf.length < 4
  · omega
  · obtain ⟨version, byte, rsv, body, rfl, filled⟩ := long_buffer buf short
    rw [parse_request_cons, if_neg filled] at failed
    by_cases current : version = 0x05
    · rw [if_neg (not_not.mpr current)] at failed
      cases known : parseCommand byte with
      | none =>
          rw [known] at failed
          cases failed
          exact False.elim unfinished
      | some command =>
          rw [known] at failed
          cases decoded : Address.decode body with
          | ok pair => simp [decoded] at failed
          | error cause =>
              have same : RequestError.addr cause = reason := by simpa [decoded] using failed
              subst same
              cases cause with
              | truncated =>
                  have bound := Address.decode_truncated_bound body decoded
                  simp only [List.length_cons]
                  omega
              | badAtyp _ | badDomain => exact False.elim unfinished
    · rw [if_pos current] at failed
      cases failed
      exact False.elim unfinished

end NextSocks5
