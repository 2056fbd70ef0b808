import NextSocks5.Server.Messages

set_option autoImplicit false

namespace NextSocks5

open Incremental

def failureReply (rep : UInt8) : Bytes := [5, rep, 0, 1, 0, 0, 0, 0, 0, 0]

def nameTranscript : Bytes → Bytes
  | [] => []
  | len :: tail => if len.toNat + 2 ≤ tail.length ∧ fromUtf8 (tail.take len.toNat) = none then failureReply 1 else []

def addressTranscript (atyp : UInt8) (rest : Bytes) : Bytes :=
  if atyp ∉ [1, 3, 4] then failureReply 8 else if atyp = 3 then nameTranscript rest else []

def requestTranscript : Bytes → Bytes
  | ver :: cmd :: _ :: atyp :: rest =>
      if ver ≠ 5 then [] else if cmd ∉ [1, 2, 3] then failureReply 7 else addressTranscript atyp rest
  | _ => []

def credentialsTranscript (cfg : Config) (uname passwd rest : Bytes) : Bytes :=
  match fromUtf8 uname, fromUtf8 passwd with
  | some username, some password =>
      if ∃ user ∈ cfg.auth.users, user.username = username ∧ user.password = password then [1, 0] ++ requestTranscript rest
      else [1, 1]
  | _, _ => [1, 1]

def userpassTranscript (cfg : Config) : Bytes → Bytes
  | [] => []
  | ver :: rest =>
      if ver ≠ 1 then [1, 1]
      else
        match rest with
        | [] => []
        | ulen :: rest =>
            match rest.drop ulen.toNat with
            | [] => []
            | plen :: tail =>
                if tail.length < plen.toNat then []
                else credentialsTranscript cfg (rest.take ulen.toNat) (tail.take plen.toNat) (tail.drop plen.toNat)

def requiredMethod (cfg : Config) : UInt8 := if cfg.auth.method = .password then 2 else 0

def transcript (cfg : Config) : Bytes → Bytes
  | ver :: nmethods :: rest =>
      if ver ≠ 5 ∨ rest.length < nmethods.toNat then []
      else if requiredMethod cfg ∉ rest.take nmethods.toNat then [5, 0xff]
      else if cfg.auth.method = .password then [5, 2] ++ userpassTranscript cfg (rest.drop nmethods.toNat)
      else [5, 0] ++ requestTranscript (rest.drop nmethods.toNat)
  | _ => []

def written (step : Negotiation) : Bytes := step.effects.flatMap Effect.bytes

namespace Address

theorem decode_bad_atyp (atyp : UInt8) (rest : Bytes) (unknown : atyp ∉ [1, 3, 4]) :
    decode (atyp :: rest) = .error (.badAtyp atyp) := by
  simp only [List.mem_cons, List.not_mem_nil, or_false, not_or] at unknown
  have named : atyp ≠ atypDomain := unknown.2.1
  have four : atyp ≠ atypV4 := unknown.1
  have six : atyp ≠ atypV6 := unknown.2.2
  simp [decode, named, four, six]

theorem decode_ip (atyp : UInt8) (rest : Bytes) (ip : atyp = 1 ∨ atyp = 4) :
    decode (atyp :: rest) = .error .truncated ∨ ∃ found, decode (atyp :: rest) = .ok found := by
  rcases ip with rfl | rfl
  · change decode (atypV4 :: rest) = _ ∨ ∃ found, decode (atypV4 :: rest) = .ok found
    simp only [decode, List.getElem?_cons_zero, if_true]
    split
    · exact .inl rfl
    · exact .inr ⟨_, rfl⟩
  · change decode (atypV6 :: rest) = _ ∨ ∃ found, decode (atypV6 :: rest) = .ok found
    simp only [decode, List.getElem?_cons_zero, if_neg (by decide : ¬ atypV6 = atypV4), if_true]
    split
    · exact .inl rfl
    · exact .inr ⟨_, rfl⟩

theorem decode_name_short (len : UInt8) (tail : Bytes) (short : tail.length < len.toNat + 2) :
    decode (3 :: len :: tail) = .error .truncated := by
  have small : (atypDomain :: len :: tail).length < 2 + len.toNat + 2 := by
    simp only [List.length_cons]
    omega
  change decode (atypDomain :: len :: tail) = _
  simp only [decode, List.getElem?_cons_zero, List.getElem?_cons_succ, if_neg (by decide : ¬ atypDomain = atypV4),
    if_neg (by decide : ¬ atypDomain = atypV6), if_true, dif_pos small]

theorem decode_name_long (len : UInt8) (tail : Bytes) (long : len.toNat + 2 ≤ tail.length) :
    ∃ high low, decode (3 :: len :: tail) =
      match fromUtf8 (tail.take len.toNat) with
      | none => .error .badDomain
      | some name => .ok (.domain name (fromBeBytes high low), 2 + len.toNat + 2) := by
  have bound : 2 + len.toNat + 2 ≤ (3 :: len :: tail).length := by
    simp only [List.length_cons]
    omega
  have cut := slice_split (3 :: len :: tail) 2 len.toNat bound
  have sized : (tail.take len.toNat).length = len.toNat := by
    rw [List.length_take]
    omega
  have framed := decode_domain len (3 :: len :: tail)[2 + len.toNat] (3 :: len :: tail)[2 + len.toNat + 1] (tail.take len.toNat)
    ((3 :: len :: tail).drop (2 + len.toNat + 2)) sized
  exact ⟨(3 :: len :: tail)[2 + len.toNat], (3 :: len :: tail)[2 + len.toNat + 1], (congrArg decode cut).trans framed⟩

end Address

def verdictReply : Verdict Request RequestError → Bytes
  | .reject reason =>
      match requestFailure reason with
      | some err => failureReply err.replyCode
      | none => []
  | _ => []

def parsedReply (parsed : Except RequestError Request) : Bytes :=
  match parsed with
  | .error (.badCommand _) => failureReply 7
  | .error (.addr (.badAtyp _)) => failureReply 8
  | .error (.addr .badDomain) => failureReply 1
  | _ => []

theorem verdict_reply (buf : Bytes) : verdictReply (requestVerdict buf) = parsedReply (parseRequest buf) := by
  rw [requestVerdict]
  cases parsed : parseRequest buf with
  | ok request => rfl
  | error reason =>
      cases reason with
      | addr reason => cases reason <;> rfl
      | _ => rfl

theorem command_known (cmd : UInt8) : parseCommand cmd = none ↔ cmd ∉ [1, 2, 3] := by
  by_cases first : cmd = cmdConnect
  · simp [parseCommand, first, cmdConnect]
  · by_cases second : cmd = cmdBind
    · simp [parseCommand, second, cmdBind, cmdConnect]
    · by_cases third : cmd = cmdUdpAssociate
      · simp [parseCommand, third, cmdBind, cmdConnect, cmdUdpAssociate]
      · simp only [parseCommand, first, second, third, if_false, true_iff, List.mem_cons, List.not_mem_nil, or_false, not_or]
        exact ⟨first, second, third⟩

def addressReply (decoded : Except AddrError (Address × Nat)) : Bytes :=
  match decoded with
  | .error (.badAtyp _) => failureReply 8
  | .error .badDomain => failureReply 1
  | _ => []

theorem parsed_reply_cons (cmd rsv atyp : UInt8) (rest : Bytes) :
    parsedReply (parseRequest (5 :: cmd :: rsv :: atyp :: rest)) =
      if cmd ∉ [1, 2, 3] then failureReply 7 else addressReply (Address.decode (atyp :: rest)) := by
  rw [parse_request_cons, if_neg (by simp), if_neg (by simp)]
  cases known : parseCommand cmd with
  | none =>
      rw [if_pos ((command_known cmd).mp known)]
      rfl
  | some command =>
      have inside : ¬ cmd ∉ [1, 2, 3] := fun unknown => by simp [(command_known cmd).mpr unknown] at known
      rw [if_neg inside]
      dsimp only
      cases Address.decode (atyp :: rest) with
      | ok found => rfl
      | error reason => cases reason <;> rfl

theorem name_reply (rest : Bytes) : addressReply (Address.decode (3 :: rest)) = nameTranscript rest := by
  cases rest with
  | nil => rfl
  | cons len tail =>
      by_cases short : tail.length < len.toNat + 2
      · rw [Address.decode_name_short len tail short, nameTranscript, if_neg (fun long => by omega)]
        rfl
      · have long := Nat.not_lt.mp short
        obtain ⟨high, low, decoded⟩ := Address.decode_name_long len tail long
        rw [decoded, nameTranscript]
        cases text : fromUtf8 (tail.take len.toNat) with
        | none => rw [if_pos ⟨long, rfl⟩]; rfl
        | some name => rw [if_neg (by simp)]; rfl

theorem address_reply (atyp : UInt8) (rest : Bytes) : addressReply (Address.decode (atyp :: rest)) = addressTranscript atyp rest := by
  by_cases unknown : atyp ∉ [1, 3, 4]
  · rw [Address.decode_bad_atyp atyp rest unknown, addressTranscript, if_pos unknown]
    rfl
  · rw [addressTranscript, if_neg unknown]
    by_cases named : atyp = 3
    · subst named
      exact name_reply rest
    · rw [if_neg named]
      have ip : atyp = 1 ∨ atyp = 4 := by
        simp only [List.mem_cons, List.not_mem_nil, or_false, not_not] at unknown
        exact unknown.imp_right fun rest => rest.resolve_left named
      rcases Address.decode_ip atyp rest ip with failed | ⟨found, decoded⟩
      · rw [failed]
        rfl
      · rw [decoded]
        rfl

theorem request_transcript (buf : Bytes) : verdictReply (requestVerdict buf) = requestTranscript buf := by
  rw [verdict_reply]
  match buf with
  | ver :: cmd :: rsv :: atyp :: rest =>
      rw [requestTranscript]
      by_cases current : ver = 5
      · subst current
        rw [parsed_reply_cons, if_neg (not_not.mpr rfl), address_reply]
      · rw [parse_request_cons, if_neg (by simp), if_pos current, if_pos current]
        rfl
  | [] | [_] | [_, _] | [_, _, _] => rfl

theorem userpass_wire (cfg : Config) (bytes uname passwd rest : Bytes) (wire : UserpassBytes bytes uname passwd) :
    userpassTranscript cfg (bytes ++ rest) = credentialsTranscript cfg uname passwd rest := by
  obtain ⟨ulen, plen, rfl, userSized, passSized⟩ := wire
  have afterUser : (uname ++ plen :: passwd ++ rest).drop ulen.toNat = plen :: (passwd ++ rest) := by
    rw [List.append_assoc, ← userSized, List.drop_left, List.cons_append]
  have user : (uname ++ plen :: passwd ++ rest).take ulen.toNat = uname := by
    rw [List.append_assoc, ← userSized, List.take_left]
  have long : ¬ (passwd ++ rest).length < plen.toNat := by
    rw [List.length_append, passSized]
    omega
  have pass : (passwd ++ rest).take plen.toNat = passwd := by rw [← passSized, List.take_left]
  have tail : (passwd ++ rest).drop plen.toNat = rest := by rw [← passSized, List.drop_left]
  change userpassTranscript cfg (1 :: ulen :: (uname ++ plen :: passwd ++ rest)) = _
  rw [userpassTranscript, if_neg (not_not.mpr rfl)]
  simp only [afterUser, if_neg long, user, pass, tail]

theorem userpass_framed (cfg : Config) (buf : Bytes) :
    userpassTranscript cfg buf = [] ∨ (∃ ver rest, buf = ver :: rest ∧ ver ≠ userpassVersion) ∨
    ∃ bytes uname passwd rest, buf = bytes ++ rest ∧ UserpassBytes bytes uname passwd := by
  match buf with
  | [] => exact .inl rfl
  | ver :: body =>
      by_cases current : ver = userpassVersion
      · subst current
        match body with
        | [] => exact .inl rfl
        | ulen :: rest =>
            cases after : rest.drop ulen.toNat with
            | nil => exact .inl (by simp [userpassTranscript, userpassVersion, after])
            | cons plen tail =>
                by_cases short : tail.length < plen.toNat
                · exact .inl (by simp [userpassTranscript, userpassVersion, after, short])
                · have sized : (rest.take ulen.toNat).length = ulen.toNat := by
                    have more := congrArg List.length after
                    simp only [List.length_drop, List.length_cons] at more
                    rw [List.length_take]
                    omega
                  have cut : rest = rest.take ulen.toNat ++ plen :: tail := by
                    rw [← after, List.take_append_drop]
                  refine .inr (.inr ⟨userpassVersion :: ulen :: rest.take ulen.toNat ++ plen :: tail.take plen.toNat,
                    rest.take ulen.toNat, tail.take plen.toNat, tail.drop plen.toNat, ?_, ulen, plen, rfl, sized, ?_⟩)
                  · simp only [List.cons_append, List.append_assoc, List.take_append_drop]
                    rw [← cut]
                  · rw [List.length_take]
                    omega
      · exact .inr (.inl ⟨ver, body, rfl, current⟩)

theorem userpass_bad_version (cfg : Config) (ver : UInt8) (rest : Bytes) (other : ver ≠ userpassVersion) :
    userpassTranscript cfg (ver :: rest) = [1, 1] := by
  have apart : ver ≠ 1 := other
  simp [userpassTranscript, apart]

theorem userpass_text_finished (uname passwd : Bytes) : userpassText uname passwd ≠ .error .truncated := by
  rw [userpassText]
  split
  · simp
  · split <;> simp

theorem userpass_truncated (cfg : Config) (buf : Bytes) (short : parseUserpass buf = .error .truncated) :
    userpassTranscript cfg buf = [] := by
  rcases userpass_framed cfg buf with silent | ⟨ver, rest, rfl, other⟩ | ⟨bytes, uname, passwd, rest, rfl, wire⟩
  · exact silent
  · rw [parse_userpass_bad_version ver rest other] at short
    cases short
  · rw [parse_userpass_complete bytes uname passwd rest wire] at short
    exact absurd short (userpass_text_finished uname passwd)

theorem userpass_rejected (cfg : Config) (buf : Bytes) (reason : HandshakeError) (parsed : userpassVerdict buf = .reject reason) :
    userpassTranscript cfg buf = [1, 1] := by
  rcases parse_userpass_cases buf with ⟨short, _⟩ | ⟨ver, rest, rfl, other⟩ | ⟨bytes, uname, passwd, rest, rfl, wire⟩
  · simp [userpassVerdict, short] at parsed
  · exact userpass_bad_version cfg ver rest other
  · rw [userpass_verdict_complete bytes uname passwd rest wire] at parsed
    rw [userpass_wire cfg bytes uname passwd rest wire, credentialsTranscript]
    cases userEq : fromUtf8 uname with
    | none => rfl
    | some username =>
        cases passEq : fromUtf8 passwd with
        | none => rfl
        | some password => simp [userpassText, userEq, passEq] at parsed

theorem userpass_awaited (cfg : Config) (buf : Bytes) (parsed : userpassVerdict buf = .more) : userpassTranscript cfg buf = [] := by
  rcases parse_userpass_cases buf with ⟨short, _⟩ | ⟨ver, rest, rfl, other⟩ | ⟨bytes, uname, passwd, rest, rfl, wire⟩
  · exact userpass_truncated cfg buf short
  · simp [userpassVerdict, parse_userpass_bad_version ver rest other] at parsed
  · rw [userpass_verdict_complete bytes uname passwd rest wire] at parsed
    cases text : userpassText uname passwd <;> simp [text] at parsed

theorem greeting_wire (cfg : Config) (bytes methods rest : Bytes) (wire : GreetingBytes bytes methods) :
    transcript cfg (bytes ++ rest) =
      if requiredMethod cfg ∉ methods then [5, 0xff]
      else if cfg.auth.method = .password then [5, 2] ++ userpassTranscript cfg rest
      else [5, 0] ++ requestTranscript rest := by
  obtain ⟨nmethods, rfl, sized⟩ := wire
  have offered : (methods ++ rest).take nmethods.toNat = methods := by rw [← sized, List.take_left]
  have after : (methods ++ rest).drop nmethods.toNat = rest := by rw [← sized, List.drop_left]
  have long : ¬ ((5 : UInt8) ≠ 5 ∨ (methods ++ rest).length < nmethods.toNat) := by
    rw [List.length_append, sized]
    simp
  change transcript cfg (5 :: nmethods :: (methods ++ rest)) = _
  rw [transcript, if_neg long, offered, after]

theorem greeting_truncated (cfg : Config) (buf : Bytes) (short : parseGreeting buf = .error .truncated) : transcript cfg buf = [] := by
  match buf with
  | [] | [_] => rfl
  | ver :: nmethods :: rest =>
      by_cases current : ver = version
      · subst current
        by_cases long : rest.length < nmethods.toNat
        · rw [transcript, if_pos (.inr long)]
        · have wire : GreetingBytes (version :: nmethods :: rest.take nmethods.toNat) (rest.take nmethods.toNat) := by
            refine ⟨nmethods, rfl, ?_⟩
            rw [List.length_take]
            omega
          have parsed := parse_greeting_complete _ _ (rest.drop nmethods.toNat) wire
          rw [List.cons_append, List.cons_append, List.take_append_drop, short] at parsed
          cases parsed
      · rw [parse_greeting_bad_version ver _ current] at short
        cases short

theorem greeting_unaccepted (cfg : Config) (buf : Bytes) (refused : ∀ methods used, greetingVerdict buf ≠ .accept methods used) :
    transcript cfg buf = [] := by
  rcases parse_greeting_cases buf with ⟨short, _⟩ | ⟨ver, rest, rfl, other⟩ | ⟨bytes, methods, rest, rfl, wire⟩
  · exact greeting_truncated cfg buf short
  · cases rest with
    | nil => rfl
    | cons nmethods rest =>
        have apart : ver ≠ 5 := other
        rw [transcript, if_pos (.inl apart)]
  · exact absurd (greeting_verdict_complete bytes methods rest wire) (refused _ _)

theorem select_method_required (cfg : Config) (offered : Bytes) :
    selectMethod offered (cfg.auth.method == .password) =
      if requiredMethod cfg ∈ offered then requiredMethod cfg else 0xff := by
  cases method : cfg.auth.method <;>
    simp [selectMethod, requiredMethod, method, methodUserpass, methodNoAuth, methodNoneAcceptable]

theorem written_request (s : TcpStream) (buf : Bytes) (effects : List Effect) (healthy : s.Healthy) :
    written (negotiateRequest s buf effects) = effects.flatMap Effect.bytes ++ requestTranscript (buf ++ s.unread) := by
  have oneShot := fill_one_shot requestDecoder readBuf (by decide) Chunk.bytes buf s.reads
  change OneShot requestVerdict Chunk.bytes (buf ++ s.unread) (readMessage requestVerdict buf s) at oneShot
  rw [← request_transcript, negotiateRequest]
  cases parsed : requestVerdict (buf ++ s.unread) with
  | accept request used =>
      simp only [OneShot, parsed] at oneShot
      obtain ⟨tail, reads, read, _⟩ := oneShot
      rw [read]
      simp [written, verdictReply]
  | reject reason =>
      simp only [OneShot, parsed] at oneShot
      obtain ⟨reads, read⟩ := oneShot
      rw [read]
      cases failed : requestFailure reason with
      | none => simp [written, verdictReply, failed]
      | some err =>
          have done : { s with reads }.writeOutcome = .done := TcpStream.healthy_write _ (TcpStream.healthy_reads s reads healthy)
          simp only [replyRequestError, done, failed, verdictReply, written, List.flatMap_append]
          simp [Effect.bytes, WriteOutcome.taken]
          rfl
  | more =>
      simp only [OneShot, parsed] at oneShot
      rw [oneShot]
      simp [written, verdictReply, starved]

theorem written_then (s : TcpStream) (data : Bytes) (effects : List Effect) (next : TcpStream → List Effect → Negotiation)
    (healthy : s.Healthy) :
    writeThen s data effects next = next s.afterWrite (effects ++ [.wrote data .done]) := by
  rw [writeThen, TcpStream.healthy_write s healthy]

theorem wrote_bytes (effects : List Effect) (data : Bytes) :
    (effects ++ [Effect.wrote data .done]).flatMap Effect.bytes = effects.flatMap Effect.bytes ++ data := by
  simp [Effect.bytes, WriteOutcome.taken]

theorem written_userpass (cfg : Config) (s : TcpStream) (buf : Bytes) (effects : List Effect) (healthy : s.Healthy) :
    written (negotiateUserpass cfg s buf effects) =
      effects.flatMap Effect.bytes ++ userpassTranscript cfg (buf ++ s.unread) := by
  have oneShot := fill_one_shot userpassDecoder readBuf (by decide) Chunk.bytes buf s.reads
  change OneShot userpassVerdict Chunk.bytes (buf ++ s.unread) (readMessage userpassVerdict buf s) at oneShot
  rw [negotiateUserpass]
  cases parsed : userpassVerdict (buf ++ s.unread) with
  | accept pair used =>
      obtain ⟨user, pass⟩ := pair
      obtain ⟨bytes, rest, cut, wire, sized⟩ := userpass_verdict_sound _ user pass used parsed
      simp only [OneShot, parsed] at oneShot
      obtain ⟨tail, reads, read, left⟩ := oneShot
      have after : tail ++ { s with reads }.unread = rest := by
        have dropped : tail ++ { s with reads }.unread = (buf ++ s.unread).drop used := left
        rw [dropped, cut, sized, List.drop_left]
      rw [read, cut, userpass_wire cfg bytes _ _ rest wire, credentialsTranscript]
      simp only [from_utf8_as_bytes, ← verify_credentials_iff]
      rw [written_then _ _ _ _ (TcpStream.healthy_reads s reads healthy)]
      by_cases known : verifyCredentials cfg.auth.users user pass = true
      · rw [if_pos known, if_pos known, written_request _ _ _ (TcpStream.healthy_after_write _ (TcpStream.healthy_reads s reads healthy)),
          wrote_bytes, known]
        have same : tail ++ { s with reads }.afterWrite.unread = rest := after
        rw [same]
        simp [Effect.bytes, userpassReply, userpassVersion]
      · rw [if_neg known, if_neg known, written, wrote_bytes]
        simp [Effect.bytes, userpassReply, userpassVersion, known]
  | reject reason =>
      simp only [OneShot, parsed] at oneShot
      obtain ⟨reads, read⟩ := oneShot
      have refused := userpass_rejected cfg (buf ++ s.unread) reason parsed
      rw [read, refused]
      dsimp only
      rw [written_then _ _ _ _ (TcpStream.healthy_reads s reads healthy), written, wrote_bytes]
      rfl
  | more =>
      simp only [OneShot, parsed] at oneShot
      rw [oneShot, userpass_awaited cfg (buf ++ s.unread) parsed]
      simp [written, starved]

-- Whatever the segmentation, the bytes written are the transcript of the whole stream.
theorem negotiate_transcript (cfg : Config) (s : TcpStream) (healthy : s.Healthy) :
    (negotiate cfg s).effects.flatMap Effect.bytes = transcript cfg s.unread := by
  have oneShot := fill_one_shot greetingDecoder readBuf (by decide) Chunk.bytes [] s.reads
  change OneShot greetingVerdict Chunk.bytes s.unread (readMessage greetingVerdict [] s) at oneShot
  rw [negotiate]
  cases parsed : greetingVerdict s.unread with
  | accept offered used =>
      obtain ⟨bytes, rest, cut, wire, sized⟩ := greeting_verdict_sound _ offered used parsed
      simp only [OneShot, parsed] at oneShot
      obtain ⟨tail, reads, read, left⟩ := oneShot
      have after : tail ++ { s with reads }.unread = rest := by
        have dropped : tail ++ { s with reads }.unread = s.unread.drop used := left
        rw [dropped, cut, sized, List.drop_left]
      have ready := TcpStream.healthy_after_write _ (TcpStream.healthy_reads s reads healthy)
      rw [read, cut, greeting_wire cfg bytes offered rest wire]
      dsimp only
      rw [written_then _ _ _ _ (TcpStream.healthy_reads s reads healthy), select_method_required, ← after]
      by_cases acceptable : requiredMethod cfg ∈ offered
      · rw [if_pos acceptable, if_neg (not_not.mpr acceptable)]
        cases method : cfg.auth.method with
        | none =>
            have noAuth : requiredMethod cfg = 0 := by simp [requiredMethod, method]
            have same := written_request { s with reads }.afterWrite tail ([] ++ [.wrote (methodReply 0) .done]) ready
            rw [noAuth, if_neg (by decide), if_neg (by decide), if_neg (by simp)]
            rw [wrote_bytes] at same
            exact same
        | password =>
            have login : requiredMethod cfg = 2 := by simp [requiredMethod, method]
            have same := written_userpass cfg { s with reads }.afterWrite tail ([] ++ [.wrote (methodReply 2) .done]) ready
            rw [login, if_neg (by decide), if_pos (by decide), if_pos rfl]
            rw [wrote_bytes] at same
            exact same
      · rw [if_neg acceptable, if_pos acceptable, if_pos (by decide), wrote_bytes]
        rfl
  | reject reason =>
      simp only [OneShot, parsed] at oneShot
      obtain ⟨reads, read⟩ := oneShot
      have silent := greeting_unaccepted cfg s.unread (by simp [parsed])
      rw [read, silent]
      rfl
  | more =>
      simp only [OneShot, parsed] at oneShot
      rw [oneShot, greeting_unaccepted cfg s.unread (by simp [parsed])]
      rfl

theorem negotiate_transcript_unknown_command :
    (negotiate .default
      ⟨[⟨[5, 1, 0, 5, 9], by decide, by decide⟩, ⟨[0, 1], by decide, by decide⟩], .eof, []⟩).effects.flatMap Effect.bytes =
      [5, 0, 5, 7, 0, 1, 0, 0, 0, 0, 0, 0] :=
  (negotiate_transcript .default _ ⟨by simp, by simp⟩).trans (by decide)

end NextSocks5
