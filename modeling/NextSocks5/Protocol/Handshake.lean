import NextSocks5.Net

set_option autoImplicit false

namespace NextSocks5

def version : UInt8 := 0x05
def methodNoAuth : UInt8 := 0x00
def methodUserpass : UInt8 := 0x02
def methodNoneAcceptable : UInt8 := 0xFF
def userpassVersion : UInt8 := 0x01

inductive HandshakeError where
  | truncated
  | badVersion (version : UInt8)
  | badDomain
deriving DecidableEq, Repr

def getRange (buf : Bytes) (start len : Nat) : Option Bytes :=
  if start + len ≤ buf.length then some ((buf.drop start).take len) else none

def parseGreeting (buf : Bytes) : Except HandshakeError Bytes :=
  match buf[0]? with
  | none => .error .truncated
  | some ver =>
      if ver ≠ version then .error (.badVersion ver)
      else
        match buf[1]? with
        | none => .error .truncated
        | some nmethods =>
            match getRange buf 2 nmethods.toNat with
            | none => .error .truncated
            | some methods => .ok methods

def selectMethod (offered : Bytes) (requireUserpass : Bool) : UInt8 :=
  let wanted := if requireUserpass then methodUserpass else methodNoAuth
  if offered.contains wanted then wanted else methodNoneAcceptable

def methodReply (method : UInt8) : Bytes := [version, method]

def parseUserpass (buf : Bytes) : Except HandshakeError (String × String) :=
  match buf[0]? with
  | none => .error .truncated
  | some ver =>
      if ver ≠ userpassVersion then .error (.badVersion ver)
      else
        match buf[1]? with
        | none => .error .truncated
        | some ulenByte =>
            let ulen := ulenByte.toNat
            match getRange buf 2 ulen with
            | none => .error .truncated
            | some uname =>
                let plenIdx := 2 + ulen
                match buf[plenIdx]? with
                | none => .error .truncated
                | some plenByte =>
                    match getRange buf (plenIdx + 1) plenByte.toNat with
                    | none => .error .truncated
                    | some passwd =>
                        match fromUtf8 uname with
                        | none => .error .badDomain
                        | some username =>
                            match fromUtf8 passwd with
                            | none => .error .badDomain
                            | some password => .ok (username, password)

def userpassReply (ok : Bool) : Bytes := [userpassVersion, if ok then 0x00 else 0x01]

theorem get_range_exact (head middle tail : Bytes) :
    getRange (head ++ middle ++ tail) head.length middle.length = some middle := by
  have bound : head.length + middle.length ≤ (head ++ middle ++ tail).length := by simp
  rw [getRange, if_pos bound]
  simp [List.append_assoc]

theorem get_range_eq (buf : Bytes) (start len : Nat) (part : Bytes) (found : getRange buf start len = some part) :
    (buf.drop start).take len = part := by
  rw [getRange] at found
  split at found
  · exact Option.some.inj found
  · cases found

theorem get_range_some (buf : Bytes) (start len : Nat) (part : Bytes) (found : getRange buf start len = some part) :
    part.length = len ∧ buf = buf.take start ++ part ++ buf.drop (start + len) := by
  rw [getRange] at found
  split at found
  · rename_i bound
    cases found
    constructor
    · simp only [List.length_take, List.length_drop]
      omega
    · rw [List.append_assoc, ← List.drop_drop, List.take_append_drop, List.take_append_drop]
  · cases found

theorem get_range_none (buf : Bytes) (start len : Nat) (missing : getRange buf start len = none) :
    buf.length < start + len := by
  rw [getRange] at missing
  split at missing
  · cases missing
  · omega

def GreetingBytes (bytes methods : Bytes) : Prop :=
  ∃ nmethods : UInt8, bytes = version :: nmethods :: methods ∧ methods.length = nmethods.toNat

def UserpassBytes (bytes uname passwd : Bytes) : Prop :=
  ∃ ulen plen : UInt8, bytes = userpassVersion :: ulen :: uname ++ plen :: passwd ∧
    uname.length = ulen.toNat ∧ passwd.length = plen.toNat

theorem parse_greeting_complete (bytes methods rest : Bytes) (wire : GreetingBytes bytes methods) :
    parseGreeting (bytes ++ rest) = .ok methods := by
  obtain ⟨nmethods, rfl, sized⟩ := wire
  have found : getRange (version :: nmethods :: (methods ++ rest)) 2 nmethods.toNat = some methods := by
    rw [← sized]
    exact get_range_exact [version, nmethods] methods rest
  simp [parseGreeting, found]

theorem parse_greeting_bad_version (ver : UInt8) (rest : Bytes) (other : ver ≠ version) :
    parseGreeting (ver :: rest) = .error (.badVersion ver) := by
  simp [parseGreeting, other]

theorem parse_greeting_cases (buf : Bytes) :
    (parseGreeting buf = .error .truncated ∧ buf.length ≤ 256) ∨
    (∃ ver rest, buf = ver :: rest ∧ ver ≠ version) ∨
    ∃ bytes methods rest, buf = bytes ++ rest ∧ GreetingBytes bytes methods := by
  match buf with
  | [] => exact .inl ⟨rfl, by simp⟩
  | [ver] =>
      by_cases current : ver = version
      · exact .inl ⟨by simp [parseGreeting, current], by simp⟩
      · exact .inr (.inl ⟨ver, [], rfl, current⟩)
  | ver :: nmethods :: tail =>
      by_cases current : ver = version
      · subst current
        cases found : getRange (version :: nmethods :: tail) 2 nmethods.toNat with
        | none =>
            have bound := get_range_none _ 2 nmethods.toNat found
            have small := nmethods.toNat_lt
            exact .inl ⟨by simp [parseGreeting, found], by omega⟩
        | some methods =>
            obtain ⟨sized, cut⟩ := get_range_some _ 2 nmethods.toNat methods found
            exact .inr (.inr ⟨version :: nmethods :: methods, methods, _, cut, nmethods, rfl, sized⟩)
      · exact .inr (.inl ⟨ver, nmethods :: tail, rfl, current⟩)

def userpassText (uname passwd : Bytes) : Except HandshakeError (String × String) :=
  match fromUtf8 uname with
  | none => .error .badDomain
  | some username =>
      match fromUtf8 passwd with
      | none => .error .badDomain
      | some password => .ok (username, password)

theorem parse_userpass_complete (bytes uname passwd rest : Bytes) (wire : UserpassBytes bytes uname passwd) :
    parseUserpass (bytes ++ rest) = userpassText uname passwd := by
  obtain ⟨ulen, plen, rfl, userSized, passSized⟩ := wire
  generalize bufEq : userpassVersion :: ulen :: uname ++ plen :: passwd ++ rest = buf
  have versionAt : buf[0]? = some userpassVersion := by simp [← bufEq]
  have ulenAt : buf[1]? = some ulen := by simp [← bufEq]
  have user : getRange buf 2 ulen.toNat = some uname := by
    have exactly := get_range_exact [userpassVersion, ulen] uname (plen :: passwd ++ rest)
    simpa [← bufEq, ← userSized] using exactly
  have plenAt : buf[2 + ulen.toNat]? = some plen := by
    have front : (userpassVersion :: ulen :: uname).length = 2 + ulen.toNat := by simp [userSized]; omega
    rw [← bufEq, List.append_assoc, ← front, List.getElem?_append_right (Nat.le_refl _)]
    simp
  have pass : getRange buf (2 + ulen.toNat + 1) plen.toNat = some passwd := by
    have front : (userpassVersion :: ulen :: uname ++ [plen]).length = 2 + ulen.toNat + 1 := by simp [userSized]; omega
    have exactly := get_range_exact (userpassVersion :: ulen :: uname ++ [plen]) passwd rest
    rw [front, passSized] at exactly
    simpa [← bufEq] using exactly
  rw [parseUserpass, versionAt]
  simp only [ne_eq, not_true_eq_false, if_false, ulenAt, user, plenAt, pass, userpassText]

theorem parse_userpass_bad_version (ver : UInt8) (rest : Bytes) (other : ver ≠ userpassVersion) :
    parseUserpass (ver :: rest) = .error (.badVersion ver) := by
  simp [parseUserpass, other]

-- The longest unfinished auth message has 512 bytes, the whole read buffer.
theorem parse_userpass_cases (buf : Bytes) :
    (parseUserpass buf = .error .truncated ∧ buf.length ≤ 512) ∨
    (∃ ver rest, buf = ver :: rest ∧ ver ≠ userpassVersion) ∨
    ∃ bytes uname passwd rest, buf = bytes ++ rest ∧ UserpassBytes bytes uname passwd := by
  match buf with
  | [] => exact .inl ⟨rfl, by simp⟩
  | [ver] =>
      by_cases current : ver = userpassVersion
      · exact .inl ⟨by simp [parseUserpass, current], by simp⟩
      · exact .inr (.inl ⟨ver, [], rfl, current⟩)
  | ver :: ulen :: tail =>
      by_cases current : ver = userpassVersion
      · subst current
        have ulenBound := ulen.toNat_lt
        cases user : getRange (userpassVersion :: ulen :: tail) 2 ulen.toNat with
        | none =>
            have bound := get_range_none _ 2 ulen.toNat user
            exact .inl ⟨by simp [parseUserpass, user], by omega⟩
        | some uname =>
            obtain ⟨userSized, userCut⟩ := get_range_some _ 2 ulen.toNat uname user
            cases plenAt : (userpassVersion :: ulen :: tail)[2 + ulen.toNat]? with
            | none =>
                have bound := List.getElem?_eq_none_iff.mp plenAt
                exact .inl ⟨by simp [parseUserpass, user, plenAt], by omega⟩
            | some plen =>
                have plenBound := plen.toNat_lt
                cases pass : getRange (userpassVersion :: ulen :: tail) (2 + ulen.toNat + 1) plen.toNat with
                | none =>
                    have bound := get_range_none _ (2 + ulen.toNat + 1) plen.toNat pass
                    exact .inl ⟨by simp [parseUserpass, user, plenAt, pass], by omega⟩
                | some passwd =>
                    obtain ⟨passSized, passCut⟩ := get_range_some _ (2 + ulen.toNat + 1) plen.toNat passwd pass
                    have front : (userpassVersion :: ulen :: tail).take (2 + ulen.toNat + 1) =
                        userpassVersion :: ulen :: uname ++ [plen] := by
                      rw [List.take_add_one, plenAt]
                      have body : tail.take ulen.toNat = uname := get_range_eq _ 2 ulen.toNat uname user
                      rw [Nat.add_comm, List.take_succ_cons, List.take_succ_cons, body]
                      rfl
                    rw [front] at passCut
                    refine .inr (.inr ⟨userpassVersion :: ulen :: uname ++ plen :: passwd, uname, passwd,
                      (userpassVersion :: ulen :: tail).drop (2 + ulen.toNat + 1 + plen.toNat), ?_,
                      ulen, plen, rfl, userSized, passSized⟩)
                    simpa using passCut
      · exact .inr (.inl ⟨ver, ulen :: tail, rfl, current⟩)

end NextSocks5
