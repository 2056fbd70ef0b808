import NextSocks5.Config

set_option autoImplicit false

namespace NextSocks5

namespace Hosts

def dot : UInt8 := 46

def colon : UInt8 := 58

def dash : UInt8 := 45

def isAsciiDigit (b : UInt8) : Bool := decide (48 ≤ b) && decide (b ≤ 57)

def isAsciiAlphabetic (b : UInt8) : Bool := (decide (65 ≤ b) && decide (b ≤ 90)) || (decide (97 ≤ b) && decide (b ≤ 122))

def isAsciiAlphanumeric (b : UInt8) : Bool := isAsciiAlphabetic b || isAsciiDigit b

def toDigit (radix : Nat) (b : UInt8) : Option Nat :=
  let value := if isAsciiDigit b then some (b.toNat - 48)
    else if 97 ≤ b ∧ b ≤ 122 then some (b.toNat - 87)
    else if 65 ≤ b ∧ b ≤ 90 then some (b.toNat - 55)
    else none
  value.filter fun digit => decide (digit < radix)

def readDigits (radix : Nat) : Bytes → List Nat × Bytes
  | [] => ([], [])
  | b :: rest =>
      match toDigit radix b with
      | some digit => (digit :: (readDigits radix rest).1, (readDigits radix rest).2)
      | none => ([], b :: rest)

-- A number below the bound of its type; a leading zero is an octal number to some readers.
def readNumber (radix : Nat) (maxDigits : Option Nat) (zeroPrefix : Bool) (bound : Nat) (text : Bytes) : Option (Nat × Bytes) :=
  let digits := (readDigits radix text).1
  let value := digits.foldl (fun value digit => value * radix + digit) 0
  if (maxDigits.any fun max => decide (max < digits.length)) || digits.isEmpty then none
  else if !zeroPrefix && text.head? == some 48 && decide (1 < digits.length) then none
  else if value < bound then some (value, (readDigits radix text).2) else none

def readGiven (given : UInt8) : Bytes → Option Bytes
  | [] => none
  | b :: rest => if b = given then some rest else none

def readOctet (text : Bytes) : Option (UInt8 × Bytes) :=
  (readNumber 10 (some 3) false 256 text).map fun read => (UInt8.ofNat read.1, read.2)

def readIpv4 (text : Bytes) : Option (Ipv4Addr × Bytes) :=
  (readOctet text).bind fun a => (readGiven dot a.2).bind fun rest =>
  (readOctet rest).bind fun b => (readGiven dot b.2).bind fun rest =>
  (readOctet rest).bind fun c => (readGiven dot c.2).bind fun rest =>
  (readOctet rest).map fun d => (.new a.1 b.1 c.1 d.1, d.2)

structure Groups where
  words : List UInt16
  ipv4 : Bool
  rest : Bytes

def readSeparated {α : Type} (first : Bool) (text : Bytes) (read : Bytes → Option (α × Bytes)) : Option (α × Bytes) :=
  if first then read text else (readGiven colon text).bind read

def readGroup (text : Bytes) : Option (UInt16 × Bytes) :=
  (readNumber 16 (some 4) true 65536 text).map fun read => (UInt16.ofNat read.1, read.2)

def octet (ip : Ipv4Addr) (i : Nat) : UInt8 := ip.octets.toList.getD i 0

-- At most `limit` groups; an embedded IPv4 address is the last two of them.
def readGroups : Nat → Bool → Bytes → Groups
  | 0, _, text => ⟨[], false, text⟩
  | limit + 1, first, text =>
      match if limit = 0 then none else readSeparated first text readIpv4 with
      | some ip =>
          ⟨[fromBeBytes (octet ip.1 0) (octet ip.1 1), fromBeBytes (octet ip.1 2) (octet ip.1 3)], true, ip.2⟩
      | none =>
          match readSeparated first text readGroup with
          | some group =>
              let later := readGroups limit false group.2
              ⟨group.1 :: later.words, later.ipv4, later.rest⟩
          | none => ⟨[], false, text⟩

def ipv6OfWords (words : List UInt16) : Ipv6Addr := ⟨Vector.ofFn fun i => (words.flatMap toBeBytes).getD i.val 0⟩

def readIpv6 (text : Bytes) : Option (Ipv6Addr × Bytes) :=
  let head := readGroups 8 true text
  if head.words.length = 8 then some (ipv6OfWords head.words, head.rest)
  else if head.ipv4 then none
  else (readGiven colon head.rest).bind fun rest => (readGiven colon rest).map fun rest =>
    let tail := readGroups (7 - head.words.length) true rest
    (ipv6OfWords (head.words ++ List.replicate (8 - head.words.length - tail.words.length) 0 ++ tail.words), tail.rest)

def readIp (text : Bytes) : Option (IpAddr × Bytes) :=
  match readIpv4 text with
  | some ip => some (.v4 ip.1, ip.2)
  | none => (readIpv6 text).map fun ip => (.v6 ip.1, ip.2)

def readPort (text : Bytes) : Option (UInt16 × Bytes) :=
  ((readGiven colon text).bind (readNumber 10 none true 65536)).map fun read => (UInt16.ofNat read.1, read.2)

def readScopeId (text : Bytes) : Option (UInt32 × Bytes) :=
  ((readGiven 37 text).bind (readNumber 10 none true 4294967296)).map fun read => (UInt32.ofNat read.1, read.2)

def readSocketV4 (text : Bytes) : Option (SocketAddr × Bytes) :=
  (readIpv4 text).bind fun ip => (readPort ip.2).map fun port => (.v4 ip.1 port.1, port.2)

def readSocketV6 (text : Bytes) : Option (SocketAddr × Bytes) :=
  (readGiven 91 text).bind fun rest => (readIpv6 rest).bind fun ip =>
    let scope := (readScopeId ip.2).getD (0, ip.2)
    (readGiven 93 scope.2).bind fun rest => (readPort rest).map fun port => (.v6 ip.1 port.1 0 scope.1, port.2)

def whole {α : Type} (read : Option (α × Bytes)) : Option α :=
  match read with
  | some (value, []) => some value
  | _ => none

def parseIp (text : String) : Option IpAddr := whole (readIp (asBytes text))

def parseSocket (text : String) : Option SocketAddr :=
  whole ((readSocketV4 (asBytes text)).or (readSocketV6 (asBytes text)))

def isValidLabel (label : Bytes) : Bool :=
  !label.isEmpty && decide (label.length ≤ 63) && label.head?.any isAsciiAlphanumeric &&
    label.getLast?.any isAsciiAlphanumeric && label.all fun b => isAsciiAlphanumeric b || b == dash

def isValidDnsName (text : Bytes) : Bool :=
  let name := if text.getLast? = some dot then text.dropLast else text
  !name.isEmpty && decide (name.length ≤ 253) && ((name.splitOn dot).getLast?.any fun label => label.any isAsciiAlphabetic) &&
    (name.splitOn dot).all isValidLabel

def parseAdvertiseHost (quote : String → String) (text : String) : Except String AdvertiseHost :=
  match parseIp text with
  | some ip => .ok (.ip ip)
  | none =>
      match parseSocket text with
      | some addr => .ok (.ip addr.ip)
      | none =>
          if isValidDnsName (asBytes text) then .ok (.domain text)
          else .error s!"invalid advertise address {quote text}: expected an IP, ip:port, or DNS name"

theorem read_given_iff (given : UInt8) (text rest : Bytes) : readGiven given text = some rest ↔ text = given :: rest := by
  cases text with
  | nil => simp [readGiven]
  | cons b tail => simp [readGiven]

theorem read_digits_split (radix : Nat) (text : Bytes) :
    ∃ taken, text = taken ++ (readDigits radix text).2 ∧ taken.length = (readDigits radix text).1.length ∧
      ∀ b ∈ taken, (toDigit radix b).isSome = true := by
  induction text with
  | nil => exact ⟨[], rfl, rfl, by simp⟩
  | cons b rest ih =>
      obtain ⟨taken, cut, length, digits⟩ := ih
      cases digit : toDigit radix b with
      | none => exact ⟨[], by simp [readDigits, digit], by simp [readDigits, digit], by simp⟩
      | some value =>
          simp only [readDigits, digit]
          refine ⟨b :: taken, by rw [List.cons_append, ← cut], by rw [List.length_cons, List.length_cons, length], ?_⟩
          intro c member
          rcases List.mem_cons.mp member with rfl | later
          · simp [digit]
          · exact digits c later

theorem read_number_split (radix : Nat) (maxDigits : Option Nat) (zeroPrefix : Bool) (bound : Nat) (text rest : Bytes) (value : Nat)
    (read : readNumber radix maxDigits zeroPrefix bound text = some (value, rest)) :
    ∃ b taken, text = b :: (taken ++ rest) ∧ ∀ c ∈ b :: taken, (toDigit radix c).isSome = true := by
  obtain ⟨taken, cut, length, digits⟩ := read_digits_split radix text
  simp only [readNumber, Option.ite_none_left_eq_some, Option.ite_none_right_eq_some, Option.some.injEq, Prod.mk.injEq] at read
  obtain ⟨nonempty, _, _, _, rfl⟩ := read
  cases taken with
  | nil =>
      have nothing : (readDigits radix text).1 = [] := List.length_eq_zero_iff.mp length.symm
      simp [nothing] at nonempty
  | cons b taken => exact ⟨b, taken, cut, digits⟩

theorem to_digit_decimal (b : UInt8) (digit : (toDigit 10 b).isSome = true) : isAsciiDigit b = true := by
  by_contra other
  have upper (low : 97 ≤ b) : ¬ b.toNat - 87 < 10 := by
    have bound := UInt8.le_iff_toNat_le.mp low
    have value : (97 : UInt8).toNat = 97 := rfl
    omega
  have lower (low : 65 ≤ b) : ¬ b.toNat - 55 < 10 := by
    have bound := UInt8.le_iff_toNat_le.mp low
    have value : (65 : UInt8).toNat = 65 := rfl
    omega
  rw [Bool.not_eq_true] at other
  simp only [toDigit, other, Bool.false_eq_true, if_false] at digit
  split at digit
  · rename_i inside
    simp [upper inside.1] at digit
  · split at digit
    · rename_i inside
      simp [lower inside.1] at digit
    · simp at digit

theorem read_octet_split (text rest : Bytes) (octet : UInt8) (read : readOctet text = some (octet, rest)) :
    ∃ b taken, text = b :: (taken ++ rest) ∧ ∀ c ∈ b :: taken, isAsciiDigit c = true := by
  obtain ⟨number, parsed, same⟩ := Option.map_eq_some_iff.mp read
  obtain ⟨rfl, rfl⟩ := Prod.mk.inj same
  obtain ⟨b, taken, cut, digits⟩ := read_number_split 10 (some 3) false 256 text number.2 number.1 parsed
  exact ⟨b, taken, cut, fun c member => to_digit_decimal c (digits c member)⟩

theorem read_ipv4_split (text rest : Bytes) (ip : Ipv4Addr) (read : readIpv4 text = some (ip, rest)) :
    (∃ b tail, text = b :: tail ∧ isAsciiDigit b = true) ∧
    ∃ front b last, text = front ++ dot :: (b :: last ++ rest) ∧ ∀ c ∈ b :: last, isAsciiDigit c = true := by
  simp only [readIpv4, Option.bind_eq_some_iff, Option.map_eq_some_iff, read_given_iff, Prod.mk.injEq] at read
  obtain ⟨a, first, rest1, dot1, b, second, rest2, dot2, c, third, rest3, dot3, d, fourth, _, rfl⟩ := read
  obtain ⟨a0, as, cutA, digitsA⟩ := read_octet_split text a.2 a.1 first
  obtain ⟨b0, bs, cutB, _⟩ := read_octet_split rest1 b.2 b.1 second
  obtain ⟨c0, cs, cutC, _⟩ := read_octet_split rest2 c.2 c.1 third
  obtain ⟨d0, ds, cutD, digitsD⟩ := read_octet_split rest3 d.2 d.1 fourth
  refine ⟨⟨a0, _, cutA, digitsA a0 List.mem_cons_self⟩, ?_⟩
  refine ⟨a0 :: as ++ dot :: (b0 :: bs ++ dot :: (c0 :: cs)), d0, ds, ?_, digitsD⟩
  rw [cutA, dot1, cutB, dot2, cutC, dot3, cutD]
  simp

def isMulticast (ip : IpAddr) : Bool :=
  match ip with
  | .v4 ip => decide (224 ≤ octet ip 0) && decide (octet ip 0 ≤ 239)
  | .v6 ip => ip.octets.toList.head? == some 255

def scopeId (addr : SocketAddr) : UInt32 :=
  match addr with
  | .v4 _ _ => 0
  | .v6 _ _ _ scope => scope

def dnsServer (value : String) : Except String SocketAddr :=
  match ((parseIp value).map fun ip => SocketAddr.new ip 53).or (parseSocket value) with
  | none => .error s!"invalid DNS server: {value}"
  | some address =>
      if scopeId address ≠ 0 then .error "scoped IPv6 DNS servers are not supported"
      else if address.port = 0 ∨ address.ip.isUnspecified ∨ isMulticast address.ip then .error s!"invalid DNS server: {value}"
      else .ok address

-- Collecting stops at the first error.
def deserializeDnsServers (values : List String) : Except String (List SocketAddr) := values.mapM dnsServer

structure Label (label : Bytes) : Prop where
  size : 1 ≤ label.length ∧ label.length ≤ 63
  inner : ∀ b ∈ label, isAsciiAlphanumeric b = true ∨ b = dash
  first : label.head? ≠ some dash
  last : label.getLast? ≠ some dash

structure HostName (labels : List Bytes) : Prop where
  each : ∀ label ∈ labels, Label label
  top : ∃ label, labels.getLast? = some label ∧ ∃ b ∈ label, isAsciiAlphabetic b = true
  size : ([dot].intercalate labels).length ≤ 253

def Names (labels : List Bytes) (text : Bytes) : Prop :=
  text = [dot].intercalate labels ∨ text = [dot].intercalate labels ++ [dot]

theorem dash_not_alphanumeric : isAsciiAlphanumeric dash = false := by decide

theorem dot_not_alphanumeric : isAsciiAlphanumeric dot = false := by decide

theorem valid_label_iff (label : Bytes) : isValidLabel label = true ↔ Label label := by
  have ends (edge : Option UInt8) (nonempty : edge ≠ none) (inner : ∀ b, edge = some b → isAsciiAlphanumeric b = true ∨ b = dash) :
      edge.any isAsciiAlphanumeric = true ↔ edge ≠ some dash := by
    cases edge with
    | none => exact absurd rfl nonempty
    | some b =>
        rcases inner b rfl with letter | rfl
        · have other : b ≠ dash := by
            rintro rfl
            rw [dash_not_alphanumeric] at letter
            cases letter
          simp [letter, other]
        · simp [dash_not_alphanumeric]
  by_cases empty : label = []
  · subst empty
    refine iff_of_false (by simp [isValidLabel]) ?_
    intro valid
    exact absurd valid.size.1 (by simp)
  · have size : 1 ≤ label.length := List.length_pos_iff.mpr empty
    by_cases inner : ∀ b ∈ label, isAsciiAlphanumeric b = true ∨ b = dash
    · have first := ends label.head? (by simpa using empty) fun b head => inner b (List.mem_of_head? head)
      have last := ends label.getLast? (by simpa using empty) fun b last => inner b (List.mem_of_getLast? last)
      have all : (label.all fun b => isAsciiAlphanumeric b || b == dash) = true := by
        simpa [List.all_eq_true] using inner
      have filled : label.isEmpty = false := by simpa using empty
      simp only [isValidLabel, all, filled, Bool.not_false, Bool.true_and, Bool.and_true, Bool.and_eq_true, decide_eq_true_eq,
        first, last]
      constructor
      · intro valid
        exact ⟨⟨size, valid.1.1⟩, inner, valid.1.2, valid.2⟩
      · intro valid
        exact ⟨⟨valid.size.2, valid.first⟩, valid.last⟩
    · refine iff_of_false ?_ fun valid => inner valid.inner
      intro valid
      refine inner ?_
      simp only [isValidLabel, Bool.and_eq_true, List.all_eq_true, Bool.or_eq_true, beq_iff_eq] at valid
      exact valid.2

theorem label_byte (label : Bytes) (valid : Label label) (b : UInt8) (member : b ∈ label) : b ≠ dot ∧ b ≠ colon := by
  rcases valid.inner b member with letter | rfl
  · constructor
    · rintro rfl
      rw [dot_not_alphanumeric] at letter
      cases letter
    · rintro rfl
      exact absurd letter (by decide)
  · exact ⟨by decide, by decide⟩

theorem host_split (labels : List Bytes) (host : HostName labels) : ([dot].intercalate labels).splitOn dot = labels := by
  obtain ⟨label, last, _⟩ := host.top
  refine List.splitOn_intercalate dot ?_ ?_
  · intro other member inside
    exact (label_byte other (host.each other member) dot inside).1 rfl
  · rintro rfl
    cases last

theorem intercalate_ends (labels : List Bytes) (label : Bytes) (last : labels.getLast? = some label) :
    ∃ front, [dot].intercalate labels = front ++ label := by
  induction labels with
  | nil => cases last
  | cons head tail ih =>
      by_cases alone : tail = []
      · subst alone
        cases last
        exact ⟨[], List.intercalate_singleton⟩
      · rw [List.getLast?_cons_of_ne_nil alone] at last
        obtain ⟨front, cut⟩ := ih last
        exact ⟨head ++ [dot] ++ front, by rw [List.intercalate_cons_of_ne_nil alone, cut]; simp⟩

theorem mem_intercalate (labels : List Bytes) (b : UInt8) (member : b ∈ [dot].intercalate labels) :
    b = dot ∨ ∃ label ∈ labels, b ∈ label := by
  induction labels with
  | nil => cases member
  | cons head tail ih =>
      by_cases alone : tail = []
      · subst alone
        rw [List.intercalate_singleton] at member
        exact .inr ⟨head, List.mem_cons_self, member⟩
      · rw [List.intercalate_cons_of_ne_nil alone, List.mem_append, List.mem_append, List.mem_singleton] at member
        rcases member with (inside | here) | later
        · exact .inr ⟨head, List.mem_cons_self, inside⟩
        · exact .inl here
        · rcases ih later with here | ⟨label, known, inside⟩
          · exact .inl here
          · exact .inr ⟨label, List.mem_cons_of_mem _ known, inside⟩

theorem host_last (labels : List Bytes) (host : HostName labels) :
    ∃ front b, [dot].intercalate labels = front ++ [b] ∧ b ≠ dot := by
  obtain ⟨label, last, _⟩ := host.top
  have valid := host.each label (List.mem_of_getLast? last)
  obtain ⟨front, cut⟩ := intercalate_ends labels label last
  obtain ⟨init, b, rfl⟩ := List.eq_nil_or_concat label |>.resolve_left (List.length_pos_iff.mp valid.size.1)
  exact ⟨front ++ init, b, by simp [cut], (label_byte _ valid b (by simp)).1⟩

def bareName (text : Bytes) : Bytes := if text.getLast? = some dot then text.dropLast else text

theorem bare_names (labels : List Bytes) (host : HostName labels) (text : Bytes) (names : Names labels text) :
    bareName text = [dot].intercalate labels := by
  rcases names with rfl | rfl
  · obtain ⟨front, b, cut, other⟩ := host_last labels host
    have kept : ([dot].intercalate labels).getLast? ≠ some dot := by simpa [cut] using other
    rw [bareName, if_neg kept]
  · rw [bareName, if_pos (by simp), List.dropLast_concat]

theorem names_bare (text : Bytes) : Names ((bareName text).splitOn dot) text := by
  rw [Names, List.intercalate_splitOn, bareName]
  by_cases rooted : text.getLast? = some dot
  · obtain ⟨front, rfl⟩ := List.getLast?_eq_some_iff.mp rooted
    rw [if_pos rooted, List.dropLast_concat]
    exact .inr rfl
  · rw [if_neg rooted]
    exact .inl rfl

theorem valid_name_split (text : Bytes) : isValidDnsName text = true ↔ HostName ((bareName text).splitOn dot) := by
  have top : ((bareName text).splitOn dot).getLast?.any (fun label => label.any isAsciiAlphabetic) = true ↔
      ∃ label, ((bareName text).splitOn dot).getLast? = some label ∧ ∃ b ∈ label, isAsciiAlphabetic b = true := by
    simp [Option.any_eq_true, List.any_eq_true]
  have each : ((bareName text).splitOn dot).all isValidLabel = true ↔ ∀ label ∈ (bareName text).splitOn dot, Label label := by
    rw [List.all_eq_true]
    exact forall₂_congr fun label _ => valid_label_iff label
  have shape : isValidDnsName text = (!(bareName text).isEmpty && decide ((bareName text).length ≤ 253) &&
      (((bareName text).splitOn dot).getLast?.any fun label => label.any isAsciiAlphabetic) &&
      ((bareName text).splitOn dot).all isValidLabel) := rfl
  rw [shape, Bool.and_eq_true, Bool.and_eq_true, Bool.and_eq_true, decide_eq_true_eq, top, each]
  constructor
  · intro valid
    exact ⟨valid.2, valid.1.2, by rw [List.intercalate_splitOn]; exact valid.1.1.2⟩
  · intro host
    have size := host.size
    rw [List.intercalate_splitOn] at size
    obtain ⟨front, b, cut, _⟩ := host_last _ host
    rw [List.intercalate_splitOn] at cut
    exact ⟨⟨⟨by simp [cut], size⟩, host.top⟩, host.each⟩

theorem valid_name_iff (text : Bytes) : isValidDnsName text = true ↔ ∃ labels, HostName labels ∧ Names labels text := by
  rw [valid_name_split]
  constructor
  · intro host
    exact ⟨_, host, names_bare text⟩
  · intro named
    obtain ⟨labels, host, names⟩ := named
    rw [bare_names labels host text names, host_split labels host]
    exact host

theorem name_no_colon (text : Bytes) (valid : isValidDnsName text = true) : colon ∉ text := by
  obtain ⟨labels, host, names⟩ := (valid_name_iff text).mp valid
  have joined : colon ∉ [dot].intercalate labels := by
    intro member
    rcases mem_intercalate labels colon member with here | ⟨label, known, inside⟩
    · exact absurd here (by decide)
    · exact (label_byte label (host.each label known) colon inside).2 rfl
  rcases names with rfl | rfl
  · exact joined
  · intro member
    rcases List.mem_append.mp member with inside | here
    · exact joined inside
    · exact absurd (List.mem_singleton.mp here) (by decide)

theorem digit_byte (b : UInt8) (digit : isAsciiDigit b = true) : b ≠ dot ∧ isAsciiAlphabetic b = false ∧ b ≠ 91 := by
  simp only [isAsciiDigit, Bool.and_eq_true, decide_eq_true_eq, UInt8.le_iff_toNat_le] at digit
  have low : (48 : UInt8).toNat = 48 := rfl
  have high : (57 : UInt8).toNat = 57 := rfl
  have upper : (65 : UInt8).toNat = 65 := rfl
  have lower : (97 : UInt8).toNat = 97 := rfl
  refine ⟨?_, ?_, ?_⟩
  · rintro rfl
    exact absurd digit (by decide)
  · simp only [isAsciiAlphabetic, Bool.or_eq_false_iff, Bool.and_eq_false_iff, decide_eq_false_iff_not, UInt8.le_iff_toNat_le]
    omega
  · rintro rfl
    exact absurd digit (by decide)

-- The last label of a dotted address is a number, so it is no name.
theorem dotted_not_name (text : Bytes) (ip : Ipv4Addr) (read : readIpv4 text = some (ip, [])) : isValidDnsName text = false := by
  obtain ⟨_, front, b, last, cut, digits⟩ := read_ipv4_split text [] ip read
  rw [List.append_nil] at cut
  have noDot : dot ∉ b :: last := fun member => (digit_byte dot (digits dot member)).1 rfl
  have bare : bareName text = text := by
    have ends : text.getLast? ≠ some dot := by
      intro rooted
      rw [cut, List.getLast?_append_cons, List.getLast?_cons_cons] at rooted
      exact noDot (List.mem_of_getLast? rooted)
    rw [bareName, if_neg ends]
  have cutEarlier : (bareName text).splitOn dot = front.splitOn dot ++ [b :: last] := by
    rw [bare, cut, List.splitOn_append_cons_self, List.splitOn_eq_singleton noDot]
  by_contra valid
  rw [Bool.not_eq_false, valid_name_split, cutEarlier] at valid
  obtain ⟨label, top, letter, member, alphabetic⟩ := valid.top
  rw [List.getLast?_concat, Option.some.injEq] at top
  subst top
  rw [(digit_byte letter (digits letter member)).2.1] at alphabetic
  cases alphabetic

theorem read_separated_suffix {α : Type} (first : Bool) (text rest : Bytes) (value : α) (read : Bytes → Option (α × Bytes))
    (suffix : ∀ text rest value, read text = some (value, rest) → rest <:+ text)
    (done : readSeparated first text read = some (value, rest)) : rest <:+ text := by
  cases first with
  | true => exact suffix text rest value done
  | false =>
      obtain ⟨tail, given, parsed⟩ := Option.bind_eq_some_iff.mp done
      rw [(read_given_iff colon text tail).mp given]
      exact (suffix tail rest value parsed).trans (List.suffix_cons colon tail)

theorem read_ipv4_suffix (text rest : Bytes) (ip : Ipv4Addr) (read : readIpv4 text = some (ip, rest)) : rest <:+ text := by
  obtain ⟨_, front, b, last, cut, _⟩ := read_ipv4_split text rest ip read
  exact ⟨front ++ dot :: b :: last, by rw [cut]; simp⟩

theorem read_group_suffix (text rest : Bytes) (word : UInt16) (read : readGroup text = some (word, rest)) : rest <:+ text := by
  obtain ⟨number, parsed, same⟩ := Option.map_eq_some_iff.mp read
  obtain ⟨_, rfl⟩ := Prod.mk.inj same
  obtain ⟨b, taken, cut, _⟩ := read_number_split 16 (some 4) true 65536 text number.2 number.1 parsed
  exact ⟨b :: taken, by rw [cut]; simp⟩

theorem read_groups_suffix (limit : Nat) (first : Bool) (text : Bytes) : (readGroups limit first text).rest <:+ text := by
  induction limit generalizing first text with
  | zero => exact List.suffix_refl text
  | succ limit ih =>
      rw [readGroups]
      split
      · rename_i ip found
        rw [Option.ite_none_left_eq_some] at found
        exact read_separated_suffix first text ip.2 ip.1 readIpv4 read_ipv4_suffix found.2
      · split
        · rename_i group found
          exact (ih false group.2).trans (read_separated_suffix first text group.2 group.1 readGroup read_group_suffix found)
        · exact List.suffix_refl text

theorem later_groups_colon (limit : Nat) (text : Bytes) (nonempty : (readGroups limit false text).words ≠ []) : colon ∈ text := by
  have given {α : Type} (read : Bytes → Option (α × Bytes)) (result : α × Bytes)
      (found : readSeparated false text read = some result) : colon ∈ text := by
    obtain ⟨tail, given, _⟩ := Option.bind_eq_some_iff.mp found
    rw [(read_given_iff colon text tail).mp given]
    exact List.mem_cons_self
  cases limit with
  | zero => exact absurd rfl nonempty
  | succ limit =>
      rw [readGroups] at nonempty
      split at nonempty
      · rename_i ip found
        rw [Option.ite_none_left_eq_some] at found
        exact given readIpv4 ip found.2
      · split at nonempty
        · rename_i group found
          exact given readGroup group found
        · exact absurd rfl nonempty

theorem read_ipv6_colon (text rest : Bytes) (ip : Ipv6Addr) (read : readIpv6 text = some (ip, rest)) : colon ∈ text := by
  have suffix := read_groups_suffix 8 true text
  by_cases full : (readGroups 8 true text).words.length = 8
  · rw [readGroups] at full
    split at full
    · simp at full
    · split at full
      · rename_i group found
        have later : (readGroups 7 false group.2).words ≠ [] := by
          intro nothing
          simp [nothing] at full
        have inside := read_group_suffix text group.2 group.1 found
        exact inside.subset (later_groups_colon 7 group.2 later)
      · simp at full
  · simp only [readIpv6, full, if_false, Option.ite_none_left_eq_some, Option.bind_eq_some_iff] at read
    obtain ⟨_, tail, given, _⟩ := read
    refine suffix.subset ?_
    rw [(read_given_iff colon _ tail).mp given]
    exact List.mem_cons_self

theorem whole_some_iff {α : Type} (read : Option (α × Bytes)) (value : α) : whole read = some value ↔ read = some (value, []) := by
  cases read with
  | none => simp [whole]
  | some result =>
      obtain ⟨found, rest⟩ := result
      cases rest <;> simp [whole]

theorem read_port_colon (text rest : Bytes) (port : UInt16) (read : readPort text = some (port, rest)) : colon ∈ text := by
  obtain ⟨number, parsed, _⟩ := Option.map_eq_some_iff.mp read
  obtain ⟨tail, given, _⟩ := Option.bind_eq_some_iff.mp parsed
  rw [(read_given_iff colon text tail).mp given]
  exact List.mem_cons_self

theorem read_socket_colon (text rest : Bytes) (addr : SocketAddr)
    (read : (readSocketV4 text).or (readSocketV6 text) = some (addr, rest)) : colon ∈ text := by
  rcases Option.or_eq_some_iff.mp read with v4 | ⟨_, v6⟩
  · obtain ⟨ip, dotted, parsed⟩ := Option.bind_eq_some_iff.mp v4
    obtain ⟨port, given, _⟩ := Option.map_eq_some_iff.mp parsed
    exact (read_ipv4_suffix text ip.2 ip.1 dotted).subset (read_port_colon ip.2 port.2 port.1 given)
  · obtain ⟨inner, bracket, parsed⟩ := Option.bind_eq_some_iff.mp v6
    obtain ⟨ip, address, _⟩ := Option.bind_eq_some_iff.mp parsed
    rw [(read_given_iff 91 text inner).mp bracket]
    exact List.mem_cons_of_mem _ (read_ipv6_colon inner ip.2 ip.1 address)

theorem bracket_no_ipv4 (text : Bytes) : readIpv4 (91 :: text) = none := by
  by_contra nonempty
  obtain ⟨ip, read⟩ := Option.ne_none_iff_exists'.mp nonempty
  obtain ⟨⟨b, tail, cut, digit⟩, _⟩ := read_ipv4_split (91 :: text) ip.2 ip.1 read
  obtain ⟨rfl, _⟩ := List.cons.inj cut
  exact (digit_byte 91 digit).2.2 rfl

theorem bracket_no_ipv6 (text : Bytes) : readIpv6 (91 :: text) = none := by
  have group : readGroup (91 :: text) = none := rfl
  have groups : readGroups 8 true (91 :: text) = ⟨[], false, 91 :: text⟩ := by
    rw [readGroups]
    simp [readSeparated, bracket_no_ipv4, group]
  have given : readGiven colon (91 :: text) = none := rfl
  simp [readIpv6, groups, given]

theorem ip_not_socket (text : Bytes) (ip : IpAddr) (addr : SocketAddr) (read : readIp text = some (ip, [])) :
    (readSocketV4 text).or (readSocketV6 text) ≠ some (addr, []) := by
  intro socket
  have bracket (inner : Bytes) (cut : text = 91 :: inner) : False := by
    rw [cut, readIp, bracket_no_ipv4, bracket_no_ipv6] at read
    cases read
  rcases Option.or_eq_some_iff.mp socket with v4 | ⟨_, v6⟩
  · obtain ⟨dotted, found, parsed⟩ := Option.bind_eq_some_iff.mp v4
    simp only [readIp, found, Option.some.injEq, Prod.mk.injEq] at read
    rw [read.2] at parsed
    cases parsed
  · obtain ⟨inner, given, _⟩ := Option.bind_eq_some_iff.mp v6
    exact bracket inner ((read_given_iff 91 text inner).mp given)

theorem ip_not_name (text : Bytes) (ip : IpAddr) (read : readIp text = some (ip, [])) : isValidDnsName text = false := by
  cases dotted : readIpv4 text with
  | some v4 =>
      simp only [readIp, dotted, Option.some.injEq, Prod.mk.injEq] at read
      exact dotted_not_name text v4.1 (by rw [dotted, ← read.2])
  | none =>
      simp only [readIp, dotted, Option.map_eq_some_iff, Prod.mk.injEq] at read
      obtain ⟨v6, parsed, _, _⟩ := read
      by_contra valid
      rw [Bool.not_eq_false] at valid
      exact name_no_colon text valid (read_ipv6_colon text v6.2 v6.1 parsed)

theorem socket_not_name (text : Bytes) (addr : SocketAddr)
    (read : (readSocketV4 text).or (readSocketV6 text) = some (addr, [])) : isValidDnsName text = false := by
  by_contra valid
  rw [Bool.not_eq_false] at valid
  exact name_no_colon text valid (read_socket_colon text [] addr read)

theorem socket_no_ip (text : String) (addr : SocketAddr) (literal : parseSocket text = some addr) : parseIp text = none := by
  have socket := (whole_some_iff _ addr).mp literal
  by_contra nonempty
  obtain ⟨ip, parsed⟩ := Option.ne_none_iff_exists'.mp nonempty
  exact ip_not_socket (asBytes text) ip addr ((whole_some_iff _ ip).mp parsed) socket

theorem name_no_ip (text : String) (valid : isValidDnsName (asBytes text) = true) : parseIp text = none := by
  by_contra nonempty
  obtain ⟨ip, parsed⟩ := Option.ne_none_iff_exists'.mp nonempty
  rw [ip_not_name (asBytes text) ip ((whole_some_iff _ ip).mp parsed)] at valid
  cases valid

theorem name_no_socket (text : String) (valid : isValidDnsName (asBytes text) = true) : parseSocket text = none := by
  by_contra nonempty
  obtain ⟨addr, parsed⟩ := Option.ne_none_iff_exists'.mp nonempty
  rw [socket_not_name (asBytes text) addr ((whole_some_iff _ addr).mp parsed)] at valid
  cases valid

-- The order in which the three forms are tried decides nothing: a text has one of them at most.
inductive Form (text : String) : AdvertiseHost → Prop where
  | ip (ip : IpAddr) (literal : parseIp text = some ip) : Form text (.ip ip)
  | socket (addr : SocketAddr) (literal : parseSocket text = some addr) : Form text (.ip addr.ip)
  | domain (labels : List Bytes) (host : HostName labels) (names : Names labels (asBytes text)) : Form text (.domain text)

theorem form_parsed (quote : String → String) (text : String) (host : AdvertiseHost) (form : Form text host) :
    parseAdvertiseHost quote text = .ok host := by
  cases form with
  | ip ip literal => simp [parseAdvertiseHost, literal]
  | socket addr literal =>
      have noIp := socket_no_ip text addr literal
      simp [parseAdvertiseHost, noIp, literal]
  | domain labels host names =>
      have valid := (valid_name_iff (asBytes text)).mpr ⟨labels, host, names⟩
      have noIp := name_no_ip text valid
      have noSocket := name_no_socket text valid
      simp [parseAdvertiseHost, noIp, noSocket, valid]

theorem parsed_form (quote : String → String) (text : String) (host : AdvertiseHost)
    (parsed : parseAdvertiseHost quote text = .ok host) : Form text host := by
  rw [parseAdvertiseHost] at parsed
  split at parsed
  · rename_i ip literal
    cases parsed
    exact .ip ip literal
  · split at parsed
    · rename_i addr literal
      cases parsed
      exact .socket addr literal
    · split at parsed
      · rename_i valid
        cases parsed
        obtain ⟨labels, host, names⟩ := (valid_name_iff (asBytes text)).mp valid
        exact .domain labels host names
      · cases parsed

theorem parse_failed (quote : String → String) (text error : String) (failed : parseAdvertiseHost quote text = .error error) :
    error = s!"invalid advertise address {quote text}: expected an IP, ip:port, or DNS name" := by
  rw [parseAdvertiseHost] at failed
  split at failed
  · cases failed
  · split at failed
    · cases failed
    · split at failed
      · cases failed
      · exact (Except.error.inj failed).symm

-- What is accepted is one of three grammatical forms, and every text of such a form is accepted.
theorem advertise_host_exact (quote : String → String) (text : String) :
    (∀ host, parseAdvertiseHost quote text = .ok host ↔ Form text host) ∧
    (∀ error, parseAdvertiseHost quote text = .error error ↔
      error = s!"invalid advertise address {quote text}: expected an IP, ip:port, or DNS name" ∧ ∀ host, ¬ Form text host) ∧
    (∀ host other, Form text host → Form text other → host = other) := by
  refine ⟨fun host => ⟨parsed_form quote text host, form_parsed quote text host⟩, ?_, ?_⟩
  · intro error
    constructor
    · intro failed
      refine ⟨parse_failed quote text error failed, ?_⟩
      intro host form
      rw [form_parsed quote text host form] at failed
      cases failed
    · intro failed
      obtain ⟨rfl, nothing⟩ := failed
      cases parsed : parseAdvertiseHost quote text with
      | ok host => exact absurd (parsed_form quote text host parsed) (nothing host)
      | error error => rw [parse_failed quote text error parsed]
  · intro host other first second
    have same := form_parsed quote text host first
    rw [form_parsed quote text other second] at same
    exact (Except.ok.inj same).symm

-- A plain address stands for port 53.
inductive Literal (value : String) : SocketAddr → Prop where
  | ip (ip : IpAddr) (literal : parseIp value = some ip) : Literal value (SocketAddr.new ip 53)
  | socket (addr : SocketAddr) (literal : parseSocket value = some addr) : Literal value addr

structure Server (value : String) (addr : SocketAddr) : Prop where
  literal : Literal value addr
  scope : scopeId addr = 0
  port : addr.port ≠ 0
  unicast : addr.ip.isUnspecified = false ∧ isMulticast addr.ip = false

theorem literal_iff (value : String) (addr : SocketAddr) :
    ((parseIp value).map fun ip => SocketAddr.new ip 53).or (parseSocket value) = some addr ↔ Literal value addr := by
  constructor
  · intro found
    rcases Option.or_eq_some_iff.mp found with plain | ⟨_, socket⟩
    · obtain ⟨ip, literal, rfl⟩ := Option.map_eq_some_iff.mp plain
      exact .ip ip literal
    · exact .socket addr socket
  · intro literal
    cases literal with
    | ip ip literal => simp [literal]
    | socket addr literal =>
        have noIp := socket_no_ip value addr literal
        simp [noIp, literal]

theorem dns_server_iff (value : String) (addr : SocketAddr) : dnsServer value = .ok addr ↔ Server value addr := by
  have server : Server value addr ↔ Literal value addr ∧ scopeId addr = 0 ∧
      ¬ (addr.port = 0 ∨ addr.ip.isUnspecified = true ∨ isMulticast addr.ip = true) := by
    simp only [not_or, Bool.not_eq_true]
    exact ⟨fun s => ⟨s.literal, s.scope, s.port, s.unicast⟩, fun s => ⟨s.1, s.2.1, s.2.2.1, s.2.2.2⟩⟩
  rw [server, ← literal_iff, dnsServer]
  cases found : ((parseIp value).map fun ip => SocketAddr.new ip 53).or (parseSocket value) with
  | none => simp
  | some address =>
      by_cases global : scopeId address = 0
      · by_cases unfit : address.port = 0 ∨ address.ip.isUnspecified = true ∨ isMulticast address.ip = true
        · simp only [global, ne_eq, not_true, if_false, unfit, if_true, reduceCtorEq, Option.some.injEq, false_iff]
          rintro ⟨rfl, _, fit⟩
          exact fit unfit
        · simp only [global, ne_eq, not_true, if_false, unfit, Except.ok.injEq, Option.some.injEq]
          constructor
          · rintro rfl
            exact ⟨rfl, global, unfit⟩
          · intro fit
            exact fit.1
      · simp only [ne_eq, global, not_false_iff, if_true, reduceCtorEq, Option.some.injEq, false_iff]
        rintro ⟨rfl, zero, _⟩
        exact global zero

theorem dns_servers_exact (values : List String) (addrs : List SocketAddr) :
    deserializeDnsServers values = .ok addrs ↔ List.Forall₂ Server values addrs := by
  induction values generalizing addrs with
  | nil =>
      have nothing : deserializeDnsServers [] = .ok [] := rfl
      rw [nothing, Except.ok.injEq, List.forall₂_nil_left_iff, eq_comm]
  | cons value values ih =>
      have collected : deserializeDnsServers (value :: values) =
          dnsServer value >>= fun addr => deserializeDnsServers values >>= fun rest => .ok (addr :: rest) := List.mapM_cons
      rw [collected, List.forall₂_cons_left_iff]
      constructor
      · intro done
        cases first : dnsServer value with
        | error error =>
            rw [first] at done
            cases done
        | ok addr =>
            cases later : deserializeDnsServers values with
            | error error =>
                rw [first, later] at done
                cases done
            | ok rest =>
                rw [first, later] at done
                exact ⟨addr, rest, (dns_server_iff value addr).mp first, (ih rest).mp later, (Except.ok.inj done).symm⟩
      · intro servers
        obtain ⟨addr, rest, server, others, rfl⟩ := servers
        rw [(dns_server_iff value addr).mpr server, (ih rest).mpr others]
        rfl

end Hosts

end NextSocks5
