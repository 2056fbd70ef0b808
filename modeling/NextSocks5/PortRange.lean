import NextSocks5.Config

set_option autoImplicit false

namespace NextSocks5

def splitOnce (separator : Char) : List Char → Option (List Char × List Char)
  | [] => none
  | c :: rest =>
      if c = separator then some ([], rest)
      else (splitOnce separator rest).map fun (before, after) => (c :: before, after)

def isWhitespace (c : Char) : Bool :=
  let n := c.toNat
  (decide (0x09 ≤ n) && decide (n ≤ 0x0d)) || n == 0x20 || n == 0x85 || n == 0xa0 || n == 0x1680 ||
    (decide (0x2000 ≤ n) && decide (n ≤ 0x200a)) || n == 0x2028 || n == 0x2029 || n == 0x202f || n == 0x205f || n == 0x3000

def trim (text : List Char) : List Char := ((text.dropWhile isWhitespace).reverse.dropWhile isWhitespace).reverse

def parseDigits : List Char → Nat → Option Nat
  | [], value => some value
  | c :: rest, value =>
      if '0' ≤ c ∧ c ≤ '9' then
        let next := value * 10 + (c.toNat - '0'.toNat)
        if next < UInt16.size then parseDigits rest next else none
      else none

-- A plus sign may precede the digits, a minus sign may not.
def parseU16 (text : List Char) : Option UInt16 :=
  match text with
  | [] => none
  | ['+'] => none
  | '+' :: digits => (parseDigits digits 0).map UInt16.ofNat
  | digits => (parseDigits digits 0).map UInt16.ofNat

-- `quote` is the escaping of the format specifier for debugging.
def PortRange.parse (quote : String → String) (text : String) : Except String PortRange :=
  match splitOnce '-' text.toList with
  | none => .error s!"expected 'start-end', got {quote text}"
  | some (before, after) =>
      match parseU16 (trim before) with
      | none => .error s!"invalid start port {quote (String.ofList before)}"
      | some start =>
          match parseU16 (trim after) with
          | none => .error s!"invalid end port {quote (String.ofList after)}"
          | some last =>
              if start = 0 then .error "start port must be >= 1"
              else if start > last then .error s!"start {start} must be <= end {last}"
              else .ok ⟨start, last⟩

def PortRange.width (range : PortRange) : Nat := range.last.toNat - range.start.toNat + 1

def PortRange.Contains (range : PortRange) (port : UInt16) : Prop := range.start ≤ port ∧ port ≤ range.last

structure PortRange.Valid (range : PortRange) : Prop where
  positive : 1 ≤ range.start
  ordered : range.start ≤ range.last

theorem parse_valid (quote : String → String) (text : String) (range : PortRange)
    (parsed : PortRange.parse quote text = .ok range) : range.Valid := by
  rw [PortRange.parse] at parsed
  split at parsed
  · cases parsed
  · split at parsed
    · cases parsed
    · split at parsed
      · cases parsed
      · split at parsed
        · cases parsed
        · rename_i nonzero
          split at parsed
          · cases parsed
          · rename_i ordered
            cases parsed
            refine ⟨?_, UInt16.not_lt.mp ordered⟩
            rw [UInt16.le_iff_toNat_le]
            exact Nat.one_le_iff_ne_zero.mpr fun zero => nonzero (UInt16.toNat_inj.mp zero)

example : PortRange.parse id "40000-40100" = .ok ⟨40000, 40100⟩ := by decide

end NextSocks5
