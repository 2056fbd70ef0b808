import NextSocks5.Library.Rotation
import NextSocks5.PortRange
import NextSocks5.Server.Associate

set_option autoImplicit false

namespace NextSocks5

namespace Udp

open Rotation

def tried {α : Type} (bind : UInt16 → Except IoError α) : List UInt16 → List UInt16
  | [] => []
  | port :: ports =>
      match bind port with
      | .ok _ => [port]
      | .error error =>
          match error.kind with
          | .addrInUse | .permissionDenied => port :: tried bind ports
          | _ => [port]

def Skipped (error : IoError) : Prop := error.kind = .addrInUse ∨ error.kind = .permissionDenied

-- Ports are available, taken or privileged, and nothing else goes wrong.
def PortsOnly {α : Type} (bind : UInt16 → Except IoError α) : Prop := ∀ port error, bind port = .error error → Skipped error

structure ScanExact (range : PortRange) (cursor : UInt32) : Prop where
  width : (range.last.toNat - range.start.toNat) + 1 < UInt32.size
  cast : ∀ i < range.width, ((cursor.toNat + i) % UInt32.size) % range.width < UInt16.size
  add : ∀ i < range.width, range.start.toNat + ((cursor.toNat + i) % UInt32.size) % range.width < UInt16.size

-- One scan of the range, at this cursor and with these ports taken.
structure Covers {α : Type} (range : PortRange) (cursor : UInt32) (bind : UInt16 → Except IoError α) : Prop where
  arithmetic : ScanExact range cursor
  inside : ∀ port ∈ tried bind (candidates range cursor), range.Contains port
  once : (tried bind (candidates range cursor)).Nodup
  binds : (∃ port sock, range.Contains port ∧ bind port = .ok sock) →
    ∃ port sock, range.Contains port ∧ bind port = .ok sock ∧ bindWithRetry bind (some range) cursor = .ok sock
  exhausted : ∀ error, bindWithRetry bind (some range) cursor = .error error →
    ∀ port, range.Contains port → ∃ refused, bind port = .error refused

def SeamFree (range : PortRange) (cursor : UInt32) : Prop :=
  cursor.toNat + range.width ≤ UInt32.size ∨ range.width ∣ UInt32.size

def candidate (range : PortRange) (cursor : UInt32) (i : Nat) : UInt16 :=
  UInt16.ofNat (range.start.toNat + (cursor.toNat + i) % UInt32.size % range.width)

-- One of the first ports of the scan, before one comes up again, is available.
def FreeBeforeSeam {α : Type} (range : PortRange) (cursor : UInt32) (bind : UInt16 → Except IoError α) : Prop :=
  ∃ i < max (UInt32.size - cursor.toNat) (UInt32.size % range.width), ∃ sock, bind (candidate range cursor i) = .ok sock

theorem width_nat (range : PortRange) (valid : range.Valid) :
    ((range.last - range.start).toUInt32 + 1).toNat = range.width := by
  have last := range.last.toNat_lt
  have ordered := UInt16.le_iff_toNat_le.mp valid.ordered
  rw [PortRange.width, UInt32.toNat_add, UInt16.toNat_toUInt32, UInt16.toNat_sub_of_le _ _ valid.ordered]
  have one : (1 : UInt32).toNat = 1 := rfl
  omega

theorem width_bounds (range : PortRange) (valid : range.Valid) :
    0 < range.width ∧ range.start.toNat + range.width = range.last.toNat + 1 ∧ range.last.toNat < UInt16.size ∧
      range.width ≤ UInt32.size := by
  have last : range.last.toNat < UInt16.size := range.last.toNat_lt
  have ordered := UInt16.le_iff_toNat_le.mp valid.ordered
  have small : UInt16.size < UInt32.size := by decide
  rw [PortRange.width]
  omega

theorem scan_exact (range : PortRange) (valid : range.Valid) (cursor : UInt32) : ScanExact range cursor := by
  obtain ⟨positive, ends, last, fits⟩ := width_bounds range valid
  have small : UInt16.size < UInt32.size := by decide
  have below (i : Nat) : ((cursor.toNat + i) % UInt32.size) % range.width < range.width := Nat.mod_lt _ positive
  refine ⟨?_, ?_, ?_⟩
  · omega
  · intro i _
    have bound := below i
    omega
  · intro i _
    have bound := below i
    omega

-- The wrapping machine arithmetic is the rotation of the offsets.
theorem candidates_map (range : PortRange) (valid : range.Valid) (cursor : UInt32) :
    candidates range cursor = (List.range range.width).map (candidate range cursor) := by
  have width := width_nat range valid
  obtain ⟨positive, ends, last, fits⟩ := width_bounds range valid
  simp only [candidates, width]
  apply List.map_congr_left
  intro i inside
  rw [List.mem_range] at inside
  have small : i < UInt32.size := by
    have less : UInt16.size < UInt32.size := by decide
    omega
  have offsetIs : (((cursor + UInt32.ofNat i) % ((range.last - range.start).toUInt32 + 1)).toUInt16).toNat =
      (cursor.toNat + i) % UInt32.size % range.width := by
    have bound : (cursor.toNat + i) % 2 ^ 32 % range.width < range.width := Nat.mod_lt _ positive
    have size : UInt16.size = 2 ^ 16 := rfl
    rw [UInt32.toNat_toUInt16, UInt32.toNat_mod, width, UInt32.toNat_add, UInt32.toNat_ofNat_of_lt' small]
    exact Nat.mod_eq_of_lt (by omega)
  apply UInt16.toNat_inj.mp
  rw [UInt16.toNat_add, offsetIs, candidate, UInt16.toNat_ofNat']

theorem candidate_nat (range : PortRange) (valid : range.Valid) (cursor : UInt32) (i : Nat) :
    (candidate range cursor i).toNat = range.start.toNat + offset UInt32.size range.width cursor.toNat i := by
  obtain ⟨positive, ends, last, fits⟩ := width_bounds range valid
  have bound := offset_lt UInt32.size range.width cursor.toNat i positive
  rw [candidate, offset, UInt16.toNat_ofNat_of_lt']
  rw [offset] at bound
  omega

theorem candidate_eq_iff (range : PortRange) (valid : range.Valid) (cursor : UInt32) (i j : Nat) :
    candidate range cursor i = candidate range cursor j ↔
      offset UInt32.size range.width cursor.toNat i = offset UInt32.size range.width cursor.toNat j := by
  rw [← UInt16.toNat_inj, candidate_nat range valid, candidate_nat range valid, Nat.add_left_cancel_iff]

theorem candidates_inside (range : PortRange) (valid : range.Valid) (cursor : UInt32) (port : UInt16)
    (member : port ∈ candidates range cursor) : range.Contains port := by
  obtain ⟨positive, ends, last, fits⟩ := width_bounds range valid
  rw [candidates_map range valid, List.mem_map] at member
  obtain ⟨i, _, rfl⟩ := member
  have bound := offset_lt UInt32.size range.width cursor.toNat i positive
  rw [PortRange.Contains, UInt16.le_iff_toNat_le, UInt16.le_iff_toNat_le, candidate_nat range valid]
  omega

theorem candidates_nodup (range : PortRange) (valid : range.Valid) (cursor : UInt32) (even : SeamFree range cursor) :
    (candidates range cursor).Nodup := by
  have nodup := scan_nodup UInt32.size range.width cursor.toNat even
  rw [scan, List.nodup_map_iff_inj_on List.nodup_range] at nodup
  rw [candidates_map range valid, List.nodup_map_iff_inj_on List.nodup_range]
  intro i first j second same
  exact nodup i first j second ((candidate_eq_iff range valid cursor i j).mp same)

theorem candidates_all (range : PortRange) (valid : range.Valid) (cursor : UInt32) (even : SeamFree range cursor) (port : UInt16)
    (contains : range.Contains port) : port ∈ candidates range cursor := by
  obtain ⟨positive, ends, last, fits⟩ := width_bounds range valid
  have nodup := scan_nodup UInt32.size range.width cursor.toNat even
  have low := UInt16.le_iff_toNat_le.mp contains.1
  have high := UInt16.le_iff_toNat_le.mp contains.2
  have offsetIs : port.toNat - range.start.toNat ∈ scan UInt32.size range.width cursor.toNat := by
    rw [(scan_perm _ _ _ positive nodup).mem_iff, List.mem_range, PortRange.width]
    omega
  obtain ⟨i, inside, same⟩ := List.mem_map.mp offsetIs
  rw [candidates_map range valid, List.mem_map]
  refine ⟨i, inside, ?_⟩
  rw [← UInt16.toNat_inj, candidate_nat range valid, same]
  exact Nat.add_sub_cancel' low

theorem tried_sublist {α : Type} (bind : UInt16 → Except IoError α) (ports : List UInt16) : (tried bind ports).Sublist ports := by
  induction ports with
  | nil => exact .slnil
  | cons port ports ih =>
      have single : [port].Sublist (port :: ports) := (List.nil_sublist ports).cons_cons port
      rw [tried]
      split
      · exact single
      · split
        · exact ih.cons_cons port
        · exact ih.cons_cons port
        · exact single

theorem skip_cons {α : Type} (bind : UInt16 → Except IoError α) (port : UInt16) (ports : List UInt16) (error : IoError)
    (refused : bind port = .error error) (skipped : Skipped error) :
    tried bind (port :: ports) = port :: tried bind ports ∧ tryPorts bind (port :: ports) = tryPorts bind ports := by
  rcases skipped with kind | kind <;> simp [tried, tryPorts, refused, kind]

theorem tried_taken {α : Type} (bind : UInt16 → Except IoError α) (only : PortsOnly bind) (first rest : List UInt16)
    (taken : ∀ port ∈ first, ∃ error, bind port = .error error) : tried bind (first ++ rest) = first ++ tried bind rest := by
  induction first with
  | nil => rfl
  | cons port ports ih =>
      obtain ⟨error, refused⟩ := taken port List.mem_cons_self
      rw [List.cons_append, (skip_cons bind port (ports ++ rest) error refused (only port error refused)).1,
        ih fun other member => taken other (List.mem_cons_of_mem _ member), List.cons_append]

theorem tried_available {α : Type} (bind : UInt16 → Except IoError α) (only : PortsOnly bind) (first rest : List UInt16)
    (available : ∃ port ∈ first, ∃ sock, bind port = .ok sock) : tried bind (first ++ rest) = tried bind first := by
  induction first with
  | nil => simp at available
  | cons port ports ih =>
      cases answer : bind port with
      | ok sock => simp [tried, answer]
      | error error =>
          have skipped := only port error answer
          have later : ∃ other ∈ ports, ∃ sock, bind other = .ok sock := by
            obtain ⟨other, member, sock, bound⟩ := available
            rcases List.mem_cons.mp member with rfl | inside
            · rw [answer] at bound
              cases bound
            · exact ⟨other, inside, sock, bound⟩
          rw [List.cons_append, (skip_cons bind port (ports ++ rest) error answer skipped).1,
            (skip_cons bind port ports error answer skipped).1, ih later]

theorem try_ports_cases {α : Type} (bind : UInt16 → Except IoError α) (only : PortsOnly bind) (ports : List UInt16) :
    (∃ port ∈ ports, ∃ sock, bind port = .ok sock ∧ tryPorts bind ports = .ok sock) ∨
    ((∀ port ∈ ports, ∃ error, bind port = .error error) ∧
      tryPorts bind ports = .error ⟨.addrInUse, "udp_port_range exhausted"⟩) := by
  induction ports with
  | nil => exact .inr ⟨by simp, rfl⟩
  | cons port ports ih =>
      cases answer : bind port with
      | ok sock => exact .inl ⟨port, List.mem_cons_self, sock, answer, by simp [tryPorts, answer]⟩
      | error error =>
          rw [(skip_cons bind port ports error answer (only port error answer)).2]
          rcases ih with ⟨other, member, sock, bound, result⟩ | ⟨taken, result⟩
          · exact .inl ⟨other, List.mem_cons_of_mem _ member, sock, bound, result⟩
          · refine .inr ⟨?_, result⟩
            intro other member
            rcases List.mem_cons.mp member with rfl | later
            · exact ⟨error, answer⟩
            · exact taken other later

theorem covers_of_once {α : Type} (range : PortRange) (valid : range.Valid) (cursor : UInt32) (bind : UInt16 → Except IoError α)
    (only : PortsOnly bind) (once : (tried bind (candidates range cursor)).Nodup)
    (finds : (∃ port sock, range.Contains port ∧ bind port = .ok sock) → ∃ port ∈ candidates range cursor, ∃ sock, bind port = .ok sock) :
    Covers range cursor bind where
  arithmetic := scan_exact range valid cursor
  inside := by
    intro port member
    exact candidates_inside range valid cursor port ((tried_sublist bind _).subset member)
  once := once
  binds := by
    intro available
    obtain ⟨port, member, sock, bound⟩ := finds available
    rcases try_ports_cases bind only (candidates range cursor) with ⟨found, present, answer, took, result⟩ | ⟨taken, _⟩
    · exact ⟨found, answer, candidates_inside range valid cursor found present, took, result⟩
    · obtain ⟨error, refused⟩ := taken port member
      rw [bound] at refused
      cases refused
  exhausted := by
    intro error failed port contains
    rcases try_ports_cases bind only (candidates range cursor) with ⟨_, _, sock, _, result⟩ | ⟨taken, _⟩
    · rw [bindWithRetry, result] at failed
      cases failed
    · cases answer : bind port with
      | error refused => exact ⟨refused, rfl⟩
      | ok sock =>
          obtain ⟨other, member, more, bound⟩ := finds ⟨port, sock, contains, answer⟩
          obtain ⟨refused, denied⟩ := taken other member
          rw [bound] at denied
          cases denied

theorem covers_of_seam_free {α : Type} (range : PortRange) (valid : range.Valid) (cursor : UInt32) (bind : UInt16 → Except IoError α)
    (only : PortsOnly bind) (even : SeamFree range cursor) : Covers range cursor bind := by
  have once := (candidates_nodup range valid cursor even).sublist (tried_sublist bind _)
  refine covers_of_once range valid cursor bind only once ?_
  rintro ⟨port, sock, contains, available⟩
  exact ⟨port, candidates_all range valid cursor even port contains, sock, available⟩

theorem candidates_cut (range : PortRange) (valid : range.Valid) (cursor : UInt32) (count : Nat) (fits : count ≤ range.width) :
    candidates range cursor = (List.range count).map (candidate range cursor) ++
      (List.range (range.width - count)).map (fun i => candidate range cursor (count + i)) := by
  obtain ⟨rest, split⟩ := Nat.exists_eq_add_of_le fits
  rw [candidates_map range valid, split, List.range_add, List.map_append, List.map_map, Nat.add_sub_cancel_left]
  rfl

theorem covers_of_free {α : Type} (range : PortRange) (valid : range.Valid) (cursor : UInt32) (bind : UInt16 → Except IoError α)
    (only : PortsOnly bind) (wraps : UInt32.size < cursor.toNat + range.width) (available : FreeBeforeSeam range cursor bind) :
    Covers range cursor bind := by
  obtain ⟨positive, ends, last, fits⟩ := width_bounds range valid
  have short := seam_lt UInt32.size range.width cursor.toNat cursor.toNat_lt wraps
  have cut := candidates_cut range valid cursor (seam UInt32.size range.width cursor.toNat) (Nat.le_of_lt short)
  have nodup : ((List.range (seam UInt32.size range.width cursor.toNat)).map (candidate range cursor)).Nodup := by
    rw [List.nodup_map_iff_inj_on List.nodup_range]
    intro i first j second same
    rw [List.mem_range] at first second
    exact before_seam_injective UInt32.size range.width cursor.toNat i j cursor.toNat_lt fits wraps first second
      ((candidate_eq_iff range valid cursor i j).mp same)
  obtain ⟨i, early, sock, bound⟩ := available
  have found : ∃ port ∈ (List.range (seam UInt32.size range.width cursor.toNat)).map (candidate range cursor),
      ∃ sock, bind port = .ok sock :=
    ⟨_, List.mem_map_of_mem (List.mem_range.mpr early), sock, bound⟩
  refine covers_of_once range valid cursor bind only ?_ ?_
  · rw [cut, tried_available bind only _ _ found]
    exact nodup.sublist (tried_sublist bind _)
  · intro _
    obtain ⟨port, member, more, took⟩ := found
    exact ⟨port, by rw [cut]; exact List.mem_append_left _ member, more, took⟩

-- With every port before the seam taken, the scan comes back to one of them.
theorem seam_tried_twice {α : Type} (range : PortRange) (valid : range.Valid) (cursor : UInt32) (bind : UInt16 → Except IoError α)
    (only : PortsOnly bind) (uneven : ¬ SeamFree range cursor) (taken : ¬ FreeBeforeSeam range cursor bind) :
    ¬ (tried bind (candidates range cursor)).Nodup := by
  intro once
  obtain ⟨positive, ends, last, fits⟩ := width_bounds range valid
  obtain ⟨late, undivided⟩ := not_or.mp uneven
  have wraps : UInt32.size < cursor.toNat + range.width := by omega
  have short := seam_lt UInt32.size range.width cursor.toNat cursor.toNat_lt wraps
  obtain ⟨i, early, again⟩ := seam_repeats UInt32.size range.width cursor.toNat cursor.toNat_lt fits wraps undivided
  have refused (j : Nat) (before : j < seam UInt32.size range.width cursor.toNat) : ∃ error, bind (candidate range cursor j) = .error error := by
    cases answer : bind (candidate range cursor j) with
    | error error => exact ⟨error, rfl⟩
    | ok sock => exact absurd ⟨j, before, sock, answer⟩ taken
  have cut := candidates_cut range valid cursor (seam UInt32.size range.width cursor.toNat + 1) short
  have denied : ∀ port ∈ (List.range (seam UInt32.size range.width cursor.toNat + 1)).map (candidate range cursor),
      ∃ error, bind port = .error error := by
    intro port member
    obtain ⟨j, inside, rfl⟩ := List.mem_map.mp member
    by_cases before : j < seam UInt32.size range.width cursor.toNat
    · exact refused j before
    · have here : j = seam UInt32.size range.width cursor.toNat := by
        rw [List.mem_range] at inside
        omega
      rw [here, ← (candidate_eq_iff range valid cursor i _).mpr again]
      exact refused i early
  rw [cut, tried_taken bind only _ _ denied] at once
  have first := List.Nodup.of_append_left once
  rw [List.nodup_map_iff_inj_on List.nodup_range] at first
  have same := first i (List.mem_range.mpr (by omega)) _ (List.mem_range.mpr (Nat.lt_succ_self _))
    ((candidate_eq_iff range valid cursor i _).mpr again)
  omega

-- The scan is as it should be exactly when the cursor does not wrap inside it, or the width of the
-- range divides 2^32, or a port is available among those looked at before one comes up again.
theorem port_scan_covers_iff {α : Type} (quote : String → String) (text : String) (range : PortRange) (cursor : UInt32)
    (bind : UInt16 → Except IoError α) (parsed : PortRange.parse quote text = .ok range) (only : PortsOnly bind) :
    Covers range cursor bind ↔ SeamFree range cursor ∨ FreeBeforeSeam range cursor bind := by
  have valid := parse_valid quote text range parsed
  constructor
  · intro covers
    by_contra neither
    obtain ⟨uneven, taken⟩ := not_or.mp neither
    exact seam_tried_twice range valid cursor bind only uneven taken covers.once
  · intro condition
    by_cases even : SeamFree range cursor
    · exact covers_of_seam_free range valid cursor bind only even
    · have wraps : UInt32.size < cursor.toNat + range.width := Nat.lt_of_not_le (not_or.mp even).1
      exact covers_of_free range valid cursor bind only wraps (condition.resolve_left even)

def onlyAt (free port : UInt16) : Except IoError Unit :=
  if port = free then .ok () else .error ⟨.addrInUse, "Address already in use"⟩

theorem only_at_ports (free : UInt16) : PortsOnly (onlyAt free) := by
  intro port error refused
  rw [onlyAt] at refused
  split at refused <;> cases refused
  exact .inl rfl

theorem port_scan_covers_three :
    Covers ⟨40000, 40002⟩ 7 (onlyAt 40002) ∧ Covers ⟨40000, 40002⟩ 4294967295 (onlyAt 40000) := by
  refine ⟨?_, ?_⟩
  · exact (port_scan_covers_iff id "40000-40002" ⟨40000, 40002⟩ 7 _ (by decide) (only_at_ports 40002)).mpr (.inl (.inl (by decide)))
  · exact (port_scan_covers_iff id "40000-40002" ⟨40000, 40002⟩ 4294967295 _ (by decide) (only_at_ports 40000)).mpr
      (.inr ⟨0, by decide, (), by decide⟩)

-- At the wrap the scan of three ports tries the first one twice and the last one never.
theorem port_scan_misses : ¬ ∀ quote text range cursor (bind : UInt16 → Except IoError Unit),
    PortRange.parse quote text = .ok range → PortsOnly bind → Covers range cursor bind := by
  intro always
  have covers := always id "40000-40002" ⟨40000, 40002⟩ 4294967295 (onlyAt 40002) (by decide) (only_at_ports 40002)
  have failed : bindWithRetry (onlyAt 40002) (some ⟨40000, 40002⟩) 4294967295 = .error ⟨.addrInUse, "udp_port_range exhausted"⟩ := by
    decide
  obtain ⟨refused, taken⟩ := covers.exhausted _ failed 40002 ⟨by decide, by decide⟩
  cases taken

end Udp

end NextSocks5
