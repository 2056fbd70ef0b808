import NextSocks5.Library.Machine
import NextSocks5.Library.Tally
import NextSocks5.Net

set_option autoImplicit false

namespace NextSocks5

structure Admission where
  maxTotal : Option Nat
  maxPerIp : Option Nat
deriving DecidableEq, Repr

structure Permit where
  ip : IpAddr
deriving DecidableEq, Repr

namespace Admission

structure State where
  total : Nat
  perIp : AList (fun _ : IpAddr => Nat)

def full (bound : Option Nat) (count : Nat) : Bool :=
  match bound with
  | some max => decide (max ≤ count)
  | none => false

def tryAdmit (a : Admission) (st : State) (ip : IpAddr) : State × Option Permit :=
  if full a.maxTotal st.total then (st, none)
  else if full a.maxPerIp ((st.perIp.lookup ip).getD 0) then (st, none)
  else (⟨st.total + 1, st.perIp.insert ip ((st.perIp.lookup ip).getD 0 + 1)⟩, some ⟨ip⟩)

-- Drop of a permit. Subtraction on Nat saturates, as the source asks for the
-- total; for the entry it would hide an underflow.
def release (st : State) (permit : Permit) : State where
  total := st.total - 1
  perIp :=
    match st.perIp.lookup permit.ip with
    | some c => if c - 1 = 0 then st.perIp.erase permit.ip else st.perIp.insert permit.ip (c - 1)
    | none => st.perIp

structure Held where
  state : State
  live : List Permit

inductive Call where
  | tryAdmit (ip : IpAddr)
  | drop (permit : Permit)
deriving DecidableEq, Repr

def machine (a : Admission) : Machine Held Call (Option Permit) where
  step h call :=
    match call with
    | .tryAdmit ip =>
        let (state, permit) := a.tryAdmit h.state ip
        some (⟨state, permit.toList ++ h.live⟩, [permit])
    | .drop permit => if permit ∈ h.live then some (⟨release h.state permit, h.live.erase permit⟩, []) else none

def start : Held := ⟨⟨0, ∅⟩, []⟩

def Within (bound : Option Nat) (count : Nat) : Prop := ∀ max, bound = some max → count ≤ max

def Room (bound : Option Nat) (count : Nat) : Prop := ∀ max, bound = some max → count < max

theorem full_room (bound : Option Nat) (count : Nat) : full bound count = false ↔ Room bound count := by
  cases bound <;> simp [full, Room]

def held (live : List Permit) : List IpAddr := live.map Permit.ip

theorem held_erase (live : List Permit) (permit : Permit) : held (live.erase permit) = (held live).erase permit.ip := by
  have injective : Function.Injective Permit.ip := by
    rintro ⟨a⟩ ⟨b⟩ same
    exact congrArg Permit.mk same
  exact List.map_erase injective live

structure Exact (a : Admission) (h : Held) : Prop where
  counts : Tally.Counts (held h.live) h.state.total h.state.perIp
  total : Within a.maxTotal h.state.total
  perIp : ∀ ip, Within a.maxPerIp ((held h.live).count ip)

theorem try_admit_cases (a : Admission) (st : State) (ip : IpAddr) :
    (Room a.maxTotal st.total ∧ Room a.maxPerIp ((st.perIp.lookup ip).getD 0) ∧
      a.tryAdmit st ip = (⟨st.total + 1, st.perIp.insert ip ((st.perIp.lookup ip).getD 0 + 1)⟩, some ⟨ip⟩)) ∨
    (¬ (Room a.maxTotal st.total ∧ Room a.maxPerIp ((st.perIp.lookup ip).getD 0)) ∧ a.tryAdmit st ip = (st, none)) := by
  rw [← full_room, ← full_room, tryAdmit]
  cases full a.maxTotal st.total <;> cases full a.maxPerIp ((st.perIp.lookup ip).getD 0) <;> simp

theorem admit_exact (a : Admission) (h : Held) (ip : IpAddr) (exactly : Exact a h) :
    Exact a ⟨(a.tryAdmit h.state ip).1, (a.tryAdmit h.state ip).2.toList ++ h.live⟩ := by
  rcases try_admit_cases a h.state ip with ⟨roomTotal, roomPerIp, admitted⟩ | ⟨_, refused⟩
  · rw [admitted]
    refine ⟨Tally.counts_take _ _ _ exactly.counts ip, fun max bound => roomTotal max bound, ?_⟩
    intro other max bound
    rw [Tally.counts_get _ _ _ exactly.counts ip] at roomPerIp
    by_cases same : other = ip
    · subst same
      have room := roomPerIp max bound
      simpa [held] using room
    · have kept := exactly.perIp other max bound
      simpa [held, List.count_cons, Ne.symm same] using kept
  · rw [refused]
    exact exactly

theorem release_exact (a : Admission) (h : Held) (permit : Permit) (exactly : Exact a h) (live : permit ∈ h.live) :
    Exact a ⟨release h.state permit, h.live.erase permit⟩ := by
  have ipHeld : permit.ip ∈ held h.live := List.mem_map_of_mem live
  obtain ⟨_, _, entry⟩ := Tally.counts_held _ _ _ exactly.counts permit.ip ipHeld
  have premise := Tally.counts_give _ _ _ exactly.counts permit.ip ipHeld
  refine ⟨?_, ?_, ?_⟩
  · rw [held_erase, release, entry]
    exact premise
  · intro max bound
    have kept := exactly.total max bound
    simp only [release]
    omega
  · intro ip max bound
    rw [held_erase]
    exact (List.Sublist.count_le ip List.erase_sublist).trans (exactly.perIp ip max bound)

theorem step_exact (a : Admission) (h after : Held) (call : Call) (made : List (Option Permit)) (exactly : Exact a h)
    (stepped : a.machine.step h call = some (after, made)) : Exact a after := by
  cases call with
  | tryAdmit ip =>
      simp only [machine, Option.some.injEq, Prod.mk.injEq] at stepped
      obtain ⟨rfl, _⟩ := stepped
      exact admit_exact a h ip exactly
  | drop permit =>
      simp only [machine, Option.ite_none_right_eq_some, Option.some.injEq, Prod.mk.injEq] at stepped
      obtain ⟨live, rfl, _⟩ := stepped
      exact release_exact a h permit exactly live

theorem reachable_exact (a : Admission) (h : Held) (reached : a.machine.Reachable start h) : Exact a h :=
  a.machine.reachable_invariant start (Exact a)
    ⟨Tally.counts_start, fun _ _ => Nat.zero_le _, fun _ _ _ => by simp [start, held]⟩
    (fun h call after made exactly stepped => step_exact a h after call made exactly stepped) h reached

end Admission

end NextSocks5
