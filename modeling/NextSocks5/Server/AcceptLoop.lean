import NextSocks5.Config
import NextSocks5.Metrics
import NextSocks5.Server.Admission

set_option autoImplicit false

namespace NextSocks5

namespace AcceptLoop

-- A spawned connection::handle, which owns its permit until it ends.
structure ConnTask where
  peer : SocketAddr
  permit : Permit
deriving DecidableEq, Repr

inductive Phase where
  | serving
  | draining
  | returned
deriving DecidableEq, Repr

-- The JoinSet holds the running tasks and those that ended and are not reaped.
structure State where
  phase : Phase
  admission : Admission.State
  running : List ConnTask
  ended : Nat

inductive Wake where
  | accepted (peer : SocketAddr)
  | acceptFailed (error : String)
  | shutdown (closing : Bool)
  | taskEnds (task : ConnTask)
  | joinNext
deriving DecidableEq

def controller (cfg : Config) : Admission := ⟨cfg.limits.maxConnections, cfg.limits.maxPerIp⟩

def accept (cfg : Config) (s : State) (peer : SocketAddr) : State × List Event :=
  match (controller cfg).tryAdmit s.admission peer.ip with
  | (admission, some permit) => ({ s with admission, running := ⟨peer, permit⟩ :: s.running }, [])
  | (admission, none) => ({ s with admission }, [.log s!"connection from {peer.display} rejected: limit reached"])

def settle (s : State) : State :=
  if s.phase = .draining ∧ s.running = [] ∧ s.ended = 0 then { s with phase := .returned } else s

def machine (cfg : Config) : Machine State Wake Event where
  step s wake :=
    match wake with
    | .accepted peer => if s.phase = .serving then some (accept cfg s peer) else none
    | .acceptFailed error => if s.phase = .serving then some (s, [.log s!"accept error: {error}"]) else none
    | .shutdown closing =>
        if s.phase = .serving then some (if closing then settle { s with phase := .draining } else s, []) else none
    | .taskEnds task =>
        if task ∈ s.running then
          some ({ s with
            admission := Admission.release s.admission task.permit
            running := s.running.erase task
            ended := s.ended + 1 }, [])
        else none
    | .joinNext => if 0 < s.ended then some (settle { s with ended := s.ended - 1 }, []) else none

def start : State := ⟨.serving, ⟨0, ∅⟩, [], 0⟩

inductive Moves (cfg : Config) (s : State) : Wake → State → List Event → Prop where
  | accepted (peer : SocketAddr) (serving : s.phase = .serving) :
      Moves cfg s (.accepted peer) (accept cfg s peer).1 (accept cfg s peer).2
  | acceptFailed (error : String) (serving : s.phase = .serving) :
      Moves cfg s (.acceptFailed error) s [.log s!"accept error: {error}"]
  | closing (serving : s.phase = .serving) : Moves cfg s (.shutdown true) (settle { s with phase := .draining }) []
  | spurious (serving : s.phase = .serving) : Moves cfg s (.shutdown false) s []
  | taskEnds (task : ConnTask) (member : task ∈ s.running) :
      Moves cfg s (.taskEnds task) { s with
        admission := Admission.release s.admission task.permit
        running := s.running.erase task
        ended := s.ended + 1 } []
  | joinNext (ended : 0 < s.ended) : Moves cfg s .joinNext (settle { s with ended := s.ended - 1 }) []

theorem step_moves (cfg : Config) (s after : State) (wake : Wake) (made : List Event)
    (stepped : (machine cfg).step s wake = some (after, made)) : Moves cfg s wake after made := by
  cases wake with
  | accepted peer =>
      simp only [machine, Option.ite_none_right_eq_some, Option.some.injEq] at stepped
      obtain ⟨serving, same⟩ := stepped
      obtain ⟨rfl, rfl⟩ := Prod.mk.inj same
      exact .accepted peer serving
  | acceptFailed error =>
      simp only [machine, Option.ite_none_right_eq_some, Option.some.injEq] at stepped
      obtain ⟨serving, same⟩ := stepped
      cases same
      exact .acceptFailed error serving
  | shutdown closing =>
      simp only [machine, Option.ite_none_right_eq_some, Option.some.injEq] at stepped
      obtain ⟨serving, same⟩ := stepped
      cases closing with
      | true =>
          cases same
          exact .closing serving
      | false =>
          cases same
          exact .spurious serving
  | taskEnds task =>
      simp only [machine, Option.ite_none_right_eq_some, Option.some.injEq] at stepped
      obtain ⟨member, same⟩ := stepped
      cases same
      exact .taskEnds task member
  | joinNext =>
      simp only [machine, Option.ite_none_right_eq_some, Option.some.injEq] at stepped
      obtain ⟨ended, same⟩ := stepped
      cases same
      exact .joinNext ended

-- The live permits are those of the running tasks, each issued for the peer of its task.
structure Owns (s : State) (h : Admission.Held) : Prop where
  state : s.admission = h.state
  live : (s.running.map ConnTask.permit).Perm h.live
  issued : ∀ task ∈ s.running, task.permit.ip = task.peer.ip

theorem settle_owns (s : State) (h : Admission.Held) (owns : Owns s h) : Owns (settle s) h := by
  rw [settle]
  split
  · exact ⟨owns.state, owns.live, owns.issued⟩
  · exact owns

theorem accept_owns (cfg : Config) (s : State) (h : Admission.Held) (peer : SocketAddr) (owns : Owns s h) :
    ∃ next, Owns (accept cfg s peer).1 next ∧ (controller cfg).machine.Reachable h next := by
  have called : (controller cfg).machine.step h (.tryAdmit peer.ip) =
      some (⟨((controller cfg).tryAdmit h.state peer.ip).1, ((controller cfg).tryAdmit h.state peer.ip).2.toList ++ h.live⟩,
        [((controller cfg).tryAdmit h.state peer.ip).2]) := rfl
  refine ⟨_, ?_, Machine.reachable_step _ h h _ _ _ (Machine.reachable_start _ h) called⟩
  rw [accept, owns.state]
  rcases Admission.try_admit_cases (controller cfg) h.state peer.ip with ⟨_, _, admitted⟩ | ⟨_, refused⟩
  · rw [admitted]
    refine ⟨rfl, owns.live.cons _, ?_⟩
    intro task member
    rcases List.mem_cons.mp member with rfl | old
    · rfl
    · exact owns.issued task old
  · rw [refused]
    exact ⟨rfl, owns.live, owns.issued⟩

theorem task_ends_owns (cfg : Config) (s : State) (h : Admission.Held) (task : ConnTask) (ended : Nat) (owns : Owns s h)
    (member : task ∈ s.running) :
    ∃ next, Owns { s with admission := Admission.release s.admission task.permit, running := s.running.erase task, ended } next ∧
      (controller cfg).machine.Reachable h next := by
  have live : task.permit ∈ h.live := owns.live.subset (List.mem_map_of_mem member)
  have called : (controller cfg).machine.step h (.drop task.permit) =
      some (⟨Admission.release h.state task.permit, h.live.erase task.permit⟩, []) := by
    simp [Admission.machine, live]
  refine ⟨_, ?_, Machine.reachable_step _ h h _ _ _ (Machine.reachable_start _ h) called⟩
  refine ⟨by rw [owns.state], ?_, fun other old => owns.issued other (List.mem_of_mem_erase old)⟩
  have split := (List.perm_cons_erase member).map ConnTask.permit
  have rest := (split.symm.trans owns.live).trans (List.perm_cons_erase live)
  exact List.Perm.cons_inv rest

theorem step_owns (cfg : Config) (s after : State) (wake : Wake) (made : List Event) (h : Admission.Held) (owns : Owns s h)
    (stepped : (machine cfg).step s wake = some (after, made)) :
    ∃ next, Owns after next ∧ (controller cfg).machine.Reachable h next := by
  have stay := Machine.reachable_start (controller cfg).machine h
  cases step_moves cfg s after wake made stepped with
  | accepted peer serving => exact accept_owns cfg s h peer owns
  | acceptFailed error serving => exact ⟨h, owns, stay⟩
  | closing serving => exact ⟨h, settle_owns _ h ⟨owns.state, owns.live, owns.issued⟩, stay⟩
  | spurious serving => exact ⟨h, owns, stay⟩
  | taskEnds task member => exact task_ends_owns cfg s h task _ owns member
  | joinNext ended => exact ⟨h, settle_owns _ h ⟨owns.state, owns.live, owns.issued⟩, stay⟩

theorem reachable_owns (cfg : Config) (s : State) (reached : (machine cfg).Reachable start s) :
    ∃ h, Owns s h ∧ (controller cfg).machine.Reachable Admission.start h :=
  Machine.simulation (machine cfg) (controller cfg).machine Owns start Admission.start
    ⟨rfl, .refl [], by simp [start]⟩
    (fun s h wake after made owns stepped => step_owns cfg s after wake made h owns stepped) s reached

theorem owns_count (s : State) (h : Admission.Held) (owns : Owns s h) (ip : IpAddr) :
    (s.running.map fun task => task.peer.ip).count ip = (Admission.held h.live).count ip := by
  have same : s.running.map (fun task => task.peer.ip) = Admission.held (s.running.map ConnTask.permit) := by
    rw [Admission.held, List.map_map]
    exact List.map_congr_left fun task member => (owns.issued task member).symm
  rw [same]
  exact (owns.live.map Permit.ip).count_eq ip

structure Winding (s : State) : Prop where
  draining : s.phase = .draining → s.running ≠ [] ∨ 0 < s.ended
  returned : s.phase = .returned → s.running = [] ∧ s.ended = 0

theorem settle_winding (s : State) (busy : s.phase ≠ .returned) : Winding (settle s) := by
  rw [settle]
  split
  case isTrue done => exact ⟨by simp, fun _ => done.2⟩
  case isFalse left =>
      refine ⟨fun draining => ?_, fun returned => absurd returned busy⟩
      by_contra nothing
      push Not at nothing
      exact left ⟨draining, nothing.1, by omega⟩

theorem step_winding (cfg : Config) (s after : State) (wake : Wake) (made : List Event) (winding : Winding s)
    (stepped : (machine cfg).step s wake = some (after, made)) : Winding after := by
  have up : ∀ next : State, next.phase = .serving → Winding next :=
    fun next phase => ⟨by simp [phase], by simp [phase]⟩
  cases step_moves cfg s after wake made stepped with
  | accepted peer serving =>
      refine up _ ?_
      rw [accept]
      split <;> exact serving
  | acceptFailed error serving => exact up s serving
  | closing serving => exact settle_winding _ (by simp)
  | spurious serving => exact up s serving
  | taskEnds task member =>
      refine ⟨fun _ => .inr (Nat.succ_pos _), fun returned => ?_⟩
      rw [(winding.returned returned).1] at member
      cases member
  | joinNext ended =>
      refine settle_winding _ fun returned => ?_
      have nothing := (winding.returned returned).2
      omega

def Phase.rank : Phase → Nat
  | .serving => 2
  | .draining => 1
  | .returned => 0

def remaining (s : State) : Nat := s.phase.rank + 2 * s.running.length + s.ended

theorem settle_remaining (s : State) : remaining (settle s) ≤ remaining s := by
  rw [settle]
  split
  · simp [remaining, Phase.rank]
  · exact le_rfl

theorem winds_down (cfg : Config) (s : State) (winding : Winding s) (busy : s.phase ≠ .returned) :
    ∃ wake after, (machine cfg).step s wake = some (after, []) ∧ remaining after < remaining s ∧
      ∀ closing, wake = .shutdown closing → closing = true := by
  cases phase : s.phase with
  | returned => exact absurd phase busy
  | serving =>
      refine ⟨.shutdown true, _, if_pos phase, ?_, by simp⟩
      refine (settle_remaining _).trans_lt ?_
      simp [remaining, phase, Phase.rank]
  | draining =>
      cases running : s.running with
      | cons task rest =>
          refine ⟨.taskEnds task, _, if_pos (by simp [running]), ?_, by simp⟩
          simp [remaining, running]
          omega
      | nil =>
          have ended : 0 < s.ended := by simpa [running] using winding.draining phase
          refine ⟨.joinNext, _, if_pos ended, ?_, by simp⟩
          refine (settle_remaining _).trans_lt ?_
          simp only [remaining]
          omega

end AcceptLoop

namespace Admission

structure Accounting (a : Admission) (h : Held) : Prop where
  total : h.state.total = h.live.length
  entry : ∀ ip, h.state.perIp.lookup ip =
    if (h.live.map Permit.ip).count ip = 0 then none else some ((h.live.map Permit.ip).count ip)
  totalCap : Within a.maxTotal h.state.total
  entryCap : ∀ ip count, h.state.perIp.lookup ip = some count → Within a.maxPerIp count
  admits : ∀ ip, (a.tryAdmit h.state ip).2.isSome ↔
    Room a.maxTotal h.live.length ∧ Room a.maxPerIp ((h.live.map Permit.ip).count ip)
  refuses : ∀ ip, (a.tryAdmit h.state ip).2 = none → (a.tryAdmit h.state ip).1 = h.state
  drops : ∀ permit ∈ h.live, 0 < h.state.total ∧ ∃ count, h.state.perIp.lookup permit.ip = some count ∧ 0 < count

theorem exact_accounting (a : Admission) (h : Held) (exactly : Exact a h) : Accounting a h := by
  have total : h.state.total = h.live.length := by
    rw [exactly.counts.total, held, List.length_map]
  have called : ∀ ip, ((a.tryAdmit h.state ip).2.isSome ↔
      Room a.maxTotal h.live.length ∧ Room a.maxPerIp ((held h.live).count ip)) ∧
      ((a.tryAdmit h.state ip).2 = none → (a.tryAdmit h.state ip).1 = h.state) := by
    intro ip
    have got := Tally.counts_get _ _ _ exactly.counts ip
    rcases try_admit_cases a h.state ip with ⟨roomTotal, roomPerIp, admitted⟩ | ⟨noRoom, refused⟩
    · rw [total] at roomTotal
      rw [got] at roomPerIp
      rw [admitted]
      exact ⟨by simpa using ⟨roomTotal, roomPerIp⟩, by simp⟩
    · rw [total, got] at noRoom
      rw [refused]
      exact ⟨by simpa using fun first second => noRoom ⟨first, second⟩, fun _ => rfl⟩
  refine ⟨total, exactly.counts.entry, exactly.total, ?_, fun ip => (called ip).1, fun ip => (called ip).2, ?_⟩
  · intro ip count entry
    rw [exactly.counts.entry ip] at entry
    split at entry
    · cases entry
    · cases entry
      exact exactly.perIp ip
  · intro permit live
    obtain ⟨nonempty, count, entry⟩ := Tally.counts_held _ _ _ exactly.counts permit.ip (List.mem_map_of_mem live)
    exact ⟨nonempty, _, entry, count⟩

end Admission

-- Every history of a controller accounts for the permits alive, and with them
-- the tasks of every run of the accept loop stay inside the caps.
theorem admission_exact :
    (∀ (a : Admission) h, a.machine.Reachable Admission.start h → Admission.Accounting a h) ∧
    ∀ (cfg : Config) s, (AcceptLoop.machine cfg).Reachable AcceptLoop.start s →
      Admission.Within cfg.limits.maxConnections s.running.length ∧
      ∀ ip, Admission.Within cfg.limits.maxPerIp ((s.running.map fun task => task.peer.ip).count ip) := by
  refine ⟨fun a h reached => Admission.exact_accounting a h (Admission.reachable_exact a h reached), ?_⟩
  intro cfg s reached
  obtain ⟨h, owns, known⟩ := AcceptLoop.reachable_owns cfg s reached
  have exactly := Admission.reachable_exact _ h known
  refine ⟨?_, ?_⟩
  · intro max bound
    have same := owns.live.length_eq
    rw [List.length_map] at same
    have kept := exactly.total max bound
    rw [exactly.counts.total, Admission.held, List.length_map] at kept
    omega
  · intro ip max bound
    rw [AcceptLoop.owns_count s h owns ip]
    exact exactly.perIp ip max bound

def oneConnection : Config := { Config.default with limits := { Limits.default with maxConnections := some 1 } }

def firstPeer : SocketAddr := .v4 (.new 192 0 2 7) 40000

def secondPeer : SocketAddr := .v4 (.new 192 0 2 8) 40000

-- An admission, a refusal at the cap, and a second admission once the first connection is over.
theorem admission_exact_one :
    (∃ h, h.live = [⟨secondPeer.ip⟩] ∧ Admission.Accounting (AcceptLoop.controller oneConnection) h) ∧
    ∃ s : AcceptLoop.State, s.running = [⟨secondPeer, ⟨secondPeer.ip⟩⟩] ∧ Admission.Within (some 1) s.running.length :=
  ⟨⟨_, rfl, admission_exact.1 (AcceptLoop.controller oneConnection) _
      ⟨[.tryAdmit firstPeer.ip, .tryAdmit secondPeer.ip, .drop ⟨firstPeer.ip⟩, .tryAdmit secondPeer.ip], _,
        Machine.exec_run _ _ _ _ _ rfl⟩⟩,
    _, rfl, (admission_exact.2 oneConnection _
      ⟨[.accepted firstPeer, .accepted secondPeer, .taskEnds ⟨firstPeer, ⟨firstPeer.ip⟩⟩, .accepted secondPeer], _,
        Machine.exec_run _ _ _ _ _ rfl⟩).1⟩

end NextSocks5
