import NextSocks5.Library.Machine
import NextSocks5.Server.PortScan

set_option autoImplicit false

namespace NextSocks5

namespace Ports

open Udp

structure Sock where
  ip : IpAddr
  port : UInt16
deriving DecidableEq

-- When the system lets two sockets not be open side by side: the same address and port, and
-- by its rules more (a wildcard address, a mapped one).
structure Conflict where
  clash : Sock → Sock → Bool
  same : ∀ sock, clash sock sock = true
  symmetric : ∀ sock other, clash sock other = clash other sock

inductive Task where
  | idle
  | scanning (ip : IpAddr) (base : UInt32) (left : List UInt16)
  | bound (sock : Sock)
  | failed (error : IoError)
  | closed

structure State (τ : Type) where
  cursor : UInt32
  owned : List (τ × Sock)
  foreign : List Sock
  task : τ → Task

inductive Event (τ : Type) where
  | associate (t : τ) (ip : IpAddr)
  | bind (t : τ) (answer : Except IoError Unit)
  | close (t : τ)
  | foreign (sock : Sock) (held : Bool)

inductive Report (τ : Type) where
  | began (t : τ) (ip : IpAddr) (base : UInt32)
  | refused (t : τ) (sock : Sock) (kind : ErrorKind)
  | bound (t : τ) (sock : Sock)
  | exhausted (t : τ) (ip : IpAddr) (base : UInt32)
  | released (sock : Sock)
deriving DecidableEq

section

variable {τ : Type}

def State.busyOwned (c : Conflict) (s : State τ) (sock : Sock) : Bool := s.owned.any fun held => c.clash held.2 sock

def State.busy (c : Conflict) (s : State τ) (sock : Sock) : Bool :=
  s.busyOwned c sock || s.foreign.any fun other => c.clash other sock

def Owned (s : State τ) : Prop := ∀ t sock, (t, sock) ∈ s.owned ↔ s.task t = .bound sock

theorem busy_owned_iff (c : Conflict) (s : State τ) (sock : Sock) :
    s.busyOwned c sock = true ↔ ∃ t held, (t, held) ∈ s.owned ∧ c.clash held sock = true := by
  simp [State.busyOwned]

theorem busy_iff (c : Conflict) (s : State τ) (sock : Sock) :
    s.busy c sock = true ↔
      (∃ t held, (t, held) ∈ s.owned ∧ c.clash held sock = true) ∨ ∃ other ∈ s.foreign, c.clash other sock = true := by
  rw [State.busy, Bool.or_eq_true, busy_owned_iff, List.any_eq_true]

theorem free_bound (c : Conflict) (s : State τ) (owned : Owned s) (sock : Sock) (free : s.busyOwned c sock = false) (t : τ)
    (held : Sock) (bound : s.task t = .bound held) : c.clash held sock = false := by
  cases clash : c.clash held sock with
  | false => rfl
  | true =>
      rw [(busy_owned_iff c s sock).mpr ⟨t, held, (owned t held).mpr bound, clash⟩] at free
      cases free

theorem busy_false (c : Conflict) (s : State τ) (sock : Sock) (free : s.busy c sock = false) :
    s.busyOwned c sock = false ∧ ∀ other ∈ s.foreign, c.clash sock other = false := by
  rw [State.busy, Bool.or_eq_false_iff, List.any_eq_false] at free
  refine ⟨free.1, ?_⟩
  intro other member
  rw [c.symmetric]
  simpa using free.2 other member

def begun (outputs : List (Report τ)) : List UInt32 :=
  outputs.filterMap fun report =>
    match report with
    | .began _ _ base => some base
    | _ => none

theorem begun_append (earlier later : List (Report τ)) : begun (earlier ++ later) = begun earlier ++ begun later :=
  List.filterMap_append ..

variable [DecidableEq τ]

def State.put (s : State τ) (t : τ) (task : Task) : State τ := { s with task := Function.update s.task t task }

def State.own (s : State τ) (t : τ) (sock : Sock) : State τ := { s with owned := (t, sock) :: s.owned }

def State.release (s : State τ) (t : τ) : State τ := { s with owned := s.owned.filter fun held => held.1 ≠ t }

-- `continue`: the loop ends behind the last candidate.
def State.skip (s : State τ) (t : τ) (ip : IpAddr) (base : UInt32) (port : UInt16) (rest : List UInt16) (kind : ErrorKind) :
    State τ × List (Report τ) :=
  match rest with
  | [] => (s.put t (.failed ⟨.addrInUse, "udp_port_range exhausted"⟩), [.refused t ⟨ip, port⟩ kind, .exhausted t ip base])
  | next :: rest => (s.put t (.scanning ip base (next :: rest)), [.refused t ⟨ip, port⟩ kind])

-- The system gives a port out only when no open socket is in its way, and calls it taken only when one is.
def State.bind (c : Conflict) (s : State τ) (t : τ) (ip : IpAddr) (base : UInt32) (port : UInt16) (rest : List UInt16)
    (answer : Except IoError Unit) : Option (State τ × List (Report τ)) :=
  match answer with
  | .ok _ =>
      if s.busy c ⟨ip, port⟩ then none
      else some ((s.own t ⟨ip, port⟩).put t (.bound ⟨ip, port⟩), [.bound t ⟨ip, port⟩])
  | .error error =>
      match error.kind with
      | .addrInUse => if s.busy c ⟨ip, port⟩ then some (s.skip t ip base port rest .addrInUse) else none
      | .permissionDenied => some (s.skip t ip base port rest .permissionDenied)
      | _ => some (s.put t (.failed error), [.refused t ⟨ip, port⟩ error.kind])

-- Other programs may share a port among themselves, never with an association.
def machine (c : Conflict) (range : PortRange) : Machine (State τ) (Event τ) (Report τ) where
  step s event :=
    match event with
    | .associate t ip =>
        match s.task t with
        | .idle => some ({ s with cursor := s.cursor + 1 }.put t (.scanning ip s.cursor (candidates range s.cursor)),
            [.began t ip s.cursor])
        | _ => none
    | .bind t answer =>
        match s.task t with
        | .scanning ip base (port :: rest) => s.bind c t ip base port rest answer
        | _ => none
    | .close t =>
        match s.task t with
        | .bound sock => some ((s.release t).put t .closed, [.released sock])
        | _ => none
    | .foreign sock true => if s.busyOwned c sock then none else some ({ s with foreign := sock :: s.foreign }, [])
    | .foreign sock false =>
        if sock ∈ s.foreign then some ({ s with foreign := s.foreign.erase sock }, [.released sock]) else none

def start (foreign : List Sock) : State τ := ⟨0, [], foreign, fun _ => .idle⟩

def attempts (t : τ) (outputs : List (Report τ)) : List UInt16 :=
  outputs.filterMap fun report =>
    match report with
    | .refused u sock _ => if u = t then some sock.port else none
    | _ => none

-- Why a port is no option any more: a socket is in its way, or was in its way and closed behind the scan, or it is privileged.
def Spoken (c : Conflict) (s : State τ) (t : τ) (since : List (Report τ)) (sock : Sock) : Prop :=
  s.busy c sock = true ∨ (∃ other, c.clash other sock = true ∧ .released other ∈ since) ∨ .refused t sock .permissionDenied ∈ since

structure Scanned (c : Conflict) (range : PortRange) (s : State τ) (t : τ) (ip : IpAddr) (base : UInt32) (left : List UInt16)
    (since : List (Report τ)) : Prop where
  order : attempts t since ++ left = candidates range base
  spoken : ∀ port ∈ attempts t since, Spoken c s t since ⟨ip, port⟩

structure Shared (c : Conflict) (range : PortRange) (outputs : List (Report τ)) (s : State τ) : Prop where
  owned : Owned s
  apart : ∀ t u sock other, s.task t = .bound sock → s.task u = .bound other → t ≠ u → c.clash sock other = false
  others : ∀ t sock, s.task t = .bound sock → ∀ other ∈ s.foreign, c.clash sock other = false
  inside : ∀ t sock, s.task t = .bound sock → range.Contains sock.port
  cursor : s.cursor = UInt32.ofNat (begun outputs).length
  bases : begun outputs = (List.range (begun outputs).length).map UInt32.ofNat
  scans : ∀ t ip base left, s.task t = .scanning ip base left →
    ∃ early since, outputs = early ++ .began t ip base :: since ∧ Scanned c range s t ip base left since

inductive Step (c : Conflict) (range : PortRange) (s : State τ) : State τ → List (Report τ) → Prop where
  | began (t : τ) (ip : IpAddr) (idle : s.task t = .idle) :
      Step c range s ({ s with cursor := s.cursor + 1 }.put t (.scanning ip s.cursor (candidates range s.cursor))) [.began t ip s.cursor]
  | bound (t : τ) (ip : IpAddr) (base : UInt32) (port : UInt16) (rest : List UInt16)
      (scanning : s.task t = .scanning ip base (port :: rest)) (free : s.busy c ⟨ip, port⟩ = false) :
      Step c range s ((s.own t ⟨ip, port⟩).put t (.bound ⟨ip, port⟩)) [.bound t ⟨ip, port⟩]
  | skipped (t : τ) (ip : IpAddr) (base : UInt32) (port next : UInt16) (rest : List UInt16) (kind : ErrorKind)
      (scanning : s.task t = .scanning ip base (port :: next :: rest)) (why : s.busy c ⟨ip, port⟩ = true ∨ kind = .permissionDenied) :
      Step c range s (s.put t (.scanning ip base (next :: rest))) [.refused t ⟨ip, port⟩ kind]
  | exhausted (t : τ) (ip : IpAddr) (base : UInt32) (port : UInt16) (kind : ErrorKind)
      (scanning : s.task t = .scanning ip base [port]) (why : s.busy c ⟨ip, port⟩ = true ∨ kind = .permissionDenied) :
      Step c range s (s.put t (.failed ⟨.addrInUse, "udp_port_range exhausted"⟩)) [.refused t ⟨ip, port⟩ kind, .exhausted t ip base]
  | fatal (t : τ) (ip : IpAddr) (base : UInt32) (port : UInt16) (rest : List UInt16) (error : IoError)
      (scanning : s.task t = .scanning ip base (port :: rest)) :
      Step c range s (s.put t (.failed error)) [.refused t ⟨ip, port⟩ error.kind]
  | closed (t : τ) (sock : Sock) (held : s.task t = .bound sock) : Step c range s ((s.release t).put t .closed) [.released sock]
  | opened (sock : Sock) (free : s.busyOwned c sock = false) : Step c range s { s with foreign := sock :: s.foreign } []
  | left (sock : Sock) : Step c range s { s with foreign := s.foreign.erase sock } [.released sock]

theorem skip_step (c : Conflict) (range : PortRange) (s : State τ) (t : τ) (ip : IpAddr) (base : UInt32) (port : UInt16) (rest : List UInt16)
    (kind : ErrorKind) (scanning : s.task t = .scanning ip base (port :: rest))
    (why : s.busy c ⟨ip, port⟩ = true ∨ kind = .permissionDenied) :
    Step c range s (s.skip t ip base port rest kind).1 (s.skip t ip base port rest kind).2 := by
  cases rest with
  | nil => exact .exhausted t ip base port kind scanning why
  | cons next rest => exact .skipped t ip base port next rest kind scanning why

theorem bind_fatal (c : Conflict) (s : State τ) (t : τ) (ip : IpAddr) (base : UInt32) (port : UInt16) (rest : List UInt16) (error : IoError)
    (taken : ¬ error.kind = .addrInUse) (denied : ¬ error.kind = .permissionDenied) :
    s.bind c t ip base port rest (.error error) = some (s.put t (.failed error), [.refused t ⟨ip, port⟩ error.kind]) := by
  rw [State.bind]
  split <;> first | contradiction | rfl

theorem bind_step (c : Conflict) (range : PortRange) (s after : State τ) (t : τ) (ip : IpAddr) (base : UInt32) (port : UInt16)
    (rest : List UInt16) (answer : Except IoError Unit) (made : List (Report τ))
    (scanning : s.task t = .scanning ip base (port :: rest))
    (stepped : s.bind c t ip base port rest answer = some (after, made)) : Step c range s after made := by
  cases answer with
  | ok _ =>
      simp only [State.bind, Option.ite_none_left_eq_some, Option.some.injEq, Prod.mk.injEq, Bool.not_eq_true] at stepped
      obtain ⟨free, rfl, rfl⟩ := stepped
      exact .bound t ip base port rest scanning free
  | error error =>
      by_cases taken : error.kind = .addrInUse
      · simp only [State.bind, taken, Option.ite_none_right_eq_some, Option.some.injEq] at stepped
        obtain ⟨busy, same⟩ := stepped
        have step := skip_step c range s t ip base port rest .addrInUse scanning (.inl busy)
        rwa [same] at step
      · by_cases denied : error.kind = .permissionDenied
        · simp only [State.bind, denied, Option.some.injEq] at stepped
          have step := skip_step c range s t ip base port rest .permissionDenied scanning (.inr rfl)
          rwa [stepped] at step
        · rw [bind_fatal c s t ip base port rest error taken denied, Option.some.injEq, Prod.mk.injEq] at stepped
          obtain ⟨rfl, rfl⟩ := stepped
          exact .fatal t ip base port rest error scanning

theorem step_cases (c : Conflict) (range : PortRange) (s after : State τ) (event : Event τ) (made : List (Report τ))
    (stepped : (machine c range).step s event = some (after, made)) : Step c range s after made := by
  cases event with
  | associate t ip =>
      cases task : s.task t with
      | idle =>
          simp only [machine, task, Option.some.injEq, Prod.mk.injEq] at stepped
          obtain ⟨rfl, rfl⟩ := stepped
          exact .began t ip task
      | _ => simp [machine, task] at stepped
  | bind t answer =>
      cases task : s.task t with
      | scanning ip base left =>
          cases left with
          | nil => simp [machine, task] at stepped
          | cons port rest =>
              simp only [machine, task] at stepped
              exact bind_step c range s after t ip base port rest answer made task stepped
      | _ => simp [machine, task] at stepped
  | close t =>
      cases task : s.task t with
      | bound sock =>
          simp only [machine, task, Option.some.injEq, Prod.mk.injEq] at stepped
          obtain ⟨rfl, rfl⟩ := stepped
          exact .closed t sock task
      | _ => simp [machine, task] at stepped
  | foreign sock held =>
      cases held with
      | true =>
          simp only [machine, Option.ite_none_left_eq_some, Option.some.injEq, Prod.mk.injEq, Bool.not_eq_true] at stepped
          obtain ⟨free, rfl, rfl⟩ := stepped
          exact .opened sock free
      | false =>
          simp only [machine, Option.ite_none_right_eq_some, Option.some.injEq, Prod.mk.injEq] at stepped
          obtain ⟨_, rfl, rfl⟩ := stepped
          exact .left sock

theorem owned_put (s : State τ) (t : τ) (task : Task) (owned : Owned s) (before : ∀ sock, s.task t ≠ .bound sock)
    (later : ∀ sock, task ≠ .bound sock) : Owned (s.put t task) := by
  intro u sock
  by_cases same : u = t
  · subst same
    simp only [State.put, Function.update_self]
    exact iff_of_false (fun holds => before sock ((owned u sock).mp holds)) (later sock)
  · simp only [State.put, Function.update_of_ne same]
    exact owned u sock

theorem owned_bound (s : State τ) (t : τ) (sock : Sock) (owned : Owned s) (before : ∀ other, s.task t ≠ .bound other) :
    Owned ((s.own t sock).put t (.bound sock)) := by
  intro u other
  have kept := owned u other
  by_cases same : u = t
  · subst same
    have absent : (u, other) ∉ s.owned := fun holds => before other (kept.mp holds)
    simp only [State.put, State.own, Function.update_self, List.mem_cons, absent, or_false, Prod.mk.injEq, true_and, Task.bound.injEq]
    exact eq_comm
  · simpa [State.put, State.own, Function.update_of_ne same, same] using kept

theorem owned_closed (s : State τ) (t : τ) (owned : Owned s) : Owned ((s.release t).put t .closed) := by
  intro u other
  have kept := owned u other
  by_cases same : u = t
  · simp [State.put, State.release, same]
  · simpa [State.put, State.release, Function.update_of_ne same, same] using kept

theorem step_owned (c : Conflict) (range : PortRange) (s after : State τ) (made : List (Report τ)) (owned : Owned s)
    (step : Step c range s after made) : Owned after := by
  cases step with
  | began t ip idle => exact owned_put _ t _ owned (by simp [idle]) (by simp)
  | bound t ip base port rest scanning free => exact owned_bound s t _ owned (by simp [scanning])
  | skipped t ip base port next rest kind scanning why => exact owned_put s t _ owned (by simp [scanning]) (by simp)
  | exhausted t ip base port kind scanning why => exact owned_put s t _ owned (by simp [scanning]) (by simp)
  | fatal t ip base port rest error scanning => exact owned_put s t _ owned (by simp [scanning]) (by simp)
  | closed t sock held => exact owned_closed s t owned
  | opened sock free => exact owned
  | left sock => exact owned

theorem step_busy (c : Conflict) (range : PortRange) (s after : State τ) (made : List (Report τ)) (owned : Owned s)
    (step : Step c range s after made) (sock : Sock) (busy : s.busy c sock = true) :
    after.busy c sock = true ∨ ∃ other, c.clash other sock = true ∧ .released other ∈ made := by
  rw [busy_iff] at busy
  rw [busy_iff]
  cases step with
  | bound t ip base port rest scanning free =>
      left
      rcases busy with ⟨u, held, member, clash⟩ | others
      · exact .inl ⟨u, held, List.mem_cons_of_mem _ member, clash⟩
      · exact .inr others
  | closed t other held =>
      rcases busy with ⟨u, holds, member, clash⟩ | others
      · by_cases same : u = t
        · subst same
          have own := (owned u holds).mp member
          rw [held, Task.bound.injEq] at own
          subst own
          exact .inr ⟨other, clash, List.mem_singleton_self _⟩
        · exact .inl (.inl ⟨u, holds, by simpa [State.put, State.release, same] using member, clash⟩)
      · exact .inl (.inr others)
  | opened other free =>
      left
      rcases busy with owners | ⟨old, member, clash⟩
      · exact .inl owners
      · exact .inr ⟨old, List.mem_cons_of_mem _ member, clash⟩
  | left other =>
      rcases busy with owners | ⟨old, member, clash⟩
      · exact .inl (.inl owners)
      · by_cases same : old = other
        · subst same
          exact .inr ⟨old, clash, List.mem_singleton_self _⟩
        · exact .inl (.inr ⟨old, (List.mem_erase_of_ne same).mpr member, clash⟩)
  | _ => exact .inl busy

theorem attempts_append (t : τ) (earlier later : List (Report τ)) :
    attempts t (earlier ++ later) = attempts t earlier ++ attempts t later := List.filterMap_append ..

theorem attempts_refused (t u : τ) (sock : Sock) (kind : ErrorKind) :
    attempts t [.refused u sock kind] = if u = t then [sock.port] else [] := by
  by_cases same : u = t <;> simp [attempts, same]

theorem step_scan (c : Conflict) (range : PortRange) (s after : State τ) (made : List (Report τ)) (step : Step c range s after made)
    (u : τ) (ip : IpAddr) (base : UInt32) (left : List UInt16) (scans : after.task u = .scanning ip base left) :
    (s.task u = .scanning ip base left ∧ attempts u made = []) ∨
    (made = [.began u ip base] ∧ left = candidates range base) ∨
    (∃ port kind, s.task u = .scanning ip base (port :: left) ∧ made = [.refused u ⟨ip, port⟩ kind] ∧
      (s.busy c ⟨ip, port⟩ = true ∨ kind = .permissionDenied)) := by
  cases step with
  | began t other idle =>
      by_cases same : u = t
      · subst same
        simp only [State.put, Function.update_self, Task.scanning.injEq] at scans
        obtain ⟨rfl, rfl, rfl⟩ := scans
        exact .inr (.inl ⟨rfl, rfl⟩)
      · simp only [State.put, Function.update_of_ne same] at scans
        exact .inl ⟨scans, rfl⟩
  | skipped t other first port next rest kind scanning why =>
      by_cases same : u = t
      · subst same
        simp only [State.put, Function.update_self, Task.scanning.injEq] at scans
        obtain ⟨rfl, rfl, rfl⟩ := scans
        exact .inr (.inr ⟨port, kind, scanning, rfl, why⟩)
      · simp only [State.put, Function.update_of_ne same] at scans
        exact .inl ⟨scans, by rw [attempts_refused, if_neg (Ne.symm same)]⟩
  | bound t other first port rest scanning free =>
      by_cases same : u = t
      · simp [State.put, same] at scans
      · simp only [State.put, State.own, Function.update_of_ne same] at scans
        exact .inl ⟨scans, rfl⟩
  | exhausted t other first port kind scanning why =>
      by_cases same : u = t
      · simp [State.put, same] at scans
      · simp only [State.put, Function.update_of_ne same] at scans
        exact .inl ⟨scans, by simp [attempts, Ne.symm same]⟩
  | fatal t other first port rest error scanning =>
      by_cases same : u = t
      · simp [State.put, same] at scans
      · simp only [State.put, Function.update_of_ne same] at scans
        exact .inl ⟨scans, by rw [attempts_refused, if_neg (Ne.symm same)]⟩
  | closed t sock held =>
      by_cases same : u = t
      · simp [State.put, same] at scans
      · simp only [State.put, State.release, Function.update_of_ne same] at scans
        exact .inl ⟨scans, rfl⟩
  | opened sock free => exact .inl ⟨scans, rfl⟩
  | left sock => exact .inl ⟨scans, rfl⟩

theorem spoken_kept (c : Conflict) (range : PortRange) (s after : State τ) (made since : List (Report τ)) (owned : Owned s)
    (step : Step c range s after made) (t : τ) (sock : Sock) (spoken : Spoken c s t since sock) : Spoken c after t (since ++ made) sock := by
  rcases spoken with busy | ⟨other, clash, released⟩ | denied
  · rcases step_busy c range s after made owned step sock busy with busy | ⟨other, clash, released⟩
    · exact .inl busy
    · exact .inr (.inl ⟨other, clash, List.mem_append_right _ released⟩)
  · exact .inr (.inl ⟨other, clash, List.mem_append_left _ released⟩)
  · exact .inr (.inr (List.mem_append_left _ denied))

theorem spoken_refused (c : Conflict) (range : PortRange) (s after : State τ) (made since : List (Report τ)) (owned : Owned s)
    (step : Step c range s after made) (t : τ) (ip : IpAddr) (base : UInt32) (left : List UInt16) (port : UInt16) (kind : ErrorKind)
    (scanned : Scanned c range s t ip base left since) (attempt : attempts t made = [port])
    (refused : .refused t ⟨ip, port⟩ kind ∈ made) (why : s.busy c ⟨ip, port⟩ = true ∨ kind = .permissionDenied) :
    ∀ other ∈ attempts t (since ++ made), Spoken c after t (since ++ made) ⟨ip, other⟩ := by
  intro other member
  rw [attempts_append, attempt, List.mem_append, List.mem_singleton] at member
  rcases member with earlier | rfl
  · exact spoken_kept c range s after made since owned step t _ (scanned.spoken other earlier)
  · rcases why with busy | rfl
    · exact spoken_kept c range s after made since owned step t _ (.inl busy)
    · exact .inr (.inr (List.mem_append_right _ refused))

theorem step_scans (c : Conflict) (range : PortRange) (s after : State τ) (outputs made : List (Report τ)) (shared : Shared c range outputs s)
    (step : Step c range s after made) (t : τ) (ip : IpAddr) (base : UInt32) (left : List UInt16)
    (scans : after.task t = .scanning ip base left) :
    ∃ early since, outputs ++ made = early ++ .began t ip base :: since ∧ Scanned c range after t ip base left since := by
  rcases step_scan c range s after made step t ip base left scans with ⟨same, silent⟩ | ⟨rfl, rfl⟩ | ⟨port, kind, before, rfl, why⟩
  · obtain ⟨early, since, cut, scanned⟩ := shared.scans t ip base left same
    refine ⟨early, since ++ made, by simp [cut], ?_, ?_⟩
    · rw [attempts_append, silent, List.append_nil]
      exact scanned.order
    · intro port member
      rw [attempts_append, silent, List.append_nil] at member
      exact spoken_kept c range s after made since shared.owned step t _ (scanned.spoken port member)
  · exact ⟨outputs, [], rfl, rfl, by simp [attempts]⟩
  · obtain ⟨early, since, cut, scanned⟩ := shared.scans t ip base (port :: left) before
    have attempt : attempts t [.refused t ⟨ip, port⟩ kind] = [port] := by rw [attempts_refused, if_pos rfl]
    refine ⟨early, since ++ [.refused t ⟨ip, port⟩ kind], by simp [cut], ?_, ?_⟩
    · rw [attempts_append, attempt, List.append_assoc]
      exact scanned.order
    · exact spoken_refused c range s after _ since shared.owned step t ip base _ port kind scanned attempt (by simp) why

theorem candidate_inside (c : Conflict) (range : PortRange) (valid : range.Valid) (outputs : List (Report τ)) (s : State τ)
    (shared : Shared c range outputs s) (t : τ) (ip : IpAddr) (base : UInt32) (port : UInt16) (rest : List UInt16)
    (scanning : s.task t = .scanning ip base (port :: rest)) : range.Contains port := by
  obtain ⟨_, since, _, scanned⟩ := shared.scans t ip base (port :: rest) scanning
  refine candidates_inside range valid base port ?_
  rw [← scanned.order]
  exact List.mem_append_right _ List.mem_cons_self

theorem step_bound (c : Conflict) (range : PortRange) (s after : State τ) (made : List (Report τ)) (step : Step c range s after made)
    (t : τ) (sock : Sock) (bound : after.task t = .bound sock) :
    s.task t = .bound sock ∨
    (∃ base rest, s.task t = .scanning sock.ip base (sock.port :: rest) ∧ s.busy c sock = false ∧ after.foreign = s.foreign ∧
      ∀ u, u ≠ t → after.task u = s.task u) := by
  have put_bound (middle : State τ) (u : τ) (task : Task) (same : middle.task = s.task) (other : ∀ held, task ≠ .bound held)
      (holds : (middle.put u task).task t = .bound sock) : s.task t = .bound sock := by
    by_cases here : t = u
    · simp only [State.put, here, Function.update_self] at holds
      exact absurd holds (other sock)
    · simpa only [State.put, Function.update_of_ne here, same] using holds
  cases step with
  | began u ip idle => exact .inl (put_bound _ u _ rfl (by simp) bound)
  | bound u ip base port rest scanning free =>
      by_cases here : t = u
      · subst here
        simp only [State.put, Function.update_self, Task.bound.injEq] at bound
        subst bound
        exact .inr ⟨base, rest, scanning, free, rfl, fun v other => by simp [State.put, State.own, Function.update_of_ne other]⟩
      · left
        simpa [State.put, State.own, Function.update_of_ne here] using bound
  | skipped u ip base port next rest kind scanning why => exact .inl (put_bound _ u _ rfl (by simp) bound)
  | exhausted u ip base port kind scanning why => exact .inl (put_bound _ u _ rfl (by simp) bound)
  | fatal u ip base port rest error scanning => exact .inl (put_bound _ u _ rfl (by simp) bound)
  | closed u other held => exact .inl (put_bound _ u _ rfl (by simp) bound)
  | opened other free => exact .inl bound
  | left other => exact .inl bound

theorem step_inside (c : Conflict) (range : PortRange) (valid : range.Valid) (s after : State τ) (outputs made : List (Report τ))
    (shared : Shared c range outputs s) (step : Step c range s after made) (t : τ) (sock : Sock)
    (bound : after.task t = .bound sock) : range.Contains sock.port := by
  rcases step_bound c range s after made step t sock bound with before | ⟨base, rest, scanning, _, _, _⟩
  · exact shared.inside t sock before
  · exact candidate_inside c range valid outputs s shared t sock.ip base sock.port rest scanning

theorem step_apart (c : Conflict) (range : PortRange) (s after : State τ) (outputs made : List (Report τ))
    (shared : Shared c range outputs s) (step : Step c range s after made) (t u : τ) (sock other : Sock)
    (first : after.task t = .bound sock) (second : after.task u = .bound other) (different : t ≠ u) : c.clash sock other = false := by
  rcases step_bound c range s after made step t sock first with held | ⟨_, _, _, free, _, same⟩
  · rcases step_bound c range s after made step u other second with holds | ⟨_, _, _, free, _, _⟩
    · exact shared.apart t u sock other held holds different
    · exact free_bound c s shared.owned other (busy_false c s other free).1 t sock held
  · rw [same u (Ne.symm different)] at second
    rw [c.symmetric]
    exact free_bound c s shared.owned sock (busy_false c s sock free).1 u other second

theorem step_foreign (c : Conflict) (range : PortRange) (s after : State τ) (made : List (Report τ)) (step : Step c range s after made)
    (other : Sock) (foreign : other ∈ after.foreign) :
    other ∈ s.foreign ∨ (s.busyOwned c other = false ∧ after.task = s.task) := by
  cases step with
  | opened sock free =>
      rcases List.mem_cons.mp foreign with rfl | before
      · exact .inr ⟨free, rfl⟩
      · exact .inl before
  | left sock => exact .inl (List.mem_of_mem_erase foreign)
  | _ => exact .inl foreign

theorem step_others (c : Conflict) (range : PortRange) (s after : State τ) (outputs made : List (Report τ))
    (shared : Shared c range outputs s) (step : Step c range s after made) (t : τ) (sock : Sock) (bound : after.task t = .bound sock)
    (other : Sock) (foreign : other ∈ after.foreign) : c.clash sock other = false := by
  rcases step_foreign c range s after made step other foreign with before | ⟨free, same⟩
  · rcases step_bound c range s after made step t sock bound with held | ⟨_, _, _, free, _, _⟩
    · exact shared.others t sock held other before
    · exact (busy_false c s sock free).2 other before
  · rw [same] at bound
    exact free_bound c s shared.owned other free t sock bound

theorem step_begun (c : Conflict) (range : PortRange) (s after : State τ) (made : List (Report τ)) (step : Step c range s after made) :
    (begun made = [] ∧ after.cursor = s.cursor) ∨ (begun made = [s.cursor] ∧ after.cursor = s.cursor + 1) := by
  cases step with
  | began t ip idle => exact .inr ⟨rfl, rfl⟩
  | _ => exact .inl ⟨rfl, rfl⟩

theorem step_shared (c : Conflict) (range : PortRange) (valid : range.Valid) (s after : State τ) (outputs made : List (Report τ))
    (shared : Shared c range outputs s) (step : Step c range s after made) : Shared c range (outputs ++ made) after := by
  have cursors : after.cursor = UInt32.ofNat (begun (outputs ++ made)).length ∧
      begun (outputs ++ made) = (List.range (begun (outputs ++ made)).length).map UInt32.ofNat := by
    rcases step_begun c range s after made step with ⟨nothing, same⟩ | ⟨one, next⟩
    · rw [begun_append, nothing, List.append_nil, same]
      exact ⟨shared.cursor, shared.bases⟩
    · rw [begun_append, one, List.length_append, List.length_singleton, next, List.range_succ, List.map_append, ← shared.bases,
        shared.cursor, UInt32.ofNat_add]
      exact ⟨rfl, rfl⟩
  exact {
    owned := step_owned c range s after made shared.owned step
    apart := step_apart c range s after outputs made shared step
    others := step_others c range s after outputs made shared step
    inside := step_inside c range valid s after outputs made shared step
    cursor := cursors.1
    bases := cursors.2
    scans := step_scans c range s after outputs made shared step }

theorem run_shared (c : Conflict) (range : PortRange) (valid : range.Valid) (foreign : List Sock) (events : List (Event τ))
    (outputs : List (Report τ)) (s : State τ) (run : (machine c range).Run (start foreign) events outputs s) :
    Shared c range outputs s := by
  refine (machine c range).run_invariant (start foreign) (fun _ outputs s => Shared c range outputs s) ?_ ?_ events outputs s run
  · exact {
      owned := fun t sock => by simp [start]
      apart := fun t u sock other bound => by simp [start] at bound
      others := fun t sock bound => by simp [start] at bound
      inside := fun t sock bound => by simp [start] at bound
      cursor := rfl
      bases := rfl
      scans := fun t ip base left scans => by simp [start] at scans }
  · intro events outputs s event after made shared stepped
    exact step_shared c range valid s after outputs made shared (step_cases c range s after event made stepped)

theorem step_exhausted (c : Conflict) (range : PortRange) (s after : State τ) (made : List (Report τ)) (step : Step c range s after made)
    (t : τ) (ip : IpAddr) (base : UInt32) (reported : .exhausted t ip base ∈ made) :
    ∃ port kind, s.task t = .scanning ip base [port] ∧ made = [.refused t ⟨ip, port⟩ kind, .exhausted t ip base] ∧
      (s.busy c ⟨ip, port⟩ = true ∨ kind = .permissionDenied) := by
  cases step with
  | exhausted u other first port kind scanning why =>
      simp only [List.mem_cons, reduceCtorEq, Report.exhausted.injEq, List.not_mem_nil, or_false, false_or] at reported
      obtain ⟨rfl, rfl, rfl⟩ := reported
      exact ⟨port, kind, scanning, rfl, why⟩
  | _ => simp at reported

-- A scan that finds nothing has a reason for every candidate, however the others moved meanwhile.
theorem exhausted_spoken (c : Conflict) (range : PortRange) (s after : State τ) (outputs made : List (Report τ)) (shared : Shared c range outputs s)
    (step : Step c range s after made) (t : τ) (ip : IpAddr) (base : UInt32) (reported : .exhausted t ip base ∈ made) :
    ∃ early since, outputs ++ made = early ++ .began t ip base :: since ∧ attempts t since = candidates range base ∧
      ∀ port ∈ candidates range base, Spoken c after t since ⟨ip, port⟩ := by
  obtain ⟨port, kind, scanning, cut, why⟩ := step_exhausted c range s after made step t ip base reported
  obtain ⟨early, since, outputsSplit, scanned⟩ := shared.scans t ip base [port] scanning
  have attempt : attempts t made = [port] := by simp [cut, attempts]
  have refused : .refused t ⟨ip, port⟩ kind ∈ made := by simp [cut]
  have all : attempts t (since ++ made) = candidates range base := by
    rw [attempts_append, attempt]
    exact scanned.order
  refine ⟨early, since ++ made, by simp [outputsSplit], all, ?_⟩
  rw [← all]
  exact spoken_refused c range s after made since shared.owned step t ip base [port] port kind scanned attempt refused why

def Task.port (task : Task) : UInt16 :=
  match task with
  | .bound sock => sock.port
  | _ => 0

theorem holders_bounded (c : Conflict) (range : PortRange) (valid : range.Valid) (outputs : List (Report τ)) (s : State τ)
    (shared : Shared c range outputs s) (ip : IpAddr) (holders : List τ) (nodup : holders.Nodup)
    (hold : ∀ t ∈ holders, ∃ port, s.task t = .bound ⟨ip, port⟩) : holders.length ≤ range.width := by
  have ports : (holders.map fun t => (s.task t).port.toNat).Nodup := by
    refine nodup.map_on ?_
    intro t tIn u uIn same
    obtain ⟨first, firstHeld⟩ := hold t tIn
    obtain ⟨second, secondHeld⟩ := hold u uIn
    rw [firstHeld, secondHeld] at same
    obtain rfl : first = second := UInt16.toNat_inj.mp same
    by_contra different
    have apart := shared.apart t u _ _ firstHeld secondHeld different
    rw [c.same] at apart
    cases apart
  have within : (holders.map fun t => (s.task t).port.toNat) ⊆ List.range' range.start.toNat range.width := by
    intro value member
    obtain ⟨t, tIn, rfl⟩ := List.mem_map.mp member
    obtain ⟨port, held⟩ := hold t tIn
    have contains := shared.inside t _ held
    have low := UInt16.le_iff_toNat_le.mp contains.1
    have high := UInt16.le_iff_toNat_le.mp contains.2
    obtain ⟨_, ends, _, _⟩ := width_bounds range valid
    rw [held, List.mem_range'_1, Task.port]
    exact ⟨low, by omega⟩
  calc holders.length = (holders.map fun t => (s.task t).port.toNat).length := (List.length_map _).symm
    _ ≤ (List.range' range.start.toNat range.width).length := (List.subperm_of_subset ports within).length_le
    _ = range.width := List.length_range'

def Answers (c : Conflict) (s : State τ) (ip : IpAddr) (bind : UInt16 → Except IoError Unit) : Prop :=
  ∀ port, (∀ sock, bind port = .ok sock → s.busy c ⟨ip, port⟩ = false) ∧
    (∀ error, bind port = .error error → error.kind = .addrInUse → s.busy c ⟨ip, port⟩ = true)

def Settled (result : Except IoError Unit) (ip : IpAddr) (task : Task) : Prop :=
  match result with
  | .ok _ => ∃ port, task = .bound ⟨ip, port⟩
  | .error error => task = .failed error

theorem candidates_cons (range : PortRange) (valid : range.Valid) (base : UInt32) :
    ∃ port rest, candidates range base = port :: rest := by
  obtain ⟨positive, _, _, _⟩ := width_bounds range valid
  have length : (candidates range base).length = range.width := by simp [candidates_map range valid]
  exact List.exists_cons_of_length_pos (by omega)

theorem skipped_run (c : Conflict) (range : PortRange) (s : State τ) (t : τ) (ip : IpAddr) (base : UInt32) (port : UInt16) (rest : List UInt16)
    (bind : UInt16 → Except IoError Unit) (answers : Answers c s ip bind) (scanning : s.task t = .scanning ip base (port :: rest))
    (error : IoError) (refused : bind port = .error error) (skipped : Skipped error) :
    (machine c range).step s (.bind t (bind port)) = some (s.skip t ip base port rest error.kind) := by
  rcases skipped with kind | kind
  · have busy := (answers port).2 error refused kind
    simp [machine, State.bind, scanning, refused, kind, busy]
  · simp [machine, State.bind, scanning, refused, kind]

theorem ended_run (c : Conflict) (range : PortRange) (s : State τ) (t : τ) (ip : IpAddr) (base : UInt32) (port : UInt16) (rest : List UInt16)
    (bind : UInt16 → Except IoError Unit) (answers : Answers c s ip bind) (scanning : s.task t = .scanning ip base (port :: rest))
    (ends : ∀ error, bind port = .error error → ¬ Skipped error) :
    ∃ made after, (machine c range).step s (.bind t (bind port)) = some (after, made) ∧ tried bind (port :: rest) = [port] ∧
      Settled (tryPorts bind (port :: rest)) ip (after.task t) := by
  cases answer : bind port with
  | ok sock =>
      have free := (answers port).1 sock answer
      refine ⟨_, _, by simp only [machine, State.bind, scanning, free, Bool.false_eq_true, if_false]; rfl, ?_, ?_⟩
      · simp [tried, answer]
      · simp [tryPorts, answer, Settled, State.put]
  | error error =>
      have other := ends error answer
      rw [Skipped, not_or] at other
      obtain ⟨taken, denied⟩ := other
      have fatal := bind_fatal c s t ip base port rest error taken denied
      refine ⟨_, _, by simp only [machine, scanning]; exact fatal, ?_, ?_⟩
      · simp only [tried, answer]
      · have last : tryPorts bind (port :: rest) = .error error := by
          simp only [tryPorts, answer]
        simp [last, Settled, State.put]

theorem scan_alone (c : Conflict) (range : PortRange) (t : τ) (ip : IpAddr) (base : UInt32) (bind : UInt16 → Except IoError Unit)
    (rest : List UInt16) (port : UInt16) (s : State τ) (answers : Answers c s ip bind)
    (scanning : s.task t = .scanning ip base (port :: rest)) :
    ∃ made after, (machine c range).Run s ((tried bind (port :: rest)).map fun candidate => .bind t (bind candidate)) made after ∧
      Settled (tryPorts bind (port :: rest)) ip (after.task t) := by
  by_cases skips : ∃ error, bind port = .error error ∧ Skipped error
  · obtain ⟨error, refused, skipped⟩ := skips
    have stepped := skipped_run c range s t ip base port rest bind answers scanning error refused skipped
    have head : (machine c range).Run s [.bind t (bind port)] _ _ := .next .idle _ _ _ stepped
    obtain ⟨attempted, result⟩ := skip_cons bind port rest error refused skipped
    rw [attempted, result, List.map_cons]
    cases rest with
    | nil => exact ⟨_, _, head, by simp [State.put, tryPorts, Settled]⟩
    | cons next rest =>
        have moved : (s.skip t ip base port (next :: rest) error.kind).1.task t = .scanning ip base (next :: rest) := by
          simp [State.skip, State.put]
        have kept : Answers c (s.skip t ip base port (next :: rest) error.kind).1 ip bind := answers
        obtain ⟨made, after, tail, settled⟩ := scan_alone c range t ip base bind rest next _ kept moved
        exact ⟨_, after, (machine c range).run_append s _ after [.bind t (bind port)] _ _ made head tail, settled⟩
  · have ends : ∀ error, bind port = .error error → ¬ Skipped error := fun error refused skipped => skips ⟨error, refused, skipped⟩
    obtain ⟨made, after, stepped, attempted, settled⟩ := ended_run c range s t ip base port rest bind answers scanning ends
    have head : (machine c range).Run s [.bind t (bind port)] made after := by
      simpa using Machine.Run.idle.next _ made after stepped
    rw [attempted]
    exact ⟨made, after, head, settled⟩

theorem associate_alone (c : Conflict) (range : PortRange) (valid : range.Valid) (s : State τ) (t : τ) (ip : IpAddr)
    (bind : UInt16 → Except IoError Unit) (answers : Answers c s ip bind) (idle : s.task t = .idle) :
    ∃ made after, (machine c range).Run s
        (.associate t ip :: (tried bind (candidates range s.cursor)).map fun candidate => .bind t (bind candidate)) made after ∧
      Settled (bindWithRetry bind (some range) s.cursor) ip (after.task t) := by
  obtain ⟨port, rest, cut⟩ := candidates_cons range valid s.cursor
  have stepped : (machine c range).step s (.associate t ip) =
      some ({ s with cursor := s.cursor + 1 }.put t (.scanning ip s.cursor (candidates range s.cursor)), [.began t ip s.cursor]) := by
    simp [machine, idle]
  have head : (machine c range).Run s [.associate t ip] [.began t ip s.cursor] _ := .next .idle _ _ _ stepped
  have scanning : ({ s with cursor := s.cursor + 1 }.put t (.scanning ip s.cursor (candidates range s.cursor))).task t =
      .scanning ip s.cursor (port :: rest) := by simp [State.put, cut]
  have kept : Answers c ({ s with cursor := s.cursor + 1 }.put t (.scanning ip s.cursor (candidates range s.cursor))) ip bind := answers
  obtain ⟨made, after, tail, settled⟩ := scan_alone c range t ip s.cursor bind rest port _ kept scanning
  rw [← cut] at tail settled
  exact ⟨_, after, (machine c range).run_append s _ after [.associate t ip] _ _ made head tail, settled⟩

structure Managed (c : Conflict) (range : PortRange) (outputs : List (Report τ)) (s : State τ) : Prop where
  shared : Shared c range outputs s
  bounded : ∀ ip (holders : List τ), holders.Nodup → (∀ t ∈ holders, ∃ port, s.task t = .bound ⟨ip, port⟩) →
    holders.length ≤ range.width
  exhausted : ∀ event after made t ip base, (machine c range).step s event = some (after, made) → .exhausted t ip base ∈ made →
    ∃ early since, outputs ++ made = early ++ .began t ip base :: since ∧ attempts t since = candidates range base ∧
      (SeamFree range base → ∀ port, range.Contains port → Spoken c after t since ⟨ip, port⟩)
  alone : ∀ t ip bind, s.task t = .idle → Answers c s ip bind →
    ∃ made after, (machine c range).Run s
        (.associate t ip :: (tried bind (candidates range s.cursor)).map fun candidate => .bind t (bind candidate)) made after ∧
      Settled (bindWithRetry bind (some range) s.cursor) ip (after.task t)

-- Associations that look for ports at the same time.
theorem ports_shared (c : Conflict) (range : PortRange) (valid : range.Valid) (foreign : List Sock) (events : List (Event τ))
    (outputs : List (Report τ)) (s : State τ) (run : (machine c range).Run (start foreign) events outputs s) :
    Managed c range outputs s := by
  have shared := run_shared c range valid foreign events outputs s run
  refine ⟨shared, holders_bounded c range valid outputs s shared, ?_, ?_⟩
  · intro event after made t ip base stepped reported
    obtain ⟨early, since, cut, tries, spoken⟩ :=
      exhausted_spoken c range s after outputs made shared (step_cases c range s after event made stepped) t ip base reported
    refine ⟨early, since, cut, tries, ?_⟩
    intro free port contains
    exact spoken port (candidates_all range valid base free port contains)
  · intro t ip bind idle answers
    exact associate_alone c range valid s t ip bind answers idle

end

def loopback : IpAddr := .v4 (.new 127 0 0 1)

def anywhere : IpAddr := .v4 (.new 0 0 0 0)

-- Sockets on one port, at the same address or with a wildcard address among them.
def wildcards : Conflict where
  clash sock other := decide (sock.port = other.port ∧ (sock.ip = other.ip ∨ sock.ip = anywhere ∨ other.ip = anywhere))
  same := fun sock => by simp
  symmetric := fun sock other => by
    rw [decide_eq_decide]
    constructor <;> (rintro ⟨port, same | first | second⟩ <;> simp [*])

-- The second association meets a wildcard socket first and the first association's port last.
def twoScans : List (Event Bool) :=
  [.associate false loopback, .associate true loopback, .foreign ⟨anywhere, 40001⟩ true, .bind false (.ok ()),
    .bind true (.error ⟨.addrInUse, "Address already in use"⟩), .bind true (.error ⟨.addrInUse, "Address already in use"⟩)]

theorem ports_shared_two : ∃ outputs s, (machine wildcards ⟨40000, 40001⟩).Run (start []) twoScans outputs s ∧
    .bound false ⟨loopback, 40000⟩ ∈ outputs ∧ .exhausted true loopback 1 ∈ outputs ∧ Managed wildcards ⟨40000, 40001⟩ outputs s := by
  have reports : ((machine wildcards ⟨40000, 40001⟩).exec (start []) twoScans).map (fun ended => ended.1) =
      some [.began false loopback 0, .began true loopback 1, .bound false ⟨loopback, 40000⟩,
        .refused true ⟨loopback, 40001⟩ .addrInUse, .refused true ⟨loopback, 40000⟩ .addrInUse, .exhausted true loopback 1] := by
    decide +kernel
  obtain ⟨ended, done, outputs⟩ := Option.map_eq_some_iff.mp reports
  have run := Machine.exec_run _ _ _ _ _ done
  refine ⟨ended.1, ended.2, run, by simp [outputs], by simp [outputs], ?_⟩
  exact ports_shared wildcards ⟨40000, 40001⟩ ⟨by decide, by decide⟩ [] twoScans ended.1 ended.2 run

end Ports

end NextSocks5
