import NextSocks5.Library.Machine

set_option autoImplicit false

namespace NextSocks5

namespace Admin

namespace Socket

-- A socket is named by the run of serve that bound it, if that run is one of those modelled.
inductive Content (π : Type) where
  | absent
  | other
  | socket (owner : Option π)
deriving DecidableEq, Repr

inductive ClaimError where
  | addrInUse
  | wouldBlock
  | alreadyExists
  | io
deriving DecidableEq, Repr

-- The next system call of claim_socket or serve; a bind is a bind and a listen.
inductive Pc where
  | ensuringParent
  | probing
  | locking
  | reprobing
  | inspecting
  | unlinking
  | binding
  | listening
  | restricting
  | serving
  | removing
  | unlocking
  | closing
  | closed
  | failing (err : ClaimError)
deriving DecidableEq, Repr

structure State (π : Type) where
  path : Content π
  lock : Option π
  pc : π → Pc
  listener : π → Bool
  alive : π → Bool

inductive Probe where
  | live
  | dead
  | error
deriving DecidableEq, Repr

-- A call marked false fails with an error of its own.
inductive Act where
  | ensureParent (ok : Bool)
  | probe (answer : Probe)
  | flock (ok : Bool)
  | inspect (ok : Bool)
  | unlink (ok : Bool)
  | bind (ok : Bool)
  | listen (ok : Bool)
  | restrict (ok : Bool)
  | shutdown
  | remove (ok : Bool)
  | dropLock
  | closeListener
  | crash
deriving DecidableEq, Repr

structure Touch (π : Type) where
  actor : π
  act : Act
  before : Content π
deriving DecidableEq, Repr

variable {π : Type} [DecidableEq π]

-- A connect succeeds when the socket at the path has a listener.
def State.answers (s : State π) : Bool :=
  match s.path with
  | .socket (some owner) => s.listener owner
  | _ => false

def State.goto (s : State π) (p : π) (pc : Pc) : State π := { s with pc := Function.update s.pc p pc }

def State.hear (s : State π) (p : π) (listener : Bool) : State π := { s with listener := Function.update s.listener p listener }

def socketIsLive (s : State π) (p : π) (answer : Probe) (next : Pc) : Option (State π) :=
  match answer with
  | .live => if s.answers then some (s.goto p (.failing .addrInUse)) else none
  | .dead => if s.answers then none else some (s.goto p next)
  | .error => some (s.goto p (.failing .io))

def acquireLock (s : State π) (p : π) : State π :=
  match s.lock with
  | none => { s with lock := some p }.goto p .reprobing
  | some _ => s.goto p (.failing .wouldBlock)

-- By what the metadata say; the removal is a call of its own.
def unlinkIfSocket (s : State π) (p : π) : State π :=
  match s.path with
  | .socket _ => s.goto p .unlinking
  | .other => s.goto p (.failing .alreadyExists)
  | .absent => s.goto p .binding

def touching (s after : State π) (p : π) (act : Act) : State π × List (Touch π) := (after, [⟨p, act, s.path⟩])

def onAct (s : State π) (p : π) (act : Act) : Option (State π × List (Touch π)) :=
  let quiet := fun (after : State π) => some (after, ([] : List (Touch π)))
  let failed := quiet (s.goto p (.failing .io))
  match s.pc p, act with
  | .ensuringParent, .ensureParent ok => if ok then quiet (s.goto p .probing) else failed
  | .probing, .probe answer => (socketIsLive s p answer .locking).bind quiet
  | .locking, .flock ok => if ok then quiet (acquireLock s p) else failed
  | .reprobing, .probe answer => (socketIsLive s p answer .inspecting).bind quiet
  | .inspecting, .inspect ok => if ok then quiet (unlinkIfSocket s p) else failed
  | .unlinking, .unlink ok =>
      if ok ∧ s.path ≠ .absent then some (touching s ({ s with path := .absent }.goto p .binding) p act) else failed
  | .binding, .bind ok =>
      if ok ∧ s.path = .absent then some (touching s ({ s with path := .socket (some p) }.goto p .listening) p act) else failed
  | .listening, .listen ok => if ok then quiet ((s.hear p true).goto p .restricting) else failed
  | .restricting, .restrict ok => if ok ∧ s.path ≠ .absent then some (touching s (s.goto p .serving) p act) else failed
  | .serving, .shutdown => quiet (s.goto p .removing)
  -- The outcome of this removal is ignored.
  | .removing, .remove ok =>
      if ok ∧ s.path ≠ .absent then some (touching s ({ s with path := .absent }.goto p .unlocking) p act)
      else quiet (s.goto p .unlocking)
  -- The lock is dropped before the listener, but after it where the claim fails.
  | .unlocking, .dropLock => quiet ({ s with lock := none }.goto p .closing)
  | .closing, .closeListener => quiet ((s.hear p false).goto p .closed)
  | .failing _, .closeListener => if s.listener p then quiet (s.hear p false) else none
  | .failing _, .dropLock => if s.lock = some p ∧ s.listener p = false then quiet { s with lock := none } else none
  | _, _ => none

-- The kernel closes the files of a dead process one by one, in any order.
def reap (s : State π) (p : π) (act : Act) : Option (State π) :=
  match act with
  | .closeListener => if s.listener p then some (s.hear p false) else none
  | .dropLock => if s.lock = some p then some { s with lock := none } else none
  | _ => none

def step (s : State π) (event : π × Act) : Option (State π × List (Touch π)) :=
  let (p, act) := event
  if s.alive p then
    match act with
    | .crash => some ({ s with alive := Function.update s.alive p false }, [])
    | _ => onAct s p act
  else (reap s p act).map fun after => (after, [])

def machine : Machine (State π) (π × Act) (Touch π) := ⟨step⟩

-- Any number of starters, and whatever an earlier time has left at the path.
def start (path : Content π) : State π := ⟨path, none, fun _ => .ensuringParent, fun _ => false, fun _ => true⟩

-- The calls between the second probe and the release of the lock.
def Pc.locked : Pc → Bool
  | .reprobing | .inspecting | .unlinking | .binding | .listening | .restricting | .serving | .removing | .unlocking => true
  | _ => false

-- Before anything at the path is touched, or refused without.
def Pc.untouching : Pc → Bool
  | .ensuringParent | .probing | .locking | .reprobing | .inspecting => true
  | .failing err => err ≠ .io
  | _ => false

inductive Advances (s : State π) : Pc → Pc → Prop where
  | parent : Advances s .ensuringParent .probing
  | probed (dead : s.answers = false) : Advances s .probing .locking
  | reprobed (dead : s.answers = false) : Advances s .reprobing .inspecting
  | stale (owner : Option π) (found : s.path = .socket owner) : Advances s .inspecting .unlinking
  | vacant (found : s.path = .absent) : Advances s .inspecting .binding
  | shutdown : Advances s .serving .removing
  | unremoved : Advances s .removing .unlocking
  | failed (pc : Pc) : Advances s pc (.failing .io)
  | refused (pc : Pc) (err : ClaimError) (early : pc.untouching = true) : Advances s pc (.failing err)

inductive Moves (s : State π) (p : π) : State π → List (Touch π) → Prop where
  | advance (next : Pc) (running : s.alive p = true) (legal : Advances s (s.pc p) next) : Moves s p (s.goto p next) []
  | lock (running : s.alive p = true) (here : s.pc p = .locking) (free : s.lock = none) :
      Moves s p ({ s with lock := some p }.goto p .reprobing) []
  | unlink (act : Act) (running : s.alive p = true) (here : s.pc p = .unlinking) :
      Moves s p ({ s with path := .absent }.goto p .binding) [⟨p, act, s.path⟩]
  | bind (act : Act) (running : s.alive p = true) (here : s.pc p = .binding) (vacant : s.path = .absent) :
      Moves s p ({ s with path := .socket (some p) }.goto p .listening) [⟨p, act, s.path⟩]
  | listen (running : s.alive p = true) (here : s.pc p = .listening) : Moves s p ((s.hear p true).goto p .restricting) []
  | restrict (act : Act) (running : s.alive p = true) (here : s.pc p = .restricting) :
      Moves s p (s.goto p .serving) [⟨p, act, s.path⟩]
  | remove (act : Act) (running : s.alive p = true) (here : s.pc p = .removing) :
      Moves s p ({ s with path := .absent }.goto p .unlocking) [⟨p, act, s.path⟩]
  | unlock (running : s.alive p = true) (here : s.pc p = .unlocking) : Moves s p ({ s with lock := none }.goto p .closing) []
  | close (running : s.alive p = true) (here : s.pc p = .closing) : Moves s p ((s.hear p false).goto p .closed) []
  -- What a failed claim and the kernel of a dead process do with its files.
  | dropListener (leaving : s.alive p = true → ∃ err, s.pc p = .failing err) : Moves s p (s.hear p false) []
  | dropLock (leaving : s.alive p = true → ∃ err, s.pc p = .failing err) (held : s.lock = some p) :
      Moves s p { s with lock := none } []
  | crash : Moves s p { s with alive := Function.update s.alive p false } []

theorem goto_pc (s : State π) (p q : π) (pc : Pc) (other : q ≠ p) : (s.goto p pc).pc q = s.pc q := Function.update_of_ne other _ _

theorem goto_pc_self (s : State π) (p : π) (pc : Pc) : (s.goto p pc).pc p = pc := Function.update_self _ _ _

theorem hear_listener (s : State π) (p q : π) (listener : Bool) (other : q ≠ p) : (s.hear p listener).listener q = s.listener q :=
  Function.update_of_ne other _ _

theorem hear_listener_self (s : State π) (p : π) (listener : Bool) : (s.hear p listener).listener p = listener :=
  Function.update_self _ _ _

theorem hear_answers (s : State π) (p : π) (silent : s.answers = false) : (s.hear p false).answers = false := by
  unfold State.answers State.hear at *
  cases content : s.path with
  | absent => rfl
  | other => rfl
  | socket owner =>
      cases owner with
      | none => rfl
      | some owner =>
          simp only [content] at silent ⊢
          by_cases own : owner = p
          · rw [own, Function.update_self]
          · rw [Function.update_of_ne own, silent]

theorem socket_is_live_moves (s after : State π) (p : π) (answer : Probe) (next : Pc) (running : s.alive p = true)
    (early : (s.pc p).untouching = true) (legal : s.answers = false → Advances s (s.pc p) next)
    (probed : socketIsLive s p answer next = some after) : Moves s p after [] := by
  cases answer with
  | live =>
      simp only [socketIsLive, Option.ite_none_right_eq_some, Option.some.injEq] at probed
      obtain ⟨_, rfl⟩ := probed
      exact .advance _ running (.refused _ _ early)
  | dead =>
      simp only [socketIsLive, Option.ite_none_left_eq_some, Option.some.injEq, Bool.not_eq_true] at probed
      obtain ⟨dead, rfl⟩ := probed
      exact .advance next running (legal dead)
  | error =>
      simp only [socketIsLive, Option.some.injEq] at probed
      subst probed
      exact .advance _ running (.failed _)

theorem acquire_lock_moves (s : State π) (p : π) (running : s.alive p = true) (here : s.pc p = .locking) :
    Moves s p (acquireLock s p) [] := by
  unfold acquireLock
  cases held : s.lock with
  | none => exact .lock running here held
  | some owner => exact .advance _ running (.refused _ _ (by rw [here]; rfl))

theorem unlink_if_socket_moves (s : State π) (p : π) (running : s.alive p = true) (here : s.pc p = .inspecting) :
    Moves s p (unlinkIfSocket s p) [] := by
  unfold unlinkIfSocket
  cases content : s.path with
  | absent => exact .advance _ running (here ▸ .vacant content)
  | other => exact .advance _ running (.refused _ _ (by rw [here]; rfl))
  | socket owner => exact .advance _ running (here ▸ .stale owner content)

theorem fallible_moves (s after : State π) (p : π) (ok : Prop) [Decidable ok] (good : State π × List (Touch π))
    (made : List (Touch π)) (running : s.alive p = true)
    (succeeded : ok → Moves s p good.1 good.2)
    (acted : (if ok then some good else some (s.goto p (.failing .io), [])) = some (after, made)) : Moves s p after made := by
  split at acted
  case isTrue fine =>
    cases acted
    exact succeeded fine
  case isFalse =>
    cases acted
    exact .advance _ running (.failed _)

theorem on_act_moves (s after : State π) (p : π) (act : Act) (made : List (Touch π)) (running : s.alive p = true)
    (acted : onAct s p act = some (after, made)) : Moves s p after made := by
  simp only [onAct] at acted
  split at acted
  case h_1 here => exact fallible_moves s after p _ _ made running (fun _ => .advance _ running (here ▸ .parent)) acted
  case h_2 answer here =>
    obtain ⟨next, probed, quiet⟩ := Option.bind_eq_some_iff.mp acted
    cases quiet
    exact socket_is_live_moves s after p answer _ running (by rw [here]; rfl) (fun dead => here ▸ .probed dead) probed
  case h_3 here => exact fallible_moves s after p _ _ made running (fun _ => acquire_lock_moves s p running here) acted
  case h_4 answer here =>
    obtain ⟨next, probed, quiet⟩ := Option.bind_eq_some_iff.mp acted
    cases quiet
    exact socket_is_live_moves s after p answer _ running (by rw [here]; rfl) (fun dead => here ▸ .reprobed dead) probed
  case h_5 here => exact fallible_moves s after p _ _ made running (fun _ => unlink_if_socket_moves s p running here) acted
  case h_6 here => exact fallible_moves s after p _ _ made running (fun _ => .unlink _ running here) acted
  case h_7 here => exact fallible_moves s after p _ _ made running (fun fine => .bind _ running here fine.2) acted
  case h_8 here => exact fallible_moves s after p _ _ made running (fun _ => .listen running here) acted
  case h_9 here => exact fallible_moves s after p _ _ made running (fun _ => .restrict _ running here) acted
  case h_10 here =>
    cases acted
    exact .advance _ running (here ▸ .shutdown)
  case h_11 here =>
    split at acted
    · cases acted
      exact .remove _ running here
    · cases acted
      exact .advance _ running (here ▸ .unremoved)
  case h_12 here =>
    cases acted
    exact .unlock running here
  case h_13 here =>
    cases acted
    exact .close running here
  case h_14 err here =>
    split at acted
    · cases acted
      exact .dropListener fun _ => ⟨err, here⟩
    · cases acted
  case h_15 err here =>
    split at acted
    case isTrue held =>
      cases acted
      exact .dropLock (fun _ => ⟨err, here⟩) held.1
    case isFalse => cases acted
  case h_16 => cases acted

theorem reap_moves (s after : State π) (p : π) (act : Act) (dead : s.alive p = false) (reaped : reap s p act = some after) :
    Moves s p after [] := by
  have leaving : s.alive p = true → ∃ err, s.pc p = .failing err := by simp [dead]
  unfold reap at reaped
  split at reaped
  · simp only [Option.ite_none_right_eq_some, Option.some.injEq] at reaped
    obtain ⟨_, rfl⟩ := reaped
    exact .dropListener leaving
  · simp only [Option.ite_none_right_eq_some, Option.some.injEq] at reaped
    obtain ⟨held, rfl⟩ := reaped
    exact .dropLock leaving held
  · cases reaped

theorem step_moves (s after : State π) (p : π) (act : Act) (made : List (Touch π))
    (stepped : step s (p, act) = some (after, made)) : Moves s p after made := by
  simp only [step] at stepped
  split at stepped
  case isTrue running =>
    split at stepped
    · cases stepped
      exact .crash
    · exact on_act_moves s after p act made running stepped
  case isFalse dead =>
    simp only [Option.map_eq_some_iff, Prod.mk.injEq] at stepped
    obtain ⟨_, reaped, rfl, rfl⟩ := stepped
    exact reap_moves s _ p act (by simpa using dead) reaped

def Relies (s : State π) (p : π) : Pc → Prop
  | .reprobing | .unlocking => s.lock = some p
  | .inspecting | .unlinking => s.lock = some p ∧ s.answers = false
  | .binding => s.lock = some p ∧ s.path = .absent
  | .listening => s.lock = some p ∧ s.path = .socket (some p)
  | .restricting | .serving | .removing => s.lock = some p ∧ s.path = .socket (some p) ∧ s.listener p = true
  | _ => True

def Asserts (s : State π) (p : π) : Prop := s.alive p = true → Relies s p (s.pc p)

omit [DecidableEq π] in
theorem relies_lock (s : State π) (p : π) (pc : Pc) (relied : Relies s p pc) (locked : pc.locked = true) : s.lock = some p := by
  cases pc with
  | reprobing | unlocking => exact relied
  | inspecting | unlinking | binding | listening | restricting | serving | removing => exact relied.1
  | _ => cases locked

omit [DecidableEq π] in
theorem relies_unlocked (s : State π) (p : π) (pc : Pc) (unlocked : pc.locked = false) : Relies s p pc := by
  cases pc with
  | ensuringParent | probing | locking | closing | closed | failing => trivial
  | _ => cases unlocked

omit [DecidableEq π] in
theorem relies_frame (s after : State π) (p : π) (pc : Pc) (relied : Relies s p pc) (lock : after.lock = s.lock)
    (path : after.path = s.path) (listener : after.listener p = s.listener p)
    (silent : s.answers = false → after.answers = false) : Relies after p pc := by
  cases pc with
  | reprobing | unlocking => exact lock.trans relied
  | inspecting | unlinking => exact ⟨lock.trans relied.1, silent relied.2⟩
  | binding | listening => exact ⟨lock.trans relied.1, path.trans relied.2⟩
  | restricting | serving | removing => exact ⟨lock.trans relied.1, path.trans relied.2.1, listener.trans relied.2.2⟩
  | _ => trivial

theorem asserts_goto (s : State π) (p : π) (pc : Pc) (relied : Relies s p pc) : Asserts (s.goto p pc) p := by
  intro _
  rw [goto_pc_self]
  cases pc <;> exact relied

omit [DecidableEq π] in
theorem asserts_here (s : State π) (p : π) (pc : Pc) (asserted : Asserts s p) (running : s.alive p = true) (here : s.pc p = pc) :
    Relies s p pc := by
  subst here
  exact asserted running

omit [DecidableEq π] in
theorem asserts_excluded (s after : State π) (q : π) (asserted : Asserts s q) (excluded : s.lock ≠ some q)
    (pc : after.pc q = s.pc q) (alive : after.alive q = s.alive q) : Asserts after q := by
  intro running
  rw [alive] at running
  rw [pc]
  apply relies_unlocked
  by_contra locked
  exact excluded (relies_lock s q _ (asserted running) (by simpa using locked))

omit [DecidableEq π] in
theorem asserts_frame (s after : State π) (q : π) (asserted : Asserts s q) (pc : after.pc q = s.pc q)
    (alive : after.alive q = true → s.alive q = true) (lock : after.lock = s.lock) (path : after.path = s.path)
    (listener : after.listener q = s.listener q) (silent : s.answers = false → after.answers = false) : Asserts after q := by
  intro running
  rw [pc]
  exact relies_frame s after q _ (asserted (alive running)) lock path listener silent

theorem moves_pc (s after : State π) (p q : π) (made : List (Touch π)) (moved : Moves s p after made) (other : q ≠ p) :
    after.pc q = s.pc q := by
  cases moved with
  | dropListener => rfl
  | dropLock => rfl
  | crash => rfl
  | _ => exact goto_pc _ p q _ other

theorem asserts_undisturbed (s after : State π) (p q : π) (made : List (Touch π)) (other : q ≠ p) (mine : Asserts s p)
    (asserted : Asserts s q) (moved : Moves s p after made) : Asserts after q := by
  -- The calls that change what others rely on are made under the lock.
  have excluded : ∀ pc, s.alive p = true → s.pc p = pc → pc.locked = true → s.lock ≠ some q := by
    intro pc running here locked
    rw [relies_lock s p pc (asserts_here s p pc mine running here) locked]
    simpa using other.symm
  cases moved with
  | advance next running _ =>
      exact asserts_frame s _ q asserted (goto_pc s p q next other) id rfl rfl rfl id
  | lock running here free =>
      exact asserts_excluded s _ q asserted (by simp [free]) (goto_pc _ p q _ other) rfl
  | unlink act running here => exact asserts_excluded s _ q asserted (excluded _ running here rfl) (goto_pc _ p q _ other) rfl
  | bind act running here vacant => exact asserts_excluded s _ q asserted (excluded _ running here rfl) (goto_pc _ p q _ other) rfl
  | listen running here => exact asserts_excluded s _ q asserted (excluded _ running here rfl) (goto_pc _ p q _ other) rfl
  | restrict act running here => exact asserts_excluded s _ q asserted (excluded _ running here rfl) (goto_pc _ p q _ other) rfl
  | remove act running here => exact asserts_excluded s _ q asserted (excluded _ running here rfl) (goto_pc _ p q _ other) rfl
  | unlock running here => exact asserts_excluded s _ q asserted (excluded _ running here rfl) (goto_pc _ p q _ other) rfl
  | close running here =>
      exact asserts_frame s _ q asserted (goto_pc _ p q _ other) id rfl rfl (hear_listener s p q false other) (hear_answers s p)
  | dropListener leaving =>
      exact asserts_frame s _ q asserted rfl id rfl rfl (hear_listener s p q false other) (hear_answers s p)
  | dropLock leaving held =>
      refine asserts_excluded s _ q asserted ?_ rfl rfl
      rw [held]
      simpa using other.symm
  | crash =>
      refine asserts_frame s _ q asserted rfl ?_ rfl rfl rfl id
      simp [Function.update_of_ne other]

omit [DecidableEq π] in
theorem advances_relies (s : State π) (p : π) (pc next : Pc) (relied : Relies s p pc) (legal : Advances s pc next) :
    Relies s p next := by
  cases legal with
  | parent => trivial
  | probed _ => trivial
  | reprobed dead => exact ⟨relied, dead⟩
  | stale _ _ => exact relied
  | vacant found => exact ⟨relied.1, found⟩
  | shutdown => exact relied
  | unremoved => exact relied.1
  | failed => trivial
  | refused => trivial

theorem asserts_correct (s after : State π) (p : π) (made : List (Touch π)) (mine : Asserts s p)
    (moved : Moves s p after made) : Asserts after p := by
  -- A party that only drops its files relies on nothing.
  have left : ∀ after, (s.alive p = true → ∃ err, s.pc p = .failing err) → after.alive = s.alive → after.pc = s.pc →
      Asserts after p := by
    intro after leaving alive pc running
    rw [alive] at running
    obtain ⟨err, here⟩ := leaving running
    rw [pc, here]
    trivial
  cases moved with
  | advance next running legal => exact asserts_goto s p next (advances_relies s p _ next (mine running) legal)
  | lock running here free => exact asserts_goto _ p .reprobing rfl
  | unlink act running here =>
      obtain ⟨locked, _⟩ := asserts_here s p _ mine running here
      exact asserts_goto _ p .binding ⟨locked, rfl⟩
  | bind act running here vacant =>
      obtain ⟨locked, _⟩ := asserts_here s p _ mine running here
      exact asserts_goto _ p .listening ⟨locked, rfl⟩
  | listen running here =>
      obtain ⟨locked, bound⟩ := asserts_here s p _ mine running here
      exact asserts_goto _ p .restricting ⟨locked, bound, hear_listener_self s p true⟩
  | restrict act running here =>
      have held := asserts_here s p .restricting mine running here
      exact asserts_goto s p .serving held
  | remove act running here =>
      obtain ⟨locked, _⟩ := asserts_here s p _ mine running here
      exact asserts_goto _ p .unlocking locked
  | unlock running here => exact asserts_goto _ p .closing trivial
  | close running here => exact asserts_goto _ p .closed trivial
  | dropListener leaving => exact left _ leaving rfl rfl
  | dropLock leaving held => exact left _ leaving rfl rfl
  | crash =>
      intro running
      simp at running

theorem asserts_reachable (path : Content π) (s : State π) (reached : machine.Reachable (start path) s) (p : π) : Asserts s p := by
  refine machine.assertions_reachable (start path) Asserts ?_ ?_ ?_ s reached p
  · intro p _
    trivial
  · intro s p act after made mine stepped
    exact asserts_correct s after p made mine (step_moves s after p act made stepped)
  · intro s p q act after made other mine asserted stepped
    exact asserts_undisturbed s after p q made other mine asserted (step_moves s after p act made stepped)

def Owns (s : State π) (p : π) : Prop := s.alive p = true ∧ (s.pc p = .serving ∨ s.pc p = .removing)

def Harmless (s : State π) (event : π × Act) : Prop :=
  ∀ after made, step s event = some (after, made) → after.path = s.path ∧ made = []

def Spares (s : State π) (event : π × Act) : Prop :=
  ∀ owner, owner ≠ event.1 → s.path = .socket (some owner) → s.listener owner = true → Harmless s event

omit [DecidableEq π] in
theorem answers_listener (s : State π) (owner : π) (found : s.path = .socket (some owner)) : s.answers = s.listener owner := by
  simp [State.answers, found]

omit [DecidableEq π] in
theorem owns_asserts (s : State π) (p : π) (asserted : Asserts s p) (owns : Owns s p) :
    s.lock = some p ∧ s.path = .socket (some p) ∧ s.listener p = true := by
  obtain ⟨running, here | here⟩ := owns
  · exact asserts_here s p .serving asserted running here
  · exact asserts_here s p .removing asserted running here

theorem spares_asserts (s : State π) (event : π × Act) (mine : Asserts s event.1) : Spares s event := by
  obtain ⟨p, act⟩ := event
  intro owner other found hears after made stepped
  have answered : s.answers = true := by rw [answers_listener s owner found, hears]
  -- The socket at the path is not the party's own.
  have foreign : s.path ≠ .socket (some p) := by simpa [found] using other
  cases step_moves s after p act made stepped with
  | unlink _ running here =>
      obtain ⟨_, silent⟩ := asserts_here s p _ mine running here
      simp [answered] at silent
  | bind _ running here vacant => simp [found] at vacant
  | restrict _ running here =>
      obtain ⟨_, bound, _⟩ := asserts_here s p _ mine running here
      exact absurd bound foreign
  | remove _ running here =>
      obtain ⟨_, bound, _⟩ := asserts_here s p _ mine running here
      exact absurd bound foreign
  | _ => exact ⟨rfl, rfl⟩

theorem untouching_step (s after : State π) (p q : π) (made : List (Touch π)) (moved : Moves s p after made)
    (kept : (after.pc q).untouching = true) : (s.pc q).untouching = true ∧ (q = p → after.path = s.path ∧ made = []) := by
  by_cases own : q = p
  · subst own
    cases moved with
    | advance next running legal =>
        rw [goto_pc_self] at kept
        refine ⟨?_, fun _ => ⟨rfl, rfl⟩⟩
        generalize s.pc q = pc at legal
        cases legal <;> simp_all [Pc.untouching]
    | lock _ here _ => exact ⟨by rw [here]; rfl, fun _ => ⟨rfl, rfl⟩⟩
    | dropListener => exact ⟨kept, fun _ => ⟨rfl, rfl⟩⟩
    | dropLock => exact ⟨kept, fun _ => ⟨rfl, rfl⟩⟩
    | crash => exact ⟨kept, fun _ => ⟨rfl, rfl⟩⟩
    | _ =>
        rw [goto_pc_self] at kept
        cases kept
  · refine ⟨?_, fun same => absurd same own⟩
    rwa [moves_pc s after p q made moved own] at kept

theorem untouching_run (path : Content π) (events : List (π × Act)) (touches : List (Touch π)) (s : State π)
    (run : machine.Run (start path) events touches s) (p : π) (kept : (s.pc p).untouching = true) :
    machine.Throughout (start path) (fun before event => event.1 = p → Harmless before event) events := by
  induction run with
  | idle => exact machine.throughout_nil _ _
  | @next events touches s before event made after stepped ih =>
      obtain ⟨q, act⟩ := event
      obtain ⟨early, harmless⟩ := untouching_step s after q p made (step_moves s after q act made stepped) kept
      rw [machine.throughout_snoc _ s _ events touches before]
      refine ⟨ih early, ?_⟩
      intro same next more moved
      rw [show machine.step = step from rfl, moved] at stepped
      cases stepped
      exact harmless same.symm

theorem socket_not_hijacked (path : Content π) (events : List (π × Act)) (touches : List (Touch π)) (s : State π)
    (run : machine.Run (start path) events touches s) :
    (∀ p q, Owns s p → Owns s q → p = q) ∧
    (∀ p, Owns s p → s.path = .socket (some p) ∧ s.answers = true) ∧
    machine.Throughout (start path) Spares events ∧
    ∀ p err, s.pc p = .failing err → err ≠ .io →
      machine.Throughout (start path) (fun before event => event.1 = p → Harmless before event) events := by
  have asserted := asserts_reachable path s ⟨events, touches, run⟩
  refine ⟨?_, ?_, ?_, ?_⟩
  · intro p q first second
    have held := (owns_asserts s p (asserted p) first).1
    rw [(owns_asserts s q (asserted q) second).1] at held
    simpa using held.symm
  · intro p owns
    obtain ⟨_, bound, hears⟩ := owns_asserts s p (asserted p) owns
    exact ⟨bound, by rw [answers_listener s p bound, hears]⟩
  · intro before event rest made middle _ reached
    exact spares_asserts middle event (asserts_reachable path middle ⟨before, made, reached⟩ event.1)
  · intro p err failing refused
    exact untouching_run path events touches s run p (by simpa [failing, Pc.untouching] using refused)

-- The first party takes over a stale socket and serves it; the second is refused.
def contested : List (Bool × Act) :=
  [(true, .ensureParent true), (false, .ensureParent true), (false, .probe .dead), (false, .flock true), (false, .probe .dead),
    (false, .inspect true), (false, .unlink true), (false, .bind true), (false, .listen true), (false, .restrict true),
    (true, .probe .live)]

theorem socket_not_hijacked_contested : ∃ s : State Bool,
    s.path = .socket (some false) ∧ s.answers = true ∧ s.pc true = .failing .addrInUse ∧ (∀ p, Owns s p → p = false) ∧
    machine.Throughout (start (.socket none)) Spares contested := by
  have run := (machine : Machine (State Bool) (Bool × Act) (Touch Bool)).exec_run (start (.socket none)) contested _ _ rfl
  obtain ⟨alone, served, spared, _⟩ := socket_not_hijacked (.socket none) contested _ _ run
  obtain ⟨bound, answered⟩ := served false ⟨rfl, .inl rfl⟩
  exact ⟨_, bound, answered, rfl, fun p other => alone p false other ⟨rfl, .inl rfl⟩, spared⟩

end Socket

end Admin

end NextSocks5
