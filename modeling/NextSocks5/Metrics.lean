import NextSocks5.Net

set_option autoImplicit false

namespace NextSocks5

inductive ConnKind where
  | connect
  | udp
deriving DecidableEq, Repr

structure ConnInfo where
  id : Nat
  src : SocketAddr
  target : String
  kind : ConnKind
  up : Nat
  down : Nat
deriving DecidableEq, Repr

structure Snapshot where
  bytesUp : Nat
  bytesDown : Nat
  totalConns : Nat
  activeConns : UInt64
  successes : Nat
  failures : Nat
  errorCodes : Vector Nat 9
deriving DecidableEq, Repr

def Snapshot.default : Snapshot := ⟨0, 0, 0, 0, 0, 0, Vector.replicate 9 0⟩

inductive Event where
  | connect (id : Nat) (src : SocketAddr) (target : String) (kind : ConnKind)
  | closed (id : Nat)
  | auth (ok : Bool) (user : String)
  | error (code : UInt8) (msg : String)
  | log (text : String)
deriving DecidableEq, Repr

-- Two lowercase hex digits, as the format specifier 02x writes a byte.
def hexByte (byte : UInt8) : String := String.ofList [Nat.digitChar (byte.toNat / 16), Nat.digitChar (byte.toNat % 16)]

def formatEvent (ev : Event) : String :=
  match ev with
  | .connect id src target kind =>
      let kind := match kind with
        | .connect => "CONNECT"
        | .udp => "UDP"
      s!"[#{id}] {kind} open {src.display} -> {target}"
  | .closed id => s!"[#{id}] closed"
  | .auth ok user => if ok then s!"auth ok for '{user}'" else s!"auth failed (denied) for '{user}'"
  | .error code msg => s!"error 0x{hexByte code}: {msg}"
  | .log text => text

-- Only active_conns is ever decremented, so only it keeps its machine type.
structure Metrics where
  bytesUp : Nat
  bytesDown : Nat
  totalConns : Nat
  activeConns : UInt64
  successes : Nat
  failures : Nat
  errorCodes : Vector Nat 9
  registry : AList (fun _ : Nat => ConnInfo)
  nextId : Nat

namespace Metrics

def new : Metrics := ⟨0, 0, 0, 0, 0, 0, Vector.replicate 9 0, ∅, 1⟩

def register (m : Metrics) (src : SocketAddr) (target : String) (kind : ConnKind) : Nat × Metrics :=
  let id := m.nextId
  (id, { m with
    nextId := id + 1
    totalConns := m.totalConns + 1
    activeConns := m.activeConns + 1
    registry := m.registry.insert id ⟨id, src, target, kind, 0, 0⟩ })

-- The active count is decremented even for an unknown id.
def unregister (m : Metrics) (id : Nat) : Metrics :=
  { m with activeConns := m.activeConns - 1, registry := m.registry.erase id }

def modify (m : Metrics) (id : Nat) (change : ConnInfo → ConnInfo) : Metrics :=
  match m.registry.lookup id with
  | none => m
  | some info => { m with registry := m.registry.insert id (change info) }

def addUp (m : Metrics) (id n : Nat) : Metrics :=
  { m with bytesUp := m.bytesUp + n }.modify id fun info => { info with up := info.up + n }

def addDown (m : Metrics) (id n : Nat) : Metrics :=
  { m with bytesDown := m.bytesDown + n }.modify id fun info => { info with down := info.down + n }

-- A code above 8 counts as a failure but has no histogram bucket.
def recordError (m : Metrics) (code : UInt8) : Metrics :=
  let counted := { m with failures := m.failures + 1 }
  if bucket : code.toNat ≤ 8 then
    { counted with errorCodes := m.errorCodes.set code.toNat (m.errorCodes[code.toNat] + 1) }
  else counted

def countCode (m : Metrics) (code : UInt8) : Metrics :=
  if bucket : code.toNat ≤ 8 then { m with errorCodes := m.errorCodes.set code.toNat (m.errorCodes[code.toNat] + 1) } else m

def recordSuccess (m : Metrics) : Metrics := { m with successes := m.successes + 1 }

def snapshot (m : Metrics) : Snapshot :=
  ⟨m.bytesUp, m.bytesDown, m.totalConns, m.activeConns, m.successes, m.failures, m.errorCodes⟩

def connections (m : Metrics) : List ConnInfo := m.registry.entries.map Sigma.snd

def entry (m : Metrics) (id : Nat) : Option ConnInfo := m.registry.lookup id

theorem record_error_steps (m : Metrics) (code : UInt8) :
    m.recordError code = { m with failures := m.failures + 1 }.countCode code := rfl

@[simp] theorem entry_register (m : Metrics) (src : SocketAddr) (target : String) (kind : ConnKind) :
    (m.register src target kind).2.entry (m.register src target kind).1 = some ⟨m.nextId, src, target, kind, 0, 0⟩ := by
  simp [register, entry]

@[simp] theorem entry_record_success (m : Metrics) (id : Nat) : m.recordSuccess.entry id = m.entry id := rfl

@[simp] theorem entry_unregister (m : Metrics) (id : Nat) : (m.unregister id).entry id = none := by
  simp [unregister, entry]

theorem entry_modify (m : Metrics) (id : Nat) (change : ConnInfo → ConnInfo) :
    (m.modify id change).entry id = (m.entry id).map change := by
  cases found : m.registry.lookup id <;> simp [modify, entry, found]

theorem bytes_up_modify (m : Metrics) (id : Nat) (change : ConnInfo → ConnInfo) : (m.modify id change).bytesUp = m.bytesUp := by
  cases found : m.registry.lookup id <;> simp [modify, found]

theorem bytes_down_modify (m : Metrics) (id : Nat) (change : ConnInfo → ConnInfo) :
    (m.modify id change).bytesDown = m.bytesDown := by
  cases found : m.registry.lookup id <;> simp [modify, found]

@[simp] theorem entry_add_up (m : Metrics) (id n : Nat) :
    (m.addUp id n).entry id = (m.entry id).map fun info => { info with up := info.up + n } :=
  entry_modify { m with bytesUp := m.bytesUp + n } id _

@[simp] theorem entry_add_down (m : Metrics) (id n : Nat) :
    (m.addDown id n).entry id = (m.entry id).map fun info => { info with down := info.down + n } :=
  entry_modify { m with bytesDown := m.bytesDown + n } id _

theorem record_errors (m : Metrics) (codes : List UInt8) :
    (codes.foldl recordError m).failures = m.failures + codes.length ∧
    ∀ (code : UInt8) (bucket : code.toNat < 9),
      (codes.foldl recordError m).errorCodes[code.toNat] = m.errorCodes[code.toNat] + codes.count code := by
  induction codes generalizing m with
  | nil => simp
  | cons first codes ih =>
      obtain ⟨failures, buckets⟩ := ih (m.recordError first)
      refine ⟨?_, ?_⟩
      · rw [List.foldl_cons, failures, List.length_cons]
        have one : (m.recordError first).failures = m.failures + 1 := by
          rw [recordError]
          split <;> rfl
        omega
      · intro code bucket
        rw [List.foldl_cons, buckets code bucket, List.count_cons]
        have one : (m.recordError first).errorCodes[code.toNat] = m.errorCodes[code.toNat] + if first == code then 1 else 0 := by
          by_cases same : first = code
          · subst same
            simp [recordError, show first.toNat ≤ 8 by omega]
          · have apart : first.toNat ≠ code.toNat := fun equal => same (UInt8.toNat_inj.mp equal)
            rw [recordError]
            split <;> simp [same, apart]
        omega

end Metrics

end NextSocks5
