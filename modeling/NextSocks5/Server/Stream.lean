import NextSocks5.Metrics
import NextSocks5.Protocol.Reply

set_option autoImplicit false

namespace NextSocks5

def readBuf : Nat := 512

-- One successful read into the 512-byte chunk; a read of nothing is EOF.
structure Chunk where
  bytes : Bytes
  nonempty : bytes ≠ []
  bounded : bytes.length ≤ readBuf

-- The handshake deadline may cancel the pending read.
inductive ReadEnd where
  | eof
  | error
  | stalled
deriving DecidableEq, Repr

-- Failed, or cancelled by the handshake deadline, after some bytes.
inductive WriteOutcome where
  | done
  | failed (accepted : Nat)
  | stalled (accepted : Nat)
deriving DecidableEq, Repr

-- Past the list of writes they succeed.
structure TcpStream where
  reads : List Chunk
  readEnd : ReadEnd
  writes : List WriteOutcome

inductive Effect where
  | wrote (data : Bytes) (outcome : WriteOutcome)
  | reply (code : UInt8) (bind : Address) (outcome : WriteOutcome)
  | emit (event : Event)
  | recordError (code : UInt8)
deriving DecidableEq, Repr

def WriteOutcome.taken (data : Bytes) : WriteOutcome → Bytes
  | .done => data
  | .failed accepted | .stalled accepted => data.take accepted

def Effect.bytes : Effect → Bytes
  | .wrote data outcome => outcome.taken data
  | .reply code bind outcome => outcome.taken (encodeReply code bind [])
  | _ => []

namespace TcpStream

def writeOutcome (s : TcpStream) : WriteOutcome := s.writes.head?.getD .done

def afterWrite (s : TcpStream) : TcpStream := { s with writes := s.writes.tail }

def unread (s : TcpStream) : Bytes := s.reads.flatMap Chunk.bytes

def Healthy (s : TcpStream) : Prop := s.readEnd ≠ .stalled ∧ ∀ outcome ∈ s.writes, outcome = .done

theorem healthy_write (s : TcpStream) (healthy : s.Healthy) : s.writeOutcome = .done := by
  cases writesEq : s.writes with
  | nil => simp [writeOutcome, writesEq]
  | cons first rest =>
      have ok := healthy.2 first (by simp [writesEq])
      simp [writeOutcome, writesEq, ok]

theorem healthy_after_write (s : TcpStream) (healthy : s.Healthy) : s.afterWrite.Healthy :=
  ⟨healthy.1, fun outcome member => healthy.2 outcome (List.mem_of_mem_tail member)⟩

theorem healthy_reads (s : TcpStream) (reads : List Chunk) (healthy : s.Healthy) : { s with reads := reads }.Healthy :=
  healthy

end TcpStream

-- A failure reply carries a zeroed IPv4 bound address.
def failureBind : Address := .v4 .unspecified 0

end NextSocks5
