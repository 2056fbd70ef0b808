import NextSocks5.Server.Bulletin
import NextSocks5.Tui.Session

set_option autoImplicit false

namespace NextSocks5

namespace Tui

open Receiver (Report Books Covers)

variable {τ : Type} [DecidableEq τ]

structure Live (τ : Type) where
  server : Bulletin.State τ
  session : Session

inductive Wake (τ : Type) where
  | server (wake : Bulletin.Wake τ)
  | tick
  | poll
  | swept
  | sample (now : Nat)
  | key (action : KeyAction)

def sendAll (capacity : Nat) (s : Session) (events : List Event) : Session :=
  events.foldl (fun s ev => { s with events := s.events.send capacity ev }) s

def Live.act (s : Live τ) : Wake τ → Option Act
  | .server _ => none
  | .tick => some .tick
  | .poll => some .poll
  | .swept => some .swept
  | .sample now => some (.sample now s.server.registry.metrics.connections)
  | .key action => some (.key action)

def live (capacity : Nat) (screen : Screen) : Machine (Live τ) (Wake τ) Drawn where
  step s wake :=
    match s.act wake, wake with
    | some act, _ => ((session capacity screen).step s.session act).map fun (session, drawn) => ({ s with session }, drawn)
    | none, .server wake =>
        (Bulletin.machine.step s.server wake).map fun (server, events) => (⟨server, sendAll capacity s.session events⟩, [])
    | none, _ => none

def Live.start (programs : τ → Registry.Execution) : Live τ := ⟨Bulletin.start programs, .new⟩

end Tui

end NextSocks5
