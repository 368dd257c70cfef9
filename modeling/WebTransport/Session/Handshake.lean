import WebTransport.Quinn.Network
import WebTransport.Session.Upgrade

open rust rust.Outcome rust.Async quinn

namespace wt_rs

/-- A client that runs `Connection::open`, a server that runs `Connection::upgrade`, and the
connection between them. -/
structure Handshake where
  party : Side → TryJoin Quic WTError (wt_proto.h3.Settings × StreamId) StreamId Connection
  net : Network

/-- A function of one side gets on, bytes arrive, or the application of a side does something. -/
inductive Handshake.Event where
  | act (side : Side) (branch : Branch)
  | deliver (sender : Side) (stream : StreamId) (len : Nat)
  | app (side : Side) (op : Op)

/-- What the handshake itself consists of: the applications are not needed for it, nor are other
streams. -/
def Handshake.Event.Internal : Handshake.Event → Prop
  | .act _ _ => True
  | .deliver _ stream _ => stream ∈ [⟨.Client, .Uni, 0⟩, ⟨.Server, .Uni, 0⟩, ⟨.Client, .Bi, 0⟩]
  | .app _ _ => False

/-- The streams a connection keeps for itself. -/
def Connection.held (self : Connection) : List StreamId :=
  (self.settings.toList.flatMap fun settings => [settings.reader, settings.writer]) ++
    self.connect.toList.flatMap fun connect => [connect.inner.reader, connect.inner.writer]

/-- The application has no access to the streams of the handshake. -/
def Connection.Offers (self : Connection) : Op → Prop
  | .write_all stream _ => stream ∉ self.held
  | .read_exact stream _ => stream ∉ self.held
  | _ => True

instance (self : Connection) (op : Op) : Decidable (self.Offers op) :=
  match op with
  | .write_all _ _ => inferInstanceAs (Decidable (¬ _))
  | .read_exact _ _ => inferInstanceAs (Decidable (¬ _))
  | .open_uni | .open_bi | .accept_uni | .accept_bi => .isTrue trivial

namespace Handshake

/-- `orders` are the orders in which the two sides iterate their maps. -/
def start (fuel : Nat) (orders : Side → Orders) : Handshake where
  party
    | .Client => Connection.open_ fuel (orders .Client)
    | .Server => Connection.upgrade fuel (orders .Server)
  net := .new

/-- What the function a side runs has come back with. -/
def result (self : Handshake) (side : Side) : Option (Outcome WTError Connection) :=
  match self.party side with
  | .joined (.done result) => some result
  | _ => none

def step (self : Handshake) : Event → Option Handshake
  | .act side branch =>
    match (self.party side).step (Network.serve side) branch self.net with
    | some (next, net) => some { party := Function.update self.party side next, net }
    | none => none
  | .deliver sender stream len =>
    if 0 < len ∧ len ≤ (self.net.flight (sender, stream)).length then
      some { self with net := self.net.deliver sender stream len }
    else none
  | .app side op =>
    match self.result side with
    | some (ok connection) =>
      if self.net.Permits side op ∧ connection.Offers op then
        match self.net.serve side op with
        | some (_, net) => some { self with net }
        | none => none
      else none
    | _ => none

end Handshake

end wt_rs
