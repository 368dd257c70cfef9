import WebTransport.Conn.Decode
import WebTransport.Rust.Futures

open rust rust.Outcome rust.Async quinn wt_proto.coding wt_proto.h3

namespace wt_rs

/-- A task of the runtime, by the waker that wakes it. -/
abbrev TaskId := Nat

/-- A header read in the queue: what `decode_uni` and `decode_bi` have come to. -/
abbrev PendingHeader := Async Quic WTError (VarInt × StreamId)

abbrev Drained := FuturesUnordered StreamId PendingHeader TaskId

/-- The places for H3 streams. -/
inductive Slot where
  | qpack_encoder
  | qpack_decoder
  | push
  deriving DecidableEq, Repr

/-- `WTAccept`. Of the two streams of accepted streams (`uni` and `bi`), `accepting` is the
waker of the last poll that found nothing to accept. -/
structure WTAccept where
  id : VarInt
  drained : Dir → Drained
  accepting : Dir → Option TaskId
  slots : Slot → Option StreamId

/-- An acceptor with its connection: what a poll works on. -/
structure Acceptor where
  accept : WTAccept
  conn : quinn.Connection

/-- What an accept call comes back with. For the record, `cause` is the stream whose header
decided; an error of the connection has none. -/
structure Completion where
  cause : Option StreamId
  result : Outcome WTError StreamId
  deriving DecidableEq

/-- The streams a completed accept call hands to its caller. -/
def Completion.returned (self : Completion) : List StreamId :=
  match self.result with
  | ok stream => [stream]
  | _ => []

/-- What `poll_accept_uni` and `poll_accept_bi` do with a stream of some type. -/
inductive Dispatch where
  | deliver
  | store (slot : Slot)
  | ignore
  deriving DecidableEq, Repr

def dispatch_uni (stype : UniStream) : Dispatch :=
  if stype = .WEBTRANSPORT then .deliver
  else if stype = .QPACK_ENCODER then .store .qpack_encoder
  else if stype = .QPACK_DECODER then .store .qpack_decoder
  else if stype = .PUSH then .store .push
  else .ignore

def dispatch_bi (stype : BiStream) : Dispatch :=
  if stype = .WEBTRANSPORT then .deliver else .ignore

def dispatch (dir : Dir) (stype : VarInt) : Dispatch :=
  match dir with
  | .Uni => dispatch_uni ⟨stype⟩
  | .Bi => dispatch_bi ⟨stype⟩

def WTAccept.new (id : VarInt) : WTAccept where
  id := id
  drained := fun _ => .new
  accepting := fun _ => none
  slots := fun _ => none

namespace Acceptor

def new (id : VarInt) (conn : quinn.Connection) : Acceptor where
  accept := .new id
  conn := conn

def set_drained (self : Acceptor) (dir : Dir) (drained : Drained) : Acceptor :=
  { self with accept := { self.accept with drained := Function.update self.accept.drained dir drained } }

def set_accepting (self : Acceptor) (dir : Dir) (waker : Option TaskId) : Acceptor :=
  { self with
    accept := { self.accept with accepting := Function.update self.accept.accepting dir waker } }

/-- The queue and the streams after header reads have been polled. -/
def set_queue (self : Acceptor) (dir : Dir) (drained : Drained) (streams : StreamId → RecvStream) :
    Acceptor :=
  { self with conn := { self.conn with streams } }.set_drained dir drained

/-- The next stream is accepted, and the read of its header is queued. -/
def take (self : Acceptor) (dir : Dir) : Acceptor :=
  let stream := self.conn.incoming dir (self.conn.accepted dir)
  let conn := { self.conn with
    accepted := Function.update self.conn.accepted dir (self.conn.accepted dir + 1) }
  { self with conn }.set_drained dir
    ((self.accept.drained dir).push stream (decode dir self.accept.id stream))

/-- A stream is put into its place. The one that was there is dropped. -/
def store (self : Acceptor) (slot : Slot) (stream : StreamId) : Acceptor :=
  { self with
    accept := { self.accept with slots := Function.update self.accept.slots slot (some stream) } }

/-- `drain_uni` and `drain_bi`. The unfolded stream of accepted streams never ends, so that
the arm for its end is not there. -/
def drain (dir : Dir) (cx : TaskId) :
    (fuel : Nat) → Acceptor → Outcome Empty (Poll (Except WTError Unit) × Acceptor)
  | 0, _ => diverge
  | fuel + 1, self =>
    if self.conn.accepted dir < self.conn.opened dir then drain dir cx fuel (self.take dir)
    else
      match self.conn.lost with
      | some error => ok (.Ready (.error (.ConnectionError error)), self)
      | none => ok (.Ready (.ok ()), self.set_accepting dir (some cx))

/-- One poll of a header read, which works on its own stream only. -/
def poll_header (lost : Option ConnectionError) (stream : StreamId) (future : PendingHeader)
    (streams : StreamId → RecvStream) :
    (PendingHeader ⊕ Outcome WTError (VarInt × StreamId)) × (StreamId → RecvStream) :=
  match future.poll (RecvStream.serve lost stream) (streams stream) with
  | (.done result, s) => (.inr result, Function.update streams stream s)
  | (future, s) => (.inl future, Function.update streams stream s)

/-- `select_uni` and `select_bi`. Which header reads finish first is up to `order`. -/
def select (dir : Dir) (cx : TaskId) (order : List StreamId) (self : Acceptor) :
    Poll (StreamId × Outcome WTError (VarInt × StreamId)) × Acceptor :=
  match (self.accept.drained dir).poll_next (poll_header self.conn.lost) cx order
      self.conn.streams with
  | (.Ready (some out), drained, streams) => (.Ready out, self.set_queue dir drained streams)
  | (.Ready none, drained, streams) => (.Pending, self.set_queue dir drained streams)
  | (.Pending, drained, streams) => (.Pending, self.set_queue dir drained streams)

/-- The loop of `poll_accept_uni` and `poll_accept_bi`. -/
def poll_loop (dir : Dir) (cx : TaskId) (order : List StreamId) :
    (fuel : Nat) → Acceptor → Outcome Empty (Poll Completion × Acceptor)
  | 0, _ => diverge
  | fuel + 1, self => do
    let (drained, self) ← self.drain dir cx (self.conn.opened dir - self.conn.accepted dir + 1)
    match drained with
    | .Pending => ok (.Pending, self)
    | .Ready (.error error) => ok (.Ready ⟨none, err error⟩, self)
    | .Ready (.ok ()) =>
      match self.select dir cx order with
      | (.Pending, self) => ok (.Pending, self)
      | (.Ready (cause, ok (stype, stream)), self) =>
        match dispatch dir stype with
        | .deliver => ok (.Ready ⟨some cause, ok stream⟩, self)
        | .store slot => poll_loop dir cx order fuel (self.store slot stream)
        | .ignore => poll_loop dir cx order fuel self
      | (.Ready (cause, err error), self) => ok (.Ready ⟨some cause, err error⟩, self)
      | (.Ready (_, .panic), _) => .panic
      | (.Ready (_, .diverge), _) => .diverge

/-- Every turn of the loop that is not the last takes a header read from the queue. -/
def poll_accept (dir : Dir) (cx : TaskId) (order : List StreamId) (self : Acceptor) :
    Outcome Empty (Poll Completion × Acceptor) :=
  poll_loop dir cx order ((self.accept.drained dir).tasks.keys.length +
    (self.conn.opened dir - self.conn.accepted dir) + 1) self

def poll_accept_uni (cx : TaskId) (order : List StreamId) (self : Acceptor) :
    Outcome Empty (Poll Completion × Acceptor) := self.poll_accept .Uni cx order

def poll_accept_bi (cx : TaskId) (order : List StreamId) (self : Acceptor) :
    Outcome Empty (Poll Completion × Acceptor) := self.poll_accept .Bi cx order

end Acceptor

end wt_rs
