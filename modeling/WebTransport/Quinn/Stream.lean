import WebTransport.Quinn.Error
import WebTransport.Rust.Async

open rust rust.Outcome

namespace quinn

inductive Side where
  | Client
  | Server
  deriving DecidableEq, Repr

/-- The other side of the connection. -/
def Side.peer : Side → Side
  | .Client => .Server
  | .Server => .Client

@[simp] theorem Side.peer_peer (side : Side) : side.peer.peer = side := by
  cases side <;> rfl

theorem Side.peer_ne (side : Side) : side.peer ≠ side := by
  cases side <;> decide

theorem Side.peer_injective : Function.Injective Side.peer :=
  Function.LeftInverse.injective peer_peer

theorem Side.eq_peer_of_ne {side side' : Side} (h : side ≠ side') : side = side'.peer := by
  revert h
  cases side <;> cases side' <;> decide

inductive Dir where
  | Bi
  | Uni
  deriving DecidableEq, Repr

/-- A stream, by the side that opened it, its kind and its place among the streams of that
kind. -/
structure StreamId where
  initiator : Side
  dir : Dir
  index : Nat
  deriving DecidableEq, Repr

/-- A stream has two ends. -/
theorem StreamId.ends_ne (stream : StreamId) : (stream.initiator.peer, stream) ≠ (stream.initiator, stream) :=
  fun h => stream.initiator.peer_ne (Prod.mk.inj h).1

/-- The number that stands for the stream on the wire. -/
def StreamId.value (id : StreamId) : Nat :=
  4 * id.index + (match id.dir with | .Bi => 0 | .Uni => 2) +
    match id.initiator with | .Client => 0 | .Server => 1

/-- The operations of a connection and its streams that `async` functions wait for. -/
inductive Op where
  | accept_uni
  | accept_bi
  | open_uni
  | open_bi
  | write_all (stream : StreamId) (data : List UInt8)
  | read_exact (stream : StreamId) (len : Nat)

@[reducible] def Op.Answer : Op → Type
  | accept_uni | accept_bi | open_uni | open_bi => Except ConnectionError StreamId
  | write_all _ _ => Except WriteError Unit
  | read_exact _ _ => Except ReadExactError (List UInt8)

abbrev Quic : Interface := ⟨Op, Op.Answer⟩

private def answered {ε α : Type} : Except ε α → Async Quic ε α
  | .ok value => .done (ok value)
  | .error error => .done (err error)

def accept_uni : Async Quic ConnectionError StreamId := .wait .accept_uni answered

def accept_bi : Async Quic ConnectionError StreamId := .wait .accept_bi answered

def open_uni : Async Quic ConnectionError StreamId := .wait .open_uni answered

def open_bi : Async Quic ConnectionError StreamId := .wait .open_bi answered

def write_all (stream : StreamId) (data : List UInt8) : Async Quic WriteError Unit :=
  .wait (.write_all stream data) answered

def read_exact (stream : StreamId) (len : Nat) : Async Quic ReadExactError (List UInt8) :=
  .wait (.read_exact stream len) answered

/-- A function with one operation comes back when that has been answered. -/
theorem answered_returns {ε α : Type} (answer : Except ε α) :
    ∃ result : Outcome ε α, answered answer = .done result ∧ result.Returns := by
  cases answer with
  | ok value => exact ⟨_, rfl, returns_ok value⟩
  | error error => exact ⟨_, rfl, returns_err error⟩

inductive End where
  | finished
  | reset
  deriving DecidableEq, Repr

/-- The receiving half of a stream: the bytes read so far, those received but not read, and
how the stream ended. -/
structure RecvStream where
  taken : List UInt8
  unread : List UInt8
  ended : Option End
  deriving DecidableEq, Repr

namespace RecvStream

def opened : RecvStream := { taken := [], unread := [], ended := none }

/-- Everything received that is or was to be read. -/
def received (self : RecvStream) : List UInt8 := self.taken ++ self.unread

def push (self : RecvStream) (data : List UInt8) : RecvStream :=
  { self with unread := self.unread ++ data }

def finish (self : RecvStream) : RecvStream := { self with ended := some .finished }

/-- A reset takes away what has not been read. -/
def reset (self : RecvStream) : RecvStream := { self with unread := [], ended := some .reset }

/-- The read error on a stream that gets no more bytes, on a connection lost for the reason
`lost`. -/
def read_error (self : RecvStream) (lost : Option ConnectionError) : Option ReadExactError :=
  match self.ended, lost with
  | some .finished, _ => some (.FinishedEarly self.unread.length)
  | some .reset, _ => some (.ReadError .Reset)
  | none, some error => some (.ReadError (.ConnectionLost error))
  | none, none => none

/-- `read_exact` takes `len` bytes as soon as they are there, and fails when they will never
be. Bytes it has copied before that count as unread: nobody can see them. -/
def serve (lost : Option ConnectionError) (id : StreamId) :
    (op : Op) → RecvStream → Option (op.Answer × RecvStream)
  | .read_exact stream len, self =>
    if stream = id then
      if len ≤ self.unread.length then
        some (.ok (self.unread.take len),
          { self with taken := self.taken ++ self.unread.take len, unread := self.unread.drop len })
      else
        match self.read_error lost with
        | some error =>
          some (.error error, { self with taken := self.taken ++ self.unread, unread := [] })
        | none => none
    else none
  | _, _ => none

/-- Nothing more comes on the stream. -/
def Over (self : RecvStream) (lost : Option ConnectionError) : Prop :=
  self.ended ≠ none ∨ lost ≠ none

variable {taken unread : List UInt8} {ended : Option End} {lost : Option ConnectionError}
  {id : StreamId} {len : Nat}

theorem received_push (self : RecvStream) (data : List UInt8) : (self.push data).received = self.received ++ data :=
  (List.append_assoc _ _ _).symm

/-- A read is served when its bytes are there, however the stream goes on. -/
theorem serve_append (taken bytes rest : List UInt8) (ended : Option End)
    (lost : Option ConnectionError) (id : StreamId) :
    serve lost id (.read_exact id bytes.length) ⟨taken, bytes ++ rest, ended⟩ =
      some (.ok bytes, ⟨taken ++ bytes, rest, ended⟩) := by
  simp [serve]

/-- A read of more than is there waits while the stream is live. -/
theorem serve_short_none (hshort : unread.length < len) :
    serve none id (.read_exact id len) ⟨taken, unread, none⟩ = none := by
  rw [serve, if_pos rfl, if_neg (Nat.not_le_of_lt hshort)]
  rfl

/-- On a stream that is over, a read of more than is there fails and takes what is left. -/
theorem serve_short_over (hshort : unread.length < len) (hover : Over ⟨taken, unread, ended⟩ lost) :
    ∃ error, serve lost id (.read_exact id len) ⟨taken, unread, ended⟩ =
      some (.error error, ⟨taken ++ unread, [], ended⟩) := by
  obtain ⟨error, herror⟩ : ∃ error, read_error ⟨taken, unread, ended⟩ lost = some error := by
    cases ended with
    | some e => cases e <;> exact ⟨_, rfl⟩
    | none =>
      cases lost with
      | some e => exact ⟨_, rfl⟩
      | none => simp [Over] at hover
  refine ⟨error, ?_⟩
  rw [serve, if_pos rfl, if_neg (Nat.not_le_of_lt hshort), herror]

/-- The only operation served while a stream is live is a read of bytes that are there. -/
theorem serve_live_cases {op : Op} {out : op.Answer × RecvStream}
    (h : serve none id op ⟨taken, unread, none⟩ = some out) :
    ∃ bytes rest, unread = bytes ++ rest ∧
      (⟨op, out⟩ : (op : Op) × (op.Answer × RecvStream)) =
        ⟨.read_exact id bytes.length, .ok bytes, ⟨taken ++ bytes, rest, none⟩⟩ := by
  cases op with
  | read_exact stream len =>
    rw [serve] at h
    split_ifs at h with hid hlen
    · cases h
      have htake : (unread.take len).length = len := by
        rw [List.length_take]
        exact Nat.min_eq_left hlen
      exact ⟨unread.take len, unread.drop len, (List.take_append_drop _ _).symm, by rw [htake, hid]⟩
    · cases h
  | accept_uni | accept_bi | open_uni | open_bi | write_all => cases h

/-- What a live stream does not serve it does not serve either with nothing on it. -/
theorem serve_nil_of_none {op : Op} (h : serve none id op ⟨taken, unread, none⟩ = none) :
    serve none id op ⟨taken, [], none⟩ = none := by
  cases op with
  | read_exact stream len =>
    rw [serve] at h ⊢
    split_ifs at h with hid hlen
    · rw [if_pos hid, if_neg (by rw [List.length_nil]; omega)]
      rfl
    · rw [if_neg hid]
  | accept_uni | accept_bi | open_uni | open_bi | write_all => rfl

variable {ε α : Type} {m m' : Async Quic ε α} {taken' unread' : List UInt8}

/-- A function that is polled before more bytes come goes on as if they had been there. -/
theorem poll_append
    (h : m.poll (serve none id) ⟨taken, unread, none⟩ = (m', ⟨taken', unread', none⟩))
    (more : List UInt8) (ended : Option End) (lost : Option ConnectionError) :
    m.poll (serve lost id) ⟨taken, unread ++ more, ended⟩ =
      m'.poll (serve lost id) ⟨taken', unread' ++ more, ended⟩ := by
  induction m generalizing taken unread with
  | done result =>
    cases h
    rfl
  | wait op resume ih =>
    cases hserve : serve none id op ⟨taken, unread, none⟩ with
    | none =>
      rw [Async.poll_wait_none hserve] at h
      cases h
      rfl
    | some out =>
      rw [Async.poll_wait_some hserve] at h
      obtain ⟨bytes, rest, rfl, heq⟩ := serve_live_cases hserve
      cases heq
      rw [List.append_assoc, Async.poll_wait_some (serve_append taken bytes _ ended lost id)]
      exact ih _ h

/-- A function that waits has not looked at the bytes it leaves unread. -/
theorem poll_take
    (h : m.poll (serve none id) ⟨taken, unread, none⟩ = (m', ⟨taken', unread', none⟩))
    (hpending : m'.Pending) :
    ∃ read, taken' = taken ++ read ∧ unread = read ++ unread' ∧
      m.poll (serve none id) ⟨taken, read, none⟩ = (m', ⟨taken', [], none⟩) := by
  induction m generalizing taken unread with
  | done result =>
    cases h
    exact absurd hpending (Async.not_pending_done result)
  | wait op resume ih =>
    cases hserve : serve none id op ⟨taken, unread, none⟩ with
    | none =>
      rw [Async.poll_wait_none hserve] at h
      cases h
      exact ⟨[], by rw [List.append_nil], rfl, Async.poll_wait_none (serve_nil_of_none hserve)⟩
    | some out =>
      rw [Async.poll_wait_some hserve] at h
      obtain ⟨bytes, rest, rfl, heq⟩ := serve_live_cases hserve
      cases heq
      obtain ⟨read, rfl, rfl, hpoll⟩ := ih _ h
      refine ⟨bytes ++ read, by rw [List.append_assoc], by rw [List.append_assoc], ?_⟩
      rw [Async.poll_wait_some (serve_append taken bytes read none none id)]
      exact hpoll

end RecvStream

/-- A connection as far as accepting goes: the streams the peer has opened, how many of them
have been accepted, and the error that ended the connection. -/
structure Connection where
  side : Side
  opened : Dir → Nat
  accepted : Dir → Nat
  streams : StreamId → RecvStream
  lost : Option ConnectionError

/-- A connection on which all streams that have been opened have been accepted. -/
def Connection.established (side : Side) (accepted : Dir → Nat) : Connection where
  side := side
  opened := accepted
  accepted := accepted
  streams := fun _ => .opened
  lost := none

/-- The stream of kind `dir` that the peer opened as its `index`-th. -/
def Connection.incoming (self : Connection) (dir : Dir) (index : Nat) : StreamId :=
  { initiator := self.side.peer, dir, index }

variable {stream : StreamId} {lost : Option ConnectionError} {taken unread : List UInt8}
  {ended : Option End} {len : Nat}

/-- A poll of `read_exact` comes back with the bytes when they are there. -/
theorem poll_read_exact (taken bytes rest : List UInt8) (ended : Option End)
    (lost : Option ConnectionError) (stream : StreamId) :
    (read_exact stream bytes.length).poll (RecvStream.serve lost stream) ⟨taken, bytes ++ rest, ended⟩ =
      (.done (ok bytes), ⟨taken ++ bytes, rest, ended⟩) := by
  rw [read_exact, Async.poll_wait_some (RecvStream.serve_append taken bytes rest ended lost stream)]
  rfl

theorem poll_read_exact_wait (hshort : unread.length < len) :
    (read_exact stream len).poll (RecvStream.serve none stream) ⟨taken, unread, none⟩ =
      (read_exact stream len, ⟨taken, unread, none⟩) :=
  Async.poll_wait_none (RecvStream.serve_short_none hshort)

/-- On a stream that is over, a poll of `read_exact` for more than is there fails. -/
theorem poll_read_exact_over (hshort : unread.length < len)
    (hover : RecvStream.Over ⟨taken, unread, ended⟩ lost) :
    ∃ error, (read_exact stream len).poll (RecvStream.serve lost stream) ⟨taken, unread, ended⟩ =
      (.done (err error), ⟨taken ++ unread, [], ended⟩) := by
  obtain ⟨error, hserve⟩ := RecvStream.serve_short_over hshort hover
  refine ⟨error, ?_⟩
  rw [read_exact, Async.poll_wait_some hserve]
  rfl

end quinn
