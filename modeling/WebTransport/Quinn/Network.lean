import WebTransport.Quinn.Script

open rust rust.Outcome

namespace quinn

/-- Both sides of a connection, and the bytes between them. Of the streams its peer has opened,
a side gets to know those up to the last one of which bytes have arrived. -/
structure Network where
  opened : Side × Dir → Nat
  surfaced : Side × Dir → Nat
  accepted : Side × Dir → Nat
  flight : Side × StreamId → List UInt8
  streams : Side × StreamId → RecvStream

namespace Network

def new : Network where
  opened := fun _ => 0
  surfaced := fun _ => 0
  accepted := fun _ => 0
  flight := fun _ => []
  streams := fun _ => .opened

def set_opened (self : Network) (side : Side) (dir : Dir) (count : Nat) : Network :=
  { self with opened := Function.update self.opened (side, dir) count }

def set_accepted (self : Network) (side : Side) (dir : Dir) (count : Nat) : Network :=
  { self with accepted := Function.update self.accepted (side, dir) count }

def set_flight (self : Network) (side : Side) (stream : StreamId) (data : List UInt8) : Network :=
  { self with flight := Function.update self.flight (side, stream) data }

def set_stream (self : Network) (side : Side) (stream : StreamId) (state : RecvStream) : Network :=
  { self with streams := Function.update self.streams (side, stream) state }

/-- The stream a side opens next. -/
def upcoming (self : Network) (side : Side) (dir : Dir) : StreamId :=
  { initiator := side, dir, index := self.opened (side, dir) }

/-- There is always credit for another stream. -/
def open_ (side : Side) (dir : Dir) (self : Network) :
    Option (Except ConnectionError StreamId × Network) :=
  let index := self.opened (side, dir)
  some (.ok { initiator := side, dir, index }, self.set_opened side dir (index + 1))

def accept (side : Side) (dir : Dir) (self : Network) :
    Option (Except ConnectionError StreamId × Network) :=
  let index := self.accepted (side, dir)
  if index < self.surfaced (side, dir) then
    some (.ok { initiator := side.peer, dir, index }, self.set_accepted side dir (index + 1))
  else none

/-- An operation of one side. -/
def serve (side : Side) : (op : Op) → Network → Option (op.Answer × Network)
  | .open_uni, self => self.open_ side .Uni
  | .open_bi, self => self.open_ side .Bi
  | .accept_uni, self => self.accept side .Uni
  | .accept_bi, self => self.accept side .Bi
  | .write_all stream data, self =>
    some (.ok (), self.set_flight side stream (self.flight (side, stream) ++ data))
  | .read_exact stream len, self =>
    match RecvStream.serve none stream (.read_exact stream len) (self.streams (side, stream)) with
    | some (answer, state) => some (answer, self.set_stream side stream state)
    | none => none

/-- The next `len` bytes of a stream arrive. -/
def deliver (sender : Side) (stream : StreamId) (len : Nat) (self : Network) : Network :=
  let side := sender.peer
  let data := self.flight (sender, stream)
  let state := self.streams (side, stream)
  let surfaced :=
    if stream.initiator = sender then
      Function.update self.surfaced (side, stream.dir) (max (self.surfaced (side, stream.dir)) (stream.index + 1))
    else self.surfaced
  { (self.set_flight sender stream (data.drop len)).set_stream side stream (state.push (data.take len)) with
    surfaced }

/-- The bytes a side has written to a stream: those that have arrived, and those on their way. -/
def carried (self : Network) (sender : Side) (stream : StreamId) : List UInt8 :=
  (self.streams (sender.peer, stream)).received ++ self.flight (sender, stream)

/-- The side has opened or accepted the stream. -/
def Knows (self : Network) (side : Side) (stream : StreamId) : Prop :=
  stream.index <
    if stream.initiator = side then self.opened (side, stream.dir) else self.accepted (side, stream.dir)

instance (self : Network) (side : Side) (stream : StreamId) : Decidable (self.Knows side stream) :=
  Nat.decLt _ _

/-- What a side can ask for: it writes to its own streams, reads from those of its peer, and
does both on bidirectional streams. -/
def Permits (self : Network) (side : Side) : Op → Prop
  | .write_all stream _ => self.Knows side stream ∧ (stream.initiator = side ∨ stream.dir = .Bi)
  | .read_exact stream _ => self.Knows side stream ∧ (stream.initiator = side.peer ∨ stream.dir = .Bi)
  | _ => True

instance (self : Network) (side : Side) (op : Op) : Decidable (self.Permits side op) :=
  match op with
  | .write_all _ _ => inferInstanceAs (Decidable (_ ∧ _))
  | .read_exact _ _ => inferInstanceAs (Decidable (_ ∧ _))
  | .open_uni | .open_bi | .accept_uni | .accept_bi => .isTrue trivial

variable {self : Network} {side : Side} {stream : StreamId}

@[simp] theorem opened_set_opened (dir : Dir) (count : Nat) :
    (self.set_opened side dir count).opened = Function.update self.opened (side, dir) count := rfl

@[simp] theorem accepted_set_accepted (dir : Dir) (count : Nat) :
    (self.set_accepted side dir count).accepted = Function.update self.accepted (side, dir) count := rfl

@[simp] theorem flight_set_flight (data : List UInt8) :
    (self.set_flight side stream data).flight = Function.update self.flight (side, stream) data := rfl

@[simp] theorem streams_set_flight (data : List UInt8) :
    (self.set_flight side stream data).streams = self.streams := rfl

@[simp] theorem flight_set_stream (state : RecvStream) :
    (self.set_stream side stream state).flight = self.flight := rfl

@[simp] theorem streams_set_stream (state : RecvStream) :
    (self.set_stream side stream state).streams = Function.update self.streams (side, stream) state := rfl

@[simp] theorem flight_deliver (len : Nat) : (self.deliver side stream len).flight =
    Function.update self.flight (side, stream) ((self.flight (side, stream)).drop len) := rfl

@[simp] theorem streams_deliver (len : Nat) : (self.deliver side stream len).streams =
    Function.update self.streams (side.peer, stream)
      ((self.streams (side.peer, stream)).push ((self.flight (side, stream)).take len)) := rfl

/-- Bytes that arrive are neither read nor the end of the stream. -/
theorem taken_deliver (len : Nat) (key : Side × StreamId) :
    ((self.deliver side stream len).streams key).taken = (self.streams key).taken ∧
      ((self.deliver side stream len).streams key).ended = (self.streams key).ended := by
  rw [streams_deliver]
  by_cases hkey : key = (side.peer, stream)
  · rw [hkey, Function.update_self]
    exact ⟨rfl, rfl⟩
  · rw [Function.update_of_ne hkey]
    exact ⟨rfl, rfl⟩

/-- The first bytes of a stream announce it to the peer of the side that opened it, with all streams of
its kind before it. -/
theorem surfaced_deliver (len : Nat) : (self.deliver side stream len).surfaced =
    if stream.initiator = side then
      Function.update self.surfaced (side.peer, stream.dir)
        (max (self.surfaced (side.peer, stream.dir)) (stream.index + 1))
    else self.surfaced := rfl

/-- A stream that has been announced stays announced. -/
theorem surfaced_le_deliver (len : Nat) (key : Side × Dir) :
    self.surfaced key ≤ (self.deliver side stream len).surfaced key := by
  rw [surfaced_deliver]
  split
  · by_cases heq : key = (side.peer, stream.dir)
    · rw [heq, Function.update_self]
      exact Nat.le_max_left _ _
    · exact Nat.le_of_eq (Function.update_of_ne heq _ _).symm
  · exact Nat.le_refl _

/-- The first bytes of a stream make it known. -/
theorem lt_surfaced_deliver (len : Nat) (hside : stream.initiator = side) :
    stream.index < (self.deliver side stream len).surfaced (side.peer, stream.dir) := by
  rw [surfaced_deliver, if_pos hside, Function.update_self]
  exact Nat.lt_of_lt_of_le (Nat.lt_succ_self _) (Nat.le_max_right _ _)

/-- The next stream of a side opens under the identifier that it follows from the number of those
before. -/
theorem serve_opens (hside : stream.initiator = side) (hindex : self.opened (side, stream.dir) = stream.index) :
    self.serve side (Action.opens.call stream).1 =
      some ((Action.opens.call stream).2, self.set_opened side stream.dir (stream.index + 1)) := by
  obtain ⟨initiator, dir, index⟩ := stream
  simp only at hside hindex
  subst hside
  cases dir <;> simp only [Action.call, serve, open_, hindex]

/-- A stream is accepted when it is the next one and the peer has announced it. -/
theorem serve_accepts (hside : stream.initiator = side.peer)
    (hindex : self.accepted (side, stream.dir) = stream.index) :
    self.serve side (Action.accepts.call stream).1 =
      if stream.index < self.surfaced (side, stream.dir) then
        some ((Action.accepts.call stream).2, self.set_accepted side stream.dir (stream.index + 1))
      else none := by
  obtain ⟨initiator, dir, index⟩ := stream
  simp only at hside hindex
  subst hside
  cases dir <;> simp only [Action.call, serve, accept, hindex]

theorem serve_writes (self : Network) (side : Side) (stream : StreamId) (data : List UInt8) :
    self.serve side ((Action.writes data).call stream).1 =
      some (((Action.writes data).call stream).2,
        self.set_flight side stream (self.flight (side, stream) ++ data)) := rfl

/-- A read takes the bytes that are next when they have arrived. -/
theorem serve_reads {bytes rest : List UInt8} (hunread : (self.streams (side, stream)).unread = bytes ++ rest) :
    self.serve side ((Action.reads bytes).call stream).1 =
      some (((Action.reads bytes).call stream).2,
        self.set_stream side stream ⟨(self.streams (side, stream)).taken ++ bytes, rest,
          (self.streams (side, stream)).ended⟩) := by
  have hserve := RecvStream.serve_append (self.streams (side, stream)).taken bytes rest
    (self.streams (side, stream)).ended none stream
  rw [← hunread] at hserve
  simp only [Action.call, serve, hserve]

/-- A read that succeeds takes the bytes that come next. -/
theorem serve_read_cases {len : Nat} {bytes : List UInt8} {next : Network}
    (h : self.serve side (.read_exact stream len) = some (.ok bytes, next)) :
    ∃ rest, (self.streams (side, stream)).unread = bytes ++ rest ∧
      next = self.set_stream side stream
        ⟨(self.streams (side, stream)).taken ++ bytes, rest, (self.streams (side, stream)).ended⟩ := by
  rw [serve, RecvStream.serve, if_pos rfl] at h
  split_ifs at h with hlen
  · cases h
    exact ⟨_, (List.take_append_drop _ _).symm, rfl⟩
  · cases herror : (self.streams (side, stream)).read_error none with
    | none => rw [herror] at h; cases h
    | some error => rw [herror] at h; cases h

/-- Accepting a stream moves no bytes. -/
theorem flight_accept {dir : Dir} {out : Except ConnectionError StreamId × Network}
    (h : self.accept side dir = some out) : out.2.flight = self.flight := by
  rw [accept] at h
  split at h
  · cases h
    rfl
  · cases h

/-- Only the bytes of a write are added to those on their way. -/
theorem flight_serve {action : Action} {answer : (action.call stream).1.Answer} {next : Network}
    (h : self.serve side (action.call stream).1 = some (answer, next)) :
    next.flight = Function.update self.flight (side, stream) (self.flight (side, stream) ++ written [action]) := by
  have hsame : self.flight = Function.update self.flight (side, stream) (self.flight (side, stream) ++ []) := by
    rw [List.append_nil, Function.update_eq_self]
  obtain ⟨initiator, dir, index⟩ := stream
  cases action with
  | opens =>
    refine Eq.trans ?_ hsame
    cases dir <;> cases h <;> rfl
  | accepts =>
    refine Eq.trans ?_ hsame
    cases dir <;> exact flight_accept h
  | writes data =>
    cases h
    rw [written, written, List.append_nil, flight_set_flight]
  | reads bytes =>
    refine Eq.trans ?_ hsame
    simp only [Action.call, serve] at h
    split at h
    · cases h
      rfl
    · cases h

/-- A live stream serves no bytes that have not arrived. -/
theorem length_le_of_serve_reads {bytes : List UInt8} {out : Except ReadExactError (List UInt8) × Network}
    (hlive : (self.streams (side, stream)).ended = none)
    (h : self.serve side (.read_exact stream bytes.length) = some out) :
    bytes.length ≤ (self.streams (side, stream)).unread.length := by
  by_contra hshort
  have hserve := @RecvStream.serve_short_none (self.streams (side, stream)).taken _ stream _
    (Nat.lt_of_not_le hshort)
  rw [← hlive] at hserve
  simp only [serve, hserve] at h
  cases h

section carried

variable (sender : Side)

/-- Bytes that arrive are the ones that were on their way. -/
theorem carried_deliver (len : Nat) :
    (self.deliver side stream len).carried sender stream = self.carried sender stream := by
  rw [carried, carried, streams_deliver, flight_deliver]
  by_cases hsender : sender = side
  · subst hsender
    rw [Function.update_self, Function.update_self, RecvStream.received_push, List.append_assoc,
      List.take_append_drop]
  · rw [Function.update_of_ne fun hkey => hsender (Side.peer_injective (Prod.mk.inj hkey).1),
      Function.update_of_ne fun hkey => hsender (Prod.mk.inj hkey).1]

theorem carried_set_flight_self (data : List UInt8) :
    (self.set_flight side stream (self.flight (side, stream) ++ data)).carried side stream =
      self.carried side stream ++ data := by
  rw [carried, carried, streams_set_flight, flight_set_flight, Function.update_self, List.append_assoc]

theorem carried_set_flight_of_ne (hsender : sender ≠ side) (data : List UInt8) :
    (self.set_flight side stream data).carried sender stream = self.carried sender stream := by
  rw [carried, carried, streams_set_flight, flight_set_flight,
    Function.update_of_ne fun hkey => hsender (Prod.mk.inj hkey).1]

/-- A read loses nothing. -/
theorem carried_set_stream {state : RecvStream} (hreceived : state.received = (self.streams (side, stream)).received) :
    (self.set_stream side stream state).carried sender stream = self.carried sender stream := by
  rw [carried, carried, streams_set_stream, flight_set_stream]
  by_cases hkey : (sender.peer, stream) = (side, stream)
  · rw [hkey, Function.update_self, hreceived]
  · rw [Function.update_of_ne hkey]

end carried

end Network

end quinn
