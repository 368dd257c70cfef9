import WebTransport.Quinn.Sound
import WebTransport.Session.Open
import WebTransport.Session.Plan

open rust rust.Outcome rust.Async quinn transition wt_proto.coding

namespace wt_rs

/-- A stream on its way through `open_uni` or `open_bi` on one side and through `decode_uni` or
`decode_bi` on the other, with what the applications have written to it and read from it. -/
structure Exchange where
  net : Network
  opener : Async Quic WTError StreamId
  acceptor : PendingHeader
  sent : Side → List UInt8
  got : Side → List UInt8

/-- The opening function gets on, bytes arrive, the read of the header is polled, or an
application writes, reads or finishes its half of the stream. -/
inductive Exchange.Event where
  | opens
  | deliver (sender : Side) (len : Nat)
  | poll
  | write (side : Side) (data : List UInt8)
  | read (side : Side) (len : Nat)
  | finish (side : Side)

namespace Exchange

def start (connection : Connection) (net : Network) (id : VarInt) (stream : StreamId) : Exchange where
  net := net
  opener := connection.open_stream stream.dir
  acceptor := decode stream.dir id stream
  sent := fun _ => []
  got := fun _ => []

/-- What the opening function has returned. -/
def opened (self : Exchange) : Option StreamId :=
  match self.opener with
  | .done (ok stream) => some stream
  | _ => none

/-- What the read of the header has returned. -/
def decoded (self : Exchange) : Option (VarInt × StreamId) :=
  match self.acceptor with
  | .done (ok out) => some out
  | _ => none

/-- The half of the stream that comes in at a side. -/
def recv (self : Exchange) (stream : StreamId) (side : Side) : RecvStream := self.net.streams (side, stream)

/-- The bytes a side has written that have not arrived. -/
def flight (self : Exchange) (stream : StreamId) (side : Side) : List UInt8 := self.net.flight (side, stream)

/-- The application of the side has been given the half it writes to, and has not finished it. -/
def Sends (self : Exchange) (stream : StreamId) (side : Side) : Prop :=
  (side = stream.initiator ∧ self.opened = some stream ∨
    side = stream.initiator.peer ∧ stream.dir = .Bi ∧
      self.decoded = some (webtransport stream.dir, stream)) ∧
  (self.recv stream side.peer).ended = none

/-- The application of the side has been given the half it reads from. -/
def Receives (self : Exchange) (stream : StreamId) (side : Side) : Prop :=
  side = stream.initiator ∧ stream.dir = .Bi ∧ self.opened = some stream ∨
    side = stream.initiator.peer ∧ self.decoded = some (webtransport stream.dir, stream)

instance (self : Exchange) (stream : StreamId) (side : Side) : Decidable (self.Sends stream side) :=
  inferInstanceAs (Decidable (_ ∧ _))

instance (self : Exchange) (stream : StreamId) (side : Side) : Decidable (self.Receives stream side) :=
  inferInstanceAs (Decidable (_ ∨ _))

def set_recv (self : Exchange) (stream : StreamId) (side : Side) (state : RecvStream) : Exchange :=
  { self with net := self.net.set_stream side stream state }

def step (stream : StreamId) (self : Exchange) : Event → Option Exchange
  | .opens =>
    match self.opener.step (Network.serve stream.initiator) self.net with
    | some (opener, net) => some { self with opener, net }
    | none => none
  | .deliver sender len =>
    if 0 < len ∧ len ≤ (self.flight stream sender).length then
      some { self with net := self.net.deliver sender stream len }
    else none
  | .poll =>
    let side := stream.initiator.peer
    let (acceptor, state) := self.acceptor.poll (RecvStream.serve none stream) (self.recv stream side)
    some { self.set_recv stream side state with acceptor }
  | .write side data =>
    if self.Sends stream side then
      match self.net.serve side (.write_all stream data) with
      | some (_, net) => some { self with net, sent := Function.update self.sent side (self.sent side ++ data) }
      | none => none
    else none
  | .read side len =>
    if self.Receives stream side then
      match self.net.serve side (.read_exact stream len) with
      | some (.ok bytes, net) => some { self with net, got := Function.update self.got side (self.got side ++ bytes) }
      | _ => none
    else none
  | .finish side =>
    -- The end of a stream arrives behind its bytes.
    if self.Sends stream side ∧ self.flight stream side = [] then
      some (self.set_recv stream side.peer (self.recv stream side.peer).finish)
    else none

/-- The header is still being read, or it has been and its verdict is there. -/
inductive Reading (stream : StreamId) (id sid : VarInt) (header : List UInt8) (state : Exchange) : Prop where
  | undecided
      (hresidual : Residual stream.dir id stream (state.recv stream stream.initiator.peer).taken state.acceptor)
      (hpending : state.acceptor.Pending) (hgot : state.got stream.initiator.peer = [])
  | decided (hverdict : state.acceptor = .done (verdict stream.dir id stream (webtransport stream.dir) sid))
      (htaken : (state.recv stream stream.initiator.peer).taken = header ++ state.got stream.initiator.peer)
      (hgot : id ≠ sid → state.got stream.initiator.peer = [])

/-- `todo` is what the opening function has left to do, `enc` and `enc'` are the type and the
session it writes, `sid` is its session and `id` the one of the acceptor. -/
structure Agrees (stream : StreamId) (id sid : VarInt) (enc enc' : List UInt8) (todo : List Action)
    (state : Exchange) : Prop where
  suffix : todo <:+ [.opens, .writes enc, .writes enc']
  opener : state.opener.Follows (calls stream todo) stream
  index : .opens ∈ todo → state.net.opened (stream.initiator, stream.dir) = stream.index
  unsent : todo ≠ [] → state.sent stream.initiator = []
  forward : state.net.carried stream.initiator stream ++ written todo =
    enc ++ (enc' ++ state.sent stream.initiator)
  reading : state.Reading stream id sid (enc ++ enc')
  ended : (state.recv stream stream.initiator.peer).ended ≠ none →
    todo = [] ∧ state.flight stream stream.initiator = []
  taken : (state.recv stream stream.initiator).taken = state.got stream.initiator
  back : state.net.carried stream.initiator.peer stream = state.sent stream.initiator.peer

/-- What can be told of a stream that was opened in the session `sid`, with `header` in front, where
the acceptor is in the session `id`. -/
structure Transparent (stream : StreamId) (id sid : VarInt) (header : List UInt8) (state : Exchange) : Prop where
  opened : state.opener.Pending ∨ state.opened = some stream
  returned : id = sid → state.acceptor.Pending ∨ state.decoded = some (webtransport stream.dir, stream)
  refused : id ≠ sid → state.decoded = none
  /-- The payload is not waited for. -/
  prompt : header.length ≤ (state.recv stream stream.initiator.peer).received.length →
    ∃ next, step stream state .poll = some next ∧
      next.acceptor = .done (verdict stream.dir id stream (webtransport stream.dir) sid)
  untouched : state.decoded = none → state.got stream.initiator.peer = []
  forward : state.decoded ≠ none → state.sent stream.initiator = state.got stream.initiator.peer ++
    ((state.recv stream stream.initiator.peer).unread ++ state.flight stream stream.initiator)
  back : state.sent stream.initiator.peer = state.got stream.initiator ++
    ((state.recv stream stream.initiator).unread ++ state.flight stream stream.initiator.peer)
  /-- When everything has arrived, one poll and one read are enough. -/
  complete : id = sid → state.opened = some stream → state.flight stream stream.initiator = [] →
    ∃ len next, steps (step stream) state [.poll, .read stream.initiator.peer len] = some next ∧
      next.got stream.initiator.peer = state.sent stream.initiator
  complete_back : stream.dir = .Bi → state.opened = some stream → state.flight stream stream.initiator.peer = [] →
    ∃ len next, step stream state (.read stream.initiator len) = some next ∧
      next.got stream.initiator = state.sent stream.initiator.peer

variable {stream : StreamId} {id sid : VarInt} {enc enc' : List UInt8} {todo : List Action}
  {self next : Exchange} {side : Side}

/-- A call that returned a stream has come back. -/
theorem opener_eq_of_opened (h : self.opened = some stream) : self.opener = .done (ok stream) := by
  rw [opened] at h
  split at h
  · rename_i heq
    cases h
    exact heq
  · cases h

/-- A header read that returned a stream has come back. -/
theorem acceptor_eq_of_decoded {out : VarInt × StreamId} (h : self.decoded = some out) :
    self.acceptor = .done (ok out) := by
  rw [decoded] at h
  split at h
  · rename_i heq
    cases h
    exact heq
  · cases h

/-- A read takes all that is there. -/
theorem step_read (hreceives : self.Receives stream side) :
    ∃ next, step stream self (.read side (self.recv stream side).unread.length) = some next ∧
      next.got side = self.got side ++ (self.recv stream side).unread := by
  obtain ⟨net, hserve⟩ : ∃ net, self.net.serve side (.read_exact stream (self.recv stream side).unread.length) =
      some (.ok (self.recv stream side).unread, net) := ⟨_, Network.serve_reads (List.append_nil _).symm⟩
  refine ⟨{ self with net, got := Function.update self.got side (self.got side ++ _) }, ?_, Function.update_self ..⟩
  rw [step, if_pos hreceives, hserve]

/-- An opening function that has returned has nothing left to do. -/
theorem Agrees.todo_eq_nil (h : self.Agrees stream id sid enc enc' todo) (hopened : self.opened = some stream) :
    todo = [] := by
  have hopener := h.opener
  rw [opener_eq_of_opened hopened] at hopener
  exact List.map_eq_nil_iff.mp hopener.of_done.1

/-- When the header read has come back with a stream, it has taken the header and nothing behind it. -/
theorem Agrees.of_decoded {out : VarInt × StreamId} (h : self.Agrees stream id sid enc enc' todo)
    (hdecoded : self.decoded = some out) :
    self.acceptor = .done (verdict stream.dir id stream (webtransport stream.dir) sid) ∧
      (self.recv stream stream.initiator.peer).taken = enc ++ enc' ++ self.got stream.initiator.peer := by
  cases h.reading with
  | undecided _ hpending _ =>
    rw [acceptor_eq_of_decoded hdecoded] at hpending
    exact absurd hpending (not_pending_done _)
  | decided hverdict htaken _ => exact ⟨hverdict, htaken⟩

/-- A stream is returned only in its own session. -/
theorem Agrees.eq_of_decoded {out : VarInt × StreamId} (h : self.Agrees stream id sid enc enc' todo)
    (hdecoded : self.decoded = some out) : id = sid := by
  by_contra hid
  obtain ⟨hverdict, -⟩ := h.of_decoded hdecoded
  obtain ⟨error, herror⟩ := @verdict_of_ne _ _ stream.dir _ stream (Ne.symm hid)
  rw [acceptor_eq_of_decoded hdecoded, herror] at hverdict
  cases hverdict

/-- At the start the whole call is left, and nothing has been written. -/
theorem agrees_start {connection : Connection} {net : Network} (hnet : net.Sound) {dir : Dir}
    (hopen : (connection.open_stream dir).Follows (calls (net.upcoming side dir) [.opens, .writes enc, .writes enc'])
      (net.upcoming side dir)) :
    (start connection net id (net.upcoming side dir)).Agrees (net.upcoming side dir) id sid enc enc'
      [.opens, .writes enc, .writes enc'] := by
  obtain ⟨hflight, hstreams⟩ := forall_and.mp (hnet.fresh (net.upcoming side dir) (Nat.le_refl _))
  constructor
  case suffix => exact List.suffix_rfl
  case opener => exact hopen
  case index =>
    intro _
    rfl
  case unsent =>
    intro _
    rfl
  case forward =>
    simp only [start, Network.carried, hstreams, hflight, RecvStream.received, RecvStream.opened, written,
      List.nil_append, List.append_nil]
  case reading =>
    refine .undecided ?_ ?_ rfl
    · simp only [start, recv, hstreams]
      exact residual_nil dir id _
    · simp only [start]
      cases dir <;> exact pending_wait _ _
  case ended =>
    intro hended
    simp only [start, recv, hstreams, RecvStream.opened] at hended
    exact absurd rfl hended
  case taken => simp only [start, recv, hstreams, RecvStream.opened]
  case back =>
    simp only [start, Network.carried, hstreams, hflight, RecvStream.received, RecvStream.opened, List.append_nil]

/-- A header read has been polled, and has come from `before` to `fut` and `after`: it waits for bytes
that have not arrived, or it has taken the header and decided. -/
structure HeaderRead (stream : StreamId) (id sid : VarInt) (header : List UInt8) (before : RecvStream)
    (fut : PendingHeader) (after : RecvStream) : Prop where
  received : after.received = before.received
  ended : after.ended = before.ended
  outcome : fut.Pending ∧ Residual stream.dir id stream after.taken fut ∧ Headless before.received ∨
    fut = .done (verdict stream.dir id stream (webtransport stream.dir) sid) ∧ after.taken = header

/-- A poll of the header read takes no more than the header, and comes back when it has all of it. -/
theorem headerRead_poll {state : RecvStream} {fut : PendingHeader} {more data : List UInt8}
    (henc : Encodes enc (webtransport stream.dir)) (henc' : Encodes enc' sid)
    (hresidual : Residual stream.dir id stream state.taken fut)
    (hbytes : state.received ++ more = enc ++ (enc' ++ data)) (hended : state.ended ≠ none → more = []) :
    HeaderRead stream id sid (enc ++ enc') state (fut.poll (RecvStream.serve none stream) state).1
      (fut.poll (RecvStream.serve none stream) state).2 := by
  obtain ⟨taken, unread, ended⟩ := state
  rw [hresidual.poll_eq]
  rw [RecvStream.received] at hbytes
  have hwhole : Header (taken ++ unread ++ more) (webtransport stream.dir) sid data := ⟨enc, enc', hbytes, henc, henc'⟩
  obtain hheadless | ⟨stype, sid', rest, hheader⟩ := headless_or_header (taken ++ unread)
  · obtain rfl : ended = none := by
      by_contra hover
      rw [hended hover, List.append_nil] at hwhole
      exact hwhole.not_headless hheadless
    obtain ⟨fut', taken', unread', hpending, hsplit, hresidual', hpoll⟩ :=
      @poll_decode_wait _ stream.dir id stream hheadless
    rw [hpoll]
    exact ⟨hsplit.symm, rfl, .inl ⟨hpending, hresidual', hheadless⟩⟩
  · obtain ⟨rfl, rfl, rfl⟩ := (hheader.append more).unique hwhole
    obtain ⟨header, hsplit, -, hpoll⟩ := @poll_decode_header _ rest _ _ stream.dir id stream none ended hheader
    rw [hpoll]
    refine ⟨hsplit.symm, rfl, .inr ⟨rfl, ?_⟩⟩
    rw [hsplit, List.append_assoc, ← List.append_assoc enc] at hbytes
    exact List.append_cancel_right hbytes

/-- The bytes that were read and the verdict are all that counts. -/
theorem Reading.congr {header : List UInt8} (h : self.Reading stream id sid header)
    (hacceptor : next.acceptor = self.acceptor)
    (htaken : (next.recv stream stream.initiator.peer).taken = (self.recv stream stream.initiator.peer).taken)
    (hgot : next.got stream.initiator.peer = self.got stream.initiator.peer) :
    next.Reading stream id sid header := by
  cases h with
  | undecided hresidual hpending hempty =>
    exact .undecided (by rwa [htaken, hacceptor]) (by rwa [hacceptor]) (by rwa [hgot])
  | decided hverdict htaken' hrefused =>
    exact .decided (by rwa [hacceptor]) (by rw [htaken, htaken', hgot]) (by rwa [hgot])

namespace Agrees

/-- The opening function opens its stream and writes the header, and nothing else. -/
theorem action (h : self.Agrees stream id sid enc enc' todo) {action : Action} {tail : List Action}
    (htodo : todo = action :: tail) :
    tail <:+ [.opens, .writes enc, .writes enc'] ∧ .opens ∉ tail ∧
      (action = .opens ∨ ∃ data, action = .writes data) := by
  have hsuffix := h.suffix
  rw [htodo] at hsuffix
  refine ⟨(List.suffix_cons action tail).trans hsuffix, fun hopens => ?_, ?_⟩
  · have htail : tail <:+ [.writes enc, .writes enc'] := by
      obtain heq | hsuffix := List.suffix_cons_iff.mp hsuffix
      · exact (List.cons.inj heq).2 ▸ List.suffix_rfl
      · exact (List.suffix_cons action tail).trans hsuffix
    have hmem := htail.subset hopens
    simp only [List.mem_cons, reduceCtorEq, List.not_mem_nil, or_self] at hmem
  · have hmem := hsuffix.subset List.mem_cons_self
    simp only [List.mem_cons, List.not_mem_nil, or_false] at hmem
    exact hmem.imp_right fun hwrites => hwrites.elim (⟨_, ·⟩) (⟨_, ·⟩)

/-- The opening call gets on, and writes what is next of the header. -/
theorem opens (h : self.Agrees stream id sid enc enc' todo) {opener : Async Quic WTError StreamId} {net : Network}
    (hstep : self.opener.step (Network.serve stream.initiator) self.net = some (opener, net)) :
    ∃ todo', { self with opener, net }.Agrees stream id sid enc enc' todo' := by
  obtain ⟨op, answer, tail, answer', hscript, hserve, hfollows⟩ := h.opener.of_step hstep
  obtain ⟨action, todo', rfl, hcall, rfl⟩ := List.map_eq_cons_iff.mp hscript
  obtain ⟨hsuffix, hopens, haction⟩ := h.action rfl
  have hunsent := h.unsent (List.cons_ne_nil action todo')
  have hlive : (self.recv stream stream.initiator.peer).ended = none := by
    by_contra hended
    exact List.cons_ne_nil _ _ (h.ended hended).1
  obtain rfl | ⟨data, rfl⟩ := haction
  · have hcalled := Network.serve_opens rfl (h.index List.mem_cons_self)
    rw [hcall, hserve, Option.some.injEq, Prod.mk.injEq] at hcalled
    obtain ⟨rfl, rfl⟩ := hcalled
    exact ⟨todo', { h with
      suffix := hsuffix
      opener := hfollows rfl
      index := fun hmem => absurd hmem hopens
      unsent := fun _ => hunsent
      reading := h.reading.congr rfl rfl rfl
      ended := fun hended => absurd hlive hended }⟩
  · have hcalled := Network.serve_writes self.net stream.initiator stream data
    rw [hcall, hserve, Option.some.injEq, Prod.mk.injEq] at hcalled
    obtain ⟨rfl, rfl⟩ := hcalled
    refine ⟨todo', { h with
      suffix := hsuffix
      opener := hfollows rfl
      index := fun hmem => absurd hmem hopens
      unsent := fun _ => hunsent
      forward := ?_
      reading := h.reading.congr rfl rfl rfl
      ended := fun hended => absurd hlive hended
      back := ?_ }⟩
    · have hforward := h.forward
      rw [written, ← List.append_assoc] at hforward
      rw [Network.carried_set_flight_self]
      exact hforward
    · rw [Network.carried_set_flight_of_ne _ stream.initiator.peer_ne]
      exact h.back

/-- Bytes that arrive are the ones that were on their way. -/
theorem deliver (h : self.Agrees stream id sid enc enc' todo) (sender : Side) (len : Nat) :
    { self with net := self.net.deliver sender stream len }.Agrees stream id sid enc enc' todo := by
  have hkept (side : Side) := @Network.taken_deliver self.net sender stream len (side, stream)
  refine { h with forward := ?_, reading := h.reading.congr rfl (hkept _).1 rfl, ended := ?_, taken := ?_, back := ?_ }
  · rw [Network.carried_deliver]
    exact h.forward
  · intro hended
    rw [recv, (hkept _).2] at hended
    obtain ⟨htodo, hflight⟩ := h.ended hended
    refine ⟨htodo, ?_⟩
    rw [flight] at hflight ⊢
    rw [Network.flight_deliver]
    by_cases hkey : (stream.initiator, stream) = (sender, stream)
    · rw [← hkey, Function.update_self, hflight, List.drop_nil]
    · rw [Function.update_of_ne hkey, hflight]
  · rw [recv, (hkept _).1]
    exact h.taken
  · rw [Network.carried_deliver]
    exact h.back

/-- What an application writes goes behind the header. -/
theorem write (h : self.Agrees stream id sid enc enc' todo) (hsends : self.Sends stream side) (data : List UInt8)
    {answer : (Op.write_all stream data).Answer} {net : Network}
    (hserve : self.net.serve side (.write_all stream data) = some (answer, net)) :
    { self with net, sent := Function.update self.sent side (self.sent side ++ data) }.Agrees
      stream id sid enc enc' todo := by
  cases hserve
  obtain ⟨⟨rfl, hopened⟩ | ⟨rfl, -, -⟩, hlive⟩ := hsends
  · obtain rfl := h.todo_eq_nil hopened
    have hpeer := stream.initiator.peer_ne
    refine { h with
      unsent := fun htodo => absurd rfl htodo
      forward := ?_
      reading := h.reading.congr rfl rfl rfl
      ended := fun hended => absurd hlive hended
      back := ?_ }
    · have hforward := h.forward
      rw [written, List.append_nil] at hforward ⊢
      simp only [Network.carried_set_flight_self, Function.update_self, hforward, List.append_assoc]
    · simp only [Network.carried_set_flight_of_ne _ hpeer, Function.update_of_ne hpeer]
      exact h.back
  · have hpeer := stream.initiator.peer_ne.symm
    refine { h with
      unsent := fun htodo => ?_
      forward := ?_
      reading := h.reading.congr rfl rfl rfl
      ended := fun hended => ?_
      back := ?_ }
    · simp only [Function.update_of_ne hpeer]
      exact h.unsent htodo
    · simp only [Network.carried_set_flight_of_ne _ hpeer, Function.update_of_ne hpeer]
      exact h.forward
    · rw [flight, Network.flight_set_flight, Function.update_of_ne stream.ends_ne.symm]
      exact h.ended hended
    · simp only [Network.carried_set_flight_self, Function.update_self, h.back]

/-- The header read of a stream in any state is polled. -/
theorem headerRead (h : self.Agrees stream id sid enc enc' todo) (henc : Encodes enc (webtransport stream.dir))
    (henc' : Encodes enc' sid)
    (hresidual : Residual stream.dir id stream (self.recv stream stream.initiator.peer).taken self.acceptor)
    {acceptor : PendingHeader} {state : RecvStream}
    (hpoll : self.acceptor.poll (RecvStream.serve none stream) (self.recv stream stream.initiator.peer) =
      (acceptor, state)) :
    HeaderRead stream id sid (enc ++ enc') (self.recv stream stream.initiator.peer) acceptor state := by
  have hforward := h.forward
  rw [Network.carried, List.append_assoc] at hforward
  have hover (hended : (self.recv stream stream.initiator.peer).ended ≠ none) :
      self.net.flight (stream.initiator, stream) ++ written todo = [] := by
    obtain ⟨rfl, hflight⟩ := h.ended hended
    exact List.append_eq_nil_iff.mpr ⟨hflight, rfl⟩
  have hread := headerRead_poll henc henc' hresidual hforward hover
  rwa [hpoll] at hread

/-- A poll of the header read leaves what has arrived, and gets on with the header only. -/
theorem reading_poll (h : self.Agrees stream id sid enc enc' todo) (henc : Encodes enc (webtransport stream.dir))
    (henc' : Encodes enc' sid) {acceptor : PendingHeader} {state : RecvStream}
    (hpoll : self.acceptor.poll (RecvStream.serve none stream) (self.recv stream stream.initiator.peer) =
      (acceptor, state)) :
    state.received = (self.recv stream stream.initiator.peer).received ∧
      state.ended = (self.recv stream stream.initiator.peer).ended ∧
      { self.set_recv stream stream.initiator.peer state with acceptor }.Reading stream id sid (enc ++ enc') := by
  have hrecv : { self.set_recv stream stream.initiator.peer state with acceptor }.recv stream
      stream.initiator.peer = state := Function.update_self ..
  cases h.reading with
  | undecided hresidual hpending hgot =>
    obtain ⟨hreceived, hended, houtcome⟩ := h.headerRead henc henc' hresidual hpoll
    refine ⟨hreceived, hended, ?_⟩
    obtain ⟨hpending', hresidual', -⟩ | ⟨rfl, htaken⟩ := houtcome
    · exact .undecided (by rwa [hrecv]) hpending' hgot
    · refine .decided rfl ?_ fun _ => hgot
      rw [hrecv, htaken]
      simp only [set_recv, hgot, List.append_nil]
  | decided hverdict htaken hgot =>
    rw [hverdict, Async.poll_done, Prod.mk.injEq] at hpoll
    obtain ⟨rfl, rfl⟩ := hpoll
    refine ⟨rfl, rfl, .decided rfl ?_ hgot⟩
    rw [hrecv, htaken, set_recv]

/-- A poll of the header read leaves what comes behind the header. -/
theorem poll (h : self.Agrees stream id sid enc enc' todo) (henc : Encodes enc (webtransport stream.dir))
    (henc' : Encodes enc' sid) {acceptor : PendingHeader} {state : RecvStream}
    (hpoll : self.acceptor.poll (RecvStream.serve none stream) (self.recv stream stream.initiator.peer) =
      (acceptor, state)) :
    { self.set_recv stream stream.initiator.peer state with acceptor }.Agrees stream id sid enc enc' todo := by
  obtain ⟨hreceived, hended, hreading⟩ := h.reading_poll henc henc' hpoll
  refine { h with forward := ?_, reading := hreading, ended := fun hended' => ?_, taken := ?_, back := ?_ }
  · simp only [set_recv, Network.carried_set_stream _ hreceived]
    exact h.forward
  · rw [recv, set_recv, Network.streams_set_stream, Function.update_self, hended] at hended'
    exact h.ended hended'
  · rw [recv, set_recv, Network.streams_set_stream, Function.update_of_ne stream.ends_ne.symm]
    exact h.taken
  · simp only [set_recv, Network.carried_set_stream _ hreceived]
    exact h.back

/-- An application reads what comes next, and nothing is read twice. -/
theorem read (h : self.Agrees stream id sid enc enc' todo) (hreceives : self.Receives stream side) {len : Nat}
    {bytes : List UInt8} {net : Network}
    (hserve : self.net.serve side (.read_exact stream len) = some (.ok bytes, net)) :
    { self with net, got := Function.update self.got side (self.got side ++ bytes) }.Agrees
      stream id sid enc enc' todo := by
  obtain ⟨rest, hunread, rfl⟩ := Network.serve_read_cases hserve
  have hreceived : (⟨(self.net.streams (side, stream)).taken ++ bytes, rest,
      (self.net.streams (side, stream)).ended⟩ : RecvStream).received = (self.net.streams (side, stream)).received := by
    rw [RecvStream.received, RecvStream.received, hunread, List.append_assoc]
  have hcarried (sender : Side) := self.net.carried_set_stream sender hreceived
  have hpeer := stream.initiator.peer_ne
  obtain ⟨rfl, -, -⟩ | ⟨rfl, hdecoded⟩ := hreceives
  · have hrecv := stream.ends_ne
    refine { h with forward := ?_, reading := h.reading.congr rfl ?_ ?_, ended := ?_, taken := ?_, back := ?_ }
    · rw [hcarried]
      exact h.forward
    · rw [recv, Network.streams_set_stream, Function.update_of_ne hrecv, recv]
    · simp only [Function.update_of_ne hpeer]
    · rw [recv, Network.streams_set_stream, Function.update_of_ne hrecv]
      exact h.ended
    · simp only [recv, Network.streams_set_stream, Function.update_self]
      rw [← h.taken, recv]
    · rw [hcarried]
      exact h.back
  · have hrecv := stream.ends_ne.symm
    obtain ⟨hverdict, htaken⟩ := h.of_decoded hdecoded
    refine { h with
      forward := ?_
      reading := .decided hverdict ?_ fun hid => absurd (h.eq_of_decoded hdecoded) hid
      ended := ?_
      taken := ?_
      back := ?_ }
    · rw [hcarried]
      exact h.forward
    · simp only [recv, Network.streams_set_stream, Function.update_self] at htaken ⊢
      rw [htaken, List.append_assoc]
    · rw [recv, Network.streams_set_stream, Function.update_self]
      exact h.ended
    · simp only [recv, Network.streams_set_stream, Function.update_of_ne hrecv, Function.update_of_ne hpeer.symm]
      exact h.taken
    · rw [hcarried]
      exact h.back

/-- A half that is finished is there completely. -/
theorem finish (h : self.Agrees stream id sid enc enc' todo) (hsends : self.Sends stream side)
    (hflight : self.flight stream side = []) :
    (self.set_recv stream side.peer (self.recv stream side.peer).finish).Agrees stream id sid enc enc' todo := by
  have hcarried (sender : Side) : (self.net.set_stream side.peer stream (self.recv stream side.peer).finish).carried
      sender stream = self.net.carried sender stream := self.net.carried_set_stream sender rfl
  have htaken (side' : Side) : ((self.set_recv stream side.peer (self.recv stream side.peer).finish).recv stream
      side').taken = (self.recv stream side').taken := by
    rw [recv, set_recv, Network.streams_set_stream]
    by_cases hkey : (side', stream) = (side.peer, stream)
    · rw [hkey, Function.update_self, (Prod.mk.inj hkey).1, RecvStream.finish]
    · rw [Function.update_of_ne hkey, recv]
  refine { h with forward := ?_, reading := h.reading.congr rfl (htaken _) rfl, ended := ?_, taken := ?_, back := ?_ }
  · rw [set_recv, hcarried]
    exact h.forward
  · obtain ⟨⟨rfl, hopened⟩ | ⟨rfl, -, -⟩, -⟩ := hsends
    · exact fun _ => ⟨h.todo_eq_nil hopened, hflight⟩
    · rw [recv, set_recv, Network.streams_set_stream, Side.peer_peer, Function.update_of_ne stream.ends_ne]
      exact h.ended
  · rw [htaken]
    exact h.taken
  · rw [set_recv, hcarried]
    exact h.back

/-- Once the header has arrived, what has been received starts with it. -/
theorem header (h : self.Agrees stream id sid enc enc' todo)
    (hlen : (enc ++ enc').length ≤ (self.recv stream stream.initiator.peer).received.length)
    (henc : Encodes enc (webtransport stream.dir)) (henc' : Encodes enc' sid) :
    ∃ rest, Header (self.recv stream stream.initiator.peer).received (webtransport stream.dir) sid rest := by
  have hforward := h.forward
  rw [Network.carried, List.append_assoc, ← List.append_assoc enc] at hforward
  obtain ⟨rest, hrest⟩ := List.prefix_of_prefix_length_le ⟨_, hforward.symm⟩ (List.prefix_append _ _) hlen
  exact ⟨rest, enc, enc', by rw [recv, ← hrest, List.append_assoc], henc, henc'⟩

/-- With the header there, a poll decides. -/
theorem acceptor_poll (h : self.Agrees stream id sid enc enc' todo) (henc : Encodes enc (webtransport stream.dir))
    (henc' : Encodes enc' sid)
    (hlen : (enc ++ enc').length ≤ (self.recv stream stream.initiator.peer).received.length) :
    (self.acceptor.poll (RecvStream.serve none stream) (self.recv stream stream.initiator.peer)).1 =
      .done (verdict stream.dir id stream (webtransport stream.dir) sid) := by
  cases h.reading with
  | undecided hresidual hpending hgot =>
    obtain ⟨-, -, ⟨-, -, hheadless⟩ | ⟨hverdict, -⟩⟩ := h.headerRead henc henc' hresidual rfl
    · obtain ⟨rest, hheader⟩ := h.header hlen henc henc'
      exact absurd hheadless hheader.not_headless
    · exact hverdict
  | decided hverdict htaken hgot => rw [hverdict, Async.poll_done]

/-- The opening call waits, or has come back with its stream. -/
theorem opened (h : self.Agrees stream id sid enc enc' todo) :
    self.opener.Pending ∨ self.opened = some stream := by
  obtain hpending | ⟨result, hdone⟩ := pending_or_done self.opener
  · exact .inl hpending
  · have hopener := h.opener
    rw [hdone] at hopener
    obtain ⟨-, rfl⟩ := hopener.of_done
    exact .inr (by rw [Exchange.opened, hdone])

/-- What was written to a stream that came back is read, waits to be read, or is on its way. -/
theorem forward_decoded (h : self.Agrees stream id sid enc enc' todo) (hdecoded : self.decoded ≠ none) :
    self.sent stream.initiator = self.got stream.initiator.peer ++
      ((self.recv stream stream.initiator.peer).unread ++ self.flight stream stream.initiator) := by
  obtain ⟨out, hout⟩ := Option.ne_none_iff_exists'.mp hdecoded
  obtain ⟨-, htaken⟩ := h.of_decoded hout
  have hforward := h.forward
  rw [recv] at htaken
  rw [Network.carried, RecvStream.received, htaken, ← List.append_assoc enc] at hforward
  simp only [List.append_assoc] at hforward
  have hrest := List.append_cancel_left (List.append_cancel_left hforward)
  by_cases htodo : todo = []
  · rw [htodo, written, List.append_nil] at hrest
    exact hrest.symm
  · rw [h.unsent htodo] at hrest ⊢
    simp only [List.append_eq_nil_iff] at hrest
    obtain ⟨hgot, hunread, hflight, -⟩ := hrest
    rw [hgot, recv, hunread, flight, hflight, List.append_nil, List.append_nil]

theorem back_eq (h : self.Agrees stream id sid enc enc' todo) :
    self.sent stream.initiator.peer = self.got stream.initiator ++
      ((self.recv stream stream.initiator).unread ++ self.flight stream stream.initiator.peer) := by
  rw [← h.back, ← h.taken, Network.carried, Side.peer_peer, RecvStream.received, List.append_assoc, recv, flight]

/-- When the header and the payload have arrived, the payload is there after one poll. -/
theorem complete (h : self.Agrees stream id id enc enc' todo) (henc : Encodes enc (webtransport stream.dir))
    (henc' : Encodes enc' id) (hopened : self.opened = some stream)
    (hflight : self.flight stream stream.initiator = []) :
    ∃ len next, steps (step stream) self [.poll, .read stream.initiator.peer len] = some next ∧
      next.got stream.initiator.peer = self.sent stream.initiator := by
  obtain rfl := h.todo_eq_nil hopened
  have hforward := h.forward
  rw [flight] at hflight
  rw [Network.carried, hflight, written, List.append_nil, List.append_nil, ← List.append_assoc] at hforward
  have hlen : (enc ++ enc').length ≤ (self.recv stream stream.initiator.peer).received.length := by
    rw [recv, hforward, @List.length_append _ (enc ++ enc')]
    exact Nat.le_add_right _ _
  have hacceptor := h.acceptor_poll henc henc' hlen
  rw [verdict_self] at hacceptor
  obtain ⟨next, hpoll, hagrees, hdecoded, hsent, hflight⟩ : ∃ next, step stream self .poll = some next ∧
      next.Agrees stream id id enc enc' [] ∧ next.decoded = some (webtransport stream.dir, stream) ∧
      next.sent = self.sent ∧ next.flight stream stream.initiator = [] :=
    ⟨_, rfl, h.poll henc henc' rfl, by rw [decoded, hacceptor], rfl, hflight⟩
  obtain ⟨next', hread, hgot⟩ := step_read (.inr ⟨rfl, hdecoded⟩)
  refine ⟨(next.recv stream stream.initiator.peer).unread.length, next', ?_, ?_⟩
  · rw [steps, hpoll]
    simp only [steps, hread]
  · rw [hgot, ← hsent, hagrees.forward_decoded (by rw [hdecoded]; exact Option.some_ne_none _), hflight,
      List.append_nil]

/-- A stream that is where it should be is transparent. -/
theorem transparent (h : self.Agrees stream id sid enc enc' todo) (henc : Encodes enc (webtransport stream.dir))
    (henc' : Encodes enc' sid) : self.Transparent stream id sid (enc ++ enc') where
  opened := h.opened
  returned hid := by
    subst hid
    cases h.reading with
    | undecided hresidual hpending hgot => exact .inl hpending
    | decided hverdict htaken hgot => exact .inr (by rw [decoded, hverdict, verdict_self])
  refused hid := by
    by_contra hdecoded
    obtain ⟨out, hout⟩ := Option.ne_none_iff_exists'.mp hdecoded
    exact hid (h.eq_of_decoded hout)
  prompt hlen := ⟨_, rfl, h.acceptor_poll henc henc' hlen⟩
  untouched hdecoded := by
    cases h.reading with
    | undecided hresidual hpending hgot => exact hgot
    | decided hverdict htaken hgot =>
      refine hgot fun hid => ?_
      rw [decoded, hverdict, hid, verdict_self] at hdecoded
      cases hdecoded
  forward := h.forward_decoded
  back := h.back_eq
  complete hid hopened hflight := by
    subst hid
    exact h.complete henc henc' hopened hflight
  complete_back hdir hopened hflight := by
    obtain ⟨next, hread, hgot⟩ := step_read (.inl ⟨rfl, hdir, hopened⟩)
    refine ⟨(self.recv stream stream.initiator).unread.length, next, hread, ?_⟩
    rw [hgot, h.back_eq, hflight, List.append_nil]

end Agrees

/-- Every event keeps to what has been written. -/
theorem agrees_step (henc : Encodes enc (webtransport stream.dir)) (henc' : Encodes enc' sid)
    (h : ∃ todo, self.Agrees stream id sid enc enc' todo) {event : Event} (hstep : step stream self event = some next) :
    ∃ todo, next.Agrees stream id sid enc enc' todo := by
  obtain ⟨todo, h⟩ := h
  cases event with
  | opens =>
    rw [step] at hstep
    split at hstep
    · rename_i hopener
      cases hstep
      exact h.opens hopener
    · cases hstep
  | deliver sender len =>
    rw [step] at hstep
    split_ifs at hstep
    cases hstep
    exact ⟨todo, h.deliver sender len⟩
  | poll =>
    cases hstep
    exact ⟨todo, h.poll henc henc' rfl⟩
  | write side data =>
    rw [step] at hstep
    split_ifs at hstep with hsends
    split at hstep
    · rename_i hserve
      cases hstep
      exact ⟨todo, h.write hsends data hserve⟩
    · cases hstep
  | read side len =>
    rw [step] at hstep
    split_ifs at hstep with hreceives
    split at hstep
    · rename_i hserve
      cases hstep
      exact ⟨todo, h.read hreceives hserve⟩
    · cases hstep
  | finish side =>
    rw [step] at hstep
    split_ifs at hstep with hsends
    cases hstep
    exact ⟨todo, h.finish hsends.1 hsends.2⟩

/-- Whatever the network and the applications do, the two functions agree on the stream: its header
is for them, and the rest for the applications. -/
theorem streams_agree {connection : Connection} {connect : Connect} (hconnect : connection.connect = some connect)
    (hid : connection.id = some sid) (dir : Dir) :
    ∃ header, Header header (webtransport dir) sid [] ∧
      ∀ (net : Network) (side : Side) (id : VarInt) (state : Exchange), net.Sound →
        Reachable (step (net.upcoming side dir)) (start connection net id (net.upcoming side dir)) state →
          state.Transparent (net.upcoming side dir) id sid header := by
  obtain ⟨enc, enc', henc, henc', hopen⟩ := Connection.follows_open_stream hconnect hid dir
  refine ⟨enc ++ enc', ⟨enc, enc', by rw [List.append_nil], henc, henc'⟩, fun net side id state hnet hreach => ?_⟩
  obtain ⟨todo, hagrees⟩ : ∃ todo, state.Agrees (net.upcoming side dir) id sid enc enc' todo := by
    apply hreach.invariant fun state => ∃ todo, state.Agrees (net.upcoming side dir) id sid enc enc' todo
    · exact ⟨_, agrees_start hnet (hopen side _)⟩
    · intro state next event hagrees _ hstep
      exact agrees_step henc henc' hagrees hstep
  exact hagrees.transparent henc henc'

/-- The payload looks like another header, and arrives in pieces. -/
theorem streams_agree_payload :
    ∃ (header : List UInt8) (state : Exchange), Header header (webtransport .Bi) (.from_u32 100000) [] ∧
      state.got .Server = [0x40, 0x41, 0x00] ∧
      state.Transparent (Network.new.upcoming .Client .Bi) (.from_u32 100000) (.from_u32 100000) header := by
  let connection : Connection := { Connection.established .Client with id := some (.from_u32 100000) }
  let stream := Network.new.upcoming .Client .Bi
  have hgot : (steps (step stream) (start connection .new (.from_u32 100000) stream) [.opens, .opens,
      .deliver .Client 1, .poll, .opens, .write .Client [0x40, 0x41, 0x00], .deliver .Client 4, .poll,
      .deliver .Client 4, .poll, .read .Server 3]).map (·.got .Server) = some [0x40, 0x41, 0x00] := by decide
  obtain ⟨state, hsteps, hgot⟩ := Option.map_eq_some_iff.mp hgot
  obtain ⟨header, hheader, htransparent⟩ := @streams_agree _ connection _ rfl rfl .Bi
  exact ⟨header, state, hheader, hgot,
    htransparent .new .Client (.from_u32 100000) state Network.sound_new (Reachable.steps .start hsteps)⟩

end Exchange

end wt_rs
