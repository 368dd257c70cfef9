import WebTransport.Conn.H3Streams
import WebTransport.Conn.Liveness
import WebTransport.Quinn.Sound
import WebTransport.Session.Open
import WebTransport.Session.Plan

open rust rust.Outcome rust.Async quinn transition wt_proto.coding

namespace wt_rs

/-- What an event does to what has been received. -/
def Event.change : Event → StreamId → RecvStream → RecvStream
  | .bytes key data, key', stream => if key' = key then stream.push data else stream
  | .finish key, key', stream => if key' = key then stream.finish else stream
  | .reset key, key', stream => if key' = key then stream.reset else stream
  | _, _, stream => stream

/-- How many streams of a kind the peer has opened after an event. -/
def Event.count : Event → Dir → Nat → Nat
  | .peer_opens dir, dir', count => if dir' = dir then count + 1 else count
  | _, _, count => count

/-- The event happens at the tasks, or the connection is lost. -/
def Event.Local : Event → Prop
  | .call _ _ _ | .repoll _ _ | .cancel _ | .close _ => True
  | .peer_opens _ | .bytes _ _ | .finish _ | .reset _ => False

instance (event : Event) : Decidable event.Local :=
  match event with
  | .call _ _ _ | .repoll _ _ | .cancel _ | .close _ => .isTrue trivial
  | .peer_opens _ | .bytes _ _ | .finish _ | .reset _ => .isFalse id

namespace System

variable {id : VarInt} {side : Side} {first : Dir → Nat} {self next : System} {event : Event}

private theorem streams_arrive (key : StreamId) (change : RecvStream → RecvStream) (key' : StreamId) :
    (self.arrive key change).shared.conn.streams key' =
      if key' = key then change (self.shared.conn.streams key') else self.shared.conn.streams key' := by
  rw [arrive_streams]
  split_ifs with hkey
  · rw [hkey, Function.update_self]
  · rw [Function.update_of_ne hkey]

private theorem opened_close (error : ConnectionError) :
    (self.close error).shared.conn.opened = self.shared.conn.opened := by
  refine close_induction (fun system => system.shared.conn.opened = self.shared.conn.opened) rfl
    (fun dir h => ?_) (fun key h => ?_)
  · rw [notify_shared]
    exact h
  · rw [arrive_shared]
    exact h

/-- All that an event does to the streams, but for what header reads take from them. -/
theorem conn_move (hvalid : self.Valid id side first) (hmove : Move self event next) :
    (∀ dir, next.shared.conn.opened dir = event.count dir (self.shared.conn.opened dir)) ∧
      ∀ key, (next.shared.conn.streams key).received = (event.change key (self.shared.conn.streams key)).received ∧
        (next.shared.conn.streams key).ended = (event.change key (self.shared.conn.streams key)).ended := by
  cases hmove with
  | @peer_opens dir hlost =>
    refine ⟨fun dir' => ?_, fun key => ?_⟩
    · rw [notify_shared]
      simp only [open_stream, Acceptor.set_accepting, Event.count, Function.update_apply]
      split_ifs with hdir
      · rw [hdir]
      · rfl
    · rw [notify_shared]
      exact ⟨rfl, rfl⟩
  | @bytes key data hlive =>
    refine ⟨fun dir => by rw [arrive_shared]; rfl, fun key' => ?_⟩
    rw [streams_arrive]
    exact ⟨rfl, rfl⟩
  | @finish key hlive =>
    refine ⟨fun dir => by rw [arrive_shared]; rfl, fun key' => ?_⟩
    rw [streams_arrive]
    exact ⟨rfl, rfl⟩
  | @reset key hlive =>
    refine ⟨fun dir => by rw [arrive_shared]; rfl, fun key' => ?_⟩
    rw [streams_arrive]
    exact ⟨rfl, rfl⟩
  | @close error hlost =>
    refine ⟨fun dir => by rw [opened_close]; rfl, fun key => ?_⟩
    rw [(close_streams self error).1]
    exact ⟨rfl, rfl⟩
  | wait hpolls hpoll | complete hpolls hpoll =>
    have hframe := Acceptor.poll_accept_frame hvalid.shared hpoll
    obtain ⟨rfl, -⟩ | ⟨rfl, -⟩ := hpolls
    · exact ⟨fun dir => by rw [hframe.opened]; rfl, fun key => ⟨hframe.received key, hframe.ended key⟩⟩
    · exact ⟨fun dir => by rw [hframe.opened]; rfl, fun key => ⟨hframe.received key, hframe.ended key⟩⟩
  | cancel hcall => exact ⟨fun dir => rfl, fun key => ⟨rfl, rfl⟩⟩

end System

/-- Two parties in a session: an application that opens streams and writes to them, and tasks that
accept them. `openers` are the calls of `open_uni` and `open_bi` that have got a stream. For the
record, `sent` is what the application has written. -/
structure Traffic where
  net : Network
  openers : StreamId → Option (Async Quic WTError StreamId)
  sent : StreamId → List UInt8
  system : System

/-- A call gets a stream or gets on with it, the application writes to a stream or finishes it, the
streams and their bytes arrive, and the tasks at the other end call and poll. -/
inductive Traffic.Event where
  | opens (dir : Dir)
  | advance (stream : StreamId)
  | write (stream : StreamId) (data : List UInt8)
  | finish (stream : StreamId)
  | surface (dir : Dir)
  | deliver (stream : StreamId) (len : Nat)
  | accept (event : wt_rs.Event)

namespace Traffic

/-- The stream that a call has come back with. -/
def given (self : Traffic) (stream : StreamId) : Option StreamId :=
  match self.openers stream with
  | some (.done (ok stream)) => some stream
  | _ => none

/-- The application can write to the stream. -/
def Writes (self : Traffic) (stream : StreamId) : Prop :=
  self.given stream = some stream ∧ (self.system.shared.conn.streams stream).ended = none ∧
    self.system.shared.conn.lost = none

instance (self : Traffic) (stream : StreamId) : Decidable (self.Writes stream) :=
  inferInstanceAs (Decidable (_ ∧ _ ∧ _))

def start (net : Network) (sender : Side) (id : VarInt) : Traffic where
  net := net
  openers := fun _ => none
  sent := fun _ => []
  system := .new id sender.peer fun dir => net.opened (sender, dir)

def step (connection : Connection) (sender : Side) (self : Traffic) : Event → Option Traffic
  | .opens dir =>
    if self.system.shared.conn.lost = none then
      match (connection.open_stream dir).step (Network.serve sender) self.net with
      | some (opener, net) =>
        some { self with net, openers := Function.update self.openers (self.net.upcoming sender dir) (some opener) }
      | none => none
    else none
  | .advance stream =>
    if self.system.shared.conn.lost = none then
      match self.openers stream with
      | some opener =>
        match opener.step (Network.serve sender) self.net with
        | some (opener, net) => some { self with net, openers := Function.update self.openers stream (some opener) }
        | none => none
      | none => none
    else none
  | .write stream data =>
    if self.Writes stream then
      match self.net.serve sender (.write_all stream data) with
      | some (_, net) => some { self with net, sent := Function.update self.sent stream (self.sent stream ++ data) }
      | none => none
    else none
  | .finish stream =>
    -- The end of a stream arrives behind its bytes.
    if self.Writes stream ∧ self.net.flight (sender, stream) = [] then
      match self.system.step (.finish stream) with
      | some system => some { self with system }
      | none => none
    else none
  | .surface dir =>
    if self.system.shared.conn.opened dir < self.net.opened (sender, dir) then
      match self.system.step (.peer_opens dir) with
      | some system => some { self with system }
      | none => none
    else none
  | .deliver stream len =>
    let flight := self.net.flight (sender, stream)
    if 0 < len ∧ len ≤ flight.length then
      match self.system.step (.bytes stream (flight.take len)) with
      | some system => some { self with net := self.net.set_flight sender stream (flight.drop len), system }
      | none => none
    else none
  | .accept event =>
    if event.Local then
      match self.system.step event with
      | some system => some { self with system }
      | none => none
    else none

variable {connection : Connection} {connect : Connect} {sender : Side} {id : VarInt} {first : Dir → Nat}
  {enc enc' : Dir → List UInt8} {stream : StreamId} {todo : List Action} {self next : Traffic}

/-- How far a stream has got: `todo` is what is left of the call that opened it, and all that was
written to it has arrived or is on its way. -/
structure Carries (sender : Side) (enc enc' : List UInt8) (stream : StreamId) (todo : List Action)
    (traffic : Traffic) : Prop where
  opener : ∃ opener, traffic.openers stream = some opener ∧ opener.Follows (calls stream todo) stream
  suffix : todo <:+ [.writes enc, .writes enc']
  unsent : todo ≠ [] → traffic.sent stream = []
  forward :
    (traffic.system.shared.conn.streams stream).received ++ traffic.net.flight (sender, stream) ++ written todo =
      enc ++ (enc' ++ traffic.sent stream)
  ended : (traffic.system.shared.conn.streams stream).ended ≠ none →
    todo = [] ∧ traffic.net.flight (sender, stream) = []

/-- What holds of all streams in every run. Those from `first` on are opened by the application. -/
structure Agrees (sender : Side) (id : VarInt) (first : Dir → Nat) (enc enc' : Dir → List UInt8)
    (traffic : Traffic) : Prop where
  run : Reachable System.step (System.new id sender.peer first) traffic.system
  bound : ∀ dir, first dir ≤ traffic.net.opened (sender, dir) ∧
    traffic.system.shared.conn.opened dir ≤ traffic.net.opened (sender, dir)
  known : ∀ stream opener, traffic.openers stream = some opener →
    stream.initiator = sender ∧ first stream.dir ≤ stream.index ∧ stream.index < traffic.net.opened (sender, stream.dir)
  carries : ∀ stream, stream.initiator = sender → first stream.dir ≤ stream.index →
    stream.index < traffic.net.opened (sender, stream.dir) →
    ∃ todo, traffic.Carries sender (enc stream.dir) (enc' stream.dir) stream todo
  fresh : ∀ stream, stream.initiator = sender → traffic.net.opened (sender, stream.dir) ≤ stream.index →
    traffic.sent stream = [] ∧ traffic.net.flight (sender, stream) = [] ∧
      (traffic.system.shared.conn.streams stream).received = [] ∧
      (traffic.system.shared.conn.streams stream).ended = none

/-- What happens to other streams does not matter. -/
theorem Carries.congr {enc enc' : List UInt8} (h : self.Carries sender enc enc' stream todo)
    (hopener : next.openers stream = self.openers stream) (hsent : next.sent stream = self.sent stream)
    (hflight : next.net.flight (sender, stream) = self.net.flight (sender, stream))
    (hstream : (next.system.shared.conn.streams stream).received = (self.system.shared.conn.streams stream).received ∧
      (next.system.shared.conn.streams stream).ended = (self.system.shared.conn.streams stream).ended) :
    next.Carries sender enc enc' stream todo where
  opener := by
    rw [hopener]
    exact h.opener
  suffix := h.suffix
  unsent htodo := by
    rw [hsent]
    exact h.unsent htodo
  forward := by
    rw [hstream.1, hflight, hsent]
    exact h.forward
  ended := by
    rw [hstream.2, hflight]
    exact h.ended

/-- What is left of the call are writes. -/
theorem Carries.writes {enc enc' : List UInt8} (h : self.Carries sender enc enc' stream todo) {action : Action}
    (haction : action ∈ todo) : ∃ data, action = .writes data := by
  have hmem := h.suffix.subset haction
  simp only [List.mem_cons, List.not_mem_nil, or_false] at hmem
  exact hmem.elim (⟨_, ·⟩) (⟨_, ·⟩)

/-- A call that has come back has written its header. -/
theorem todo_eq_nil_of_given {enc enc' : List UInt8} (h : self.Carries sender enc enc' stream todo)
    (hgiven : self.given stream = some stream) : todo = [] := by
  obtain ⟨opener, hopener, hfollows⟩ := h.opener
  rw [given, hopener] at hgiven
  split at hgiven
  · rename_i heq
    cases heq
    exact List.map_eq_nil_iff.mp hfollows.of_done.1
  · cases hgiven

/-- The application has got a stream that its connection has opened. -/
theorem Agrees.of_given (h : self.Agrees sender id first enc enc') (hgiven : self.given stream = some stream) :
    stream.initiator = sender ∧ first stream.dir ≤ stream.index ∧ stream.index < self.net.opened (sender, stream.dir) ∧
      self.Carries sender (enc stream.dir) (enc' stream.dir) stream [] := by
  cases hopener : self.openers stream with
  | none =>
    rw [given, hopener] at hgiven
    cases hgiven
  | some opener =>
    obtain ⟨hinitiator, hfirst, hindex⟩ := h.known stream opener hopener
    obtain ⟨todo, hcarries⟩ := h.carries stream hinitiator hfirst hindex
    obtain rfl := todo_eq_nil_of_given hcarries hgiven
    exact ⟨hinitiator, hfirst, hindex, hcarries⟩

/-- At the start the application has opened nothing. -/
theorem Agrees.start {net : Network} (hnet : net.Sound) :
    (Traffic.start net sender id).Agrees sender id (fun dir => net.opened (sender, dir)) enc enc' where
  run := .start
  bound dir := ⟨Nat.le_refl _, Nat.le_refl _⟩
  known stream opener hopener := by cases hopener
  carries stream _ hfirst hindex := absurd hindex (Nat.not_lt_of_le hfirst)
  fresh stream hinitiator hindex := by
    subst hinitiator
    exact ⟨rfl, (hnet.fresh stream hindex _).1, rfl, rfl⟩

/-- A call gets a stream that nobody has had before. -/
theorem Agrees.opens (h : self.Agrees sender id first enc enc') {dir : Dir}
    (hopen : ∀ side index, (connection.open_stream dir).Follows
      (calls ⟨side, dir, index⟩ [.opens, .writes (enc dir), .writes (enc' dir)]) ⟨side, dir, index⟩)
    {opener : Async Quic WTError StreamId} {net : Network}
    (hstep : (connection.open_stream dir).step (Network.serve sender) self.net = some (opener, net)) :
    { self with net, openers := Function.update self.openers (self.net.upcoming sender dir) (some opener) }.Agrees
      sender id first enc enc' := by
  set stream := self.net.upcoming sender dir with hstream
  obtain ⟨op, answer, tail, answer', hscript, hserve, hfollows⟩ :=
    (hopen sender (self.net.opened (sender, dir))).of_step hstep
  have hcalled := @Network.serve_opens self.net sender stream rfl rfl
  obtain ⟨hcall, rfl⟩ := List.cons.inj hscript
  rw [show (Action.opens.call stream) = ⟨op, answer⟩ from hcall, hserve] at hcalled
  cases hcalled
  obtain ⟨hsent, hflight, hreceived, hended⟩ := h.fresh stream rfl (Nat.le_refl _)
  have hindex : stream.index = self.net.opened (sender, stream.dir) := rfl
  have hflights : (self.net.set_opened sender stream.dir (stream.index + 1)).flight = self.net.flight := rfl
  have hopened (stream' : StreamId) :
      (self.net.set_opened sender stream.dir (stream.index + 1)).opened (sender, stream'.dir) =
        if stream'.dir = stream.dir then stream.index + 1 else self.net.opened (sender, stream'.dir) := by
    rw [Network.opened_set_opened]
    split_ifs with hdir
    · rw [hdir, Function.update_self]
    · rw [Function.update_of_ne fun hkey => hdir (Prod.mk.inj hkey).2]
  have hle (stream' : StreamId) : self.net.opened (sender, stream'.dir) ≤
      (self.net.set_opened sender stream.dir (stream.index + 1)).opened (sender, stream'.dir) := by
    rw [hopened]
    split_ifs with hdir
    · rw [hdir, hindex]
      exact Nat.le_succ _
    · exact Nat.le_refl _
  constructor
  case run => exact h.run
  case bound =>
    intro dir'
    have hbound := h.bound dir'
    have hmore := hle ⟨sender, dir', 0⟩
    exact ⟨Nat.le_trans hbound.1 hmore, Nat.le_trans hbound.2 hmore⟩
  case known =>
    intro stream' opener' hopener
    by_cases hkey : stream' = stream
    · rw [hkey]
      refine ⟨rfl, (h.bound dir).1, ?_⟩
      simp only [hopened, ↓reduceIte, Nat.lt_succ_self]
    · simp only [Function.update_of_ne hkey] at hopener
      obtain ⟨hinitiator, hfirst, hlt⟩ := h.known stream' opener' hopener
      exact ⟨hinitiator, hfirst, Nat.lt_of_lt_of_le hlt (hle stream')⟩
  case carries =>
    intro stream' hinitiator hfirst hlt
    by_cases hkey : stream' = stream
    · subst hkey
      refine ⟨[.writes (enc dir), .writes (enc' dir)], ⟨⟨opener, Function.update_self .., hfollows rfl⟩,
        List.suffix_rfl, fun _ => hsent, ?_, fun hover => absurd hended hover⟩⟩
      simp only [hflights, hreceived, hflight, hsent, written, List.nil_append]
      rfl
    · have hlt' : stream'.index < self.net.opened (sender, stream'.dir) := by
        simp only [hopened] at hlt
        split_ifs at hlt with hsame
        · have hne : stream'.index ≠ stream.index := by
            intro heq
            refine hkey ?_
            obtain ⟨initiator, dir', index⟩ := stream'
            simp only at hinitiator hsame heq
            rw [hinitiator, hsame, heq]
            rfl
          rw [hsame, ← hindex]
          omega
        · exact hlt
      obtain ⟨todo, hcarries⟩ := h.carries stream' hinitiator hfirst hlt'
      exact ⟨todo, hcarries.congr (Function.update_of_ne hkey _ _) rfl rfl ⟨rfl, rfl⟩⟩
  case fresh =>
    intro stream' hinitiator hindex'
    exact h.fresh stream' hinitiator (Nat.le_trans (hle stream') hindex')

/-- A call gets on with its stream. -/
theorem Agrees.advance (h : self.Agrees sender id first enc enc') {opener opener' : Async Quic WTError StreamId}
    {net : Network} (hopener : self.openers stream = some opener)
    (hstep : opener.step (Network.serve sender) self.net = some (opener', net)) :
    { self with net, openers := Function.update self.openers stream (some opener') }.Agrees sender id first
      enc enc' := by
  obtain ⟨hinitiator, hfirst, hindex⟩ := h.known stream opener hopener
  obtain ⟨todo, hcarries⟩ := h.carries stream hinitiator hfirst hindex
  obtain ⟨opener₂, hopener₂, hfollows⟩ := hcarries.opener
  rw [hopener] at hopener₂
  cases hopener₂
  obtain ⟨op, answer, tail, answer', hscript, hserve, hnext⟩ := hfollows.of_step hstep
  obtain ⟨action, todo', rfl, hcall, rfl⟩ := List.map_eq_cons_iff.mp hscript
  obtain ⟨data, rfl⟩ := hcarries.writes List.mem_cons_self
  have hcalled := Network.serve_writes self.net sender stream data
  rw [hcall, hserve] at hcalled
  cases hcalled
  have hunsent := hcarries.unsent (List.cons_ne_nil _ _)
  constructor
  case run => exact h.run
  case bound => exact h.bound
  case known =>
    intro stream' opener₂ hopener₂
    by_cases hkey : stream' = stream
    · rw [hkey]
      exact ⟨hinitiator, hfirst, hindex⟩
    · simp only [Function.update_of_ne hkey] at hopener₂
      exact h.known stream' opener₂ hopener₂
  case carries =>
    intro stream' hinitiator' hfirst' hindex'
    by_cases hkey : stream' = stream
    · subst hkey
      refine ⟨todo', ⟨⟨opener', Function.update_self .., hnext rfl⟩,
        (List.suffix_cons _ todo').trans hcarries.suffix, fun _ => hunsent, ?_, fun hover => ?_⟩⟩
      · have hforward := hcarries.forward
        simp only [Network.flight_set_flight, Function.update_self]
        rw [written] at hforward
        rw [← hforward]
        simp only [List.append_assoc]
      · cases (hcarries.ended hover).1
    · obtain ⟨todo₂, hcarries₂⟩ := h.carries stream' hinitiator' hfirst' hindex'
      refine ⟨todo₂, hcarries₂.congr (Function.update_of_ne hkey _ _) rfl ?_ ⟨rfl, rfl⟩⟩
      exact Function.update_of_ne (fun heq => hkey (Prod.mk.inj heq).2) _ _
  case fresh =>
    intro stream' hinitiator' hindex'
    have hkey : stream' ≠ stream := by
      rintro rfl
      exact absurd hindex (Nat.not_lt_of_le hindex')
    obtain ⟨hsent, hflight, hstream⟩ := h.fresh stream' hinitiator' hindex'
    refine ⟨hsent, ?_, hstream⟩
    rw [← hflight]
    exact Function.update_of_ne (fun heq => hkey (Prod.mk.inj heq).2) _ _

/-- What the application writes goes behind the header. -/
theorem Agrees.write (h : self.Agrees sender id first enc enc') (hwrites : self.Writes stream) (data : List UInt8) :
    { self with
      net := self.net.set_flight sender stream (self.net.flight (sender, stream) ++ data)
      sent := Function.update self.sent stream (self.sent stream ++ data) }.Agrees sender id first enc enc' := by
  obtain ⟨hinitiator, hfirst, hindex, hcarries⟩ := h.of_given hwrites.1
  constructor
  case run => exact h.run
  case bound => exact h.bound
  case known => exact h.known
  case carries =>
    intro stream' hinitiator' hfirst' hindex'
    by_cases hkey : stream' = stream
    · subst hkey
      refine ⟨[], ⟨hcarries.opener, hcarries.suffix, fun htodo => absurd rfl htodo, ?_,
        fun hover => absurd hwrites.2.1 hover⟩⟩
      have hforward := hcarries.forward
      rw [written, List.append_nil] at hforward
      simp only [Network.flight_set_flight, Function.update_self, written, List.append_nil]
      rw [← List.append_assoc, hforward]
      simp only [List.append_assoc]
    · obtain ⟨todo', hcarries'⟩ := h.carries stream' hinitiator' hfirst' hindex'
      refine ⟨todo', hcarries'.congr rfl (Function.update_of_ne hkey _ _) ?_ ⟨rfl, rfl⟩⟩
      exact Function.update_of_ne (fun heq => hkey (Prod.mk.inj heq).2) _ _
  case fresh =>
    intro stream' hinitiator' hindex'
    have hkey : stream' ≠ stream := by
      rintro rfl
      exact absurd hindex (Nat.not_lt_of_le hindex')
    obtain ⟨hsent, hflight, hstream⟩ := h.fresh stream' hinitiator' hindex'
    refine ⟨?_, ?_, hstream⟩
    · rw [← hsent]
      exact Function.update_of_ne hkey _ _
    · rw [← hflight]
      exact Function.update_of_ne (fun heq => hkey (Prod.mk.inj heq).2) _ _

/-- What an event of the other end makes of the streams. -/
theorem Agrees.conn (h : self.Agrees sender id first enc enc') {event : wt_rs.Event} {system : System}
    (hstep : self.system.step event = some system) :
    Reachable System.step (System.new id sender.peer first) system ∧
      (∀ dir, system.shared.conn.opened dir = event.count dir (self.system.shared.conn.opened dir)) ∧
      ∀ key, (system.shared.conn.streams key).received =
          (event.change key (self.system.shared.conn.streams key)).received ∧
        (system.shared.conn.streams key).ended = (event.change key (self.system.shared.conn.streams key)).ended :=
  ⟨.step h.run trivial hstep, System.conn_move (System.valid_of_reachable h.run) (System.move_of_step hstep)⟩

/-- The other end does something that leaves the bytes of the streams as they are. -/
theorem Agrees.same (h : self.Agrees sender id first enc enc') {event : wt_rs.Event} {system : System}
    (hstep : self.system.step event = some system) (hchange : ∀ key stream, event.change key stream = stream)
    (hcount : ∀ dir, event.count dir (self.system.shared.conn.opened dir) ≤ self.net.opened (sender, dir)) :
    { self with system }.Agrees sender id first enc enc' := by
  obtain ⟨hrun, hopened, hstreams⟩ := h.conn hstep
  simp only [hchange] at hstreams
  constructor
  case run => exact hrun
  case bound =>
    intro dir
    refine ⟨(h.bound dir).1, ?_⟩
    simp only [hopened]
    exact hcount dir
  case known => exact h.known
  case carries =>
    intro stream hinitiator hfirst hindex
    obtain ⟨todo, hcarries⟩ := h.carries stream hinitiator hfirst hindex
    exact ⟨todo, hcarries.congr rfl rfl rfl (hstreams stream)⟩
  case fresh =>
    intro stream hinitiator hindex
    simp only [(hstreams stream).1, (hstreams stream).2]
    exact h.fresh stream hinitiator hindex

/-- A stream is finished behind all that was written to it. -/
theorem Agrees.finish (h : self.Agrees sender id first enc enc') (hwrites : self.Writes stream)
    (hflight : self.net.flight (sender, stream) = []) {system : System}
    (hstep : self.system.step (.finish stream) = some system) :
    { self with system }.Agrees sender id first enc enc' := by
  obtain ⟨hrun, hopened, hstreams⟩ := h.conn hstep
  obtain ⟨hinitiator, hfirst, hindex, hcarries⟩ := h.of_given hwrites.1
  have hother {key : StreamId} (hkey : key ≠ stream) :
      (wt_rs.Event.finish stream).change key (self.system.shared.conn.streams key) =
        self.system.shared.conn.streams key := if_neg hkey
  constructor
  case run => exact hrun
  case bound =>
    intro dir
    refine ⟨(h.bound dir).1, ?_⟩
    simp only [hopened]
    exact (h.bound dir).2
  case known => exact h.known
  case carries =>
    intro stream' hinitiator' hfirst' hindex'
    by_cases hkey : stream' = stream
    · subst hkey
      have hself : (wt_rs.Event.finish stream').change stream' (self.system.shared.conn.streams stream') =
          (self.system.shared.conn.streams stream').finish := if_pos rfl
      refine ⟨[], ⟨hcarries.opener, hcarries.suffix, hcarries.unsent, ?_, fun _ => ⟨rfl, hflight⟩⟩⟩
      simp only [(hstreams stream').1, hself]
      exact hcarries.forward
    · obtain ⟨todo, hcarries'⟩ := h.carries stream' hinitiator' hfirst' hindex'
      have hstream := hstreams stream'
      rw [hother hkey] at hstream
      exact ⟨todo, hcarries'.congr rfl rfl rfl hstream⟩
  case fresh =>
    intro stream' hinitiator' hindex'
    have hkey : stream' ≠ stream := by
      rintro rfl
      exact absurd hindex (Nat.not_lt_of_le hindex')
    have hstream := hstreams stream'
    rw [hother hkey] at hstream
    simp only [hstream.1, hstream.2]
    exact h.fresh stream' hinitiator' hindex'

/-- Bytes that arrive are the ones that were on their way, and they are for a stream that the peer knows
of. -/
theorem Agrees.deliver (h : self.Agrees sender id first enc enc') {len : Nat} {system : System}
    (hflight : 0 < len ∧ len ≤ (self.net.flight (sender, stream)).length)
    (hstep : self.system.step (.bytes stream ((self.net.flight (sender, stream)).take len)) = some system) :
    { self with net := self.net.set_flight sender stream ((self.net.flight (sender, stream)).drop len), system }.Agrees
      sender id first enc enc' := by
  obtain ⟨hrun, hopened, hstreams⟩ := h.conn hstep
  have hother {key : StreamId} (hkey : key ≠ stream) :
      (Event.bytes stream ((self.net.flight (sender, stream)).take len)).change key
        (self.system.shared.conn.streams key) = self.system.shared.conn.streams key := if_neg hkey
  have hself : (Event.bytes stream ((self.net.flight (sender, stream)).take len)).change stream
      (self.system.shared.conn.streams stream) =
        (self.system.shared.conn.streams stream).push ((self.net.flight (sender, stream)).take len) := if_pos rfl
  constructor
  case run => exact hrun
  case bound =>
    intro dir
    refine ⟨(h.bound dir).1, ?_⟩
    simp only [hopened]
    exact (h.bound dir).2
  case known => exact h.known
  case carries =>
    intro stream' hinitiator' hfirst' hindex'
    obtain ⟨todo, hcarries⟩ := h.carries stream' hinitiator' hfirst' hindex'
    refine ⟨todo, ?_⟩
    by_cases hkey : stream' = stream
    · subst hkey
      refine ⟨hcarries.opener, hcarries.suffix, hcarries.unsent, ?_, fun hover => ?_⟩
      · simp only [(hstreams stream').1, hself, RecvStream.received_push, Network.flight_set_flight,
          Function.update_self]
        rw [← hcarries.forward, List.append_assoc (RecvStream.received _), List.take_append_drop]
      · simp only [(hstreams stream').2, hself] at hover
        rw [(hcarries.ended hover).2] at hflight
        exact absurd hflight.2 (Nat.not_le_of_lt hflight.1)
    · have hstream := hstreams stream'
      rw [hother hkey] at hstream
      refine hcarries.congr rfl rfl ?_ hstream
      exact Function.update_of_ne (fun heq => hkey (Prod.mk.inj heq).2) _ _
  case fresh =>
    intro stream' hinitiator' hindex'
    obtain ⟨hsent, hempty, hstream'⟩ := h.fresh stream' hinitiator' hindex'
    have hkey : stream' ≠ stream := by
      rintro rfl
      rw [hempty] at hflight
      exact absurd hflight.2 (Nat.not_le_of_lt hflight.1)
    have hstream := hstreams stream'
    rw [hother hkey] at hstream
    refine ⟨hsent, ?_, ?_⟩
    · rw [← hempty]
      exact Function.update_of_ne (fun heq => hkey (Prod.mk.inj heq).2) _ _
    · simp only [hstream.1, hstream.2]
      exact hstream'

/-- Every event keeps all streams as they should be: a call gets on with its own stream, what is written
goes behind it, what is on its way arrives in order, and the tasks at the other end read from the front.
-/
theorem Agrees.step (h : self.Agrees sender id first enc enc')
    (hopen : ∀ dir side index, (connection.open_stream dir).Follows
      (calls ⟨side, dir, index⟩ [.opens, .writes (enc dir), .writes (enc' dir)]) ⟨side, dir, index⟩)
    {event : Event} (hstep : self.step connection sender event = some next) : next.Agrees sender id first enc enc' := by
  unfold Traffic.step at hstep
  cases event with
  | opens dir =>
    obtain ⟨hlost, hstep⟩ := Option.ite_none_right_eq_some.mp hstep
    split at hstep
    · rename_i opener net hopener
      cases hstep
      exact h.opens (hopen dir) hopener
    · cases hstep
  | advance stream =>
    obtain ⟨hlost, hstep⟩ := Option.ite_none_right_eq_some.mp hstep
    split at hstep
    · rename_i opener hopener
      split at hstep
      · rename_i opener' net hnext
        cases hstep
        exact h.advance hopener hnext
      · cases hstep
    · cases hstep
  | write stream data =>
    obtain ⟨hwrites, hstep⟩ := Option.ite_none_right_eq_some.mp hstep
    cases hstep
    exact h.write hwrites data
  | finish stream =>
    obtain ⟨⟨hwrites, hflight⟩, hstep⟩ := Option.ite_none_right_eq_some.mp hstep
    split at hstep
    · rename_i system hsystem
      cases hstep
      exact h.finish hwrites hflight hsystem
    · cases hstep
  | surface dir =>
    obtain ⟨hlt, hstep⟩ := Option.ite_none_right_eq_some.mp hstep
    split at hstep
    · rename_i system hsystem
      cases hstep
      refine h.same hsystem (fun _ _ => rfl) fun dir' => ?_
      simp only [Event.count]
      split_ifs with hdir
      · rw [hdir]
        exact hlt
      · exact (h.bound dir').2
    · cases hstep
  | deliver stream len =>
    obtain ⟨hflight, hstep⟩ := Option.ite_none_right_eq_some.mp hstep
    split at hstep
    · rename_i system hsystem
      cases hstep
      exact h.deliver hflight hsystem
    · cases hstep
  | accept event =>
    obtain ⟨hlocal, hstep⟩ := Option.ite_none_right_eq_some.mp hstep
    split at hstep
    · rename_i system hsystem
      cases hstep
      cases event with
      | peer_opens | bytes | finish | reset => exact hlocal.elim
      | close | call | repoll | cancel => exact h.same hsystem (fun _ _ => rfl) fun dir => (h.bound dir).2
    · cases hstep

/-- In every run all streams are as they should be, whatever stood on the network before. -/
theorem exists_agrees {net : Network} (hconnect : connection.connect = some connect) (hid : connection.id = some id)
    (hnet : net.Sound) (hrun : Reachable (step connection sender) (Traffic.start net sender id) self) :
    ∃ enc enc' : Dir → List UInt8, (∀ dir, Encodes (enc dir) (webtransport dir) ∧ Encodes (enc' dir) id) ∧
      self.Agrees sender id (fun dir => net.opened (sender, dir)) enc enc' := by
  choose enc enc' henc henc' hopen using Connection.follows_open_stream hconnect hid
  refine ⟨enc, enc', fun dir => ⟨henc dir, henc' dir⟩, ?_⟩
  exact hrun.invariant (fun traffic => traffic.Agrees sender id (fun dir => net.opened (sender, dir)) enc enc')
    (.start hnet) fun h _ hstep => h.step hopen hstep

/-- The header in front of everything the application has written. -/
theorem Carries.judge {enc enc' : List UInt8} (h : self.Carries sender enc enc' stream todo)
    (henc : Encodes enc (webtransport stream.dir)) (henc' : Encodes enc' id) :
    judge id stream (self.system.shared.conn.streams stream) = none ∨
      judge id stream (self.system.shared.conn.streams stream) = some .returned := by
  have hwhole : Header ((self.system.shared.conn.streams stream).received ++
      (self.net.flight (sender, stream) ++ written todo)) (webtransport stream.dir) id (self.sent stream) :=
    ⟨enc, enc', by rw [← List.append_assoc, h.forward], henc, henc'⟩
  obtain hheadless | ⟨stype, sid, rest, hheader⟩ := headless_or_header (self.system.shared.conn.streams stream).received
  · refine .inl (judge_eq_none_iff.mpr ⟨hheadless, ?_⟩)
    by_contra hover
    obtain ⟨rfl, hflight⟩ := h.ended hover
    rw [hflight, written, List.append_nil, List.append_nil] at hwhole
    exact hwhole.not_headless hheadless
  · obtain ⟨rfl, rfl, -⟩ := (hheader.append _).unique hwhole
    exact .inr (judge_eq_returned_iff.mpr ⟨rest, hheader⟩)

/-- A stream whose header has been read carries what was written to it, and its call has come back. -/
theorem Carries.sent {enc enc' rest : List UInt8} (h : self.Carries sender enc enc' stream todo)
    (henc : Encodes enc (webtransport stream.dir)) (henc' : Encodes enc' id) {stype sid : VarInt}
    (hheader : Header (self.system.shared.conn.streams stream).received stype sid rest) :
    todo = [] ∧ self.sent stream = rest ++ self.net.flight (sender, stream) := by
  have hwhole : Header ((self.system.shared.conn.streams stream).received ++
      (self.net.flight (sender, stream) ++ written todo)) (webtransport stream.dir) id (self.sent stream) :=
    ⟨enc, enc', by rw [← List.append_assoc, h.forward], henc, henc'⟩
  obtain ⟨-, -, hsent⟩ := (hheader.append _).unique hwhole
  have htodo : todo = [] := by
    by_contra hne
    rw [h.unsent hne] at hsent
    have hwritten := (List.append_eq_nil_iff.mp (List.append_eq_nil_iff.mp hsent).2).2
    obtain ⟨before, hbefore⟩ := h.suffix
    have hlast : todo.getLast? = some (.writes enc') := by
      rw [← List.getLast?_append_of_ne_nil before hne, hbefore]
      rfl
    obtain ⟨actions, rfl⟩ := List.getLast?_eq_some_iff.mp hlast
    rw [written_append] at hwritten
    obtain ⟨-, hnil⟩ := List.append_eq_nil_iff.mp hwritten
    rw [written, written, List.append_nil] at hnil
    exact henc'.ne_nil hnil
  subst htodo
  rw [written, List.append_nil] at hsent
  exact ⟨rfl, hsent.symm⟩

/-- An accept call has nothing to do with a stream but to return it. -/
private theorem Agrees.sorted_eq (h : self.Agrees sender id first enc enc')
    (henc : ∀ dir, Encodes (enc dir) (webtransport dir) ∧ Encodes (enc' dir) id) {fate : Fate}
    (hfate : (self.system.sorter first).sorted stream = some fate) : fate = .returned := by
  obtain ⟨hsorted, -⟩ := System.sorted_of_reachable h.run
  have hjudge := hsorted.judge_eq hfate
  have hgone : self.system.shared.Gone first stream := by
    by_contra hnot
    rw [System.sorter, hsorted.shared.sorted_eq_none_iff.mpr hnot] at hfate
    cases hfate
  obtain ⟨⟨⟨hinitiator, hfirst⟩, hindex⟩, -⟩ := hgone
  rw [hsorted.valid.side_eq, Side.peer_peer] at hinitiator
  have haccepted := (hsorted.valid.shared.bound stream.dir).2
  obtain ⟨todo, hcarries⟩ := h.carries stream hinitiator hfirst
    (Nat.lt_of_lt_of_le hindex (Nat.le_trans haccepted (h.bound stream.dir).2))
  obtain hnone | hreturned := hcarries.judge (henc stream.dir).1 (henc stream.dir).2
  · rw [hjudge] at hnone
    cases hnone
  · rw [hjudge] at hreturned
    cases hreturned
    rfl

/-- No call fails for these streams, and none is taken in without an answer or returned twice. -/
theorem Agrees.sorts (h : self.Agrees sender id first enc enc')
    (henc : ∀ dir, Encodes (enc dir) (webtransport dir) ∧ Encodes (enc' dir) id) :
    self.system.failed = [] ∧ (∀ key, (self.system.sorter first).sorted key ≠ some .absorbed) ∧
      self.system.returned.Nodup := by
  obtain ⟨hsorted, -⟩ := System.sorted_of_reachable h.run
  refine ⟨List.eq_nil_iff_forall_not_mem.mpr fun key hfailed => ?_, fun key habsorbed => ?_,
    List.nodup_iff_count_le_one.mpr fun key => (hsorted.valid.shared.place key).count_le⟩
  · cases h.sorted_eq henc (hsorted.mem_failed_iff.mp hfailed)
  · cases h.sorted_eq henc habsorbed

/-- A stream that was returned is one the application was given, and all it has written behind the
header is there or on its way. -/
theorem Agrees.of_returned (h : self.Agrees sender id first enc enc')
    (henc : ∀ dir, Encodes (enc dir) (webtransport dir) ∧ Encodes (enc' dir) id)
    (hreturned : stream ∈ self.system.returned) :
    stream.initiator = sender ∧ stream.index < self.net.opened (sender, stream.dir) ∧ self.given stream = some stream ∧
      self.sent stream = (self.system.shared.conn.streams stream).unread ++ self.net.flight (sender, stream) := by
  have hvalid := System.valid_of_reachable h.run
  obtain ⟨hinitiator, hfirst, hindex, hheader⟩ :=
    (hvalid.shared.place stream).of_returned (List.count_pos_iff.mpr hreturned)
  rw [hvalid.side_eq, Side.peer_peer] at hinitiator
  have haccepted := (hvalid.shared.bound stream.dir).2
  have hlt := Nat.lt_of_lt_of_le hindex (Nat.le_trans haccepted (h.bound stream.dir).2)
  obtain ⟨todo, hcarries⟩ := h.carries stream hinitiator hfirst hlt
  obtain ⟨rfl, hsent⟩ := hcarries.sent (henc stream.dir).1 (henc stream.dir).2 (hheader.append _)
  rw [List.nil_append] at hsent
  refine ⟨hinitiator, hlt, ?_, hsent⟩
  obtain ⟨opener, hopener, hfollows⟩ := hcarries.opener
  rw [given, hopener, hfollows.eq_done]

/-- A stream that has arrived with all that was written to it, until it is returned. -/
theorem Agrees.returns (h : self.Agrees sender id first enc enc')
    (henc : ∀ dir, Encodes (enc dir) (webtransport dir) ∧ Encodes (enc' dir) id)
    (hgiven : self.given stream = some stream) (hlost : self.system.shared.conn.lost = none)
    (hflight : self.net.flight (sender, stream) = [])
    (hsurfaced : stream.index < self.system.shared.conn.opened stream.dir)
    (callers : Nat → TaskId × List StreamId) (hfree : ∀ n, self.system.calls (callers n).1 = none) :
    ∃ n ≤ self.system.shared.load stream.dir, ∃ system, steps System.step self.system ((List.range n).map fun i =>
      .call (callers i).1 stream.dir (callers i).2) = some system ∧ stream ∈ system.returned := by
  obtain ⟨hinitiator, hfirst, hindex, hcarries⟩ := h.of_given hgiven
  have hvalid := System.valid_of_reachable h.run
  have hexpects : self.system.shared.Expects first stream := by
    refine ⟨?_, hfirst⟩
    rw [hvalid.side_eq, Side.peer_peer]
    exact hinitiator
  have hheader : Header (self.system.shared.conn.streams stream).received (webtransport stream.dir) id
      (self.sent stream) := by
    have hforward := hcarries.forward
    rw [hflight, written, List.append_nil, List.append_nil] at hforward
    exact ⟨enc stream.dir, enc' stream.dir, hforward, (henc stream.dir).1, (henc stream.dir).2⟩
  by_cases hreturned : stream ∈ self.system.returned
  · exact ⟨0, Nat.zero_le _, self.system, rfl, hreturned⟩
  · exact System.returned_of_awaited h.run hlost ⟨hexpects, hsurfaced, ⟨_, hheader⟩, hreturned⟩ callers hfree

/-- The tasks go on by themselves. -/
theorem steps_accept {events : List wt_rs.Event} (hlocal : ∀ event ∈ events, event.Local) {system : System}
    (h : steps System.step self.system events = some system) :
    steps (step connection sender) self (events.map .accept) = some { self with system } := by
  induction events generalizing self with
  | nil =>
    cases h
    rfl
  | cons event events ih =>
    obtain ⟨hevent, hevents⟩ := List.forall_mem_cons.mp hlocal
    rw [steps] at h
    split at h
    · rename_i mid hstep
      have hmid : step connection sender self (.accept event) = some { self with system := mid } := by
        simp only [step, if_pos hevent, hstep]
      rw [List.map_cons, steps, hmid]
      exact ih hevents h
    · cases h

section session

variable {net : Network}

/-- Between two parties in one session, however their calls interleave: no accept call fails for a
stream or takes one in without an answer, none comes back with a stream twice, and on a stream that
one has come back with, what is left to be read is what the application has written after its own
call came back. -/
theorem accepts_what_is_opened (hconnect : connection.connect = some connect) (hid : connection.id = some id)
    (hnet : net.Sound) (hrun : Reachable (step connection sender) (Traffic.start net sender id) self) :
    self.system.failed = [] ∧
      (∀ key, (self.system.sorter fun dir => net.opened (sender, dir)).sorted key ≠ some .absorbed) ∧
      self.system.returned.Nodup ∧
      ∀ stream ∈ self.system.returned, stream.initiator = sender ∧
        stream.index < self.net.opened (sender, stream.dir) ∧ self.given stream = some stream ∧
        self.sent stream =
          (self.system.shared.conn.streams stream).unread ++ self.net.flight (sender, stream) := by
  obtain ⟨enc, enc', henc, h⟩ := exists_agrees hconnect hid hnet hrun
  obtain ⟨hfailed, habsorbed, hnodup⟩ := h.sorts henc
  exact ⟨hfailed, habsorbed, hnodup, fun stream hreturned => h.of_returned henc hreturned⟩

/-- The client has opened a stream before. It opens another one, writes a byte to it, and all of it arrives. -/
private theorem one_stream : ∃ (net : Network) (self : Traffic), Reachable Network.step .new net ∧
    Reachable (step (.established .Client) .Client) (start net .Client (.from_u32 0)) self ∧
      self.given ⟨.Client, .Uni, 1⟩ = some ⟨.Client, .Uni, 1⟩ ∧ self.system.shared.conn.lost = none ∧
      self.net.flight (.Client, ⟨.Client, .Uni, 1⟩) = [] ∧ self.system.shared.conn.opened .Uni = 2 ∧
      self.system.calls 7 = none ∧ self.sent ⟨.Client, .Uni, 1⟩ = [0x2a] ∧
      (step (.established .Client) .Client self (.accept (.call 7 .Uni []))).map (·.system.returned) =
        some [⟨.Client, .Uni, 1⟩] := by
  obtain ⟨net, self, hnet, hsteps, hfacts⟩ : ∃ net self, Network.new.step (.serve .Client .open_uni) = some net ∧
      steps (step (.established .Client) .Client) (start net .Client (.from_u32 0))
        [.opens .Uni, .advance ⟨.Client, .Uni, 1⟩, .advance ⟨.Client, .Uni, 1⟩, .write ⟨.Client, .Uni, 1⟩ [0x2a],
          .surface .Uni, .deliver ⟨.Client, .Uni, 1⟩ 1, .deliver ⟨.Client, .Uni, 1⟩ 3] = some self ∧
      self.given ⟨.Client, .Uni, 1⟩ = some ⟨.Client, .Uni, 1⟩ ∧ self.system.shared.conn.lost = none ∧
      self.net.flight (.Client, ⟨.Client, .Uni, 1⟩) = [] ∧ self.system.shared.conn.opened .Uni = 2 ∧
      self.system.calls 7 = none ∧ self.sent ⟨.Client, .Uni, 1⟩ = [0x2a] ∧
      (step (.established .Client) .Client self (.accept (.call 7 .Uni []))).map (·.system.returned) =
        some [⟨.Client, .Uni, 1⟩] := ⟨_, _, rfl, rfl, rfl, rfl, rfl, rfl, rfl, rfl, rfl⟩
  exact ⟨net, self, .step .start trivial hnet, Reachable.steps .start hsteps, hfacts⟩

/-- A stream that was opened behind those of the handshake is returned. -/
theorem accepts_what_is_opened_one_stream : ∃ next : Traffic, next.system.returned = [⟨.Client, .Uni, 1⟩] ∧
    next.system.failed = [] ∧ next.given ⟨.Client, .Uni, 1⟩ = some ⟨.Client, .Uni, 1⟩ := by
  obtain ⟨net, self, hnet, hrun, -, -, -, -, -, -, hcall⟩ := one_stream
  obtain ⟨next, hstep, hreturned⟩ := Option.map_eq_some_iff.mp hcall
  obtain ⟨hfailed, -, -, hstreams⟩ :=
    @accepts_what_is_opened _ _ _ _ next net rfl rfl (Network.sound_of_reachable hnet) (.step hrun trivial hstep)
  obtain ⟨-, -, hgiven, -⟩ := hstreams ⟨.Client, .Uni, 1⟩ (by rw [hreturned]; exact List.mem_singleton_self _)
  exact ⟨next, hreturned, hfailed, hgiven⟩

/-- A stream that the application has got, and that has arrived with all that was written to it, is
accepted within as many calls as there are header reads to do, and all of it can be read. -/
theorem opened_is_accepted (hconnect : connection.connect = some connect) (hid : connection.id = some id)
    (hnet : net.Sound) (hrun : Reachable (step connection sender) (Traffic.start net sender id) self)
    (hgiven : self.given stream = some stream) (hlost : self.system.shared.conn.lost = none)
    (hflight : self.net.flight (sender, stream) = [])
    (hsurfaced : stream.index < self.system.shared.conn.opened stream.dir)
    (callers : Nat → TaskId × List StreamId) (hfree : ∀ n, self.system.calls (callers n).1 = none) :
    ∃ n ≤ self.system.shared.load stream.dir, ∃ next, steps (step connection sender) self
        ((List.range n).map fun i => .accept (.call (callers i).1 stream.dir (callers i).2)) = some next ∧
      stream ∈ next.system.returned ∧ next.sent stream = self.sent stream ∧
      (next.system.shared.conn.streams stream).unread = self.sent stream := by
  obtain ⟨enc, enc', henc, h⟩ := exists_agrees hconnect hid hnet hrun
  obtain ⟨n, hn, system, hsteps, hreturned⟩ := h.returns henc hgiven hlost hflight hsurfaced callers hfree
  have hlocal : ∀ event ∈ (List.range n).map fun i => wt_rs.Event.call (callers i).1 stream.dir (callers i).2,
      event.Local := by
    intro event hevent
    obtain ⟨i, -, rfl⟩ := List.mem_map.mp hevent
    trivial
  have hsteps' := @steps_accept connection sender self _ hlocal system hsteps
  rw [List.map_map] at hsteps'
  refine ⟨n, hn, _, hsteps', hreturned, rfl, ?_⟩
  obtain ⟨enc₂, enc₂', henc₂, hnext⟩ := exists_agrees hconnect hid hnet (Reachable.steps hrun hsteps')
  obtain ⟨-, -, -, hsent⟩ := hnext.of_returned henc₂ hreturned
  simp only [hflight, List.append_nil] at hsent
  exact hsent.symm

/-- It is returned with the byte that was written to it. -/
theorem opened_is_accepted_one_stream : ∃ (self next : Traffic), self.sent ⟨.Client, .Uni, 1⟩ = [0x2a] ∧
    ⟨.Client, .Uni, 1⟩ ∈ next.system.returned ∧
    (next.system.shared.conn.streams ⟨.Client, .Uni, 1⟩).unread = [0x2a] := by
  obtain ⟨net, self, hnet, hrun, hgiven, hlost, hflight, hopened, hfree, hsent, -⟩ := one_stream
  obtain ⟨n, -, next, -, hreturned, -, hunread⟩ :=
    @opened_is_accepted _ _ _ _ _ _ net rfl rfl (Network.sound_of_reachable hnet) hrun hgiven hlost hflight
      (by rw [hopened]; exact Nat.one_lt_two) (fun _ => (7, [])) fun _ => hfree
  exact ⟨self, next, hsent, hreturned, hunread.trans hsent⟩

end session

end Traffic

end wt_rs
