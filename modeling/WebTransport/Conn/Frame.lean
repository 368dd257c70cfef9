import WebTransport.Conn.Valid

open rust rust.Outcome rust.Async quinn wt_proto.coding wt_proto.h3

namespace wt_rs.Acceptor

/-- What the polls of one kind leave as it is: everything of the other kind, and of each
stream all but the place up to which it has been read. -/
structure Frame (dir : Dir) (before after : Acceptor) : Prop where
  id : after.accept.id = before.accept.id
  side : after.conn.side = before.conn.side
  opened : after.conn.opened = before.conn.opened
  lost : after.conn.lost = before.conn.lost
  accepted : ∀ dir' ≠ dir, after.conn.accepted dir' = before.conn.accepted dir'
  drained : ∀ dir' ≠ dir, after.accept.drained dir' = before.accept.drained dir'
  accepting : ∀ dir' ≠ dir, after.accept.accepting dir' = before.accept.accepting dir'
  received : ∀ key, (after.conn.streams key).received = (before.conn.streams key).received
  ended : ∀ key, (after.conn.streams key).ended = (before.conn.streams key).ended

namespace Frame

variable {dir : Dir} {before mid after : Acceptor}

/-- Doing nothing leaves everything as it is. -/
theorem refl (dir : Dir) (self : Acceptor) : Frame dir self self where
  id := rfl
  side := rfl
  opened := rfl
  lost := rfl
  accepted _ _ := rfl
  drained _ _ := rfl
  accepting _ _ := rfl
  received _ := rfl
  ended _ := rfl

/-- What two polls in a row leave as it is, both do. -/
theorem trans (h : Frame dir before mid) (h' : Frame dir mid after) : Frame dir before after where
  id := h'.id.trans h.id
  side := h'.side.trans h.side
  opened := h'.opened.trans h.opened
  lost := h'.lost.trans h.lost
  accepted dir' hdir := (h'.accepted dir' hdir).trans (h.accepted dir' hdir)
  drained dir' hdir := (h'.drained dir' hdir).trans (h.drained dir' hdir)
  accepting dir' hdir := (h'.accepting dir' hdir).trans (h.accepting dir' hdir)
  received key := (h'.received key).trans (h.received key)
  ended key := (h'.ended key).trans (h.ended key)

/-- A change of one queue, with one stream read on, leaves the rest as it is. -/
theorem set_queue (self : Acceptor) (dir : Dir) (drained : Drained) {key : StreamId} {stream : RecvStream}
    (hreceived : stream.received = (self.conn.streams key).received)
    (hended : stream.ended = (self.conn.streams key).ended) :
    Frame dir self (self.set_queue dir drained (Function.update self.conn.streams key stream)) where
  id := rfl
  side := rfl
  opened := rfl
  lost := rfl
  accepted _ _ := rfl
  drained _ hdir := set_queue_drained_ne hdir drained _
  accepting _ _ := rfl
  received key' := by
    rw [set_queue_streams]
    by_cases hkey : key' = key
    · rw [hkey, Function.update_self, hreceived]
    · rw [Function.update_of_ne hkey]
  ended key' := by
    rw [set_queue_streams]
    by_cases hkey : key' = key
    · rw [hkey, Function.update_self, hended]
    · rw [Function.update_of_ne hkey]

end Frame

variable {dir : Dir} {cx : TaskId} {order : List StreamId} {first : Dir → Nat} {self next : Acceptor}
  {returned : List StreamId}

/-- A header read that is polled reads on its own stream, and that is of the kind of its queue. -/
theorem Valid.frame_poll {key : StreamId} {future : PendingHeader} {streams : StreamId → RecvStream}
    {ready : Bool} {out : PendingHeader ⊕ Outcome WTError (VarInt × StreamId)}
    (hvalid : self.Valid first returned)
    (hlookup : (self.accept.drained dir).tasks.lookup key = some ⟨future, ready⟩)
    (hpoll : poll_header self.conn.lost key future self.conn.streams = (out, streams)) (drained : Drained) :
    Frame dir self (self.set_queue dir drained streams) := by
  obtain ⟨hplace, rfl⟩ := hvalid.queued hlookup
  generalize returned.count key = count at hplace
  cases hplace with
  | queued hinitiator hfirst hindex hresidual hidle =>
    obtain ⟨stream, rfl, hreceived, hended, -⟩ := poll_header_spec hresidual hpoll
    exact .set_queue self key.dir drained hreceived hended

/-- One turn of the loop keeps to its kind. -/
theorem Turn.frame (hturn : Turn dir cx self next) (hvalid : self.Valid first returned) :
    Frame dir self next := by
  cases hturn with
  | take hopened =>
    exact { Frame.refl dir self with
      accepted := fun _ hdir => take_accepted_ne hdir
      drained := fun _ hdir => take_drained_ne hdir }
  | accepting =>
    exact { Frame.refl dir self with
      accepting := fun _ hdir => Function.update_of_ne hdir _ self.accept.accepting }
  | waker =>
    exact { Frame.refl dir self with
      drained := fun _ hdir => set_queue_drained_ne hdir _ self.conn.streams }
  | advance hlost hlookup hpoll => exact hvalid.frame_poll hlookup hpoll _
  | store hlost hlookup hpoll hdispatch =>
    exact { hvalid.frame_poll hlookup hpoll _ with }
  | ignore hlost hlookup hpoll hdispatch => exact hvalid.frame_poll hlookup hpoll _

/-- Some turns keep to their kind. -/
theorem Turns.frame (hturns : Turns dir cx self next) (hvalid : self.Valid first returned) :
    Frame dir self next := by
  induction hturns with
  | refl => exact .refl dir self
  | tail hturns hturn ih => exact ih.trans (hturn.frame (hvalid.turns hturns))

/-- The end of a poll keeps to its kind. -/
theorem Ends.frame {completion : Completion} (hends : Ends dir self completion next)
    (hvalid : self.Valid first returned) : Frame dir self next := by
  cases hends with
  | lost => exact .refl dir self
  | deliver hlost hlookup hpoll hdispatch => exact hvalid.frame_poll hlookup hpoll _
  | fail hlost hlookup hpoll => exact hvalid.frame_poll hlookup hpoll _

/-- A poll for streams of one kind keeps to its kind. -/
theorem poll_accept_frame {out : Poll Completion} (hvalid : self.Valid first returned)
    (hpoll : self.poll_accept dir cx order = ok (out, next)) : Frame dir self next := by
  obtain ⟨-, hturns, -⟩ | ⟨completion, before, -, hturns, hends⟩ := poll_accept_spec hpoll
  · exact Turns.frame hturns hvalid
  · exact (Turns.frame hturns hvalid).trans (hends.frame (hvalid.turns hturns))

/-- What a poll has returned adds to what was returned before. -/
theorem poll_accept_valid {out : Poll Completion} (hvalid : self.Valid first returned)
    (hpoll : self.poll_accept dir cx order = ok (out, next)) :
    match out with
    | .Pending => next.Valid first returned
    | .Ready completion => next.Valid first (completion.returned ++ returned) := by
  obtain ⟨rfl, hturns, -⟩ | ⟨completion, before, rfl, hturns, hends⟩ := poll_accept_spec hpoll
  · exact hvalid.turns hturns
  · exact (hvalid.turns hturns).ends hends

/-- A poll returns streams of the kind it is for. -/
theorem poll_accept_returned {completion : Completion} {key : StreamId} (hvalid : self.Valid first returned)
    (hpoll : self.poll_accept dir cx order = ok (.Ready completion, next))
    (hkey : key ∈ completion.returned) : key.dir = dir := by
  obtain ⟨hout, -⟩ | ⟨completion', before, hout, hturns, hends⟩ := poll_accept_spec hpoll
  · cases hout
  · cases hout
    have hbefore := hvalid.turns hturns
    cases hends with
    | lost => cases hkey
    | deliver hlost hlookup hheader hdispatch =>
      obtain ⟨stream, -, -, -, hpolled, -⟩ := hbefore.finish hlookup hheader
      obtain ⟨rfl, -⟩ := hpolled.header_of_ok
      rw [List.mem_singleton.mp hkey]
      exact hbefore.dir_eq hlookup
    | fail => cases hkey

end wt_rs.Acceptor
