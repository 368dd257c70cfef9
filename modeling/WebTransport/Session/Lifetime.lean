import WebTransport.Session.Counts
import WebTransport.Session.Progress
import WebTransport.Session.Traffic

open rust rust.Outcome rust.Async quinn transition wt_proto.coding

namespace wt_rs

/-- What the tasks of a side share from the end of its handshake on. -/
def Handshake.shared (self : Handshake) (side : Side) : Option System :=
  match self.result side with
  | some (ok connection) => connection.accept.map fun accept =>
    { System.new accept.id side fun dir => self.net.accepted (side, dir) with shared.accept := accept }
  | _ => none

/-- The side at which an event happens, when `sender` opens the streams. -/
def Traffic.Event.side (sender : Side) : Traffic.Event → Side
  | .opens _ | .advance _ | .write _ _ => sender
  | .finish _ | .surface _ | .deliver _ _ | .accept _ => sender.peer

/-- The event has nothing to do with the streams of the handshake, nor is the connection lost. -/
def Traffic.Event.Fits (sender : Side) : Traffic.Event → Prop
  | .deliver stream _ => Handshake.first sender stream.dir ≤ stream.index
  | .accept (.close _) => False
  | _ => True

instance (sender : Side) (event : Traffic.Event) : Decidable (event.Fits sender) :=
  match event with
  | .deliver _ _ => Nat.decLe _ _
  | .accept (.close _) => .isFalse id
  | .accept (.call _ _ _) | .accept (.repoll _ _) | .accept (.cancel _) | .accept (.peer_opens _)
  | .accept (.bytes _ _) | .accept (.finish _) | .accept (.reset _) => .isTrue trivial
  | .opens _ | .advance _ | .write _ _ | .finish _ | .surface _ => .isTrue trivial

/-- A client and a server, from the first byte of the handshake on. `openers` are the calls of
`open_uni` and `open_bi` that have got a stream, and `system` is what the tasks of a side share once
it has its connection. For the record, `sent` is what the applications have written. -/
structure Session where
  handshake : Handshake
  openers : Side → StreamId → Option (Async Quic WTError StreamId)
  sent : Side → StreamId → List UInt8
  system : Side → Option System

/-- A function of the handshake gets on, bytes arrive that no task waits for, a side gets to know of
another stream, something happens to the streams that `sender` opens, or an application answers on
a stream that an accept call has returned. -/
inductive Session.Event where
  | act (side : Side) (branch : Branch)
  | deliver (sender : Side) (stream : StreamId) (len : Nat)
  | surface (side : Side) (dir : Dir)
  | traffic (sender : Side) (event : Traffic.Event)
  | answer (side : Side) (stream : StreamId) (data : List UInt8)

namespace Session

def start (fuel : Nat) (orders : Side → Orders) : Session where
  handshake := .start fuel orders
  openers := fun _ _ => none
  sent := fun _ _ => []
  system := fun _ => none

/-- The connection of a side that has finished its handshake. -/
def connection (self : Session) (side : Side) : Option Connection :=
  match self.handshake.result side with
  | some (ok connection) => some connection
  | _ => none

/-- The streams that accept calls at a side have come back with. -/
def returned (self : Session) (side : Side) : List StreamId := (self.system side).elim [] System.returned

/-- The traffic on the streams that `sender` opens. As long as the peer has no connection, nothing
of it has arrived there. -/
def traffic (self : Session) (sender : Side) : Traffic where
  net := self.handshake.net
  openers := self.openers sender
  sent := self.sent sender
  system := (self.system sender.peer).getD (.new (.from_u32 0) sender.peer (Handshake.first sender))

/-- The session after something has happened to that traffic. -/
def put (self : Session) (sender : Side) (traffic : Traffic) : Session where
  handshake := { self.handshake with net := traffic.net }
  openers := Function.update self.openers sender traffic.openers
  sent := Function.update self.sent sender traffic.sent
  system := Function.update self.system sender.peer ((self.system sender.peer).map fun _ => traffic.system)

/-- Bytes of the applications arrive at a side only when it has its connection: until then none of its
tasks can tell whether they have, and an arrival can be put off for as long as one likes. -/
def step (self : Session) : Event → Option Session
  | .act side branch =>
    match self.handshake.step (.act side branch) with
    | some handshake => some { self with
        handshake
        system := Function.update self.system side ((self.system side).or (handshake.shared side)) }
    | none => none
  | .deliver sender stream len =>
    if stream.initiator = sender ∧ Handshake.first sender stream.dir ≤ stream.index then none
    else
      match self.handshake.step (.deliver sender stream len) with
      | some handshake => some { self with handshake }
      | none => none
  | .surface side dir =>
    let net := self.handshake.net
    if net.surfaced (side, dir) < net.opened (side.peer, dir) then
      some { self with
        handshake.net := { net with
          surfaced := Function.update net.surfaced (side, dir) (net.surfaced (side, dir) + 1) } }
    else none
  | .traffic sender event =>
    match self.connection (event.side sender) with
    | some connection =>
      if event.Fits sender then
        match (self.traffic sender).step connection sender event with
        | some traffic => some (self.put sender traffic)
        | none => none
      else none
    | none => none
  | .answer side stream data =>
    if stream ∈ self.returned side ∧ stream.dir = .Bi then
      match self.handshake.net.serve side (.write_all stream data) with
      | some (_, net) => some { self with
          handshake.net := net
          sent := Function.update self.sent side
            (Function.update (self.sent side) stream (self.sent side stream ++ data)) }
      | none => none
    else none

end Session

/-- A connection is lost by an event of its own only. -/
theorem System.lost_step {id : VarInt} {side : Side} {first : Dir → Nat} {self next : System} {event : Event}
    (hvalid : self.Valid id side first) (hstep : self.step event = some next)
    (hne : ∀ error, event ≠ .close error) : next.shared.conn.lost = self.shared.conn.lost := by
  cases move_of_step hstep with
  | peer_opens hlost =>
    rw [notify_shared]
    rfl
  | bytes hlive | finish hlive | reset hlive =>
    rw [arrive_shared]
    rfl
  | close hlost => exact absurd rfl (hne _)
  | wait hpolls hpoll | complete hpolls hpoll => exact (Acceptor.poll_accept_frame hvalid.shared hpoll).lost
  | cancel hcall => rfl

namespace Traffic

variable {connection : Connection} {sender : Side} {id : VarInt} {first : Dir → Nat} {enc enc' : Dir → List UInt8}
  {self next : Traffic} {event : Event}

/-- Only the streams that the application opens matter. -/
theorem Agrees.congr (h : self.Agrees sender id first enc enc') (hsystem : next.system = self.system)
    (hopeners : next.openers = self.openers)
    (hopened : ∀ dir, next.net.opened (sender, dir) = self.net.opened (sender, dir))
    (hsent : ∀ stream, stream.initiator = sender → next.sent stream = self.sent stream)
    (hflight : ∀ stream, stream.initiator = sender → first stream.dir ≤ stream.index →
      next.net.flight (sender, stream) = self.net.flight (sender, stream)) :
    next.Agrees sender id first enc enc' where
  run := by
    rw [hsystem]
    exact h.run
  bound dir := by
    rw [hopened, hsystem]
    exact h.bound dir
  known stream opener hopener := by
    rw [hopeners] at hopener
    rw [hopened]
    exact h.known stream opener hopener
  carries stream hinitiator hfirst hindex := by
    rw [hopened] at hindex
    obtain ⟨todo, hcarries⟩ := h.carries stream hinitiator hfirst hindex
    refine ⟨todo, hcarries.congr (congrFun hopeners stream) (hsent stream hinitiator)
      (hflight stream hinitiator hfirst) ?_⟩
    rw [hsystem]
    exact ⟨rfl, rfl⟩
  fresh stream hinitiator hindex := by
    rw [hopened] at hindex
    rw [hsent stream hinitiator, hflight stream hinitiator (Nat.le_trans (h.bound stream.dir).1 hindex), hsystem]
    exact h.fresh stream hinitiator hindex

/-- The traffic as it is when the streams of the handshake count as opened. -/
def raise (sender : Side) (self : Traffic) : Traffic :=
  { self with
    net.opened := fun key =>
      if key.1 = sender then max (self.net.opened key) (Handshake.first sender key.2) else self.net.opened key }

/-- The streams of the handshake count as opened. -/
theorem raise_opened (dir : Dir) : (self.raise sender).net.opened (sender, dir) =
    max (self.net.opened (sender, dir)) (Handshake.first sender dir) := if_pos rfl

/-- Where they are opened there is nothing to raise. -/
theorem raise_eq (h : ∀ dir, Handshake.first sender dir ≤ self.net.opened (sender, dir)) :
    self.raise sender = self := by
  have hopened : (self.raise sender).net.opened = self.net.opened := by
    funext (side, dir)
    simp only [raise]
    split_ifs with hside
    · rw [hside]
      exact Nat.max_eq_left (h dir)
    · rfl
  rw [raise] at hopened ⊢
  simp only at hopened
  rw [hopened]

/-- A stream of the application is really opened when it counts as opened. -/
theorem lt_opened_of_raise {stream : StreamId} (hfirst : Handshake.first sender stream.dir ≤ stream.index)
    (hindex : stream.index < (self.raise sender).net.opened (sender, stream.dir)) :
    stream.index < self.net.opened (sender, stream.dir) := by
  rw [raise_opened, lt_max_iff] at hindex
  exact hindex.resolve_right (Nat.not_lt_of_le hfirst)

/-- All that an event can do to the network: nothing, or it opens a stream, or it changes what is on
its way on a stream of the application. -/
inductive Changes (sender : Side) (net : Network) : Event → Network → Prop where
  | refl {event : Event} : Changes sender net event net
  | opens {dir dir' : Dir} :
      Changes sender net (.opens dir) (net.set_opened sender dir' (net.opened (sender, dir') + 1))
  | flight {event : Event} {stream : StreamId} {data : List UInt8} (hinitiator : stream.initiator = sender)
      (hfirst : Handshake.first sender stream.dir ≤ stream.index)
      (hindex : stream.index < net.opened (sender, stream.dir)) :
      Changes sender net event (net.set_flight sender stream data)

/-- It does nothing to the other direction. -/
theorem Changes.other {net net' : Network} (h : Changes sender net event net') :
    (∀ dir, net'.opened (sender.peer, dir) = net.opened (sender.peer, dir)) ∧
      (∀ stream, net'.flight (sender.peer, stream) = net.flight (sender.peer, stream)) ∧
      ∀ stream, net'.carried stream.initiator.peer stream = net.carried stream.initiator.peer stream := by
  cases h with
  | refl => exact ⟨fun _ => rfl, fun _ => rfl, fun _ => rfl⟩
  | opens =>
    refine ⟨fun dir => ?_, fun _ => rfl, fun _ => rfl⟩
    exact Function.update_of_ne (fun hkey => sender.peer_ne (Prod.mk.inj hkey).1) _ _
  | flight hinitiator =>
    refine ⟨fun _ => rfl, fun stream => ?_, fun stream => ?_⟩
    · exact Function.update_of_ne (fun hkey => sender.peer_ne (Prod.mk.inj hkey).1) _ _
    · rw [Network.carried, Network.carried, Network.streams_set_flight, Network.flight_set_flight,
        Function.update_of_ne]
      intro hkey
      obtain ⟨hside, rfl⟩ := Prod.mk.inj hkey
      rw [hinitiator] at hside
      exact sender.peer_ne hside

/-- An event of the traffic changes the network in one of these ways, and no stream of the handshake. -/
theorem Agrees.changes (h : (self.raise sender).Agrees sender id (Handshake.first sender) enc enc')
    (hopen : ∀ dir side index, (connection.open_stream dir).Follows
      (calls ⟨side, dir, index⟩ [.opens, .writes (enc dir), .writes (enc' dir)]) ⟨side, dir, index⟩)
    (hfits : event.Fits sender) (hstep : self.step connection sender event = some next) :
    Changes sender self.net event next.net := by
  unfold Traffic.step at hstep
  cases event with
  | opens dir =>
    obtain ⟨-, hstep⟩ := Option.ite_none_right_eq_some.mp hstep
    split at hstep
    · rename_i opener net hopener
      cases hstep
      obtain ⟨op, answer, tail, answer', hscript, hserve, -⟩ :=
        (hopen dir sender (self.net.opened (sender, dir))).of_step hopener
      have hcalled := @Network.serve_opens self.net sender (self.net.upcoming sender dir) rfl rfl
      obtain ⟨hcall, -⟩ := List.cons.inj hscript
      rw [show Action.opens.call (self.net.upcoming sender dir) = ⟨op, answer⟩ from hcall, hserve] at hcalled
      cases hcalled
      exact .opens
    · cases hstep
  | advance stream =>
    obtain ⟨-, hstep⟩ := Option.ite_none_right_eq_some.mp hstep
    split at hstep
    · rename_i opener hopener
      split at hstep
      · rename_i opener' net hnext
        cases hstep
        obtain ⟨hinitiator, hfirst, hindex⟩ := h.known stream opener hopener
        obtain ⟨todo, hcarries⟩ := h.carries stream hinitiator hfirst hindex
        obtain ⟨opener₂, hopener₂, hfollows⟩ := hcarries.opener
        cases hopener.symm.trans hopener₂
        obtain ⟨op, answer, tail, answer', hscript, hserve, -⟩ := hfollows.of_step hnext
        obtain ⟨action, todo', rfl, hcall, -⟩ := List.map_eq_cons_iff.mp hscript
        obtain ⟨data, rfl⟩ := hcarries.writes List.mem_cons_self
        have hcalled := Network.serve_writes self.net sender stream data
        rw [hcall, hserve] at hcalled
        cases hcalled
        exact .flight hinitiator hfirst (lt_opened_of_raise hfirst hindex)
      · cases hstep
    · cases hstep
  | write stream data =>
    obtain ⟨hwrites, hstep⟩ := Option.ite_none_right_eq_some.mp hstep
    cases hstep
    obtain ⟨hinitiator, hfirst, hindex, -⟩ := h.of_given hwrites.1
    exact .flight hinitiator hfirst (lt_opened_of_raise hfirst hindex)
  | finish stream =>
    obtain ⟨-, hstep⟩ := Option.ite_none_right_eq_some.mp hstep
    split at hstep
    · cases hstep
      exact .refl
    · cases hstep
  | surface dir =>
    obtain ⟨-, hstep⟩ := Option.ite_none_right_eq_some.mp hstep
    split at hstep
    · cases hstep
      exact .refl
    · cases hstep
  | deliver stream len =>
    obtain ⟨-, hstep⟩ := Option.ite_none_right_eq_some.mp hstep
    split at hstep
    · rename_i system hsystem
      cases hstep
      obtain ⟨⟨hinitiator, hindex, -⟩, -⟩ := Option.ite_none_right_eq_some.mp hsystem
      have hside : self.system.shared.conn.side = sender.peer := (System.valid_of_reachable h.run).side_eq
      rw [hside, Side.peer_peer] at hinitiator
      exact .flight hinitiator hfits (lt_opened_of_raise hfits (Nat.lt_of_lt_of_le hindex (h.bound stream.dir).2))
    · cases hstep
  | accept event =>
    obtain ⟨-, hstep⟩ := Option.ite_none_right_eq_some.mp hstep
    split at hstep
    · cases hstep
      exact .refl
    · cases hstep

/-- The connection at the other end makes a step of its own, or none. -/
theorem system_step (hfits : event.Fits sender) (hstep : self.step connection sender event = some next) :
    next.system = self.system ∨
      ∃ event, (∀ error, event ≠ .close error) ∧ self.system.step event = some next.system := by
  unfold Traffic.step at hstep
  cases event with
  | opens dir =>
    obtain ⟨-, hstep⟩ := Option.ite_none_right_eq_some.mp hstep
    split at hstep
    · cases hstep
      exact .inl rfl
    · cases hstep
  | advance stream =>
    obtain ⟨-, hstep⟩ := Option.ite_none_right_eq_some.mp hstep
    split at hstep
    · split at hstep
      · cases hstep
        exact .inl rfl
      · cases hstep
    · cases hstep
  | write stream data =>
    obtain ⟨-, hstep⟩ := Option.ite_none_right_eq_some.mp hstep
    cases hstep
    exact .inl rfl
  | finish stream | surface dir | deliver stream len =>
    obtain ⟨-, hstep⟩ := Option.ite_none_right_eq_some.mp hstep
    split at hstep
    · rename_i system hsystem
      cases hstep
      exact .inr ⟨_, fun _ => by simp, hsystem⟩
    · cases hstep
  | accept event =>
    obtain ⟨-, hstep⟩ := Option.ite_none_right_eq_some.mp hstep
    split at hstep
    · rename_i system hsystem
      cases hstep
      refine .inr ⟨event, ?_, hsystem⟩
      rintro error rfl
      exact hfits
    · cases hstep

/-- What an application has sent on the streams of its peer is not for this traffic. -/
theorem Agrees.sent_of_ne (h : (self.raise sender).Agrees sender id first enc enc')
    (hstep : self.step connection sender event = some next) {stream : StreamId} (hne : stream.initiator ≠ sender) :
    next.sent stream = self.sent stream := by
  unfold Traffic.step at hstep
  cases event with
  | opens dir =>
    obtain ⟨-, hstep⟩ := Option.ite_none_right_eq_some.mp hstep
    split at hstep
    · cases hstep
      rfl
    · cases hstep
  | advance stream =>
    obtain ⟨-, hstep⟩ := Option.ite_none_right_eq_some.mp hstep
    split at hstep
    · split at hstep
      · cases hstep
        rfl
      · cases hstep
    · cases hstep
  | write stream' data =>
    obtain ⟨hwrites, hstep⟩ := Option.ite_none_right_eq_some.mp hstep
    cases hstep
    obtain ⟨hinitiator, -⟩ := h.of_given hwrites.1
    refine Function.update_of_ne ?_ _ _
    rintro rfl
    exact hne hinitiator
  | finish stream | surface dir | deliver stream len | accept event =>
    obtain ⟨-, hstep⟩ := Option.ite_none_right_eq_some.mp hstep
    split at hstep
    · cases hstep
      rfl
    · cases hstep

/-- Either the calls at one end get on, or the other end. -/
theorem openers_or_system (hstep : self.step connection sender event = some next) :
    event.side sender = sender ∧ next.system = self.system ∨
      event.side sender = sender.peer ∧ next.openers = self.openers := by
  unfold Traffic.step at hstep
  cases event with
  | opens dir =>
    obtain ⟨-, hstep⟩ := Option.ite_none_right_eq_some.mp hstep
    split at hstep
    · cases hstep
      exact .inl ⟨rfl, rfl⟩
    · cases hstep
  | advance stream =>
    obtain ⟨-, hstep⟩ := Option.ite_none_right_eq_some.mp hstep
    split at hstep
    · split at hstep
      · cases hstep
        exact .inl ⟨rfl, rfl⟩
      · cases hstep
    · cases hstep
  | write stream data =>
    obtain ⟨-, hstep⟩ := Option.ite_none_right_eq_some.mp hstep
    cases hstep
    exact .inl ⟨rfl, rfl⟩
  | finish stream | surface dir | deliver stream len | accept event =>
    obtain ⟨-, hstep⟩ := Option.ite_none_right_eq_some.mp hstep
    split at hstep
    · cases hstep
      exact .inr ⟨rfl, rfl⟩
    · cases hstep

/-- What happens at the other end does not depend on it. -/
theorem step_raise (hside : event.side sender ≠ sender) (hstep : self.step connection sender event = some next) :
    (self.raise sender).step connection sender event = some (next.raise sender) := by
  unfold Traffic.step at hstep ⊢
  cases event with
  | opens | advance | write => exact absurd rfl hside
  | finish stream | accept event =>
    obtain ⟨hguard, hstep⟩ := Option.ite_none_right_eq_some.mp hstep
    split at hstep
    · rename_i system hsystem
      cases hstep
      refine (if_pos hguard).trans ?_
      simp only [raise, hsystem]
    · cases hstep
  | deliver stream len =>
    obtain ⟨hguard, hstep⟩ := Option.ite_none_right_eq_some.mp hstep
    split at hstep
    · rename_i system hsystem
      cases hstep
      refine (if_pos hguard).trans ?_
      simp only [raise, hsystem]
      rfl
    · cases hstep
  | surface dir =>
    obtain ⟨hguard, hstep⟩ := Option.ite_none_right_eq_some.mp hstep
    split at hstep
    · rename_i system hsystem
      cases hstep
      have hraised : self.system.shared.conn.opened dir < (self.raise sender).net.opened (sender, dir) := by
        rw [raise_opened]
        exact Nat.lt_of_lt_of_le hguard (Nat.le_max_left _ _)
      refine (if_pos hraised).trans ?_
      simp only [raise, hsystem]
    · cases hstep

end Traffic

end wt_rs
