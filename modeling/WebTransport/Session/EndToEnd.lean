import WebTransport.Session.Linked

open rust rust.Outcome rust.Async quinn transition wt_proto.coding

namespace wt_rs

namespace Session

/-- The applications have nothing to do with the event. -/
def Event.Internal : Event → Prop
  | .act _ _ | .deliver _ _ _ | .surface _ _ => True
  | .traffic _ (.advance _) | .traffic _ (.surface _) | .traffic _ (.deliver _ _) => True
  | _ => False

/-- The handshake, the calls that have got their streams and the network get there by themselves. -/
structure Leads (session next : Session) : Prop where
  steps : ∃ events, (∀ event ∈ events, Event.Internal event) ∧ steps step session events = some next
  given : ∀ side stream, (session.traffic side).given stream = some stream →
    (next.traffic side).given stream = some stream
  sent : next.sent = session.sent
  calls : ∀ side, (next.traffic side).system.calls = (session.traffic side).system.calls

variable {fuel : Nat} {orders : Side → Orders} {self mid next : Session} {side sender : Side} {stream : StreamId}
  {connection : Connection} {event : Event} {dir : Dir}

namespace Leads

/-- A session has come to where it is. -/
theorem refl (self : Session) : self.Leads self where
  steps := ⟨[], List.forall_mem_nil _, rfl⟩
  given _ _ h := h
  sent := rfl
  calls _ := rfl

/-- What leads to a session that leads on leads on. -/
theorem trans (h : self.Leads mid) (h' : mid.Leads next) : self.Leads next where
  steps := by
    obtain ⟨events, hinternal, hsteps⟩ := h.steps
    obtain ⟨events', hinternal', hsteps'⟩ := h'.steps
    exact ⟨events ++ events', List.forall_mem_append.mpr ⟨hinternal, hinternal'⟩, steps_append hsteps hsteps'⟩
  given side stream hgiven := h'.given side stream (h.given side stream hgiven)
  sent := h'.sent.trans h.sent
  calls side := (h'.calls side).trans (h.calls side)

theorem steps_one (hstep : self.step event = some next) (hinternal : event.Internal) :
    ∃ events, (∀ event ∈ events, Event.Internal event) ∧ transition.steps step self events = some next :=
  ⟨[event], List.forall_mem_singleton.mpr hinternal, by rw [transition.steps, hstep]; rfl⟩

/-- A step of the tasks below the applications leads on. -/
theorem one_step (hstep : self.step event = some next) (hinternal : event.Internal)
    (hopeners : next.openers = self.openers) (hsent : next.sent = self.sent)
    (hcalls : ∀ side, (next.traffic side).system.calls = (self.traffic side).system.calls) : self.Leads next where
  steps := steps_one hstep hinternal
  given side stream hgiven := by
    rw [← hgiven]
    simp only [Traffic.given, Session.traffic, hopeners]
  sent := hsent
  calls := hcalls

/-- Something happens to the traffic of one side. -/
theorem put {traffic : Traffic} {event : Traffic.Event}
    (hstep : self.step (.traffic sender event) = some (self.put sender traffic))
    (hinternal : (Event.traffic sender event).Internal)
    (htraffic : (self.put sender traffic).traffic sender = traffic)
    (hgiven : ∀ stream, (self.traffic sender).given stream = some stream → traffic.given stream = some stream)
    (hsent : traffic.sent = self.sent sender) (hcalls : traffic.system.calls = (self.traffic sender).system.calls) :
    self.Leads (self.put sender traffic) where
  steps := steps_one hstep hinternal
  given side stream hstream := by
    by_cases hside : side = sender
    · rw [hside] at hstream ⊢
      rw [htraffic]
      exact hgiven stream hstream
    · rw [Side.eq_peer_of_ne hside] at hstream ⊢
      rw [Linked.traffic_put_peer]
      exact hstream
  sent := by
    simp only [Session.put, hsent, Function.update_eq_self]
  calls side := by
    by_cases hside : side = sender
    · rw [hside, htraffic, hcalls]
    · rw [Side.eq_peer_of_ne hside, Linked.traffic_put_peer]

theorem reachable (h : self.Leads next) (hrun : Reachable step (start (fuel + 1) orders) self) :
    Reachable step (start (fuel + 1) orders) next := by
  obtain ⟨events, -, hsteps⟩ := h.steps
  exact hrun.steps hsteps

end Leads

/-- What the handshake can do by itself, it can do as part of the session. -/
theorem leads_of_step (hrun : Reachable step (start (fuel + 1) orders) self) {event : Handshake.Event}
    {handshake : Handshake} (hinternal : event.Internal) (hstep : self.handshake.step event = some handshake) :
    ∃ next, self.Leads next ∧ next.handshake = handshake := by
  obtain ⟨plan, todo, enc, enc', -, h⟩ := exists_linked hrun
  cases event with
  | act side branch =>
    obtain ⟨next, hnext⟩ : ∃ next, self.step (.act side branch) = some next := by
      rw [step, hstep]
      exact ⟨_, rfl⟩
    obtain ⟨todo', hlinked⟩ := h.act hnext
    have hsystem := hnext
    rw [step, hstep] at hsystem
    cases hsystem
    have htraffic (sender : Side) :=
      hlinked.follows.shared_getD hlinked.counts self.system side sender.peer
    simp only [Side.peer_peer] at htraffic
    refine ⟨_, .one_step hnext trivial rfl rfl fun sender => ?_, rfl⟩
    exact congrArg System.calls (htraffic sender)
  | deliver sender stream len =>
    have hfits : ¬ (stream.initiator = sender ∧ Handshake.first sender stream.dir ≤ stream.index) := by
      rintro ⟨rfl, hfirst⟩
      simp only [Handshake.Event.Internal, List.mem_cons, List.not_mem_nil, or_false] at hinternal
      obtain rfl | rfl | rfl := hinternal
      all_goals exact absurd hfirst (by decide)
    have hnext : self.step (.deliver sender stream len) = some { self with handshake } := by
      rw [step, if_neg hfits, hstep]
    exact ⟨_, .one_step hnext trivial rfl rfl fun _ => rfl, rfl⟩
  | app side op => exact hinternal.elim

/-- The events of a handshake are events of the session. -/
theorem leads_of_steps (hrun : Reachable step (start (fuel + 1) orders) self) {events : List Handshake.Event}
    {handshake : Handshake} (hinternal : ∀ event ∈ events, Handshake.Event.Internal event)
    (hsteps : steps Handshake.step self.handshake events = some handshake) :
    ∃ next, self.Leads next ∧ next.handshake = handshake := by
  induction events generalizing self with
  | nil =>
    cases hsteps
    exact ⟨self, .refl self, rfl⟩
  | cons event events ih =>
    obtain ⟨hevent, hevents⟩ := List.forall_mem_cons.mp hinternal
    rw [steps] at hsteps
    split at hsteps
    · rename_i handshake' hstep
      obtain ⟨mid, hmid, rfl⟩ := leads_of_step hrun hevent hstep
      obtain ⟨next, hnext, hhandshake⟩ := ih (hmid.reachable hrun) hevents hsteps
      exact ⟨next, hmid.trans hnext, hhandshake⟩
    · cases hsteps

/-- Both sides can always get their connections. -/
theorem leads_connected (hrun : Reachable step (start (fuel + 1) orders) self) :
    ∃ next, self.Leads next ∧ ∀ side, next.connection side = some (.established side) := by
  obtain ⟨plan, todo, enc, enc', -, h⟩ := exists_linked hrun
  obtain ⟨events, handshake, hinternal, hsteps, hresult⟩ := h.follows.completes
  obtain ⟨next, hnext, rfl⟩ := leads_of_steps hrun hinternal hsteps
  refine ⟨next, hnext, fun side => ?_⟩
  rw [Session.connection, hresult side]

/-- A call that has got a stream comes back with it. -/
theorem leads_given (hrun : Reachable step (start (fuel + 1) orders) self) {todo : List Action}
    {opener : Async Quic WTError StreamId} (hopener : self.openers sender stream = some opener)
    (hfollows : opener.Follows (calls stream todo) stream) (hwrites : ∀ action ∈ todo, ∃ data, action = .writes data) :
    ∃ next, self.Leads next ∧ (next.traffic sender).given stream = some stream := by
  induction todo generalizing self opener with
  | nil =>
    obtain rfl := hfollows.eq_done
    exact ⟨self, .refl self, by simp only [Traffic.given, Session.traffic, hopener]⟩
  | cons action todo ih =>
    obtain ⟨⟨data, rfl⟩, hwrites'⟩ := List.forall_mem_cons.mp hwrites
    obtain ⟨plan, left, enc, enc', -, h⟩ := exists_linked hrun
    have hconnection : self.connection sender = some (.established sender) := by
      rw [Session.connection, h.follows.result_eq (h.done_of_opener hopener)]
    have hserve := Network.serve_writes self.handshake.net sender stream data
    obtain ⟨opener', hstep⟩ := hfollows.step hserve
    obtain ⟨_, _, _, _, hscript, hserve', hfollows'⟩ := hfollows.of_step hstep
    cases hscript
    cases hserve.symm.trans hserve'
    set net := self.handshake.net.set_flight sender stream (self.handshake.net.flight (sender, stream) ++ data)
    set traffic : Traffic := { self.traffic sender with
      net, openers := Function.update (self.openers sender) stream (some opener') } with htraffic
    have hadvance : (self.traffic sender).step (.established sender) sender (.advance stream) = some traffic := by
      simp only [Traffic.step, if_pos (h.live sender)]
      simp only [Session.traffic, hopener, hstep, htraffic]
    have hleads : self.Leads (self.put sender traffic) := by
      refine .put (Linked.step_traffic hadvance trivial hconnection) trivial (Linked.traffic_put fun _ => rfl)
        (fun stream' hgiven => ?_) rfl rfl
      have hstream : stream' ≠ stream := by
        rintro rfl
        obtain ⟨resume, rfl, -⟩ := hfollows.eq_wait
        rw [Traffic.given, show (self.traffic sender).openers stream' = _ from hopener] at hgiven
        cases hgiven
      simp only [Traffic.given, htraffic, Function.update_of_ne hstream]
      exact hgiven
    have hopener' : (self.put sender traffic).openers sender stream = some opener' := by
      simp only [Session.put, htraffic, Function.update_self]
    obtain ⟨next, hnext, hgiven⟩ := ih (hleads.reachable hrun) hopener' (hfollows' rfl) hwrites'
    exact ⟨next, hleads.trans hnext, hgiven⟩

/-- A call that has got a stream comes back with it, when it is left to run. -/
theorem leads_of_opener (hrun : Reachable step (start (fuel + 1) orders) self)
    (hopener : self.openers sender stream ≠ none) :
    ∃ next, self.Leads next ∧ (next.traffic sender).given stream = some stream := by
  obtain ⟨opener, hopener⟩ := Option.ne_none_iff_exists'.mp hopener
  obtain ⟨plan, left, enc, enc', -, h⟩ := exists_linked hrun
  have hagrees := h.agrees sender
  obtain ⟨hinitiator, hfirst, hindex⟩ := hagrees.known stream opener hopener
  obtain ⟨todo, hcarries⟩ := hagrees.carries stream hinitiator hfirst hindex
  obtain ⟨opener', hopener', hfollows⟩ := hcarries.opener
  cases hopener.symm.trans hopener'
  exact leads_given hrun hopener hfollows fun action => hcarries.writes

variable {net : Network} {system : System}

/-- Something that happens at the other end only. -/
theorem leads_of_receiver (hconnection : self.connection sender.peer = some connection)
    (hsystem : self.system sender.peer ≠ none) {event : Traffic.Event}
    (hstep : (self.traffic sender).step connection sender event = some { self.traffic sender with net, system })
    (hside : event.side sender = sender.peer) (hfits : event.Fits sender)
    (hinternal : (Event.traffic sender event).Internal)
    (hcalls : system.calls = (self.traffic sender).system.calls) :
    ∃ next, self.Leads next ∧ next.traffic sender = { self.traffic sender with net, system } ∧
      ∀ side, next.connection side = self.connection side := by
  rw [← hside] at hconnection
  have htraffic : (self.put sender { self.traffic sender with net, system }).traffic sender =
      { self.traffic sender with net, system } := Linked.traffic_put fun hnone => absurd hnone hsystem
  exact ⟨_, .put (Linked.step_traffic hstep hfits hconnection) hinternal htraffic (fun _ h => h) rfl hcalls, htraffic,
    fun _ => rfl⟩

/-- The streams that have been opened can all become known at the other end. -/
theorem leads_surfaced (hrun : Reachable step (start (fuel + 1) orders) self)
    (hconnection : self.connection sender.peer = some connection) (dir : Dir) :
    ∃ next, self.Leads next ∧ (next.traffic sender).net = (self.traffic sender).net ∧
      (∀ side, next.connection side = self.connection side) ∧
      (self.traffic sender).net.opened (sender, dir) ≤ (next.traffic sender).system.shared.conn.opened dir := by
  generalize hmissing : (self.traffic sender).net.opened (sender, dir) -
    (self.traffic sender).system.shared.conn.opened dir = missing
  induction missing generalizing self with
  | zero => exact ⟨self, .refl self, rfl, fun _ => rfl, Nat.le_of_sub_eq_zero hmissing⟩
  | succ missing ih =>
    obtain ⟨plan, todo, enc, enc', -, h⟩ := exists_linked hrun
    have hlt : (self.traffic sender).system.shared.conn.opened dir <
        (self.traffic sender).net.opened (sender, dir) := by
      omega
    set system := ((self.traffic sender).system.open_stream dir).notify dir with hsystem
    have hstep : (self.traffic sender).step connection sender (.surface dir) =
        some { self.traffic sender with system } := by
      rw [Traffic.step, if_pos hlt, System.step, if_pos (h.live sender)]
    have hcalls : system.calls = (self.traffic sender).system.calls := by
      rw [hsystem, System.notify_calls]
      rfl
    obtain ⟨mid, hmid, htraffic, hconnections⟩ :=
      leads_of_receiver hconnection (h.system_ne_none hconnection) hstep rfl trivial trivial hcalls
    have hopened : (mid.traffic sender).system.shared.conn.opened dir =
        (self.traffic sender).system.shared.conn.opened dir + 1 := by
      rw [htraffic, hsystem, System.notify_shared]
      exact Function.update_self ..
    have hnet : (mid.traffic sender).net = (self.traffic sender).net := by rw [htraffic]
    obtain ⟨next, hnext, hnet', hconnections', hle⟩ := @ih mid (hmid.reachable hrun)
      ((hconnections _).trans hconnection) (by rw [hnet, hopened]; omega)
    rw [hnet] at hnet' hle
    exact ⟨next, hmid.trans hnext, hnet', fun side => (hconnections' side).trans (hconnections side), hle⟩

/-- All that is on its way on a stream can arrive. -/
theorem leads_delivered (hrun : Reachable step (start (fuel + 1) orders) self)
    (hconnection : self.connection sender.peer = some connection)
    (hgiven : (self.traffic sender).given stream = some stream)
    (hsurfaced : stream.index < (self.traffic sender).system.shared.conn.opened stream.dir) :
    ∃ next, self.Leads next ∧ (next.traffic sender).net.flight (sender, stream) = [] ∧
      (∀ side, next.connection side = self.connection side) ∧
      stream.index < (next.traffic sender).system.shared.conn.opened stream.dir := by
  obtain ⟨plan, todo, enc, enc', -, h⟩ := exists_linked hrun
  by_cases hflight : (self.traffic sender).net.flight (sender, stream) = []
  · exact ⟨self, .refl self, hflight, fun _ => rfl, hsurfaced⟩
  · have hagrees := h.agrees sender
    rw [h.raise_eq (h.done_of_given hgiven)] at hagrees
    obtain ⟨hinitiator, hfirst, -, hcarries⟩ := hagrees.of_given hgiven
    set flight := (self.traffic sender).net.flight (sender, stream) with hflight_eq
    have hlive : (self.traffic sender).system.Live stream := by
      refine ⟨?_, hsurfaced, ?_, h.live sender⟩
      · rw [(System.valid_of_reachable hagrees.run).side_eq, Side.peer_peer]
        exact hinitiator
      · by_contra hended
        exact hflight (hcarries.ended hended).2
    set system : System := { (self.traffic sender).system.arrive stream (·.push (flight.take flight.length)) with
      sent := Function.update (self.traffic sender).system.sent stream
        ((self.traffic sender).system.sent stream ++ flight.take flight.length) } with hsystem
    have hstep : (self.traffic sender).step connection sender (.deliver stream flight.length) =
        some { self.traffic sender with
          net := (self.traffic sender).net.set_flight sender stream (flight.drop flight.length), system } := by
      have hlen : 0 < flight.length ∧ flight.length ≤ flight.length :=
        ⟨List.length_pos_iff.mpr hflight, Nat.le_refl _⟩
      simp only [Traffic.step, ← hflight_eq, if_pos hlen, System.step, if_pos hlive]
      rfl
    obtain ⟨next, hnext, htraffic, hconnections⟩ :=
      leads_of_receiver hconnection (h.system_ne_none hconnection) hstep rfl hfirst trivial (System.arrive_calls _ _ _)
    refine ⟨next, hnext, ?_, hconnections, ?_⟩
    · rw [htraffic, List.drop_length]
      exact Function.update_self ..
    · rw [htraffic]
      have hopened : system.shared.conn.opened = (self.traffic sender).system.shared.conn.opened := by
        rw [hsystem, System.arrive_shared]
        rfl
      simp only [hopened]
      exact hsurfaced

/-- An application with a connection can always call for a stream. -/
theorem exists_opens (hrun : Reachable step (start (fuel + 1) orders) self)
    (hconnection : self.connection sender = some connection) (dir : Dir) :
    ∃ next stream, self.step (.traffic sender (.opens dir)) = some next ∧ next.openers sender stream ≠ none ∧
      (next.traffic sender).system.calls = (self.traffic sender).system.calls := by
  obtain ⟨plan, todo, enc, enc', -, h⟩ := exists_linked hrun
  obtain ⟨-, rfl⟩ := h.of_connection hconnection
  obtain ⟨enc, enc', -, -, hopen⟩ := @Connection.follows_open_stream (.established sender) _ (.from_u32 0) rfl rfl dir
  set stream := self.handshake.net.upcoming sender dir
  have hserve := @Network.serve_opens self.handshake.net sender stream rfl rfl
  obtain ⟨opener, hstep⟩ := (hopen sender stream.index).step hserve
  set net := self.handshake.net.set_opened sender stream.dir (stream.index + 1)
  set traffic : Traffic := { self.traffic sender with
    net, openers := Function.update (self.openers sender) stream (some opener) } with htraffic
  have hopens : (self.traffic sender).step (.established sender) sender (.opens dir) = some traffic := by
    simp only [Traffic.step, if_pos (h.live sender)]
    simp only [Session.traffic, hstep]
    rfl
  refine ⟨_, stream, Linked.step_traffic hopens trivial hconnection, ?_, ?_⟩
  · simp only [put, htraffic, Function.update_self]
    exact Option.some_ne_none _
  · have hput : (self.put sender traffic).traffic sender = traffic := Linked.traffic_put fun _ => rfl
    rw [hput]

/-- From the first byte on, and whatever the applications do from when they have their connections
on: neither handshake fails. No accept call fails for a stream, takes one in without an answer, or
comes back with one twice, and what is left to be read on a stream that one has come back with is
what the other application has written to it. On a stream that an application has opened arrives
what the other one has answered. -/
theorem end_to_end (hrun : Reachable step (start (fuel + 1) orders) self) :
    (∀ side result, self.handshake.result side = some result → ∃ connection, result = ok connection) ∧
    (∀ side system, self.system side = some system → system.failed = [] ∧
      (∀ key, (system.sorter (Handshake.first side.peer)).sorted key ≠ some .absorbed) ∧ system.returned.Nodup ∧
      ∀ stream ∈ system.returned, (self.traffic side.peer).given stream = some stream ∧
        self.sent side.peer stream =
          (system.shared.conn.streams stream).unread ++ self.handshake.net.flight (side.peer, stream)) ∧
    ∀ side stream, (self.traffic side).given stream = some stream →
      (self.handshake.net.streams (side, stream)).received ++ self.handshake.net.flight (side.peer, stream) =
        self.sent side.peer stream := by
  obtain ⟨plan, todo, enc, enc', henc, h⟩ := exists_linked hrun
  refine ⟨fun side result hresult => ⟨_, (h.follows.of_result hresult).2⟩, fun side system hsystem => ?_,
    fun side stream hgiven => ?_⟩
  · obtain ⟨hfailed, habsorbed, hnodup⟩ := (h.agrees side.peer).sorts henc
    rw [Traffic.raise, Linked.system_traffic hsystem] at hfailed habsorbed hnodup
    exact ⟨hfailed, habsorbed, hnodup, fun stream hreturned => h.of_returned henc hsystem hreturned⟩
  · obtain ⟨rfl, hfirst, -⟩ := h.of_given hgiven
    have hanswers := h.answers stream hfirst
    rwa [Network.carried, Side.peer_peer] at hanswers

/-- One function of a handshake gets some answers. -/
private def acts (side : Side) (branch : Branch) (n : Nat) : List Event := List.replicate n (.act side branch)

/-- A handshake: the settings of both sides, the request and the response. -/
private def handshake_events : List Event :=
  acts .Client .right 3 ++ acts .Server .right 3 ++ .deliver .Client ⟨.Client, .Uni, 0⟩ 31 :: acts .Server .left 5 ++
    .deliver .Server ⟨.Server, .Uni, 0⟩ 31 :: acts .Client .left 5 ++ acts .Client .rest 2 ++
    .deliver .Client ⟨.Client, .Bi, 0⟩ 98 :: acts .Server .rest 6 ++
    .deliver .Server ⟨.Client, .Bi, 0⟩ 43 :: acts .Client .rest 3

/-- The client opens a stream and writes to it, the server accepts the stream and answers. -/
private def stream_events : List Event :=
  [.traffic .Client (.opens .Bi), .traffic .Client (.advance ⟨.Client, .Bi, 1⟩),
    .traffic .Client (.advance ⟨.Client, .Bi, 1⟩), .traffic .Client (.write ⟨.Client, .Bi, 1⟩ [0x2a]),
    .traffic .Client (.surface .Bi), .traffic .Client (.deliver ⟨.Client, .Bi, 1⟩ 4),
    .traffic .Client (.accept (.call 7 .Bi [])), .answer .Server ⟨.Client, .Bi, 1⟩ [0x2b]]

/-- A stream of the client is returned at the server, with a byte on its way to it and an answer on its
way back. -/
theorem end_to_end_answer : ∃ (self : Session) (system : System), self.system .Server = some system ∧
    system.returned = [⟨.Client, .Bi, 1⟩] ∧ system.failed = [] ∧
    (system.shared.conn.streams ⟨.Client, .Bi, 1⟩).unread ++
      self.handshake.net.flight (.Client, ⟨.Client, .Bi, 1⟩) = [0x2a] ∧
    (self.handshake.net.streams (.Client, ⟨.Client, .Bi, 1⟩)).received ++
      self.handshake.net.flight (.Server, ⟨.Client, .Bi, 1⟩) = [0x2b] := by
  have hfacts : (steps step (start (0 + 1) Handshake.in_order) (handshake_events ++ stream_events)).map (fun self =>
      ((self.system .Server).map (·.returned), self.sent .Client ⟨.Client, .Bi, 1⟩,
        self.sent .Server ⟨.Client, .Bi, 1⟩, (self.traffic .Client).given ⟨.Client, .Bi, 1⟩)) =
      some (some [⟨.Client, .Bi, 1⟩], [0x2a], [0x2b], some ⟨.Client, .Bi, 1⟩) := by decide +kernel
  obtain ⟨self, hsteps, hfacts⟩ := Option.map_eq_some_iff.mp hfacts
  simp only [Prod.mk.injEq] at hfacts
  obtain ⟨hreturned, hsent, hanswer, hgiven⟩ := hfacts
  obtain ⟨system, hsystem, hreturned⟩ := Option.map_eq_some_iff.mp hreturned
  obtain ⟨-, hsystems, hanswers⟩ := end_to_end (Reachable.steps .start hsteps)
  obtain ⟨hfailed, -, -, hstreams⟩ := hsystems .Server system hsystem
  obtain ⟨-, hread⟩ := hstreams ⟨.Client, .Bi, 1⟩ (by rw [hreturned]; exact List.mem_singleton_self _)
  exact ⟨self, system, hsystem, hreturned, hfailed, hread.symm.trans hsent, (hanswers _ _ hgiven).trans hanswer⟩

/-- The tasks of a side go on by themselves. -/
theorem steps_accept (hconnection : self.connection sender.peer = some connection)
    (hsystem : self.system sender.peer = some system) {events : List wt_rs.Event}
    (hevents : ∀ event ∈ events, event.Local ∧ (Traffic.Event.accept event).Fits sender) {system' : System}
    (hsteps : steps System.step system events = some system') :
    ∃ next, steps step self (events.map fun event => .traffic sender (.accept event)) = some next ∧
      next.system sender.peer = some system' ∧ next.handshake = self.handshake ∧ next.sent = self.sent := by
  induction events generalizing self system with
  | nil =>
    cases hsteps
    exact ⟨self, rfl, hsystem, rfl, rfl⟩
  | cons event events ih =>
    obtain ⟨⟨hlocal, hfits⟩, hevents⟩ := List.forall_mem_cons.mp hevents
    rw [steps] at hsteps
    split at hsteps
    · rename_i mid hmid
      have htraffic : (self.traffic sender).system = system := by
        rw [Session.traffic, hsystem]
        rfl
      have haccept : (self.traffic sender).step connection sender (.accept event) =
          some { self.traffic sender with system := mid } := by
        simp only [Traffic.step, if_pos hlocal, htraffic, hmid]
      have hmid' : (self.put sender { self.traffic sender with system := mid }).system sender.peer = some mid := by
        simp only [put, Function.update_self, hsystem, Option.map_some]
      obtain ⟨next, hnext, hsystem', hhandshake, hsent⟩ :=
        @ih (self.put sender { self.traffic sender with system := mid }) mid hconnection hmid' hevents hsteps
      refine ⟨next, ?_, hsystem', hhandshake, hsent.trans (Function.update_eq_self _ _)⟩
      rw [List.map_cons, steps, Linked.step_traffic haccept hfits hconnection]
      exact hnext
    · cases hsteps

/-- Nothing is ever stuck: from every state on, the handshake can be completed, a call that has got a
stream can come back with it, and everything on its way on the stream can arrive. The stream is then
returned within as many calls at the other side as there are header reads to do, and all that the
application has written to it can be read there. -/
theorem eventually_returned (hrun : Reachable step (start (fuel + 1) orders) self)
    (hopener : self.openers sender stream ≠ none) (callers : Nat → TaskId × List StreamId)
    (hfree : ∀ n, (self.traffic sender).system.calls (callers n).1 = none) :
    ∃ mid, self.Leads mid ∧ (mid.traffic sender).given stream = some stream ∧
      ∃ n ≤ (mid.traffic sender).system.shared.load stream.dir, ∃ next,
        steps step mid ((List.range n).map fun i =>
          .traffic sender (.accept (.call (callers i).1 stream.dir (callers i).2))) = some next ∧
        ∃ system, next.system sender.peer = some system ∧ stream ∈ system.returned ∧
          (system.shared.conn.streams stream).unread = self.sent sender stream := by
  obtain ⟨got, hgot, hgiven⟩ := leads_of_opener hrun hopener
  have hrun₀ := hgot.reachable hrun
  obtain ⟨connected, hconnected, hconnection⟩ := leads_connected hrun₀
  have hrun₁ := hconnected.reachable hrun₀
  obtain ⟨surfaced, hsurfaced, hnet, hconnections, hle⟩ := leads_surfaced hrun₁ (hconnection sender.peer) stream.dir
  have hrun₂ := hsurfaced.reachable hrun₁
  have hgiven₂ := (hconnected.trans hsurfaced).given sender stream hgiven
  obtain ⟨plan, todo, enc, enc', -, h⟩ := exists_linked hrun₂
  obtain ⟨-, -, hindex⟩ := h.of_given hgiven₂
  have hopened : stream.index < (surfaced.traffic sender).system.shared.conn.opened stream.dir :=
    Nat.lt_of_lt_of_le hindex (Nat.le_trans (Nat.le_of_eq (by rw [← hnet]; rfl)) hle)
  obtain ⟨mid, hmid, hflight, hconnections', hindex'⟩ :=
    leads_delivered hrun₂ ((hconnections _).trans (hconnection sender.peer)) hgiven₂ hopened
  have hleads := ((hgot.trans hconnected).trans hsurfaced).trans hmid
  have hrun₃ := hmid.reachable hrun₂
  have hgiven₃ := hmid.given sender stream hgiven₂
  obtain ⟨plan, todo, enc, enc', henc, h⟩ := exists_linked hrun₃
  have hagrees := h.agrees sender
  rw [h.raise_eq (h.done_of_given hgiven₃)] at hagrees
  have hfree' (n : Nat) : (mid.traffic sender).system.calls (callers n).1 = none := by
    rw [hleads.calls]
    exact hfree n
  obtain ⟨n, hn, system, hsteps, hreturned⟩ :=
    hagrees.returns henc hgiven₃ (h.live sender) hflight hindex' callers hfree'
  have hconnection' : mid.connection sender.peer = some (.established sender.peer) :=
    (hconnections' _).trans ((hconnections _).trans (hconnection _))
  obtain ⟨before, hbefore⟩ := Option.ne_none_iff_exists'.mp (h.system_ne_none hconnection')
  rw [← Side.peer_peer sender, Linked.system_traffic hbefore] at hsteps
  have hlocal (event : wt_rs.Event) (hevent : event ∈ (List.range n).map fun i =>
      wt_rs.Event.call (callers i).1 stream.dir (callers i).2) :
      event.Local ∧ (Traffic.Event.accept event).Fits sender := by
    obtain ⟨i, -, rfl⟩ := List.mem_map.mp hevent
    exact ⟨trivial, trivial⟩
  obtain ⟨next, hnext, hsystem, hhandshake, hsent⟩ := steps_accept hconnection' hbefore hlocal hsteps
  rw [List.map_map] at hnext
  refine ⟨mid, hleads, hgiven₃, n, hn, next, hnext, system, hsystem, hreturned, ?_⟩
  obtain ⟨plan, todo, enc, enc', henc, h⟩ := exists_linked (hrun₃.steps hnext)
  obtain ⟨-, hread⟩ := h.of_returned henc hsystem hreturned
  rw [Side.peer_peer, hsent, hleads.sent, hhandshake] at hread
  have hflight : mid.handshake.net.flight (sender, stream) = [] := hflight
  rw [hread, hflight, List.append_nil]

/-- Both sides get their connections, and the client calls for a stream. -/
private theorem one_call : ∃ (self : Session) (stream : StreamId),
    Reachable step (start (0 + 1) Handshake.in_order) self ∧ self.openers .Client stream ≠ none ∧
      (self.traffic .Client).system.calls 7 = none := by
  have hstart : Reachable step (start (0 + 1) Handshake.in_order) _ := .start
  obtain ⟨connected, hleads, hconnection⟩ := leads_connected hstart
  obtain ⟨self, stream, hstep, hopener, hcalls⟩ := exists_opens (hleads.reachable .start) (hconnection .Client) .Uni
  refine ⟨self, stream, .step (hleads.reachable .start) trivial hstep, hopener, ?_⟩
  rw [hcalls, hleads.calls]
  rfl

/-- A stream that was opened comes to the one call that waits at the peer. -/
theorem eventually_returned_one_call : ∃ (next : Session) (stream : StreamId) (system : System),
    next.system .Server = some system ∧ stream ∈ system.returned := by
  obtain ⟨self, stream, hrun, hopener, hfree⟩ := one_call
  obtain ⟨mid, -, -, n, -, next, -, system, hsystem, hreturned, -⟩ :=
    eventually_returned hrun hopener (fun _ => (7, [])) fun _ => hfree
  exact ⟨next, stream, system, hsystem, hreturned⟩

end Session

end wt_rs
