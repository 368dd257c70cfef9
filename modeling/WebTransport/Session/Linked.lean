import WebTransport.Session.Lifetime

open rust rust.Outcome rust.Async quinn transition wt_proto.coding

namespace wt_rs

namespace Counts

variable {todo : Task → List Action} {net net' : Network}

/-- The counts are about the streams that were opened and accepted. -/
theorem congr (h : Counts todo net) (hopened : net'.opened = net.opened) (haccepted : net'.accepted = net.accepted) :
    Counts todo net' where
  opened := by
    rw [hopened]
    exact h.opened
  accepted := by
    rw [haccepted]
    exact h.accepted
  opened_le := by
    rw [hopened]
    exact h.opened_le
  accepted_le := by
    rw [haccepted]
    exact h.accepted_le

end Counts

namespace Session

/-- What holds in every state. The handshake keeps to its plan, of which `todo` is left, the traffic
of both sides is as it should be, and the answers to a stream have arrived or are on their way. -/
structure Linked (plan : Plan) (todo : Task → List Action) (enc enc' : Dir → List UInt8) (session : Session) :
    Prop where
  follows : session.handshake.Follows plan todo
  counts : Counts todo session.handshake.net
  sound : session.handshake.net.Sound
  shared : ∀ side, session.system side = none ↔ ∃ branch, todo (side, branch) ≠ []
  idle : ∀ side, (∃ branch, todo (side, branch) ≠ []) → session.openers side = fun _ => none
  agrees : ∀ sender, ((session.traffic sender).raise sender).Agrees sender (.from_u32 0) (Handshake.first sender)
    enc enc'
  live : ∀ sender, (session.traffic sender).system.shared.conn.lost = none
  answers : ∀ stream, Handshake.first stream.initiator stream.dir ≤ stream.index →
    session.handshake.net.carried stream.initiator.peer stream = session.sent stream.initiator.peer stream

variable {plan : Plan} {todo : Task → List Action} {enc enc' : Dir → List UInt8} {self next : Session}
  {side sender : Side} {stream : StreamId} {connection : Connection}

namespace Linked

/-- A side with a connection has done its part, and has the connection of the plan. -/
theorem of_connection (h : self.Linked plan todo enc enc') (hconnection : self.connection side = some connection) :
    (∀ branch, todo (side, branch) = []) ∧ connection = .established side := by
  rw [Session.connection] at hconnection
  split at hconnection
  · rename_i hresult
    cases hconnection
    obtain ⟨hdone, hok⟩ := h.follows.of_result hresult
    cases hok
    exact ⟨hdone, rfl⟩
  · cases hconnection

theorem raise_eq (h : self.Linked plan todo enc enc') (hdone : ∀ branch, todo (sender, branch) = []) :
    (self.traffic sender).raise sender = self.traffic sender :=
  Traffic.raise_eq fun dir => h.counts.first_le_opened hdone dir

end Linked

end Session

/-- Only the streams that an application opens matter to its traffic. -/
theorem Traffic.Agrees.raised {sender : Side} {id : VarInt} {first : Dir → Nat} {enc enc' : Dir → List UInt8}
    {self next : Traffic} (h : (self.raise sender).Agrees sender id first enc enc')
    (hsystem : next.system = self.system) (hopeners : next.openers = self.openers)
    (hopened : ∀ dir, max (next.net.opened (sender, dir)) (Handshake.first sender dir) =
      max (self.net.opened (sender, dir)) (Handshake.first sender dir))
    (hsent : ∀ stream, stream.initiator = sender → next.sent stream = self.sent stream)
    (hflight : ∀ stream, stream.initiator = sender → first stream.dir ≤ stream.index →
      next.net.flight (sender, stream) = self.net.flight (sender, stream)) :
    (next.raise sender).Agrees sender id first enc enc' := by
  refine h.congr hsystem hopeners (fun dir => ?_) hsent hflight
  rw [Traffic.raise_opened, Traffic.raise_opened, hopened]

/-- A side with nothing left to do has its connection. -/
theorem Handshake.Follows.result_eq {plan : Plan} {todo : Task → List Action} {self : Handshake} {side : Side}
    (h : self.Follows plan todo) (hdone : ∀ branch, todo (side, branch) = []) :
    self.result side = some (ok (.established side)) := by
  have hscripts (branch : Branch) : Task.scripts todo side branch = [] := by
    rw [Task.scripts, hdone, calls_nil]
  rw [Handshake.result, (h.party side).finished hscripts]

/-- It shares it with its tasks as soon as it has it. -/
theorem Handshake.Follows.shared_eq {plan : Plan} {todo : Task → List Action} {self : Handshake}
    (h : self.Follows plan todo) (hcounts : Counts todo self.net) (side : Side) :
    (∃ branch, todo (side, branch) ≠ []) ∧ self.shared side = none ∨
      (∀ branch, todo (side, branch) = []) ∧
        self.shared side = some (.new (.from_u32 0) side (Handshake.first side.peer)) := by
  by_cases hdone : ∀ branch, todo (side, branch) = []
  · refine .inr ⟨hdone, ?_⟩
    have haccepted : (fun dir => self.net.accepted (side, dir)) = Handshake.first side.peer :=
      funext (hcounts.accepted_eq hdone)
    rw [Handshake.shared, h.result_eq hdone, haccepted]
    rfl
  · obtain ⟨branch, hleft⟩ := not_forall.mp hdone
    refine .inl ⟨⟨branch, hleft⟩, ?_⟩
    rw [Handshake.shared]
    split
    · rename_i hresult
      exact absurd ((h.of_result hresult).1 branch) hleft
    · rfl

/-- On which nothing has happened yet. -/
theorem Handshake.Follows.shared_getD {plan : Plan} {todo : Task → List Action} {self : Handshake}
    (h : self.Follows plan todo) (hcounts : Counts todo self.net) (system : Side → Option System) (side side' : Side) :
    (Function.update system side ((system side).or (self.shared side)) side').getD
        (.new (.from_u32 0) side' (Handshake.first side'.peer)) =
      (system side').getD (.new (.from_u32 0) side' (Handshake.first side'.peer)) := by
  by_cases heq : side' = side
  · subst heq
    rw [Function.update_self]
    cases system side' with
    | some _ => rfl
    | none =>
      rw [Option.none_or]
      obtain ⟨-, hshared⟩ | ⟨-, hshared⟩ := h.shared_eq hcounts side'
      · rw [hshared]
      · rw [hshared]
        rfl
  · rw [Function.update_of_ne heq]

namespace Session

variable {plan : Plan} {todo : Task → List Action} {enc enc' : Dir → List UInt8} {self next : Session}
  {side sender : Side} {stream : StreamId} {connection : Connection} {branch : Branch} {len : Nat} {dir : Dir}
  {data : List UInt8}

/-- A stream of an application is none of the handshake. -/
theorem ne_task_stream (hfirst : Handshake.first stream.initiator stream.dir ≤ stream.index) (task : Task) :
    stream ≠ task.stream := by
  rintro rfl
  exact Nat.not_lt_of_le hfirst task.lt_first

namespace Linked

/-- A side that gets on with its handshake leaves the traffic as it should be. -/
theorem act (h : self.Linked plan todo enc enc') (hstep : self.step (.act side branch) = some next) :
    ∃ todo', next.Linked plan todo' enc enc' := by
  simp only [step, Handshake.step] at hstep
  split at hstep
  · rename_i handshake hact
    split at hact
    · rename_i party net hparty
      cases hact
      cases hstep
      obtain ⟨action, tail, answer, htodo, hserve, hfollows⟩ := h.follows.act hparty
      set task : Task := (side, branch)
      have hcounts := h.counts.serve h.follows.agrees htodo hserve
      have hleft : ∃ branch, todo (side, branch) ≠ [] := ⟨branch, by rw [htodo]; exact List.cons_ne_nil _ _⟩
      have hsystem := (h.shared side).mpr hleft
      have htodo' {side' : Side} (hne : side' ≠ side) (branch' : Branch) :
          Function.update todo task tail (side', branch') = todo (side', branch') :=
        Function.update_of_ne (fun heq => hne (Prod.mk.inj heq).1) _ _
      have hother {key : Side × StreamId} (hne : key.2 ≠ task.stream) :
          net.flight key = self.handshake.net.flight key := by
        rw [Network.flight_serve hserve]
        exact Function.update_of_ne (fun heq => hne (congrArg Prod.snd heq)) _ _
      have htraffic (sender : Side) := hfollows.shared_getD hcounts self.system side sender.peer
      simp only [Side.peer_peer] at htraffic
      refine ⟨_, hfollows, hcounts, h.counts.sound_serve h.follows.agrees h.sound htodo hserve, fun side' => ?_,
        fun side' hleft' => h.idle side' (exists_ne_nil_of_update htodo hleft'), fun sender => ?_, fun sender => ?_,
        fun stream hfirst => ?_⟩
      · by_cases heq : side' = side
        · subst heq
          simp only [Function.update_self, hsystem, Option.none_or]
          obtain ⟨hleft', hshared⟩ | ⟨hdone, hshared⟩ := hfollows.shared_eq hcounts side'
          · exact iff_of_true hshared hleft'
          · refine iff_of_false (by rw [hshared]; exact Option.some_ne_none _) ?_
            simpa using hdone
        · simp only [Function.update_of_ne heq, htodo' heq]
          exact h.shared side'
      · refine (h.agrees sender).raised (htraffic sender) rfl (fun dir => ?_) (fun _ _ => rfl)
          fun stream hinitiator hfirst => ?_
        · by_cases heq : sender = side
          · subst heq
            rw [traffic, traffic, Nat.max_eq_right (h.counts.opened_le sender dir hleft),
              Nat.max_eq_right (h.counts.opened_le_of_serve h.follows.agrees htodo hserve dir)]
          · rw [traffic, h.follows.agrees.opened_serve htodo hserve,
              if_neg fun hkey => heq (Prod.mk.inj hkey.2).1]
            rfl
        · exact hother (ne_task_stream (by rwa [hinitiator]) task)
      · rw [traffic, htraffic]
        exact h.live sender
      · rw [Network.carried, Network.streams_serve hserve (ne_task_stream hfirst task),
          hother (ne_task_stream hfirst task)]
        exact h.answers stream hfirst
    · cases hact
  · cases hstep

/-- Bytes that arrive leave the session as it should be. -/
theorem deliver (h : self.Linked plan todo enc enc') (hstep : self.step (.deliver sender stream len) = some next) :
    next.Linked plan todo enc enc' := by
  simp only [step, Handshake.step] at hstep
  split at hstep
  · cases hstep
  · rename_i hfits
    split at hstep
    · rename_i handshake hdeliver
      obtain ⟨hlen, hdeliver⟩ := Option.ite_none_right_eq_some.mp hdeliver
      cases hdeliver
      cases hstep
      refine ⟨⟨h.follows.agrees.deliver, h.follows.party⟩, h.counts.congr rfl rfl, h.sound.deliver hlen, h.shared,
        h.idle, fun sender' => ?_, h.live, fun stream' hfirst => ?_⟩
      · refine (h.agrees sender').raised rfl rfl (fun _ => rfl) (fun _ _ => rfl) fun stream' hinitiator hfirst => ?_
        refine Function.update_of_ne ?_ _ _
        intro hkey
        obtain ⟨rfl, rfl⟩ := Prod.mk.inj hkey
        exact hfits ⟨hinitiator, hfirst⟩
      · rw [← h.answers stream' hfirst]
        by_cases heq : stream' = stream
        · rw [heq]
          exact Network.carried_deliver _ _
        · rw [Network.carried, Network.carried, Network.streams_deliver, Network.flight_deliver,
            Function.update_of_ne fun hkey => heq (Prod.mk.inj hkey).2,
            Function.update_of_ne fun hkey => heq (Prod.mk.inj hkey).2]
    · cases hstep

/-- A stream that is announced leaves the session as it should be. -/
theorem surface (h : self.Linked plan todo enc enc') (hstep : self.step (.surface side dir) = some next) :
    next.Linked plan todo enc enc' := by
  obtain ⟨hlt, hstep⟩ := Option.ite_none_right_eq_some.mp hstep
  cases hstep
  have hle (key : Side × Dir) : self.handshake.net.surfaced key ≤
      Function.update self.handshake.net.surfaced (side, dir) (self.handshake.net.surfaced (side, dir) + 1) key := by
    by_cases hkey : key = (side, dir)
    · rw [hkey, Function.update_self]
      exact Nat.le_succ _
    · rw [Function.update_of_ne hkey]
  refine ⟨⟨h.follows.agrees.surface hle, h.follows.party⟩, h.counts.congr rfl rfl,
    ⟨fun side' dir' => Nat.le_trans (h.sound.accepted side' dir') (hle _), fun side' dir' => ?_, h.sound.fresh⟩,
    h.shared, h.idle, fun sender => ?_, h.live, h.answers⟩
  · by_cases hkey : (side', dir') = (side, dir)
    · obtain ⟨rfl, rfl⟩ := Prod.mk.inj hkey
      simp only [Function.update_self]
      exact hlt
    · simp only [Function.update_of_ne hkey]
      exact h.sound.surfaced side' dir'
  · exact (h.agrees sender).raised rfl rfl (fun _ => rfl) (fun _ _ => rfl) fun _ _ _ => rfl

variable {event : Traffic.Event} {traffic : Traffic} {net : Network}

/-- What is on its way on streams of applications is nothing to the handshake. -/
theorem handshake_flight (h : self.Linked plan todo enc enc')
    (hfirst : Handshake.first stream.initiator stream.dir ≤ stream.index)
    (hindex : stream.index < self.handshake.net.opened (stream.initiator, stream.dir)) :
    Agrees plan todo (self.handshake.net.set_flight side stream data) ∧
      Counts todo (self.handshake.net.set_flight side stream data) ∧
      (self.handshake.net.set_flight side stream data).Sound := by
  refine ⟨h.follows.agrees.congr (fun _ => rfl) (fun task => ?_) (fun _ _ => rfl) (fun _ _ => rfl) rfl,
    h.counts.congr rfl rfl,
    h.sound.of_opened hindex (fun _ _ hne => Network.Sound.update_of_ne hne) fun _ _ _ => rfl⟩
  exact Function.update_of_ne (fun hkey => ne_task_stream hfirst task (Prod.mk.inj hkey).2.symm) _ _

/-- Traffic leaves the handshake as it is: it is on other streams, and on those a side opens once it is
done. -/
theorem handshake_changes (h : self.Linked plan todo enc enc')
    (hchanges : Traffic.Changes sender self.handshake.net event net)
    (hdone : event.side sender = sender → ∀ branch, todo (sender, branch) = []) :
    Agrees plan todo net ∧ Counts todo net ∧ net.Sound := by
  cases hchanges with
  | refl => exact ⟨h.follows.agrees, h.counts, h.sound⟩
  | @opens dir dir' =>
    have hne {task : Task} (hopens : .opens ∈ todo task) :
        (task.1, task.stream.dir) ≠ (sender, dir') := by
      intro hkey
      have htask := hdone rfl task.2
      rw [← (Prod.mk.inj hkey).1] at htask
      rw [show todo task = [] from htask] at hopens
      cases hopens
    refine ⟨h.follows.agrees.congr (fun _ => rfl) (fun _ => rfl)
      (fun task hopens => Function.update_of_ne (hne hopens) _ _) (fun _ _ => rfl) rfl, ?_, h.sound.open_ sender dir'⟩
    refine ⟨fun task hinitiator hopens => ?_, h.counts.accepted, fun side dir'' hleft => ?_, h.counts.accepted_le⟩
    · have hopened := h.counts.opened task hinitiator hopens
      rw [Network.opened_set_opened, Function.update_apply]
      split_ifs with hkey
      · exact Nat.succ_pos _
      · exact hopened
    · have hside : side ≠ sender := by
        rintro rfl
        obtain ⟨branch, hleft⟩ := hleft
        exact hleft (hdone rfl branch)
      rw [Network.opened_set_opened, Function.update_of_ne fun hkey => hside (Prod.mk.inj hkey).1]
      exact h.counts.opened_le side dir'' hleft
  | flight hinitiator hfirst hindex =>
    subst hinitiator
    exact h.handshake_flight hfirst hindex

/-- A side that has its connection shares it. -/
theorem system_ne_none (h : self.Linked plan todo enc enc') (hconnection : self.connection side = some connection) :
    self.system side ≠ none := by
  intro hsystem
  obtain ⟨branch, hleft⟩ := (h.shared side).mp hsystem
  exact hleft ((h.of_connection hconnection).1 branch)

/-- What can happen to the traffic of a side can happen in the session. -/
theorem step_traffic (hstep : (self.traffic sender).step connection sender event = some traffic)
    (hfits : event.Fits sender) (hconnection : self.connection (event.side sender) = some connection) :
    self.step (.traffic sender event) = some (self.put sender traffic) := by
  simp only [step, hconnection, if_pos hfits, hstep]

/-- The traffic is put back as it is. -/
theorem traffic_put (hsystem : self.system sender.peer = none → traffic.system = (self.traffic sender).system) :
    (self.put sender traffic).traffic sender = traffic := by
  obtain ⟨net, openers, sent, system⟩ := traffic
  simp only [Session.traffic, put, Function.update_self]
  cases hnone : self.system sender.peer with
  | none =>
    simp only [Session.traffic, hnone] at hsystem
    rw [hsystem trivial]
    rfl
  | some _ => rfl

/-- The traffic of the other side goes on. -/
theorem traffic_put_peer : (self.put sender traffic).traffic sender.peer =
    { self.traffic sender.peer with net := traffic.net } := by
  simp only [Session.traffic, put, Function.update_of_ne sender.peer_ne, Side.peer_peer,
    Function.update_of_ne sender.peer_ne.symm]

/-- What the invariant says of the traffic of one side survives an event of it. -/
theorem agrees_traffic (h : self.Linked plan todo enc enc')
    (hopen : ∀ side dir side' index, ((Connection.established side).open_stream dir).Follows
      (calls ⟨side', dir, index⟩ [.opens, .writes (enc dir), .writes (enc' dir)]) ⟨side', dir, index⟩)
    (hconnection : self.connection (event.side sender) = some connection)
    (hstep : (self.traffic sender).step connection sender event = some traffic) :
    (traffic.raise sender).Agrees sender (.from_u32 0) (Handshake.first sender) enc enc' := by
  obtain ⟨hdone, rfl⟩ := h.of_connection hconnection
  have hagrees := h.agrees sender
  by_cases hside : event.side sender = sender
  · rw [hside] at hdone
    rw [h.raise_eq hdone] at hagrees
    have hnext := hagrees.step (hopen _) hstep
    rwa [Traffic.raise_eq fun dir => (hnext.bound dir).1]
  · exact hagrees.step (hopen _) (Traffic.step_raise hside hstep)

/-- An event of the traffic leaves the session as it should be. -/
theorem traffic_step (h : self.Linked plan todo enc enc')
    (hopen : ∀ side dir side' index, ((Connection.established side).open_stream dir).Follows
      (calls ⟨side', dir, index⟩ [.opens, .writes (enc dir), .writes (enc' dir)]) ⟨side', dir, index⟩)
    (hstep : self.step (.traffic sender event) = some next) : next.Linked plan todo enc enc' := by
  rw [step] at hstep
  split at hstep
  · rename_i connection hconnection
    obtain ⟨hfits, hstep⟩ := Option.ite_none_right_eq_some.mp hstep
    split at hstep
    · rename_i traffic htraffic
      cases hstep
      have hagrees := h.agrees_traffic hopen hconnection htraffic
      obtain ⟨hdone, rfl⟩ := h.of_connection hconnection
      have hchanges : Traffic.Changes sender self.handshake.net event traffic.net :=
        (h.agrees sender).changes (hopen _) hfits htraffic
      have hdone' (hside : event.side sender = sender) (branch : Branch) : todo (sender, branch) = [] := by
        rw [hside] at hdone
        exact hdone branch
      obtain ⟨hplan, hcounts, hsound⟩ := h.handshake_changes hchanges hdone'
      obtain ⟨hopened, hflight, hcarried⟩ := hchanges.other
      have hsystem (hnone : self.system sender.peer = none) : traffic.system = (self.traffic sender).system := by
        obtain ⟨-, hsame⟩ | ⟨hside, -⟩ := Traffic.openers_or_system htraffic
        · exact hsame
        · rw [hside] at hconnection
          exact absurd hnone (h.system_ne_none hconnection)
      have hother {side : Side} (hne : side ≠ sender) : side = sender.peer := Side.eq_peer_of_ne hne
      refine ⟨⟨hplan, h.follows.party⟩, hcounts, hsound, fun side => ?_, fun side hleft => ?_, fun side => ?_,
        fun side => ?_, fun stream hfirst => ?_⟩
      · rw [← h.shared side]
        by_cases hside : side = sender.peer
        · simp only [hside, put, Function.update_self, Option.map_eq_none_iff]
        · simp only [put, Function.update_of_ne hside]
      · by_cases hside : side = sender
        · subst hside
          obtain ⟨hside, -⟩ | ⟨-, hsame⟩ := Traffic.openers_or_system htraffic
          · obtain ⟨branch, hleft⟩ := hleft
            exact absurd (hdone' hside branch) hleft
          · simp only [put, Function.update_self, hsame]
            exact h.idle side hleft
        · simp only [put, Function.update_of_ne hside]
          exact h.idle side hleft
      · by_cases hside : side = sender
        · rw [hside, traffic_put hsystem]
          exact hagrees
        · rw [hother hside, traffic_put_peer]
          refine (h.agrees sender.peer).raised rfl rfl (fun dir => ?_) (fun _ _ => rfl) fun stream _ _ => hflight stream
          rw [hopened]
          rfl
      · by_cases hside : side = sender
        · rw [hside, traffic_put hsystem]
          obtain hsame | ⟨event, hne, hsystem⟩ := Traffic.system_step hfits htraffic
          · rw [hsame]
            exact h.live sender
          · rw [System.lost_step (System.valid_of_reachable (h.agrees sender).run) hsystem hne]
            exact h.live sender
        · rw [hother hside, traffic_put_peer]
          exact h.live sender.peer
      · refine (hcarried stream).trans ((h.answers stream hfirst).trans ?_)
        by_cases hside : stream.initiator.peer = sender
        · subst hside
          have hne : stream.initiator ≠ stream.initiator.peer := stream.initiator.peer_ne.symm
          simp only [put, Function.update_self]
          exact ((h.agrees _).sent_of_ne htraffic hne).symm
        · simp only [put, Function.update_of_ne hside]
    · cases hstep
  · cases hstep

theorem system_traffic {system : System} (hsystem : self.system side = some system) :
    (self.traffic side.peer).system = system := by
  rw [Session.traffic, Side.peer_peer, hsystem]
  rfl

/-- A side opens streams when its handshake is done. -/
theorem done_of_opener (h : self.Linked plan todo enc enc') {opener : Async Quic WTError StreamId}
    (hopener : self.openers sender stream = some opener) (branch : Branch) : todo (sender, branch) = [] := by
  by_contra hleft
  rw [h.idle sender ⟨branch, hleft⟩] at hopener
  cases hopener

/-- A side has got a stream when its handshake is done. -/
theorem done_of_given (h : self.Linked plan todo enc enc') (hgiven : (self.traffic sender).given stream = some stream) :
    ∀ branch, todo (sender, branch) = [] := by
  rw [Traffic.given] at hgiven
  split at hgiven
  · rename_i hopener
    exact h.done_of_opener hopener
  · cases hgiven

/-- A stream that an application has got is its own, and has been opened. -/
theorem of_given (h : self.Linked plan todo enc enc') (hgiven : (self.traffic sender).given stream = some stream) :
    stream.initiator = sender ∧ Handshake.first sender stream.dir ≤ stream.index ∧
      stream.index < self.handshake.net.opened (sender, stream.dir) := by
  have hagrees := h.agrees sender
  rw [h.raise_eq (h.done_of_given hgiven)] at hagrees
  obtain ⟨hinitiator, hfirst, hindex, -⟩ := hagrees.of_given hgiven
  exact ⟨hinitiator, hfirst, hindex⟩

/-- A stream that was returned was given to the application of the peer, and all it wrote is there or on
its way. -/
theorem of_returned (h : self.Linked plan todo enc enc')
    (henc : ∀ dir, Encodes (enc dir) (webtransport dir) ∧ Encodes (enc' dir) (.from_u32 0)) {system : System}
    (hsystem : self.system side = some system) (hreturned : stream ∈ system.returned) :
    (self.traffic side.peer).given stream = some stream ∧ self.sent side.peer stream =
      (system.shared.conn.streams stream).unread ++ self.handshake.net.flight (side.peer, stream) := by
  rw [← system_traffic hsystem] at hreturned ⊢
  obtain ⟨-, -, hgiven, hsent⟩ := (h.agrees side.peer).of_returned henc hreturned
  exact ⟨hgiven, hsent⟩

/-- Answers go back on streams that were returned, and do not meet anything else there. -/
theorem answer (h : self.Linked plan todo enc enc')
    (henc : ∀ dir, Encodes (enc dir) (webtransport dir) ∧ Encodes (enc' dir) (.from_u32 0))
    (hstep : self.step (.answer side stream data) = some next) : next.Linked plan todo enc enc' := by
  obtain ⟨⟨hreturned, -⟩, hstep⟩ := Option.ite_none_right_eq_some.mp hstep
  cases hstep
  obtain ⟨system, hsystem⟩ : ∃ system, self.system side = some system := by
    cases hsystem : self.system side with
    | some system => exact ⟨system, rfl⟩
    | none =>
      rw [returned, hsystem] at hreturned
      cases hreturned
  rw [returned, hsystem] at hreturned
  obtain ⟨hinitiator, hfirst, hindex⟩ := h.of_given (h.of_returned henc hsystem hreturned).1
  rw [← hinitiator] at hfirst hindex
  obtain ⟨hplan, hcounts, hsound⟩ := h.handshake_flight hfirst hindex
  have hside : stream.initiator.peer = side := by rw [hinitiator, Side.peer_peer]
  have hne {sender : Side} {stream' : StreamId} (hinitiator' : stream'.initiator = sender) :
      (sender, stream') ≠ (side, stream) := by
    intro hkey
    obtain ⟨rfl, rfl⟩ := Prod.mk.inj hkey
    exact sender.peer_ne (hinitiator.symm.trans hinitiator')
  refine ⟨⟨hplan, h.follows.party⟩, hcounts, hsound, h.shared, h.idle, fun sender => ?_, h.live,
    fun stream' hfirst' => ?_⟩
  · refine (h.agrees sender).raised rfl rfl (fun _ => rfl) (fun stream' hinitiator' => ?_) fun stream' hinitiator' _ =>
      Function.update_of_ne (hne hinitiator') _ _
    by_cases hsender : sender = side
    · subst hsender
      have hstream : stream' ≠ stream := fun heq => hne hinitiator' (Prod.ext rfl heq)
      simp only [Session.traffic, Function.update_self, Function.update_of_ne hstream]
    · simp only [Session.traffic, Function.update_of_ne hsender]
  · have hanswers := h.answers stream' hfirst'
    by_cases hstream : stream' = stream
    · subst hstream
      rw [hside] at hanswers ⊢
      simp only [Function.update_self, Network.carried_set_flight_self, hanswers]
    · have hkey {side' : Side} : (side', stream') ≠ (side, stream) := fun heq => hstream (Prod.mk.inj heq).2
      rw [Network.carried, Network.streams_set_flight, Network.flight_set_flight, Function.update_of_ne hkey]
      refine Eq.trans hanswers ?_
      by_cases hsender : stream'.initiator.peer = side
      · simp only [hsender, Function.update_self, Function.update_of_ne hstream]
      · simp only [Function.update_of_ne hsender]

/-- At the start the whole plan is left. -/
theorem start {fuel : Nat} {orders : Side → Orders}
    (hfollows : (Handshake.start (fuel + 1) orders).Follows plan plan.script) :
    (Session.start (fuel + 1) orders).Linked plan plan.script enc enc' where
  follows := hfollows
  counts := .start plan
  sound := Network.sound_new
  shared side := iff_of_true rfl ⟨.left, List.cons_ne_nil _ _⟩
  idle _ _ := rfl
  agrees sender := by
    have hfirst : (fun dir =>
        (((Session.start (fuel + 1) orders).traffic sender).raise sender).net.opened (sender, dir)) =
          Handshake.first sender := by
      funext dir
      rw [Traffic.raise_opened]
      exact Nat.zero_max _
    have hsound : (((Session.start (fuel + 1) orders).traffic sender).raise sender).net.Sound :=
      ⟨fun _ _ => Nat.le_refl 0, fun _ _ => Nat.zero_le _, fun _ _ _ => ⟨rfl, rfl⟩⟩
    have hagrees := @Traffic.Agrees.start sender (.from_u32 0) enc enc' _ hsound
    rw [Traffic.start, hfirst] at hagrees
    exact hagrees
  live _ := rfl
  answers _ _ := rfl

end Linked

/-- One of the sides opens a stream. -/
theorem exists_linked {fuel : Nat} {orders : Side → Orders} (hrun : Reachable step (start (fuel + 1) orders) self) :
    ∃ plan todo, ∃ enc enc' : Dir → List UInt8,
      (∀ dir, Encodes (enc dir) (webtransport dir) ∧ Encodes (enc' dir) (.from_u32 0)) ∧
        self.Linked plan todo enc enc' := by
  obtain ⟨plan, hstart⟩ := Handshake.exists_follows fuel orders
  choose enc enc' henc henc' hopen using
    @Connection.follows_open_stream (.established .Client) _ (.from_u32 0) rfl rfl
  have hopen' (side : Side) (dir : Dir) : ∀ side' index, ((Connection.established side).open_stream dir).Follows
      (calls ⟨side', dir, index⟩ [.opens, .writes (enc dir), .writes (enc' dir)]) ⟨side', dir, index⟩ := hopen dir
  refine ⟨plan, ?_⟩
  obtain ⟨todo, h⟩ := hrun.invariant (fun session => ∃ todo, session.Linked plan todo enc enc')
    ⟨plan.script, .start hstart⟩ fun {session next event} ⟨todo, h⟩ _ hstep => by
      cases event with
      | act side branch => exact h.act hstep
      | deliver sender stream len => exact ⟨todo, h.deliver hstep⟩
      | surface side dir => exact ⟨todo, h.surface hstep⟩
      | traffic sender event => exact ⟨todo, h.traffic_step hopen' hstep⟩
      | answer side stream data => exact ⟨todo, h.answer (fun dir => ⟨henc dir, henc' dir⟩) hstep⟩
  exact ⟨todo, enc, enc', fun dir => ⟨henc dir, henc' dir⟩, h⟩

end Session

end wt_rs
