import WebTransport.Conn.Hold

open rust rust.Outcome quinn wt_proto.coding wt_proto.h3 transition

namespace wt_rs.System

variable {id : VarInt} {side : Side} {first : Dir → Nat} {self next : System} {event : Event} {key : StreamId}
  {change : RecvStream → RecvStream}

section fields

variable (self : System) (key : StreamId) (change : RecvStream → RecvStream)

theorem arrive_streams : (self.arrive key change).shared.conn.streams =
    Function.update self.shared.conn.streams key (change (self.shared.conn.streams key)) := by
  rw [arrive_shared]
  rfl

variable {self key change}

/-- A queue forgets no header read when one of them is woken. -/
theorem mem_arrive {dir : Dir} {key' : StreamId} (hmem : key' ∈ (self.shared.accept.drained dir).tasks) :
    key' ∈ ((self.arrive key change).shared.accept.drained dir).tasks := by
  rw [arrive_shared]
  by_cases hdir : dir = key.dir
  · subst hdir
    rw [Acceptor.set_queue_drained, ← AList.lookup_isSome]
    rw [← AList.lookup_isSome] at hmem
    by_cases hkey : key' = key
    · subst hkey
      rw [FuturesUnordered.lookup_wake_self, Option.isSome_map]
      exact hmem
    · rw [FuturesUnordered.lookup_wake_ne _ hkey]
      exact hmem
  · rw [Acceptor.set_queue_drained_ne hdir]
    exact hmem

end fields

/-- Between polls the queue and the places lose nothing, and no result comes. -/
structure Alike (before after : System) : Prop where
  side : after.shared.conn.side = before.shared.conn.side
  accepted : after.shared.conn.accepted = before.shared.conn.accepted
  slots : after.shared.accept.slots = before.shared.accept.slots
  id : after.shared.accept.id = before.shared.accept.id
  log : after.log = before.log
  mem : ∀ {dir key}, key ∈ (before.shared.accept.drained dir).tasks →
    key ∈ (after.shared.accept.drained dir).tasks

namespace Alike

theorem refl (self : System) : Alike self self := ⟨rfl, rfl, rfl, rfl, rfl, fun hmem => hmem⟩

/-- A waker takes nothing from the queue or from the places. -/
theorem notify (halike : Alike self next) (dir : Dir) : Alike self (next.notify dir) := by
  refine ⟨?_, ?_, ?_, ?_, ?_, fun hmem => ?_⟩
  · rw [notify_shared]
    exact halike.side
  · rw [notify_shared]
    exact halike.accepted
  · rw [notify_shared]
    exact halike.slots
  · rw [notify_shared]
    exact halike.id
  · rw [notify_log]
    exact halike.log
  · rw [notify_shared]
    exact halike.mem hmem

/-- What happens on a stream takes nothing from the queue or from the places. -/
theorem arrive (halike : Alike self next) (key : StreamId) (change : RecvStream → RecvStream) :
    Alike self (next.arrive key change) := by
  refine ⟨?_, ?_, ?_, ?_, ?_, fun hmem => mem_arrive (halike.mem hmem)⟩
  · rw [arrive_shared]
    exact halike.side
  · rw [arrive_shared]
    exact halike.accepted
  · rw [arrive_shared]
    exact halike.slots
  · rw [arrive_shared]
    exact halike.id
  · rw [arrive_log]
    exact halike.log

theorem close (self : System) (error : ConnectionError) : Alike self (self.close error) :=
  close_induction (Alike self) ⟨rfl, rfl, rfl, rfl, rfl, fun hmem => hmem⟩ (fun dir h => h.notify dir)
    fun key h => h.arrive key _

end Alike

/-- A lost connection leaves the bytes that have arrived. -/
theorem close_streams (self : System) (error : ConnectionError) :
    (self.close error).shared.conn.streams = self.shared.conn.streams ∧ (self.close error).sent = self.sent := by
  refine close_induction (fun system => system.shared.conn.streams = self.shared.conn.streams ∧
    system.sent = self.sent) ⟨rfl, rfl⟩ (fun dir h => ?_) (fun key h => ?_)
  · rw [notify_shared, notify_sent]
    exact h
  · rw [arrive_streams, arrive_sent, Function.update_eq_self]
    exact h

/-- The acceptor holds what it has got, and no stream that is not for the caller has decided a
call. -/
structure Keeps (id : VarInt) (side : Side) (first : Dir → Nat) (system : System) : Prop where
  valid : system.Valid id side first
  holds : system.shared.Holds first system.sent
  delivers : system.shared.Delivers system.sent
  causes : ∀ entry ∈ system.log, ∀ key, entry.completion.cause = some key →
    Excused key.dir (system.sent key) (system.shared.conn.streams key).ended

namespace Keeps

/-- What happens on streams changes nothing, as long as they stay excused. -/
theorem alike (hkeeps : self.Keeps id side first) (hvalid : next.Valid id side first) (halike : Alike self next)
    (hsent : ∀ key, ∃ more, next.sent key = self.sent key ++ more)
    (hexcused : ∀ key, Excused key.dir (self.sent key) (self.shared.conn.streams key).ended →
      Excused key.dir (next.sent key) (next.shared.conn.streams key).ended)
    (hdelivers : next.shared.Delivers next.sent) : next.Keeps id side first where
  valid := hvalid
  delivers := hdelivers
  holds := by
    refine ⟨fun {slot key} hslot => ?_, fun {key} hobtained => ?_⟩
    · rw [halike.slots] at hslot
      obtain ⟨hexpects, stype, rest, hdispatch, hheader⟩ := hkeeps.holds.slots hslot
      obtain ⟨more, hmore⟩ := hsent key
      refine ⟨?_, stype, rest ++ more, hdispatch, ?_⟩
      · rw [Acceptor.Expects, halike.side]
        exact hexpects
      · rw [hmore, halike.id]
        exact hheader.append more
    · rw [Acceptor.Obtained, Acceptor.Expects, halike.side, halike.accepted] at hobtained
      obtain hqueued | hex | ⟨stype, hkind, hplace⟩ := hkeeps.holds.place hobtained
      · exact .inl (halike.mem hqueued)
      · exact .inr (.inl (hexcused key hex))
      · obtain ⟨more, hmore⟩ := hsent key
        rw [hmore, halike.slots]
        exact .inr (.inr ⟨stype, hkind.append more, hplace⟩)
  causes entry hentry key hcause := by
    rw [halike.log] at hentry
    exact hexcused key (hkeeps.causes entry hentry key hcause)

/-- Nothing happens on the streams. -/
theorem quiet (hkeeps : self.Keeps id side first) (hvalid : next.Valid id side first) (halike : Alike self next)
    (hstreams : next.shared.conn.streams = self.shared.conn.streams) (hsent : next.sent = self.sent) :
    next.Keeps id side first := by
  refine hkeeps.alike hvalid halike (fun key => ⟨[], by rw [hsent, List.append_nil]⟩)
    (fun key hexcused => ?_) (fun key => ?_)
  · rw [hsent, hstreams]
    exact hexcused
  · rw [hsent, hstreams]
    exact hkeeps.delivers key

/-- A live stream gets more bytes, or its end. -/
theorem live {more : List UInt8} (hkeeps : self.Keeps id side first) (hvalid : next.Valid id side first)
    (hlive : self.Live key) (halike : Alike self next)
    (hsent : next.sent = Function.update self.sent key (self.sent key ++ more))
    (hstreams : next.shared.conn.streams =
      Function.update self.shared.conn.streams key (change (self.shared.conn.streams key)))
    (hchange : ∃ gone, (self.shared.conn.streams key).received ++ more =
        (change (self.shared.conn.streams key)).received ++ gone ∧
      ((change (self.shared.conn.streams key)).ended ≠ some .reset → gone = [])) :
    next.Keeps id side first := by
  refine hkeeps.alike hvalid halike (fun key' => ?_) (fun key' hexcused => ?_) (fun key' => ?_)
  · rw [hsent]
    by_cases hkey : key' = key
    · rw [hkey, Function.update_self]
      exact ⟨more, rfl⟩
    · rw [Function.update_of_ne hkey]
      exact ⟨[], (List.append_nil _).symm⟩
  · rw [hsent, hstreams]
    by_cases hkey : key' = key
    · rw [hkey] at hexcused ⊢
      rw [Function.update_self]
      exact .inl ((hexcused.resolve_right fun h => h.1 hlive.2.2.1).append more)
    · rw [Function.update_of_ne hkey, Function.update_of_ne hkey]
      exact hexcused
  · rw [hsent, hstreams]
    by_cases hkey : key' = key
    · obtain ⟨gone, hgone, hnil⟩ := hkeeps.delivers key
      obtain ⟨gone', hgone', hnil'⟩ := hchange
      rw [hnil (by rw [hlive.2.2.1]; exact (Option.some_ne_none _).symm), List.append_nil] at hgone
      rw [hkey, Function.update_self, Function.update_self, hgone]
      exact ⟨gone', hgone', hnil'⟩
    · rw [Function.update_of_ne hkey, Function.update_of_ne hkey]
      exact hkeeps.delivers key'

/-- A poll keeps the invariant if it meets harmless streams. -/
theorem poll {task : TaskId} {dir : Dir} {order : List StreamId} {shared : Acceptor} {out : Poll Completion}
    (hkeeps : self.Keeps id side first) (hharmless : self.shared.Harmless dir first self.sent)
    (hpoll : self.shared.poll_accept dir task order = ok (out, shared)) :
    shared.Holds first self.sent ∧ shared.Delivers self.sent ∧
      (∀ entry ∈ self.log, ∀ key, entry.completion.cause = some key →
        Excused key.dir (self.sent key) (shared.conn.streams key).ended) ∧
      ∀ completion, out = .Ready completion → ∀ key, completion.cause = some key →
        Excused key.dir (self.sent key) (shared.conn.streams key).ended := by
  have hshared := hkeeps.valid.shared
  have hframe := Acceptor.poll_accept_frame hshared hpoll
  obtain ⟨hholds, hready⟩ : shared.Holds first self.sent ∧ ∀ completion, out = .Ready completion →
      ∀ key, completion.cause = some key →
        Excused key.dir (self.sent key) (shared.conn.streams key).ended := by
    obtain ⟨rfl, hturns, -⟩ | ⟨completion, before, rfl, hturns, hends⟩ := Acceptor.poll_accept_spec hpoll
    · exact ⟨hkeeps.holds.turns hshared hharmless hkeeps.delivers hturns, fun _ hout => by cases hout⟩
    · have hbefore := Acceptor.Turns.frame hturns hshared
      obtain ⟨hholds, hcause⟩ := (hkeeps.holds.turns hshared hharmless hkeeps.delivers hturns).ends
        (hshared.turns hturns) (hbefore.harmless hharmless) (hbefore.delivers hkeeps.delivers) hends
      refine ⟨hholds, fun _ hout => ?_⟩
      cases hout
      exact hcause
  refine ⟨hholds, hframe.delivers hkeeps.delivers, fun entry hentry key hcause => ?_, hready⟩
  rw [hframe.ended]
  exact hkeeps.causes entry hentry key hcause

/-- What the acceptor has got it keeps, over any event whose polls meet harmless streams only. -/
theorem move (hkeeps : self.Keeps id side first)
    (hharmless : ∀ task dir order, self.Polls event task dir order → self.shared.Harmless dir first self.sent)
    (hmove : Move self event next) : next.Keeps id side first := by
  have hvalid := hkeeps.valid.move hmove
  cases hmove with
  | @peer_opens dir hlost =>
    refine hkeeps.quiet hvalid (@Alike.notify self (self.open_stream dir) ?_ dir) ?_ (notify_sent _ dir)
    · exact ⟨rfl, rfl, rfl, rfl, rfl, fun hmem => hmem⟩
    · rw [notify_shared]
      rfl
  | @bytes key data hlive =>
    have halike := (Alike.refl self).arrive key (·.push data)
    refine @live _ _ _ _ _ _ (·.push data) data hkeeps hvalid hlive { halike with } rfl
      (arrive_streams self key _) ⟨[], ?_, fun _ => rfl⟩
    rw [List.append_nil, RecvStream.received, RecvStream.received, RecvStream.push, List.append_assoc]
  | @finish key hlive =>
    refine @live _ _ _ _ _ _ RecvStream.finish [] hkeeps hvalid hlive ((Alike.refl self).arrive key _) ?_
      (arrive_streams self key _) ⟨[], rfl, fun _ => rfl⟩
    rw [arrive_sent, List.append_nil, Function.update_eq_self]
  | @reset key hlive =>
    refine @live _ _ _ _ _ _ RecvStream.reset [] hkeeps hvalid hlive ((Alike.refl self).arrive key _) ?_
      (arrive_streams self key _) ⟨(self.shared.conn.streams key).unread, ?_, fun h => absurd rfl h⟩
    · rw [arrive_sent, List.append_nil, Function.update_eq_self]
    · simp [RecvStream.received, RecvStream.reset]
  | @close error hlost =>
    obtain ⟨hstreams, hsent⟩ := close_streams self error
    exact hkeeps.quiet hvalid (.close self error) hstreams hsent
  | wait hpolls hpoll =>
    obtain ⟨hholds, hdelivers, hcauses, -⟩ := hkeeps.poll (hharmless _ _ _ hpolls) hpoll
    exact ⟨hvalid, hholds, hdelivers, hcauses⟩
  | complete hpolls hpoll =>
    obtain ⟨hholds, hdelivers, hcauses, hready⟩ := hkeeps.poll (hharmless _ _ _ hpolls) hpoll
    exact ⟨hvalid, hholds, hdelivers, List.forall_mem_cons.mpr ⟨hready _ rfl, hcauses⟩⟩
  | cancel hcall => exact ⟨hvalid, hkeeps.holds, hkeeps.delivers, hkeeps.causes⟩

/-- A new acceptor has got nothing. -/
theorem new (id : VarInt) (side : Side) (first : Dir → Nat) : (System.new id side first).Keeps id side first where
  valid := .new id side first
  holds := by
    refine ⟨fun h => (by cases h), fun hobtained => ?_⟩
    exact absurd hobtained.2 (Nat.not_lt_of_le hobtained.1.2)
  delivers key := ⟨[], rfl, fun _ => rfl⟩
  causes _ h := by cases h

end Keeps

/-- A call that is polled meets harmless streams only. -/
def Spared (first : Dir → Nat) (system : System) (event : Event) : Prop :=
  ∀ task dir order, system.Polls event task dir order → system.shared.Harmless dir first system.sent

/-- As long as the streams that are not for the caller are harmless when a call is polled, none of
them decides a call, and those for QPACK and pushes stay in the queue or come to their places. -/
theorem h3_streams_kept (hrun : Run step (Spared first) (new id side first) self) :
    (∀ entry ∈ self.log, ∀ key, entry.completion.cause = some key → ¬ Foreign key.dir (self.sent key)) ∧
      ∀ key stype slot, self.shared.Obtained first key → Kind (self.sent key) stype →
        dispatch key.dir stype = .store slot →
          key ∈ (self.shared.accept.drained key.dir).tasks ∨ self.shared.accept.slots slot = some key := by
  have hkeeps : self.Keeps id side first := hrun.invariant (fun system => system.Keeps id side first)
    (.new id side first) fun hkeeps hspared hstep => hkeeps.move hspared (move_of_step hstep)
  refine ⟨fun entry hentry key hcause => (hkeeps.causes entry hentry key hcause).not_foreign,
    fun key stype slot hobtained hkind hdispatch => ?_⟩
  obtain hqueued | hexcused | ⟨stype', hkind', hplace⟩ := hkeeps.holds.place hobtained
  · exact .inl hqueued
  · refine absurd ⟨stype, hkind, fun hstype => ?_⟩ hexcused.not_foreign
    rw [dispatch_eq_deliver_iff.mpr hstype] at hdispatch
    cases hdispatch
  · obtain rfl := hkind.unique hkind'
    exact .inr (hplace slot hdispatch)

/-- The first stream of the client in one direction. -/
private abbrev first_uni : StreamId := ⟨.Client, .Uni, 0⟩

/-- A QPACK encoder stream that starts with the session of the acceptor. -/
private def harmless_stream : System :=
  let system := ((new (.from_u32 0) .Server fun _ => 0).open_stream .Uni).notify .Uni
  { system.arrive first_uni (·.push [0x02, 0x00]) with
    sent := Function.update system.sent first_uni (system.sent first_uni ++ [0x02, 0x00]) }

private theorem harmless_stream_harmless (dir : Dir) :
    harmless_stream.shared.Harmless dir (fun _ => 0) harmless_stream.sent := by
  have hwhole : Header [0x02, 0x00] (.from_u32 2) (.from_u32 0) [] :=
    ⟨[0x02], [0x00], rfl, .intro (by decide) (by decide), .intro (by decide) (by decide)⟩
  have hheader {key : StreamId} {stype sid : VarInt} {rest : List UInt8}
      (h : Header (harmless_stream.sent key) stype sid rest) : key = first_uni ∧ sid = .from_u32 0 := by
    by_cases hkey : key = first_uni
    · subst hkey
      exact ⟨rfl, (h.unique hwhole).2.1⟩
    · have hempty : harmless_stream.sent key = [] := Function.update_of_ne hkey _ _
      rw [hempty] at h
      exact absurd (.inl (.inl rfl)) h.not_headless
  have hended (key : StreamId) : (harmless_stream.shared.conn.streams key).ended = none := by
    have hstreams := arrive_streams (((new (.from_u32 0) .Server fun _ => 0).open_stream .Uni).notify .Uni)
      first_uni (·.push [0x02, 0x00])
    by_cases hkey : key = first_uni
    · subst hkey
      rfl
    · exact congrArg RecvStream.ended ((congrFun hstreams key).trans (Function.update_of_ne hkey _ _))
  refine ⟨fun _ _ h _ => (hheader h).2, fun {key} _ _ _ h => absurd (hended key) h, fun _ _ _ _ _ _ h h' => ?_⟩
  rw [(hheader h).1, (hheader h').1]

/-- The encoder stream of the peer stays in its place, and fails no call. -/
theorem h3_streams_kept_encoder :
    ∃ system, Run step (Spared fun _ => 0) (new (.from_u32 0) .Server fun _ => 0) system ∧
      system.shared.accept.slots .qpack_encoder = some first_uni ∧
      ∀ entry ∈ system.log, ∀ key, entry.completion.cause = some key → ¬ Foreign key.dir (system.sent key) := by
  have hslots : (harmless_stream.step (.call 7 .Uni [])).map (·.shared.accept.slots .qpack_encoder) =
      some (some first_uni) := by decide
  obtain ⟨system, hstep, hslot⟩ := Option.map_eq_some_iff.mp hslots
  have hopened : (new (.from_u32 0) .Server fun _ => 0).step (.peer_opens .Uni) =
      some (((new (.from_u32 0) .Server fun _ => 0).open_stream .Uni).notify .Uni) := rfl
  have hbytes : (((new (.from_u32 0) .Server fun _ => 0).open_stream .Uni).notify .Uni).step
      (.bytes first_uni [0x02, 0x00]) = some harmless_stream := rfl
  have hrun : Run step (Spared fun _ => 0) (new (.from_u32 0) .Server fun _ => 0) system := by
    refine .step (.step (.step .start ?_ hopened) ?_ hbytes) (fun _ dir _ _ => harmless_stream_harmless dir) hstep
    all_goals
      rintro task dir order (⟨h, -⟩ | ⟨h, -⟩)
      all_goals cases h
  exact ⟨system, hrun, hslot, (h3_streams_kept hrun).1⟩

/-- A QPACK encoder stream with an instruction on it breaks the call that comes across it, and is
dropped. -/
theorem h3_stream_breaks_accept :
    ∃ system, Reachable step (new (.from_u32 0) .Server fun _ => 0) system ∧
      Foreign .Uni (system.sent first_uni) ∧ system.shared.Obtained (fun _ => 0) first_uni ∧
      (∃ entry ∈ system.log, entry.completion =
        ⟨some first_uni, err (.ProtocolError "UniStream Accept : Session ID mismatch")⟩) ∧
      first_uni ∉ (system.shared.accept.drained .Uni).tasks ∧
      ∀ slot, system.shared.accept.slots slot ≠ some first_uni := by
  have hrun : (steps step (new (.from_u32 0) .Server fun _ => 0)
      [.peer_opens .Uni, .bytes first_uni [0x02, 0x3f, 0xe1, 0x1f], .call 7 .Uni []]).map (fun system =>
        (system.sent first_uni, system.log, system.shared.conn.side, system.shared.conn.accepted .Uni,
          (system.shared.accept.drained .Uni).tasks.keys, [system.shared.accept.slots .qpack_encoder,
            system.shared.accept.slots .qpack_decoder, system.shared.accept.slots .push])) =
      some ([0x02, 0x3f, 0xe1, 0x1f], [⟨7, .Uni, ⟨some first_uni,
        err (.ProtocolError "UniStream Accept : Session ID mismatch")⟩⟩], .Server, 1, [], [none, none, none]) := rfl
  obtain ⟨system, hsteps, hfacts⟩ := Option.map_eq_some_iff.mp hrun
  simp only [Prod.mk.injEq, List.cons.injEq, and_true] at hfacts
  obtain ⟨hsent, hlog, hside, haccepted, hkeys, hencoder, hdecoder, hpush⟩ := hfacts
  refine ⟨system, .steps .start hsteps, ⟨.from_u32 2, ⟨[0x02], [0x3f, 0xe1, 0x1f], hsent, ?_⟩, by decide⟩,
    ⟨⟨?_, Nat.le_refl _⟩, ?_⟩, ⟨_, by rw [hlog]; exact List.mem_singleton_self _, rfl⟩, ?_, fun slot => ?_⟩
  · exact .intro (by decide) (by decide)
  · rw [hside]
    rfl
  · rw [haccepted]
    exact Nat.one_pos
  · rw [AList.mem_keys, hkeys]
    exact List.not_mem_nil
  · cases slot with
    | qpack_encoder => rw [hencoder]; exact (Option.some_ne_none _).symm
    | qpack_decoder => rw [hdecoder]; exact (Option.some_ne_none _).symm
    | push => rw [hpush]; exact (Option.some_ne_none _).symm

end wt_rs.System
