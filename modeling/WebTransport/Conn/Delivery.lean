import WebTransport.Conn.Frame
import WebTransport.Conn.Total
import WebTransport.Conn.System
import WebTransport.Transition.Run

open rust rust.Outcome quinn wt_proto.coding transition

namespace wt_rs

/-- What may happen to a stream without a poll leaves alone what has been read. -/
theorem Place.arrive {peer : Side} {first accepted count : Nat} {id : VarInt} {key : StreamId}
    {pending : Option (QueuedFuture PendingHeader)} {stream stream' : RecvStream}
    (hplace : Place peer first id key accepted pending count stream) (htaken : stream'.taken = stream.taken)
    (hdiscarded : Discarded id key.dir stream → Discarded id key.dir stream') :
    Place peer first id key accepted (pending.map fun task => ⟨task.future, true⟩) count stream' := by
  cases hplace with
  | foreign hinitiator => exact .foreign hinitiator
  | before hindex => exact .before hindex
  | ahead hinitiator hindex hempty => exact .ahead hinitiator hindex (htaken.trans hempty)
  | queued hinitiator hfirst hindex hresidual hidle =>
    exact .queued hinitiator hfirst hindex (htaken ▸ hresidual) Bool.noConfusion
  | returned hinitiator hfirst hindex hheader =>
    exact .returned hinitiator hfirst hindex (htaken ▸ hheader)
  | discarded hinitiator hfirst hindex h => exact .discarded hinitiator hfirst hindex (hdiscarded h)

namespace System

section fields

variable (self : System) (waker : Option TaskId) (key : StreamId) (change : RecvStream → RecvStream) (dir : Dir)

@[simp] theorem wake_shared : (self.wake waker).shared = self.shared := by
  cases waker <;> rfl

@[simp] theorem wake_calls : (self.wake waker).calls = self.calls := by
  cases waker <;> rfl

@[simp] theorem wake_log : (self.wake waker).log = self.log := by
  cases waker <;> rfl

@[simp] theorem wake_sent : (self.wake waker).sent = self.sent := by
  cases waker <;> rfl

theorem arrive_shared : (self.arrive key change).shared = self.shared.set_queue key.dir
    ((self.shared.accept.drained key.dir).wake key).1
    (Function.update self.shared.conn.streams key (change (self.shared.conn.streams key))) :=
  wake_shared _ _

@[simp] theorem arrive_calls : (self.arrive key change).calls = self.calls := wake_calls _ _

@[simp] theorem arrive_log : (self.arrive key change).log = self.log := wake_log _ _

@[simp] theorem arrive_sent : (self.arrive key change).sent = self.sent := wake_sent _ _

@[simp] theorem notify_shared : (self.notify dir).shared = self.shared.set_accepting dir none :=
  wake_shared _ _

@[simp] theorem notify_calls : (self.notify dir).calls = self.calls := wake_calls _ _

@[simp] theorem notify_log : (self.notify dir).log = self.log := wake_log _ _

@[simp] theorem notify_sent : (self.notify dir).sent = self.sent := wake_sent _ _

end fields

variable {id : VarInt} {side : Side} {first : Dir → Nat} {self next : System} {event : Event} {key : StreamId}
  {change : RecvStream → RecvStream}

/-- What a wake-up keeps is kept by all those that a lost connection causes. -/
theorem foldl_arrive (P : System → Prop)
    (harrive : ∀ {self : System} key, P self → P (self.arrive key fun stream => stream))
    (keys : List StreamId) (h : P self) :
    P (keys.foldl (fun self key => self.arrive key fun stream => stream) self) := by
  induction keys generalizing self with
  | nil => exact h
  | cons key keys ih => exact ih (harrive key h)

/-- What survives wakes survives the loss of the connection. -/
theorem close_induction (P : System → Prop) {error : ConnectionError}
    (hlost : P { self with shared.conn.lost := some error })
    (hnotify : ∀ {self : System} dir, P self → P (self.notify dir))
    (harrive : ∀ {self : System} key, P self → P (self.arrive key fun stream => stream)) :
    P (self.close error) :=
  foldl_arrive P harrive _ (hnotify .Bi (hnotify .Uni hlost))

/-- Every stream is in its place, and the accept calls for one kind of streams come back with
streams of that kind. -/
structure Valid (id : VarInt) (side : Side) (first : Dir → Nat) (system : System) : Prop where
  shared : system.shared.Valid first system.returned
  id_eq : system.shared.accept.id = id
  side_eq : system.shared.conn.side = side
  dirs : ∀ entry ∈ system.log, ∀ key ∈ entry.completion.returned, key.dir = entry.dir

namespace Valid

/-- Whatever happens on a stream, it stays in its place, if bytes that have been read stay read and a
stream that is nobody's stays so. -/
theorem arrive (hvalid : self.Valid id side first)
    (htaken : (change (self.shared.conn.streams key)).taken = (self.shared.conn.streams key).taken)
    (hdiscarded : Discarded id key.dir (self.shared.conn.streams key) →
      Discarded id key.dir (change (self.shared.conn.streams key))) :
    (self.arrive key change).Valid id side first := by
  have hshared := hvalid.shared
  have hplace := (hshared.place key).arrive htaken (hvalid.id_eq ▸ hdiscarded)
  rw [← FuturesUnordered.lookup_wake_self] at hplace
  refine ⟨?_, ?_, ?_, ?_⟩
  · rw [returned, arrive_log, arrive_shared]
    exact hshared.set_queue (fun _ hkey => FuturesUnordered.lookup_wake_ne _ hkey) (fun _ _ => rfl) hplace
  · rw [arrive_shared]
    exact hvalid.id_eq
  · rw [arrive_shared]
    exact hvalid.side_eq
  · rw [arrive_log]
    exact hvalid.dirs

/-- A waker moves no stream. -/
theorem notify (hvalid : self.Valid id side first) (dir : Dir) : (self.notify dir).Valid id side first := by
  refine ⟨?_, ?_, ?_, ?_⟩
  · rw [returned, notify_log, notify_shared]
    exact ⟨hvalid.shared.bound, hvalid.shared.dir_eq, hvalid.shared.place⟩
  · rw [notify_shared]
    exact hvalid.id_eq
  · rw [notify_shared]
    exact hvalid.side_eq
  · rw [notify_log]
    exact hvalid.dirs

/-- On a live stream only the bytes and the end change. -/
theorem arrive_live (hvalid : self.Valid id side first) (hlive : self.Live key)
    (htaken : (change (self.shared.conn.streams key)).taken = (self.shared.conn.streams key).taken) :
    (self.arrive key change).Valid id side first := by
  refine hvalid.arrive htaken ?_
  rintro (hheader | ⟨-, -, hended⟩)
  · rw [Discarded, htaken]
    exact .inl hheader
  · exact absurd hlive.2.2.1 hended

/-- Every event leaves every stream in its place. -/
theorem move (hvalid : self.Valid id side first) (hmove : Move self event next) :
    next.Valid id side first := by
  cases hmove with
  | @peer_opens dir hlost =>
    refine @Valid.notify id side first (self.open_stream dir)
      ⟨⟨fun dir' => ?_, hvalid.shared.dir_eq, hvalid.shared.place⟩, hvalid.id_eq, hvalid.side_eq, hvalid.dirs⟩ dir
    have hbound := hvalid.shared.bound dir'
    refine ⟨hbound.1, hbound.2.trans ?_⟩
    by_cases hdir : dir' = dir
    · subst hdir
      simp [open_stream]
    · simp [open_stream, hdir]
  | @bytes key data hlive =>
    have h := @arrive_live id side first self key (·.push data) hvalid hlive rfl
    exact ⟨h.shared, h.id_eq, h.side_eq, h.dirs⟩
  | finish hlive => exact hvalid.arrive_live hlive rfl
  | reset hlive => exact hvalid.arrive_live hlive rfl
  | close hlost =>
    refine close_induction (fun system => system.Valid id side first) ?_ (fun dir h => h.notify dir)
      (fun key h => h.arrive rfl fun hdiscarded => hdiscarded)
    exact ⟨⟨hvalid.shared.bound, hvalid.shared.dir_eq, hvalid.shared.place⟩, hvalid.id_eq,
      hvalid.side_eq, hvalid.dirs⟩
  | wait hpolls hpoll =>
    have hframe := Acceptor.poll_accept_frame hvalid.shared hpoll
    exact ⟨Acceptor.poll_accept_valid hvalid.shared hpoll, hframe.id.trans hvalid.id_eq,
      hframe.side.trans hvalid.side_eq, hvalid.dirs⟩
  | @complete event task dir order shared completion hpolls hpoll =>
    have hframe := Acceptor.poll_accept_frame hvalid.shared hpoll
    have hshared := Acceptor.poll_accept_valid hvalid.shared hpoll
    refine ⟨hshared, hframe.id.trans hvalid.id_eq, hframe.side.trans hvalid.side_eq,
      List.forall_mem_cons.mpr ⟨fun key hkey => ?_, hvalid.dirs⟩⟩
    exact Acceptor.poll_accept_returned hvalid.shared hpoll hkey
  | cancel hcall => exact ⟨hvalid.shared, hvalid.id_eq, hvalid.side_eq, hvalid.dirs⟩

/-- At the start no stream has been accepted. -/
theorem new (id : VarInt) (side : Side) (first : Dir → Nat) : (System.new id side first).Valid id side first where
  shared := by
    refine ⟨fun dir => ⟨Nat.le_refl _, Nat.le_refl _⟩, fun {dir key task} h => ?_, fun key => ?_⟩
    · cases h
    · change Place side.peer (first key.dir) id key (first key.dir) none 0 .opened
      by_cases hinitiator : key.initiator = side.peer
      · by_cases hindex : key.index < first key.dir
        · exact .before hindex
        · exact .ahead hinitiator (Nat.le_of_not_lt hindex) rfl
      · exact .foreign hinitiator
  id_eq := rfl
  side_eq := rfl
  dirs _ h := by cases h

end Valid

/-- Every stream is in its place after any events, in any order. -/
theorem valid_of_reachable (hrun : Reachable step (System.new id side first) self) : self.Valid id side first :=
  hrun.invariant (fun system => system.Valid id side first) (.new id side first)
    fun hvalid _ hstep => hvalid.move (move_of_step hstep)

/-- In every run, no stream is returned twice; a stream is returned to a call for its kind, and
only when its header names the session, which is then all that has been read of it; and a stream
whose header names the session is in the queue until it is returned, from when the acceptor has
got it. Every poll comes back. -/
theorem exactly_once (hrun : Reachable step (System.new id side first) self) :
    self.returned.Nodup ∧
      (∀ entry ∈ self.log, ∀ key, entry.completion.result = ok key →
        key.dir = entry.dir ∧ self.shared.Obtained first key ∧
          Header (self.shared.conn.streams key).taken (webtransport key.dir) id []) ∧
      (∀ key rest, self.shared.Obtained first key →
        Header (self.shared.conn.streams key).received (webtransport key.dir) id rest →
          key ∈ (self.shared.accept.drained key.dir).tasks ∧ self.returned.count key = 0 ∨
            key ∉ (self.shared.accept.drained key.dir).tasks ∧ self.returned.count key = 1) ∧
      ∀ task dir order, ∃ next, self.poll task dir order = some next := by
  have hvalid := valid_of_reachable hrun
  refine ⟨List.nodup_iff_count_le_one.mpr fun key => ?_, fun entry hentry key hresult => ?_,
    fun key rest hobtained hheader => ?_, fun task dir order => ?_⟩
  · exact (hvalid.shared.place key).count_le
  · have hreturned : key ∈ entry.completion.returned := by
      rw [Completion.returned, hresult]
      exact List.mem_singleton_self key
    have hmem : key ∈ self.returned := List.mem_flatMap.mpr ⟨entry, hentry, hreturned⟩
    obtain ⟨hinitiator, hfirst, hindex, hheader⟩ :=
      (hvalid.shared.place key).of_returned (List.count_pos_iff.mpr hmem)
    rw [hvalid.id_eq] at hheader
    exact ⟨hvalid.dirs entry hentry key hreturned, ⟨⟨hinitiator, hfirst⟩, hindex⟩, hheader⟩
  · obtain ⟨⟨hinitiator, hfirst⟩, hindex⟩ := hobtained
    rw [← hvalid.id_eq] at hheader
    rw [← AList.lookup_isSome, Option.isSome_iff_ne_none, not_not]
    exact (hvalid.shared.place key).of_header hinitiator hfirst hindex hheader
  · obtain ⟨out, shared, hpoll⟩ := @Acceptor.poll_accept_returns dir task order _ _ _ hvalid.shared
    rw [poll, hpoll]
    cases out with
    | Pending => exact ⟨_, rfl⟩
    | Ready completion => exact ⟨_, rfl⟩

/-- A stream whose header arrives is returned by the call that waits for it. -/
theorem exactly_once_one_stream :
    ∃ system, Reachable step (new (.from_u32 0) .Server fun _ => 0) system ∧
      system.returned = [⟨.Client, .Uni, 0⟩] ∧ system.returned.Nodup := by
  have hreturned : (steps step (new (.from_u32 0) .Server fun _ => 0) [.peer_opens .Uni, .call 7 .Uni [],
      .bytes ⟨.Client, .Uni, 0⟩ [0x40, 0x54, 0x00, 0x2a], .repoll 7 []]).map (·.returned) =
        some [⟨.Client, .Uni, 0⟩] := by decide
  obtain ⟨system, hsteps, hreturned⟩ := Option.map_eq_some_iff.mp hreturned
  have hrun := Reachable.steps .start hsteps
  exact ⟨system, hrun, hreturned, (exactly_once hrun).1⟩

end System

end wt_rs
