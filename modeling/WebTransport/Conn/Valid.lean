import WebTransport.Conn.Place

open rust rust.Outcome rust.Async quinn wt_proto.coding wt_proto.h3

namespace wt_rs

namespace Acceptor

/-- The stream is one that the acceptor gets from the connection. It has had the connection since
`first` streams were accepted. -/
def Expects (first : Dir → Nat) (acceptor : Acceptor) (key : StreamId) : Prop :=
  key.initiator = acceptor.conn.side.peer ∧ first key.dir ≤ key.index

/-- The acceptor has got the stream from the connection. -/
def Obtained (first : Dir → Nat) (acceptor : Acceptor) (key : StreamId) : Prop :=
  acceptor.Expects first key ∧ key.index < acceptor.conn.accepted key.dir

/-- Every stream is in its place, after `returned` have been returned. -/
structure Valid (first : Dir → Nat) (acceptor : Acceptor) (returned : List StreamId) : Prop where
  bound : ∀ dir, first dir ≤ acceptor.conn.accepted dir ∧ acceptor.conn.accepted dir ≤ acceptor.conn.opened dir
  dir_eq : ∀ {dir key task}, (acceptor.accept.drained dir).tasks.lookup key = some task → key.dir = dir
  place : ∀ key, Place acceptor.conn.side.peer (first key.dir) acceptor.accept.id key
    (acceptor.conn.accepted key.dir) ((acceptor.accept.drained key.dir).tasks.lookup key) (returned.count key)
    (acceptor.conn.streams key)

variable {dir : Dir} {cx : TaskId} {first : Dir → Nat} {self next : Acceptor} {returned : List StreamId}
  {key : StreamId} {task : QueuedFuture PendingHeader}

theorem set_queue_drained_ne {dir' : Dir} (hdir : dir' ≠ dir) (drained : Drained)
    (streams : StreamId → RecvStream) :
    (self.set_queue dir drained streams).accept.drained dir' = self.accept.drained dir' := by
  simp [Acceptor.set_queue, set_drained, hdir]

section take

variable (self : Acceptor) (dir : Dir)

theorem take_accepted : (self.take dir).conn.accepted dir = self.conn.accepted dir + 1 :=
  Function.update_self dir _ self.conn.accepted

theorem take_drained : ((self.take dir).accept.drained dir).tasks =
    (self.accept.drained dir).tasks.insert (self.conn.incoming dir (self.conn.accepted dir))
      ⟨decode dir self.accept.id (self.conn.incoming dir (self.conn.accepted dir)), true⟩ := by
  simp [Acceptor.take, set_drained, FuturesUnordered.push]

variable {self dir} {dir' : Dir}

theorem take_accepted_ne (hdir : dir' ≠ dir) : (self.take dir).conn.accepted dir' = self.conn.accepted dir' :=
  Function.update_of_ne hdir _ self.conn.accepted

theorem take_drained_ne (hdir : dir' ≠ dir) : (self.take dir).accept.drained dir' = self.accept.drained dir' := by
  simp [Acceptor.take, set_drained, hdir]

end take

namespace Valid

/-- One stream, with its place in its queue, changes: its new place has to be right. -/
theorem set_queue (hvalid : self.Valid first returned) {tasks : AList fun _ => QueuedFuture PendingHeader}
    {waker : Option TaskId} {returned' : List StreamId} {stream : RecvStream}
    (htasks : ∀ key' ≠ key, tasks.lookup key' = (self.accept.drained key.dir).tasks.lookup key')
    (hreturned : ∀ key' ≠ key, returned'.count key' = returned.count key')
    (hplace : Place self.conn.side.peer (first key.dir) self.accept.id key (self.conn.accepted key.dir)
      (tasks.lookup key) (returned'.count key) stream) :
    (self.set_queue key.dir { tasks, waker } (Function.update self.conn.streams key stream)).Valid
      first returned' where
  bound := hvalid.bound
  dir_eq {dir' key' task'} h := by
    by_cases hdir : dir' = key.dir
    · subst hdir
      rw [set_queue_drained] at h
      by_cases hkey : key' = key
      · rw [hkey]
      · exact hvalid.dir_eq (htasks key' hkey ▸ h)
    · rw [set_queue_drained_ne hdir] at h
      exact hvalid.dir_eq h
  place key' := by
    rw [set_queue_streams]
    by_cases hkey : key' = key
    · subst hkey
      rw [set_queue_drained, Function.update_self]
      exact hplace
    · rw [Function.update_of_ne hkey, hreturned key' hkey]
      by_cases hdir : key'.dir = key.dir
      · rw [hdir, set_queue_drained, htasks key' hkey, ← hdir]
        exact hvalid.place key'
      · rw [set_queue_drained_ne hdir]
        exact hvalid.place key'

/-- A queued stream is one that was accepted and not returned, and the future in the queue
reads on where its header was left. -/
theorem queued (hvalid : self.Valid first returned)
    (hlookup : (self.accept.drained dir).tasks.lookup key = some task) :
    Place self.conn.side.peer (first key.dir) self.accept.id key (self.conn.accepted key.dir)
        (some task) (returned.count key) (self.conn.streams key) ∧ key.dir = dir := by
  obtain rfl := hvalid.dir_eq hlookup
  have hplace := hvalid.place key
  rw [hlookup] at hplace
  exact ⟨hplace, rfl⟩

/-- The streams in the queue come from the connection. -/
theorem expects (hvalid : self.Valid first returned)
    (hlookup : (self.accept.drained dir).tasks.lookup key = some task) : self.Expects first key := by
  obtain ⟨hplace, rfl⟩ := hvalid.queued hlookup
  generalize returned.count key = count at hplace
  cases hplace with
  | queued hinitiator hfirst hindex hresidual hidle => exact ⟨hinitiator, hfirst⟩

/-- An accepted stream is in the queue. -/
theorem take (hvalid : self.Valid first returned) (hopened : self.conn.accepted dir < self.conn.opened dir) :
    (self.take dir).Valid first returned where
  bound dir' := by
    have hbound := hvalid.bound dir'
    by_cases hdir : dir' = dir
    · subst hdir
      rw [take_accepted]
      exact ⟨Nat.le_succ_of_le hbound.1, hopened⟩
    · rw [take_accepted_ne hdir]
      exact hbound
  dir_eq {dir' key' task'} h := by
    by_cases hdir : dir' = dir
    · subst hdir
      rw [take_drained] at h
      by_cases hkey : key' = self.conn.incoming dir' (self.conn.accepted dir')
      · rw [hkey]
        rfl
      · rw [AList.lookup_insert_ne hkey] at h
        exact hvalid.dir_eq h
    · rw [take_drained_ne hdir] at h
      exact hvalid.dir_eq h
  place key' := by
    have hplace := hvalid.place key'
    by_cases hdir : key'.dir = dir
    · subst hdir
      rw [take_accepted, take_drained]
      by_cases hkey : key' = self.conn.incoming key'.dir (self.conn.accepted key'.dir)
      · obtain ⟨htaken, hcount⟩ := hplace.untouched (by rw [hkey]; rfl) (hvalid.bound key'.dir).1
          (by rw [hkey]; rfl)
        rw [← hkey, AList.lookup_insert, hcount]
        refine .queued (by rw [hkey]; rfl) ?_ ?_ ?_ Bool.noConfusion
        · rw [hkey]
          exact (hvalid.bound key'.dir).1
        · rw [hkey]
          exact Nat.lt_succ_self _
        · change Residual key'.dir self.accept.id key' (self.conn.streams key').taken _
          rw [htaken]
          exact residual_nil key'.dir self.accept.id key'
      · rw [AList.lookup_insert_ne hkey]
        refine hplace.accept fun hinitiator hindex => hkey ?_
        rw [← hindex, quinn.Connection.incoming, ← hinitiator]
    · rw [take_accepted_ne hdir, take_drained_ne hdir]
      exact hplace

/-- A header read has been polled and not finished. -/
theorem advance {future future' : PendingHeader} {streams : StreamId → RecvStream} {ready : Bool}
    (hvalid : self.Valid first returned)
    (hlookup : (self.accept.drained dir).tasks.lookup key = some ⟨future, ready⟩)
    (hpoll : poll_header self.conn.lost key future self.conn.streams = (.inl future', streams)) :
    (self.set_queue dir { self.accept.drained dir with
      tasks := (self.accept.drained dir).tasks.insert key ⟨future', false⟩ } streams).Valid
        first returned := by
  obtain ⟨hplace, rfl⟩ := hvalid.queued hlookup
  generalize hcount : returned.count key = count at hplace
  cases hplace with
  | queued hinitiator hfirst hindex hresidual hidle =>
    obtain ⟨stream, rfl, -, -, hpolled⟩ := poll_header_spec hresidual hpoll
    cases hpolled with
    | wait hheadless hlive hresidual' =>
      refine hvalid.set_queue (fun key' hkey => AList.lookup_insert_ne hkey) (fun _ _ => rfl) ?_
      rw [AList.lookup_insert, hcount]
      exact .queued hinitiator hfirst hindex hresidual' fun _ => hheadless

/-- A header read has finished, and its stream is returned or given up. -/
theorem finish {future : PendingHeader} {streams : StreamId → RecvStream} {ready : Bool}
    {result : Outcome WTError (VarInt × StreamId)}
    (hvalid : self.Valid first returned)
    (hlookup : (self.accept.drained dir).tasks.lookup key = some ⟨future, ready⟩)
    (hpoll : poll_header self.conn.lost key future self.conn.streams = (.inr result, streams)) :
    ∃ stream, streams = Function.update self.conn.streams key stream ∧
      stream.received = (self.conn.streams key).received ∧ stream.ended = (self.conn.streams key).ended ∧
      Polled key.dir self.accept.id key self.conn.lost stream (.inr result) ∧
      (Discarded self.accept.id key.dir stream → (self.set_queue dir { self.accept.drained dir with
        tasks := (self.accept.drained dir).tasks.erase key } streams).Valid first returned) ∧
      (Header stream.taken (webtransport key.dir) self.accept.id [] →
        (self.set_queue dir { self.accept.drained dir with
          tasks := (self.accept.drained dir).tasks.erase key } streams).Valid first (key :: returned)) := by
  obtain ⟨hplace, rfl⟩ := hvalid.queued hlookup
  generalize hcount : returned.count key = count at hplace
  cases hplace with
  | queued hinitiator hfirst hindex hresidual hidle =>
    obtain ⟨stream, rfl, hreceived, hended, hpolled⟩ := poll_header_spec hresidual hpoll
    refine ⟨stream, rfl, hreceived, hended, hpolled, fun hdiscarded => ?_, fun hheader => ?_⟩
    · refine hvalid.set_queue (fun key' hkey => AList.lookup_erase_ne hkey) (fun _ _ => rfl) ?_
      rw [AList.lookup_erase, hcount]
      exact .discarded hinitiator hfirst hindex hdiscarded
    · refine hvalid.set_queue (fun key' hkey => AList.lookup_erase_ne hkey)
        (fun key' hkey => List.count_cons_of_ne hkey.symm) ?_
      rw [AList.lookup_erase, List.count_cons_self, hcount]
      exact .returned hinitiator hfirst hindex hheader

/-- A stream that is for somebody else is discarded. -/
theorem other {future : PendingHeader} {streams : StreamId → RecvStream} {stype : VarInt} {key' : StreamId}
    (hvalid : self.Valid first returned)
    (hlookup : (self.accept.drained dir).tasks.lookup key = some ⟨future, true⟩)
    (hpoll : poll_header self.conn.lost key future self.conn.streams = (.inr (ok (stype, key')), streams))
    (hdispatch : dispatch dir stype ≠ .deliver) :
    (self.set_queue dir { self.accept.drained dir with
      tasks := (self.accept.drained dir).tasks.erase key } streams).Valid first returned := by
  obtain ⟨stream, rfl, -, -, hpolled, hdiscard, -⟩ := hvalid.finish hlookup hpoll
  obtain ⟨rfl, hheader⟩ := hpolled.header_of_ok
  refine hdiscard (.inl ⟨stype, self.accept.id, hheader, fun hwebtransport => hdispatch ?_⟩)
  rw [dispatch_eq_deliver_iff, hwebtransport.1, hvalid.dir_eq hlookup]

/-- A waker in the queue moves no stream. -/
theorem waker (hvalid : self.Valid first returned) (waker : Option TaskId) :
    (self.set_drained dir { self.accept.drained dir with waker }).Valid first returned := by
  have htasks (dir' : Dir) : ((self.set_drained dir { self.accept.drained dir with waker }).accept.drained
      dir').tasks = (self.accept.drained dir').tasks := by
    by_cases hdir : dir' = dir
    · subst hdir
      simp [set_drained]
    · simp [set_drained, hdir]
  refine ⟨hvalid.bound, fun {dir' key' task'} h => ?_, fun key' => ?_⟩
  · rw [htasks] at h
    exact hvalid.dir_eq h
  · rw [htasks]
    exact hvalid.place key'

/-- A turn of the loop leaves every stream in its place, or moves one from the queue into the place it
belongs to. -/
theorem turn (hturn : Turn dir cx self next) (hvalid : self.Valid first returned) :
    next.Valid first returned := by
  cases hturn with
  | take hopened => exact hvalid.take hopened
  | accepting => exact ⟨hvalid.bound, hvalid.dir_eq, hvalid.place⟩
  | waker => exact hvalid.waker (some cx)
  | advance hlost hlookup hpoll => exact hvalid.advance hlookup hpoll
  | store hlost hlookup hpoll hdispatch =>
    have hother := hvalid.other hlookup hpoll (by rw [hdispatch]; exact Dispatch.noConfusion)
    exact ⟨hother.bound, hother.dir_eq, hother.place⟩
  | ignore hlost hlookup hpoll hdispatch =>
    exact hvalid.other hlookup hpoll (by rw [hdispatch]; exact Dispatch.noConfusion)

/-- Some turns leave every stream in its place. -/
theorem turns (hturns : Turns dir cx self next) (hvalid : self.Valid first returned) :
    next.Valid first returned := by
  induction hturns with
  | refl => exact hvalid
  | tail _ hturn ih => exact ih.turn hturn

/-- At the end of a poll the stream that is returned, if there is one, is counted. -/
theorem ends {completion : Completion} (hends : Ends dir self completion next)
    (hvalid : self.Valid first returned) : next.Valid first (completion.returned ++ returned) := by
  cases hends with
  | lost => exact hvalid
  | deliver hlost hlookup hpoll hdispatch =>
    obtain ⟨stream, rfl, -, -, hpolled, -, hdeliver⟩ := hvalid.finish hlookup hpoll
    obtain ⟨rfl, hheader⟩ := hpolled.header_of_ok
    rw [dispatch_eq_deliver_iff] at hdispatch
    rw [hdispatch, ← hvalid.dir_eq hlookup] at hheader
    exact hdeliver hheader
  | fail hlost hlookup hpoll =>
    obtain ⟨stream, rfl, -, -, hpolled, hdiscard, -⟩ := hvalid.finish hlookup hpoll
    refine hdiscard ?_
    obtain ⟨stype, sid, hheader, hsid⟩ | ⟨hheadless, hunread, hover⟩ := hpolled.cause_of_err
    · exact .inl ⟨stype, sid, hheader, fun hwebtransport => hsid hwebtransport.2⟩
    · exact .inr ⟨hheadless, hunread, hover.resolve_right (not_not_intro hlost)⟩

end Valid

end Acceptor

end wt_rs
