import Mathlib.Logic.Relation
import WebTransport.Conn.Accept

open rust rust.Outcome rust.Async quinn wt_proto.coding wt_proto.h3

namespace wt_rs.Acceptor

section fields

variable (self : Acceptor) (dir : Dir) (drained drained' : Drained)
  (streams streams' : StreamId → RecvStream) (waker : Option TaskId) (slot : Slot) (stream : StreamId)

@[simp] theorem set_queue_drained :
    (self.set_queue dir drained streams).accept.drained dir = drained := by
  simp [set_queue, set_drained]

@[simp] theorem set_queue_streams : (self.set_queue dir drained streams).conn.streams = streams := rfl

@[simp] theorem set_queue_set_queue :
    (self.set_queue dir drained streams).set_queue dir drained' streams' =
      self.set_queue dir drained' streams' := by
  simp [set_queue, set_drained]

@[simp] theorem set_accepting_accepting : (self.set_accepting dir waker).accept.accepting dir = waker := by
  simp [set_accepting]

end fields

/-- What a poll does on its way: it accepts a stream, leaves its waker, goes on with a header
read, or puts a stream that is not for the caller in its place. -/
inductive Turn (dir : Dir) (cx : TaskId) : Acceptor → Acceptor → Prop where
  | take {self : Acceptor} (hopened : self.conn.accepted dir < self.conn.opened dir) :
      Turn dir cx self (self.take dir)
  | accepting {self : Acceptor} : Turn dir cx self (self.set_accepting dir (some cx))
  | waker {self : Acceptor} :
      Turn dir cx self (self.set_drained dir { self.accept.drained dir with waker := some cx })
  | advance {self : Acceptor} {key : StreamId} {future future' : PendingHeader}
      {streams : StreamId → RecvStream} (hlost : self.conn.lost = none)
      (hlookup : (self.accept.drained dir).tasks.lookup key = some ⟨future, true⟩)
      (hpoll : poll_header self.conn.lost key future self.conn.streams = (.inl future', streams)) :
      Turn dir cx self (self.set_queue dir { self.accept.drained dir with
        tasks := (self.accept.drained dir).tasks.insert key ⟨future', false⟩ } streams)
  | store {self : Acceptor} {key stream : StreamId} {future : PendingHeader} {stype : VarInt}
      {slot : Slot} {streams : StreamId → RecvStream} (hlost : self.conn.lost = none)
      (hlookup : (self.accept.drained dir).tasks.lookup key = some ⟨future, true⟩)
      (hpoll : poll_header self.conn.lost key future self.conn.streams =
        (.inr (ok (stype, stream)), streams)) (hdispatch : dispatch dir stype = .store slot) :
      Turn dir cx self ((self.set_queue dir { self.accept.drained dir with
        tasks := (self.accept.drained dir).tasks.erase key } streams).store slot stream)
  | ignore {self : Acceptor} {key stream : StreamId} {future : PendingHeader} {stype : VarInt}
      {streams : StreamId → RecvStream} (hlost : self.conn.lost = none)
      (hlookup : (self.accept.drained dir).tasks.lookup key = some ⟨future, true⟩)
      (hpoll : poll_header self.conn.lost key future self.conn.streams =
        (.inr (ok (stype, stream)), streams)) (hdispatch : dispatch dir stype = .ignore) :
      Turn dir cx self (self.set_queue dir { self.accept.drained dir with
        tasks := (self.accept.drained dir).tasks.erase key } streams)

/-- How a poll comes to its result. -/
inductive Ends (dir : Dir) : Acceptor → Completion → Acceptor → Prop where
  | lost {self : Acceptor} {error : ConnectionError} (hlost : self.conn.lost = some error) :
      Ends dir self ⟨none, err (.ConnectionError error)⟩ self
  | deliver {self : Acceptor} {key stream : StreamId} {future : PendingHeader} {stype : VarInt}
      {streams : StreamId → RecvStream} (hlost : self.conn.lost = none)
      (hlookup : (self.accept.drained dir).tasks.lookup key = some ⟨future, true⟩)
      (hpoll : poll_header self.conn.lost key future self.conn.streams =
        (.inr (ok (stype, stream)), streams)) (hdispatch : dispatch dir stype = .deliver) :
      Ends dir self ⟨some key, ok stream⟩ (self.set_queue dir { self.accept.drained dir with
        tasks := (self.accept.drained dir).tasks.erase key } streams)
  | fail {self : Acceptor} {key : StreamId} {future : PendingHeader} {error : WTError}
      {streams : StreamId → RecvStream} (hlost : self.conn.lost = none)
      (hlookup : (self.accept.drained dir).tasks.lookup key = some ⟨future, true⟩)
      (hpoll : poll_header self.conn.lost key future self.conn.streams =
        (.inr (err error), streams)) :
      Ends dir self ⟨some key, err error⟩ (self.set_queue dir { self.accept.drained dir with
        tasks := (self.accept.drained dir).tasks.erase key } streams)

/-- There is nothing to do for a poll. -/
structure Idle (acceptor : Acceptor) (dir : Dir) : Prop where
  all_accepted : acceptor.conn.opened dir ≤ acceptor.conn.accepted dir
  not_lost : acceptor.conn.lost = none
  idle : ∀ key task, (acceptor.accept.drained dir).tasks.lookup key = some task → task.ready = false

/-- A poll that has to wait leaves nothing to do, and its waker in both places. -/
structure Waiting (acceptor : Acceptor) (dir : Dir) (cx : TaskId) : Prop extends Idle acceptor dir where
  accepting : acceptor.accept.accepting dir = some cx
  waker : (acceptor.accept.drained dir).waker = some cx

variable {dir : Dir} {cx : TaskId} {order : List StreamId} {self next : Acceptor}

/-- Some turns. -/
abbrev Turns (dir : Dir) (cx : TaskId) : Acceptor → Acceptor → Prop :=
  Relation.ReflTransGen (Turn dir cx)

/-- `drain` takes turns until nothing is left to accept. Then it leaves its waker on a live connection,
and comes back with the error of a lost one. -/
theorem drain_spec {fuel : Nat} {drained : Poll (Except WTError Unit)}
    (h : self.drain dir cx fuel = ok (drained, next)) :
    Turns dir cx self next ∧ next.conn.opened dir ≤ next.conn.accepted dir ∧
      ((∃ error, drained = .Ready (.error (.ConnectionError error)) ∧
          next.conn.lost = some error) ∨
        drained = .Ready (.ok ()) ∧ next.conn.lost = none ∧
          next.accept.accepting dir = some cx) := by
  induction fuel generalizing self with
  | zero => cases h
  | succ fuel ih =>
    rw [drain] at h
    split_ifs at h with hopened
    · obtain ⟨hturns, hrest⟩ := ih h
      exact ⟨.head (.take hopened) hturns, hrest⟩
    · cases hlost : self.conn.lost with
      | some error =>
        rw [hlost] at h
        cases h
        exact ⟨.refl, Nat.le_of_not_lt hopened, .inl ⟨error, rfl, hlost⟩⟩
      | none =>
        rw [hlost] at h
        cases h
        exact ⟨.single .accepting, Nat.le_of_not_lt hopened,
          .inr ⟨rfl, hlost, set_accepting_accepting self dir (some cx)⟩⟩

/-- The queue after some polls that have not finished is reached by turns. -/
private theorem turns_of_advance (hlost : self.conn.lost = none) {waker : Option TaskId} {start : Acceptor}
    {tasks : AList fun _ : StreamId => QueuedFuture PendingHeader} {streams : StreamId → RecvStream}
    {key : StreamId} {future future' : PendingHeader} {streams' : StreamId → RecvStream}
    (hturns : Turns dir cx start (self.set_queue dir { tasks, waker } streams))
    (hlookup : tasks.lookup key = some ⟨future, true⟩)
    (hpoll : poll_header self.conn.lost key future streams = (.inl future', streams')) :
    Turns dir cx start
      (self.set_queue dir { tasks := tasks.insert key ⟨future', false⟩, waker } streams') := by
  have hturn := @Turn.advance dir cx (self.set_queue dir { tasks, waker } streams) key future future'
    streams' hlost (by simpa using hlookup) hpoll
  rw [set_queue_set_queue, set_queue_drained] at hturn
  exact hturns.tail hturn

/-- A selection polls the queue, whose waker is then `cx`. -/
private theorem select_eq (dir : Dir) (cx : TaskId) (order : List StreamId) (self : Acceptor) :
    self.select dir cx order =
      match FuturesUnordered.poll_loop (poll_header self.conn.lost)
        (order ++ (self.accept.drained dir).tasks.keys) (self.accept.drained dir).tasks
        self.conn.streams with
      | (some out, tasks, streams) =>
        (.Ready out, self.set_queue dir { tasks, waker := some cx } streams)
      | (none, tasks, streams) => (.Pending, self.set_queue dir { tasks, waker := some cx } streams) := by
  unfold select FuturesUnordered.poll_next
  obtain ⟨out, tasks, streams⟩ := FuturesUnordered.poll_loop (poll_header self.conn.lost)
    (order ++ (self.accept.drained dir).tasks.keys) (self.accept.drained dir).tasks self.conn.streams
  cases out with
  | some out => rfl
  | none =>
    by_cases hempty : tasks.keys.isEmpty = true
    · simp only [if_pos hempty]
    · simp only [if_neg hempty]

private theorem turns_waker (dir : Dir) (cx : TaskId) (self : Acceptor) :
    Turns dir cx self (self.set_queue dir
      { tasks := (self.accept.drained dir).tasks, waker := some cx } self.conn.streams) :=
  .single .waker

/-- A selection that finds nothing leaves the queue without a header read to poll. -/
theorem select_pending (hlost : self.conn.lost = none) (h : self.select dir cx order = (.Pending, next)) :
    Turns dir cx self next ∧ ∃ tasks streams,
      next = self.set_queue dir { tasks, waker := some cx } streams ∧
      ∀ key task, tasks.lookup key = some task → task.ready = false := by
  rw [select_eq] at h
  split at h
  · cases h
  · rename_i tasks streams hloop
    cases h
    refine ⟨?_, tasks, streams, rfl, fun key task htask => ?_⟩
    · exact FuturesUnordered.poll_loop_none
        (fun tasks streams => Turns dir cx self
          (self.set_queue dir { tasks, waker := some cx } streams))
        (fun _ _ _ _ _ _ => turns_of_advance hlost) (turns_waker dir cx self) hloop
    · have hmem : key ∈ (self.accept.drained dir).tasks :=
        (FuturesUnordered.mem_of_poll_loop hloop key).mp (FuturesUnordered.mem_iff_lookup.mpr ⟨task, htask⟩)
      exact FuturesUnordered.poll_loop_idle hloop
        (List.mem_append_right order (AList.mem_keys.mp hmem)) task htask

/-- A selection that finds something has polled a header read that has finished, and has taken
it from the queue. -/
theorem select_ready {cause : StreamId} {result : Outcome WTError (VarInt × StreamId)}
    (hlost : self.conn.lost = none)
    (h : self.select dir cx order = (.Ready (cause, result), next)) :
    ∃ before future streams, Turns dir cx self before ∧ before.conn.lost = none ∧
      (before.accept.drained dir).tasks.lookup cause = some ⟨future, true⟩ ∧
      poll_header before.conn.lost cause future before.conn.streams = (.inr result, streams) ∧
      next = before.set_queue dir { before.accept.drained dir with
        tasks := (before.accept.drained dir).tasks.erase cause } streams := by
  rw [select_eq] at h
  split at h
  · rename_i out tasks streams hloop
    cases h
    obtain ⟨tasks₁, streams₁, future, hturns, hlookup, hpoll, rfl⟩ :=
      FuturesUnordered.poll_loop_some
        (fun tasks streams => Turns dir cx self
          (self.set_queue dir { tasks, waker := some cx } streams))
        (fun _ _ _ _ _ _ => turns_of_advance hlost) (turns_waker dir cx self) hloop
    refine ⟨_, future, streams, hturns, hlost, by simpa using hlookup, hpoll, ?_⟩
    rw [set_queue_set_queue, set_queue_drained]
  · cases h

/-- A poll makes some turns; then it waits, or it comes to its result. -/
theorem poll_loop_spec {fuel : Nat} {out : Poll Completion}
    (h : poll_loop dir cx order fuel self = ok (out, next)) :
    (out = .Pending ∧ Turns dir cx self next ∧ next.Waiting dir cx) ∨
      ∃ completion before, out = .Ready completion ∧ Turns dir cx self before ∧
        Ends dir before completion next := by
  induction fuel generalizing self with
  | zero => cases h
  | succ fuel ih =>
    rw [poll_loop, bind_eq_ok_iff] at h
    obtain ⟨⟨drained, mid⟩, hdrain, h⟩ := h
    obtain ⟨hturns, hall, ⟨error, rfl, hlost⟩ | ⟨rfl, hlost, haccepting⟩⟩ := drain_spec hdrain
    · cases h
      exact .inr ⟨_, _, rfl, hturns, .lost hlost⟩
    · simp only at h
      split at h
      · rename_i last hselect
        cases h
        obtain ⟨hmore, tasks, streams, rfl, hidle⟩ := select_pending hlost hselect
        exact .inl ⟨rfl, hturns.trans hmore, ⟨hall, hlost, by simpa using hidle⟩, haccepting, by simp⟩
      · rename_i cause stype stream last hselect
        obtain ⟨before, future, streams, hmore, hlive, hlookup, hpoll, rfl⟩ := select_ready hlost hselect
        cases hdispatch : dispatch dir stype with
        | deliver =>
          rw [hdispatch] at h
          cases h
          exact .inr ⟨_, before, rfl, hturns.trans hmore, .deliver hlive hlookup hpoll hdispatch⟩
        | store slot =>
          rw [hdispatch] at h
          have hturn := (hturns.trans hmore).tail (.store hlive hlookup hpoll hdispatch)
          obtain ⟨rfl, hrest, hwaiting⟩ | ⟨completion, last, rfl, hrest, hends⟩ := ih h
          · exact .inl ⟨rfl, hturn.trans hrest, hwaiting⟩
          · exact .inr ⟨completion, last, rfl, hturn.trans hrest, hends⟩
        | ignore =>
          rw [hdispatch] at h
          have hturn := (hturns.trans hmore).tail (.ignore hlive hlookup hpoll hdispatch)
          obtain ⟨rfl, hrest, hwaiting⟩ | ⟨completion, last, rfl, hrest, hends⟩ := ih h
          · exact .inl ⟨rfl, hturn.trans hrest, hwaiting⟩
          · exact .inr ⟨completion, last, rfl, hturn.trans hrest, hends⟩
      · rename_i cause error last hselect
        cases h
        obtain ⟨before, future, streams, hmore, hlive, hlookup, hpoll, rfl⟩ := select_ready hlost hselect
        exact .inr ⟨_, before, rfl, hturns.trans hmore, .fail hlive hlookup hpoll⟩
      · cases h
      · cases h

/-- A poll takes some turns. It is pending with nothing left to do and its waker left behind, or it
comes to one of the ends. -/
theorem poll_accept_spec {out : Poll Completion} (h : self.poll_accept dir cx order = ok (out, next)) :
    (out = .Pending ∧ Turns dir cx self next ∧ next.Waiting dir cx) ∨
      ∃ completion before, out = .Ready completion ∧ Turns dir cx self before ∧
        Ends dir before completion next :=
  poll_loop_spec h

/-- Waiting is a matter of one kind of streams, and of nothing but what arrives of them. -/
theorem Waiting.congr (hwaiting : self.Waiting dir cx) (hopened : next.conn.opened dir = self.conn.opened dir)
    (haccepted : next.conn.accepted dir = self.conn.accepted dir)
    (hlost : next.conn.lost = self.conn.lost)
    (haccepting : next.accept.accepting dir = self.accept.accepting dir)
    (hdrained : next.accept.drained dir = self.accept.drained dir) : next.Waiting dir cx := by
  refine ⟨⟨?_, ?_, ?_⟩, ?_, ?_⟩
  · rw [hopened, haccepted]
    exact hwaiting.all_accepted
  · rw [hlost]
    exact hwaiting.not_lost
  · rw [hdrained]
    exact hwaiting.idle
  · rw [haccepting]
    exact hwaiting.accepting
  · rw [hdrained]
    exact hwaiting.waker

/-- Where there was nothing to do, a turn finds nothing to do. -/
theorem Idle.turn (hidle : self.Idle dir) (hturn : Turn dir cx self next) : next.Idle dir := by
  cases hturn with
  | take hopened => exact absurd hopened (Nat.not_lt_of_le hidle.all_accepted)
  | accepting => exact ⟨hidle.all_accepted, hidle.not_lost, hidle.idle⟩
  | waker =>
    refine ⟨hidle.all_accepted, hidle.not_lost, fun key task htask => hidle.idle key task ?_⟩
    simpa [set_drained] using htask
  | advance hlost hlookup | store hlost hlookup | ignore hlost hlookup =>
    exact Bool.noConfusion (hidle.idle _ _ hlookup)

/-- A poll that finds nothing to do waits. -/
theorem Idle.poll_accept {completion : Completion} (hidle : self.Idle dir) :
    self.poll_accept dir cx order ≠ ok (.Ready completion, next) := by
  intro h
  obtain ⟨hout, -⟩ | ⟨completion', before, -, hturns, hends⟩ := poll_accept_spec h
  · cases hout
  · have hbefore : before.Idle dir := by
      clear hends
      induction hturns with
      | refl => exact hidle
      | tail _ hturn ih => exact ih.turn hturn
    cases hends with
    | lost hlost =>
      rw [hbefore.not_lost] at hlost
      cases hlost
    | deliver hlost hlookup => exact Bool.noConfusion (hbefore.idle _ _ hlookup)
    | fail hlost hlookup => exact Bool.noConfusion (hbefore.idle _ _ hlookup)

/-- The waker that waits for streams to accept is that of the last poll, if it is a new one. -/
theorem poll_accept_accepting {out : Poll Completion} (h : self.poll_accept dir cx order = ok (out, next)) :
    next.accept.accepting dir = some cx ∨ next.accept.accepting dir = self.accept.accepting dir := by
  have hturns_accepting {mid : Acceptor} (hturns : Turns dir cx self mid) :
      mid.accept.accepting dir = some cx ∨ mid.accept.accepting dir = self.accept.accepting dir := by
    induction hturns with
    | refl => exact .inr rfl
    | tail _ hturn ih =>
      cases hturn with
      | accepting => exact .inl (Function.update_self ..)
      | take | waker | advance | store | ignore => exact ih
  obtain ⟨-, hturns, -⟩ | ⟨completion, before, -, hturns, hends⟩ := poll_accept_spec h
  · exact hturns_accepting hturns
  · have hbefore := hturns_accepting hturns
    cases hends with
    | lost | deliver | fail => exact hbefore

end wt_rs.Acceptor
