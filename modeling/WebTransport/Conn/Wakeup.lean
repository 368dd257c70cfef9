import WebTransport.Conn.Delivery
import WebTransport.Conn.Fate

open rust rust.Outcome quinn wt_proto.coding wt_proto.h3 transition

namespace wt_rs

namespace Acceptor

/-- The peer has opened the stream, and the acceptor is not through with its header. -/
def Undecided (acceptor : Acceptor) (key : StreamId) : Prop :=
  key.initiator = acceptor.conn.side.peer ∧ key.index < acceptor.conn.opened key.dir ∧
    (acceptor.conn.accepted key.dir ≤ key.index ∨ key ∈ (acceptor.accept.drained key.dir).tasks)

/-- No stream of the kind decides a call: the connection is there, and of every stream that the acceptor is
not through with, the header is not complete and can still be, or it is of the session and of another type. -/
def Fruitless (dir : Dir) (acceptor : Acceptor) : Prop :=
  acceptor.conn.lost = none ∧ ∀ key, key.dir = dir → acceptor.Undecided key →
    Headless (acceptor.conn.streams key).received ∧ (acceptor.conn.streams key).ended = none ∨
      ∃ stype rest, Header (acceptor.conn.streams key).received stype acceptor.accept.id rest ∧
        stype ≠ webtransport key.dir

variable {dir : Dir} {cx : TaskId} {order : List StreamId} {first : Dir → Nat} {self next : Acceptor}
  {returned : List StreamId} {key : StreamId} {task : QueuedFuture PendingHeader} {completion : Completion}

/-- A stream that is undecided now was so as long as the connection had opened it and no queue had let
it go. -/
theorem Undecided.congr (h : next.Undecided key) (hside : next.conn.side = self.conn.side)
    (hopened : next.conn.opened = self.conn.opened) (haccepted : next.conn.accepted = self.conn.accepted)
    (hmem : key ∈ (next.accept.drained key.dir).tasks → key ∈ (self.accept.drained key.dir).tasks) :
    self.Undecided key := by
  rw [Undecided, hside, hopened, haccepted] at h
  exact ⟨h.1, h.2.1, h.2.2.imp_right hmem⟩

/-- A stream in the queue is one that is undecided. -/
theorem Valid.undecided (hvalid : self.Valid first returned)
    (hlookup : (self.accept.drained dir).tasks.lookup key = some task) : key.dir = dir ∧ self.Undecided key := by
  obtain ⟨hplace, rfl⟩ := hvalid.queued hlookup
  generalize returned.count key = count at hplace
  cases hplace with
  | queued hinitiator hfirst hindex hresidual hidle =>
    refine ⟨rfl, hinitiator, Nat.lt_of_lt_of_le hindex (hvalid.bound key.dir).2, .inr ?_⟩
    exact FuturesUnordered.mem_iff_lookup.mpr ⟨task, hlookup⟩

/-- No turn makes a stream undecided that was not. -/
theorem Turn.undecided (hturn : Turn dir cx self next) (h : next.Undecided key) : self.Undecided key := by
  have hqueue {drained : Drained} {streams : StreamId → RecvStream}
      (hmem : ∀ key', key' ∈ drained.tasks → key' ∈ (self.accept.drained dir).tasks)
      (hkey : key ∈ ((self.set_queue dir drained streams).accept.drained key.dir).tasks) :
      key ∈ (self.accept.drained key.dir).tasks := by
    by_cases hdir : key.dir = dir
    · subst hdir
      rw [set_queue_drained] at hkey
      exact hmem key hkey
    · rwa [set_queue_drained_ne hdir] at hkey
  cases hturn with
  | take hopened =>
    obtain ⟨hinitiator, hindex, hleft⟩ := h
    refine ⟨hinitiator, hindex, ?_⟩
    by_cases hdir : key.dir = dir
    · subst hdir
      rw [take_accepted, take_drained, AList.mem_insert] at hleft
      obtain hahead | hkey | hmem := hleft
      · exact .inl (Nat.le_of_succ_le hahead)
      · exact .inl (Nat.le_of_eq (congrArg StreamId.index hkey).symm)
      · exact .inr hmem
    · rw [take_accepted_ne hdir, take_drained_ne hdir] at hleft
      exact hleft
  | accepting => exact h
  | waker => exact h.congr rfl rfl rfl (hqueue fun _ hmem => hmem)
  | advance hlost hlookup hpoll =>
    refine h.congr rfl rfl rfl (hqueue fun key' hmem => ?_)
    obtain rfl | hmem := (AList.mem_insert _).mp hmem
    · exact FuturesUnordered.mem_iff_lookup.mpr ⟨_, hlookup⟩
    · exact hmem
  | store hlost hlookup hpoll hdispatch =>
    exact h.congr rfl rfl rfl (hqueue fun _ hmem => (AList.mem_erase.mp hmem).2)
  | ignore hlost hlookup hpoll hdispatch =>
    exact h.congr rfl rfl rfl (hqueue fun _ hmem => (AList.mem_erase.mp hmem).2)

/-- A turn decides no call where there was nothing to decide one. -/
theorem Fruitless.turn (hfruitless : self.Fruitless dir) (hvalid : self.Valid first returned)
    (hturn : Turn dir cx self next) : next.Fruitless dir := by
  have hframe := hturn.frame hvalid
  refine ⟨hframe.lost.trans hfruitless.1, fun key hdir hundecided => ?_⟩
  rw [hframe.id, hframe.received, hframe.ended]
  exact hfruitless.2 key hdir (hturn.undecided hundecided)

/-- Some turns decide no call where there was nothing to decide one. -/
theorem Fruitless.turns (hfruitless : self.Fruitless dir) (hvalid : self.Valid first returned)
    (hturns : Turns dir cx self next) : next.Fruitless dir := by
  induction hturns with
  | refl => exact hfruitless
  | tail hturns hturn ih => exact ih.turn (hvalid.turns hturns) hturn

theorem Fruitless.judge (hfruitless : self.Fruitless dir) (hdir : key.dir = dir) (hundecided : self.Undecided key) :
    judge self.accept.id key (self.conn.streams key) = none ∨
      judge self.accept.id key (self.conn.streams key) = some .absorbed :=
  (hfruitless.2 key hdir hundecided).imp judge_eq_none_iff.mpr judge_eq_absorbed_iff.mpr

/-- A header read that comes back has read the stream as far as it is judged by. -/
theorem Valid.judge_of_poll {future : PendingHeader} {ready : Bool} {streams : StreamId → RecvStream}
    {result : Outcome WTError (VarInt × StreamId)} (hvalid : self.Valid first returned)
    (hlookup : (self.accept.drained dir).tasks.lookup key = some ⟨future, ready⟩)
    (hpoll : poll_header self.conn.lost key future self.conn.streams = (.inr result, streams))
    (hlost : self.conn.lost = none) :
    (∃ stype, result = ok (stype, key) ∧ judge self.accept.id key (self.conn.streams key) =
        some (if dispatch dir stype = .deliver then .returned else .absorbed)) ∨
      ∃ error, result = err error ∧ judge self.accept.id key (self.conn.streams key) = some .failed := by
  obtain rfl := hvalid.dir_eq hlookup
  obtain ⟨stream, -, hreceived, hended, hpolled, -⟩ := hvalid.finish hlookup hpoll
  rw [hlost] at hpolled
  rw [← judge_congr hreceived hended]
  obtain ⟨stype, rfl, hfinal⟩ | ⟨error, rfl, hfinal⟩ := hpolled.final
  · exact .inl ⟨stype, rfl, hfinal.judge_eq⟩
  · exact .inr ⟨error, rfl, hfinal.judge_eq⟩

/-- Where no stream decides a call, a poll waits. -/
theorem Fruitless.poll_accept (hfruitless : self.Fruitless dir) (hvalid : self.Valid first returned) :
    self.poll_accept dir cx order ≠ ok (.Ready completion, next) := by
  intro h
  obtain ⟨hout, -⟩ | ⟨completion', before, -, hturns, hends⟩ := poll_accept_spec h
  · cases hout
  · have hfruitless' := hfruitless.turns hvalid hturns
    have hbefore := hvalid.turns hturns
    cases hends with
    | lost hlost =>
      rw [hfruitless'.1] at hlost
      cases hlost
    | deliver hlost hlookup hpoll hdispatch =>
      obtain ⟨hdir, hundecided⟩ := hbefore.undecided hlookup
      obtain ⟨stype, hresult, hreturned⟩ | ⟨error, hresult, -⟩ := hbefore.judge_of_poll hlookup hpoll hlost
      · cases hresult
        rw [if_pos hdispatch] at hreturned
        have hcases := hfruitless'.judge hdir hundecided
        rw [hreturned] at hcases
        simp at hcases
      · cases hresult
    | fail hlost hlookup hpoll =>
      obtain ⟨hdir, hundecided⟩ := hbefore.undecided hlookup
      obtain ⟨stype, hresult, -⟩ | ⟨error, hresult, hfailed⟩ := hbefore.judge_of_poll hlookup hpoll hlost
      · cases hresult
      · have hcases := hfruitless'.judge hdir hundecided
        rw [hfailed] at hcases
        simp at hcases

end Acceptor

namespace System

section woken

variable {self : System} {task : TaskId} {waker : Option TaskId} {dir : Dir} {key : StreamId}
  {change : RecvStream → RecvStream}

/-- A waker that fires wakes its own task. -/
theorem woken_wake_iff :
    (self.wake waker).woken task = true ↔ self.woken task = true ∨ waker = some task := by
  cases waker with
  | none => simp [wake]
  | some task' =>
    change Function.update self.woken task' true task = true ↔ _
    by_cases htask : task = task'
    · rw [htask, Function.update_self]
      exact iff_of_true rfl (.inr rfl)
    · rw [Function.update_of_ne htask, Option.some.injEq, or_iff_left (Ne.symm htask)]

/-- A stream that comes wakes the task that has left its waker for it. -/
theorem woken_notify_iff : (self.notify dir).woken task = true ↔
    self.woken task = true ∨ self.shared.accept.accepting dir = some task :=
  woken_wake_iff

/-- What happens on a stream wakes the task that has left its waker for the header. -/
theorem woken_arrive_iff : (self.arrive key change).woken task = true ↔
    self.woken task = true ∨ ((self.shared.accept.drained key.dir).wake key).2 = some task :=
  woken_wake_iff

end woken

/-- A stream for the caller has come, its header is complete, and it has not been returned. -/
def Deliverable (system : System) (first : Dir → Nat) (id : VarInt) (dir : Dir) : Prop :=
  ∃ key rest, key.dir = dir ∧ system.shared.Expects first key ∧
    key.index < system.shared.conn.opened dir ∧
    Header (system.shared.conn.streams key).received (webtransport dir) id rest ∧
    (system.shared.conn.accepted dir ≤ key.index ∨ key ∈ (system.shared.accept.drained dir).tasks)

/-- A call is polled again only when no other call of its kind waits, or another one has been
woken, or no stream decides a call; it is given up only when no other waits, or another has been
woken or was polled last. -/
def Considerate (system : System) : Event → Prop
  | .repoll task _ => ∀ dir, system.calls task = some dir →
      (∀ other, system.calls other = some dir → other = task) ∨
        (∃ other ≠ task, system.calls other = some dir ∧ system.woken other = true) ∨
          system.shared.Fruitless dir
  | .cancel task => ∀ dir, system.calls task = some dir →
      (∀ other, system.calls other = some dir → other = task) ∨
        ∃ other ≠ task, system.calls other = some dir ∧
          (system.woken other = true ∨ system.shared.accept.accepting dir = some other)
  | _ => True

/-- If a call waits, then one of its kind has been woken or was polled last. -/
def Watch (system : System) (dir : Dir) : Prop :=
  ∀ task, system.calls task = some dir → ∃ other, system.calls other = some dir ∧
    (system.woken other = true ∨ system.shared.accept.accepting dir = some other)

/-- A call that was polled last and has not been woken has left its waker where streams come and
where headers come, and there is nothing to do for it. -/
def Last (system : System) (dir : Dir) : Prop :=
  ∀ task, system.calls task = some dir → system.woken task = false →
    system.shared.accept.accepting dir = some task → system.shared.Waiting dir task

variable {id : VarInt} {side : Side} {first : Dir → Nat} {self next : System} {event : Event} {key : StreamId}
  {change : RecvStream → RecvStream} {dir : Dir}

theorem arrive_accepting : (self.arrive key change).shared.accept.accepting = self.shared.accept.accepting := by
  rw [arrive_shared]
  rfl

/-- Woken tasks stay woken when something happens on a stream. -/
theorem Watch.arrive (hwatch : self.Watch dir) (key : StreamId) (change : RecvStream → RecvStream) :
    (self.arrive key change).Watch dir := by
  intro task hcall
  rw [arrive_calls] at hcall
  obtain ⟨other, hother, hwoken⟩ := hwatch task hcall
  refine ⟨other, by rw [arrive_calls]; exact hother, ?_⟩
  rw [woken_arrive_iff, arrive_accepting]
  exact hwoken.imp_left .inl

/-- The last poll has left its waker for headers, so that it is woken by one. -/
theorem Last.arrive (hlast : self.Last dir) (key : StreamId) (change : RecvStream → RecvStream) :
    (self.arrive key change).Last dir := by
  intro task hcall hwoken haccepting
  rw [arrive_calls] at hcall
  rw [arrive_accepting] at haccepting
  rw [← Bool.not_eq_true, woken_arrive_iff, not_or, Bool.not_eq_true] at hwoken
  obtain ⟨hwoken, hnot⟩ := hwoken
  have hwaiting := hlast task hcall hwoken haccepting
  rw [arrive_shared]
  refine hwaiting.congr rfl rfl rfl rfl ?_
  by_cases hdir : dir = key.dir
  · subst hdir
    rw [Acceptor.set_queue_drained]
    obtain ⟨hwaker, -⟩ | ⟨hsame, -⟩ := FuturesUnordered.wake_cases (self.shared.accept.drained key.dir) key
    · rw [hwaker] at hnot
      exact absurd hwaiting.waker hnot
    · rw [hsame]
  · exact Acceptor.set_queue_drained_ne hdir _ _

/-- Woken tasks stay woken when a waker fires. -/
theorem Watch.notify (hwatch : self.Watch dir) (dir' : Dir) : (self.notify dir').Watch dir := by
  intro task hcall
  rw [notify_calls] at hcall
  obtain ⟨other, hother, hwoken⟩ := hwatch task hcall
  refine ⟨other, by rw [notify_calls]; exact hother, ?_⟩
  rw [woken_notify_iff, notify_shared]
  by_cases hdir : dir = dir'
  · subst hdir
    exact .inl hwoken
  · refine hwoken.imp .inl fun haccepting => ?_
    exact (Function.update_of_ne hdir _ _).trans haccepting

/-- The waker of the last poll fires. -/
theorem last_notify (self : System) (dir : Dir) : (self.notify dir).Last dir := by
  intro task hcall hwoken haccepting
  rw [notify_shared, Acceptor.set_accepting_accepting] at haccepting
  cases haccepting

/-- A waker of the other kind leaves those of the last poll where they are. -/
theorem Last.notify (hlast : self.Last dir) {dir' : Dir} (hdir : dir ≠ dir') : (self.notify dir').Last dir := by
  intro task hcall hwoken haccepting
  rw [notify_calls] at hcall
  rw [← Bool.not_eq_true, woken_notify_iff, not_or, Bool.not_eq_true] at hwoken
  rw [notify_shared] at haccepting ⊢
  have hsame := Function.update_of_ne hdir none self.shared.accept.accepting
  exact (hlast task hcall hwoken.1 (hsame.symm.trans haccepting)).congr rfl rfl rfl hsame rfl

theorem Last.open_stream (hlast : self.Last dir) {dir' : Dir} (hdir : dir ≠ dir') :
    (self.open_stream dir').Last dir := by
  intro task hcall hwoken haccepting
  exact (hlast task hcall hwoken haccepting).congr (Function.update_of_ne hdir _ _) rfl rfl rfl rfl

/-- Once the connection is lost, the call that was polled last has been woken. -/
theorem last_close (self : System) (error : ConnectionError) (dir : Dir) : (self.close error).Last dir := by
  refine foldl_arrive (fun system => system.Last dir) (fun key h => h.arrive key _) _ ?_
  cases dir with
  | Uni => exact (last_notify _ .Uni).notify Dir.noConfusion
  | Bi => exact last_notify _ .Bi

section polls

variable {task : TaskId} {order : List StreamId} {shared : Acceptor} {log : List Return} {call : Option Dir}
  {dir' : Dir} {completion : Completion}

/-- A poll leaves alone the calls of another kind. -/
theorem Watch.other_kind (hwatch : self.Watch dir') (hdir : dir' ≠ dir)
    (hframe : Acceptor.Frame dir self.shared shared) (hbefore : self.calls task ≠ some dir')
    (hafter : call ≠ some dir') :
    Watch { self with
      shared
      calls := Function.update self.calls task call
      woken := Function.update self.woken task false
      log } dir' := by
  intro waiter hcall
  simp only at hcall ⊢
  by_cases hwaiter : waiter = task
  · rw [hwaiter, Function.update_self] at hcall
    exact absurd hcall hafter
  · rw [Function.update_of_ne hwaiter] at hcall
    obtain ⟨other, hother, hwoken⟩ := hwatch waiter hcall
    have hne : other ≠ task := fun h => hbefore (h ▸ hother)
    refine ⟨other, ?_, ?_⟩
    · rw [Function.update_of_ne hne]
      exact hother
    · rw [Function.update_of_ne hne, hframe.accepting dir' hdir]
      exact hwoken

/-- A poll for streams of the other kind leaves those of the last poll where they are. -/
theorem Last.other_kind (hlast : self.Last dir') (hdir : dir' ≠ dir)
    (hframe : Acceptor.Frame dir self.shared shared) (hafter : call ≠ some dir') :
    Last { self with
      shared
      calls := Function.update self.calls task call
      woken := Function.update self.woken task false
      log } dir' := by
  intro waiter hcall hwoken haccepting
  simp only at hcall hwoken haccepting ⊢
  by_cases hwaiter : waiter = task
  · rw [hwaiter, Function.update_self] at hcall
    exact absurd hcall hafter
  · rw [Function.update_of_ne hwaiter] at hcall hwoken
    rw [hframe.accepting dir' hdir] at haccepting
    exact (hlast waiter hcall hwoken haccepting).congr (congrFun hframe.opened dir')
      (hframe.accepted dir' hdir) hframe.lost (hframe.accepting dir' hdir) (hframe.drained dir' hdir)

/-- A poll that comes to a result had something to do, so that the one polled last, if another one,
had been woken. -/
theorem Watch.woken_of_ready (hwatch : self.Watch dir) (hlast : self.Last dir)
    (hpoll : self.shared.poll_accept dir task order = ok (.Ready completion, shared)) {waiter : TaskId}
    (hcall : self.calls waiter = some dir) :
    ∃ other, self.calls other = some dir ∧ self.woken other = true := by
  obtain ⟨other, hother, hwoken | haccepting⟩ := hwatch waiter hcall
  · exact ⟨other, hother, hwoken⟩
  · cases hwoken : self.woken other with
    | true => exact ⟨other, hother, hwoken⟩
    | false => exact absurd hpoll (hlast other hother hwoken haccepting).toIdle.poll_accept

/-- A call that is left waiting was polled last. -/
theorem watch_wait (hwaiting : shared.Waiting dir task) :
    Watch { self with
      shared
      calls := Function.update self.calls task (some dir)
      woken := Function.update self.woken task false } dir :=
  fun _ _ => ⟨task, Function.update_self .., .inr hwaiting.accepting⟩

/-- A call that is left waiting has its wakers in both places. -/
theorem last_wait (hwaiting : shared.Waiting dir task) :
    Last { self with
      shared
      calls := Function.update self.calls task (some dir)
      woken := Function.update self.woken task false } dir := by
  intro waiter hcall hwoken haccepting
  rw [hwaiting.accepting] at haccepting
  cases haccepting
  exact hwaiting

/-- A call that comes back leaves another one woken, if any other waits. -/
theorem watch_complete
    (hothers : ∀ waiter ≠ task, self.calls waiter = some dir →
      ∃ other ≠ task, self.calls other = some dir ∧ self.woken other = true) :
    Watch { self with
      shared
      calls := Function.update self.calls task none
      woken := Function.update self.woken task false
      log } dir := by
  intro waiter hcall
  simp only at hcall ⊢
  by_cases hwaiter : waiter = task
  · rw [hwaiter, Function.update_self] at hcall
    cases hcall
  · rw [Function.update_of_ne hwaiter] at hcall
    obtain ⟨other, hne, hother, hwoken⟩ := hothers waiter hwaiter hcall
    refine ⟨other, ?_, .inl ?_⟩
    · rw [Function.update_of_ne hne]
      exact hother
    · rw [Function.update_of_ne hne]
      exact hwoken

/-- A call comes back only when the one polled last, if another one, has been woken. -/
theorem Last.complete (hlast : self.Last dir)
    (hpoll : self.shared.poll_accept dir task order = ok (.Ready completion, shared)) :
    Last { self with
      shared
      calls := Function.update self.calls task none
      woken := Function.update self.woken task false
      log } dir := by
  intro waiter hcall hwoken haccepting
  simp only at hcall hwoken haccepting ⊢
  by_cases hwaiter : waiter = task
  · rw [hwaiter, Function.update_self] at hcall
    cases hcall
  · rw [Function.update_of_ne hwaiter] at hcall hwoken
    obtain hnew | hold := Acceptor.poll_accept_accepting hpoll
    · rw [hnew] at haccepting
      cases haccepting
      exact absurd rfl hwaiter
    · rw [hold] at haccepting
      exact absurd hpoll (hlast waiter hcall hwoken haccepting).toIdle.poll_accept

/-- A task is in one call at a time. -/
theorem Polls.calls_ne (hpolls : self.Polls event task dir order) (hdir : dir' ≠ dir) :
    self.calls task ≠ some dir' := by
  obtain ⟨-, hcall⟩ | ⟨-, hcall⟩ := hpolls
  · rw [hcall]
    exact (Option.some_ne_none _).symm
  · rw [hcall]
    exact fun h => hdir (Option.some.inj h).symm

/-- A poll that is pending leaves its waker for streams and for headers. -/
theorem waiting_of_pending (hpoll : self.shared.poll_accept dir task order = ok (.Pending, shared)) :
    shared.Waiting dir task := by
  obtain ⟨-, -, hwaiting⟩ | ⟨completion, before, hout, -⟩ := Acceptor.poll_accept_spec hpoll
  · exact hwaiting
  · cases hout

/-- A result leaves no call behind that nobody wakes. -/
theorem Considerate.others (hconsiderate : self.Considerate event) (hpolls : self.Polls event task dir order)
    (hvalid : self.Valid id side first) (hwatch : self.Watch dir) (hlast : self.Last dir)
    (hpoll : self.shared.poll_accept dir task order = ok (.Ready completion, shared)) {waiter : TaskId}
    (hne : waiter ≠ task) (hcall : self.calls waiter = some dir) :
    ∃ other ≠ task, self.calls other = some dir ∧ self.woken other = true := by
  obtain ⟨rfl, hnone⟩ | ⟨rfl, hsome⟩ := hpolls
  · obtain ⟨other, hother, hwoken⟩ := hwatch.woken_of_ready hlast hpoll hcall
    refine ⟨other, fun h => ?_, hother, hwoken⟩
    rw [h, hnone] at hother
    cases hother
  · obtain hlone | hothers | hfruitless := hconsiderate dir hsome
    · exact absurd (hlone waiter hcall) hne
    · exact hothers
    · exact absurd hpoll (hfruitless.poll_accept hvalid.shared)

end polls

/-- The invariant of all kinds. -/
structure Watched (id : VarInt) (side : Side) (first : Dir → Nat) (system : System) : Prop where
  valid : system.Valid id side first
  watch : ∀ dir, system.Watch dir
  last : ∀ dir, system.Last dir

/-- A considerate event leaves a call waiting only where one of its kind has been woken or was polled
last. -/
theorem Watched.watch_move (hwatched : self.Watched id side first) (hconsiderate : self.Considerate event)
    (hmove : Move self event next) (dir : Dir) : next.Watch dir := by
  have hwatch := hwatched.watch dir
  cases hmove with
  | @peer_opens dir' hlost => exact @Watch.notify (self.open_stream dir') dir hwatch dir'
  | bytes hlive => exact hwatch.arrive _ _
  | finish hlive => exact hwatch.arrive _ _
  | reset hlive => exact hwatch.arrive _ _
  | close hlost =>
    exact close_induction (fun system => system.Watch dir) hwatch (fun dir' h => h.notify dir')
      fun key h => h.arrive key _
  | @wait event task dir' order shared hpolls hpoll =>
    by_cases hdir : dir = dir'
    · subst hdir
      exact watch_wait (waiting_of_pending hpoll)
    · exact hwatch.other_kind hdir (Acceptor.poll_accept_frame hwatched.valid.shared hpoll)
        (hpolls.calls_ne hdir) fun h => hdir (Option.some.inj h).symm
  | @complete event task dir' order shared completion hpolls hpoll =>
    by_cases hdir : dir = dir'
    · subst hdir
      exact watch_complete fun waiter hne hcall =>
        hconsiderate.others hpolls hwatched.valid hwatch (hwatched.last dir) hpoll hne hcall
    · exact hwatch.other_kind hdir (Acceptor.poll_accept_frame hwatched.valid.shared hpoll)
        (hpolls.calls_ne hdir) (Option.some_ne_none _).symm
  | @cancel task hcall =>
    intro waiter hwaiter
    simp only at hwaiter ⊢
    by_cases hne : waiter = task
    · rw [hne, Function.update_self] at hwaiter
      cases hwaiter
    · rw [Function.update_of_ne hne] at hwaiter
      obtain ⟨other, hne, hother, hwoken⟩ : ∃ other ≠ task, self.calls other = some dir ∧
          (self.woken other = true ∨ self.shared.accept.accepting dir = some other) := by
        by_cases hkind : self.calls task = some dir
        · obtain hlone | hothers := hconsiderate dir hkind
          · exact absurd (hlone waiter hwaiter) hne
          · exact hothers
        · obtain ⟨other, hother, hwoken⟩ := hwatch waiter hwaiter
          exact ⟨other, fun h => hkind (h ▸ hother), hother, hwoken⟩
      exact ⟨other, (Function.update_of_ne hne _ _).trans hother, hwoken⟩

/-- After any event, the call that was polled last has been woken, or has its wakers in both places. -/
theorem Watched.last_move (hwatched : self.Watched id side first) (hmove : Move self event next) (dir : Dir) :
    next.Last dir := by
  have hlast := hwatched.last dir
  cases hmove with
  | @peer_opens dir' hlost =>
    by_cases hdir : dir = dir'
    · subst hdir
      exact last_notify _ dir
    · exact (hlast.open_stream hdir).notify hdir
  | bytes hlive => exact hlast.arrive _ _
  | finish hlive => exact hlast.arrive _ _
  | reset hlive => exact hlast.arrive _ _
  | close hlost => exact last_close self _ dir
  | @wait event task dir' order shared hpolls hpoll =>
    by_cases hdir : dir = dir'
    · subst hdir
      exact last_wait (waiting_of_pending hpoll)
    · exact hlast.other_kind hdir (Acceptor.poll_accept_frame hwatched.valid.shared hpoll)
        fun h => hdir (Option.some.inj h).symm
  | @complete event task dir' order shared completion hpolls hpoll =>
    by_cases hdir : dir = dir'
    · subst hdir
      exact hlast.complete hpoll
    · exact hlast.other_kind hdir (Acceptor.poll_accept_frame hwatched.valid.shared hpoll)
        (Option.some_ne_none _).symm
  | @cancel task hcall =>
    intro waiter hwaiter hwoken haccepting
    simp only at hwaiter
    by_cases hne : waiter = task
    · rw [hne, Function.update_self] at hwaiter
      cases hwaiter
    · rw [Function.update_of_ne hne] at hwaiter
      exact hlast waiter hwaiter hwoken haccepting

/-- In a considerate run no event loses the last wake-up: where a call waits, one of its kind has been
woken or has its wakers in both places. -/
theorem Watched.move (hwatched : self.Watched id side first) (hconsiderate : self.Considerate event)
    (hmove : Move self event next) : next.Watched id side first :=
  ⟨hwatched.valid.move hmove, hwatched.watch_move hconsiderate hmove, hwatched.last_move hmove⟩

/-- At the start no call waits. -/
theorem Watched.new (id : VarInt) (side : Side) (first : Dir → Nat) :
    (System.new id side first).Watched id side first :=
  ⟨.new id side first, fun _ _ hcall => (by cases hcall), fun _ _ hcall => (by cases hcall)⟩

/-- A stream for the caller leaves something to do. -/
theorem Deliverable.not_idle (hvalid : self.Valid id side first) (hdeliverable : self.Deliverable first id dir) :
    ¬ self.shared.Idle dir := by
  rintro ⟨hall, hlost, hidle⟩
  obtain ⟨key, rest, rfl, hexpects, hopened, hheader, hahead | hqueued⟩ := hdeliverable
  · omega
  · obtain ⟨task, hlookup⟩ := FuturesUnordered.mem_iff_lookup.mp hqueued
    obtain ⟨hplace, -⟩ := hvalid.shared.queued hlookup
    generalize self.returned.count key = count at hplace
    cases hplace with
    | queued hinitiator hfirst hindex hresidual hheadless =>
      exact hheader.not_headless (hheadless (hidle key task hlookup))

/-- As long as calls are considerate, one of the waiting calls of a kind has been woken when there
is a stream for them. -/
theorem no_lost_wakeup (hrun : Run step Considerate (new id side first) self) (dir : Dir) (task : TaskId)
    (hcall : self.calls task = some dir) (hdeliverable : self.Deliverable first id dir) :
    ∃ other, self.calls other = some dir ∧ self.woken other = true := by
  have hwatched : self.Watched id side first := hrun.invariant (fun system => system.Watched id side first)
    (.new id side first) fun hwatched hconsiderate hstep => hwatched.move hconsiderate (move_of_step hstep)
  obtain ⟨other, hother, hwoken | haccepting⟩ := hwatched.watch dir task hcall
  · exact ⟨other, hother, hwoken⟩
  · cases hwoken : self.woken other with
    | true => exact ⟨other, hother, hwoken⟩
    | false =>
      exact absurd (hwatched.last dir other hother hwoken haccepting).toIdle
        (hdeliverable.not_idle hwatched.valid)

private theorem webtransport_header :
    Header [0x40, 0x54, 0x00] (webtransport .Uni) (.from_u32 0) [] :=
  ⟨[0x40, 0x54], [0x00], rfl, .intro (by decide) (by decide), .intro (by decide) (by decide)⟩

/-- Three tasks wait, and one gives up. A stream comes, whose header is not there yet, so that the task
that is polled again waits on; when the header comes, one of the two has been woken. -/
theorem no_lost_wakeup_two_calls :
    ∃ system, Run step Considerate (new (.from_u32 0) .Server fun _ => 0) system ∧
      system.calls 0 = some .Uni ∧ system.calls 1 = some .Uni ∧
      ∃ other, system.calls other = some .Uni ∧ system.woken other = true := by
  have hfacts : (steps step (new (.from_u32 0) .Server fun _ => 0) [.call 2 .Uni [], .call 0 .Uni [],
      .call 1 .Uni []]).bind (fun waits => (waits.step (.cancel 2)).bind fun left =>
        (left.step (.peer_opens .Uni)).bind fun comes => (comes.step (.repoll 1 [])).bind fun polled =>
          (polled.step (.bytes ⟨.Client, .Uni, 0⟩ [0x40, 0x54, 0x00])).map fun system =>
            (waits.calls 1, waits.calls 2, waits.shared.accept.accepting .Uni, comes.shared.conn.lost,
              comes.shared.conn.streams, system.calls 0, system.calls 1, system.shared.conn.side,
              system.shared.conn.opened .Uni, (system.shared.accept.drained .Uni).tasks.keys,
              (system.shared.conn.streams ⟨.Client, .Uni, 0⟩).received)) =
      some (some .Uni, some .Uni, some 1, none, fun _ => .opened, some .Uni, some .Uni, .Server, 1,
        [⟨.Client, .Uni, 0⟩], [0x40, 0x54, 0x00]) := rfl
  obtain ⟨waits, hwaits, hfacts⟩ := Option.bind_eq_some_iff.mp hfacts
  obtain ⟨left, hleft, hfacts⟩ := Option.bind_eq_some_iff.mp hfacts
  obtain ⟨comes, hcomes, hfacts⟩ := Option.bind_eq_some_iff.mp hfacts
  obtain ⟨polled, hpolled, hfacts⟩ := Option.bind_eq_some_iff.mp hfacts
  obtain ⟨system, hsystem, hfacts⟩ := Option.map_eq_some_iff.mp hfacts
  simp only [Prod.mk.injEq] at hfacts
  obtain ⟨hone, htwo, haccepting, hlost, hstreams, hzero', hone', hside, hopened, hkeys, hreceived⟩ := hfacts
  have hcalls : Run step Considerate (new (.from_u32 0) .Server fun _ => 0) waits := by
    refine Run.steps .start (fun event hevent _ => ?_) hwaits
    simp only [List.mem_cons, List.not_mem_nil, or_false] at hevent
    obtain rfl | rfl | rfl := hevent
    all_goals exact trivial
  have hcancel : waits.Considerate (.cancel 2) := by
    intro dir hdir
    cases htwo.symm.trans hdir
    exact .inr ⟨1, by decide, hone, .inr haccepting⟩
  have hrepoll : comes.Considerate (.repoll 1 []) := by
    refine fun dir _ => .inr (.inr ⟨hlost, fun key _ _ => .inl ?_⟩)
    rw [hstreams]
    exact ⟨.inl (.inl rfl), rfl⟩
  have hopens : left.Considerate (.peer_opens .Uni) := trivial
  have hbytes : polled.Considerate (.bytes ⟨.Client, .Uni, 0⟩ [0x40, 0x54, 0x00]) := trivial
  have hrun : Run step Considerate (new (.from_u32 0) .Server fun _ => 0) system :=
    .step (.step (.step (.step hcalls hcancel hleft) hopens hcomes) hrepoll hpolled) hbytes hsystem
  refine ⟨system, hrun, hzero', hone', no_lost_wakeup hrun .Uni 1 hone' ?_⟩
  refine ⟨⟨.Client, .Uni, 0⟩, [], rfl, ⟨?_, ?_⟩, ?_, ?_, ?_⟩
  · rw [hside]
    rfl
  · exact Nat.le_refl _
  · rw [hopened]
    exact Nat.one_pos
  · rw [hreceived]
    exact webtransport_header
  · right
    rw [AList.mem_keys, hkeys]
    exact List.mem_singleton_self _

/-- Two tasks wait, and two streams come. The task that is woken takes one of them, and nobody wakes
the other one for the second. -/
theorem lost_wakeup :
    ∃ system, Reachable step (new (.from_u32 0) .Server fun _ => 0) system ∧
      system.calls 0 = some .Uni ∧ system.Deliverable (fun _ => 0) (.from_u32 0) .Uni ∧
      ∀ other, system.calls other = some .Uni → system.woken other = false := by
  have hfacts : (steps step (new (.from_u32 0) .Server fun _ => 0) [.call 0 .Uni [], .call 1 .Uni [],
      .peer_opens .Uni, .peer_opens .Uni, .bytes ⟨.Client, .Uni, 0⟩ [0x40, 0x54, 0x00],
      .bytes ⟨.Client, .Uni, 1⟩ [0x40, 0x54, 0x00], .repoll 1 [⟨.Client, .Uni, 1⟩]]).map (fun system =>
        (system.calls, system.woken 0, system.shared.conn.side, system.shared.conn.opened .Uni,
        (system.shared.accept.drained .Uni).tasks.keys,
        (system.shared.conn.streams ⟨.Client, .Uni, 0⟩).received)) =
      some (Function.update (Function.update (Function.update (fun _ => none) 0 (some .Uni)) 1 (some .Uni)) 1 none,
        false, .Server, 2, [⟨.Client, .Uni, 0⟩], [0x40, 0x54, 0x00]) := rfl
  obtain ⟨system, hsteps, hfacts⟩ := Option.map_eq_some_iff.mp hfacts
  simp only [Prod.mk.injEq] at hfacts
  obtain ⟨hcalls, hwoken, hside, hopened, hkeys, hreceived⟩ := hfacts
  refine ⟨system, .steps .start hsteps, ?_, ⟨⟨.Client, .Uni, 0⟩, [], rfl, ⟨?_, ?_⟩, ?_, ?_, ?_⟩, fun other hother => ?_⟩
  · rw [hcalls]
    rfl
  · rw [hside]
    rfl
  · exact Nat.le_refl _
  · rw [hopened]
    exact Nat.two_pos
  · rw [hreceived]
    exact webtransport_header
  · right
    rw [AList.mem_keys, hkeys]
    exact List.mem_singleton_self _
  · rw [hcalls] at hother
    by_cases hone : other = 1
    · rw [hone, Function.update_self] at hother
      cases hother
    · rw [Function.update_of_ne hone, Function.update_of_ne hone] at hother
      by_cases hzero : other = 0
      · rw [hzero]
        exact hwoken
      · rw [Function.update_of_ne hzero] at hother
        cases hother

end System

end wt_rs
