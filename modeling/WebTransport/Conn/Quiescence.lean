import WebTransport.Conn.Refinement

open rust rust.Outcome rust.Async quinn transition wt_proto.coding wt_proto.h3

namespace wt_rs

namespace Acceptor

/-- A header read that need not be polled reads from a stream that has not ended. -/
def Attentive (acceptor : Acceptor) : Prop :=
  ∀ dir key task, (acceptor.accept.drained dir).tasks.lookup key = some task → task.ready = false →
    (acceptor.conn.streams key).ended = none

variable {dir : Dir} {cx : TaskId} {first : Dir → Nat} {self next : Acceptor} {returned : List StreamId}
  {key : StreamId}

/-- It is enough to look at the header reads that have changed. -/
theorem Attentive.congr (hattentive : self.Attentive)
    (hended : ∀ key, (next.conn.streams key).ended = (self.conn.streams key).ended)
    (hlookup : ∀ dir key task, (next.accept.drained dir).tasks.lookup key = some task →
      (self.accept.drained dir).tasks.lookup key = some task ∨ task.ready = true ∨
        (self.conn.streams key).ended = none) : next.Attentive := by
  intro dir key task htask hidle
  rw [hended]
  obtain hsame | hready | hnone := hlookup dir key task htask
  · exact hattentive dir key task hsame hidle
  · rw [hready] at hidle
    cases hidle
  · exact hnone

/-- A header read leaves the queue. -/
theorem Attentive.erase {streams : StreamId → RecvStream} {waker : Option TaskId} (hattentive : self.Attentive)
    (hended : ∀ key', (streams key').ended = (self.conn.streams key').ended) :
    (self.set_queue dir { tasks := (self.accept.drained dir).tasks.erase key, waker } streams).Attentive := by
  refine hattentive.congr hended fun dir' key' task' htask => .inl ?_
  by_cases hdir : dir' = dir
  · subst hdir
    rw [set_queue_drained] at htask
    by_cases hkey : key' = key
    · rw [hkey, AList.lookup_erase] at htask
      cases htask
    · rwa [AList.lookup_erase_ne hkey] at htask
  · rwa [set_queue_drained_ne hdir] at htask

/-- A turn leaves no header read unattended on a stream that has ended. -/
theorem Attentive.turn (hattentive : self.Attentive) (hvalid : self.Valid first returned)
    (hturn : Turn dir cx self next) : next.Attentive := by
  have hended := (hturn.frame hvalid).ended
  cases hturn with
  | take hopened =>
    refine hattentive.congr hended fun dir' key' task' htask => ?_
    by_cases hdir : dir' = dir
    · subst hdir
      rw [take_drained] at htask
      by_cases hkey : key' = self.conn.incoming dir' (self.conn.accepted dir')
      · rw [hkey, AList.lookup_insert] at htask
        cases htask
        exact .inr (.inl rfl)
      · rw [AList.lookup_insert_ne hkey] at htask
        exact .inl htask
    · rw [take_drained_ne hdir] at htask
      exact .inl htask
  | accepting => exact hattentive
  | waker =>
    refine hattentive.congr hended fun dir' key' task' htask => .inl ?_
    by_cases hdir : dir' = dir
    · subst hdir
      simpa only [set_drained, Function.update_self] using htask
    · simpa only [set_drained, Function.update_of_ne hdir] using htask
  | @advance key future future' streams hlost hlookup hpoll =>
    obtain ⟨hplace, rfl⟩ := hvalid.queued hlookup
    generalize returned.count key = count at hplace
    cases hplace with
    | queued hinitiator hfirst hindex hresidual hidle =>
      obtain ⟨stream, rfl, -, hsame, hpolled⟩ := poll_header_spec hresidual hpoll
      cases hpolled with
      | wait hheadless hlive hresidual' =>
        refine hattentive.congr hended fun dir' key' task' htask => ?_
        by_cases hkey : key' = key
        · subst hkey
          rw [← hsame]
          exact .inr (.inr (not_not.mp (not_or.mp hlive).1))
        · by_cases hdir : dir' = key.dir
          · subst hdir
            rw [set_queue_drained, AList.lookup_insert_ne hkey] at htask
            exact .inl htask
          · rw [set_queue_drained_ne hdir] at htask
            exact .inl htask
  | store hlost hlookup hpoll hdispatch =>
    exact hattentive.erase hended
  | ignore hlost hlookup hpoll hdispatch => exact hattentive.erase hended

/-- Some turns leave no header read unattended. -/
theorem Attentive.turns (hattentive : self.Attentive) (hvalid : self.Valid first returned)
    (hturns : Turns dir cx self next) : next.Attentive := by
  induction hturns with
  | refl => exact hattentive
  | tail hturns hturn ih => exact ih.turn (hvalid.turns hturns) hturn

/-- A poll leaves no header read unattended, whatever comes out of it. -/
theorem Attentive.poll_accept {order : List StreamId} {out : Poll Completion} (hattentive : self.Attentive)
    (hvalid : self.Valid first returned) (hpoll : self.poll_accept dir cx order = ok (out, next)) :
    next.Attentive := by
  obtain ⟨-, hturns, -⟩ | ⟨completion, before, -, hturns, hends⟩ := poll_accept_spec hpoll
  · exact hattentive.turns hvalid hturns
  · have hbefore := hattentive.turns hvalid hturns
    have hended := (hends.frame (hvalid.turns hturns)).ended
    cases hends with
    | lost => exact hbefore
    | deliver | fail => exact hbefore.erase hended

/-- Something happens to a stream, and a header read that waits for it is woken. -/
theorem Attentive.arrive (hattentive : self.Attentive) (hvalid : self.Valid first returned) (stream : RecvStream) :
    (self.set_queue key.dir ((self.accept.drained key.dir).wake key).1
      (Function.update self.conn.streams key stream)).Attentive := by
  intro dir' key' task' htask hidle
  rw [set_queue_streams]
  by_cases hkey : key' = key
  · subst hkey
    by_cases hdir : dir' = key'.dir
    · subst hdir
      rw [set_queue_drained, FuturesUnordered.lookup_wake_self, Option.map_eq_some_iff] at htask
      obtain ⟨task, -, rfl⟩ := htask
      cases hidle
    · rw [set_queue_drained_ne hdir] at htask
      exact absurd (hvalid.dir_eq htask).symm hdir
  · rw [Function.update_of_ne hkey]
    by_cases hdir : dir' = key.dir
    · subst hdir
      rw [set_queue_drained, FuturesUnordered.lookup_wake_ne _ hkey] at htask
      exact hattentive _ key' task' htask hidle
    · rw [set_queue_drained_ne hdir] at htask
      exact hattentive _ key' task' htask hidle

end Acceptor

namespace System

variable {id : VarInt} {side : Side} {first : Dir → Nat} {self next self' next' : System} {event event' : Event}
  {key : StreamId} {dir : Dir} {task task' : TaskId} {order order' : List StreamId}

theorem attentive_arrive (hvalid : self.Valid id side first) (hattentive : self.shared.Attentive) (key : StreamId)
    (change : RecvStream → RecvStream) : (self.arrive key change).shared.Attentive := by
  rw [arrive_shared]
  exact hattentive.arrive hvalid.shared _

theorem attentive_notify (hattentive : self.shared.Attentive) (dir : Dir) : (self.notify dir).shared.Attentive := by
  rw [notify_shared]
  exact hattentive

/-- No event leaves a header read unattended. -/
theorem attentive_move (hvalid : self.Valid id side first) (hattentive : self.shared.Attentive)
    (hmove : Move self event next) : next.shared.Attentive := by
  cases hmove with
  | @peer_opens dir hlost => exact @attentive_notify (self.open_stream dir) hattentive dir
  | bytes hlive => exact attentive_arrive hvalid hattentive _ _
  | finish hlive => exact attentive_arrive hvalid hattentive _ _
  | reset hlive => exact attentive_arrive hvalid hattentive _ _
  | @close error hlost =>
    refine (close_induction (fun system => system.Valid id side first ∧ system.shared.Attentive)
      ⟨⟨⟨hvalid.shared.bound, hvalid.shared.dir_eq, hvalid.shared.place⟩, hvalid.id_eq, hvalid.side_eq,
        hvalid.dirs⟩, hattentive⟩ (fun dir h => ⟨h.1.notify dir, attentive_notify h.2 dir⟩) fun key h => ?_).2
    exact ⟨h.1.arrive rfl fun hdiscarded => hdiscarded, attentive_arrive h.1 h.2 key _⟩
  | wait hpolls hpoll => exact hattentive.poll_accept hvalid.shared hpoll
  | complete hpolls hpoll => exact hattentive.poll_accept hvalid.shared hpoll
  | cancel hcall => exact hattentive

/-- In every run each header read that need not be polled reads from a stream that has not ended. -/
theorem attentive_of_reachable (hrun : Reachable step (System.new id side first) self) : self.shared.Attentive :=
  (hrun.invariant (fun system => system.Valid id side first ∧ system.shared.Attentive)
    ⟨.new id side first, fun dir key task htask => by cases htask⟩ fun ⟨hvalid, hattentive⟩ _ hstep =>
      ⟨hvalid.move (move_of_step hstep), attentive_move hvalid hattentive (move_of_step hstep)⟩).2

theorem Polls.step_eq (h : self.Polls event task dir order) : self.step event = self.poll task dir order := by
  obtain ⟨rfl, hcall⟩ | ⟨rfl, hcall⟩ := h
  · exact if_pos hcall
  · simp only [step, hcall]

/-- A poll that leaves its task waiting has found nothing more to do. -/
theorem idle_of_waits (hpolls : self.Polls event task dir order) (hstep : self.step event = some next)
    (hwaits : next.calls task = some dir) : next.shared.Idle dir := by
  have hpoll := hstep
  rw [hpolls.step_eq, poll] at hpoll
  split at hpoll
  · rename_i shared hpending
    cases hpoll
    obtain ⟨-, -, hwaiting⟩ | ⟨completion, before, hout, -⟩ := Acceptor.poll_accept_spec hpending
    · exact hwaiting.toIdle
    · cases hout
  · cases hpoll
    simp only [Function.update_self, reduceCtorEq] at hwaits
  · cases hpoll

/-- When there is nothing to do for the calls of a kind, the streams of that kind are sorted as far
as is known of them. -/
theorem settled_of_idle (hrun : Reachable step (System.new id side first) self) (hidle : self.shared.Idle dir) :
    (self.sorter first).Settled (·.dir = dir) := by
  obtain ⟨hsorted, -⟩ := sorted_of_reachable hrun
  rintro key rfl fate hverdict
  rw [sorter, Acceptor.sorter_verdict] at hverdict
  split_ifs at hverdict with hopened
  obtain ⟨hexpects, hopened⟩ := hopened
  have hobtained : self.shared.Obtained first key := ⟨hexpects, Nat.lt_of_lt_of_le hopened hidle.all_accepted⟩
  cases hlookup : (self.shared.accept.drained key.dir).tasks.lookup key with
  | none =>
    obtain ⟨fate', hfate, hfinal⟩ := hsorted.shared.final key ⟨hobtained, hlookup⟩
    rw [hfinal.judge_eq] at hverdict
    cases hverdict
    exact hfate
  | some task =>
    have hready := hidle.idle key task hlookup
    have hended := attentive_of_reachable hrun key.dir key task hlookup hready
    obtain ⟨hplace, -⟩ := hsorted.valid.shared.queued hlookup
    generalize self.returned.count key = count at hplace
    cases hplace with
    | queued _ _ _ _ hheadless =>
      rw [judge_of_headless (hheadless hready), if_pos hended] at hverdict
      cases hverdict

/-- Every stream that has been sorted has been sorted by what was received on it. -/
theorem faithful_of_reachable (hrun : Reachable step (System.new id side first) self) : (self.sorter first).Faithful :=
  Sorter.Steps.faithful (sorted_of_reachable hrun).2 fun _ _ hsorted => by cases hsorted

/-- What has come of a stream when there is nothing to do. -/
theorem sorted_eq_judge (hrun : Reachable step (System.new id side first) self) (hidle : self.shared.Idle key.dir)
    (hexpects : self.shared.Expects first key) (hopened : key.index < self.shared.conn.opened key.dir) :
    (self.sorter first).sorted key = judge id key (self.shared.conn.streams key) := by
  have hvalid := valid_of_reachable hrun
  rw [(faithful_of_reachable hrun).sorted_eq (settled_of_idle hrun hidle) rfl, sorter, Acceptor.sorter_verdict,
    if_pos ⟨hexpects, hopened⟩, hvalid.id_eq]

/-- The streams returned are those the sorter has sorted so. -/
theorem mem_returned_iff (first : Dir → Nat) :
    key ∈ self.returned ↔ (self.sorter first).sorted key = some .returned := by
  rw [sorter, Acceptor.sorter_sorted]
  split_ifs with hreturned
  · exact iff_of_true hreturned rfl
  · exact iff_of_false hreturned (by simp)
  · exact iff_of_false hreturned (by simp)
  · exact iff_of_false hreturned (by simp)

/-- The streams that calls have failed for are those the sorter has sorted so. -/
theorem Sorted.mem_failed_iff (hsorted : self.Sorted id side first) :
    key ∈ self.failed ↔ (self.sorter first).sorted key = some .failed := by
  rw [sorter, Acceptor.sorter_sorted]
  split_ifs with hreturned hfailed
  · exact iff_of_false (fun hfailed => (hsorted.shared.gone_of_failed key hfailed).2 hreturned) (by simp)
  · exact iff_of_true hfailed rfl
  · exact iff_of_false hfailed (by simp)
  · exact iff_of_false hfailed (by simp)

/-- Whenever a poll leaves its task waiting, every stream of its kind that the peer has opened has
been sorted as far as its bytes allow: it has been returned if and only if its header names the
session and the type for the caller, a call has failed for it if and only if its header names
another session or will never be complete, and its header is still being read if and only if it can
still come. -/
theorem wait_sorts_all (hrun : Reachable step (System.new id side first) self)
    (hpolls : self.Polls event task dir order) (hstep : self.step event = some next)
    (hwaits : next.calls task = some dir) :
    ∀ key, key.dir = dir → next.shared.Expects first key → key.index < next.shared.conn.opened dir →
      (key ∈ next.returned ↔ ∃ rest, Header (next.shared.conn.streams key).received (webtransport dir) id rest) ∧
      (key ∈ next.failed ↔
        (∃ stype sid rest, Header (next.shared.conn.streams key).received stype sid rest ∧ sid ≠ id) ∨
          Headless (next.shared.conn.streams key).received ∧ (next.shared.conn.streams key).ended ≠ none) ∧
      (key ∈ (next.shared.accept.drained dir).tasks ↔
        Headless (next.shared.conn.streams key).received ∧ (next.shared.conn.streams key).ended = none) := by
  have hnext : Reachable step (System.new id side first) next := .step hrun trivial hstep
  obtain ⟨hsorted, -⟩ := sorted_of_reachable hnext
  have hidle := idle_of_waits hpolls hstep hwaits
  rintro key rfl hexpects hopened
  have hjudge := sorted_eq_judge hnext hidle hexpects hopened
  have hobtained : next.shared.Obtained first key := ⟨hexpects, Nat.lt_of_lt_of_le hopened hidle.all_accepted⟩
  refine ⟨?_, ?_, ?_⟩
  · rw [mem_returned_iff first, hjudge, judge_eq_returned_iff]
  · rw [hsorted.mem_failed_iff, hjudge, judge_eq_failed_iff]
  · rw [← judge_eq_none_iff, ← hjudge, sorter, hsorted.shared.sorted_eq_none_iff, ← AList.lookup_isSome,
      Option.isSome_iff_ne_none]
    exact not_congr ⟨fun hnone => ⟨hobtained, hnone⟩, fun hgone => hgone.2⟩

/-- A stream is returned, and the next call waits. -/
theorem wait_sorts_all_one_stream : ∃ next : System, next.calls 8 = some .Uni ∧ next.returned = [⟨.Client, .Uni, 0⟩] ∧
    ∃ rest, Header (next.shared.conn.streams ⟨.Client, .Uni, 0⟩).received (webtransport .Uni) (.from_u32 0) rest := by
  have hfacts : (steps step (new (.from_u32 0) .Server fun _ => 0) [.peer_opens .Uni,
      .bytes ⟨.Client, .Uni, 0⟩ [0x40, 0x54, 0x00, 0x2a], .call 7 .Uni []]).bind (fun self =>
        (self.step (.call 8 .Uni [])).map fun next => (self.calls 8, next.calls 8, next.returned,
          next.shared.conn.side, next.shared.conn.opened .Uni)) =
      some (none, some .Uni, [⟨.Client, .Uni, 0⟩], .Server, 1) := by decide
  obtain ⟨self, hself, hnext⟩ := Option.bind_eq_some_iff.mp hfacts
  obtain ⟨next, hstep, hfacts⟩ := Option.map_eq_some_iff.mp hnext
  simp only [Prod.mk.injEq] at hfacts
  obtain ⟨hfree, hwaits, hreturned, hside, hopened⟩ := hfacts
  have hkey := wait_sorts_all (.steps .start hself) (.inl ⟨rfl, hfree⟩) hstep hwaits ⟨.Client, .Uni, 0⟩ rfl
    ⟨by rw [hside]; rfl, Nat.le_refl _⟩ (by rw [hopened]; exact Nat.one_pos)
  refine ⟨next, hwaits, hreturned, hkey.1.mp ?_⟩
  rw [hreturned]
  exact List.mem_singleton_self _

end System

end wt_rs
