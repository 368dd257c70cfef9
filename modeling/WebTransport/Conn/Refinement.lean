import WebTransport.Conn.Delivery
import WebTransport.Conn.Sorting

open rust rust.Outcome quinn transition wt_proto.coding wt_proto.h3

namespace wt_rs.System

/-- The streams that accept calls have failed for. -/
def failed (self : System) : List StreamId := self.log.flatMap (·.completion.failed)

/-- The sorter that the tasks with their accept calls make up together. -/
def sorter (first : Dir → Nat) (self : System) : Sorter StreamId Fate :=
  self.shared.sorter first self.returned self.failed

structure Sorted (id : VarInt) (side : Side) (first : Dir → Nat) (system : System) : Prop where
  valid : system.Valid id side first
  shared : system.shared.Sorted first system.returned system.failed

variable {id : VarInt} {side : Side} {first : Dir → Nat} {self next : System} {event : Event} {key : StreamId}
  {change : RecvStream → RecvStream} {dir : Dir}

theorem arrive_returned : (self.arrive key change).returned = self.returned := by
  rw [returned, arrive_log, returned]

theorem arrive_failed : (self.arrive key change).failed = self.failed := by
  rw [failed, arrive_log, failed]

theorem notify_returned (dir : Dir) : (self.notify dir).returned = self.returned := by
  rw [returned, notify_log, returned]

theorem notify_failed (dir : Dir) : (self.notify dir).failed = self.failed := by
  rw [failed, notify_log, failed]

/-- A waker is not seen from outside. -/
theorem notify_sorter (dir : Dir) : (self.notify dir).sorter first = self.sorter first := by
  rw [sorter, sorter, notify_shared, notify_returned, notify_failed]
  rfl

namespace Sorted

/-- A waker does not undo what has been sorted. -/
theorem notify (hsorted : self.Sorted id side first) (dir : Dir) : (self.notify dir).Sorted id side first := by
  have hvalid := hsorted.valid.notify dir
  have hshared := hvalid.shared
  refine ⟨hvalid, ?_⟩
  rw [notify_returned, notify_shared] at hshared
  rw [notify_returned, notify_failed, notify_shared]
  exact ⟨hshared, hsorted.shared.nodup, hsorted.shared.gone_of_failed, hsorted.shared.final⟩

/-- Bytes that come behind those that have been read can decide a stream, and undo no decision. -/
theorem arrive (hsorted : self.Sorted id side first) (hvalid : (self.arrive key change).Valid id side first)
    (htaken : (change (self.shared.conn.streams key)).taken = (self.shared.conn.streams key).taken)
    (hended : (self.shared.conn.streams key).ended = none ∨
      change (self.shared.conn.streams key) = self.shared.conn.streams key) :
    (self.arrive key change).Sorted id side first ∧
      Sorter.Steps (self.sorter first) ((self.arrive key change).sorter first) := by
  have hshared := hvalid.shared
  have hlookup : ∀ key', ((self.shared.accept.drained key.dir).wake key).1.tasks.lookup key' = none ↔
      (self.shared.accept.drained key.dir).tasks.lookup key' = none := by
    intro key'
    by_cases hkey : key' = key
    · rw [hkey, FuturesUnordered.lookup_wake_self, Option.map_eq_none_iff]
    · rw [FuturesUnordered.lookup_wake_ne _ hkey]
  rw [arrive_shared, arrive_returned] at hshared
  obtain ⟨hnext, hsteps⟩ := hsorted.shared.arrive hshared hlookup htaken hended
  refine ⟨⟨hvalid, ?_⟩, ?_⟩
  · rw [arrive_shared, arrive_returned, arrive_failed]
    exact hnext
  · rw [sorter, sorter, arrive_shared, arrive_returned, arrive_failed]
    exact hsteps

/-- Bytes that come on a stream on which the peer can still send undo no decision. -/
theorem arrive_live (hsorted : self.Sorted id side first) (hlive : self.Live key)
    (htaken : (change (self.shared.conn.streams key)).taken = (self.shared.conn.streams key).taken) :
    (self.arrive key change).Sorted id side first ∧
      Sorter.Steps (self.sorter first) ((self.arrive key change).sorter first) :=
  hsorted.arrive (hsorted.valid.arrive_live hlive htaken) htaken (.inl hlive.2.2.1)

/-- A stream that has just been opened has not been sorted. -/
theorem opened (hsorted : self.Sorted id side first)
    (hvalid : ((self.open_stream dir).notify dir).Valid id side first) :
    ((self.open_stream dir).notify dir).Sorted id side first ∧
      Sorter.Steps (self.sorter first) (((self.open_stream dir).notify dir).sorter first) := by
  have hshared := hvalid.shared
  rw [notify_returned, notify_shared] at hshared
  have hsorted' : ((self.open_stream dir).notify dir).Sorted id side first := by
    refine ⟨hvalid, ?_⟩
    rw [notify_returned, notify_failed, notify_shared]
    exact ⟨hshared, hsorted.shared.nodup, hsorted.shared.gone_of_failed, hsorted.shared.final⟩
  refine ⟨hsorted', ?_⟩
  rw [notify_sorter]
  set key := self.shared.conn.incoming dir (self.shared.conn.opened dir) with hkey
  have hunsorted : (self.sorter first).sorted key = none := by
    refine hsorted.shared.sorted_eq_none_iff.mpr fun hgone => ?_
    exact Nat.lt_irrefl _ (Nat.lt_of_lt_of_le hgone.1.2 (hsorted.valid.shared.bound dir).2)
  have hverdict : ((self.open_stream dir).sorter first).verdict = Function.update
      (self.sorter first).verdict key (((self.open_stream dir).sorter first).verdict key) := by
    funext key'
    by_cases hne : key' = key
    · subst hne
      rw [Function.update_self]
    · rw [Function.update_of_ne hne, sorter, sorter, Acceptor.sorter_verdict, Acceptor.sorter_verdict]
      refine if_congr (and_congr_right fun hexpects => ?_) rfl rfl
      by_cases hdir : key'.dir = dir
      · subst hdir
        have hindex : key'.index ≠ self.shared.conn.opened key'.dir :=
          fun hindex => hne (hkey ▸ hindex ▸ Acceptor.Expects.eq_incoming hexpects)
        simp only [open_stream, Function.update_self]
        omega
      · simp only [open_stream, Function.update_of_ne hdir]
  have hstep := Sorter.Step.learn (((self.open_stream dir).sorter first).verdict key) hunsorted
  rw [← hverdict] at hstep
  exact .single hstep

/-- An event takes steps of the sorter, or none. -/
theorem move (hsorted : self.Sorted id side first) (hmove : Move self event next) :
    next.Sorted id side first ∧ Sorter.Steps (self.sorter first) (next.sorter first) := by
  have hvalid := hsorted.valid.move hmove
  cases hmove with
  | peer_opens hlost => exact hsorted.opened hvalid
  | @bytes key data hlive =>
    obtain ⟨hnext, hsteps⟩ := @arrive_live id side first self key (·.push data) hsorted hlive rfl
    exact ⟨⟨hvalid, hnext.shared⟩, hsteps⟩
  | finish hlive => exact hsorted.arrive_live hlive rfl
  | reset hlive => exact hsorted.arrive_live hlive rfl
  | @close error hlost =>
    refine close_induction (fun system => system.Sorted id side first ∧
      Sorter.Steps (self.sorter first) (system.sorter first)) ⟨⟨?_, ?_⟩, .refl⟩ (fun dir h => ⟨h.1.notify dir, ?_⟩)
      fun key h => ?_
    · exact ⟨⟨hsorted.valid.shared.bound, hsorted.valid.shared.dir_eq, hsorted.valid.shared.place⟩,
        hsorted.valid.id_eq, hsorted.valid.side_eq, hsorted.valid.dirs⟩
    · exact ⟨⟨hsorted.valid.shared.bound, hsorted.valid.shared.dir_eq, hsorted.valid.shared.place⟩,
        hsorted.shared.nodup, hsorted.shared.gone_of_failed, hsorted.shared.final⟩
    · rw [notify_sorter]
      exact h.2
    · obtain ⟨hnext, hsteps⟩ := @arrive id side first _ key (fun stream => stream) h.1
        (h.1.valid.arrive rfl fun hdiscarded => hdiscarded) rfl (.inr rfl)
      exact ⟨hnext, h.2.trans hsteps⟩
  | wait hpolls hpoll =>
    obtain ⟨-, hturns, -⟩ | ⟨completion, before, hout, -⟩ := Acceptor.poll_accept_spec hpoll
    · obtain ⟨hshared, hsteps⟩ := hsorted.shared.turns hturns
      exact ⟨⟨hvalid, hshared⟩, hsteps⟩
    · cases hout
  | complete hpolls hpoll =>
    obtain ⟨hout, -⟩ | ⟨completion, before, hout, hturns, hends⟩ := Acceptor.poll_accept_spec hpoll
    · cases hout
    · cases hout
      obtain ⟨hbefore, hsteps⟩ := hsorted.shared.turns hturns
      obtain ⟨hshared, hmore⟩ := hbefore.ends hends
      exact ⟨⟨hvalid, hshared⟩, hsteps.trans hmore⟩
  | cancel hcall => exact ⟨⟨hvalid, hsorted.shared⟩, .refl⟩

/-- At the start nothing has been sorted. -/
theorem new (id : VarInt) (side : Side) (first : Dir → Nat) : (System.new id side first).Sorted id side first where
  valid := .new id side first
  shared := by
    refine ⟨(Valid.new id side first).shared, .nil, fun key hkey => ?_, fun key hgone => ?_⟩
    · cases hkey
    · exact absurd hgone.1.2 (Nat.not_lt_of_le hgone.1.1.2)

end Sorted

/-- A run goes on from a sorted system by steps of the sorter. -/
theorem Sorted.run (hsorted : self.Sorted id side first) (hrun : Reachable step self next) :
    next.Sorted id side first ∧ Sorter.Steps (self.sorter first) (next.sorter first) :=
  hrun.invariant (fun system => system.Sorted id side first ∧ Sorter.Steps (self.sorter first) (system.sorter first))
    ⟨hsorted, .refl⟩ fun ⟨hmid, hsteps⟩ _ hstep =>
      let ⟨hnext, hmore⟩ := hmid.move (move_of_step hstep)
      ⟨hnext, hsteps.trans hmore⟩

/-- The sorter that has seen nothing. -/
def unsorted : Sorter StreamId Fate := { verdict := fun _ => none, sorted := fun _ => none }

/-- A new acceptor has seen nothing. -/
theorem sorter_new (id : VarInt) (side : Side) (first : Dir → Nat) :
    (System.new id side first).sorter first = unsorted := by
  have hsorted := Sorted.new id side first
  refine congrArg₂ Sorter.mk (funext fun key => ?_) (funext fun key => ?_)
  · exact if_neg fun h => Nat.not_lt_of_le h.1.2 h.2
  · exact hsorted.shared.sorted_eq_none_iff.mpr fun hgone => Nat.not_lt_of_le hgone.1.1.2 hgone.1.2

/-- A run of the acceptor is a run of the sorter from its start. -/
theorem sorted_of_reachable (hrun : Reachable step (System.new id side first) self) :
    self.Sorted id side first ∧ Sorter.Steps unsorted (self.sorter first) := by
  rw [← sorter_new id side first]
  exact (Sorted.new id side first).run hrun

/-- Whatever tasks call, in whatever order header reads are polled, whatever calls are given up and
whatever arrives: from outside, every run is one of a sorter that sorts each stream once. -/
theorem refines_sorter (hrun : Reachable step (System.new id side first) self) (hlater : Reachable step self next) :
    Sorter.Steps unsorted (self.sorter first) ∧ Sorter.Steps (self.sorter first) (next.sorter first) := by
  obtain ⟨hsorted, hsteps⟩ := sorted_of_reachable hrun
  exact ⟨hsteps, (hsorted.run hlater).2⟩

/-- A stream is returned, and then a call fails for one of another session. -/
private theorem two_streams : ∃ self next, Reachable step (System.new (.from_u32 0) .Server fun _ => 0) self ∧
    Reachable step self next ∧ self.returned = [⟨.Client, .Uni, 0⟩] ∧ next.failed = [⟨.Client, .Uni, 1⟩] := by
  have hreturned : (steps step (new (.from_u32 0) .Server fun _ => 0) [.peer_opens .Uni, .call 7 .Uni [],
      .bytes ⟨.Client, .Uni, 0⟩ [0x40, 0x54, 0x00, 0x2a], .repoll 7 []]).bind (fun self =>
        (steps step self [.peer_opens .Uni, .bytes ⟨.Client, .Uni, 1⟩ [0x40, 0x54, 0x01], .call 7 .Uni []]).map
          fun next => (self.returned, next.failed)) = some ([⟨.Client, .Uni, 0⟩], [⟨.Client, .Uni, 1⟩]) := by decide
  obtain ⟨self, hself, hnext⟩ := Option.bind_eq_some_iff.mp hreturned
  obtain ⟨next, hnext, hlists⟩ := Option.map_eq_some_iff.mp hnext
  obtain ⟨hreturned, hfailed⟩ := Prod.mk.inj hlists
  exact ⟨self, next, .steps .start hself, .steps .start hnext, hreturned, hfailed⟩

/-- One stream is returned, and later a call fails for a second one. -/
theorem refines_sorter_two_streams : ∃ self next : System, self.returned = [⟨.Client, .Uni, 0⟩] ∧
    next.failed = [⟨.Client, .Uni, 1⟩] ∧ Sorter.Steps unsorted (self.sorter fun _ => 0) ∧
      Sorter.Steps (self.sorter fun _ => 0) (next.sorter fun _ => 0) := by
  obtain ⟨self, next, hrun, hlater, hreturned, hfailed⟩ := two_streams
  exact ⟨self, next, hreturned, hfailed, refines_sorter hrun hlater⟩

/-- A stream is sorted as the bytes received on it say. -/
theorem Sorted.judge_eq {fate : Fate} (hsorted : self.Sorted id side first)
    (hfate : (self.sorter first).sorted key = some fate) :
    judge id key (self.shared.conn.streams key) = some fate := by
  have hgone : self.shared.Gone first key := by
    by_contra hnot
    rw [sorter, hsorted.shared.sorted_eq_none_iff.mpr hnot] at hfate
    cases hfate
  obtain ⟨fate', hfate', hfinal⟩ := hsorted.shared.final key hgone
  rw [sorter, hfate'] at hfate
  cases hfate
  rw [← hsorted.valid.id_eq]
  exact hfinal.judge_eq

/-- Of all accept calls together at most one comes back with a stream or fails for it. What came
of a stream is what its own bytes say, then and in every later state, and it stays so. -/
theorem fates_final (hrun : Reachable step (System.new id side first) self) (hlater : Reachable step self next) :
    (next.returned ++ next.failed).Nodup ∧ ∀ key fate, (self.sorter first).sorted key = some fate →
      judge id key (self.shared.conn.streams key) = some fate ∧
        (next.sorter first).sorted key = some fate ∧ judge id key (next.shared.conn.streams key) = some fate := by
  obtain ⟨hsorted, -⟩ := sorted_of_reachable hrun
  obtain ⟨hnext, hsteps⟩ := hsorted.run hlater
  refine ⟨List.nodup_append'.mpr ⟨?_, hnext.shared.nodup, fun key hreturned hfailed => ?_⟩, fun key fate hfate => ?_⟩
  · exact List.nodup_iff_count_le_one.mpr fun key => (hnext.valid.shared.place key).count_le
  · exact (hnext.shared.gone_of_failed key hfailed).2 hreturned
  · have hfate' := Sorter.Steps.sorted hsteps hfate
    exact ⟨hsorted.judge_eq hfate, hfate', hnext.judge_eq hfate'⟩

/-- The stream that was returned keeps its fate while a call fails for the second one. -/
theorem fates_final_two_streams : ∃ next : System, (next.returned ++ next.failed).Nodup ∧
    next.failed = [⟨.Client, .Uni, 1⟩] ∧ (next.sorter fun _ => 0).sorted ⟨.Client, .Uni, 0⟩ = some .returned := by
  obtain ⟨self, next, hrun, hlater, hreturned, hfailed⟩ := two_streams
  obtain ⟨hnodup, hfinal⟩ := fates_final hrun hlater
  have hmem : (⟨.Client, .Uni, 0⟩ : StreamId) ∈ self.returned := by
    rw [hreturned]
    exact List.mem_singleton_self _
  exact ⟨next, hnodup, hfailed, (hfinal _ .returned (if_pos hmem)).2.1⟩

end wt_rs.System
