import WebTransport.Conn.Fate
import WebTransport.Conn.Hold
import WebTransport.Transition.Sorter

open rust rust.Outcome rust.Async quinn transition wt_proto.coding wt_proto.h3

namespace wt_rs

/-- The streams an accept call fails for. -/
def Completion.failed (self : Completion) : List StreamId :=
  match self.cause, self.result with
  | some key, err _ => [key]
  | _, _ => []

namespace Acceptor

/-- The acceptor has got the stream, and no longer reads its header. -/
def Gone (first : Dir → Nat) (acceptor : Acceptor) (key : StreamId) : Prop :=
  acceptor.Obtained first key ∧ (acceptor.accept.drained key.dir).tasks.lookup key = none

instance (first : Dir → Nat) (acceptor : Acceptor) (key : StreamId) : Decidable (acceptor.Expects first key) :=
  inferInstanceAs (Decidable (_ ∧ _))

instance (first : Dir → Nat) (acceptor : Acceptor) (key : StreamId) : Decidable (acceptor.Gone first key) :=
  decidable_of_iff ((acceptor.Expects first key ∧ key.index < acceptor.conn.accepted key.dir) ∧
    ((acceptor.accept.drained key.dir).tasks.lookup key).isNone) (and_congr_right' Option.isNone_iff_eq_none)

/-- What an acceptor does, as far as can be seen from outside: it sorts the streams of the peer,
after it has returned some of them and failed for others. -/
def sorter (first : Dir → Nat) (returned failed : List StreamId) (self : Acceptor) : Sorter StreamId Fate where
  verdict key :=
    if self.Expects first key ∧ key.index < self.conn.opened key.dir then
      judge self.accept.id key (self.conn.streams key)
    else none
  sorted key :=
    if key ∈ returned then some .returned
    else if key ∈ failed then some .failed
    else if self.Gone first key then some .absorbed
    else none

theorem sorter_verdict (first : Dir → Nat) (returned failed : List StreamId) (self : Acceptor) (key : StreamId) :
    (self.sorter first returned failed).verdict key =
      if self.Expects first key ∧ key.index < self.conn.opened key.dir then
        judge self.accept.id key (self.conn.streams key)
      else none := rfl

theorem sorter_sorted (first : Dir → Nat) (returned failed : List StreamId) (self : Acceptor) (key : StreamId) :
    (self.sorter first returned failed).sorted key =
      if key ∈ returned then some .returned
      else if key ∈ failed then some .failed
      else if self.Gone first key then some .absorbed
      else none := rfl

/-- Every stream that has left the queue has been sorted once, and as it has been read. -/
structure Sorted (first : Dir → Nat) (acceptor : Acceptor) (returned failed : List StreamId) : Prop where
  valid : acceptor.Valid first returned
  nodup : failed.Nodup
  gone_of_failed : ∀ key ∈ failed, acceptor.Gone first key ∧ key ∉ returned
  final : ∀ key, acceptor.Gone first key → ∃ fate,
    (acceptor.sorter first returned failed).sorted key = some fate ∧
      Final acceptor.accept.id key (acceptor.conn.streams key) fate

variable {dir : Dir} {cx : TaskId} {first : Dir → Nat} {self next : Acceptor}
  {returned failed returned' failed' : List StreamId} {key : StreamId} {task : QueuedFuture PendingHeader}

/-- A stream that was returned is no longer in the queue. -/
theorem Valid.gone_of_returned (hvalid : self.Valid first returned) (hkey : key ∈ returned) : self.Gone first key := by
  have hplace := hvalid.place key
  have hcount := List.count_pos_iff.mpr hkey
  generalize hpending : (self.accept.drained key.dir).tasks.lookup key = pending at hplace
  generalize returned.count key = count at hplace hcount
  cases hplace with
  | returned hinitiator hfirst hindex _ => exact ⟨⟨⟨hinitiator, hfirst⟩, hindex⟩, hpending⟩
  | foreign | before | ahead | queued | discarded => cases hcount

/-- A stream in the queue has been accepted. -/
theorem Valid.obtained (hvalid : self.Valid first returned)
    (hlookup : (self.accept.drained dir).tasks.lookup key = some task) : self.Obtained first key := by
  obtain ⟨hplace, rfl⟩ := hvalid.queued hlookup
  generalize returned.count key = count at hplace
  cases hplace with
  | queued hinitiator hfirst hindex => exact ⟨⟨hinitiator, hfirst⟩, hindex⟩

/-- A stream in the queue is still being read. -/
theorem not_gone_of_lookup (hlookup : (self.accept.drained key.dir).tasks.lookup key = some task) :
    ¬ self.Gone first key := by
  rintro ⟨-, hnone⟩
  rw [hlookup] at hnone
  cases hnone

namespace Sorted

/-- The streams that have been sorted are those that have left the queue. -/
theorem sorted_eq_none_iff (hsorted : self.Sorted first returned failed) :
    (self.sorter first returned failed).sorted key = none ↔ ¬ self.Gone first key := by
  constructor
  · intro hnone hgone
    obtain ⟨fate, hfate, -⟩ := hsorted.final key hgone
    rw [hnone] at hfate
    cases hfate
  · intro hgone
    rw [sorter_sorted, if_neg (fun hkey => hgone (hsorted.valid.gone_of_returned hkey)),
      if_neg (fun hkey => hgone (hsorted.gone_of_failed key hkey).1), if_neg hgone]

/-- Nothing leaves the queue, and what is final stays final. -/
theorem congr (hsorted : self.Sorted first returned failed) (hvalid : next.Valid first returned)
    (hgone : ∀ key, next.Gone first key ↔ self.Gone first key)
    (hfinal : ∀ key fate, self.Gone first key → Final self.accept.id key (self.conn.streams key) fate →
      Final next.accept.id key (next.conn.streams key) fate) :
    next.Sorted first returned failed ∧
      (next.sorter first returned failed).sorted = (self.sorter first returned failed).sorted := by
  have hsame : (next.sorter first returned failed).sorted = (self.sorter first returned failed).sorted := by
    funext key
    simp only [sorter_sorted, hgone]
  refine ⟨⟨hvalid, hsorted.nodup, fun key hkey => ?_, fun key hkey => ?_⟩, hsame⟩
  · rw [hgone]
    exact hsorted.gone_of_failed key hkey
  · rw [hgone] at hkey
    obtain ⟨fate, hfate, hread⟩ := hsorted.final key hkey
    exact ⟨fate, by rw [hsame]; exact hfate, hfinal key fate hkey hread⟩

end Sorted

/-- The polls of an acceptor change nothing of what can be known of a stream. -/
theorem Frame.verdict (hframe : Frame dir self next) :
    (next.sorter first returned' failed').verdict = (self.sorter first returned failed).verdict := by
  funext key
  rw [sorter_verdict, sorter_verdict, hframe.opened, hframe.id, judge_congr (hframe.received key) (hframe.ended key)]
  exact if_congr (and_congr_left' hframe.expects) rfl rfl

/-- The peer opens one stream of a kind for each number. -/
theorem Expects.eq_incoming (hexpects : self.Expects first key) :
    key = self.conn.incoming key.dir key.index := by
  rw [quinn.Connection.incoming, ← hexpects.1]

/-- Accepting a stream puts it into the queue, so that no stream is gone by it. -/
theorem gone_take (self : Acceptor) (dir : Dir) : (self.take dir).Gone first key ↔ self.Gone first key := by
  by_cases hdir : key.dir = dir
  · subst hdir
    by_cases hkey : key = self.conn.incoming key.dir (self.conn.accepted key.dir)
    · have hlookup : ((self.take key.dir).accept.drained key.dir).tasks.lookup key ≠ none := by
        rw [take_drained, ← hkey, AList.lookup_insert]
        exact Option.some_ne_none _
      have hindex : key.index = self.conn.accepted key.dir := congrArg StreamId.index hkey
      exact iff_of_false (fun hgone => hlookup hgone.2) fun hgone => Nat.lt_irrefl _ (hindex ▸ hgone.1.2)
    · rw [Gone, Gone, Obtained, Obtained, take_accepted, take_drained, AList.lookup_insert_ne hkey]
      refine and_congr_left' (and_congr_right fun hexpects => ?_)
      have hindex : key.index ≠ self.conn.accepted key.dir :=
        fun hindex => hkey (hindex ▸ Expects.eq_incoming hexpects)
      omega
  · rw [Gone, Gone, Obtained, Obtained, take_accepted_ne hdir, take_drained_ne hdir]
    exact Iff.rfl

namespace Sorted

/-- A stream leaves the queue, and is sorted. -/
theorem leave {waker : Option TaskId} {stream : RecvStream} {fate : Fate}
    (hsorted : self.Sorted first returned failed)
    (hlookup : (self.accept.drained key.dir).tasks.lookup key = some task)
    (hvalid : (self.set_queue key.dir { tasks := (self.accept.drained key.dir).tasks.erase key, waker }
      (Function.update self.conn.streams key stream)).Valid first returned')
    (hreceived : stream.received = (self.conn.streams key).received)
    (hended : stream.ended = (self.conn.streams key).ended) (hfinal : Final self.accept.id key stream fate)
    (hreturned : ∀ key', key' ∈ returned' ↔ key' ∈ returned ∨ key' = key ∧ fate = .returned)
    (hfailed : ∀ key', key' ∈ failed' ↔ key' ∈ failed ∨ key' = key ∧ fate = .failed) (hnodup : failed'.Nodup) :
    (self.set_queue key.dir { tasks := (self.accept.drained key.dir).tasks.erase key, waker }
      (Function.update self.conn.streams key stream)).Sorted first returned' failed' ∧
    Sorter.Steps (self.sorter first returned failed)
      ((self.set_queue key.dir { tasks := (self.accept.drained key.dir).tasks.erase key, waker }
        (Function.update self.conn.streams key stream)).sorter first returned' failed') := by
  set next := self.set_queue key.dir { tasks := (self.accept.drained key.dir).tasks.erase key, waker }
    (Function.update self.conn.streams key stream) with hnext
  have hgone_self := @not_gone_of_lookup first self key task hlookup
  have hunsorted := hsorted.sorted_eq_none_iff.mpr hgone_self
  have hnot_returned : key ∉ returned := fun h => hgone_self (hsorted.valid.gone_of_returned h)
  have hnot_failed : key ∉ failed := fun h => hgone_self (hsorted.gone_of_failed key h).1
  have hgone : ∀ key', next.Gone first key' ↔ self.Gone first key' ∨ key' = key := by
    intro key'
    by_cases hkey : key' = key
    · subst hkey
      refine iff_of_true ⟨hsorted.valid.obtained hlookup, ?_⟩ (.inr rfl)
      rw [hnext, set_queue_drained]
      exact AList.lookup_erase _ _
    · rw [or_iff_left hkey, Gone, Gone]
      refine and_congr_right' ?_
      by_cases hdir : key'.dir = key.dir
      · rw [hnext, hdir, set_queue_drained, AList.lookup_erase_ne hkey]
      · rw [hnext, set_queue_drained_ne hdir]
  have hverdict : (next.sorter first returned' failed').verdict = (self.sorter first returned failed).verdict :=
    (Frame.set_queue self key.dir _ hreceived hended).verdict
  have hsame : (next.sorter first returned' failed').sorted =
      Function.update (self.sorter first returned failed).sorted key (some fate) := by
    funext key'
    by_cases hkey : key' = key
    · subst hkey
      rw [Function.update_self]
      simp only [sorter_sorted, hreturned, hfailed, hgone, hnot_returned, hnot_failed, true_and, false_or, or_true,
        if_true]
      cases fate <;> rfl
    · rw [Function.update_of_ne hkey]
      simp only [sorter_sorted, hreturned, hfailed, hgone, hkey, false_and, or_false]
  have hlearned : (self.sorter first returned failed).verdict key = some fate := by
    have hobtained := hsorted.valid.obtained hlookup
    have hopened := Nat.lt_of_lt_of_le hobtained.2 (hsorted.valid.bound key.dir).2
    rw [sorter_verdict, if_pos ⟨hobtained.1, hopened⟩, ← judge_congr hreceived hended]
    exact hfinal.judge_eq
  refine ⟨⟨hvalid, hnodup, fun key' hkey' => ?_, fun key' hkey' => ?_⟩, .single ?_⟩
  · rw [hgone, hreturned]
    obtain hold | ⟨rfl, rfl⟩ := (hfailed key').mp hkey'
    · have hkey : key' ≠ key := fun h => hnot_failed (h ▸ hold)
      obtain ⟨hgone', hnot⟩ := hsorted.gone_of_failed key' hold
      exact ⟨.inl hgone', fun h => h.elim hnot fun h => hkey h.1⟩
    · exact ⟨.inr rfl, fun h => h.elim hnot_returned fun h => Fate.noConfusion h.2⟩
  · rw [hsame]
    by_cases hkey : key' = key
    · subst hkey
      refine ⟨fate, Function.update_self .., ?_⟩
      rw [hnext, set_queue_streams, Function.update_self]
      exact hfinal
    · obtain ⟨fate', hfate', hfinal'⟩ := hsorted.final key' (((hgone key').mp hkey').resolve_right hkey)
      refine ⟨fate', (Function.update_of_ne hkey _ _).trans hfate', ?_⟩
      rw [hnext, set_queue_streams, Function.update_of_ne hkey]
      exact hfinal'
  · have hstep := Sorter.Step.sort hunsorted hlearned
    rw [← hsame, ← hverdict] at hstep
    exact hstep

/-- Something happens to a stream, which does not matter any more if it has been sorted. -/
theorem arrive {drained : Drained} {stream : RecvStream} (hsorted : self.Sorted first returned failed)
    (hvalid : (self.set_queue key.dir drained (Function.update self.conn.streams key stream)).Valid first returned)
    (hlookup : ∀ key', drained.tasks.lookup key' = none ↔ (self.accept.drained key.dir).tasks.lookup key' = none)
    (htaken : stream.taken = (self.conn.streams key).taken)
    (hended : (self.conn.streams key).ended = none ∨ stream = self.conn.streams key) :
    (self.set_queue key.dir drained (Function.update self.conn.streams key stream)).Sorted first returned failed ∧
    Sorter.Steps (self.sorter first returned failed)
      ((self.set_queue key.dir drained (Function.update self.conn.streams key stream)).sorter first returned
        failed) := by
  set next := self.set_queue key.dir drained (Function.update self.conn.streams key stream) with hnext
  have hgone : ∀ key', next.Gone first key' ↔ self.Gone first key' := by
    intro key'
    refine and_congr_right' ?_
    by_cases hdir : key'.dir = key.dir
    · rw [hnext, hdir, set_queue_drained]
      exact hlookup key'
    · rw [hnext, set_queue_drained_ne hdir]
  obtain ⟨hsorted', hsame⟩ := hsorted.congr hvalid hgone fun key' fate _ hfinal => by
    rw [hnext, set_queue_streams]
    by_cases hkey : key' = key
    · subst hkey
      rw [Function.update_self]
      exact hfinal.congr htaken hended
    · rw [Function.update_of_ne hkey]
      exact hfinal
  have hverdict : (next.sorter first returned failed).verdict = Function.update
      (self.sorter first returned failed).verdict key ((next.sorter first returned failed).verdict key) := by
    funext key'
    by_cases hkey : key' = key
    · subst hkey
      rw [Function.update_self]
    · rw [Function.update_of_ne hkey, sorter_verdict, sorter_verdict, hnext, set_queue_streams,
        Function.update_of_ne hkey]
      rfl
  refine ⟨hsorted', ?_⟩
  cases hfate : (self.sorter first returned failed).sorted key with
  | none =>
    have hstep := Sorter.Step.learn ((next.sorter first returned failed).verdict key) hfate
    rw [← hverdict, ← hsame] at hstep
    exact .single hstep
  | some fate =>
    have hkey : self.Gone first key := by
      by_contra hnot
      rw [hsorted.sorted_eq_none_iff.mpr hnot] at hfate
      cases hfate
    obtain ⟨fate', -, hfinal⟩ := hsorted.final key hkey
    have hjudge : judge next.accept.id key (next.conn.streams key) =
        judge self.accept.id key (self.conn.streams key) := by
      rw [hfinal.judge_eq, hnext, set_queue_streams, Function.update_self]
      exact (hfinal.congr htaken hended).judge_eq
    refine Sorter.steps_of_eq ?_ hsame
    rw [hverdict]
    refine Function.update_eq_self_iff.mpr ?_
    rw [sorter_verdict, sorter_verdict, hjudge]
    rfl

/-- A stream that is not for the caller is absorbed. -/
theorem other {future : PendingHeader} {streams : StreamId → RecvStream} {stype : VarInt} {stream : StreamId}
    (hsorted : self.Sorted first returned failed) (hlost : self.conn.lost = none)
    (hlookup : (self.accept.drained dir).tasks.lookup key = some ⟨future, true⟩)
    (hpoll : poll_header self.conn.lost key future self.conn.streams = (.inr (ok (stype, stream)), streams))
    (hdispatch : dispatch dir stype ≠ .deliver) :
    (self.set_queue dir { self.accept.drained dir with
      tasks := (self.accept.drained dir).tasks.erase key } streams).Sorted first returned failed ∧
    Sorter.Steps (self.sorter first returned failed) ((self.set_queue dir { self.accept.drained dir with
      tasks := (self.accept.drained dir).tasks.erase key } streams).sorter first returned failed) := by
  have hvalid' := hsorted.valid.other hlookup hpoll hdispatch
  obtain ⟨state, rfl, hreceived, hended, hpolled, -⟩ := hsorted.valid.finish hlookup hpoll
  obtain rfl := hsorted.valid.dir_eq hlookup
  rw [hlost] at hpolled
  obtain ⟨stype', hresult, hfinal⟩ | ⟨error, hresult, -⟩ := hpolled.final
  · cases hresult
    rw [if_neg hdispatch] at hfinal
    have hsame (list : List StreamId) (fate : Fate) (hfate : Fate.absorbed ≠ fate) (key' : StreamId) :
        key' ∈ list ↔ key' ∈ list ∨ key' = key ∧ Fate.absorbed = fate :=
      (or_iff_left fun h => hfate h.2).symm
    exact hsorted.leave hlookup hvalid' hreceived hended hfinal (hsame returned _ Fate.noConfusion)
      (hsame failed _ Fate.noConfusion) hsorted.nodup
  · cases hresult

/-- A turn of the loop is a step of the sorter, or none: a stream that leaves the queue without an
answer is absorbed. -/
theorem turn (hsorted : self.Sorted first returned failed) (hturn : Turn dir cx self next) :
    next.Sorted first returned failed ∧
      Sorter.Steps (self.sorter first returned failed) (next.sorter first returned failed) := by
  have hvalid := hsorted.valid
  have hvalid' := hvalid.turn hturn
  have hframe := hturn.frame hvalid
  have hunchanged (hgone : ∀ key, next.Gone first key ↔ self.Gone first key)
      (hstreams : ∀ key, self.Gone first key → next.conn.streams key = self.conn.streams key) :
      next.Sorted first returned failed ∧
        Sorter.Steps (self.sorter first returned failed) (next.sorter first returned failed) := by
    obtain ⟨hsorted', hsame⟩ := hsorted.congr hvalid' hgone fun key fate hkey hfinal => by
      rw [hframe.id, hstreams key hkey]
      exact hfinal
    exact ⟨hsorted', Sorter.steps_of_eq hframe.verdict hsame⟩
  cases hturn with
  | take hopened => exact hunchanged (fun key => gone_take self dir) fun _ _ => rfl
  | accepting => exact hunchanged (fun _ => Iff.rfl) fun _ _ => rfl
  | waker =>
    refine hunchanged (fun key => and_congr_right' ?_) fun _ _ => rfl
    by_cases hdir : key.dir = dir
    · subst hdir
      simp only [set_drained, Function.update_self]
    · simp only [set_drained, Function.update_of_ne hdir]
  | @advance key future future' streams hlost hlookup hpoll =>
    obtain ⟨hplace, rfl⟩ := hvalid.queued hlookup
    generalize returned.count key = count at hplace
    cases hplace with
    | queued hinitiator hfirst hindex hresidual hidle =>
      obtain ⟨stream, rfl, -⟩ := poll_header_spec hresidual hpoll
      refine hunchanged (fun key' => and_congr_right' ?_) fun key' hgone => ?_
      · by_cases hdir : key'.dir = key.dir
        · rw [hdir, set_queue_drained]
          by_cases hkey : key' = key
          · subst hkey
            rw [AList.lookup_insert, hlookup]
            exact iff_of_false (Option.some_ne_none _) (Option.some_ne_none _)
          · rw [AList.lookup_insert_ne hkey]
        · rw [set_queue_drained_ne hdir]
      · have hkey : key' ≠ key := fun h => not_gone_of_lookup hlookup (h ▸ hgone)
        exact Function.update_of_ne hkey _ _
  | store hlost hlookup hpoll hdispatch =>
    obtain ⟨hsorted', hsteps⟩ := hsorted.other hlost hlookup hpoll (by rw [hdispatch]; exact Dispatch.noConfusion)
    exact ⟨⟨hvalid', hsorted'.nodup, hsorted'.gone_of_failed, hsorted'.final⟩, hsteps⟩
  | ignore hlost hlookup hpoll hdispatch =>
    exact hsorted.other hlost hlookup hpoll (by rw [hdispatch]; exact Dispatch.noConfusion)

/-- Some turns are steps of the sorter. -/
theorem turns (hsorted : self.Sorted first returned failed) (hturns : Turns dir cx self next) :
    next.Sorted first returned failed ∧
      Sorter.Steps (self.sorter first returned failed) (next.sorter first returned failed) := by
  induction hturns with
  | refl => exact ⟨hsorted, .refl⟩
  | tail _ hturn ih =>
    obtain ⟨hmid, hsteps⟩ := ih
    obtain ⟨hnext, hmore⟩ := hmid.turn hturn
    exact ⟨hnext, hsteps.trans hmore⟩

/-- The end of a poll sorts the stream that it returns or fails for. -/
theorem ends {completion : Completion} (hsorted : self.Sorted first returned failed)
    (hends : Ends dir self completion next) :
    next.Sorted first (completion.returned ++ returned) (completion.failed ++ failed) ∧
      Sorter.Steps (self.sorter first returned failed)
        (next.sorter first (completion.returned ++ returned) (completion.failed ++ failed)) := by
  have hvalid := hsorted.valid
  have hvalid' := hvalid.ends hends
  cases hends with
  | lost => exact ⟨hsorted, .refl⟩
  | @deliver key stream future stype streams hlost hlookup hpoll hdispatch =>
    obtain ⟨state, rfl, hreceived, hended, hpolled, -⟩ := hvalid.finish hlookup hpoll
    obtain rfl := hvalid.dir_eq hlookup
    rw [hlost] at hpolled
    obtain ⟨stype', hresult, hfinal⟩ | ⟨error, hresult, -⟩ := hpolled.final
    · cases hresult
      rw [if_pos hdispatch] at hfinal
      refine hsorted.leave hlookup hvalid' hreceived hended hfinal (fun key' => ?_) (fun key' => ?_) hsorted.nodup
      · rw [Completion.returned, List.singleton_append, List.mem_cons, or_comm, and_iff_left rfl]
      · rw [Completion.failed, List.nil_append]
        exact (or_iff_left fun h => Fate.noConfusion h.2).symm
    · cases hresult
  | @fail key future error streams hlost hlookup hpoll =>
    obtain ⟨state, rfl, hreceived, hended, hpolled, -⟩ := hvalid.finish hlookup hpoll
    obtain rfl := hvalid.dir_eq hlookup
    rw [hlost] at hpolled
    obtain ⟨stype', hresult, -⟩ | ⟨error', -, hfinal⟩ := hpolled.final
    · cases hresult
    · refine hsorted.leave hlookup hvalid' hreceived hended hfinal (fun key' => ?_) (fun key' => ?_) ?_
      · rw [Completion.returned, List.nil_append]
        exact (or_iff_left fun h => Fate.noConfusion h.2).symm
      · rw [Completion.failed, List.singleton_append, List.mem_cons, or_comm, and_iff_left rfl]
      · rw [Completion.failed, List.singleton_append, List.nodup_cons]
        exact ⟨fun h => not_gone_of_lookup hlookup (hsorted.gone_of_failed key h).1, hsorted.nodup⟩

end Sorted

end Acceptor

end wt_rs
