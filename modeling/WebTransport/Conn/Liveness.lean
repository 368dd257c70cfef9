import WebTransport.Conn.Quiescence
import WebTransport.Conn.Wakeup

open rust rust.Outcome quinn transition wt_proto.coding wt_proto.h3

namespace wt_rs

namespace Acceptor

variable {dir : Dir} {cx : TaskId} {order : List StreamId} {first : Dir → Nat} {self next : Acceptor}
  {returned : List StreamId} {completion : Completion} {error : ConnectionError} {key : StreamId}

/-- A poll that comes back without an error of the connection has one header read less to do. -/
theorem load_ready (hvalid : self.Valid first returned) (hlost : self.conn.lost = none)
    (hpoll : self.poll_accept dir cx order = ok (.Ready completion, next)) :
    next.load dir < self.load dir := by
  obtain ⟨hout, -⟩ | ⟨completion', before, hout, hturns, hends⟩ := poll_accept_spec hpoll
  · cases hout
  · cases hout
    have hload := load_turns hturns
    cases hends with
    | lost hlost' =>
      rw [(Turns.frame hturns hvalid).lost, hlost] at hlost'
      cases hlost'
    | deliver hlost' hlookup => exact Nat.lt_of_lt_of_le (load_erase hlookup) hload
    | fail hlost' hlookup => exact Nat.lt_of_lt_of_le (load_erase hlookup) hload

/-- On a lost connection a poll comes back with the loss. -/
theorem poll_lost (hvalid : self.Valid first returned) (hlost : self.conn.lost = some error) :
    ∃ next, self.poll_accept dir cx order = ok (.Ready ⟨none, err (.ConnectionError error)⟩, next) := by
  obtain ⟨out, next, hpoll⟩ := @poll_accept_returns dir cx order _ _ _ hvalid
  refine ⟨next, ?_⟩
  obtain ⟨-, hturns, hwaiting⟩ | ⟨completion, before, rfl, hturns, hends⟩ := poll_accept_spec hpoll
  · have hnot_lost := hwaiting.not_lost
    rw [(Turns.frame hturns hvalid).lost, hlost] at hnot_lost
    cases hnot_lost
  · have hbefore := (Turns.frame hturns hvalid).lost.trans hlost
    cases hends with
    | lost hlost' =>
      rw [hbefore] at hlost'
      cases hlost'
      exact hpoll
    | deliver hlost' => rw [hbefore] at hlost'; cases hlost'
    | fail hlost' => rw [hbefore] at hlost'; cases hlost'

/-- An undecided stream comes from the connection. -/
theorem Undecided.expects (hundecided : self.Undecided key) (hvalid : self.Valid first returned) :
    self.Expects first key := by
  obtain ⟨hinitiator, -, hahead | hmem⟩ := hundecided
  · exact ⟨hinitiator, (hvalid.bound key.dir).1.trans hahead⟩
  · obtain ⟨task, hlookup⟩ := FuturesUnordered.mem_iff_lookup.mp hmem
    exact hvalid.expects hlookup

/-- An undecided stream has not been sorted. -/
theorem Undecided.not_gone (hundecided : self.Undecided key) : ¬ self.Gone first key := by
  rintro ⟨⟨-, hindex⟩, hnone⟩
  obtain ⟨-, -, hahead | hmem⟩ := hundecided
  · exact Nat.not_lt_of_le hahead hindex
  · rw [← AList.lookup_isSome, hnone] at hmem
    cases hmem

end Acceptor

namespace System

variable {id : VarInt} {side : Side} {first : Dir → Nat} {self next : System} {event : Event} {key : StreamId}
  {dir : Dir} {task : TaskId} {order : List StreamId}

/-- The stream is for a caller who has not got it, and its header has arrived. -/
structure Awaited (id : VarInt) (first : Dir → Nat) (key : StreamId) (system : System) : Prop where
  expects : system.shared.Expects first key
  opened : key.index < system.shared.conn.opened key.dir
  header : ∃ rest, Header (system.shared.conn.streams key).received (webtransport key.dir) id rest
  not_returned : key ∉ system.returned

/-- As long as a stream is awaited no call waits once it is polled, and every call that comes back
leaves less to do. -/
theorem poll_of_awaited (hrun : Reachable step (System.new id side first) self) (hlost : self.shared.conn.lost = none)
    (hawaited : self.Awaited id first key) (hpolls : self.Polls event task key.dir order) :
    ∃ next, self.step event = some next ∧ next.shared.conn.lost = none ∧
      next.calls = Function.update self.calls task none ∧
      next.shared.load key.dir < self.shared.load key.dir ∧ (key ∈ next.returned ∨ next.Awaited id first key) := by
  have hvalid := valid_of_reachable hrun
  obtain ⟨out, shared, hpoll⟩ := @Acceptor.poll_accept_returns key.dir task order _ _ _ hvalid.shared
  have hframe := Acceptor.poll_accept_frame hvalid.shared hpoll
  have hstep := hpolls.step_eq
  rw [poll, hpoll] at hstep
  have hexpects := hframe.expects.mpr hawaited.expects
  have hopened : key.index < shared.conn.opened key.dir := by
    rw [hframe.opened]
    exact hawaited.opened
  have hheader : ∃ rest, Header (shared.conn.streams key).received (webtransport key.dir) id rest := by
    rw [hframe.received]
    exact hawaited.header
  cases out with
  | Pending =>
    have hidle := idle_of_waits hpolls hstep (Function.update_self ..)
    have hjudge := sorted_eq_judge (.step hrun trivial hstep) hidle hexpects hopened
    exact absurd ((mem_returned_iff first).mpr (hjudge.trans (judge_eq_returned_iff.mpr hheader))) hawaited.not_returned
  | Ready completion =>
    refine ⟨_, hstep, hframe.lost.trans hlost, rfl, Acceptor.load_ready hvalid.shared hlost hpoll, ?_⟩
    exact or_iff_not_imp_left.mpr fun hnot => ⟨hexpects, hopened, hheader, hnot⟩

/-- Every call leaves less to do, until one comes back with the stream. -/
theorem returned_of_awaited (hrun : Reachable step (System.new id side first) self)
    (hlost : self.shared.conn.lost = none) (hawaited : self.Awaited id first key)
    (callers : Nat → TaskId × List StreamId) (hfree : ∀ n, self.calls (callers n).1 = none) :
    ∃ n ≤ self.shared.load key.dir, ∃ next, steps step self ((List.range n).map fun i =>
      .call (callers i).1 key.dir (callers i).2) = some next ∧ key ∈ next.returned := by
  generalize hload : self.shared.load key.dir = load
  induction load using Nat.strong_induction_on generalizing self callers with
  | _ load ih =>
    obtain ⟨mid, hstep, hlost', hcalls, hless, hnext⟩ :=
      poll_of_awaited hrun hlost hawaited (.inl ⟨rfl, hfree 0⟩ : self.Polls (.call _ _ (callers 0).2) _ _ _)
    have hfree' (n : Nat) : mid.calls (callers (n + 1)).1 = none := by
      rw [hcalls, Function.update_apply]
      split_ifs
      · rfl
      · exact hfree (n + 1)
    have hcons (n : Nat) : steps step self ((List.range (n + 1)).map fun i =>
          .call (callers i).1 key.dir (callers i).2) =
        steps step mid ((List.range n).map fun i => .call (callers (i + 1)).1 key.dir (callers (i + 1)).2) := by
      rw [List.range_succ_eq_map, List.map_cons, List.map_map, steps, hstep]
      rfl
    obtain hreturned | hawaited' := hnext
    · exact ⟨1, by omega, mid, by rw [hcons]; rfl, hreturned⟩
    · obtain ⟨n, hn, next, hsteps, hreturned⟩ := ih _ (hload ▸ hless) (.step hrun trivial hstep) hlost'
        hawaited' (fun n => callers (n + 1)) hfree' rfl
      exact ⟨n + 1, by omega, next, (hcons n).trans hsteps, hreturned⟩

theorem Considerate.reachable (hrun : Run step Considerate (System.new id side first) self) :
    Reachable step (System.new id side first) self :=
  hrun.invariant (Reachable step (System.new id side first)) .start fun h _ hstep => .step h trivial hstep

theorem watched_of_considerate (hrun : Run step Considerate (System.new id side first) self) :
    self.Watched id side first :=
  hrun.invariant (fun system => system.Watched id side first) (.new id side first)
    fun hwatched hconsiderate hstep => hwatched.move hconsiderate (move_of_step hstep)

/-- A poll waits if and only if no stream decides it, so that considerate calls give way only where
a poll would come back. -/
theorem fruitless_iff_waits (hrun : Reachable step (System.new id side first) self)
    (hpolls : self.Polls event task dir order) (hstep : self.step event = some next) :
    self.shared.Fruitless dir ↔ next.calls task = some dir := by
  have hvalid := valid_of_reachable hrun
  obtain ⟨hsorted, -⟩ := sorted_of_reachable hrun
  have hpoll := hpolls.step_eq.symm.trans hstep
  obtain ⟨out, shared, hout⟩ := @Acceptor.poll_accept_returns dir task order _ _ _ hvalid.shared
  have hframe := Acceptor.poll_accept_frame hvalid.shared hout
  rw [poll, hout] at hpoll
  cases out with
  | Ready completion =>
    cases hpoll
    refine iff_of_false (fun hfruitless => hfruitless.poll_accept hvalid.shared hout) ?_
    simp only [Function.update_self, reduceCtorEq, not_false_eq_true]
  | Pending =>
    cases hpoll
    refine iff_of_true ?_ (Function.update_self ..)
    have hidle := idle_of_waits hpolls hstep (Function.update_self ..)
    refine ⟨hframe.lost.symm.trans hidle.not_lost, fun key hdir hundecided => ?_⟩
    subst hdir
    have hjudge := sorted_eq_judge (.step hrun trivial hstep) hidle
      (hframe.expects.mpr (hundecided.expects hvalid.shared)) (by rw [hframe.opened]; exact hundecided.2.1)
    have hreturned : key ∉ self.returned := fun hkey => hundecided.not_gone (hvalid.shared.gone_of_returned hkey)
    have hfailed : key ∉ self.failed := fun hkey => hundecided.not_gone (hsorted.shared.gone_of_failed key hkey).1
    rw [judge_congr (hframe.received key) (hframe.ended key), ← hvalid.id_eq] at hjudge
    rw [← judge_eq_none_iff, ← judge_eq_absorbed_iff, ← hjudge, sorter, Acceptor.sorter_sorted]
    split_ifs with hkey hkey
    · exact absurd hkey hreturned
    · exact absurd hkey hfailed
    · exact .inr rfl
    · exact .inl rfl

/-- As long as calls are considerate, a call that waits while a stream is awaited has been woken. -/
theorem woken_of_awaited (hrun : Run step Considerate (System.new id side first) self)
    (hawaited : self.Awaited id first key) (hcall : self.calls task = some key.dir) :
    ∃ other, self.calls other = some key.dir ∧ self.woken other = true := by
  have hwatched := watched_of_considerate hrun
  obtain ⟨other, hother, hwoken | haccepting⟩ := hwatched.watch key.dir task hcall
  · exact ⟨other, hother, hwoken⟩
  · refine ⟨other, hother, ?_⟩
    by_contra hnot
    have hwaiting := hwatched.last key.dir other hother (Bool.eq_false_iff.mpr hnot) haccepting
    have hjudge := sorted_eq_judge (Considerate.reachable hrun) hwaiting.toIdle hawaited.expects hawaited.opened
    exact hawaited.not_returned
      ((mem_returned_iff first).mpr (hjudge.trans (judge_eq_returned_iff.mpr hawaited.header)))

/-- Accept loops serve every stream: as long as calls are considerate, when calls wait while the
header of a stream has arrived, one of them has been woken. Whichever waiting task is polled again
and goes on with new calls gets the stream, with no more polls than there are header reads to do. -/
theorem loops_serve (hrun : Run step Considerate (System.new id side first) self) (hlost : self.shared.conn.lost = none)
    (hexpects : self.shared.Expects first key) (hopened : key.index < self.shared.conn.opened key.dir)
    (hheader : ∃ rest, Header (self.shared.conn.streams key).received (webtransport key.dir) id rest)
    (hreturned : key ∉ self.returned) (hcall : self.calls task = some key.dir) :
    (∃ other, self.calls other = some key.dir ∧ self.woken other = true) ∧
    ∀ other, self.calls other = some key.dir → ∀ orders : Nat → List StreamId,
      ∃ n < self.shared.load key.dir, ∃ next, steps step self (.repoll other (orders 0) ::
        (List.range n).map fun i => .call other key.dir (orders (i + 1))) = some next ∧ key ∈ next.returned := by
  have hawaited : self.Awaited id first key := ⟨hexpects, hopened, hheader, hreturned⟩
  refine ⟨woken_of_awaited hrun hawaited hcall, fun other hother orders => ?_⟩
  have hrun' := Considerate.reachable hrun
  obtain ⟨mid, hstep, hlost', hcalls, hless, hnext⟩ :=
    poll_of_awaited hrun' hlost hawaited (.inr ⟨rfl, hother⟩ : self.Polls (.repoll other (orders 0)) _ _ (orders 0))
  obtain hreturned' | hawaited' := hnext
  · refine ⟨0, Nat.zero_lt_of_lt hless, mid, ?_, hreturned'⟩
    rw [steps, hstep]
    rfl
  · have hfree : mid.calls other = none := by
      rw [hcalls, Function.update_self]
    obtain ⟨n, hn, next, hsteps, hreturned'⟩ := returned_of_awaited (.step hrun' trivial hstep) hlost' hawaited'
      (fun i => (other, orders (i + 1))) fun _ => hfree
    refine ⟨n, Nat.lt_of_le_of_lt hn hless, next, ?_, hreturned'⟩
    rw [steps, hstep]
    exact hsteps

/-- A task waits, and a stream comes. -/
theorem loops_serve_one_stream : ∃ self next : System, self.calls 7 = some .Uni ∧ self.woken 7 = true ∧
    self.step (.repoll 7 []) = some next ∧ ⟨.Client, .Uni, 0⟩ ∈ next.returned := by
  have hfacts : (steps step (new (.from_u32 0) .Server fun _ => 0) [.call 7 .Uni [], .peer_opens .Uni,
      .bytes ⟨.Client, .Uni, 0⟩ [0x40, 0x54, 0x00]]).map (fun self => (self.calls, self.shared.conn.lost,
        self.shared.conn.side, self.shared.conn.opened .Uni,
        (self.shared.conn.streams ⟨.Client, .Uni, 0⟩).received, self.log, self.shared.load .Uni)) =
      some (Function.update (fun _ => none) 7 (some .Uni), none, .Server, 1, [0x40, 0x54, 0x00], [], 1) := rfl
  obtain ⟨self, hsteps, hfacts⟩ := Option.map_eq_some_iff.mp hfacts
  simp only [Prod.mk.injEq] at hfacts
  obtain ⟨hcalls, hlost, hside, hopened, hreceived, hlog, hload⟩ := hfacts
  have hrun : Run step Considerate (new (.from_u32 0) .Server fun _ => 0) self := by
    refine Run.steps .start (fun event hevent _ => ?_) hsteps
    simp only [List.mem_cons, List.not_mem_nil, or_false] at hevent
    obtain rfl | rfl | rfl := hevent
    all_goals exact trivial
  have hcall : self.calls 7 = some .Uni := by
    rw [hcalls]
    rfl
  have hheader : ∃ rest, Header (self.shared.conn.streams ⟨.Client, .Uni, 0⟩).received (webtransport .Uni)
      (.from_u32 0) rest := by
    rw [hreceived]
    exact ⟨[], [0x40, 0x54], [0x00], rfl, .intro (by decide) (by decide), .intro (by decide) (by decide)⟩
  have hexpects : self.shared.Expects (fun _ => 0) ⟨.Client, .Uni, 0⟩ := ⟨by rw [hside]; rfl, Nat.le_refl _⟩
  have hnot : ⟨.Client, .Uni, 0⟩ ∉ self.returned := by
    rw [returned, hlog]
    exact List.not_mem_nil
  obtain ⟨⟨other, hother, hwoken⟩, hserve⟩ :=
    loops_serve hrun hlost hexpects (by rw [hopened]; exact Nat.one_pos) hheader hnot hcall
  obtain ⟨n, hn, next, hnext, hreturned⟩ := hserve 7 hcall fun _ => []
  have hseven : other = 7 := by
    by_contra hne
    rw [hcalls, Function.update_of_ne hne] at hother
    cases hother
  obtain rfl : n = 0 := by
    rw [hload] at hn
    exact Nat.lt_one_iff.mp hn
  refine ⟨self, next, hcall, hseven ▸ hwoken, ?_, hreturned⟩
  rw [steps] at hnext
  split at hnext
  · rename_i mid hmid
    cases hnext
    exact hmid
  · cases hnext

/-- What is left of the system once the connection is lost. -/
structure Over (error : ConnectionError) (before system : System) : Prop where
  lost : system.shared.conn.lost = some error
  returned : system.returned = before.returned
  failed : system.failed = before.failed

/-- On a lost connection no event brings a stream, a byte or another error. -/
theorem Over.move {error : ConnectionError} {before : System} (hover : Over error before self)
    (hvalid : self.Valid id side first) (hmove : Move self event next) : Over error before next := by
  have hlost := hover.lost
  cases hmove with
  | peer_opens hnone | close hnone =>
    rw [hlost] at hnone
    cases hnone
  | bytes hlive | finish hlive | reset hlive =>
    have hnone := hlive.2.2.2
    rw [hlost] at hnone
    cases hnone
  | wait hpolls hpoll =>
    obtain ⟨shared, hlost_poll⟩ := @Acceptor.poll_lost _ _ _ _ _ _ _ hvalid.shared hlost
    rw [hlost_poll] at hpoll
    cases hpoll
  | complete hpolls hpoll =>
    have hframe := Acceptor.poll_accept_frame hvalid.shared hpoll
    obtain ⟨shared, hlost_poll⟩ := @Acceptor.poll_lost _ _ _ _ _ _ _ hvalid.shared hlost
    rw [hlost_poll] at hpoll
    cases hpoll
    exact ⟨hframe.lost.trans hlost, hover.returned, hover.failed⟩
  | cancel hcall => exact ⟨hover.lost, hover.returned, hover.failed⟩

/-- Once the connection is lost, in every run: it stays so, no stream is returned and none is failed for
any more, and every poll comes back with the loss. When the calls have been considerate, one of the
calls of a kind that wait has been woken. -/
theorem loss_ends_calls {error : ConnectionError} (hrun : Reachable step (System.new id side first) self)
    (hlost : self.shared.conn.lost = some error) :
    (∀ next, Reachable step self next → next.shared.conn.lost = some error ∧ next.returned = self.returned ∧
      next.failed = self.failed ∧ ∀ task dir order, ∃ after, next.poll task dir order = some after ∧
        after.calls task = none ∧ after.log = ⟨task, dir, ⟨none, err (.ConnectionError error)⟩⟩ :: next.log) ∧
    (Run step Considerate (System.new id side first) self → ∀ task dir, self.calls task = some dir →
      ∃ other, self.calls other = some dir ∧ self.woken other = true) := by
  constructor
  · intro next hlater
    obtain ⟨hvalid, hover⟩ := hlater.invariant (fun system => system.Valid id side first ∧ Over error self system)
      ⟨valid_of_reachable hrun, hlost, rfl, rfl⟩ fun ⟨hvalid, hover⟩ _ hstep =>
        ⟨hvalid.move (move_of_step hstep), hover.move hvalid (move_of_step hstep)⟩
    refine ⟨hover.lost, hover.returned, hover.failed, fun task dir order => ?_⟩
    obtain ⟨shared, hpoll⟩ := @Acceptor.poll_lost dir task order _ _ _ _ hvalid.shared hover.lost
    rw [poll, hpoll]
    exact ⟨_, rfl, Function.update_self .., rfl⟩
  · intro hconsiderate task dir hcall
    have hwatched := watched_of_considerate hconsiderate
    obtain ⟨other, hother, hwoken | haccepting⟩ := hwatched.watch dir task hcall
    · exact ⟨other, hother, hwoken⟩
    · refine ⟨other, hother, ?_⟩
      by_contra hnot
      have hwaiting := hwatched.last dir other hother (Bool.eq_false_iff.mpr hnot) haccepting
      rw [hwaiting.not_lost] at hlost
      cases hlost

/-- A call waits when the connection is lost. It is woken, and comes back with the loss. -/
theorem loss_ends_calls_one_call : ∃ self after : System, self.calls 7 = some .Uni ∧
    (∃ other, self.calls other = some .Uni ∧ self.woken other = true) ∧
      self.poll 7 .Uni [] = some after ∧ after.log = [⟨7, .Uni, ⟨none, err (.ConnectionError .TimedOut)⟩⟩] := by
  have hfacts : (steps step (new (.from_u32 0) .Server fun _ => 0) [.call 7 .Uni [], .close .TimedOut]).map
      (fun self => (self.calls 7, self.shared.conn.lost, self.log)) = some (some .Uni, some .TimedOut, []) := rfl
  obtain ⟨self, hsteps, hfacts⟩ := Option.map_eq_some_iff.mp hfacts
  simp only [Prod.mk.injEq] at hfacts
  obtain ⟨hcall, hlost, hlog⟩ := hfacts
  have hrun : Run step Considerate (new (.from_u32 0) .Server fun _ => 0) self := by
    refine Run.steps .start (fun event hevent _ => ?_) hsteps
    simp only [List.mem_cons, List.not_mem_nil, or_false] at hevent
    obtain rfl | rfl := hevent
    all_goals exact trivial
  obtain ⟨hover, hwoken⟩ := loss_ends_calls (Considerate.reachable hrun) hlost
  obtain ⟨-, -, -, hpolls⟩ := hover self .start
  obtain ⟨after, hpoll, -, hafter⟩ := hpolls 7 .Uni []
  rw [hlog] at hafter
  exact ⟨self, after, hcall, hwoken hrun 7 .Uni hcall, hpoll, hafter⟩

/-- Calls that are not considerate: the loss wakes the task that was polled last, and the other one waits on. -/
example : (steps step (new (.from_u32 0) .Server fun _ => 0) [.call 0 .Uni [], .call 1 .Uni [],
    .close .TimedOut, .repoll 1 []]).map (fun self => (self.calls 0, self.woken 0, self.calls 1)) =
      some (some .Uni, false, none) := rfl

end System

end wt_rs
