import WebTransport.Conn.Poll

open rust rust.Outcome rust.Async quinn wt_proto.coding wt_proto.h3

namespace wt_rs

/-- The type of the streams that are for the caller. -/
def webtransport : Dir → VarInt
  | .Uni => UniStream.WEBTRANSPORT.stype
  | .Bi => BiStream.WEBTRANSPORT.stype

/-- A poll hands out the streams of one type only. -/
theorem dispatch_eq_deliver_iff {dir : Dir} {stype : VarInt} :
    dispatch dir stype = .deliver ↔ stype = webtransport dir := by
  cases dir with
  | Uni =>
    rw [dispatch, dispatch_uni, webtransport]
    split_ifs with h
    · exact iff_of_true rfl (congrArg UniStream.stype h)
    all_goals exact iff_of_false not_false fun hstype => h (congrArg UniStream.mk hstype)
  | Bi =>
    rw [dispatch, dispatch_bi, webtransport]
    split_ifs with h
    · exact iff_of_true rfl (congrArg BiStream.stype h)
    · exact iff_of_false not_false fun hstype => h (congrArg BiStream.mk hstype)

/-- What comes of the poll of a header read, by the stream as the poll leaves it. -/
inductive Polled (dir : Dir) (id : VarInt) (key : StreamId) (lost : Option ConnectionError)
    (stream : RecvStream) : PendingHeader ⊕ Outcome WTError (VarInt × StreamId) → Prop where
  | header {stype sid : VarInt} (hheader : Header stream.taken stype sid []) :
      Polled dir id key lost stream (.inr (verdict dir id key stype sid))
  | cut_off {error : WTError} (hheadless : Headless stream.taken) (hunread : stream.unread = [])
      (hover : stream.Over lost) : Polled dir id key lost stream (.inr (err error))
  | wait {future : PendingHeader} (hheadless : Headless stream.received) (hlive : ¬ stream.Over lost)
      (hresidual : Residual dir id key stream.taken future) :
      Polled dir id key lost stream (.inl future)

variable {dir : Dir} {id : VarInt} {key : StreamId} {lost : Option ConnectionError}

/-- A poll takes bytes from what has been received on the one stream, and decides when the
header is complete or never will be. -/
theorem poll_header_spec {streams streams' : StreamId → RecvStream} {future : PendingHeader}
    {out : PendingHeader ⊕ Outcome WTError (VarInt × StreamId)}
    (hresidual : Residual dir id key (streams key).taken future)
    (hpoll : Acceptor.poll_header lost key future streams = (out, streams')) :
    ∃ stream, streams' = Function.update streams key stream ∧
      stream.received = (streams key).received ∧ stream.ended = (streams key).ended ∧
      Polled dir id key lost stream out := by
  unfold Acceptor.poll_header at hpoll
  generalize streams key = stream at hresidual hpoll ⊢
  obtain ⟨taken, unread, ended⟩ := stream
  rw [hresidual.poll_eq] at hpoll
  obtain hheadless | ⟨stype, sid, rest, hheader⟩ := headless_or_header (taken ++ unread)
  · by_cases hover : RecvStream.Over ⟨taken, unread, ended⟩ lost
    · obtain ⟨error, hdecode⟩ := @poll_decode_over (taken ++ unread) dir id key lost ended hheadless hover
      rw [hdecode] at hpoll
      cases hpoll
      exact ⟨⟨taken ++ unread, [], ended⟩, rfl, List.append_nil _, rfl, .cut_off hheadless rfl hover⟩
    · obtain ⟨rfl, rfl⟩ := not_or.mp hover |>.imp not_not.mp not_not.mp
      obtain ⟨future', taken', unread', ⟨op, resume, rfl⟩, hbytes, hresidual', hdecode⟩ :=
        @poll_decode_wait (taken ++ unread) dir id key hheadless
      rw [hdecode] at hpoll
      cases hpoll
      refine ⟨⟨taken', unread', none⟩, rfl, hbytes.symm, rfl, .wait ?_ hover hresidual'⟩
      rw [RecvStream.received, ← hbytes]
      exact hheadless
  · obtain ⟨header, hbytes, hheader, hdecode⟩ := @poll_decode_header _ _ _ _ dir id key lost ended hheader
    rw [hdecode] at hpoll
    cases hpoll
    exact ⟨⟨header, rest, ended⟩, rfl, hbytes.symm, rfl, .header hheader⟩

namespace Polled

variable {stream : RecvStream} {stype : VarInt} {key' : StreamId} {error : WTError}

/-- A header read that comes back with a stream has read its type and the session of the
acceptor. -/
theorem header_of_ok (h : Polled dir id key lost stream (.inr (ok (stype, key')))) :
    key' = key ∧ Header stream.taken stype id [] := by
  generalize hout : Sum.inr (ok (stype, key')) = out at h
  cases h with
  | @header stype' sid hheader =>
    rw [Sum.inr.injEq] at hout
    unfold verdict at hout
    split_ifs at hout with hsid
    · cases hout
      exact ⟨rfl, hsid ▸ hheader⟩
    · cases dir <;> cases hout
  | cut_off | wait => cases hout

/-- A header read that fails has read another session, or the stream ended too early. -/
theorem cause_of_err (h : Polled dir id key lost stream (.inr (err error))) :
    (∃ stype sid, Header stream.taken stype sid [] ∧ sid ≠ id) ∨
      Headless stream.taken ∧ stream.unread = [] ∧ stream.Over lost := by
  generalize hout : Sum.inr (err error) = out at h
  cases h with
  | @header stype sid hheader =>
    rw [Sum.inr.injEq] at hout
    unfold verdict at hout
    split_ifs at hout with hsid
    exact .inl ⟨stype, sid, hheader, hsid⟩
  | cut_off hheadless hunread hover => exact .inr ⟨hheadless, hunread, hover⟩
  | wait => cases hout

/-- A header read that finishes does not panic. -/
theorem returns {result : Outcome WTError (VarInt × StreamId)}
    (h : Polled dir id key lost stream (.inr result)) : result.Returns := by
  generalize hout : Sum.inr result = out at h
  cases h with
  | @header stype sid hheader =>
    rw [Sum.inr.injEq] at hout
    rw [hout]
    unfold verdict
    split_ifs
    · exact returns_ok _
    · cases dir <;> exact returns_err _
  | cut_off =>
    rw [Sum.inr.injEq] at hout
    rw [hout]
    exact returns_err _
  | wait => cases hout

end Polled

/-- The stream is not for the caller, and will not become so. -/
def Discarded (id : VarInt) (dir : Dir) (stream : RecvStream) : Prop :=
  (∃ stype sid, Header stream.taken stype sid [] ∧ ¬ (stype = webtransport dir ∧ sid = id)) ∨
    Headless stream.taken ∧ stream.unread = [] ∧ stream.ended ≠ none

/-- A stream that is not for the caller does not have the header for it. -/
theorem Discarded.not_header {stream : RecvStream} {rest : List UInt8}
    (h : Discarded id dir stream) : ¬ Header stream.received (webtransport dir) id rest := by
  intro hheader
  obtain ⟨stype, sid, htaken, hother⟩ | ⟨hheadless, hunread, -⟩ := h
  · obtain ⟨rfl, rfl, -⟩ := (htaken.append stream.unread).unique hheader
    exact hother ⟨rfl, rfl⟩
  · rw [RecvStream.received, hunread, List.append_nil] at hheader
    exact hheader.not_headless hheadless

/-- Where a stream can be: opened by this side, accepted by somebody else before the acceptor
had the connection, not accepted yet, in the queue, with a caller, or none of their business.
`first` streams were accepted before, `accepted` are by now; `returned` counts how often the
stream has been returned. -/
inductive Place (peer : Side) (first : Nat) (id : VarInt) (key : StreamId) (accepted : Nat) :
    Option (QueuedFuture PendingHeader) → (returned : Nat) → RecvStream → Prop where
  | foreign {stream : RecvStream} (hinitiator : key.initiator ≠ peer) :
      Place peer first id key accepted none 0 stream
  | before {stream : RecvStream} (hindex : key.index < first) :
      Place peer first id key accepted none 0 stream
  | ahead {stream : RecvStream} (hinitiator : key.initiator = peer) (hindex : accepted ≤ key.index)
      (htaken : stream.taken = []) : Place peer first id key accepted none 0 stream
  | queued {stream : RecvStream} {task : QueuedFuture PendingHeader} (hinitiator : key.initiator = peer)
      (hfirst : first ≤ key.index) (hindex : key.index < accepted)
      (hresidual : Residual key.dir id key stream.taken task.future)
      (hidle : task.ready = false → Headless stream.received) :
      Place peer first id key accepted (some task) 0 stream
  | returned {stream : RecvStream} (hinitiator : key.initiator = peer) (hfirst : first ≤ key.index)
      (hindex : key.index < accepted) (hheader : Header stream.taken (webtransport key.dir) id []) :
      Place peer first id key accepted none 1 stream
  | discarded {stream : RecvStream} (hinitiator : key.initiator = peer) (hfirst : first ≤ key.index)
      (hindex : key.index < accepted) (hdiscarded : Discarded id key.dir stream) :
      Place peer first id key accepted none 0 stream

namespace Place

variable {peer : Side} {first accepted count : Nat} {pending : Option (QueuedFuture PendingHeader)}
  {stream : RecvStream}

/-- A stream that has not been accepted has not been touched. -/
theorem untouched (hplace : Place peer first id key accepted pending count stream)
    (hinitiator : key.initiator = peer) (hfirst : first ≤ accepted) (hindex : accepted ≤ key.index) :
    stream.taken = [] ∧ count = 0 := by
  cases hplace with
  | foreign h => exact absurd hinitiator h
  | before h => omega
  | ahead _ _ htaken => exact ⟨htaken, rfl⟩
  | queued | returned | discarded => omega

/-- Another stream is accepted. -/
theorem accept (hplace : Place peer first id key accepted pending count stream)
    (hkey : key.initiator = peer → key.index ≠ accepted) :
    Place peer first id key (accepted + 1) pending count stream := by
  cases hplace with
  | foreign hinitiator => exact .foreign hinitiator
  | before hindex => exact .before hindex
  | ahead hinitiator hindex htaken =>
    have := hkey hinitiator
    exact .ahead hinitiator (by omega) htaken
  | queued hinitiator hfirst hindex hresidual hidle =>
    exact .queued hinitiator hfirst (by omega) hresidual hidle
  | returned hinitiator hfirst hindex hheader =>
    exact .returned hinitiator hfirst (by omega) hheader
  | discarded hinitiator hfirst hindex hdiscarded =>
    exact .discarded hinitiator hfirst (by omega) hdiscarded

theorem count_le (hplace : Place peer first id key accepted pending count stream) : count ≤ 1 := by
  cases hplace with
  | returned => exact Nat.le_refl 1
  | foreign | before | ahead | queued | discarded => exact Nat.zero_le 1

/-- A stream that was returned was accepted before that, and its header has been read. -/
theorem of_returned (hplace : Place peer first id key accepted pending count stream) (hcount : 0 < count) :
    key.initiator = peer ∧ first ≤ key.index ∧ key.index < accepted ∧
      Header stream.taken (webtransport key.dir) id [] := by
  cases hplace with
  | returned hinitiator hfirst hindex hheader => exact ⟨hinitiator, hfirst, hindex, hheader⟩
  | foreign | before | ahead | queued | discarded => cases hcount

/-- An accepted stream for the caller is in the queue or has been returned. -/
theorem of_header {rest : List UInt8} (hplace : Place peer first id key accepted pending count stream)
    (hinitiator : key.initiator = peer) (hfirst : first ≤ key.index) (hindex : key.index < accepted)
    (hheader : Header stream.received (webtransport key.dir) id rest) :
    pending ≠ none ∧ count = 0 ∨ pending = none ∧ count = 1 := by
  cases hplace with
  | foreign h => exact absurd hinitiator h
  | before h => omega
  | ahead => omega
  | queued => exact .inl ⟨Option.some_ne_none _, rfl⟩
  | returned => exact .inr ⟨rfl, rfl⟩
  | discarded _ _ _ hdiscarded => exact absurd hheader hdiscarded.not_header

end Place

end wt_rs
