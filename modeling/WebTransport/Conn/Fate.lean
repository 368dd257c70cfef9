import WebTransport.Conn.Place

open rust rust.Outcome rust.Async quinn wt_proto.coding wt_proto.h3

namespace wt_rs

/-- What comes of a stream: it is returned by an accept call, an accept call fails for it, or
it is taken in without an answer. -/
inductive Fate where
  | returned
  | failed
  | absorbed
  deriving DecidableEq, Repr

/-- The fate of a stream with this type and this session in front. -/
def ruling (dir : Dir) (id stype sid : VarInt) : Fate :=
  if sid ≠ id then .failed
  else if stype = webtransport dir then .returned
  else .absorbed

/-- The fate of a stream by everything that was received on it, where a header read that starts
from the beginning decides. -/
def judge (id : VarInt) (key : StreamId) (stream : RecvStream) : Option Fate :=
  match (decode key.dir id key).poll (RecvStream.serve none key) ⟨[], stream.received, stream.ended⟩ with
  | (.done (ok (stype, _)), _) => some (if dispatch key.dir stype = .deliver then .returned else .absorbed)
  | (.done (err _), _) => some .failed
  | _ => none

/-- The fate of a stream that has been read up to its decision, which nothing that arrives
later changes. -/
inductive Final (id : VarInt) (key : StreamId) (stream : RecvStream) : Fate → Prop where
  | header {stype sid : VarInt} (hheader : Header stream.taken stype sid []) :
      Final id key stream (ruling key.dir id stype sid)
  | cut_off (hheadless : Headless stream.taken) (hunread : stream.unread = []) (hended : stream.ended ≠ none) :
      Final id key stream .failed

variable {dir : Dir} {id stype sid : VarInt} {key : StreamId} {stream stream' : RecvStream} {rest : List UInt8}
  {fate : Fate}

/-- A header is for the caller when it has the type for it and the session. -/
theorem ruling_eq_returned_iff : ruling dir id stype sid = .returned ↔ stype = webtransport dir ∧ sid = id := by
  unfold ruling
  split_ifs with hsid hstype
  · exact iff_of_false not_false fun h => hsid h.2
  · exact iff_of_true rfl ⟨hstype, not_not.mp hsid⟩
  · exact iff_of_false not_false fun h => hstype h.1

/-- A header fails its call when it is of another session. -/
theorem ruling_eq_failed_iff : ruling dir id stype sid = .failed ↔ sid ≠ id := by
  unfold ruling
  split_ifs with hsid hstype
  · exact iff_of_true rfl hsid
  · exact iff_of_false not_false hsid
  · exact iff_of_false not_false hsid

/-- A header of the session with another type leaves the call waiting. -/
theorem ruling_eq_absorbed_iff : ruling dir id stype sid = .absorbed ↔ stype ≠ webtransport dir ∧ sid = id := by
  unfold ruling
  split_ifs with hsid hstype
  · exact iff_of_false (by simp) fun h => hsid h.2
  · exact iff_of_false (by simp) fun h => h.1 hstype
  · exact iff_of_true rfl ⟨hstype, not_not.mp hsid⟩

/-- A stream with a header is judged by it. -/
theorem judge_of_header (hheader : Header stream.received stype sid rest) :
    judge id key stream = some (ruling key.dir id stype sid) := by
  obtain ⟨header, -, -, hpoll⟩ :=
    @poll_decode_header _ rest stype sid key.dir id key none stream.ended hheader
  rw [judge, hpoll, ruling]
  by_cases hsid : sid = id
  · subst hsid
    simp only [verdict_self, dispatch_eq_deliver_iff, ne_eq, not_true_eq_false, if_false]
  · obtain ⟨error, herror⟩ := @verdict_of_ne stype sid key.dir id key hsid
    simp only [herror, ne_eq, hsid, not_false_eq_true, if_true]

/-- A stream without a header fails its call when it has ended, and is not judged before. -/
theorem judge_of_headless (hheadless : Headless stream.received) :
    judge id key stream = if stream.ended = none then none else some .failed := by
  by_cases hended : stream.ended = none
  · obtain ⟨future, taken, unread, ⟨op, resume, rfl⟩, -, -, hpoll⟩ := @poll_decode_wait _ key.dir id key hheadless
    rw [judge, hended, hpoll, if_pos rfl]
  · obtain ⟨error, hpoll⟩ := @poll_decode_over _ key.dir id key none stream.ended hheadless (.inl hended)
    rw [judge, hpoll, if_neg hended]

/-- The fate of a stream, read off the bytes. -/
theorem judge_cases (id : VarInt) (key : StreamId) (stream : RecvStream) :
    (∃ stype sid rest, Header stream.received stype sid rest ∧
        judge id key stream = some (ruling key.dir id stype sid)) ∨
      Headless stream.received ∧ judge id key stream = if stream.ended = none then none else some .failed := by
  obtain hheadless | ⟨stype, sid, rest, hheader⟩ := headless_or_header stream.received
  · exact .inr ⟨hheadless, judge_of_headless hheadless⟩
  · exact .inl ⟨stype, sid, rest, hheader, judge_of_header hheader⟩

/-- What it takes to be returned. -/
theorem judge_eq_returned_iff :
    judge id key stream = some .returned ↔ ∃ rest, Header stream.received (webtransport key.dir) id rest := by
  constructor
  · intro hjudge
    obtain ⟨stype, sid, rest, hheader, h⟩ | ⟨-, h⟩ := judge_cases id key stream
    · rw [hjudge, Option.some.injEq, eq_comm, ruling_eq_returned_iff] at h
      obtain ⟨rfl, rfl⟩ := h
      exact ⟨rest, hheader⟩
    · rw [hjudge] at h
      split_ifs at h
      cases h
  · rintro ⟨rest, hheader⟩
    rw [judge_of_header hheader, ruling_eq_returned_iff.mpr ⟨rfl, rfl⟩]

/-- What it takes to fail a call. -/
theorem judge_eq_failed_iff : judge id key stream = some .failed ↔
    (∃ stype sid rest, Header stream.received stype sid rest ∧ sid ≠ id) ∨
      Headless stream.received ∧ stream.ended ≠ none := by
  constructor
  · intro hjudge
    obtain ⟨stype, sid, rest, hheader, h⟩ | ⟨hheadless, h⟩ := judge_cases id key stream
    · rw [hjudge, Option.some.injEq, eq_comm, ruling_eq_failed_iff] at h
      exact .inl ⟨stype, sid, rest, hheader, h⟩
    · rw [hjudge] at h
      split_ifs at h with hended
      exact .inr ⟨hheadless, hended⟩
  · rintro (⟨stype, sid, rest, hheader, hsid⟩ | ⟨hheadless, hended⟩)
    · rw [judge_of_header hheader, ruling_eq_failed_iff.mpr hsid]
    · rw [judge_of_headless hheadless, if_neg hended]

/-- What it takes to be taken in without an answer. -/
theorem judge_eq_absorbed_iff : judge id key stream = some .absorbed ↔
    ∃ stype rest, Header stream.received stype id rest ∧ stype ≠ webtransport key.dir := by
  constructor
  · intro hjudge
    obtain ⟨stype, sid, rest, hheader, h⟩ | ⟨hheadless, h⟩ := judge_cases id key stream
    · rw [hjudge, Option.some.injEq, eq_comm, ruling_eq_absorbed_iff] at h
      obtain ⟨hstype, rfl⟩ := h
      exact ⟨stype, rest, hheader, hstype⟩
    · rw [hjudge] at h
      split_ifs at h
      cases h
  · rintro ⟨stype, rest, hheader, hstype⟩
    rw [judge_of_header hheader, ruling_eq_absorbed_iff.mpr ⟨hstype, rfl⟩]

/-- A stream is not judged as long as its header is not complete and can still be. -/
theorem judge_eq_none_iff : judge id key stream = none ↔ Headless stream.received ∧ stream.ended = none := by
  constructor
  · intro hjudge
    obtain ⟨stype, sid, rest, -, h⟩ | ⟨hheadless, h⟩ := judge_cases id key stream
    · rw [hjudge] at h
      cases h
    · rw [hjudge] at h
      split_ifs at h with hended
      exact ⟨hheadless, hended⟩
  · rintro ⟨hheadless, hended⟩
    rw [judge_of_headless hheadless, if_pos hended]

/-- Only what was received counts, and how the stream ended. -/
theorem judge_congr (hreceived : stream'.received = stream.received) (hended : stream'.ended = stream.ended) :
    judge id key stream' = judge id key stream := by
  rw [judge, judge, hreceived, hended]

/-- A final fate is the one that the bytes have come to. -/
theorem Final.judge_eq (h : Final id key stream fate) : judge id key stream = some fate := by
  cases h with
  | header hheader => exact judge_of_header (hheader.append stream.unread)
  | cut_off hheadless hunread hended =>
    have hreceived : Headless stream.received := by
      rw [RecvStream.received, hunread, List.append_nil]
      exact hheadless
    rw [judge_of_headless hreceived, if_neg hended]

/-- What is read decides, and on a stream that has ended nothing changes. -/
theorem Final.congr (h : Final id key stream fate) (htaken : stream'.taken = stream.taken)
    (hended : stream.ended = none ∨ stream' = stream) : Final id key stream' fate := by
  cases h with
  | header hheader => exact .header (htaken ▸ hheader)
  | cut_off hheadless hunread hover =>
    obtain hnone | rfl := hended
    · exact absurd hnone hover
    · exact .cut_off hheadless hunread hover

/-- A header read that comes back has decided. -/
theorem Polled.final {result : Outcome WTError (VarInt × StreamId)}
    (h : Polled key.dir id key none stream (.inr result)) :
    (∃ stype, result = ok (stype, key) ∧
        Final id key stream (if dispatch key.dir stype = .deliver then .returned else .absorbed)) ∨
      ∃ error, result = err error ∧ Final id key stream .failed := by
  cases result with
  | ok out =>
    obtain ⟨stype, key'⟩ := out
    obtain ⟨rfl, hheader⟩ := h.header_of_ok
    have hfinal : Final id key' stream (ruling key'.dir id stype id) := .header hheader
    simp only [ruling, ne_eq, not_true_eq_false, if_false, ← dispatch_eq_deliver_iff] at hfinal
    exact .inl ⟨stype, rfl, hfinal⟩
  | err error =>
    refine .inr ⟨error, rfl, ?_⟩
    obtain ⟨stype, sid, hheader, hsid⟩ | ⟨hheadless, hunread, hover⟩ := h.cause_of_err
    · have hfinal : Final id key stream (ruling key.dir id stype sid) := .header hheader
      rwa [ruling_eq_failed_iff.mpr hsid] at hfinal
    · exact .cut_off hheadless hunread (hover.resolve_right (not_not_intro rfl))
  | panic => exact absurd h.returns not_returns_panic
  | diverge => exact absurd h.returns not_returns_diverge

end wt_rs
