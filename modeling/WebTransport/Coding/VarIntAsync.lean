import WebTransport.Coding.VarInt
import WebTransport.Quinn.Script

open rust rust.Outcome rust.Async quinn

namespace wt_proto.coding

/-- The branches of the asynchronous `read_varint` for more than one byte. -/
def read_tail_async (stream : StreamId) (first : UInt8) (len : Nat) : Async Quic CodingError Nat := do
  let tail ← (read_exact stream len).mapErr .ReadExactError
  pure (from_be_bytes (first :: tail))

/-- What `read_varint_async` does after the first byte. -/
def read_rest_async (stream : StreamId) (first : UInt8) : Async Quic CodingError VarInt := do
  let tag := first >>> 6
  let first := first &&& 0b0011_1111
  let val ←
    if tag = 0b00 then pure first.toNat
    else if tag = 0b01 then read_tail_async stream first 1
    else if tag = 0b10 then read_tail_async stream first 3
    else if tag = 0b11 then read_tail_async stream first 7
    else lift (err (.VarIntMalformed tag))
  lift (VarInt.from_u64 val)

/-- `VarIntAsyncExt::read_varint` for a `RecvStream`, into a buffer of zeros. -/
def read_varint_async (stream : StreamId) : Async Quic CodingError VarInt := do
  let buf ← (read_exact stream 1).mapErr .ReadExactError
  read_rest_async stream (buf.headD 0)

variable {stream : StreamId} {lost : Option ConnectionError} {taken unread enc rest : List UInt8}
  {ended : Option End} {first : UInt8} {x : VarInt}

/-- The rest of an integer takes no read, or one of all the bytes its tag announces. -/
theorem read_rest_async_eq (stream : StreamId) (first : UInt8) :
    read_rest_async stream first =
      if first.toNat / 64 = 0 then lift (VarInt.from_u64 (first.toNat % 64))
      else (do
        let tail ← (read_exact stream (2 ^ (first.toNat / 64) - 1)).mapErr .ReadExactError
        lift (VarInt.from_u64 (first.toNat % 64 * 256 ^ tail.length + from_be_bytes tail))) := by
  have hlt := first.toNat_lt
  have hread (len : Nat) :
      (read_tail_async stream (first &&& 0b0011_1111) len >>= fun val => lift (VarInt.from_u64 val)) =
        ((read_exact stream len).mapErr .ReadExactError >>= fun tail =>
          lift (VarInt.from_u64 (first.toNat % 64 * 256 ^ tail.length + from_be_bytes tail))) := by
    rw [read_tail_async, Async.bind_assoc]
    simp only [Async.pure_eq, done_ok_bind, from_be_bytes_cons, toNat_and_63]
  unfold read_rest_async
  simp only [tag_eq_iff, UInt8.reduceToNat]
  obtain htag | htag | htag | htag : first.toNat / 64 = 0 ∨ first.toNat / 64 = 1 ∨
      first.toNat / 64 = 2 ∨ first.toNat / 64 = 3 := by omega
  · rw [if_pos htag, if_pos htag, Async.pure_eq, done_ok_bind, toNat_and_63]
  · have hlen : 2 ^ (first.toNat / 64) - 1 = 1 := by simp only [htag, Nat.reducePow, Nat.reduceSub]
    rw [hlen, htag, if_neg (by decide), if_pos rfl, hread, if_neg (by decide)]
  · have hlen : 2 ^ (first.toNat / 64) - 1 = 3 := by simp only [htag, Nat.reducePow, Nat.reduceSub]
    rw [hlen, htag, if_neg (by decide), if_neg (by decide), if_pos rfl, hread, if_neg (by decide)]
  · have hlen : 2 ^ (first.toNat / 64) - 1 = 7 := by simp only [htag, Nat.reducePow, Nat.reduceSub]
    rw [hlen, htag, if_neg (by decide), if_neg (by decide), if_neg (by decide), if_pos rfl, hread,
      if_neg (by decide)]

/-- The bytes of an integer are read, and nothing else is done. -/
theorem reads_read_varint_async (henc : Encodes enc x) :
    Reads stream [] enc x (read_varint_async stream) := by
  obtain @⟨first, tail, x, hlen, hvalue⟩ := henc
  have hrest : Reads stream [] tail x (read_rest_async stream first) := by
    rw [read_rest_async_eq]
    by_cases htag : first.toNat / 64 = 0
    · rw [htag] at hlen
      obtain rfl : tail = [] := List.length_eq_zero_iff.mp (by omega)
      rw [List.length_nil, Nat.pow_zero, Nat.mul_one, from_be_bytes_nil, Nat.add_zero] at hvalue
      rw [if_pos htag, ← hvalue, VarInt.from_u64_into_inner]
      exact reads_done x
    · have hwidth : 2 ^ (first.toNat / 64) - 1 = tail.length := by omega
      rw [if_neg htag, hwidth]
      apply ((reads_read_exact stream tail).mapErr CodingError.ReadExactError).bind_last
      rw [← hvalue, VarInt.from_u64_into_inner]
      exact reads_done x
  exact ((reads_read_exact stream [first]).mapErr CodingError.ReadExactError).bind hrest

private theorem poll_first_byte (taken : List UInt8) (first : UInt8) (unread : List UInt8)
    (ended : Option End) (lost : Option ConnectionError) (stream : StreamId) :
    poll (RecvStream.serve lost stream) (read_varint_async stream) ⟨taken, first :: unread, ended⟩ =
      poll (RecvStream.serve lost stream) (read_rest_async stream first)
        ⟨taken ++ [first], unread, ended⟩ := by
  have hread : poll (RecvStream.serve lost stream)
      ((read_exact stream 1).mapErr CodingError.ReadExactError) ⟨taken, first :: unread, ended⟩ =
        (done (ok [first]), ⟨taken ++ [first], unread, ended⟩) := by
    rw [poll_mapErr, show first :: unread = [first] ++ unread from rfl,
      show 1 = [first].length from rfl, poll_read_exact]
    rfl
  rw [read_varint_async, poll_bind_of_ok hread, List.headD_cons]

/-- An integer that has arrived is read, and nothing behind it. -/
theorem poll_read_varint (henc : Encodes enc x) :
    poll (RecvStream.serve lost stream) (read_varint_async stream) ⟨taken, enc ++ rest, ended⟩ =
      (done (ok x), ⟨taken ++ enc, rest, ended⟩) :=
  (reads_read_varint_async henc).poll

private theorem cutOff_tag {first : UInt8} {tail : List UInt8} (hcut : CutOff (first :: tail)) :
    first.toNat / 64 ≠ 0 ∧ tail.length < 2 ^ (first.toNat / 64) - 1 := by
  obtain ⟨first', tail', heq, hlen⟩ := hcut
  obtain ⟨rfl, rfl⟩ := List.cons.inj heq
  refine ⟨fun hzero => ?_, by omega⟩
  rw [hzero] at hlen
  omega

/-- An integer that is not complete yet is waited for. -/
theorem poll_read_varint_wait (hshort : Incomplete unread) :
    ∃ m taken' unread', m.Pending ∧ taken' ++ unread' = taken ++ unread ∧
      poll (RecvStream.serve none stream) (read_varint_async stream) ⟨taken, unread, none⟩ =
        (m, ⟨taken', unread', none⟩) := by
  cases unread with
  | nil =>
    refine ⟨read_varint_async stream, taken, [], pending_wait _ _, rfl, ?_⟩
    rw [read_varint_async, poll_bind, poll_mapErr, poll_read_exact_wait (by decide)]
    rfl
  | cons first unread =>
    obtain ⟨htag, hlen⟩ := cutOff_tag (hshort.resolve_left (List.cons_ne_nil _ _))
    refine ⟨read_rest_async stream first, taken ++ [first], unread, ?_, ?_, ?_⟩
    · rw [read_rest_async_eq, if_neg htag]
      exact pending_wait _ _
    · rw [List.append_assoc, List.singleton_append]
    · rw [poll_first_byte, read_rest_async_eq, if_neg htag, poll_bind, poll_mapErr,
        poll_read_exact_wait hlen]
      rfl

/-- An integer that will never be complete is an error. -/
theorem poll_read_varint_over (hshort : Incomplete unread)
    (hover : RecvStream.Over ⟨taken, unread, ended⟩ lost) :
    ∃ error, poll (RecvStream.serve lost stream) (read_varint_async stream) ⟨taken, unread, ended⟩ =
      (done (err (.ReadExactError error)), ⟨taken ++ unread, [], ended⟩) := by
  cases unread with
  | nil =>
    obtain ⟨error, hread⟩ := @poll_read_exact_over stream lost taken [] ended 1 (by decide) hover
    refine ⟨error, ?_⟩
    rw [read_varint_async, poll_bind, poll_mapErr, hread]
    rfl
  | cons first unread =>
    obtain ⟨htag, hlen⟩ := cutOff_tag (hshort.resolve_left (List.cons_ne_nil _ _))
    obtain ⟨error, hread⟩ := @poll_read_exact_over stream lost (taken ++ [first]) unread ended _ hlen hover
    refine ⟨error, ?_⟩
    rw [poll_first_byte, read_rest_async_eq, if_neg htag, poll_bind, poll_mapErr, hread,
      List.append_assoc]
    rfl

/-- On the same bytes, both readers return the same number and have read the same bytes for it,
or both fail. -/
inductive ReadersAgree (stream : StreamId) (lost : Option ConnectionError) (taken bytes : List UInt8)
    (ended : Option End) : Prop where
  | value {x : VarInt} {read rest : List UInt8} (hbytes : bytes = read ++ rest)
      (hsync : read_varint bytes = ok (x, rest))
      (hasync : poll (RecvStream.serve lost stream) (read_varint_async stream) ⟨taken, bytes, ended⟩ =
        (done (ok x), ⟨taken ++ read, rest, ended⟩))
  | error {e e' : CodingError} {left : RecvStream} (hsync : read_varint bytes = err e)
      (hasync : poll (RecvStream.serve lost stream) (read_varint_async stream) ⟨taken, bytes, ended⟩ =
        (done (err e'), left))

/-- On bytes to which no more will come, the reader of buffers and that of streams decode the same. -/
theorem readers_agree {bytes : List UInt8} (hbytes : bytes ≠ [])
    (hover : RecvStream.Over ⟨taken, bytes, ended⟩ lost) : ReadersAgree stream lost taken bytes ended := by
  obtain rfl | hcut | ⟨enc, x, rest, rfl, henc⟩ := encodes_cases bytes
  · exact absurd rfl hbytes
  · obtain ⟨error, hasync⟩ := poll_read_varint_over (.inr hcut) hover
    exact .error (read_varint_of_cutOff hcut) hasync
  · exact .value rfl (read_varint_of_encodes henc rest) (poll_read_varint henc)

/-- What is written is the shortest encoding and both readers return it, whatever comes behind
it, and the readers agree on all bytes that end. -/
theorem varint_codec (stream : StreamId) (lost : Option ConnectionError) (taken : List UInt8)
    (ended : Option End) :
    (∀ (buf : List UInt8) (x : VarInt), ∃ enc, write_varint buf x.into_inner = ok (buf ++ enc) ∧
      Shortest x enc.length ∧ ∀ rest, read_varint (enc ++ rest) = ok (x, rest) ∧
        poll (RecvStream.serve lost stream) (read_varint_async stream) ⟨taken, enc ++ rest, ended⟩ =
          (done (ok x), ⟨taken ++ enc, rest, ended⟩)) ∧
      ∀ bytes ≠ [], RecvStream.Over ⟨taken, bytes, ended⟩ lost → ReadersAgree stream lost taken bytes ended := by
  constructor
  · intro buf x
    obtain ⟨enc, hwrite, henc⟩ := write_varint_spec buf x
    exact ⟨enc, hwrite, write_varint_shortest hwrite, fun rest =>
      ⟨read_varint_of_encodes henc rest, poll_read_varint henc⟩⟩
  · intro bytes hbytes hover
    exact readers_agree hbytes hover

/-- A number of four bytes that is cut off after the second one. -/
theorem varint_codec_cut_off :
    ReadersAgree ⟨.Client, .Uni, 0⟩ none [] [0x80, 0x01] (some .finished) :=
  (varint_codec ⟨.Client, .Uni, 0⟩ none [] (some .finished)).2 [0x80, 0x01] (List.cons_ne_nil _ _)
    (.inl (Option.some_ne_none _))

end wt_proto.coding
