import WebTransport.Coding.VarIntAsync
import WebTransport.H3.Error
import WebTransport.H3.Streams

open rust rust.Outcome rust.Async quinn wt_proto.coding wt_proto.h3

namespace wt_rs

inductive WTError where
  | H3Error (error : H3Error)
  | CodingError (error : CodingError)
  | WebTransportNotSupported
  | ProtocolError (message : String)
  | ConnectionError (error : quinn.ConnectionError)
  | ReadError (error : quinn.ReadError)
  | WriteError (error : quinn.WriteError)
  | AcceptError (message : String)
  deriving DecidableEq

/-- The two integers in front of a stream: its type, and the session it belongs to. -/
def decode_header (mismatch : String) (id : VarInt) (stream : StreamId) :
    Async Quic WTError (VarInt × StreamId) := do
  let stype ← (read_varint_async stream).mapErr .CodingError
  let sid ← (read_varint_async stream).mapErr .CodingError
  if sid ≠ id then lift (err (.ProtocolError mismatch)) else pure (stype, stream)

def decode_uni (id : VarInt) (stream : StreamId) : Async Quic WTError (VarInt × StreamId) :=
  decode_header "UniStream Accept : Session ID mismatch" id stream

/-- The header is read from the receiving half; both halves of `stream` come back. -/
def decode_bi (id : VarInt) (stream : StreamId) : Async Quic WTError (VarInt × StreamId) :=
  decode_header "BiStream Accept : Session ID mismatch" id stream

def decode (dir : Dir) (id : VarInt) (stream : StreamId) : Async Quic WTError (VarInt × StreamId) :=
  match dir with
  | .Uni => decode_uni id stream
  | .Bi => decode_bi id stream

/-- `bytes` starts with the type `stype` and the session `sid`, and goes on with `rest`. -/
def Header (bytes : List UInt8) (stype sid : VarInt) (rest : List UInt8) : Prop :=
  ∃ enc enc', bytes = enc ++ (enc' ++ rest) ∧ Encodes enc stype ∧ Encodes enc' sid

/-- The header has not arrived completely. -/
def Headless (bytes : List UInt8) : Prop :=
  Incomplete bytes ∨ ∃ enc stype rest, bytes = enc ++ rest ∧ Encodes enc stype ∧ Incomplete rest

/-- Of any bytes, the header has arrived or it has not. -/
theorem headless_or_header (bytes : List UInt8) :
    Headless bytes ∨ ∃ stype sid rest, Header bytes stype sid rest := by
  obtain hincomplete | ⟨enc, stype, left, rfl, henc⟩ := encodes_or_incomplete bytes
  · exact .inl (.inl hincomplete)
  · obtain hincomplete | ⟨enc', sid, rest, rfl, henc'⟩ := encodes_or_incomplete left
    · exact .inl (.inr ⟨enc, stype, left, rfl, henc, hincomplete⟩)
    · exact .inr ⟨stype, sid, rest, enc, enc', rfl, henc, henc'⟩

variable {bytes rest rest' : List UInt8} {stype sid stype' sid' : VarInt}

/-- Bytes start with one header only. -/
theorem Header.unique (h : Header bytes stype sid rest) (h' : Header bytes stype' sid' rest') :
    stype = stype' ∧ sid = sid' ∧ rest = rest' := by
  obtain ⟨enc, enc', rfl, henc, henc'⟩ := h
  obtain ⟨enc₂, enc₂', heq, henc₂, henc₂'⟩ := h'
  obtain ⟨rfl, rfl, heq⟩ := henc.unique henc₂ heq
  obtain ⟨rfl, rfl, rfl⟩ := henc'.unique henc₂' heq
  exact ⟨rfl, rfl, rfl⟩

/-- A header stays one when more bytes come. -/
theorem Header.append (h : Header bytes stype sid rest) (more : List UInt8) :
    Header (bytes ++ more) stype sid (rest ++ more) := by
  obtain ⟨enc, enc', rfl, henc, henc'⟩ := h
  exact ⟨enc, enc', by simp only [List.append_assoc], henc, henc'⟩

/-- It cannot have arrived and not have arrived. -/
theorem Header.not_headless (h : Header bytes stype sid rest) : ¬ Headless bytes := by
  obtain ⟨enc, enc', rfl, henc, henc'⟩ := h
  rintro (hincomplete | ⟨enc₂, stype', rest', heq, henc₂, hincomplete⟩)
  · exact henc.not_incomplete _ hincomplete
  · obtain ⟨rfl, rfl, rfl⟩ := henc.unique henc₂ heq
    exact henc'.not_incomplete _ hincomplete

/-- What a header says about a stream of kind `dir` in the session `id`. -/
def verdict (dir : Dir) (id : VarInt) (stream : StreamId) (stype sid : VarInt) :
    Outcome WTError (VarInt × StreamId) :=
  if sid = id then ok (stype, stream)
  else
    match dir with
    | .Uni => err (.ProtocolError "UniStream Accept : Session ID mismatch")
    | .Bi => err (.ProtocolError "BiStream Accept : Session ID mismatch")

variable {dir : Dir} {id : VarInt} {stream : StreamId} {lost : Option ConnectionError}
  {ended : Option End}

theorem verdict_self (dir : Dir) (id : VarInt) (stream : StreamId) (stype : VarInt) :
    verdict dir id stream stype id = ok (stype, stream) :=
  if_pos rfl

theorem verdict_of_ne (hsid : sid ≠ id) : ∃ error, verdict dir id stream stype sid = err error := by
  unfold verdict
  rw [if_neg hsid]
  cases dir <;> exact ⟨_, rfl⟩

private theorem decode_eq (dir : Dir) (id : VarInt) (stream : StreamId) :
    decode dir id stream = (do
      let stype ← (read_varint_async stream).mapErr WTError.CodingError
      let sid ← (read_varint_async stream).mapErr WTError.CodingError
      lift (verdict dir id stream stype sid)) := by
  cases dir
  all_goals
    simp only [decode, decode_uni, decode_bi, decode_header]
    congr 1
    funext stype
    congr 1
    funext sid
    unfold verdict
    by_cases hsid : sid = id
    · rw [if_neg (not_not_intro hsid), if_pos hsid]
      rfl
    · rw [if_pos hsid, if_neg hsid]

private theorem poll_field {enc : List UInt8} {x : VarInt} (henc : Encodes enc x)
    (taken rest : List UInt8) :
    poll (RecvStream.serve lost stream) ((read_varint_async stream).mapErr WTError.CodingError)
      ⟨taken, enc ++ rest, ended⟩ = (done (ok x), ⟨taken ++ enc, rest, ended⟩) := by
  rw [poll_mapErr, poll_read_varint henc]
  rfl

/-- A complete header decides, and nothing behind it is read. -/
theorem poll_decode_header (h : Header bytes stype sid rest) :
    ∃ header, bytes = header ++ rest ∧ Header header stype sid [] ∧
      poll (RecvStream.serve lost stream) (decode dir id stream) ⟨[], bytes, ended⟩ =
        (done (verdict dir id stream stype sid), ⟨header, rest, ended⟩) := by
  obtain ⟨enc, enc', rfl, henc, henc'⟩ := h
  refine ⟨enc ++ enc', (List.append_assoc _ _ _).symm, ⟨enc, enc', by simp, henc, henc'⟩, ?_⟩
  rw [decode_eq, poll_bind_of_ok (poll_field henc [] _), poll_bind_of_ok (poll_field henc' _ rest)]
  rfl

/-- `fut` is what `decode` has become after it has read `taken`. -/
def Residual (dir : Dir) (id : VarInt) (stream : StreamId) (taken : List UInt8)
    (fut : Async Quic WTError (VarInt × StreamId)) : Prop :=
  poll (RecvStream.serve none stream) (decode dir id stream) ⟨[], taken, none⟩ =
    (fut, ⟨taken, [], none⟩)

theorem residual_nil (dir : Dir) (id : VarInt) (stream : StreamId) :
    Residual dir id stream [] (decode dir id stream) := by
  cases dir
  all_goals exact Async.poll_wait_none (RecvStream.serve_short_none Nat.one_pos)

/-- An incomplete header is waited for. -/
theorem poll_decode_wait (h : Headless bytes) :
    ∃ fut taken unread, fut.Pending ∧ bytes = taken ++ unread ∧ Residual dir id stream taken fut ∧
      poll (RecvStream.serve none stream) (decode dir id stream) ⟨[], bytes, none⟩ =
        (fut, ⟨taken, unread, none⟩) := by
  obtain ⟨fut, taken, unread, hpending, hpoll⟩ :
      ∃ fut taken unread, fut.Pending ∧
        poll (RecvStream.serve none stream) (decode dir id stream) ⟨[], bytes, none⟩ =
          (fut, ⟨taken, unread, none⟩) := by
    rw [decode_eq]
    obtain hincomplete | ⟨enc, stype, rest, rfl, henc, hincomplete⟩ := h
    · obtain ⟨m, taken, unread, hm, -, hread⟩ :=
        @poll_read_varint_wait stream [] bytes hincomplete
      have hfield := poll_mapErr_of hread WTError.CodingError
      exact ⟨_, taken, unread, (hm.mapErr _).bind _, poll_bind_of_pending hfield (hm.mapErr _) _⟩
    · obtain ⟨m, taken, unread, hm, -, hread⟩ :=
        @poll_read_varint_wait stream ([] ++ enc) rest hincomplete
      have hfield := poll_mapErr_of hread WTError.CodingError
      exact ⟨_, taken, unread, (hm.mapErr _).bind _,
        (poll_bind_of_ok (poll_field henc [] rest) _).trans
          (poll_bind_of_pending hfield (hm.mapErr _) _)⟩
  obtain ⟨read, htaken, hbytes, hresidual⟩ := RecvStream.poll_take hpoll hpending
  rw [List.nil_append] at htaken
  subst htaken
  exact ⟨fut, taken, unread, hpending, hbytes, hresidual, hpoll⟩

/-- A header that will never be complete is an error. -/
theorem poll_decode_over (h : Headless bytes) (hover : RecvStream.Over ⟨[], bytes, ended⟩ lost) :
    ∃ error, poll (RecvStream.serve lost stream) (decode dir id stream) ⟨[], bytes, ended⟩ =
      (done (err (.CodingError (.ReadExactError error))), ⟨bytes, [], ended⟩) := by
  rw [decode_eq]
  obtain hincomplete | ⟨enc, stype, rest, rfl, henc, hincomplete⟩ := h
  · obtain ⟨error, hread⟩ := @poll_read_varint_over stream lost [] bytes ended hincomplete hover
    refine ⟨error, ?_⟩
    rw [poll_bind, poll_mapErr, hread]
    rfl
  · obtain ⟨error, hread⟩ := @poll_read_varint_over stream lost enc rest ended hincomplete hover
    refine ⟨error, ?_⟩
    rw [poll_bind_of_ok (poll_field henc [] _), List.nil_append, poll_bind, poll_mapErr, hread]
    rfl

/-- Going on from where `decode` has come is the same as starting again. -/
theorem Residual.poll_eq {taken : List UInt8} {fut : Async Quic WTError (VarInt × StreamId)}
    (h : Residual dir id stream taken fut) (unread : List UInt8) (ended : Option End)
    (lost : Option ConnectionError) :
    poll (RecvStream.serve lost stream) fut ⟨taken, unread, ended⟩ =
      poll (RecvStream.serve lost stream) (decode dir id stream) ⟨[], taken ++ unread, ended⟩ := by
  have happend := RecvStream.poll_append h unread ended lost
  rw [List.nil_append] at happend
  exact happend.symm

end wt_rs
