import WebTransport.H3.Connect
import WebTransport.H3.Control
import WebTransport.H3.FrameCodec
import WebTransport.Quinn.Answers

open rust rust.Outcome rust.Async quinn wt_proto.coding

namespace wt_proto.coding

variable {stream : StreamId} {script : Script Quic} {x : VarInt}

/-- The integer is the number it was made from. -/
theorem from_u64_eq_ok {n : Nat} (h : VarInt.from_u64 n = ok x) : x.into_inner = n := by
  unfold VarInt.from_u64 at h
  split at h
  · cases h
    rfl
  · cases h

/-- A number that has been read is what the stream said. -/
theorem took_read_varint (h : (read_varint_async stream).Follows script x) (hexact : Exact script) :
    ∃ enc, Took stream script enc ∧ Encodes enc x := by
  obtain ⟨before, after, buf, rfl, hfirst, hrest⟩ := h.of_bind
  obtain ⟨hexact, hexact'⟩ := hexact.of_append
  obtain ⟨htook, hlength⟩ := took_read_exact hfirst.of_mapErr hexact
  obtain ⟨first, rfl⟩ := List.length_eq_one_iff.mp hlength
  rw [List.headD_cons, read_rest_async_eq] at hrest
  by_cases htag : first.toNat / 64 = 0
  · rw [if_pos htag] at hrest
    obtain ⟨rfl, hvalue⟩ := hrest.of_done
    refine ⟨[first], by rw [List.append_nil]; exact htook, .intro ?_ ?_⟩
    · rw [htag]
      rfl
    · rw [from_u64_eq_ok hvalue, List.length_nil, Nat.pow_zero, Nat.mul_one, from_be_bytes_nil, Nat.add_zero]
  · rw [if_neg htag] at hrest
    obtain ⟨middle, last, tail, rfl, htail, hlast⟩ := hrest.of_bind
    obtain ⟨rfl, hvalue⟩ := hlast.of_done
    obtain ⟨htook', hlength'⟩ := took_read_exact htail.of_mapErr hexact'.of_append.1
    refine ⟨[first] ++ tail, ?_, .intro ?_ (from_u64_eq_ok hvalue)⟩
    · rw [List.append_nil]
      exact htook.append htook'
    · have hpos := Nat.two_pow_pos (first.toNat / 64)
      change tail.length + 1 = _
      omega

/-- A number that is too large is an error, not a panic. -/
theorem from_u64_ne_panic (n : Nat) : VarInt.from_u64 n ≠ panic := by
  unfold VarInt.from_u64
  split
  · intro h
    cases h
  · intro h
    cases h

/-- Reading an integer sends nothing. -/
theorem quiet_read_varint (Panics : Prop) (stream : StreamId) : Quiet Panics (read_varint_async stream) := by
  apply ((quiet_read_exact stream 1).mapErr _).bind
  intro buf
  rw [read_rest_async_eq]
  split
  · exact .done fun hpanic => absurd hpanic (from_u64_ne_panic _)
  · apply ((quiet_read_exact stream _).mapErr _).bind
    exact fun tail => .done fun hpanic => absurd hpanic (from_u64_ne_panic _)

end wt_proto.coding

namespace wt_proto.h3

variable {stream : StreamId} {script : Script Quic} {fuel : Nat}

/-- A frame that has been accepted is the first on the stream behind grease. -/
theorem Frame.took_accept {frame : Frame} {len : Nat} {data : List UInt8}
    (h : (accept fuel stream).Follows script (frame, len, data)) (hexact : Exact script) :
    ∃ skipped greases enc, Took stream script (skipped ++ enc) ∧ Greases skipped greases ∧
      frame.Encoding enc data ∧ ¬ frame.Grease ∧ len = data.length := by
  induction fuel generalizing script with
  | zero => cases h.of_done.2
  | succ fuel ih =>
    obtain ⟨before, rest, ftype, rfl, hftype, h⟩ := h.of_bind
    obtain ⟨hexact_ftype, hexact⟩ := hexact.of_append
    obtain ⟨middle, rest, n, rfl, hlen, h⟩ := h.of_bind
    obtain ⟨hexact_len, hexact⟩ := hexact.of_append
    obtain ⟨payload, rest, fdata, rfl, hdata, h⟩ := h.of_bind
    obtain ⟨hexact_data, hexact⟩ := hexact.of_append
    obtain ⟨enc, htook, henc⟩ := took_read_varint hftype.of_mapErr hexact_ftype
    obtain ⟨enc', htook', henc'⟩ := took_read_varint hlen.of_mapErr hexact_len
    obtain ⟨htook_data, hlength⟩ := took_read_exact hdata.of_mapErr hexact_data
    have hframe : (⟨ftype⟩ : Frame).Encoding (enc ++ (enc' ++ fdata)) fdata :=
      ⟨enc, enc', n, rfl, henc, henc', hlength.symm⟩
    have hwhole := htook.append (htook'.append htook_data)
    by_cases hgrease : (⟨ftype⟩ : Frame).is_grease = true
    · rw [if_pos hgrease] at h
      obtain ⟨skipped, greases, enc₂, htook₂, hgreases, hrest⟩ := ih h hexact
      refine ⟨enc ++ (enc' ++ fdata) ++ skipped, (⟨ftype⟩, fdata) :: greases, enc₂, ?_, ⟨?_, ?_⟩, hrest⟩
      · rw [List.append_assoc]
        simpa only [List.append_assoc] using hwhole.append htook₂
      · exact .cons hframe hgreases.frames
      · exact List.forall_mem_cons.mpr ⟨(is_grease_iff _).mp hgrease, hgreases.grease⟩
    · rw [if_neg hgrease] at h
      obtain ⟨rfl, hresult⟩ := h.of_done
      cases hresult
      refine ⟨[], [], _, ?_, ⟨.nil, fun _ hmem => absurd hmem List.not_mem_nil⟩, hframe,
        fun h => hgrease ((is_grease_iff _).mpr h), hlength.symm⟩
      rw [List.append_nil, List.nil_append]
      exact hwhole

/-- Reading a frame sends nothing. -/
theorem Frame.quiet_accept (Panics : Prop) (fuel : Nat) (stream : StreamId) : Quiet Panics (accept fuel stream) := by
  induction fuel with
  | zero => exact .done fun h => by cases h
  | succ fuel ih =>
    apply ((quiet_read_varint Panics stream).mapErr _).bind
    intro ftype
    apply ((quiet_read_varint Panics stream).mapErr _).bind
    intro len
    apply ((quiet_read_exact stream len.into_inner).mapErr _).bind
    intro data
    split
    · exact ih
    · exact .done_ok _

/-- A stream of the peer has been accepted as its control stream: it said that it is one, and this
is the payload of its settings. -/
def ControlRead (script : Script Quic) (stream : StreamId) (fdata : List UInt8) : Prop :=
  ∃ reads stype skipped greases frame, script = ⟨.accept_uni, .ok stream⟩ :: reads ∧
    Took stream reads (stype ++ (skipped ++ frame)) ∧ Encodes stype UniStream.CONTROL.stype ∧
    Frame.Greases skipped greases ∧ Frame.SETTINGS.Encoding frame fdata

/-- The payloads that `decode` accepts, and those that it panics on. -/
theorem Settings.decode_payload (d : List UInt8) :
    (∃ list, Pairs d list ∧ decode d d.length = ok (default.insert_pairs list, [])) ∨
      (∃ e, decode d d.length = err e) ∨ EndsAfterIdentifier d ∧ decode d d.length = .panic := by
  obtain ⟨bytes, list, left, rfl, hpairs, hleft⟩ := exists_pairs d
  cases hleft with
  | nothing =>
    rw [List.append_nil]
    exact .inl ⟨list, hpairs, decode_whole_pairs hpairs⟩
  | identifier hcut => exact .inr (.inl ⟨_, decode_cutOff_identifier hpairs hcut⟩)
  | no_value henc =>
    have hends : EndsAfterIdentifier (bytes ++ left) := ⟨bytes, list, left, _, rfl, hpairs, henc⟩
    exact .inr (.inr ⟨hends, decode_endsAfterIdentifier hends⟩)
  | value henc hcut => exact .inr (.inl ⟨_, decode_cutOff_value hpairs henc hcut⟩)

/-- A stream that was accepted has had its type read from it, and nothing more. -/
theorem UniStream.took_accept {stype : UniStream} (h : accept.Follows script (stype, stream)) (hexact : Exact script) :
    ∃ reads enc, script = ⟨.accept_uni, .ok stream⟩ :: reads ∧ Took stream reads enc ∧ Encodes enc stype.stype := by
  obtain ⟨accepted, tail, opened, rfl, haccept, htail⟩ := h.of_bind
  obtain ⟨typed, last, x, rfl, hread, hlast⟩ := htail.of_bind
  obtain ⟨rfl, hresult⟩ := hlast.of_done
  cases hresult
  obtain ⟨enc, htook, henc⟩ := took_read_varint hread.of_mapErr hexact.of_append.2.of_append.1
  rw [of_accept_uni haccept.of_mapErr, List.append_nil]
  exact ⟨typed, enc, rfl, htook, henc⟩

/-- Accepting a stream sends nothing. -/
theorem UniStream.quiet_accept (Panics : Prop) : Quiet Panics accept := by
  apply (quiet_accept_uni.mapErr _).bind
  intro stream
  apply ((quiet_read_varint Panics stream).mapErr _).bind
  exact fun stype => .done_ok _

namespace Settings

/-- What `accept` does before it decodes the settings. -/
private def receive (fuel : Nat) : Async Quic H3Error (Nat × List UInt8 × StreamId) := do
  let (stype, cs) ← UniStream.accept
  if stype ≠ .CONTROL then lift (err .SettingsError)
  else do
    let (ftype, len, data) ← Frame.accept fuel cs
    if ftype ≠ .SETTINGS then lift (err .SettingsError) else pure (len, data, cs)

private theorem accept_eq (fuel : Nat) :
    accept fuel = (receive fuel >>= fun (len, data, cs) => do
      let (settings, _) ← lift (decode data len)
      pure (settings, cs)) := by
  rw [receive, accept, Async.bind_assoc]
  congr 1
  funext ⟨stype, cs⟩
  simp only
  split_ifs
  · rfl
  · rw [Async.bind_assoc]
    congr 1
    funext ⟨ftype, len, data⟩
    simp only
    split_ifs
    · rfl
    · rfl

private theorem took_receive {len : Nat} {data : List UInt8} (h : (receive fuel).Follows script (len, data, stream))
    (hexact : Exact script) : ControlRead script stream data ∧ len = data.length := by
  obtain ⟨before, tail, ⟨stype, control⟩, rfl, hstream, htail⟩ := h.of_bind
  obtain ⟨hexact_stream, hexact_tail⟩ := hexact.of_append
  obtain ⟨reads, enc, rfl, htook, henc⟩ := UniStream.took_accept hstream hexact_stream
  simp only at htail
  split_ifs at htail with hcontrol
  · cases htail.of_done.2
  · obtain ⟨framed, last, ⟨ftype, len', data'⟩, rfl, hframe, hlast⟩ := htail.of_bind
    obtain ⟨skipped, greases, frame, htook', hgreases, hencoding, -, hlen⟩ :=
      Frame.took_accept hframe hexact_tail.of_append.1
    simp only at hlast
    split_ifs at hlast with hftype
    · cases hlast.of_done.2
    · obtain ⟨rfl, hresult⟩ := hlast.of_done
      cases hresult
      obtain rfl := not_not.mp hcontrol
      obtain rfl := not_not.mp hftype
      rw [List.append_nil]
      exact ⟨⟨_, enc, skipped, greases, frame, rfl, htook.append htook', henc, hgreases, hencoding⟩, hlen⟩

private theorem quiet_receive (Panics : Prop) (fuel : Nat) : Quiet Panics (receive fuel) := by
  apply (UniStream.quiet_accept Panics).bind
  rintro ⟨stype, cs⟩
  simp only
  split_ifs
  · exact .done_err _
  · apply (Frame.quiet_accept Panics fuel cs).bind
    rintro ⟨ftype, len, data⟩
    simp only
    split_ifs
    · exact .done_err _
    · exact .done_ok _

/-- Settings that were accepted were read from a control stream of the peer: they are the pairs of its
SETTINGS frame. -/
theorem took_accept {settings : Settings} (h : (accept fuel).Follows script (settings, stream))
    (hexact : Exact script) :
    ∃ fdata list, ControlRead script stream fdata ∧ Pairs fdata list ∧ settings = default.insert_pairs list := by
  rw [accept_eq] at h
  obtain ⟨before, tail, ⟨len, data, control⟩, rfl, hreceive, htail⟩ := h.of_bind
  obtain ⟨hread, rfl⟩ := took_receive hreceive hexact.of_append.1
  obtain ⟨decoded, last, ⟨settings', left⟩, rfl, hdecode, hlast⟩ := htail.of_bind
  obtain ⟨rfl, hdecoded⟩ := hdecode.of_done
  obtain ⟨rfl, hresult⟩ := hlast.of_done
  cases hresult
  rw [List.nil_append, List.append_nil]
  obtain ⟨list, hpairs, hok⟩ | ⟨e, herr⟩ | ⟨-, hpanic⟩ := decode_payload data
  · rw [hdecoded] at hok
    cases hok
    exact ⟨data, list, hread, hpairs, rfl⟩
  · rw [hdecoded] at herr
    cases herr
  · rw [hdecoded] at hpanic
    cases hpanic

/-- The settings of a peer can make the receiver panic, in this way only. -/
theorem panic_accept (h : Ran script (accept fuel) (.done .panic)) (hexact : Exact script) :
    ∃ control fdata, ControlRead script control fdata ∧ EndsAfterIdentifier fdata := by
  rw [accept_eq] at h
  obtain hpanic | ⟨before, tail, ⟨len, data, control⟩, rfl, hreceive, htail⟩ := h.panic_of_bind
  · exact absurd hpanic (quiet_receive False fuel).not_panic
  · obtain ⟨hread, rfl⟩ := took_receive hreceive hexact.of_append.1
    obtain hdecode | ⟨decoded, last, ⟨settings, left⟩, rfl, hdecode, hlast⟩ := htail.panic_of_bind
    · obtain ⟨rfl, hdecoded⟩ := hdecode.of_done
      rw [List.append_nil]
      obtain ⟨list, hpairs, hok⟩ | ⟨e, herr⟩ | ⟨hends, -⟩ := decode_payload data
      · rw [← Async.done.inj hdecoded] at hok
        cases hok
      · rw [← Async.done.inj hdecoded] at herr
        cases herr
      · exact ⟨control, data, hread, hends⟩
    · cases hlast.of_done.2

/-- Accepting settings sends nothing. -/
theorem quiet_accept (fuel : Nat) : Quiet True (accept fuel) := by
  rw [accept_eq]
  apply (quiet_receive True fuel).bind
  rintro ⟨len, data, cs⟩
  apply Always.bind (.done fun _ => trivial)
  exact fun settings => .done_ok _

end Settings

end wt_proto.h3
