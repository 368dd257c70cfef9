import WebTransport.H3.Frame

open rust rust.Outcome rust.Async quinn wt_proto.coding

namespace wt_proto.h3

namespace Frame

/-- The types reserved for grease. -/
def Grease (self : Frame) : Prop := ∃ n, self.ftype.into_inner = 0x1f * n + 0x21

/-- The test for grease tests the type. -/
theorem is_grease_iff (self : Frame) : self.is_grease = true ↔ self.Grease := by
  rw [is_grease, Grease]
  split_ifs with hsmall
  · simp only [false_iff, not_exists]
    omega
  · rw [beq_iff_eq]
    constructor
    · intro hmod
      exact ⟨(self.ftype.into_inner - 0x21) / 0x1f, by omega⟩
    · rintro ⟨n, hn⟩
      omega

/-- The frames of a list, one behind the other. -/
def encode_all : List (Frame × List UInt8) → List UInt8 → Outcome Empty (List UInt8)
  | [], b => ok b
  | (frame, fdata) :: frames, b => do
    let b ← frame.encode b fdata
    encode_all frames b

/-- `bytes` is a sequence of complete frames. -/
inductive Frames : (bytes : List UInt8) → List (Frame × List UInt8) → Prop where
  | nil : Frames [] []
  | cons {frame : Frame} {enc fdata bytes : List UInt8} {frames : List (Frame × List UInt8)}
      (henc : frame.Encoding enc fdata) (hrest : Frames bytes frames) :
      Frames (enc ++ bytes) ((frame, fdata) :: frames)

/-- Complete grease frames, which `accept` skips. -/
structure Greases (bytes : List UInt8) (greases : List (Frame × List UInt8)) : Prop where
  frames : Frames bytes greases
  grease : ∀ frame ∈ greases, frame.1.Grease

/-- A frame that ends before its payload does: inside its type, its length or the payload. -/
inductive Unfinished : List UInt8 → Prop where
  | ftype {bytes : List UInt8} (hshort : Incomplete bytes) : Unfinished bytes
  | len {enc bytes : List UInt8} {x : VarInt} (henc : Encodes enc x) (hshort : Incomplete bytes) :
      Unfinished (enc ++ bytes)
  | payload {enc enc' fdata : List UInt8} {x len : VarInt} (henc : Encodes enc x)
      (henc' : Encodes enc' len) (hshort : fdata.length < len.into_inner) :
      Unfinished (enc ++ (enc' ++ fdata))

/-- Behind grease frames there is a complete frame of another type. -/
def HoldsFrame (bytes : List UInt8) : Prop :=
  ∃ (skipped : List UInt8) (greases : List (Frame × List UInt8)) (enc : List UInt8) (frame : Frame)
    (fdata rest : List UInt8), bytes = skipped ++ (enc ++ rest) ∧ Greases skipped greases ∧
      frame.Encoding enc fdata ∧ ¬ frame.Grease

/-- A frame has at least its type. -/
theorem Encoding.length_pos {self : Frame} {enc fdata : List UInt8} (henc : self.Encoding enc fdata) :
    0 < enc.length := by
  obtain ⟨ftype, len, -, rfl, hftype, -, -⟩ := henc
  have hpos := List.length_pos_iff.mpr hftype.ne_nil
  rw [List.length_append]
  omega

/-- There are no more frames than bytes. -/
theorem Frames.length_le {bytes : List UInt8} {frames : List (Frame × List UInt8)}
    (hframes : Frames bytes frames) : frames.length ≤ bytes.length := by
  induction hframes with
  | nil => exact le_refl _
  | cons henc _ ih =>
    have hpos := henc.length_pos
    rw [List.length_cons, List.length_append]
    omega

theorem Greases.nil : Greases [] [] := ⟨.nil, by simp⟩

theorem Greases.cons {frame : Frame} {enc fdata bytes : List UInt8} {greases : List (Frame × List UInt8)}
    (henc : frame.Encoding enc fdata) (hgrease : frame.Grease) (hrest : Greases bytes greases) :
    Greases (enc ++ bytes) ((frame, fdata) :: greases) :=
  ⟨.cons henc hrest.frames, List.forall_mem_cons.mpr ⟨hgrease, hrest.grease⟩⟩

/-- A payload is encoded only when its length fits into the length field. -/
theorem length_lt_of_encode {self : Frame} {b fdata out : List UInt8} (h : self.encode b fdata = ok out) :
    fdata.length < 2 ^ 62 := by
  rw [encode, bind_eq_ok_iff] at h
  obtain ⟨b', -, h⟩ := h
  rw [bind_eq_ok_iff] at h
  obtain ⟨b'', hlen, -⟩ := h
  by_contra hlong
  rw [write_varint, if_neg (by omega), if_neg (by omega), if_neg (by omega), if_neg hlong] at hlen
  cases hlen

/-- What the encoder returns is the sequence of the frames. -/
theorem encode_all_frames {frames : List (Frame × List UInt8)} {b out : List UInt8}
    (h : encode_all frames b = ok out) : ∃ bytes, out = b ++ bytes ∧ Frames bytes frames := by
  induction frames generalizing b with
  | nil =>
    cases h
    exact ⟨[], (List.append_nil _).symm, .nil⟩
  | cons entry frames ih =>
    obtain ⟨frame, fdata⟩ := entry
    rw [encode_all, bind_eq_ok_iff] at h
    obtain ⟨b', hencode, h⟩ := h
    obtain ⟨enc, hspec, henc⟩ := frame.encode_spec b (length_lt_of_encode hencode)
    rw [hspec] at hencode
    cases hencode
    obtain ⟨bytes, rfl, hframes⟩ := ih h
    exact ⟨enc ++ bytes, List.append_assoc _ _ _, .cons henc hframes⟩

/-- Payloads of fewer than 2^62 bytes are encoded. -/
theorem encode_all_returns {frames : List (Frame × List UInt8)}
    (hlen : ∀ frame ∈ frames, frame.2.length < 2 ^ 62) (b : List UInt8) :
    ∃ bytes, encode_all frames b = ok (b ++ bytes) := by
  induction frames generalizing b with
  | nil => exact ⟨[], by rw [encode_all, List.append_nil]⟩
  | cons entry frames ih =>
    obtain ⟨frame, fdata⟩ := entry
    obtain ⟨hfdata, hframes⟩ := List.forall_mem_cons.mp hlen
    obtain ⟨enc, hencode, -⟩ := frame.encode_spec b hfdata
    obtain ⟨bytes, hall⟩ := ih hframes (b ++ enc)
    exact ⟨enc ++ bytes, by rw [encode_all, hencode, ok_bind, hall, List.append_assoc]⟩

/-- Bytes start with a frame, or with a part of one. -/
theorem frame_cases (bytes : List UInt8) :
    Unfinished bytes ∨ ∃ frame enc fdata rest, bytes = enc ++ rest ∧ Encoding frame enc fdata := by
  obtain hshort | ⟨enc, x, left, rfl, henc⟩ := encodes_or_incomplete bytes
  · exact .inl (.ftype hshort)
  · obtain hshort | ⟨enc', len, left, rfl, henc'⟩ := encodes_or_incomplete left
    · exact .inl (.len henc hshort)
    · by_cases hlen : left.length < len.into_inner
      · exact .inl (.payload henc henc' hlen)
      · refine .inr ⟨⟨x⟩, enc ++ (enc' ++ left.take len.into_inner), left.take len.into_inner,
          left.drop len.into_inner, by simp, enc, enc', len, rfl, henc, henc', ?_⟩
        rw [List.length_take]
        omega

/-- A stream holds grease frames and then a frame that is unfinished or one of another type. -/
theorem frames_cases (bytes : List UInt8) :
    HoldsFrame bytes ∨
      ∃ skipped greases rest, bytes = skipped ++ rest ∧ Greases skipped greases ∧ Unfinished rest := by
  induction hlen : bytes.length using Nat.strong_induction_on generalizing bytes with
  | _ n ih =>
    obtain hshort | ⟨frame, enc, fdata, rest, rfl, henc⟩ := frame_cases bytes
    · exact .inr ⟨[], [], bytes, rfl, .nil, hshort⟩
    · by_cases hgrease : frame.Grease
      · have hpos := henc.length_pos
        rw [List.length_append] at hlen
        obtain ⟨skipped, greases, enc', frame', fdata', rest', rfl, hskipped, henc', hother⟩ |
          ⟨skipped, greases, rest', rfl, hskipped, hshort⟩ := ih rest.length (by omega) rest rfl
        · exact .inl ⟨enc ++ skipped, _, enc', frame', fdata', rest', (List.append_assoc _ _ _).symm,
            hskipped.cons henc hgrease, henc', hother⟩
        · exact .inr ⟨enc ++ skipped, _, rest', (List.append_assoc _ _ _).symm,
            hskipped.cons henc hgrease, hshort⟩
      · exact .inl ⟨[], [], enc, frame, fdata, rest, rfl, .nil, henc, hgrease⟩

variable {stream : StreamId} {lost : Option ConnectionError} {taken rest : List UInt8} {ended : Option End}

/-- One turn of the loop reads one frame, whatever its payload looks like. -/
theorem poll_accept_frame {self : Frame} {enc fdata : List UInt8} (henc : self.Encoding enc fdata) (fuel : Nat) :
    poll (RecvStream.serve lost stream) (accept (fuel + 1) stream) ⟨taken, enc ++ rest, ended⟩ =
      if self.is_grease then
        poll (RecvStream.serve lost stream) (accept fuel stream) ⟨taken ++ enc, rest, ended⟩
      else (done (ok (self, fdata.length, fdata)), ⟨taken ++ enc, rest, ended⟩) := by
  obtain ⟨ftype, len', len, rfl, hftype, hlen, hdata⟩ := henc
  rw [accept, List.append_assoc, List.append_assoc,
    poll_bind_of_ok (poll_mapErr_of (poll_read_varint hftype) H3Error.CodingError),
    poll_bind_of_ok (poll_mapErr_of (poll_read_varint hlen) H3Error.CodingError), hdata,
    poll_bind_of_ok (poll_mapErr_of (poll_read_exact _ fdata rest _ _ _) H3Error.ReadExactError)]
  simp only [List.append_assoc]
  split_ifs
  · rfl
  · rfl

/-- A frame that will never be complete ends the loop with an error. -/
theorem poll_accept_unfinished {bytes : List UInt8} (hshort : Unfinished bytes)
    (hover : ended ≠ none ∨ lost ≠ none) (fuel : Nat) :
    ∃ e left, poll (RecvStream.serve lost stream) (accept (fuel + 1) stream) ⟨taken, bytes, ended⟩ =
      (done (err e), left) := by
  cases hshort with
  | ftype hshort =>
    obtain ⟨error, hpoll⟩ := @poll_read_varint_over stream lost taken bytes ended hshort hover
    exact ⟨_, _, poll_bind_of_err (poll_mapErr_of hpoll H3Error.CodingError) _⟩
  | @len enc bytes x henc hshort =>
    obtain ⟨error, hpoll⟩ := @poll_read_varint_over stream lost (taken ++ enc) bytes ended hshort hover
    rw [accept, poll_bind_of_ok (poll_mapErr_of (poll_read_varint henc) H3Error.CodingError)]
    exact ⟨_, _, poll_bind_of_err (poll_mapErr_of hpoll H3Error.CodingError) _⟩
  | @payload enc enc' fdata x len henc henc' hshort =>
    obtain ⟨error, hpoll⟩ := @poll_read_exact_over stream lost (taken ++ enc ++ enc') fdata ended _ hshort hover
    rw [accept, poll_bind_of_ok (poll_mapErr_of (poll_read_varint henc) H3Error.CodingError),
      poll_bind_of_ok (poll_mapErr_of (poll_read_varint henc') H3Error.CodingError)]
    exact ⟨_, _, poll_bind_of_err (poll_mapErr_of hpoll H3Error.ReadExactError) _⟩

/-- The loop skips grease frames, one turn for each. -/
theorem poll_accept_greases {skipped : List UInt8} {greases : List (Frame × List UInt8)}
    (hgreases : Greases skipped greases) (fuel : Nat) (rest : List UInt8) :
    poll (RecvStream.serve lost stream) (accept (fuel + greases.length) stream) ⟨taken, skipped ++ rest, ended⟩ =
      poll (RecvStream.serve lost stream) (accept fuel stream) ⟨taken ++ skipped, rest, ended⟩ := by
  obtain ⟨hframes, hgrease⟩ := hgreases
  induction hframes generalizing taken with
  | nil => rw [List.append_nil, List.length_nil, Nat.add_zero, List.nil_append]
  | @cons frame enc fdata bytes frames henc _ ih =>
    obtain ⟨hfirst, hgrease⟩ := List.forall_mem_cons.mp hgrease
    rw [List.length_cons, ← Nat.add_assoc, List.append_assoc, poll_accept_frame henc,
      if_pos (frame.is_grease_iff.mpr hfirst), ih hgrease, List.append_assoc]

/-- What comes back from the loop is the frame behind the grease. -/
theorem accept_sound {fuel n : Nat} {frame : Frame} {data bytes : List UInt8} {left : RecvStream}
    (hover : ended ≠ none ∨ lost ≠ none)
    (h : poll (RecvStream.serve lost stream) (accept fuel stream) ⟨taken, bytes, ended⟩ =
      (done (ok (frame, n, data)), left)) :
    ∃ skipped greases enc rest, bytes = skipped ++ (enc ++ rest) ∧ Greases skipped greases ∧
      frame.Encoding enc data ∧ ¬ frame.Grease ∧ n = data.length ∧
      left = ⟨taken ++ (skipped ++ enc), rest, ended⟩ := by
  induction fuel generalizing taken bytes with
  | zero => cases h
  | succ fuel ih =>
    obtain hshort | ⟨self, enc, fdata, rest, rfl, henc⟩ := frame_cases bytes
    · obtain ⟨e, left', hpoll⟩ := @poll_accept_unfinished stream lost taken ended bytes hshort hover fuel
      rw [hpoll] at h
      cases h
    · rw [poll_accept_frame henc] at h
      split_ifs at h with hgrease
      · obtain ⟨skipped, greases, enc', rest', rfl, hskipped, henc', hother, hlen, hleft⟩ := ih h
        refine ⟨enc ++ skipped, _, enc', rest', (List.append_assoc _ _ _).symm,
          hskipped.cons henc (self.is_grease_iff.mp hgrease), henc', hother, hlen, ?_⟩
        rw [hleft, List.append_assoc, List.append_assoc]
      · cases h
        exact ⟨[], [], enc, rest, rfl, .nil, henc, fun hg => hgrease (frame.is_grease_iff.mpr hg), rfl, rfl⟩

/-- Without a frame to return, the loop is over after the frames that are there. -/
theorem accept_fails {bytes : List UInt8} (hover : ended ≠ none ∨ lost ≠ none) (hnone : ¬ HoldsFrame bytes)
    {fuel : Nat} (hfuel : bytes.length < fuel) :
    ∃ e left, poll (RecvStream.serve lost stream) (accept fuel stream) ⟨taken, bytes, ended⟩ =
      (done (err e), left) := by
  obtain ⟨skipped, greases, rest, rfl, hgreases, hshort⟩ := (frames_cases bytes).resolve_left hnone
  have hle := hgreases.frames.length_le
  rw [List.length_append] at hfuel
  obtain ⟨turns, rfl⟩ : ∃ turns, fuel = turns + 1 + greases.length := ⟨fuel - greases.length - 1, by omega⟩
  rw [poll_accept_greases hgreases]
  exact poll_accept_unfinished hshort hover turns

/-- Frames in a row can be taken apart between any two of them. -/
theorem Frames.split {bytes : List UInt8} {frames frames' : List (Frame × List UInt8)}
    (hframes : Frames bytes (frames ++ frames')) :
    ∃ front back, bytes = front ++ back ∧ Frames front frames ∧ Frames back frames' := by
  induction frames generalizing bytes with
  | nil => exact ⟨[], bytes, rfl, .nil, hframes⟩
  | cons frame frames ih =>
    cases hframes with
    | cons henc hrest =>
      obtain ⟨front, back, rfl, hfront, hback⟩ := ih hrest
      exact ⟨_, back, (List.append_assoc _ _ _).symm, .cons henc hfront, hback⟩

/-- `accept` skips any number of grease frames and comes back with the first other one, and leaves what
comes behind it. -/
theorem accept_complete {greases : List (Frame × List UInt8)} {t : Frame} {d bytes : List UInt8}
    (hgrease : ∀ grease ∈ greases, grease.1.Grease) (hother : ¬ t.Grease)
    (hencode : encode_all (greases ++ [(t, d)]) [] = ok bytes) {fuel : Nat} (hfuel : greases.length < fuel) :
    poll (RecvStream.serve lost stream) (accept fuel stream) ⟨taken, bytes ++ rest, ended⟩ =
      (done (ok (t, d.length, d)), ⟨taken ++ bytes, rest, ended⟩) := by
  obtain ⟨bytes, rfl, hframes⟩ := encode_all_frames hencode
  obtain ⟨skipped, last, rfl, hskipped, hlast⟩ := hframes.split
  cases hlast with
  | @cons _ enc _ _ _ henc hnil =>
    cases hnil
    obtain ⟨turns, rfl⟩ : ∃ turns, fuel = turns + 1 + greases.length := ⟨fuel - greases.length - 1, by omega⟩
    rw [List.append_nil, List.append_assoc, poll_accept_greases ⟨hskipped, hgrease⟩,
      poll_accept_frame henc, if_neg (fun hg => hother (t.is_grease_iff.mp hg)), List.append_assoc]

/-- Encoded frames are accepted behind any number of grease frames and nothing more is read;
only such frames are accepted; and a stream that ends without one is an error. -/
theorem frame_codec (stream : StreamId) (lost : Option ConnectionError) (taken : List UInt8) (ended : Option End) :
    (∀ frames : List (Frame × List UInt8), (∀ frame ∈ frames, frame.2.length < 2 ^ 62) →
      ∃ bytes, encode_all frames [] = ok bytes) ∧
    (∀ (greases : List (Frame × List UInt8)) (t : Frame) (d bytes rest : List UInt8) (fuel : Nat),
      (∀ grease ∈ greases, grease.1.Grease) → ¬ t.Grease → encode_all (greases ++ [(t, d)]) [] = ok bytes →
      greases.length < fuel →
        poll (RecvStream.serve lost stream) (accept fuel stream) ⟨taken, bytes ++ rest, ended⟩ =
          (done (ok (t, d.length, d)), ⟨taken ++ bytes, rest, ended⟩)) ∧
    (ended ≠ none ∨ lost ≠ none → ∀ (bytes : List UInt8) (fuel : Nat),
      (∀ t n d left, poll (RecvStream.serve lost stream) (accept fuel stream) ⟨taken, bytes, ended⟩ =
          (done (ok (t, n, d)), left) →
        ∃ skipped greases enc rest, bytes = skipped ++ (enc ++ rest) ∧ Greases skipped greases ∧
          t.Encoding enc d ∧ ¬ t.Grease ∧ n = d.length ∧ left = ⟨taken ++ (skipped ++ enc), rest, ended⟩) ∧
      (¬ HoldsFrame bytes → bytes.length < fuel →
        ∃ e left, poll (RecvStream.serve lost stream) (accept fuel stream) ⟨taken, bytes, ended⟩ =
          (done (err e), left))) := by
  refine ⟨fun frames hlen => ?_, ?_, fun hover bytes fuel => ⟨?_, ?_⟩⟩
  · obtain ⟨bytes, hencode⟩ := encode_all_returns hlen []
    exact ⟨[] ++ bytes, hencode⟩
  · intro greases t d bytes rest fuel hgrease hother hencode hfuel
    exact accept_complete hgrease hother hencode hfuel
  · intro t n d left h
    exact accept_sound hover h
  · intro hnone hfuel
    exact accept_fails hover hnone hfuel

/-- A `HEADERS` frame of three bytes behind a grease frame whose payload is another one, and a
stream that is finished without a byte. -/
theorem frame_codec_headers :
    poll (RecvStream.serve none ⟨.Client, .Uni, 0⟩) (accept 2 ⟨.Client, .Uni, 0⟩)
        ⟨[], [0x21, 0x02, 0x01, 0x00, 0x01, 0x03, 1, 2, 3] ++ [7], some .finished⟩ =
      (done (ok (HEADERS, 3, [1, 2, 3])),
        ⟨[0x21, 0x02, 0x01, 0x00, 0x01, 0x03, 1, 2, 3], [7], some .finished⟩) ∧
    (∃ skipped greases enc rest,
      [0x21, 0x02, 0x01, 0x00, 0x01, 0x03, 1, 2, 3] ++ [7] = skipped ++ (enc ++ rest) ∧ Greases skipped greases ∧
        HEADERS.Encoding enc [1, 2, 3] ∧ ¬ HEADERS.Grease ∧ 3 = 3 ∧
        (⟨[0x21, 0x02, 0x01, 0x00, 0x01, 0x03, 1, 2, 3], [7], some .finished⟩ : RecvStream) =
          ⟨[] ++ (skipped ++ enc), rest, some .finished⟩) ∧
    ∃ e left, poll (RecvStream.serve none ⟨.Client, .Uni, 0⟩) (accept 1 ⟨.Client, .Uni, 0⟩)
      ⟨[], [], some .finished⟩ = (done (err e), left) := by
  obtain ⟨-, hcomplete, hover⟩ := frame_codec ⟨.Client, .Uni, 0⟩ none [] (some .finished)
  have hgrease : ∀ grease ∈ [((⟨.from_u32 0x21⟩ : Frame), ([0x01, 0x00] : List UInt8))], grease.1.Grease := by
    intro grease hmem
    rw [List.mem_singleton] at hmem
    exact ⟨0, by rw [hmem]; rfl⟩
  have hother : ¬ HEADERS.Grease := by
    rw [← is_grease_iff]
    decide
  have hnone : ¬ HoldsFrame [] := by
    rintro ⟨skipped, greases, enc, frame, fdata, rest, hbytes, -, henc, -⟩
    have hpos := henc.length_pos
    have hlength := congrArg List.length hbytes
    simp only [List.length_append, List.length_nil] at hlength
    omega
  have hheaders := hcomplete [(⟨.from_u32 0x21⟩, [0x01, 0x00])] HEADERS [1, 2, 3] _ [7] 2 hgrease hother rfl
    (by decide)
  refine ⟨hheaders, ?_, ?_⟩
  · exact (hover (.inl (Option.some_ne_none _)) _ 2).1 HEADERS 3 [1, 2, 3] _ hheaders
  · exact (hover (.inl (Option.some_ne_none _)) [] 1).2 hnone (by decide)

end Frame

end wt_proto.h3
