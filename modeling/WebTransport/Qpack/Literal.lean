import WebTransport.Huffman.Result
import WebTransport.Qpack.PrefixInt
import WebTransport.Rust.Str

open rust rust.Outcome wt_proto.huffman

namespace wt_proto.qpack

def decode_string (buf : List UInt8) (size : Nat) :
    Outcome DecodeError (List UInt8 × List UInt8) :=
  if buf.isEmpty then err .UnexpectedEnd
  else do
    let ((flags, len), buf) ← decode_prefix buf (size - 1)
    if buf.length < len then err .UnexpectedEnd
    else
      let (payload, buf) ← copy_to_bytes buf len
      if flags &&& 1 = 0 then ok (payload, buf)
      else
        let decoded ← (hpack_decode payload).mapErr .HuffmanError
        ok (decoded, buf)

/-- `bytes` is a string literal spelling `s`: its length with the `H` bit as the lowest of
`flags`, and the payload, raw or Huffman encoded as the bit says. -/
inductive StringLiteral (size flags : Nat) : (bytes s : List UInt8) → Prop where
  | raw {int payload : List UInt8} (hint : PrefixInt (size - 1) int flags payload.length)
      (hflag : flags % 2 = 0) : StringLiteral size flags (int ++ payload) payload
  | huffman {int payload s : List UInt8} (hint : PrefixInt (size - 1) int flags payload.length)
      (hflag : flags % 2 = 1) (hdecode : hpack_decode payload = ok s) :
      StringLiteral size flags (int ++ payload) s

/-- After the length has been read and found available, the payload is decoded as `H` says. -/
theorem decode_string_payload {size flags : Nat} (hpos : 1 < size) (hsize : size ≤ 9)
    {int payload : List UInt8} (hint : PrefixInt (size - 1) int flags payload.length)
    (rest : List UInt8) :
    decode_string (int ++ payload ++ rest) size =
      if flags % 2 = 0 then ok (payload, rest)
      else (do
        let decoded ← (hpack_decode payload).mapErr .HuffmanError
        ok (decoded, rest)) := by
  have hnil := hint.ne_nil (by omega)
  have hempty : (int ++ payload ++ rest).isEmpty = false := by simp [hnil]
  rw [decode_string, hempty, List.append_assoc, hint.decode (by omega) (by omega)]
  simp only [Bool.false_eq_true, if_false, ok_bind, List.length_append,
    if_neg (show ¬ payload.length + rest.length < payload.length by omega), copy_to_bytes_append,
    Nat.and_one_is_mod]

/-- A string literal is decoded, and what comes behind it is left. -/
theorem StringLiteral.decode {size flags : Nat} (hpos : 1 < size) (hsize : size ≤ 9)
    {bytes s : List UInt8} (hlit : StringLiteral size flags bytes s) (rest : List UInt8) :
    decode_string (bytes ++ rest) size = ok (s, rest) := by
  cases hlit with
  | raw hint hflag => rw [decode_string_payload hpos hsize hint, if_pos hflag]
  | huffman hint hflag hdecode =>
    rw [decode_string_payload hpos hsize hint, if_neg (by omega), hdecode, mapErr_ok, ok_bind]

/-- What `decode_string` does on any buffer: it fails to read the length or finds too few
bytes, or the buffer starts with a length and its payload. -/
theorem decode_string_cases {size : Nat} (hpos : 1 < size) (hsize : size ≤ 9) (buf : List UInt8) :
    (∃ e, decode_string buf size = err e ∧ (e = .UnexpectedEnd ∨ e = .BoundsExceeded)) ∨
      (decode_string buf size = panic ∧ PrefixOverflow (size - 1) buf) ∨
      ∃ int flags payload rest, buf = int ++ payload ++ rest ∧
        PrefixInt (size - 1) int flags payload.length := by
  by_cases hempty : buf.isEmpty = true
  · exact .inl ⟨_, by rw [decode_string, if_pos hempty], .inl rfl⟩
  · rw [decode_string, if_neg hempty]
    cases hstart : decode_prefix buf (size - 1) with
    | panic =>
      exact .inr (.inl ⟨panic_bind _,
        (decode_prefix_eq_panic_iff (by omega) (by omega) buf).mp hstart⟩)
    | diverge => exact absurd hstart (decode_prefix_ne_diverge (by omega) (by omega) buf)
    | err e =>
      refine .inl ⟨e, err_bind _ _, ?_⟩
      exact decode_prefix_err (by omega) (by omega) hstart
    | ok out =>
      obtain ⟨⟨flags, len⟩, left⟩ := out
      obtain ⟨int, rfl, hint⟩ := decode_prefix_split (by omega) (by omega) hstart
      by_cases hshort : left.length < len
      · exact .inl ⟨_, if_pos hshort, .inl rfl⟩
      · have htake : (left.take len).length = len := by
          rw [List.length_take]
          omega
        exact .inr (.inr ⟨int, flags, left.take len, left.drop len, by simp, by rwa [htake]⟩)

/-- What `decode_string` accepts is one string literal followed by the bytes it leaves. -/
theorem decode_string_split {size : Nat} (hpos : 1 < size) (hsize : size ≤ 9)
    {buf s rest : List UInt8} (h : decode_string buf size = ok (s, rest)) :
    ∃ flags bytes, buf = bytes ++ rest ∧ StringLiteral size flags bytes s := by
  rcases decode_string_cases hpos hsize buf with
    ⟨e, herr, -⟩ | ⟨hpanic, -⟩ | ⟨int, flags, payload, left, rfl, hint⟩
  · rw [herr] at h
    cases h
  · rw [hpanic] at h
    cases h
  · rw [decode_string_payload hpos hsize hint] at h
    split at h
    · rename_i hflag
      cases h
      exact ⟨flags, _, rfl, .raw hint hflag⟩
    · rename_i hflag
      rw [bind_eq_ok_iff] at h
      obtain ⟨decoded, hdecode, h⟩ := h
      cases h
      exact ⟨flags, _, rfl, .huffman hint (by omega) (mapErr_eq_ok_iff.mp hdecode)⟩

/-- Its first byte has the flags above the prefix. -/
theorem StringLiteral.exists_cons {size flags : Nat} (hpos : 1 < size) (hsize : size ≤ 9)
    {bytes s : List UInt8} (hlit : StringLiteral size flags bytes s) :
    ∃ first tail, bytes = first :: tail ∧ flags = first.toNat / 2 ^ (size - 1) := by
  obtain ⟨int, payload, len, rfl, hint⟩ :
      ∃ int payload len, bytes = int ++ payload ∧ PrefixInt (size - 1) int flags len := by
    cases hlit with
    | raw hint _ => exact ⟨_, _, _, rfl, hint⟩
    | huffman hint _ _ => exact ⟨_, _, _, rfl, hint⟩
  obtain ⟨first, tail, rfl⟩ := List.exists_cons_of_ne_nil (hint.ne_nil (by omega))
  exact ⟨first, tail ++ payload, rfl, hint.flags_eq (by omega) (by omega)⟩

/-- A buffer that starts with a string literal has its flags in the first byte. -/
theorem StringLiteral.flags_of_append {size flags : Nat} (hpos : 1 < size) (hsize : size ≤ 9) {first : UInt8}
    {tail bytes s rest : List UInt8} (hlit : StringLiteral size flags bytes s) (h : first :: tail = bytes ++ rest) :
    flags = first.toNat / 2 ^ (size - 1) := by
  obtain ⟨first', tail', rfl, hflags⟩ := hlit.exists_cons hpos hsize
  obtain rfl := (List.cons.inj h).1
  exact hflags

/-- The errors of a string literal are those of its length, its payload and the end of input. -/
theorem decode_string_err {size : Nat} (hpos : 1 < size) (hsize : size ≤ 9) {buf : List UInt8}
    {e : DecodeError} (h : decode_string buf size = err e) :
    e = .UnexpectedEnd ∨ e = .BoundsExceeded ∨ ∃ error, e = .HuffmanError error := by
  rcases decode_string_cases hpos hsize buf with
    ⟨e', herr, he⟩ | ⟨hpanic, -⟩ | ⟨int, flags, payload, left, rfl, hint⟩
  · rw [herr] at h
    cases h
    rcases he with rfl | rfl <;> simp
  · rw [hpanic] at h
    cases h
  · rw [decode_string_payload hpos hsize hint] at h
    split at h
    · cases h
    · rcases bind_eq_err_iff.mp h with h | ⟨decoded, -, h⟩
      · obtain ⟨error, -, rfl⟩ := mapErr_eq_err_iff.mp h
        exact .inr (.inr ⟨error, rfl⟩)
      · cases h

/-- There is no buffer on which `decode_string` runs out of fuel. -/
theorem decode_string_ne_diverge {size : Nat} (hpos : 1 < size) (hsize : size ≤ 9)
    (buf : List UInt8) : decode_string buf size ≠ diverge := by
  rcases decode_string_cases hpos hsize buf with
    ⟨e, herr, -⟩ | ⟨hpanic, -⟩ | ⟨int, flags, payload, left, rfl, hint⟩
  · simp [herr]
  · simp [hpanic]
  · rw [decode_string_payload hpos hsize hint]
    split
    · simp
    · simp [bind_eq_diverge_iff, hpack_decode_ne_diverge]

/-- Decoded strings are no longer than a `usize` tells. -/
theorem length_of_decode_string {size : Nat} (hpos : 1 < size) (hsize : size ≤ 9)
    {buf s rest : List UInt8} (h : decode_string buf size = ok (s, rest)) : s.length < 2 ^ 64 := by
  obtain ⟨flags, bytes, rfl, hlit⟩ := decode_string_split hpos hsize h
  cases hlit with
  | raw hint _ => exact hint.value_lt (by omega) (by omega)
  | huffman _ _ hdecode =>
    have hbound := length_of_hpack_decode hdecode
    omega

end wt_proto.qpack
