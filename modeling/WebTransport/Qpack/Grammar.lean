import WebTransport.Huffman.Result
import WebTransport.Qpack.Headers

open rust rust.Outcome wt_proto.huffman

namespace wt_proto.qpack

/-- The field line representations that refer to the static table only, with the field each
one stands for. -/
inductive FieldLine : (bytes : List UInt8) → Field → Prop where
  /-- `11` and the index. -/
  | indexed {int : List UInt8} {index : Nat} {name value : Str} (hint : PrefixInt 6 int 0b11 index)
      (hentry : PREDEFINED_HEADERS[index]? = some (name.toString, value.toString)) :
      FieldLine int (name, value)
  /-- `01N1` and the index of the name, then the value. -/
  | name_ref {int bytes : List UInt8} {flags index h : Nat} {name value : Str} {entry_value : String}
      (hint : PrefixInt 4 int flags index) (hflags : flags = 0b0101 ∨ flags = 0b0111)
      (hentry : PREDEFINED_HEADERS[index]? = some (name.toString, entry_value))
      (hvalue : StringLiteral 8 h bytes value.as_bytes) : FieldLine (int ++ bytes) (name, value)
  /-- `001N` and the name, then the value. -/
  | literal {bytes bytes' : List UInt8} {flags h : Nat} {name value : Str}
      (hname : StringLiteral 4 flags bytes name.as_bytes) (hflags : flags / 4 = 0b001)
      (hvalue : StringLiteral 8 h bytes' value.as_bytes) : FieldLine (bytes ++ bytes') (name, value)

/-- A sequence of field lines without anything between or after them. -/
inductive FieldLines : (bytes : List UInt8) → List Field → Prop where
  | nil : FieldLines [] []
  | cons {bytes bytes' : List UInt8} {field : Field} {fields : List Field}
      (hline : FieldLine bytes field) (hlines : FieldLines bytes' fields) :
      FieldLines (bytes ++ bytes') (field :: fields)

/-- The first bytes of the representations that refer to the dynamic table: `10`, `01N0`,
`0001` and `0000`. -/
def DynamicForm (first : UInt8) : Prop :=
  first.toNat / 2 ^ 6 = 0b10 ∨ first.toNat / 2 ^ 4 = 0b0100 ∨ first.toNat / 2 ^ 4 = 0b0110 ∨
    first.toNat / 2 ^ 4 = 0b0001 ∨ first.toNat / 2 ^ 4 = 0b0000

private theorem forall_byte {p : UInt8 → Bool} (h : ∀ n < 256, p (UInt8.ofNat n) = true) (b : UInt8) :
    p b = true := by
  have hb := h b.toNat b.toNat_lt
  rwa [UInt8.ofNat_toNat] at hb

private def masks_agree (b : UInt8) : Bool :=
  decide ((b &&& 0b1100_0000 = 0b1100_0000 ↔ 192 ≤ b.toNat) ∧
    (b &&& 0b1100_0000 = 0b1000_0000 ↔ 128 ≤ b.toNat ∧ b.toNat < 192) ∧
    (b &&& 0b1101_0000 = 0b0101_0000 ↔ b.toNat / 16 = 5 ∨ b.toNat / 16 = 7) ∧
    (b &&& 0b1101_0000 = 0b0100_0000 ↔ b.toNat / 16 = 4 ∨ b.toNat / 16 = 6) ∧
    (b &&& 0b1110_0000 = 0b0010_0000 ↔ 32 ≤ b.toNat ∧ b.toNat < 64) ∧
    (b &&& 0b1111_0000 = 0b0001_0000 ↔ b.toNat / 16 = 1) ∧
    (b &&& 0b1111_0000 = 0b0000_0000 ↔ b.toNat / 16 = 0))

private theorem all_masks_agree (b : UInt8) : masks_agree b = true :=
  forall_byte (by decide +kernel) b

namespace Headers

/-- The dispatch, by the range the first byte lies in. Its last arm is never reached. -/
theorem decode_line_eq (peek : UInt8) (chain : List UInt8) :
    decode_line peek chain =
      if 192 ≤ peek.toNat then decode_index chain
      else if peek.toNat / 16 = 5 ∨ peek.toNat / 16 = 7 then decode_literal_value chain
      else if 32 ≤ peek.toNat ∧ peek.toNat < 64 then decode_literal chain
      else err .DynamicEntry := by
  obtain ⟨h1, h2, h3, h4, h5, h6, h7⟩ := of_decide_eq_true (all_masks_agree peek)
  have hlt := peek.toNat_lt
  simp only [decode_line, h1, h2, h3, h4, h5, h6, h7]
  split_ifs <;> first | rfl | omega

theorem decode_line_of_dynamic {peek : UInt8} (h : DynamicForm peek) (chain : List UInt8) :
    decode_line peek chain = err .DynamicEntry := by
  unfold DynamicForm at h
  rw [decode_line_eq, if_neg (by omega), if_neg (by omega), if_neg (by omega)]

/-- A field line of the grammar is decoded to its field, and nothing after it is touched. -/
theorem decode_line_of_fieldLine {bytes : List UInt8} {field : Field} (hline : FieldLine bytes field)
    (rest : List UInt8) :
    ∃ first tail, bytes = first :: tail ∧
      decode_line first (first :: (tail ++ rest)) = ok (field, rest) := by
  cases hline with
  | @indexed _ index name value hint hentry =>
    obtain ⟨first, tail, rfl⟩ := List.exists_cons_of_ne_nil (hint.ne_nil (by decide))
    have hflags := hint.flags_eq (by decide) (by decide)
    have hdecode := hint.decode (by decide) (by decide) rest
    have hget : StaticTable.get index = ok (name, value) := StaticTable.get_eq_ok_iff.mpr hentry
    refine ⟨first, tail, rfl, ?_⟩
    rw [List.cons_append] at hdecode
    rw [decode_line_eq, if_pos (by omega), decode_index, hdecode]
    simp only [ok_bind, hget]
  | @name_ref int bytes flags index h name value entry_value hint hflags hentry hvalue =>
    obtain ⟨first, tail, rfl⟩ := List.exists_cons_of_ne_nil (hint.ne_nil (by decide))
    have hfirst := hint.flags_eq (by decide) (by decide)
    have hdecode := hint.decode (by decide) (by decide) (bytes ++ rest)
    have hstring := hvalue.decode (by decide) (by decide) rest
    have hindex : index < 99 := (List.getElem?_eq_some_iff.mp hentry).1
    obtain ⟨header, hget⟩ := StaticTable.get_of_lt hindex
    have hname : header.1 = name := by
      have hsome := (StaticTable.get_eq_ok_iff.mp hget).symm.trans hentry
      exact Str.ext (congrArg Prod.fst (Option.some.inj hsome))
    refine ⟨first, tail ++ bytes, rfl, ?_⟩
    rw [List.cons_append] at hdecode
    rw [decode_line_eq, if_neg (by omega), if_pos (by omega), decode_literal_value, List.append_assoc,
      hdecode]
    simp only [ok_bind, hget, hstring, from_utf8_as_bytes, mapErr_ok, hname]
  | @literal bytes bytes' flags h name value hname hflags hvalue =>
    obtain ⟨first, tail, rfl, hfirst⟩ := hname.exists_cons (by decide) (by decide)
    have hdecode := hname.decode (by decide) (by decide) (bytes' ++ rest)
    have hstring := hvalue.decode (by decide) (by decide) rest
    refine ⟨first, tail ++ bytes', rfl, ?_⟩
    rw [List.cons_append] at hdecode
    rw [decode_line_eq, if_neg (by omega), if_neg (by omega), if_pos (by omega), decode_literal,
      List.append_assoc, hdecode]
    simp only [ok_bind, hstring, from_utf8_as_bytes, mapErr_ok]

/-- A line that is decoded to a field is a field line of the grammar. -/
theorem decode_line_split {peek : UInt8} {buf chain : List UInt8} {field : Field}
    (h : decode_line peek (peek :: buf) = ok (field, chain)) :
    ∃ bytes, peek :: buf = bytes ++ chain ∧ FieldLine bytes field := by
  have hlt := peek.toNat_lt
  rw [decode_line_eq] at h
  split_ifs at h with hindex hvalue hliteral
  · rw [decode_index, bind_eq_ok_iff] at h
    obtain ⟨⟨⟨flags, index⟩, rest⟩, hstart, h⟩ := h
    simp only [bind_eq_ok_iff] at h
    obtain ⟨⟨name, value⟩, hget, h⟩ := h
    cases h
    obtain ⟨int, hbuf, hint⟩ := decode_prefix_split (by decide) (by decide) hstart
    have hflags := hint.flags_of_append (by decide) (by decide) hbuf
    obtain rfl : flags = 0b11 := by omega
    exact ⟨_, hbuf, .indexed hint (StaticTable.get_eq_ok_iff.mp hget)⟩
  · rw [decode_literal_value, bind_eq_ok_iff] at h
    obtain ⟨⟨⟨flags, index⟩, left⟩, hstart, h⟩ := h
    simp only [bind_eq_ok_iff] at h
    obtain ⟨⟨name, entry_value⟩, hget, ⟨bytes, rest⟩, hstring, value, hutf8, h⟩ := h
    cases h
    obtain ⟨int, hbuf, hint⟩ := decode_prefix_split (by decide) (by decide) hstart
    have hflags := hint.flags_of_append (by decide) (by decide) hbuf
    obtain ⟨flags', lit, rfl, hlit⟩ := decode_string_split (by decide) (by decide) hstring
    obtain rfl := from_utf8_eq_ok_iff.mp (mapErr_eq_ok_iff.mp hutf8)
    exact ⟨_, by rw [hbuf, List.append_assoc],
      .name_ref hint (by omega) (StaticTable.get_eq_ok_iff.mp hget) hlit⟩
  · rw [decode_literal, bind_eq_ok_iff] at h
    obtain ⟨⟨name_bytes, left⟩, hname, h⟩ := h
    simp only [bind_eq_ok_iff] at h
    obtain ⟨name, hname8, ⟨value_bytes, rest⟩, hvalue, value, hvalue8, h⟩ := h
    cases h
    obtain ⟨flags, lit, hbuf, hlit⟩ := decode_string_split (by decide) (by decide) hname
    have hflags := hlit.flags_of_append (by decide) (by decide) hbuf
    obtain ⟨flags', lit', rfl, hlit'⟩ := decode_string_split (by decide) (by decide) hvalue
    obtain rfl := from_utf8_eq_ok_iff.mp (mapErr_eq_ok_iff.mp hname8)
    obtain rfl := from_utf8_eq_ok_iff.mp (mapErr_eq_ok_iff.mp hvalue8)
    exact ⟨_, by rw [hbuf, List.append_assoc], .literal hlit (by omega) hlit'⟩

end Headers

end wt_proto.qpack
