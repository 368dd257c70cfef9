import WebTransport.Qpack.Section

open rust rust.Outcome wt_proto.huffman

namespace wt_proto.qpack

/-- The buffers on which a string literal panics: its length overflows, or its Huffman payload
does. -/
def StringOverflow (size : Nat) (buf : List UInt8) : Prop :=
  PrefixOverflow (size - 1) buf ∨ ∃ int flags payload rest, buf = int ++ payload ++ rest ∧
    PrefixInt (size - 1) int flags payload.length ∧ flags % 2 = 1 ∧ HuffmanOverflow payload

/-- `decode_string` panics on the string literals that overflow, in the length or in the Huffman code.
-/
theorem decode_string_eq_panic_iff {size : Nat} (hpos : 1 < size) (hsize : size ≤ 9)
    (buf : List UInt8) : decode_string buf size = panic ↔ StringOverflow size buf := by
  constructor
  · intro h
    rcases decode_string_cases hpos hsize buf with
      ⟨e, herr, -⟩ | ⟨-, hover⟩ | ⟨int, flags, payload, rest, rfl, hint⟩
    · rw [herr] at h
      cases h
    · exact .inl hover
    · rw [decode_string_payload hpos hsize hint] at h
      split at h
      · cases h
      · rename_i hflag
        simp only [bind_eq_panic_iff, mapErr_eq_panic_iff, reduceCtorEq, and_false, exists_false,
          or_false] at h
        exact .inr ⟨int, flags, payload, rest, rfl, hint, by omega,
          (hpack_decode_eq_panic_iff payload).mp h⟩
  · rintro (hover | ⟨int, flags, payload, rest, rfl, hint, hflag, hover⟩)
    · have hpanic := (decode_prefix_eq_panic_iff (by omega) (by omega) buf).mpr hover
      have hempty : buf.isEmpty = false := by
        obtain ⟨first, groups, tenth, rest, rfl, -⟩ := hover
        rfl
      rw [decode_string, hempty, hpanic]
      rfl
    · rw [decode_string_payload hpos hsize hint, if_neg (by omega),
        (hpack_decode_eq_panic_iff payload).mpr hover]
      rfl

/-- The field lines on which the decoder panics, by the part that overflows. -/
inductive LineOverflow : List UInt8 → Prop where
  /-- The index of an indexed line. -/
  | index {first : UInt8} {tail : List UInt8} (hfirst : 192 ≤ first.toNat)
      (hover : PrefixOverflow 6 (first :: tail)) : LineOverflow (first :: tail)
  /-- The index of a name. -/
  | name_index {first : UInt8} {tail : List UInt8}
      (hfirst : first.toNat / 16 = 0b0101 ∨ first.toNat / 16 = 0b0111)
      (hover : PrefixOverflow 4 (first :: tail)) : LineOverflow (first :: tail)
  /-- The value behind the index of a name. -/
  | name_ref {int rest : List UInt8} {flags index : Nat} (hint : PrefixInt 4 int flags index)
      (hflags : flags = 0b0101 ∨ flags = 0b0111) (hindex : index < 99)
      (hover : StringOverflow 8 rest) : LineOverflow (int ++ rest)
  /-- A literal name. -/
  | name {first : UInt8} {tail : List UInt8} (hfirst : first.toNat / 32 = 0b001)
      (hover : StringOverflow 4 (first :: tail)) : LineOverflow (first :: tail)
  /-- The value behind a literal name. -/
  | literal {bytes rest : List UInt8} {flags : Nat} {name : Str}
      (hname : StringLiteral 4 flags bytes name.as_bytes) (hflags : flags / 4 = 0b001)
      (hover : StringOverflow 8 rest) : LineOverflow (bytes ++ rest)

namespace Headers

variable {peek : UInt8} {tail : List UInt8}

private theorem from_utf8_decoded {size : Nat} (hpos : 1 < size) (hsize : size ≤ 9)
    {buf s rest : List UInt8} (h : decode_string buf size = ok (s, rest)) :
    (∃ str, from_utf8 s = ok str) ∨ from_utf8 s = err () :=
  (from_utf8_returns (length_of_decode_string hpos hsize h)).imp id fun ⟨_, herr⟩ => herr

/-- A field with the name from the table overflows in the index, or in the value behind it. -/
theorem decode_literal_value_eq_panic_iff (buf : List UInt8) :
    decode_literal_value buf = panic ↔ PrefixOverflow 4 buf ∨
      ∃ int rest flags index, buf = int ++ rest ∧ PrefixInt 4 int flags index ∧ index < 99 ∧
        StringOverflow 8 rest := by
  rw [decode_literal_value, bind_eq_panic_iff, decode_prefix_eq_panic_iff (by decide) (by decide)]
  refine or_congr_right ⟨?_, ?_⟩
  · rintro ⟨⟨⟨flags, index⟩, rest⟩, hstart, h⟩
    obtain ⟨int, rfl, hint⟩ := decode_prefix_split (by decide) (by decide) hstart
    rcases Nat.lt_or_ge index 99 with hindex | hindex
    · obtain ⟨header, hget⟩ := StaticTable.get_of_lt hindex
      simp only [hget, ok_bind, bind_eq_panic_iff] at h
      rcases h with h | ⟨⟨value, left⟩, hstring, h⟩
      · exact ⟨int, rest, flags, index, rfl, hint, hindex,
          (decode_string_eq_panic_iff (by decide) (by decide) rest).mp h⟩
      · rcases from_utf8_decoded (by decide) (by decide) hstring with ⟨str, hstr⟩ | hstr <;>
          simp [hstr] at h
    · simp [StaticTable.get_of_le hindex] at h
  · rintro ⟨int, rest, flags, index, rfl, hint, hindex, hover⟩
    obtain ⟨header, hget⟩ := StaticTable.get_of_lt hindex
    refine ⟨_, hint.decode (by decide) (by decide) rest, ?_⟩
    simp only [hget, ok_bind, (decode_string_eq_panic_iff (by decide) (by decide) rest).mpr hover,
      panic_bind]

/-- A field with a literal name overflows in the name, or in the value behind it. -/
theorem decode_literal_eq_panic_iff (buf : List UInt8) :
    decode_literal buf = panic ↔ StringOverflow 4 buf ∨
      ∃ bytes rest flags, ∃ name : Str, buf = bytes ++ rest ∧
        StringLiteral 4 flags bytes name.as_bytes ∧ StringOverflow 8 rest := by
  rw [decode_literal, bind_eq_panic_iff, decode_string_eq_panic_iff (by decide) (by decide)]
  refine or_congr_right ⟨?_, ?_⟩
  · rintro ⟨⟨name_bytes, rest⟩, hname, h⟩
    obtain ⟨flags, bytes, rfl, hlit⟩ := decode_string_split (by decide) (by decide) hname
    rcases from_utf8_decoded (by decide) (by decide) hname with ⟨name, hutf8⟩ | hutf8
    · obtain rfl := from_utf8_eq_ok_iff.mp hutf8
      simp only [hutf8, mapErr_ok, ok_bind, bind_eq_panic_iff] at h
      rcases h with h | ⟨⟨value, left⟩, hvalue, h⟩
      · exact ⟨bytes, rest, flags, name, rfl, hlit,
          (decode_string_eq_panic_iff (by decide) (by decide) rest).mp h⟩
      · rcases from_utf8_decoded (by decide) (by decide) hvalue with ⟨str, hstr⟩ | hstr <;>
          simp [hstr] at h
    · simp [hutf8] at h
  · rintro ⟨bytes, rest, flags, name, rfl, hlit, hover⟩
    refine ⟨_, hlit.decode (by decide) (by decide) rest, ?_⟩
    simp only [from_utf8_as_bytes, mapErr_ok, ok_bind,
      (decode_string_eq_panic_iff (by decide) (by decide) rest).mpr hover, panic_bind]

/-- A line panics exactly when one of its parts overflows. -/
theorem decode_line_eq_panic_iff :
    decode_line peek (peek :: tail) = panic ↔ LineOverflow (peek :: tail) := by
  have hlt := peek.toNat_lt
  constructor
  · intro h
    rw [decode_line_eq] at h
    split_ifs at h with hindex hvalue hliteral
    · rw [decode_index, bind_eq_panic_iff] at h
      rcases h with h | ⟨⟨⟨flags, index⟩, rest⟩, -, h⟩
      · exact .index hindex ((decode_prefix_eq_panic_iff (by decide) (by decide) _).mp h)
      · rcases Nat.lt_or_ge index 99 with hlow | hhigh
        · obtain ⟨header, hget⟩ := StaticTable.get_of_lt hlow
          simp [hget] at h
        · simp [StaticTable.get_of_le hhigh] at h
    · rcases (decode_literal_value_eq_panic_iff _).mp h with
        hover | ⟨int, rest, flags, index, hsplit, hint, hlow, hover⟩
      · exact .name_index hvalue hover
      · rw [hsplit]
        have hflags := hint.flags_of_append (by decide) (by decide) hsplit
        exact .name_ref hint (by omega) hlow hover
    · rcases (decode_literal_eq_panic_iff _).mp h with
        hover | ⟨bytes, rest, flags, name, hsplit, hlit, hover⟩
      · exact .name (by omega) hover
      · rw [hsplit]
        have hflags := hlit.flags_of_append (by decide) (by decide) hsplit
        exact .literal hlit (by omega) hover
  · generalize hline : peek :: tail = line
    intro hover
    cases hover with
    | @index first tail hfirst hover =>
      obtain ⟨rfl, rfl⟩ := List.cons.inj hline
      rw [decode_line_eq, if_pos hfirst, decode_index,
        (decode_prefix_eq_panic_iff (by decide) (by decide) _).mpr hover, panic_bind]
    | @name_index first tail hfirst hover =>
      obtain ⟨rfl, rfl⟩ := List.cons.inj hline
      rw [decode_line_eq, if_neg (by omega), if_pos hfirst,
        (decode_literal_value_eq_panic_iff _).mpr (.inl hover)]
    | @name_ref int rest flags index hint hflags hindex hover =>
      have hpanic := (decode_literal_value_eq_panic_iff _).mpr
        (.inr ⟨int, rest, flags, index, rfl, hint, hindex, hover⟩)
      have hfirst := hint.flags_of_append (by decide) (by decide) hline
      rw [decode_line_eq, if_neg (by omega), if_pos (by omega), hpanic]
    | @name first tail hfirst hover =>
      obtain ⟨rfl, rfl⟩ := List.cons.inj hline
      rw [decode_line_eq, if_neg (by omega), if_neg (by omega), if_pos (by omega),
        (decode_literal_eq_panic_iff _).mpr (.inl hover)]
    | @literal bytes rest flags name hname hflags hover =>
      have hpanic := (decode_literal_eq_panic_iff _).mpr
        (.inr ⟨bytes, rest, flags, name, rfl, hname, hover⟩)
      have hfirst := hname.flags_of_append (by decide) (by decide) hline
      rw [decode_line_eq, if_neg (by omega), if_neg (by omega), if_pos (by omega), hpanic]

private theorem from_utf8_ne_diverge {size : Nat} (hpos : 1 < size) (hsize : size ≤ 9)
    {buf s rest : List UInt8} (h : decode_string buf size = ok (s, rest)) : from_utf8 s ≠ diverge := by
  rcases from_utf8_decoded hpos hsize h with ⟨str, hstr⟩ | hstr <;> simp [hstr]

/-- There is no line on which `decode_line` runs out of fuel. -/
theorem decode_line_ne_diverge (chain : List UInt8) : decode_line peek chain ≠ diverge := by
  have hget : ∀ index, StaticTable.get index ≠ diverge := fun index => by
    rcases Nat.lt_or_ge index 99 with hlow | hhigh
    · obtain ⟨header, hget⟩ := StaticTable.get_of_lt hlow
      simp [hget]
    · simp [StaticTable.get_of_le hhigh]
  intro h
  rw [decode_line_eq] at h
  split_ifs at h
  · simp only [decode_index, bind_eq_diverge_iff] at h
    rcases h with h | ⟨_, -, h | ⟨_, -, h⟩⟩
    · exact decode_prefix_ne_diverge (by decide) (by decide) _ h
    · exact hget _ h
    · cases h
  · simp only [decode_literal_value, bind_eq_diverge_iff, mapErr_eq_diverge_iff] at h
    rcases h with h | ⟨_, -, h | ⟨_, -, h | ⟨_, hvalue, h | ⟨_, -, h⟩⟩⟩⟩
    · exact decode_prefix_ne_diverge (by decide) (by decide) _ h
    · exact hget _ h
    · exact decode_string_ne_diverge (by decide) (by decide) _ h
    · exact from_utf8_ne_diverge (by decide) (by decide) hvalue h
    · cases h
  · simp only [decode_literal, bind_eq_diverge_iff, mapErr_eq_diverge_iff] at h
    rcases h with h | ⟨_, hname, h | ⟨_, -, h | ⟨_, hvalue, h | ⟨_, -, h⟩⟩⟩⟩
    · exact decode_string_ne_diverge (by decide) (by decide) _ h
    · exact from_utf8_ne_diverge (by decide) (by decide) hname h
    · exact decode_string_ne_diverge (by decide) (by decide) _ h
    · exact from_utf8_ne_diverge (by decide) (by decide) hvalue h
    · cases h

/-- The line starts with a static index, of a field or of a name, that is past the table. -/
def UnknownIndex (line : List UInt8) : Prop :=
  ∃ int rest flags index, line = int ++ rest ∧ 99 ≤ index ∧
    (PrefixInt 6 int flags index ∧ flags = 0b11 ∨
      PrefixInt 4 int flags index ∧ (flags = 0b0101 ∨ flags = 0b0111))

private theorem decode_string_ne_unknown {size : Nat} (hpos : 1 < size) (hsize : size ≤ 9)
    (buf : List UInt8) : decode_string buf size ≠ err .UnknownEntry := by
  intro h
  rcases decode_string_err hpos hsize h with h | h | ⟨_, h⟩ <;> cases h

private theorem decode_prefix_ne_unknown {size : Nat} (hpos : 0 < size) (hsize : size ≤ 8)
    (buf : List UInt8) : decode_prefix buf size ≠ err .UnknownEntry := by
  intro h
  rcases decode_prefix_err hpos hsize h with h | h <;> cases h

/-- `UnknownEntry` means a static index past the table. -/
theorem decode_line_unknown_iff :
    decode_line peek (peek :: tail) = err .UnknownEntry ↔ UnknownIndex (peek :: tail) := by
  have hlt := peek.toNat_lt
  constructor
  · intro h
    rw [decode_line_eq] at h
    split_ifs at h with hindex hvalue hliteral
    · rw [decode_index, bind_eq_err_iff] at h
      rcases h with h | ⟨⟨⟨flags, index⟩, rest⟩, hstart, h⟩
      · exact absurd h (decode_prefix_ne_unknown (by decide) (by decide) _)
      · rcases Nat.lt_or_ge index 99 with hlow | hhigh
        · obtain ⟨header, hget⟩ := StaticTable.get_of_lt hlow
          simp [hget] at h
        · obtain ⟨int, hsplit, hint⟩ := decode_prefix_split (by decide) (by decide) hstart
          have hflags := hint.flags_of_append (by decide) (by decide) hsplit
          exact ⟨_, rest, flags, index, hsplit, hhigh, .inl ⟨hint, by omega⟩⟩
    · rw [decode_literal_value, bind_eq_err_iff] at h
      rcases h with h | ⟨⟨⟨flags, index⟩, rest⟩, hstart, h⟩
      · exact absurd h (decode_prefix_ne_unknown (by decide) (by decide) _)
      · rcases Nat.lt_or_ge index 99 with hlow | hhigh
        · obtain ⟨header, hget⟩ := StaticTable.get_of_lt hlow
          simp only [hget, ok_bind, bind_eq_err_iff, mapErr_eq_err_iff, reduceCtorEq, and_false,
            exists_false, or_false] at h
          exact absurd h (decode_string_ne_unknown (by decide) (by decide) _)
        · obtain ⟨int, hsplit, hint⟩ := decode_prefix_split (by decide) (by decide) hstart
          have hflags := hint.flags_of_append (by decide) (by decide) hsplit
          exact ⟨_, rest, flags, index, hsplit, hhigh, .inr ⟨hint, by omega⟩⟩
    · simp only [decode_literal, bind_eq_err_iff, mapErr_eq_err_iff, reduceCtorEq, and_false,
        exists_false, or_false, false_or] at h
      rcases h with h | ⟨_, -, _, -, h⟩
      · exact absurd h (decode_string_ne_unknown (by decide) (by decide) _)
      · exact absurd h (decode_string_ne_unknown (by decide) (by decide) _)
    · cases h
  · rintro ⟨int, rest, flags, index, hsplit, hindex, ⟨hint, hflags⟩ | ⟨hint, hflags⟩⟩
    · have hdecode := hint.decode (by decide) (by decide) rest
      have hfirst := hint.flags_of_append (by decide) (by decide) hsplit
      rw [hsplit, decode_line_eq, if_pos (by omega), decode_index, hdecode]
      simp only [ok_bind, StaticTable.get_of_le hindex, err_bind]
    · have hdecode := hint.decode (by decide) (by decide) rest
      have hfirst := hint.flags_of_append (by decide) (by decide) hsplit
      rw [hsplit, decode_line_eq, if_neg (by omega), if_pos (by omega), decode_literal_value, hdecode]
      simp only [ok_bind, StaticTable.get_of_le hindex, err_bind]

/-- A section that is not accepted fails in its prefix, or at the first line that is none of
the field lines, the way that line does. -/
theorem decode_cases (buf : List UInt8) :
    (∃ prefix_bytes bytes list, buf = prefix_bytes ++ bytes ∧ SectionPrefix prefix_bytes ∧
      FieldLines bytes list ∧ decode buf = ok { fields := HashMap.insert_all ∅ list }) ∨
    (∃ prefix_bytes bytes list peek tail, buf = prefix_bytes ++ (bytes ++ peek :: tail) ∧
      SectionPrefix prefix_bytes ∧ FieldLines bytes list ∧
      ((∃ e, decode_line peek (peek :: tail) = err e ∧ decode buf = err e) ∨
        decode_line peek (peek :: tail) = panic ∧ decode buf = panic)) ∨
    (∃ e, decode buf = err e ∧ (e = .UnexpectedEnd ∨ e = .BoundsExceeded)) ∨
    decode buf = panic ∧ (PrefixOverflow 8 buf ∨
      ∃ int flags value rest, buf = int ++ rest ∧ PrefixInt 8 int flags value ∧
        PrefixOverflow 7 rest) := by
  rcases decode_prefix_cases buf with ⟨prefix_bytes, rest, rfl, hstart⟩ | herr | hpanic
  · obtain ⟨bytes, list, rest, rfl, hlines, rfl | ⟨peek, tail, rfl, hstop⟩⟩ := exists_fieldLines rest
    · rw [List.append_nil]
      exact .inl ⟨prefix_bytes, bytes, list, rfl, hstart, hlines,
        decode_of_fieldLines hstart hlines⟩
    · refine .inr (.inl ⟨prefix_bytes, bytes, list, peek, tail, rfl, hstart, hlines, ?_⟩)
      cases hline : decode_line peek (peek :: tail) with
      | ok out => exact absurd hline (hstop out.1 out.2)
      | diverge => exact absurd hline (decode_line_ne_diverge _)
      | err e => exact .inl ⟨e, rfl, decode_of_err hstart hlines hline⟩
      | panic => exact .inr ⟨rfl, decode_of_panic hstart hlines hline⟩
  · exact .inr (.inr (.inl herr))
  · exact .inr (.inr (.inr hpanic))

end Headers

end wt_proto.qpack
