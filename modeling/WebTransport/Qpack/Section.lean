import WebTransport.Qpack.Grammar

open rust rust.Outcome

namespace wt_proto.qpack

theorem FieldLine.ne_nil {bytes : List UInt8} {field : Field} (hline : FieldLine bytes field) :
    bytes ≠ [] := by
  obtain ⟨first, tail, rfl, -⟩ := Headers.decode_line_of_fieldLine hline []
  exact List.cons_ne_nil _ _

/-- There are no more lines than bytes. -/
theorem FieldLines.length_le {bytes : List UInt8} {fields : List Field}
    (hlines : FieldLines bytes fields) : fields.length ≤ bytes.length := by
  induction hlines with
  | nil => exact le_refl _
  | cons hline _ ih =>
    have hpos := List.length_pos_iff.mpr hline.ne_nil
    rw [List.length_cons, List.length_append]
    omega

/-- Lines in a row are followed by lines in a row. -/
theorem FieldLines.append {bytes bytes' : List UInt8} {list list' : List Field}
    (h : FieldLines bytes list) (h' : FieldLines bytes' list') :
    FieldLines (bytes ++ bytes') (list ++ list') := by
  induction h with
  | nil => exact h'
  | cons hline _ ih =>
    rw [List.append_assoc, List.cons_append]
    exact .cons hline ih

theorem FieldLine.single {bytes : List UInt8} {field : Field} (hline : FieldLine bytes field) :
    FieldLines bytes [field] := by
  simpa using FieldLines.cons hline .nil

/-- `prefix_bytes` is the section prefix: the Required Insert Count and the Delta Base, two
integers whose values are ignored. -/
def SectionPrefix (prefix_bytes : List UInt8) : Prop :=
  ∃ int int' flags flags' value value', prefix_bytes = int ++ int' ∧
    PrefixInt 8 int flags value ∧ PrefixInt 7 int' flags' value'

namespace Headers

/-- The loop inserts the fields of complete lines one by one. -/
theorem decode_lines_of_fieldLines {bytes : List UInt8} {list : List Field}
    (hlines : FieldLines bytes list) (fuel : Nat) (rest : List UInt8) (fields : HashMap Str Str) :
    decode_lines (fuel + list.length) (bytes ++ rest) fields =
      decode_lines fuel rest (fields.insert_all list) := by
  induction hlines generalizing fields with
  | nil => simp
  | @cons bytes bytes' field list hline _ ih =>
    obtain ⟨first, tail, rfl, hdecode⟩ := decode_line_of_fieldLine hline (bytes' ++ rest)
    have hrest : chain_into_last (tail ++ (bytes' ++ rest)) (bytes' ++ rest) = bytes' ++ rest :=
      chain_into_last_of_le (by simp)
    rw [List.length_cons, ← Nat.add_assoc, List.append_assoc, List.cons_append, decode_lines,
      List.singleton_append, hdecode, ok_bind, HashMap.insert_all_cons, ← ih]
    simp only [hrest]

/-- Every buffer is a sequence of field lines, up to its end or to a line that is not decoded. -/
theorem exists_fieldLines (buf : List UInt8) :
    ∃ bytes list rest, buf = bytes ++ rest ∧ FieldLines bytes list ∧
      (rest = [] ∨ ∃ peek tail, rest = peek :: tail ∧
        ∀ field chain, decode_line peek (peek :: tail) ≠ ok (field, chain)) := by
  induction hlen : buf.length using Nat.strong_induction_on generalizing buf with
  | _ n ih =>
    cases buf with
    | nil => exact ⟨[], [], [], rfl, .nil, .inl rfl⟩
    | cons peek tail =>
      by_cases hstop : ∀ field chain, decode_line peek (peek :: tail) ≠ ok (field, chain)
      · exact ⟨[], [], peek :: tail, rfl, .nil, .inr ⟨peek, tail, rfl, hstop⟩⟩
      · push Not at hstop
        obtain ⟨field, chain, hdecode⟩ := hstop
        obtain ⟨bytes, hbytes, hline⟩ := decode_line_split hdecode
        have hpos := List.length_pos_iff.mpr hline.ne_nil
        have hsplit := congrArg List.length hbytes
        rw [List.length_append] at hsplit
        obtain ⟨bytes', list, rest, rfl, hlines, hrest⟩ := ih chain.length (by omega) chain rfl
        exact ⟨bytes ++ bytes', field :: list, rest, by rw [hbytes, List.append_assoc],
          .cons hline hlines, hrest⟩

/-- A section whose prefix is accepted is decoded line by line. -/
theorem decode_of_prefix_bytes {prefix_bytes : List UInt8} (hstart : SectionPrefix prefix_bytes)
    (buf : List UInt8) :
    decode (prefix_bytes ++ buf) = (do
      let fields ← decode_lines (buf.length + 1) buf ∅
      ok { fields }) := by
  obtain ⟨int, int', flags, flags', value, value', rfl, hint, hint'⟩ := hstart
  rw [decode, List.append_assoc, hint.decode (by decide) (by decide), ok_bind]
  simp only [hint'.decode (by decide) (by decide), ok_bind]

/-- `decode` on field lines followed by the end of the buffer. -/
theorem decode_of_fieldLines {prefix_bytes bytes : List UInt8} {list : List Field}
    (hstart : SectionPrefix prefix_bytes) (hlines : FieldLines bytes list) :
    decode (prefix_bytes ++ bytes) = ok { fields := HashMap.insert_all ∅ list } := by
  have hle := hlines.length_le
  have hloop := decode_lines_of_fieldLines hlines (bytes.length - list.length + 1) [] ∅
  rw [List.append_nil, show bytes.length - list.length + 1 + list.length = bytes.length + 1 by omega]
    at hloop
  rw [decode_of_prefix_bytes hstart, hloop, decode_lines, ok_bind]

/-- `decode` on field lines followed by another line goes on with that line. -/
theorem decode_at_line {prefix_bytes bytes : List UInt8} {list : List Field}
    (hstart : SectionPrefix prefix_bytes) (hlines : FieldLines bytes list) (peek : UInt8)
    (tail : List UInt8) :
    ∃ fuel, decode (prefix_bytes ++ (bytes ++ peek :: tail)) = (do
      let ((name, value), chain) ← decode_line peek (peek :: tail)
      let fields ← decode_lines fuel (chain_into_last tail chain)
        ((HashMap.insert_all ∅ list).insert name value)
      ok { fields }) := by
  have hle := hlines.length_le
  have hfuel : (bytes ++ peek :: tail).length + 1 =
      bytes.length - list.length + tail.length + 1 + 1 + list.length := by
    rw [List.length_append, List.length_cons]
    omega
  refine ⟨bytes.length - list.length + tail.length + 1, ?_⟩
  rw [decode_of_prefix_bytes hstart, hfuel, decode_lines_of_fieldLines hlines, decode_lines,
    List.singleton_append, bind_assoc]

/-- An error of a line is the error of the section, whatever the lines before it. -/
theorem decode_of_err {prefix_bytes bytes : List UInt8} {list : List Field}
    (hstart : SectionPrefix prefix_bytes) (hlines : FieldLines bytes list) {peek : UInt8}
    {tail : List UInt8} {e : DecodeError} (h : decode_line peek (peek :: tail) = err e) :
    decode (prefix_bytes ++ (bytes ++ peek :: tail)) = err e := by
  obtain ⟨fuel, hdecode⟩ := decode_at_line hstart hlines peek tail
  rw [hdecode, h, err_bind]

/-- A panic of a line is a panic of the section. -/
theorem decode_of_panic {prefix_bytes bytes : List UInt8} {list : List Field}
    (hstart : SectionPrefix prefix_bytes) (hlines : FieldLines bytes list) {peek : UInt8}
    {tail : List UInt8} (h : decode_line peek (peek :: tail) = panic) :
    decode (prefix_bytes ++ (bytes ++ peek :: tail)) = panic := by
  obtain ⟨fuel, hdecode⟩ := decode_at_line hstart hlines peek tail
  rw [hdecode, h, panic_bind]

/-- A buffer either starts with an accepted section prefix, or fails in it. -/
theorem decode_prefix_cases (buf : List UInt8) :
    (∃ prefix_bytes rest, buf = prefix_bytes ++ rest ∧ SectionPrefix prefix_bytes) ∨
      (∃ e, decode buf = err e ∧ (e = .UnexpectedEnd ∨ e = .BoundsExceeded)) ∨
      decode buf = panic ∧ (PrefixOverflow 8 buf ∨
        ∃ int flags value rest, buf = int ++ rest ∧ PrefixInt 8 int flags value ∧
          PrefixOverflow 7 rest) := by
  rw [decode]
  cases hfirst : decode_prefix buf 8 with
  | diverge => exact absurd hfirst (decode_prefix_ne_diverge (by decide) (by decide) _)
  | panic =>
    exact .inr (.inr ⟨rfl, .inl ((decode_prefix_eq_panic_iff (by decide) (by decide) _).mp hfirst)⟩)
  | err e => exact .inr (.inl ⟨e, rfl, decode_prefix_err (by decide) (by decide) hfirst⟩)
  | ok out =>
    obtain ⟨⟨flags, value⟩, rest⟩ := out
    obtain ⟨int, rfl, hint⟩ := decode_prefix_split (by decide) (by decide) hfirst
    simp only [ok_bind]
    cases hsecond : decode_prefix rest 7 with
    | diverge => exact absurd hsecond (decode_prefix_ne_diverge (by decide) (by decide) _)
    | panic =>
      have hover := (decode_prefix_eq_panic_iff (by decide) (by decide) _).mp hsecond
      exact .inr (.inr ⟨rfl, .inr ⟨int, flags, value, rest, rfl, hint, hover⟩⟩)
    | err e => exact .inr (.inl ⟨e, rfl, decode_prefix_err (by decide) (by decide) hsecond⟩)
    | ok out =>
      obtain ⟨⟨flags', value'⟩, rest'⟩ := out
      obtain ⟨int', rfl, hint'⟩ := decode_prefix_split (by decide) (by decide) hsecond
      exact .inl ⟨int ++ int', rest', by rw [List.append_assoc], int, int', flags, flags', value,
        value', rfl, hint, hint'⟩

end Headers

end wt_proto.qpack
