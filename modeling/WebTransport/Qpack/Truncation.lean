import WebTransport.Qpack.Reject
import WebTransport.Rust.Reader

open rust rust.Outcome wt_proto.huffman

namespace wt_proto.qpack

/-- An integer tells where it ends. -/
theorem selfDelimiting_int {size : Nat} (hpos : 0 < size) (hsize : size ≤ 8) :
    Reader.SelfDelimiting (fun buf => decode_prefix buf size) .UnexpectedEnd := by
  intro buf out rest h
  obtain ⟨bytes, rfl, hint⟩ := decode_prefix_split hpos hsize h
  exact ⟨bytes, rfl, hint.decode hpos hsize, fun n hn => hint.take hpos hsize hn⟩

/-- `decode_string` as a length, that many bytes, and a conversion. The check for an empty
buffer is one of `decode_prefix`, too. -/
theorem decode_string_eq {size : Nat} (hsize : size ≤ 9) (buf : List UInt8) :
    decode_string buf size = (do
      let ((flags, len), buf) ← decode_prefix buf (size - 1)
      let (payload, buf) ← Reader.take .UnexpectedEnd len buf
      if flags &&& 1 = 0 then ok (payload, buf)
      else
        let decoded ← (hpack_decode payload).mapErr .HuffmanError
        ok (decoded, buf)) := by
  rw [decode_string]
  split_ifs with hempty
  · rw [List.isEmpty_iff.mp hempty, decode_prefix_nil (by omega)]
    rfl
  · congr 1
    funext int
    obtain ⟨⟨flags, len⟩, left⟩ := int
    by_cases hshort : left.length < len
    · simp [Reader.take, hshort]
    · simp [Reader.take, hshort]

/-- A string literal tells where it ends. -/
theorem selfDelimiting_decode_string {size : Nat} (hpos : 1 < size) (hsize : size ≤ 9) :
    Reader.SelfDelimiting (fun buf => decode_string buf size) .UnexpectedEnd := by
  rw [funext (decode_string_eq hsize)]
  apply (selfDelimiting_int (by omega) (by omega)).bind
  intro (flags, len)
  apply (Reader.selfDelimiting_take _ len).bind
  intro payload
  by_cases hflag : flags &&& 1 = 0
  · simp only [if_pos hflag]
    exact Reader.selfDelimiting_pure payload _
  · simp only [if_neg hflag]
    apply Reader.SelfDelimiting.after
    intro decoded
    exact Reader.selfDelimiting_pure decoded _

namespace Headers

/-- An indexed field tells where it ends. -/
theorem selfDelimiting_decode_index : Reader.SelfDelimiting decode_index .UnexpectedEnd := by
  unfold decode_index
  apply (selfDelimiting_int (by decide) (by decide)).bind
  intro (_, index)
  apply Reader.SelfDelimiting.after
  intro entry
  exact Reader.selfDelimiting_pure entry _

/-- A field with the name from the table tells where it ends. -/
theorem selfDelimiting_decode_literal_value : Reader.SelfDelimiting decode_literal_value .UnexpectedEnd := by
  unfold decode_literal_value
  apply (selfDelimiting_int (by decide) (by decide)).bind
  intro (_, index)
  apply Reader.SelfDelimiting.after
  intro entry
  apply (selfDelimiting_decode_string (by decide) (by decide)).bind
  intro value
  apply Reader.SelfDelimiting.after
  intro value
  exact Reader.selfDelimiting_pure _ _

/-- A field with a literal name tells where it ends. -/
theorem selfDelimiting_decode_literal : Reader.SelfDelimiting decode_literal .UnexpectedEnd := by
  unfold decode_literal
  apply (selfDelimiting_decode_string (by decide) (by decide)).bind
  intro name
  apply Reader.SelfDelimiting.after
  intro name
  apply (selfDelimiting_decode_string (by decide) (by decide)).bind
  intro value
  apply Reader.SelfDelimiting.after
  intro value
  exact Reader.selfDelimiting_pure _ _

/-- A line of any form tells where it ends. -/
theorem selfDelimiting_decode_line (peek : UInt8) :
    Reader.SelfDelimiting (decode_line peek) .UnexpectedEnd := by
  rw [funext (decode_line_eq peek)]
  by_cases hindex : 192 ≤ peek.toNat
  · simp only [if_pos hindex]
    exact selfDelimiting_decode_index
  · by_cases hvalue : peek.toNat / 16 = 5 ∨ peek.toNat / 16 = 7
    · simp only [if_neg hindex, if_pos hvalue]
      exact selfDelimiting_decode_literal_value
    · by_cases hliteral : 32 ≤ peek.toNat ∧ peek.toNat < 64
      · simp only [if_neg hindex, if_neg hvalue, if_pos hliteral]
        exact selfDelimiting_decode_literal
      · simp only [if_neg hindex, if_neg hvalue, if_neg hliteral]
        exact Reader.selfDelimiting_err _

/-- One turn of the loop, as a parser. -/
def decode_first_line : Reader UInt8 DecodeError Field := Reader.peek .UnexpectedEnd decode_line

/-- The next line tells where it ends. -/
theorem selfDelimiting_decode_first_line : decode_first_line.SelfDelimiting .UnexpectedEnd := by
  apply Reader.selfDelimiting_peek selfDelimiting_decode_line
  intro peek out h
  rw [decode_line_eq] at h
  split_ifs at h
  · simp [decode_index] at h
  · simp [decode_literal_value] at h
  · simp [decode_literal, decode_string] at h

/-- The lines of the grammar are those the parser tells apart. -/
theorem delimits_iff {bytes : List UInt8} {field : Field} :
    decode_first_line.Delimits .UnexpectedEnd bytes field ↔ FieldLine bytes field := by
  constructor
  · intro hbytes
    have hwhole := hbytes.whole []
    rw [List.append_nil] at hwhole
    obtain ⟨first, tail, rfl⟩ := List.exists_cons_of_ne_nil (hbytes.ne_nil rfl)
    obtain ⟨bytes, hsplit, hline⟩ := decode_line_split hwhole
    rw [List.append_nil] at hsplit
    rwa [hsplit]
  · intro hline
    obtain ⟨first, tail, rfl, hdecode⟩ := decode_line_of_fieldLine hline []
    rw [List.append_nil] at hdecode
    obtain ⟨bytes, hsplit, hbytes⟩ := selfDelimiting_decode_first_line (first :: tail) field [] hdecode
    rwa [hsplit, List.append_nil]

/-- Lines read one after the other are the lines of the grammar. -/
theorem sequence_iff {bytes : List UInt8} {list : List Field} :
    decode_first_line.Sequence .UnexpectedEnd bytes list ↔ FieldLines bytes list := by
  constructor
  · intro hlines
    induction hlines with
    | nil => exact .nil
    | cons hfirst _ ih => exact .cons (delimits_iff.mp hfirst) ih
  · intro hlines
    induction hlines with
    | nil => exact .nil
    | cons hline _ ih => exact .cons (delimits_iff.mpr hline) ih

/-- The two integers in front of the lines, as a parser. -/
def decode_ints : Reader UInt8 DecodeError Unit := fun buf => do
  let (_, buf) ← decode_prefix buf 8
  let (_, buf) ← decode_prefix buf 7
  ok ((), buf)

/-- The prefix of a section tells where it ends. -/
theorem selfDelimiting_decode_ints : decode_ints.SelfDelimiting .UnexpectedEnd := by
  unfold decode_ints
  apply (selfDelimiting_int (by decide) (by decide)).bind
  intro _
  apply (selfDelimiting_int (by decide) (by decide)).bind
  intro _
  exact Reader.selfDelimiting_pure () _

/-- `decode` reads the prefix, and then lines. -/
theorem decode_eq (buf : List UInt8) :
    decode buf = (do
      let ((), buf) ← decode_ints buf
      let fields ← decode_lines (buf.length + 1) buf ∅
      ok { fields }) := by
  simp only [decode, decode_ints, bind_assoc, ok_bind]

/-- The prefix is read from the front of the section. -/
theorem decode_ints_of {prefix_bytes : List UInt8} (hstart : SectionPrefix prefix_bytes) :
    decode_ints.Delimits .UnexpectedEnd prefix_bytes () := by
  obtain ⟨int, int', flags, flags', value, value', rfl, hint, hint'⟩ := hstart
  have hread : decode_ints (int ++ int') = ok ((), []) := by
    have hsecond := hint'.decode (by decide) (by decide) []
    rw [List.append_nil] at hsecond
    simp only [decode_ints, hint.decode (by decide) (by decide), hsecond, ok_bind]
  obtain ⟨bytes, hsplit, hbytes⟩ := selfDelimiting_decode_ints _ _ _ hread
  rwa [hsplit, List.append_nil]

/-- A section that has been accepted. -/
theorem exists_of_decode {buf : List UInt8} {self : Headers} (h : decode buf = ok self) :
    ∃ prefix_bytes bytes list, buf = prefix_bytes ++ bytes ∧ SectionPrefix prefix_bytes ∧
      FieldLines bytes list ∧ self.fields = HashMap.insert_all ∅ list := by
  rcases decode_cases buf with
    ⟨_, _, _, hbuf, hstart, hlines, hok⟩ | ⟨_, _, _, _, _, -, -, -, ⟨e, -, herr⟩ | ⟨-, hpanic⟩⟩ |
    ⟨e, herr, -⟩ | ⟨hpanic, -⟩
  · rw [hok] at h
    cases h
    exact ⟨_, _, _, hbuf, hstart, hlines, rfl⟩
  · rw [herr] at h
    cases h
  · rw [hpanic] at h
    cases h
  · rw [herr] at h
    cases h
  · rw [hpanic] at h
    cases h

/-- What the loop makes of the bytes behind some lines depends on these bytes alone: it ends with
the buffer, or with the outcome of a line that is not decoded. -/
theorem decode_rest (more : List UInt8) :
    (∃ list, FieldLines more list) ∨ ∃ last : Outcome DecodeError Headers, (∀ self, last ≠ ok self) ∧
      ∀ prefix_bytes bytes list, SectionPrefix prefix_bytes → FieldLines bytes list →
        decode (prefix_bytes ++ (bytes ++ more)) = last := by
  obtain ⟨middle, list', rest, rfl, hmiddle, rfl | ⟨peek, tail, rfl, hstop⟩⟩ := exists_fieldLines more
  · exact .inl ⟨list', by rwa [List.append_nil]⟩
  · have hsplit : ∀ bytes : List UInt8, bytes ++ (middle ++ peek :: tail) = bytes ++ middle ++ peek :: tail :=
      fun bytes => (List.append_assoc _ _ _).symm
    cases hline : decode_line peek (peek :: tail) with
    | ok out => exact absurd hline (hstop out.1 out.2)
    | diverge => exact absurd hline (decode_line_ne_diverge _)
    | err e =>
      refine .inr ⟨err e, fun _ => by simp, fun _ bytes list hstart hlines => ?_⟩
      rw [hsplit]
      exact decode_of_err hstart (hlines.append hmiddle) hline
    | panic =>
      refine .inr ⟨panic, fun _ => by simp, fun _ bytes list hstart hlines => ?_⟩
      rw [hsplit]
      exact decode_of_panic hstart (hlines.append hmiddle) hline

/-- Bytes behind an accepted section are decoded as they would be in a section of their own: if
they are lines, these are inserted into the map that is there; if not, the outcome is the same. -/
theorem decode_append {buf : List UInt8} {self : Headers} (h : decode buf = ok self) (more : List UInt8) :
    (∃ list, FieldLines more list ∧
      decode ([0x00, 0x00] ++ more) = ok { fields := HashMap.insert_all ∅ list } ∧
      decode (buf ++ more) = ok { fields := self.fields.insert_all list }) ∨
    (¬ ∃ list, FieldLines more list) ∧ (∀ self', decode ([0x00, 0x00] ++ more) ≠ ok self') ∧
      decode (buf ++ more) = decode ([0x00, 0x00] ++ more) := by
  obtain ⟨prefix_bytes, bytes, list, rfl, hstart, hlines, hfields⟩ := exists_of_decode h
  have hzero : SectionPrefix [0x00, 0x00] := ⟨[0x00], [0x00], 0, 0, 0, 0, rfl, rfl, rfl⟩
  rw [List.append_assoc, hfields]
  obtain ⟨list', hmore⟩ | ⟨last, hlast, hdecode⟩ := decode_rest more
  · refine .inl ⟨list', hmore, decode_of_fieldLines hzero hmore, ?_⟩
    rw [decode_of_fieldLines hstart (hlines.append hmore), HashMap.insert_all_append]
  · have hown := hdecode [0x00, 0x00] [] [] hzero .nil
    rw [List.nil_append] at hown
    rw [hdecode _ _ _ hstart hlines, hown]
    refine .inr ⟨?_, hlast, rfl⟩
    rintro ⟨list', hmore⟩
    rw [decode_of_fieldLines hzero hmore] at hown
    exact hlast _ hown.symm

/-- `:method: GET` and behind it `:scheme: https`. -/
theorem decode_append_scheme :
    (∃ list, FieldLines [0xD7] list ∧
      decode ([0x00, 0x00] ++ [0xD7]) = ok { fields := HashMap.insert_all ∅ list } ∧
      decode ([0x00, 0x00, 0xD1] ++ [0xD7]) =
        ok { fields :=
          (HashMap.insert_all ∅ [(⟨":method", by decide⟩, ⟨"GET", by decide⟩)]).insert_all list }) ∨
    (¬ ∃ list, FieldLines [0xD7] list) ∧ (∀ self', decode ([0x00, 0x00] ++ [0xD7]) ≠ ok self') ∧
      decode ([0x00, 0x00, 0xD1] ++ [0xD7]) = decode ([0x00, 0x00] ++ [0xD7]) :=
  @decode_append [0x00, 0x00, 0xD1]
    { fields := HashMap.insert_all ∅ [(⟨":method", by decide⟩, ⟨"GET", by decide⟩)] }
    (by decide +kernel) [0xD7]

/-- A section that is cut off anywhere is an unexpected end, except between two lines: there it is
accepted with the fields before the cut, those behind it missing. -/
theorem decode_take {buf : List UInt8} {self : Headers} (h : decode buf = ok self) (n : Nat) :
    decode (buf.take n) = err .UnexpectedEnd ∨ ∃ front list, decode (buf.take n) = ok front ∧
      FieldLines (buf.drop n) list ∧ self.fields = front.fields.insert_all list := by
  obtain ⟨prefix_bytes, bytes, list, rfl, hstart, hlines, hfields⟩ := exists_of_decode h
  by_cases hn : n < prefix_bytes.length
  · left
    rw [List.take_append_of_le_length (Nat.le_of_lt hn), decode_eq,
      (decode_ints_of hstart).cut n hn, err_bind]
  · obtain ⟨front, list', back, rest, htake, rfl, hfront, hrest⟩ :=
      (sequence_iff.mpr hlines).take (n - prefix_bytes.length)
    rw [List.take_append, List.take_of_length_le (Nat.not_lt.mp hn), htake]
    obtain rfl | ⟨hne, hcut⟩ := hrest
    · right
      have hdrop : bytes = front ++ bytes.drop (n - prefix_bytes.length) := by
        rw [← List.append_nil front, ← htake, List.take_append_drop]
      rw [hdrop] at hlines
      obtain ⟨more, hmore, hlist⟩ := hfront.split rfl (sequence_iff.mpr hlines)
      obtain rfl := List.append_cancel_left hlist
      refine ⟨{ fields := HashMap.insert_all ∅ list' }, back, ?_, ?_, ?_⟩
      · rw [List.append_nil]
        exact decode_of_fieldLines hstart (sequence_iff.mp hfront)
      · rw [List.drop_append, List.drop_of_length_le (Nat.not_lt.mp hn), List.nil_append]
        exact sequence_iff.mp hmore
      · rw [hfields, HashMap.insert_all_append]
    · left
      obtain ⟨peek, tail, rfl⟩ := List.exists_cons_of_ne_nil hne
      exact decode_of_err hstart (sequence_iff.mp hfront) hcut

/-- `:method: GET` without the `:scheme: https` behind it. -/
theorem decode_take_method :
    decode ([0x00, 0x00, 0xD1, 0xD7].take 3) = err .UnexpectedEnd ∨
      ∃ front list, decode ([0x00, 0x00, 0xD1, 0xD7].take 3) = ok front ∧
        FieldLines ([0x00, 0x00, 0xD1, 0xD7].drop 3) list ∧
        HashMap.insert_all ∅ [(⟨":method", by decide⟩, ⟨"GET", by decide⟩),
          (⟨":scheme", by decide⟩, ⟨"https", by decide⟩)] = front.fields.insert_all list :=
  @decode_take [0x00, 0x00, 0xD1, 0xD7] { fields := HashMap.insert_all ∅ [_, _] } (by decide +kernel) 3

end Headers

end wt_proto.qpack
