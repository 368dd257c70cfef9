import Mathlib.Algebra.Order.BigOperators.Group.List
import WebTransport.Qpack.PrefixExact
import WebTransport.Qpack.RoundTrip

open rust rust.Outcome

namespace wt_proto.qpack

/-- The number of bytes the encoder writes for an integer. -/
def prefix_len (size value : Nat) : Nat :=
  if value < 2 ^ size - 1 then 1 else 1 + (encode_prefix_loop (value - (2 ^ size - 1))).length

private theorem length_loop (remaining : Nat) :
    (encode_prefix_loop remaining).length =
      if remaining ≥ 128 then (encode_prefix_loop (remaining / 128)).length + 1 else 1 := by
  rw [encode_prefix_loop]
  split_ifs <;> simp

private theorem length_loop_le {groups : Nat} (remaining : Nat) (h : remaining < 2 ^ (7 * (groups + 1))) :
    (encode_prefix_loop remaining).length ≤ groups + 1 := by
  induction groups generalizing remaining with
  | zero => rw [length_loop, if_neg (by omega)]
  | succ groups ih =>
    rw [length_loop]
    split_ifs
    · rw [show 7 * (groups + 1 + 1) = 7 * (groups + 1) + 7 by omega, Nat.pow_add] at h
      have hrest := ih (remaining / 128) (by omega)
      omega
    · omega

private theorem length_loop_mono {remaining remaining' : Nat} (h : remaining ≤ remaining') :
    (encode_prefix_loop remaining).length ≤ (encode_prefix_loop remaining').length := by
  induction remaining using Nat.strong_induction_on generalizing remaining' with
  | _ remaining ih =>
    rw [length_loop remaining, length_loop remaining']
    split_ifs
    · have hrest := ih (remaining / 128) (by omega) (Nat.div_le_div_right h : _ ≤ remaining' / 128)
      omega
    · omega
    · omega
    · exact le_refl _

theorem prefix_len_pos (size value : Nat) : 0 < prefix_len size value := by
  unfold prefix_len
  split_ifs <;> omega

/-- A larger value does not have a shorter encoding. -/
theorem prefix_len_mono (size : Nat) {value value' : Nat} (h : value ≤ value') :
    prefix_len size value ≤ prefix_len size value' := by
  have hloop := length_loop_mono (Nat.sub_le_sub_right h (2 ^ size - 1))
  unfold prefix_len
  split_ifs <;> omega

/-- The indices of the static table take up two bytes at most. -/
theorem prefix_len_index (size : Nat) {index : Nat} (h : index < 99) : prefix_len size index ≤ 2 := by
  have hloop := @length_loop_le 0 (index - (2 ^ size - 1)) (by omega)
  unfold prefix_len
  split_ifs <;> omega

variable {size : Nat}

/-- The decoder takes no shorter integer for the value than the one that is written. -/
theorem PrefixInt.prefix_len_le (hpos : 0 < size) (hsize : size ≤ 8) {enc : List UInt8} {flags value : Nat}
    (hint : PrefixInt size enc flags value) : prefix_len size value ≤ enc.length := by
  obtain ⟨first, buf, rfl⟩ := List.exists_cons_of_ne_nil (hint.ne_nil hsize)
  rw [PrefixInt, decode_prefix_cons hpos hsize] at hint
  unfold prefix_len
  split at hint
  · rename_i hshort
    cases hint
    rw [if_pos hshort, List.length_singleton]
  · obtain ⟨⟨result, left⟩, hloop, h⟩ := bind_eq_ok_iff.mp hint
    cases h
    rcases exists_last_group 9 buf with ⟨hlen, hmore⟩ | ⟨groups, last, rest, rfl, hlen, hmore, hend⟩
    · rw [decode_prefix_loop_unfinished hsize hlen hmore] at hloop
      cases hloop
    · rw [decode_prefix_loop_last hsize last rest hlen hmore hend] at hloop
      simp only at hloop
      split_ifs at hloop
      cases hloop
      -- The last group counts with its weight at most, whether or not its high bits are lost.
      have hgroups := groups_value_lt groups
      have hlast : last.toNat % 128 * 2 ^ (7 * groups.length) ≤ 127 * 2 ^ (7 * groups.length) :=
        Nat.mul_le_mul_right _ (by omega)
      have hkept := Nat.mod_le (last.toNat % 128 * 2 ^ (7 * groups.length)) (2 ^ 64)
      have hsum : groups_value groups + last.toNat % 128 * 2 ^ (7 * groups.length) % 2 ^ 64 <
          2 ^ (7 * (groups.length + 1)) := by
        rw [Nat.mul_succ, Nat.pow_add]
        omega
      have hle := @length_loop_le groups.length _ hsum
      rw [Nat.add_assoc, Nat.add_sub_cancel_left, List.length_cons, List.length_append, List.length_singleton]
      split_ifs <;> omega

/-- An integer is encoded in as few bytes as its prefix allows. -/
theorem encode_prefix_shortest (hpos : 0 < size) (hsize : size ≤ 8) (buf : List UInt8)
    {flags value : Nat} (hflags : flags < 2 ^ (8 - size)) (hvalue : value < 2 ^ 64) :
    ∃ enc, encode_prefix buf size flags value = ok (buf ++ enc) ∧ PrefixInt size enc flags value ∧
      enc.length = prefix_len size value := by
  obtain ⟨enc, hencode, hint⟩ := encode_prefix_spec hpos hsize buf hflags hvalue
  obtain ⟨first, hshape⟩ := encode_prefix_shape hpos hsize buf flags value
  rw [hencode, ok.injEq, List.append_right_inj] at hshape
  refine ⟨enc, hencode, hint, ?_⟩
  rw [hshape, prefix_len, List.length_cons]
  split_ifs
  · rfl
  · exact Nat.add_comm _ _

private theorem find_complete :
    ∀ entry ∈ PREDEFINED_HEADERS.zipIdx, match_arms find_arms entry.1 = some entry.2 := by
  decide +kernel

private theorem find_name_least :
    ∀ entry ∈ PREDEFINED_HEADERS.zipIdx,
      (match_arms find_name_arms entry.1.1).any (fun index => index ≤ entry.2) = true := by
  decide +kernel

private theorem predefined_names_nonempty : ∀ header ∈ PREDEFINED_HEADERS, 0 < header.1.utf8ByteSize := by
  decide +kernel

namespace StaticTable

theorem find_of_entry {name value : Str} {index : Nat}
    (hentry : PREDEFINED_HEADERS[index]? = some (name.toString, value.toString)) :
    find name value = some index :=
  find_complete _ (List.mk_mem_zipIdx_iff_getElem?.mpr hentry)

/-- A name is found where it first stands in the table, which is no later than any other entry with it.
-/
theorem find_name_of_entry {name : Str} {value : String} {index : Nat}
    (hentry : PREDEFINED_HEADERS[index]? = some (name.toString, value)) :
    ∃ first, find_name name = some first ∧ first ≤ index := by
  have hleast := find_name_least _ (List.mk_mem_zipIdx_iff_getElem?.mpr hentry)
  obtain ⟨first, hfirst, hle⟩ := (Option.any_eq_true _ _).mp hleast
  exact ⟨first, hfirst, of_decide_eq_true hle⟩

end StaticTable

/-- The field lines without Huffman encoding. -/
inductive PlainLine : (bytes : List UInt8) → Field → Prop where
  | indexed {int : List UInt8} {index : Nat} {name value : Str} (hint : PrefixInt 6 int 0b11 index)
      (hentry : PREDEFINED_HEADERS[index]? = some (name.toString, value.toString)) :
      PlainLine int (name, value)
  | name_ref {int int' : List UInt8} {flags index h : Nat} {name value : Str} {entry_value : String}
      (hint : PrefixInt 4 int flags index) (hflags : flags = 0b0101 ∨ flags = 0b0111)
      (hentry : PREDEFINED_HEADERS[index]? = some (name.toString, entry_value))
      (hvalue : PrefixInt 7 int' h value.len) (hraw : h % 2 = 0) :
      PlainLine (int ++ (int' ++ value.as_bytes)) (name, value)
  | literal {int int' : List UInt8} {flags h : Nat} {name value : Str}
      (hname : PrefixInt 3 int flags name.len) (hflags : flags / 4 = 0b001) (hraw : flags % 2 = 0)
      (hvalue : PrefixInt 7 int' h value.len) (hraw' : h % 2 = 0) :
      PlainLine (int ++ name.as_bytes ++ (int' ++ value.as_bytes)) (name, value)

inductive PlainLines : (bytes : List UInt8) → List Field → Prop where
  | nil : PlainLines [] []
  | cons {bytes bytes' : List UInt8} {field : Field} {fields : List Field}
      (hline : PlainLine bytes field) (hlines : PlainLines bytes' fields) :
      PlainLines (bytes ++ bytes') (field :: fields)

/-- A line without Huffman code is a line. -/
theorem PlainLine.fieldLine {bytes : List UInt8} {field : Field} (hline : PlainLine bytes field) :
    FieldLine bytes field := by
  cases hline with
  | indexed hint hentry => exact .indexed hint hentry
  | name_ref hint hflags hentry hvalue hraw => exact .name_ref hint hflags hentry (.raw hvalue hraw)
  | literal hname hflags hraw hvalue hraw' => exact .literal (.raw hname hraw) hflags (.raw hvalue hraw')

/-- Lines without Huffman code are lines. -/
theorem PlainLines.fieldLines {bytes : List UInt8} {fields : List Field} (hlines : PlainLines bytes fields) :
    FieldLines bytes fields := by
  induction hlines with
  | nil => exact .nil
  | cons hline _ ih => exact .cons hline.fieldLine ih

namespace Headers

/-- The length of the line the encoder writes for a field. -/
def line_len : Field → Nat
  | (name, value) =>
    match StaticTable.find name value with
    | some index => prefix_len 6 index
    | none =>
      match StaticTable.find_name name with
      | some index => prefix_len 4 index + (prefix_len 7 value.len + value.len)
      | none => prefix_len 3 name.len + name.len + (prefix_len 7 value.len + value.len)

/-- A field is encoded without Huffman code, in the length of its shortest line. -/
theorem encode_line_plain (buf : List UInt8) (name value : Str) :
    ∃ bytes, encode_line buf name value = ok (buf ++ bytes) ∧ PlainLine bytes (name, value) ∧
      bytes.length = line_len (name, value) := by
  rw [encode_line, line_len]
  cases hfind : StaticTable.find name value with
  | some index =>
    have hget := StaticTable.get_of_find hfind
    have hlt := StaticTable.lt_of_get hget
    obtain ⟨int, hencode, hint, hlen⟩ := encode_prefix_shortest (by decide : 0 < 6) (by decide) buf
      (by decide : 0b11 < 2 ^ (8 - 6)) (by omega : index < 2 ^ 64)
    exact ⟨int, hencode, .indexed hint (StaticTable.get_eq_ok_iff.mp hget), hlen⟩
  | none =>
    cases hname : StaticTable.find_name name with
    | some index =>
      obtain ⟨entry_value, hget⟩ := StaticTable.get_of_find_name hname
      have hlt := StaticTable.lt_of_get hget
      obtain ⟨int, hencode, hint, hlen⟩ := encode_prefix_shortest (by decide : 0 < 4) (by decide) buf
        (by decide : 0b0101 < 2 ^ (8 - 4)) (by omega : index < 2 ^ 64)
      obtain ⟨int', hencode', hint', hlen'⟩ := encode_prefix_shortest (by decide : 0 < 7) (by decide)
        (buf ++ int) (by decide : 0 < 2 ^ (8 - 7)) value.len_lt
      refine ⟨int ++ (int' ++ value.as_bytes), ?_,
        .name_ref hint (.inl rfl) (StaticTable.get_eq_ok_iff.mp hget) hint' rfl, ?_⟩
      · simp only [encode_literal_value, hencode, ok_bind, Str.len, hencode', List.append_assoc]
      · simp only [List.length_append, hlen, hlen', Str.length_as_bytes, Str.len]
    | none =>
      obtain ⟨int, hencode, hint, hlen⟩ := encode_prefix_shortest (by decide : 0 < 3) (by decide) buf
        (by decide : 0b00100 < 2 ^ (8 - 3)) name.len_lt
      obtain ⟨int', hencode', hint', hlen'⟩ := encode_prefix_shortest (by decide : 0 < 7) (by decide)
        (buf ++ int ++ name.as_bytes) (by decide : 0 < 2 ^ (8 - 7)) value.len_lt
      refine ⟨int ++ name.as_bytes ++ (int' ++ value.as_bytes), ?_,
        .literal hint rfl rfl hint' rfl, ?_⟩
      · have hliteral : encode_literal buf name value =
            ok (buf ++ int ++ name.as_bytes ++ int' ++ value.as_bytes) := by
          simp only [encode_literal, Str.len, hencode, hencode', ok_bind]
        simp only [hliteral, List.append_assoc]
      · simp only [List.length_append, hlen, hlen', Str.length_as_bytes, Str.len]

/-- Every line for a field is at least as long. Only the static table has shorter ones than a
literal, and the encoder looks there first. -/
theorem line_len_le {bytes : List UInt8} {field : Field} (hline : PlainLine bytes field) :
    line_len field ≤ bytes.length := by
  cases hline with
  | @indexed int index name value hint hentry =>
    have hle := hint.prefix_len_le (by decide) (by decide)
    simpa only [line_len, StaticTable.find_of_entry hentry] using hle
  | @name_ref int int' flags index h name value entry_value hint hflags hentry hvalue hraw =>
    obtain ⟨first, hfirst, hindex⟩ := StaticTable.find_name_of_entry hentry
    have hname := hint.prefix_len_le (by decide) (by decide)
    have hmono := prefix_len_mono 4 hindex
    have hlen := hvalue.prefix_len_le (by decide) (by decide)
    have hpos := prefix_len_pos 4 index
    have hpos' := prefix_len_pos 7 value.len
    simp only [line_len, List.length_append, Str.length_as_bytes]
    cases hfind : StaticTable.find name value with
    | some index' =>
      have hshort := prefix_len_index 6 (StaticTable.lt_of_get (StaticTable.get_of_find hfind))
      simp only
      omega
    | none =>
      simp only [hfirst]
      omega
  | @literal int int' flags h name value hname hflags hraw hvalue hraw' =>
    have hlen := hname.prefix_len_le (by decide) (by decide)
    have hlen' := hvalue.prefix_len_le (by decide) (by decide)
    have hpos := prefix_len_pos 3 name.len
    have hpos' := prefix_len_pos 7 value.len
    simp only [line_len, List.length_append, Str.length_as_bytes]
    cases hfind : StaticTable.find name value with
    | some index =>
      have hshort := prefix_len_index 6 (StaticTable.lt_of_get (StaticTable.get_of_find hfind))
      simp only
      omega
    | none =>
      cases hfind_name : StaticTable.find_name name with
      | some index =>
        obtain ⟨entry_value, hget⟩ := StaticTable.get_of_find_name hfind_name
        have hshort := prefix_len_index 4 (StaticTable.lt_of_get hget)
        have hnonempty : 0 < name.len :=
          predefined_names_nonempty _ (List.mem_of_getElem? (StaticTable.get_eq_ok_iff.mp hget))
        simp only
        omega
      | none =>
        simp only
        omega

/-- Fields in a row are encoded without Huffman code, each in the length of its shortest line. -/
theorem encode_lines_plain (headers : List Field) (buf : List UInt8) :
    ∃ bytes, encode_lines headers buf = ok (buf ++ bytes) ∧ PlainLines bytes headers ∧
      bytes.length = (headers.map line_len).sum := by
  induction headers generalizing buf with
  | nil => exact ⟨[], by rw [encode_lines, List.append_nil], .nil, rfl⟩
  | cons header headers ih =>
    obtain ⟨name, value⟩ := header
    obtain ⟨line, hencode, hline, hlen⟩ := encode_line_plain buf name value
    obtain ⟨lines, hencode', hlines, hlen'⟩ := ih (buf ++ line)
    refine ⟨line ++ lines, ?_, .cons hline hlines, ?_⟩
    · rw [encode_lines, hencode, ok_bind, hencode', List.append_assoc]
    · rw [List.length_append, List.map_cons, List.sum_cons, hlen, hlen']

/-- No lines of these fields are shorter. -/
theorem sum_line_len_le {bytes : List UInt8} {fields : List Field} (hlines : PlainLines bytes fields) :
    (fields.map line_len).sum ≤ bytes.length := by
  induction hlines with
  | nil => exact le_refl _
  | cons hline _ ih =>
    have hfirst := line_len_le hline
    rw [List.map_cons, List.sum_cons, List.length_append]
    omega

/-- `bytes` is a header section without Huffman encoding. A field may have more lines than one. -/
def PlainSection (bytes : List UInt8) : Prop :=
  ∃ prefix_bytes lines list, bytes = prefix_bytes ++ lines ∧ SectionPrefix prefix_bytes ∧ PlainLines lines list

/-- The prefix of a section has two bytes or more. -/
theorem two_le_of_sectionPrefix {prefix_bytes : List UInt8} (hstart : SectionPrefix prefix_bytes) :
    2 ≤ prefix_bytes.length := by
  obtain ⟨int, int', flags, flags', value, value', rfl, hint, hint'⟩ := hstart
  have hpos := List.length_pos_iff.mpr (hint.ne_nil (by decide))
  have hpos' := List.length_pos_iff.mpr (hint'.ne_nil (by decide))
  rw [List.length_append]
  omega

/-- A map that results from some lines has all its entries among them. -/
theorem entries_subperm {iter : HashMap.Iter Str Str} {list : List Field}
    (h : iter.map = HashMap.insert_all ∅ list) : iter.entries.Subperm list := by
  apply iter.nodup.of_map.subperm
  intro field hmem
  have hlookup := (iter.lookup_map_iff field.1 field.2).mpr hmem
  rw [h, HashMap.lookup_insert_all_iff] at hlookup
  obtain ⟨before, after, rfl, -⟩ := hlookup
  exact List.mem_append_right _ List.mem_cons_self

/-- What `encode` appends is a section for these headers, and none without Huffman encoding is
shorter, whatever its lines, their order, their integers and the integers in front of them are. -/
theorem encode_shortest (self : Headers) (iter : HashMap.Iter Str Str) (hiter : iter.map = self.fields)
    (buf : List UInt8) :
    ∃ bytes, encode iter buf = ok (buf ++ bytes) ∧ PlainSection bytes ∧ decode bytes = ok self ∧
      ∀ bytes', PlainSection bytes' → decode bytes' = ok self → bytes.length ≤ bytes'.length := by
  obtain ⟨int, hencode, hint, hlen⟩ := encode_prefix_shortest (by decide : 0 < 8) (by decide) buf
    (by decide : 0 < 2 ^ (8 - 8)) (by decide : 0 < 2 ^ 64)
  obtain ⟨int', hencode', hint', hlen'⟩ := encode_prefix_shortest (by decide : 0 < 7) (by decide) (buf ++ int)
    (by decide : 0 < 2 ^ (8 - 7)) (by decide : 0 < 2 ^ 64)
  obtain ⟨lines, hlines, hplain, hsum⟩ := encode_lines_plain (sort_by_key iter.entries) (buf ++ int ++ int')
  have hperm := sort_by_key_perm iter.entries
  have hstart : SectionPrefix (int ++ int') := ⟨int, int', 0, 0, 0, 0, rfl, hint, hint'⟩
  refine ⟨int ++ int' ++ lines, ?_, ⟨_, lines, _, rfl, hstart, hplain⟩, ?_, ?_⟩
  · rw [encode, hencode, ok_bind, hencode', ok_bind, hlines]
    simp only [List.append_assoc]
  · rw [decode_of_fieldLines hstart hplain.fieldLines, iter.insert_all_perm hperm, hiter]
  · rintro _ ⟨prefix_bytes, lines', list, rfl, hstart', hplain'⟩ hdecode
    rw [decode_of_fieldLines hstart' hplain'.fieldLines] at hdecode
    cases hdecode
    have hstart_len := two_le_of_sectionPrefix hstart'
    have hlines_len := sum_line_len_le hplain'
    obtain ⟨entries, hentries, hsub⟩ := entries_subperm hiter
    have hle : (entries.map line_len).sum ≤ (list.map line_len).sum :=
      (hsub.map line_len).sum_le_sum fun _ _ => Nat.zero_le _
    rw [(hperm.map line_len).sum_eq, ← (hentries.map line_len).sum_eq] at hsum
    have hints : prefix_len 8 0 = 1 ∧ prefix_len 7 0 = 1 := ⟨rfl, rfl⟩
    simp only [List.length_append]
    omega

/-- The headers of a successful response. -/
theorem encode_shortest_response :
    let status : Field := (⟨":status", by decide⟩, ⟨"200", by decide⟩)
    let draft : Field := (⟨"sec-webtransport-http3-draft", by decide⟩, ⟨"draft02", by decide⟩)
    let self : Headers := { fields := HashMap.insert_all ∅ [draft, status] }
    ∃ bytes, encode ⟨[draft, status], by decide⟩ [] = ok ([] ++ bytes) ∧ PlainSection bytes ∧
      decode bytes = ok self ∧
      ∀ bytes', PlainSection bytes' → decode bytes' = ok self → bytes.length ≤ bytes'.length :=
  encode_shortest _ ⟨[_, _], by decide⟩ rfl []

end Headers

end wt_proto.qpack
