import WebTransport.Qpack.Section

open rust rust.Outcome

namespace wt_proto.qpack

namespace Headers

/-- Whichever of the three formats is picked, the encoder writes one field line for the entry. -/
theorem encode_line_spec (buf : List UInt8) (name value : Str) :
    ∃ bytes, encode_line buf name value = ok (buf ++ bytes) ∧ FieldLine bytes (name, value) := by
  rw [encode_line]
  cases hfind : StaticTable.find name value with
  | some index =>
    have hget := StaticTable.get_of_find hfind
    have hlt := StaticTable.lt_of_get hget
    obtain ⟨int, hint, hstart⟩ := encode_prefix_spec (by decide : 0 < 6) (by decide) buf
      (by decide : 0b11 < 2 ^ (8 - 6)) (by omega : index < 2 ^ 64)
    exact ⟨int, hint, .indexed hstart (StaticTable.get_eq_ok_iff.mp hget)⟩
  | none =>
    cases hname : StaticTable.find_name name with
    | some index =>
      obtain ⟨entry_value, hget⟩ := StaticTable.get_of_find_name hname
      have hlt := StaticTable.lt_of_get hget
      obtain ⟨int, hint, hstart⟩ := encode_prefix_spec (by decide : 0 < 4) (by decide) buf
        (by decide : 0b0101 < 2 ^ (8 - 4)) (by omega : index < 2 ^ 64)
      obtain ⟨int', hint', hstart'⟩ := encode_prefix_spec (by decide : 0 < 7) (by decide)
        (buf ++ int) (by decide : 0 < 2 ^ (8 - 7)) value.len_lt
      refine ⟨int ++ (int' ++ value.as_bytes), ?_, .name_ref hstart (.inl rfl)
        (StaticTable.get_eq_ok_iff.mp hget) (.raw hstart' rfl)⟩
      simp only [encode_literal_value, hint, ok_bind, Str.len, hint', List.append_assoc]
    | none =>
      obtain ⟨int, hint, hstart⟩ := encode_prefix_spec (by decide : 0 < 3) (by decide) buf
        (by decide : 0b00100 < 2 ^ (8 - 3)) name.len_lt
      obtain ⟨int', hint', hstart'⟩ := encode_prefix_spec (by decide : 0 < 7) (by decide)
        (buf ++ int ++ name.as_bytes) (by decide : 0 < 2 ^ (8 - 7)) value.len_lt
      refine ⟨int ++ name.as_bytes ++ (int' ++ value.as_bytes), ?_,
        .literal (.raw hstart rfl) rfl (.raw hstart' rfl)⟩
      have hname_line : encode_literal buf name value
          = ok (buf ++ int ++ name.as_bytes ++ int' ++ value.as_bytes) := by
        simp only [encode_literal, Str.len, hint, hint', ok_bind]
      simp only [hname_line, List.append_assoc]

/-- Fields are encoded as lines, in their order. -/
theorem encode_lines_spec (headers : List Field) (buf : List UInt8) :
    ∃ bytes, encode_lines headers buf = ok (buf ++ bytes) ∧ FieldLines bytes headers := by
  induction headers generalizing buf with
  | nil => exact ⟨[], by rw [encode_lines, List.append_nil], .nil⟩
  | cons header headers ih =>
    obtain ⟨name, value⟩ := header
    obtain ⟨line, hline, hfield⟩ := encode_line_spec buf name value
    obtain ⟨lines, hlines, hfields⟩ := ih (buf ++ line)
    refine ⟨line ++ lines, ?_, .cons hfield hfields⟩
    rw [encode_lines, hline, ok_bind, hlines, List.append_assoc]

theorem sort_by_key_perm (headers : List Field) : (sort_by_key headers).Perm headers :=
  List.perm_insertionSort _ _

/-- A pseudo-header is preceded by pseudo-headers only. -/
theorem sort_by_key_pairwise (headers : List Field) :
    (sort_by_key headers).Pairwise fun first second =>
      second.1.starts_with ':' = true → first.1.starts_with ':' = true := by
  have hsorted : (sort_by_key headers).Pairwise fun first second =>
      sort_key first ≤ sort_key second := by
    have : Std.Total fun first second : Field => sort_key first ≤ sort_key second :=
      ⟨fun first second => le_total _ _⟩
    have : IsTrans Field fun first second => sort_key first ≤ sort_key second :=
      ⟨fun _ _ _ => le_trans⟩
    exact List.pairwise_insertionSort _ _
  refine hsorted.imp fun {first second} hle hsecond => ?_
  cases hfirst : first.1.starts_with ':' with
  | true => rfl
  | false =>
    rw [sort_key, sort_key, hfirst, hsecond] at hle
    exact absurd hle (by decide)

/-- The bytes `encode` appends are the section prefix and one line for each field, the
pseudo-headers first, and `decode` reads the same map back from them. This holds for every
order in which the map hands out its entries. -/
theorem decode_encode (self : Headers) (iter : HashMap.Iter Str Str) (hiter : iter.map = self.fields)
    (buf : List UInt8) :
    ∃ int int' lines sorted,
      encode iter buf = ok (buf ++ (int ++ int' ++ lines)) ∧
      PrefixInt 8 int 0 0 ∧ PrefixInt 7 int' 0 0 ∧ FieldLines lines sorted ∧
      sorted.Perm iter.entries ∧
      (sorted.Pairwise fun first second =>
        second.1.starts_with ':' = true → first.1.starts_with ':' = true) ∧
      decode (int ++ int' ++ lines) = ok self := by
  obtain ⟨int, hint, hstart⟩ := encode_prefix_spec (by decide : 0 < 8) (by decide) buf
    (by decide : 0 < 2 ^ (8 - 8)) (by decide : 0 < 2 ^ 64)
  obtain ⟨int', hint', hstart'⟩ := encode_prefix_spec (by decide : 0 < 7) (by decide) (buf ++ int)
    (by decide : 0 < 2 ^ (8 - 7)) (by decide : 0 < 2 ^ 64)
  obtain ⟨lines, hlines, hfields⟩ := encode_lines_spec (sort_by_key iter.entries) (buf ++ int ++ int')
  have hperm := sort_by_key_perm iter.entries
  refine ⟨int, int', lines, sort_by_key iter.entries, ?_, hstart, hstart', hfields, hperm,
    sort_by_key_pairwise _, ?_⟩
  · rw [encode, hint, ok_bind, hint', ok_bind, hlines]
    simp only [List.append_assoc]
  · rw [decode_of_fieldLines ⟨int, int', 0, 0, 0, 0, rfl, hstart, hstart'⟩ hfields,
      iter.insert_all_perm hperm, hiter]

/-- The headers of a successful response, handed out with the pseudo-header last. -/
theorem decode_encode_response :
    let status : Field := (⟨":status", by decide⟩, ⟨"200", by decide⟩)
    let draft : Field := (⟨"sec-webtransport-http3-draft", by decide⟩, ⟨"draft02", by decide⟩)
    ∃ int int' lines sorted,
      encode ⟨[draft, status], by decide⟩ [] = ok ([] ++ (int ++ int' ++ lines)) ∧
      PrefixInt 8 int 0 0 ∧ PrefixInt 7 int' 0 0 ∧ FieldLines lines sorted ∧
      sorted.Perm [draft, status] ∧
      (sorted.Pairwise fun first second =>
        second.1.starts_with ':' = true → first.1.starts_with ':' = true) ∧
      decode (int ++ int' ++ lines) = ok { fields := HashMap.insert_all ∅ [draft, status] } :=
  decode_encode _ ⟨[_, _], by decide⟩ rfl []

end Headers

end wt_proto.qpack
