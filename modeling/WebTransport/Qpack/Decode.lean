import WebTransport.Qpack.Reject

open rust rust.Outcome wt_proto.huffman

namespace wt_proto.qpack.Headers

/-- The header blocks that crash the receiver: one of the integers of the section prefix
overflows, or a part of the first line that is not a field line does. -/
def SectionOverflow (buf : List UInt8) : Prop :=
  PrefixOverflow 8 buf ∨
    (∃ int flags value rest, buf = int ++ rest ∧ PrefixInt 8 int flags value ∧
      PrefixOverflow 7 rest) ∨
    ∃ prefix_bytes bytes list line, buf = prefix_bytes ++ (bytes ++ line) ∧
      SectionPrefix prefix_bytes ∧ FieldLines bytes list ∧ LineOverflow line

/-- A line that overflows has a first byte. -/
theorem LineOverflow.exists_cons {line : List UInt8} (hover : LineOverflow line) :
    ∃ peek tail, line = peek :: tail := by
  cases hover with
  | index _ _ => exact ⟨_, _, rfl⟩
  | name_index _ _ => exact ⟨_, _, rfl⟩
  | name_ref hint _ _ _ =>
    obtain ⟨first, bytes, rfl⟩ := List.exists_cons_of_ne_nil (hint.ne_nil (by decide))
    exact ⟨_, _, rfl⟩
  | name _ _ => exact ⟨_, _, rfl⟩
  | literal hname _ _ =>
    obtain ⟨first, bytes, rfl, -⟩ := hname.exists_cons (by decide) (by decide)
    exact ⟨_, _, rfl⟩

/-- `decode` panics on the sections that overflow and on no others. -/
theorem decode_eq_panic_iff (buf : List UInt8) : decode buf = panic ↔ SectionOverflow buf := by
  constructor
  · intro h
    rcases decode_cases buf with
      ⟨_, _, _, -, -, -, hok⟩ | ⟨_, _, _, _, _, rfl, hstart, hlines, ⟨e, -, herr⟩ | ⟨hline, -⟩⟩ |
      ⟨e, herr, -⟩ | ⟨-, hover⟩
    · rw [hok] at h
      cases h
    · rw [herr] at h
      cases h
    · exact .inr (.inr ⟨_, _, _, _, rfl, hstart, hlines, decode_line_eq_panic_iff.mp hline⟩)
    · rw [herr] at h
      cases h
    · exact hover.imp id .inl
  · rintro (hover | ⟨int, flags, value, rest, rfl, hint, hover⟩ |
      ⟨prefix_bytes, bytes, list, line, rfl, hstart, hlines, hover⟩)
    · rw [decode, (decode_prefix_eq_panic_iff (by decide) (by decide) _).mpr hover, panic_bind]
    · rw [decode, hint.decode (by decide) (by decide), ok_bind]
      simp only [(decode_prefix_eq_panic_iff (by decide) (by decide) _).mpr hover, panic_bind]
    · obtain ⟨peek, tail, rfl⟩ := LineOverflow.exists_cons hover
      exact decode_of_panic hstart hlines (decode_line_eq_panic_iff.mpr hover)

/-- There is no buffer on which `decode` runs out of fuel. -/
theorem decode_ne_diverge (buf : List UInt8) : decode buf ≠ diverge := by
  rcases decode_cases buf with
    ⟨_, _, _, -, -, -, hok⟩ | ⟨_, _, _, _, _, -, -, -, ⟨e, -, herr⟩ | ⟨-, hpanic⟩⟩ |
    ⟨e, herr, -⟩ | ⟨hpanic, -⟩
  · simp [hok]
  · simp [herr]
  · simp [hpanic]
  · simp [herr]
  · simp [hpanic]

/-- `decode` comes back with `Ok` or `Err` exactly on the buffers without an overflow. -/
theorem decode_returns_iff (buf : List UInt8) : (decode buf).Returns ↔ ¬ SectionOverflow buf := by
  rw [returns_iff, ← decode_eq_panic_iff]
  exact and_iff_left (decode_ne_diverge buf)

/-- The tenth continuation byte of the Required Insert Count. -/
theorem decode_tenth_byte :
    ¬ (decode ([0xFF] ++ List.replicate 9 0xFF ++ [0x01])).Returns := by
  rw [show decode ([0xFF] ++ List.replicate 9 0xFF ++ [0x01]) = panic by decide +kernel]
  exact not_returns_panic

/-- `decode` accepts the sections of the grammar and no others, and gives them their meaning.
Among the errors, a line of a dynamic form after field lines is `DynamicEntry`, and
`UnknownEntry` is a static index past the table after field lines. -/
theorem decode_grammar :
    (∀ prefix_bytes bytes list, SectionPrefix prefix_bytes → FieldLines bytes list →
      decode (prefix_bytes ++ bytes) = ok { fields := HashMap.insert_all ∅ list }) ∧
    (∀ buf self, decode buf = ok self → ∃ prefix_bytes bytes list, buf = prefix_bytes ++ bytes ∧
      SectionPrefix prefix_bytes ∧ FieldLines bytes list ∧
      self.fields = HashMap.insert_all ∅ list) ∧
    (∀ prefix_bytes bytes list first tail, SectionPrefix prefix_bytes → FieldLines bytes list →
      DynamicForm first → decode (prefix_bytes ++ (bytes ++ first :: tail)) = err .DynamicEntry) ∧
    (∀ buf, decode buf = err .UnknownEntry ↔ ∃ prefix_bytes bytes list line,
      buf = prefix_bytes ++ (bytes ++ line) ∧ SectionPrefix prefix_bytes ∧ FieldLines bytes list ∧
      UnknownIndex line) := by
  refine ⟨fun _ _ _ hstart hlines => decode_of_fieldLines hstart hlines, fun buf self h => ?_,
    fun _ _ _ _ tail hstart hlines hform =>
      decode_of_err hstart hlines (decode_line_of_dynamic hform _), fun buf => ⟨fun h => ?_, ?_⟩⟩
  · rcases decode_cases buf with
      ⟨_, _, _, hbuf, hstart, hlines, hok⟩ | ⟨_, _, _, _, _, -, -, -, ⟨e, -, herr⟩ | ⟨-, hpanic⟩⟩ |
      ⟨e, herr, -⟩ | ⟨hpanic, -⟩
    · rw [hok] at h
      cases h
      exact ⟨_, _, _, hbuf, hstart, hlines, rfl⟩
    · rw [herr] at h
      cases h
    · rw [hpanic] at h
      cases h
    · rw [herr] at h
      cases h
    · rw [hpanic] at h
      cases h
  · rcases decode_cases buf with
      ⟨_, _, _, -, -, -, hok⟩ | ⟨_, _, _, _, _, hbuf, hstart, hlines, ⟨e, hline, herr⟩ | ⟨-, hpanic⟩⟩ |
      ⟨e, herr, he⟩ | ⟨hpanic, -⟩
    · rw [hok] at h
      cases h
    · rw [herr] at h
      cases h
      exact ⟨_, _, _, _, hbuf, hstart, hlines, decode_line_unknown_iff.mp hline⟩
    · rw [hpanic] at h
      cases h
    · rw [herr] at h
      cases h
      rcases he with he | he <;> cases he
    · rw [hpanic] at h
      cases h
  · rintro ⟨prefix_bytes, bytes, list, line, rfl, hstart, hlines, hunknown⟩
    obtain ⟨int, rest, flags, index, rfl, hindex, hint⟩ := hunknown
    obtain ⟨peek, tail, hsplit⟩ : ∃ peek tail, int ++ rest = peek :: tail := by
      have hnil : int ≠ [] := by
        rcases hint with ⟨hint, -⟩ | ⟨hint, -⟩ <;> exact hint.ne_nil (by decide)
      obtain ⟨first, bytes, rfl⟩ := List.exists_cons_of_ne_nil hnil
      exact ⟨_, _, rfl⟩
    rw [hsplit]
    refine decode_of_err hstart hlines (decode_line_unknown_iff.mpr ?_)
    exact ⟨int, rest, flags, index, hsplit.symm, hindex, hint⟩

/-- `:method: GET` and `:scheme: https`; behind them an index of the dynamic table, and the first index that
the static table does not have. -/
theorem decode_grammar_get_https :
    decode [0x00, 0x00, 0xD1, 0xD7] =
        ok { fields := HashMap.insert_all ∅ [(.lit ":method", .lit "GET"), (.lit ":scheme", .lit "https")] } ∧
      decode [0x00, 0x00, 0xD1, 0xD7, 0x80] = err .DynamicEntry ∧
      decode [0x00, 0x00, 0xD1, 0xD7, 0xFF, 0x24] = err .UnknownEntry := by
  obtain ⟨haccepts, -, hdynamic, hunknown⟩ := decode_grammar
  have hstart : SectionPrefix [0x00, 0x00] := ⟨[0x00], [0x00], 0, 0, 0, 0, rfl, rfl, rfl⟩
  have hget : PrefixInt 6 [0xD1] 0b11 17 := rfl
  have hhttps : PrefixInt 6 [0xD7] 0b11 23 := rfl
  have hlines : FieldLines [0xD1, 0xD7] [(.lit ":method", .lit "GET"), (.lit ":scheme", .lit "https")] :=
    .cons (.indexed hget rfl) (.cons (.indexed hhttps rfl) .nil)
  refine ⟨haccepts _ _ _ hstart hlines, hdynamic _ _ _ 0x80 [] hstart hlines (.inl rfl), (hunknown _).mpr ?_⟩
  exact ⟨_, _, _, [0xFF, 0x24], rfl, hstart, hlines, [0xFF, 0x24], [], 3, 99, rfl, Nat.le_refl 99, .inl ⟨rfl, rfl⟩⟩

end wt_proto.qpack.Headers
