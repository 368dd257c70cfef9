import WebTransport.Huffman.Decode

open rust rust.Outcome bits

namespace wt_proto.huffman

/-- The payloads on which the `u32` arithmetic overflows: those whose bit length does, and
those of `2 ^ 29 - 1` bytes (modulo `2 ^ 32`) that end with an EOS code on the last bit. -/
def HuffmanOverflow (p : List UInt8) : Prop :=
  2 ^ 29 ≤ p.length % 2 ^ 32 ∨
    p.length % 2 ^ 32 = 2 ^ 29 - 1 ∧ ∃ s, readable p = rfc7541_encode s ++ rfc7541_eos

private def is_empty_table (path : List Bool) (node : List Bool × DecodeValue) : Bool :=
  node.1 == path &&
    match node.2 with
    | .table 8 [] => true
    | _ => false

private theorem eos_node :
    (DecodeValue.Partial HPACK_STRING).nodes.any (is_empty_table rfc7541_eos) = true := by
  decide +kernel

/-- The EOS code leads to the empty table. -/
theorem hpack_string_eos : (DecodeValue.Partial HPACK_STRING).At rfc7541_eos (.table 8 []) := by
  obtain ⟨⟨path, u⟩, hmem, hnode⟩ := List.any_eq_true.mp eos_node
  simp only [is_empty_table, Bool.and_eq_true, beq_iff_eq] at hnode
  obtain ⟨rfl, hnode⟩ := hnode
  split at hnode
  · exact LookupTree.mem_nodes_iff.mp hmem
  · cases hnode

private def holds_padding (k : Nat) (node : List Bool × DecodeValue) : Bool :=
  match node.2 with
  | .symbol _ => false
  | .table lookup _ =>
    node.1 == List.replicate node.1.length true && node.1.length ≤ k && k < node.1.length + lookup

private theorem padding_nodes :
    ∀ k < 8, (DecodeValue.Partial HPACK_STRING).nodes.any (holds_padding k) = true := by
  decide +kernel

/-- Fewer than eight ones stop at a table on the all-ones path. -/
theorem hpack_string_padding {k : Nat} (hk : k < 8) :
    ∃ path lookup table rest, List.replicate k true = path ++ List.replicate rest true ∧
      (DecodeValue.Partial HPACK_STRING).At path (.table lookup table) ∧ rest < lookup := by
  obtain ⟨⟨path, u⟩, hmem, hnode⟩ := List.any_eq_true.mp (padding_nodes k hk)
  cases u with
  | symbol x => cases hnode
  | table lookup table =>
    simp only [holds_padding, Bool.and_eq_true, beq_iff_eq, decide_eq_true_eq] at hnode
    obtain ⟨⟨hones, hle⟩, hlt⟩ := hnode
    refine ⟨path, lookup, table, k - path.length, ?_, LookupTree.mem_nodes_iff.mp hmem, by omega⟩
    rw [hones, List.length_replicate, List.replicate_append_replicate]
    congr 1
    omega

private theorem hpack_decode_panic_of_length {p : List UInt8} (hlen : 2 ^ 29 ≤ p.length % 2 ^ 32) :
    hpack_decode p = panic := by
  obtain ⟨window, hnext, -, -, hstep⟩ := BitWindow.new.forwards_spec HPACK_STRING.lookup (by simp)
  have hlookup : HPACK_STRING.lookup = 5 := rfl
  rw [hpack_decode, DecodeIter.collect, DecodeIter.next, HuffmanDecoder.decode_next, follow, hnext,
    ok_bind, fetch_value, read_bits_panic_of_length hlen (by omega) (by omega)]
  rfl

/-- The decoder panics exactly on overflow. -/
theorem hpack_decode_eq_panic_iff (p : List UInt8) : hpack_decode p = panic ↔ HuffmanOverflow p := by
  constructor
  · intro h
    by_cases hsrc : 2 ^ 29 ≤ p.length % 2 ^ 32
    · exact .inl hsrc
    · obtain ⟨s, path, lookup, table, rest, hsplit, hat, hstuck⟩ :=
        hpack_string_decodes.exists_split (readable p)
      obtain ⟨window, hposition, hbit, hcount, hdecode⟩ :=
        hpack_decode_eq (by omega) hsplit hat hstuck
      rw [hdecode] at h
      split_ifs at h with hfit hstop
      rcases hpack_string_table hat with ⟨-, hle, -⟩ | ⟨rfl, rfl, -⟩
      · omega
      · have hnil : rest = [] := List.length_eq_zero_iff.mp (by omega)
        rw [hnil, List.append_nil] at hsplit
        exact .inr ⟨by omega, s, hsplit⟩
  · rintro (hlen | ⟨hlen, s, hsplit⟩)
    · exact hpack_decode_panic_of_length hlen
    · rw [← List.append_nil rfc7541_eos] at hsplit
      obtain ⟨window, hposition, hbit, hcount, hdecode⟩ :=
        hpack_decode_eq (by omega) hsplit hpack_string_eos (.inl (by decide))
      rw [List.length_nil] at hposition
      rw [hdecode, if_neg (by decide), if_pos (by omega)]

/-- The decoder always finishes. -/
theorem hpack_decode_ne_diverge (p : List UInt8) : hpack_decode p ≠ diverge := by
  by_cases hsrc : 2 ^ 29 ≤ p.length % 2 ^ 32
  · rw [hpack_decode_panic_of_length hsrc]
    simp
  · obtain ⟨s, path, lookup, table, rest, hsplit, hat, hstuck⟩ :=
      hpack_string_decodes.exists_split (readable p)
    obtain ⟨window, -, -, -, hdecode⟩ := hpack_decode_eq (by omega) hsplit hat hstuck
    rw [hdecode]
    split_ifs <;> simp

/-- The payloads the decoder accepts: code words, then the path to a table followed by fewer
ones than the table looks up. -/
theorem hpack_decode_eq_ok_iff {p s : List UInt8} :
    hpack_decode p = ok s ↔
      ∃ path lookup table k, ofBytes p = rfc7541_encode s ++ (path ++ List.replicate k true) ∧
        (DecodeValue.Partial HPACK_STRING).At path (.table lookup table) ∧ k < lookup ∧
        p.length < 2 ^ 29 ∧ 8 * p.length + lookup < 2 ^ 32 + k := by
  constructor
  · intro h
    have hsrc : p.length % 2 ^ 32 < 2 ^ 29 := by
      by_contra hnot
      rw [hpack_decode_panic_of_length (by omega)] at h
      cases h
    obtain ⟨s', path, lookup, table, rest, hsplit, hat, hstuck⟩ :=
      hpack_string_decodes.exists_split (readable p)
    obtain ⟨window, hposition, -, -, hdecode⟩ := hpack_decode_eq hsrc hsplit hat hstuck
    rw [hdecode] at h
    split_ifs at h with hfit hstop hpad
    cases h
    rw [readable_of_lt hpad.1, hpad.2] at hsplit
    rw [Nat.mod_eq_of_lt hpad.1] at hposition hsrc
    exact ⟨path, lookup, table, rest.length, hsplit, hat, by omega, hsrc, by omega⟩
  · rintro ⟨path, lookup, table, k, hsplit, hat, hk, hlen, hfit⟩
    have hsmall : p.length < 2 ^ 32 := by omega
    have hmod : p.length % 2 ^ 32 = p.length := Nat.mod_eq_of_lt hsmall
    rw [← readable_of_lt hsmall] at hsplit
    obtain ⟨window, hposition, -, -, hdecode⟩ := hpack_decode_eq (by omega) hsplit hat
      (.inl (by simpa using hk))
    rw [List.length_replicate, hmod] at hposition
    rw [hdecode, List.length_replicate, if_neg (by omega), if_neg (by omega),
      if_pos ⟨hsmall, by rw [List.length_replicate]⟩]

/-- Every symbol takes at least five bits of the payload. -/
theorem length_of_hpack_decode {p s : List UInt8} (h : hpack_decode p = ok s) :
    5 * s.length ≤ 8 * p.length ∧ p.length < 2 ^ 29 := by
  obtain ⟨path, lookup, table, k, hsplit, -, -, hlen, -⟩ := hpack_decode_eq_ok_iff.mp h
  have hwords := length_le_encode s
  have hbits := congrArg List.length hsplit
  rw [length_ofBytes, List.length_append] at hbits
  exact ⟨by omega, hlen⟩

end wt_proto.huffman
