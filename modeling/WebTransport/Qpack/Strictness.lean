import WebTransport.Qpack.Literal

open rust rust.Outcome wt_proto.huffman bits

namespace wt_proto.huffman

/-- `p` is the Huffman encoding of `s`, padded with fewer than eight ones. -/
def PaddedEncoding (p s : List UInt8) : Prop :=
  ∃ k < 8, ofBytes p = rfc7541_encode s ++ List.replicate k true

instance (p s : List UInt8) : Decidable (PaddedEncoding p s) :=
  inferInstanceAs (Decidable (∃ k < 8, _))

/-- Behind the code words of `s`, the payload `p` ends at a table of the decoding tree: after
the bits that lead there, it has fewer ones than the table looks up. The end-of-input check
accepts this wherever the table is. -/
def EndsAt (p s : List UInt8) (path : List Bool) (k : Nat) : Prop :=
  ∃ lookup table, (DecodeValue.Partial HPACK_STRING).At path (.table lookup table) ∧ k < lookup ∧
    ofBytes p = rfc7541_encode s ++ (path ++ List.replicate k true)

/-- The payloads that are accepted although their last bits are no padding: they end at a
table that is not reached by ones only, or with eight bits or more. -/
def Undetected (p : List UInt8) : Prop :=
  ∃ s path k, EndsAt p s path k ∧ ¬ (path = List.replicate path.length true ∧ path.length + k < 8)

variable {p s : List UInt8}

/-- A payload that ends at a table, with fewer ones than it looks up, is decoded. -/
theorem hpack_decode_of_endsAt {path : List Bool} {k : Nat} (hlen : p.length ≤ 2 ^ 28)
    (hends : EndsAt p s path k) : hpack_decode p = ok s := by
  obtain ⟨lookup, table, hat, hk, hsplit⟩ := hends
  refine hpack_decode_eq_ok_iff.mpr ⟨path, lookup, table, k, hsplit, hat, hk, by omega, ?_⟩
  rcases hpack_string_table hat with ⟨-, hle, -⟩ | ⟨-, rfl, -⟩ <;> omega

theorem exists_endsAt (h : hpack_decode p = ok s) : ∃ path k, EndsAt p s path k := by
  obtain ⟨path, lookup, table, k, hsplit, hat, hk, -⟩ := hpack_decode_eq_ok_iff.mp h
  exact ⟨path, k, lookup, table, hat, hk, hsplit⟩

/-- Padding ends the payload at a table on the all-ones path. -/
theorem PaddedEncoding.endsAt (hpadded : PaddedEncoding p s) : ∃ path k, EndsAt p s path k := by
  obtain ⟨count, hcount, hsplit⟩ := hpadded
  obtain ⟨path, lookup, table, k, hones, hat, hk⟩ := hpack_string_padding hcount
  exact ⟨path, k, lookup, table, hat, hk, by rw [hsplit, hones]⟩

theorem PaddedEncoding.decode (hpadded : PaddedEncoding p s) (hlen : p.length ≤ 2 ^ 28) :
    hpack_decode p = ok s := by
  obtain ⟨path, k, hends⟩ := hpadded.endsAt
  exact hpack_decode_of_endsAt hlen hends

/-- What is behind the code words is padding when it is ones only, and fewer than eight of them. -/
theorem EndsAt.padded_iff {path : List Bool} {k : Nat} (hends : EndsAt p s path k) :
    PaddedEncoding p s ↔ path = List.replicate path.length true ∧ path.length + k < 8 := by
  obtain ⟨lookup, table, hat, hk, hsplit⟩ := hends
  constructor
  · rintro ⟨count, hcount, hpadded⟩
    have htail : path ++ List.replicate k true = List.replicate count true :=
      List.append_cancel_left (hsplit.symm.trans hpadded)
    have hlen := congrArg List.length htail
    rw [List.length_append, List.length_replicate, List.length_replicate] at hlen
    refine ⟨List.eq_replicate_iff.mpr ⟨rfl, fun bit hbit => ?_⟩, by omega⟩
    have hmem : bit ∈ List.replicate count true := by
      rw [← htail]
      exact List.mem_append_left _ hbit
    exact List.eq_of_mem_replicate hmem
  · rintro ⟨hones, hshort⟩
    refine ⟨path.length + k, hshort, ?_⟩
    rw [hsplit, ← List.replicate_append_replicate, ← hones]

/-- No payload of this size overflows the bit positions. -/
theorem hpack_decode_returns (hlen : p.length ≤ 2 ^ 28) : (hpack_decode p).Returns := by
  refine returns_iff.mpr ⟨fun hpanic => ?_, hpack_decode_ne_diverge p⟩
  rcases (hpack_decode_eq_panic_iff p).mp hpanic with hover | ⟨hover, -⟩ <;> omega

/-- The decoder accepts nothing but padded encodings exactly on the payloads that are not
undetected. -/
theorem hpack_decode_strict_iff (hlen : p.length ≤ 2 ^ 28) :
    (∀ s, hpack_decode p = ok s → PaddedEncoding p s) ↔ ¬ Undetected p := by
  constructor
  · rintro hstrict ⟨s, path, k, hends, hbad⟩
    exact hbad (hends.padded_iff.mp (hstrict s (hpack_decode_of_endsAt hlen hends)))
  · intro hdetected s hdecode
    obtain ⟨path, k, hends⟩ := exists_endsAt hdecode
    by_contra hnot
    exact hdetected ⟨s, path, k, hends, fun hpadding => hnot (hends.padded_iff.mpr hpadding)⟩

end wt_proto.huffman

namespace wt_proto.qpack

variable {size flags : Nat} {int p : List UInt8}

/-- With the Huffman flag the payload is decoded, and what comes behind it is left. -/
theorem decode_string_huffman (hpos : 1 < size) (hsize : size ≤ 9)
    (hint : PrefixInt (size - 1) int flags p.length) (hflag : flags % 2 = 1) (rest : List UInt8) :
    decode_string (int ++ p ++ rest) size = (do
      let decoded ← (hpack_decode p).mapErr .HuffmanError
      ok (decoded, rest)) := by
  rw [decode_string_payload hpos hsize hint, if_neg (by omega)]

/-- On Huffman literals of up to `2 ^ 28` bytes, `decode_string` accepts nothing but padded
encodings, and rejects everything else with an error, exactly if the payload is not one of
those the end-of-input check lets through. -/
theorem decode_string_strict_iff (hpos : 1 < size) (hsize : size ≤ 9)
    (hint : PrefixInt (size - 1) int flags p.length) (hflag : flags % 2 = 1)
    (hlen : p.length ≤ 2 ^ 28) (rest : List UInt8) :
    ((∀ s rest', decode_string (int ++ p ++ rest) size = ok (s, rest') → PaddedEncoding p s) ∧
      ((∀ s, ¬ PaddedEncoding p s) → ∃ e, decode_string (int ++ p ++ rest) size = err e)) ↔
    ¬ Undetected p := by
  rw [decode_string_huffman hpos hsize hint hflag, ← hpack_decode_strict_iff hlen]
  rcases hpack_decode_returns hlen with ⟨s, hdecode⟩ | ⟨e, hdecode⟩
  · simp only [hdecode, mapErr_ok, ok_bind]
    constructor
    · rintro ⟨hstrict, -⟩ s' hs'
      cases hs'
      exact hstrict s rest rfl
    · intro hstrict
      refine ⟨fun s' rest' hs' => ?_, fun hnone => absurd (hstrict s rfl) (hnone s)⟩
      cases hs'
      exact hstrict s rfl
  · simp [hdecode]

/-- The literal of `"%"`, read from a length in the 7-bit prefix. -/
theorem decode_string_strict_iff_percent :
    ((∀ s rest', decode_string ([0x81] ++ [0x57] ++ []) 8 = ok (s, rest') → PaddedEncoding [0x57] s) ∧
      ((∀ s, ¬ PaddedEncoding [0x57] s) → ∃ e, decode_string ([0x81] ++ [0x57] ++ []) 8 = err e)) ↔
    ¬ Undetected [0x57] :=
  @decode_string_strict_iff 8 1 [0x81] [0x57] (by decide) (by decide) rfl (by decide) (by decide) []

/-- Five bits behind the codes of `"a%"` that are no padding are dropped, and an EOS code with
two more bits is taken for padding. -/
theorem decode_string_not_strict :
    (decode_string ([0x82] ++ [0x1A, 0xAA] ++ []) 8 = ok ([0x61, 0x25], []) ∧
      ¬ PaddedEncoding [0x1A, 0xAA] [0x61, 0x25]) ∧
    decode_string ([0x84] ++ [0xFF, 0xFF, 0xFF, 0xFF] ++ []) 8 = ok ([], []) ∧
      ¬ PaddedEncoding [0xFF, 0xFF, 0xFF, 0xFF] [] := by
  decide +kernel

/-- A padded Huffman literal and the raw literal of the same string are decoded alike, and
the bytes after them are left alone. -/
theorem decode_string_huffman_eq_raw {size' flags' : Nat} {int' s : List UInt8} (hpos : 1 < size)
    (hsize : size ≤ 9) (hint : PrefixInt (size - 1) int flags p.length) (hflag : flags % 2 = 1)
    (hpos' : 1 < size') (hsize' : size' ≤ 9) (hint' : PrefixInt (size' - 1) int' flags' s.length)
    (hflag' : flags' % 2 = 0) (hpadded : PaddedEncoding p s) (hlen : p.length ≤ 2 ^ 28)
    (rest : List UInt8) :
    decode_string (int ++ p ++ rest) size = ok (s, rest) ∧
      decode_string (int' ++ s ++ rest) size' = ok (s, rest) := by
  constructor
  · rw [decode_string_huffman hpos hsize hint hflag, hpadded.decode hlen, mapErr_ok, ok_bind]
  · rw [decode_string_payload hpos' hsize' hint', if_pos hflag']

/-- `"a%"` with five ones of padding, before a byte that is not part of it. -/
theorem decode_string_huffman_eq_raw_example :
    decode_string ([0x82] ++ [0x1A, 0xBF] ++ [0x07]) 8 = ok ([0x61, 0x25], [0x07]) ∧
      decode_string ([0x22] ++ [0x61, 0x25] ++ [0x07]) 4 = ok ([0x61, 0x25], [0x07]) :=
  @decode_string_huffman_eq_raw 8 1 [0x82] [0x1A, 0xBF] 4 4 [0x22] [0x61, 0x25] (by decide) (by decide)
    rfl (by decide) (by decide) (by decide) rfl (by decide) (by decide +kernel) (by decide) [0x07]

end wt_proto.qpack
