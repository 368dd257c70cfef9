import WebTransport.Huffman.Code

open rust rust.Outcome bits

namespace wt_proto.huffman

/-- The bits of the payload a read can reach: the bound check truncates its length to `u32`. -/
def readable (input : List UInt8) : List Bool :=
  (ofBytes input).take (8 * (input.length % 2 ^ 32))

/-- As many bits can be read as the truncated length has. -/
theorem length_readable (input : List UInt8) :
    (readable input).length = 8 * (input.length % 2 ^ 32) := by
  have htrunc : input.length % 2 ^ 32 ≤ input.length := Nat.mod_le _ _
  rw [readable, List.length_take, length_ofBytes]
  omega

theorem readable_of_lt {input : List UInt8} (h : input.length < 2 ^ 32) :
    readable input = ofBytes input := by
  rw [readable, Nat.mod_eq_of_lt h, ← length_ofBytes, List.take_length]

/-- The unread bits `rest` pass the end-of-input check for padding. -/
def Padding (input : List UInt8) (rest : List Bool) : Prop :=
  input.length < 2 ^ 32 ∧ rest = List.replicate rest.length true

instance (input : List UInt8) (rest : List Bool) : Decidable (Padding input rest) :=
  inferInstanceAs (Decidable (_ ∧ _))

private theorem value_replicate_true (k : Nat) : value (List.replicate k true) = 2 ^ k - 1 := by
  induction k with
  | zero => rfl
  | succ k ih =>
    have hpos := Nat.two_pow_pos k
    rw [List.replicate_succ, value_cons, ih, List.length_replicate, Nat.pow_succ, Bool.toNat_true]
    omega

/-- The mask comparison of the end-of-input check holds exactly of a run of ones. -/
private theorem and_filler_eq_iff (rest : List Bool) :
    value rest &&& (2 ^ rest.length - 1) = 2 ^ rest.length - 1 ↔
      rest = List.replicate rest.length true := by
  rw [Nat.and_two_pow_sub_one_eq_mod, Nat.mod_eq_of_lt (value_lt rest), ← value_replicate_true]
  constructor
  · intro hvalue
    exact value_injective (by simp) hvalue
  · intro hones
    rw [← hones]

variable {input : List UInt8} {bit_pos : BitWindow} {rest : List Bool}

private theorem window_readable (hsrc : input.length % 2 ^ 32 < 2 ^ 29) (hbit : bit_pos.bit < 8)
    (hpos : 0 < bit_pos.count) (hcount : bit_pos.count ≤ 8)
    (hstop : bit_pos.position + bit_pos.count < 2 ^ 32)
    (hle : bit_pos.position ≤ 8 * (input.length % 2 ^ 32))
    (hrest : (readable input).drop bit_pos.position = rest) :
    read_bits input bit_pos.byte bit_pos.bit bit_pos.count =
      if bit_pos.count ≤ rest.length then ok (value (rest.take bit_pos.count)) else err () := by
  have hlen := congrArg List.length hrest
  rw [List.length_drop, length_readable] at hlen
  rw [read_bits_spec hsrc hpos hcount hbit hstop]
  change (if bit_pos.position + bit_pos.count ≤ _ then
    ok (value (((ofBytes input).drop bit_pos.position).take bit_pos.count)) else _) = _
  by_cases hfit : bit_pos.count ≤ rest.length
  · rw [if_pos hfit, if_pos (by omega), ← hrest, readable, List.drop_take, List.take_take,
      Nat.min_eq_left (by omega)]
  · rw [if_neg hfit, if_neg (by omega)]

/-- A window inside the payload is the number of the bits that come next. -/
theorem fetch_value_ok (hsrc : input.length % 2 ^ 32 < 2 ^ 29) (hbit : bit_pos.bit < 8)
    (hpos : 0 < bit_pos.count) (hcount : bit_pos.count ≤ 8)
    (hle : bit_pos.position ≤ 8 * (input.length % 2 ^ 32))
    (hrest : (readable input).drop bit_pos.position = rest) (hfit : bit_pos.count ≤ rest.length) :
    fetch_value bit_pos input = ok (some (value (rest.take bit_pos.count))) := by
  have hlen := congrArg List.length hrest
  rw [List.length_drop, length_readable] at hlen
  rw [fetch_value, window_readable hsrc hbit hpos hcount (by omega) hle hrest, if_pos hfit]

/-- Too few bits for the lookup: an untruncated payload ends there if they are all ones. -/
theorem fetch_value_short (hsrc : input.length % 2 ^ 32 < 2 ^ 29) (hbit : bit_pos.bit < 8)
    (hcount : bit_pos.count ≤ 8) (hstop : bit_pos.position + bit_pos.count < 2 ^ 32)
    (hle : bit_pos.position ≤ 8 * (input.length % 2 ^ 32))
    (hrest : (readable input).drop bit_pos.position = rest) (hshort : rest.length < bit_pos.count) :
    fetch_value bit_pos input =
      if Padding input rest then ok none else err (.MissingBits bit_pos) := by
  have hlen := congrArg List.length hrest
  rw [List.length_drop, length_readable] at hlen
  rw [fetch_value, window_readable hsrc hbit (by omega) hcount hstop hle hrest, if_neg (by omega)]
  simp only [BitWindow.position] at hlen hle
  have hnext : bit_pos.byte + 1 < 2 ^ 32 := by omega
  simp only [check_eof, addChecked_of_lt hnext, ok_bind]
  by_cases hsmall : input.length < 2 ^ 32
  · rw [Nat.mod_eq_of_lt hsmall] at hlen hle hsrc
    by_cases hend : bit_pos.byte + 1 > input.length
    · have hnil : rest = [] := List.length_eq_zero_iff.mp (by omega)
      rw [if_pos hend, if_pos ⟨hsmall, by rw [hnil]; rfl⟩]
    · have hlast : bit_pos.byte + 1 = input.length := by omega
      have hside : rest.length = 8 - bit_pos.bit := by omega
      have hread := @window_readable input bit_pos.opposite_bit_window rest
        (by rwa [Nat.mod_eq_of_lt hsmall]) hbit
        (by simp only [BitWindow.opposite_bit_window]; omega)
        (by simp only [BitWindow.opposite_bit_window]; omega)
        (by simp only [BitWindow.position, BitWindow.opposite_bit_window]; omega)
        (by simp only [BitWindow.position, BitWindow.opposite_bit_window]; omega) hrest
      have hsidecount : bit_pos.opposite_bit_window.count = rest.length := by
        simp only [BitWindow.opposite_bit_window]
        omega
      rw [hsidecount, if_pos (le_refl _), List.take_length] at hread
      have hfiller : (2 <<< (rest.length - 1)) % 2 ^ 16 = 2 ^ rest.length := by
        rw [Nat.shiftLeft_eq, ← Nat.pow_succ', show (rest.length - 1).succ = rest.length by omega]
        exact Nat.mod_eq_of_lt (Nat.pow_lt_pow_right (by decide) (by omega))
      have hmask : (2 ^ rest.length - 1) % 2 ^ 8 = 2 ^ rest.length - 1 := by
        have hpow : 2 ^ rest.length ≤ 2 ^ 8 := Nat.pow_le_pow_right (by decide) (by omega)
        have hone := Nat.two_pow_pos rest.length
        exact Nat.mod_eq_of_lt (by omega)
      rw [if_neg hend, if_pos hlast, hsidecount, hread]
      simp only [shlChecked_of_lt (show rest.length - 1 < 16 by omega), ok_bind, hfiller, hmask,
        and_filler_eq_iff, Padding, hsmall, true_and]
  · rw [if_neg (by omega), if_neg (by omega), if_neg (fun hpad => hsmall hpad.1)]

/-- A window whose end is not a `u32` panics. -/
theorem fetch_value_panic (hsrc : input.length % 2 ^ 32 < 2 ^ 29) (hbit : bit_pos.bit < 8)
    (hcount : bit_pos.count ≤ 8) (hstop : 2 ^ 32 ≤ bit_pos.position + bit_pos.count)
    (hle : bit_pos.position ≤ 8 * (input.length % 2 ^ 32)) :
    fetch_value bit_pos input = panic := by
  simp only [BitWindow.position] at hle hstop
  rw [fetch_value, read_bits_panic_of_stop hsrc (by omega) hcount (by omega) hbit hstop]

/-- All tables below `t` look up between one and eight bits. -/
def Narrow (t : DecodeValue) : Prop :=
  ∀ {path lookup table}, t.At path (.table lookup table) → 0 < lookup ∧ lookup ≤ 8

theorem hpack_string_narrow : Narrow (.Partial HPACK_STRING) := by
  intro path lookup table hat
  rcases hpack_string_table hat with ⟨hpos, hle, -⟩ | ⟨-, rfl, -⟩ <;> omega

/-- Decoding follows the bits down the tree, with the window advanced lazily: it lags behind
by the bits of the last lookup. -/
theorem follow_at {t u : DecodeValue} {path : List Bool} (hat : t.At path u) (hnarrow : Narrow t)
    (hsrc : input.length % 2 ^ 32 < 2 ^ 29) (hle : bit_pos.consumed ≤ 8 * (input.length % 2 ^ 32))
    (hrest : (readable input).drop bit_pos.consumed = path ++ rest) :
    ∃ window, window.consumed = bit_pos.consumed + path.length ∧
      follow t bit_pos input = follow u window input := by
  induction hat generalizing bit_pos with
  | here t => exact ⟨bit_pos, by simp, rfl⟩
  | @step lookup table word path t u hword hentry hat ih =>
    obtain ⟨hpos, hcount⟩ := hnarrow (.here _)
    obtain ⟨next, hnext, hposition, hbit, hstep⟩ := bit_pos.forwards_spec lookup (by omega)
    have hlen := congrArg List.length hrest
    rw [List.length_drop, length_readable, List.length_append, List.length_append] at hlen
    rw [← hposition, List.append_assoc] at hrest
    have hfetch := fetch_value_ok hsrc hbit (by omega) (by omega) (by omega) hrest
      (by rw [List.length_append]; omega)
    rw [hstep, ← hword, List.take_left] at hfetch
    have hdrop : (readable input).drop next.consumed = path ++ rest := by
      rw [BitWindow.consumed, hstep, ← hword, ← List.drop_drop, hrest, List.drop_left]
    have hconsumed : next.consumed = bit_pos.consumed + lookup := by
      rw [BitWindow.consumed, hposition, hstep]
    obtain ⟨window, hwindow, hfollow⟩ := ih (fun hat' => hnarrow (.step hword hentry hat'))
      (by omega) hdrop
    refine ⟨window, by rw [hwindow, hconsumed, List.length_append]; omega, ?_⟩
    simp only [follow, hnext, ok_bind, hfetch, follow_entry_eq, hentry]
    exact hfollow

/-- Decoding at a table where reading stops: an entry is missing, the position overflows,
or the payload ends. -/
theorem follow_stuck {lookup : Nat} {table : List DecodeValue} (hpos : 0 < lookup) (hcount : lookup ≤ 8)
    (hsrc : input.length % 2 ^ 32 < 2 ^ 29) (hle : bit_pos.consumed ≤ 8 * (input.length % 2 ^ 32))
    (hrest : (readable input).drop bit_pos.consumed = rest)
    (hstuck : LookupTree.Stuck (.table lookup table) rest) :
    ∃ window, window.position = bit_pos.consumed ∧ window.bit < 8 ∧ window.count = lookup ∧
      follow (.table lookup table) bit_pos input =
        if lookup ≤ rest.length then err (.Unhandled window (value (rest.take lookup)))
        else if 2 ^ 32 ≤ window.position + lookup then panic
        else if Padding input rest then ok (none, window)
        else err (.MissingBits window) := by
  obtain ⟨window, hnext, hposition, hbit, hstep⟩ := bit_pos.forwards_spec lookup (by omega)
  refine ⟨window, hposition, hbit, hstep, ?_⟩
  rw [← hposition] at hrest
  rw [follow, hnext, ok_bind]
  by_cases hfit : lookup ≤ rest.length
  · have hentry : table[value (rest.take lookup)]? = none := hstuck.resolve_left (by omega)
    rw [if_pos hfit, fetch_value_ok hsrc hbit (by omega) (by omega) (by omega) hrest (by omega),
      ok_bind]
    simp only [hstep, follow_entry_eq, hentry]
  · rw [if_neg hfit]
    by_cases hstop : 2 ^ 32 ≤ window.position + lookup
    · rw [if_pos hstop, fetch_value_panic hsrc hbit (by omega) (by omega) (by omega), panic_bind]
    · rw [if_neg hstop, fetch_value_short hsrc hbit (by omega) (by omega) (by omega) hrest (by omega)]
      by_cases hpad : Padding input rest
      · rw [if_pos hpad, if_pos hpad, ok_bind]
      · rw [if_neg hpad, if_neg hpad, err_bind]

/-- The loop pushes the symbols of complete code words one by one. -/
theorem collect_symbols (s : List UInt8) {tail : List Bool} {content decoded : List UInt8} (fuel : Nat)
    (hsrc : content.length % 2 ^ 32 < 2 ^ 29)
    (hle : bit_pos.consumed ≤ 8 * (content.length % 2 ^ 32))
    (hrest : (readable content).drop bit_pos.consumed = rfc7541_encode s ++ tail) :
    ∃ window, window.consumed = bit_pos.consumed + (rfc7541_encode s).length ∧
      DecodeIter.collect (fuel + s.length) { bit_pos, content } decoded =
        DecodeIter.collect fuel { bit_pos := window, content } (decoded ++ s) := by
  induction s generalizing bit_pos decoded with
  | nil => exact ⟨bit_pos, by simp [rfc7541_encode], by simp⟩
  | cons x s ih =>
    have hlen := congrArg List.length hrest
    simp only [List.length_drop, length_readable, List.length_append, rfc7541_encode,
      List.flatMap_cons] at hlen
    rw [rfc7541_encode, List.flatMap_cons, List.append_assoc] at hrest
    obtain ⟨next, hnext, hfollow⟩ := follow_at (hpack_string_decodes.complete x)
      (fun hat => hpack_string_narrow hat) hsrc hle hrest
    have hdrop : (readable content).drop next.consumed = rfc7541_encode s ++ tail := by
      rw [hnext, ← List.drop_drop, hrest, List.drop_left]
      rfl
    obtain ⟨window, hwindow, hcollect⟩ := @ih next (decoded ++ [x]) (by omega) hdrop
    refine ⟨window, ?_, ?_⟩
    · rw [hwindow, hnext]
      simp only [rfc7541_encode, List.flatMap_cons, List.length_append]
      omega
    · rw [List.length_cons, ← Nat.add_assoc, DecodeIter.collect, DecodeIter.next,
        HuffmanDecoder.decode_next, hfollow]
      simp only [follow, ok_bind, hcollect, List.append_assoc, List.singleton_append]

/-- A code word has five bits or more. -/
theorem length_le_encode (s : List UInt8) : 5 * s.length ≤ (rfc7541_encode s).length := by
  induction s with
  | nil => simp
  | cons x s ih =>
    have hword := rfc7541_code_length x
    simp only [rfc7541_encode, List.flatMap_cons, List.length_append, List.length_cons] at ih ⊢
    omega

/-- The whole decoder on a payload split at the point where reading stops: `s` are the
symbols before it, `path` leads to the table it stops at, `rest` are the bits left. -/
theorem hpack_decode_eq {p s : List UInt8} {path : List Bool} {lookup : Nat} {table : List DecodeValue}
    (hsrc : p.length % 2 ^ 32 < 2 ^ 29)
    (hsplit : readable p = rfc7541_encode s ++ (path ++ rest))
    (hat : (DecodeValue.Partial HPACK_STRING).At path (.table lookup table))
    (hstuck : LookupTree.Stuck (.table lookup table) rest) :
    ∃ window : BitWindow, window.position + rest.length = 8 * (p.length % 2 ^ 32) ∧
      window.bit < 8 ∧ window.count = lookup ∧
      hpack_decode p =
        if lookup ≤ rest.length then err (.Unhandled window (value (rest.take lookup)))
        else if 2 ^ 32 ≤ window.position + lookup then panic
        else if Padding p rest then ok s
        else err (.MissingBits window) := by
  have hlen := congrArg List.length hsplit
  rw [length_readable, List.length_append, List.length_append] at hlen
  have htrunc : p.length % 2 ^ 32 ≤ p.length := Nat.mod_le _ _
  have hwords := length_le_encode s
  obtain ⟨hpos, hcount⟩ := hpack_string_narrow hat
  obtain ⟨before, hbefore, hcollect⟩ := @collect_symbols BitWindow.new s (path ++ rest) p []
    (8 * p.length - s.length + 1) hsrc (by simp) (by simpa using hsplit)
  rw [BitWindow.consumed_new, Nat.zero_add] at hbefore
  have hdrop : (readable p).drop before.consumed = path ++ rest := by
    rw [hbefore, hsplit, List.drop_left]
  obtain ⟨next, hnext, hfollow⟩ := follow_at hat (fun hat' => hpack_string_narrow hat') hsrc
    (by omega) hdrop
  have hdrop' : (readable p).drop next.consumed = rest := by
    rw [hnext, ← List.drop_drop, hdrop, List.drop_left]
  obtain ⟨window, hposition, hbit, hstep, hresult⟩ := follow_stuck hpos hcount hsrc (by omega) hdrop'
    hstuck
  refine ⟨window, by omega, hbit, hstep, ?_⟩
  rw [hpack_decode, show 8 * p.length + 1 = 8 * p.length - s.length + 1 + s.length by omega, hcollect,
    DecodeIter.collect, DecodeIter.next, HuffmanDecoder.decode_next, hfollow, hresult]
  split_ifs <;> simp

end wt_proto.huffman
