import WebTransport.Qpack.Prefix

open rust rust.Outcome

namespace wt_proto.qpack

/-- `enc` is one complete prefix integer the decoder accepts, with the value `value` and the
bits `flags` above the prefix. -/
def PrefixInt (size : Nat) (enc : List UInt8) (flags value : Nat) : Prop :=
  decode_prefix enc size = ok ((flags, value), [])

/-- One turn of the loop panics whatever follows the byte, or adds its group to the value. -/
private theorem loop_turn (value power : Nat) (byte : UInt8) :
    (∀ buf, decode_prefix_loop value power (byte :: buf) = panic) ∨
      ∃ sum < 2 ^ 64, ∀ buf, decode_prefix_loop value power (byte :: buf) =
        if byte.toNat &&& 128 = 0 then ok (sum, buf)
        else if power + 7 ≥ MAX_POWER then err .BoundsExceeded
        else decode_prefix_loop sum (power + 7) buf := by
  by_cases hshift : power < 64
  · by_cases hfit : value + ((byte.toNat &&& 127) <<< power) % 2 ^ 64 < 2 ^ 64
    · refine .inr ⟨_, hfit, fun buf => ?_⟩
      rw [decode_prefix_loop, shlChecked_of_lt hshift, ok_bind, addChecked_of_lt hfit, ok_bind]
    · refine .inl fun buf => ?_
      rw [decode_prefix_loop, shlChecked_of_lt hshift, ok_bind,
        addChecked_of_le (Nat.le_of_not_lt hfit), panic_bind]
  · refine .inl fun buf => ?_
    rw [decode_prefix_loop, shlChecked, if_neg hshift, panic_bind]

private theorem loop_append {value power result : Nat} {buf rest : List UInt8} (tail : List UInt8)
    (h : decode_prefix_loop value power buf = ok (result, rest)) :
    decode_prefix_loop value power (buf ++ tail) = ok (result, rest ++ tail) := by
  induction buf generalizing value power with
  | nil => cases h
  | cons byte buf ih =>
    rcases loop_turn value power byte with hpanic | ⟨sum, -, hturn⟩
    · rw [hpanic] at h
      cases h
    · rw [hturn] at h
      rw [List.cons_append, hturn]
      split_ifs at h ⊢ with hlast
      · cases h
        rfl
      · exact ih h

private theorem loop_split {value power result : Nat} {buf rest : List UInt8}
    (h : decode_prefix_loop value power buf = ok (result, rest)) :
    ∃ enc, buf = enc ++ rest ∧ decode_prefix_loop value power enc = ok (result, []) := by
  induction buf generalizing value power with
  | nil => cases h
  | cons byte buf ih =>
    rcases loop_turn value power byte with hpanic | ⟨sum, -, hturn⟩
    · rw [hpanic] at h
      cases h
    · rw [hturn] at h
      split_ifs at h with hlast hbound
      · cases h
        exact ⟨[byte], rfl, by rw [hturn, if_pos hlast]⟩
      · obtain ⟨enc, rfl, henc⟩ := ih h
        exact ⟨byte :: enc, rfl, by rw [hturn, if_neg hlast, if_neg hbound, henc]⟩

private theorem loop_take {value power result : Nat} {enc : List UInt8}
    (h : decode_prefix_loop value power enc = ok (result, [])) {n : Nat} (hn : n < enc.length) :
    decode_prefix_loop value power (enc.take n) = err .UnexpectedEnd := by
  induction enc generalizing value power n with
  | nil => exact absurd hn (Nat.not_lt_zero n)
  | cons byte enc ih =>
    cases n with
    | zero => rfl
    | succ n =>
      rw [List.length_cons] at hn
      rcases loop_turn value power byte with hpanic | ⟨sum, -, hturn⟩
      · rw [hpanic] at h
        cases h
      · rw [hturn] at h
        split_ifs at h with hlast hbound
        · cases h
          simp at hn
        · rw [List.take_succ_cons, hturn, if_neg hlast, if_neg hbound]
          exact ih h (by omega)

private theorem loop_lt {value power result : Nat} {buf rest : List UInt8}
    (h : decode_prefix_loop value power buf = ok (result, rest)) : result < 2 ^ 64 := by
  induction buf generalizing value power with
  | nil => cases h
  | cons byte buf ih =>
    rcases loop_turn value power byte with hpanic | ⟨sum, hsum, hturn⟩
    · rw [hpanic] at h
      cases h
    · rw [hturn] at h
      split_ifs at h
      · cases h
        exact hsum
      · exact ih h

private theorem loop_ne_diverge (value power : Nat) (buf : List UInt8) :
    decode_prefix_loop value power buf ≠ diverge := by
  induction buf generalizing value power with
  | nil => simp [decode_prefix_loop]
  | cons byte buf ih =>
    rcases loop_turn value power byte with hpanic | ⟨sum, -, hturn⟩
    · simp [hpanic]
    · rw [hturn]
      split_ifs
      · simp
      · simp
      · exact ih _ _

private theorem loop_err {value power : Nat} {buf : List UInt8} {e : DecodeError}
    (h : decode_prefix_loop value power buf = err e) : e = .UnexpectedEnd ∨ e = .BoundsExceeded := by
  induction buf generalizing value power with
  | nil =>
    cases h
    exact .inl rfl
  | cons byte buf ih =>
    rcases loop_turn value power byte with hpanic | ⟨sum, -, hturn⟩
    · rw [hpanic] at h
      cases h
    · rw [hturn] at h
      split_ifs at h
      · cases h
        exact .inr rfl
      · exact ih h

variable {size : Nat}

/-- Bytes after an accepted integer do not change how it is read. -/
theorem decode_prefix_append (hpos : 0 < size) (hsize : size ≤ 8) {buf rest : List UInt8}
    {result : Nat × Nat} (tail : List UInt8) (h : decode_prefix buf size = ok (result, rest)) :
    decode_prefix (buf ++ tail) size = ok (result, rest ++ tail) := by
  cases buf with
  | nil =>
    rw [decode_prefix_nil hsize] at h
    cases h
  | cons first buf =>
    rw [List.cons_append, decode_prefix_cons hpos hsize]
    rw [decode_prefix_cons hpos hsize] at h
    split at h
    · rename_i hshort
      cases h
      rw [if_pos hshort]
    · rename_i hlong
      rw [bind_eq_ok_iff] at h
      obtain ⟨⟨value, left⟩, hloop, h⟩ := h
      cases h
      rw [if_neg hlong, loop_append tail hloop, ok_bind]

theorem PrefixInt.decode (hpos : 0 < size) (hsize : size ≤ 8) {enc : List UInt8} {flags value : Nat}
    (hint : PrefixInt size enc flags value) (rest : List UInt8) :
    decode_prefix (enc ++ rest) size = ok ((flags, value), rest) :=
  decode_prefix_append hpos hsize rest hint

/-- What the decoder accepts is one integer followed by the bytes it leaves. -/
theorem decode_prefix_split (hpos : 0 < size) (hsize : size ≤ 8) {buf rest : List UInt8}
    {flags value : Nat} (h : decode_prefix buf size = ok ((flags, value), rest)) :
    ∃ enc, buf = enc ++ rest ∧ PrefixInt size enc flags value := by
  cases buf with
  | nil =>
    rw [decode_prefix_nil hsize] at h
    cases h
  | cons first buf =>
    rw [decode_prefix_cons hpos hsize] at h
    split at h
    · rename_i hshort
      cases h
      exact ⟨[first], rfl, by rw [PrefixInt, decode_prefix_cons hpos hsize, if_pos hshort]⟩
    · rename_i hlong
      rw [bind_eq_ok_iff] at h
      obtain ⟨⟨result, left⟩, hloop, h⟩ := h
      cases h
      obtain ⟨enc, rfl, henc⟩ := loop_split hloop
      refine ⟨first :: enc, rfl, ?_⟩
      rw [PrefixInt, decode_prefix_cons hpos hsize, if_neg hlong, henc, ok_bind]

/-- A prefix integer has at least the byte with its prefix. -/
theorem PrefixInt.ne_nil (hsize : size ≤ 8) {enc : List UInt8} {flags value : Nat}
    (hint : PrefixInt size enc flags value) : enc ≠ [] := by
  rintro rfl
  rw [PrefixInt, decode_prefix_nil hsize] at hint
  cases hint

/-- An integer that is cut off is an unexpected end. -/
theorem PrefixInt.take (hpos : 0 < size) (hsize : size ≤ 8) {enc : List UInt8} {flags value : Nat}
    (hint : PrefixInt size enc flags value) {n : Nat} (hn : n < enc.length) :
    decode_prefix (enc.take n) size = err .UnexpectedEnd := by
  obtain ⟨first, buf, rfl⟩ := List.exists_cons_of_ne_nil (hint.ne_nil hsize)
  cases n with
  | zero => exact decode_prefix_nil hsize
  | succ n =>
    rw [PrefixInt, decode_prefix_cons hpos hsize] at hint
    rw [List.length_cons] at hn
    split at hint
    · cases hint
      simp at hn
    · rename_i hlong
      rw [bind_eq_ok_iff] at hint
      obtain ⟨⟨result, left⟩, hloop, h⟩ := hint
      cases h
      rw [List.take_succ_cons, decode_prefix_cons hpos hsize, if_neg hlong, loop_take hloop (by omega),
        err_bind]

/-- An accepted value is a `usize`. -/
theorem PrefixInt.value_lt (hpos : 0 < size) (hsize : size ≤ 8) {enc : List UInt8}
    {flags value : Nat} (hint : PrefixInt size enc flags value) : value < 2 ^ 64 := by
  obtain ⟨first, buf, rfl⟩ := List.exists_cons_of_ne_nil (hint.ne_nil hsize)
  rw [PrefixInt, decode_prefix_cons hpos hsize] at hint
  split at hint
  · cases hint
    have := first.toNat_lt
    have := Nat.mod_le first.toNat (2 ^ size)
    omega
  · rw [bind_eq_ok_iff] at hint
    obtain ⟨⟨result, left⟩, hloop, h⟩ := hint
    cases h
    exact loop_lt hloop

/-- The flags are the bits of the first byte above the prefix. -/
theorem PrefixInt.flags_eq (hpos : 0 < size) (hsize : size ≤ 8) {first : UInt8} {enc : List UInt8}
    {flags value : Nat} (hint : PrefixInt size (first :: enc) flags value) :
    flags = first.toNat / 2 ^ size := by
  rw [PrefixInt, decode_prefix_cons hpos hsize] at hint
  split at hint
  · cases hint
    rfl
  · rw [bind_eq_ok_iff] at hint
    obtain ⟨⟨result, left⟩, -, h⟩ := hint
    cases h
    rfl

/-- A buffer that starts with a prefix integer has its flags in the first byte. -/
theorem PrefixInt.flags_of_append (hpos : 0 < size) (hsize : size ≤ 8) {first : UInt8}
    {tail enc rest : List UInt8} {flags value : Nat} (hint : PrefixInt size enc flags value)
    (h : first :: tail = enc ++ rest) : flags = first.toNat / 2 ^ size := by
  obtain ⟨first', tail', rfl⟩ := List.exists_cons_of_ne_nil (hint.ne_nil hsize)
  obtain rfl := (List.cons.inj h).1
  exact hint.flags_eq hpos hsize

/-- There is no buffer on which `decode_prefix` runs out of fuel. -/
theorem decode_prefix_ne_diverge (hpos : 0 < size) (hsize : size ≤ 8) (buf : List UInt8) :
    decode_prefix buf size ≠ diverge := by
  cases buf with
  | nil => simp [decode_prefix_nil hsize]
  | cons first buf =>
    rw [decode_prefix_cons hpos hsize]
    split
    · simp
    · simp [bind_eq_diverge_iff, loop_ne_diverge]

/-- The buffer ends too early, or the integer is too long. -/
theorem decode_prefix_err (hpos : 0 < size) (hsize : size ≤ 8) {buf : List UInt8} {e : DecodeError}
    (h : decode_prefix buf size = err e) : e = .UnexpectedEnd ∨ e = .BoundsExceeded := by
  cases buf with
  | nil =>
    rw [decode_prefix_nil hsize] at h
    cases h
    exact .inl rfl
  | cons first buf =>
    rw [decode_prefix_cons hpos hsize] at h
    split at h
    · cases h
    · rw [bind_eq_err_iff] at h
      rcases h with hloop | ⟨out, -, h⟩
      · exact loop_err hloop
      · cases h

/-- Continuation bytes add their groups to the value, as long as the sum fits. -/
theorem decode_prefix_loop_groups {value power : Nat} {groups : List UInt8} (tail : List UInt8)
    (hmore : ∀ byte ∈ groups, 128 ≤ byte.toNat) (hpower : power + 7 * groups.length < 70)
    (hfit : value + groups_value groups * 2 ^ power < 2 ^ 64) :
    decode_prefix_loop value power (groups ++ tail) =
      decode_prefix_loop (value + groups_value groups * 2 ^ power) (power + 7 * groups.length) tail := by
  induction groups generalizing value power with
  | nil => simp [groups_value]
  | cons byte groups ih =>
    simp only [List.mem_cons, forall_eq_or_imp] at hmore
    rw [List.length_cons] at hpower
    rw [groups_value_cons_mul] at hfit ⊢
    have hgroup : byte.toNat % 128 * 2 ^ power % 2 ^ 64 = byte.toNat % 128 * 2 ^ power :=
      Nat.mod_eq_of_lt (by omega)
    rw [List.cons_append, decode_prefix_loop_cons _ _ (by omega), hgroup, if_neg (by omega),
      if_neg (by omega), if_neg (by omega), ih hmore.2 (by omega) (by omega), List.length_cons,
      Nat.add_assoc, show power + 7 + 7 * groups.length = power + 7 * (groups.length + 1) by omega]

/-- A buffer runs out inside an integer, or holds its last byte: one without continuation
bit, or the tenth after the prefix. -/
theorem exists_last_group (count : Nat) (buf : List UInt8) :
    (buf.length ≤ count ∧ ∀ byte ∈ buf, 128 ≤ byte.toNat) ∨
      ∃ groups last rest, buf = groups ++ last :: rest ∧ groups.length ≤ count ∧
        (∀ byte ∈ groups, 128 ≤ byte.toNat) ∧ (last.toNat < 128 ∨ groups.length = count) := by
  induction buf generalizing count with
  | nil => exact .inl ⟨Nat.zero_le _, by simp⟩
  | cons byte buf ih =>
    by_cases hlast : byte.toNat < 128
    · exact .inr ⟨[], byte, buf, rfl, Nat.zero_le _, by simp, .inl hlast⟩
    · cases count with
      | zero => exact .inr ⟨[], byte, buf, rfl, le_refl _, by simp, .inr rfl⟩
      | succ count =>
        rcases ih count with ⟨hlen, hmore⟩ | ⟨groups, last, rest, rfl, hlen, hmore, hend⟩
        · refine .inl ⟨by simpa using hlen, ?_⟩
          simpa [not_lt.mp hlast] using hmore
        · refine .inr ⟨byte :: groups, last, rest, rfl, by simpa using hlen, ?_, by simpa using hend⟩
          simpa [not_lt.mp hlast] using hmore

/-- The sum of a prefix and at most nine groups is far from overflowing. -/
theorem groups_fit {groups : List UInt8} (hlen : groups.length ≤ 9) (hsize : size ≤ 8) :
    2 ^ size - 1 + groups_value groups < 2 ^ 64 := by
  have hgroups := groups_value_lt groups
  have hpow : 2 ^ (7 * groups.length) ≤ 2 ^ 63 := Nat.pow_le_pow_right (by decide) (by omega)
  have hmask : 2 ^ size ≤ 2 ^ 8 := Nat.pow_le_pow_right (by decide) hsize
  omega

/-- The loop on an integer whose last byte is known. The tenth byte contributes its lowest bit
only: the others are shifted out. -/
theorem decode_prefix_loop_last (hsize : size ≤ 8) {groups : List UInt8} (last : UInt8)
    (rest : List UInt8) (hlen : groups.length ≤ 9) (hmore : ∀ byte ∈ groups, 128 ≤ byte.toNat)
    (hend : last.toNat < 128 ∨ groups.length = 9) :
    decode_prefix_loop (2 ^ size - 1) 0 (groups ++ last :: rest) =
      let sum := 2 ^ size - 1 + groups_value groups + last.toNat % 128 * 2 ^ (7 * groups.length) % 2 ^ 64
      if 2 ^ 64 ≤ sum then panic
      else if last.toNat < 128 then ok (sum, rest)
      else err .BoundsExceeded := by
  have hfit := groups_fit hlen hsize
  rw [decode_prefix_loop_groups _ hmore (by omega) (by simpa using hfit),
    decode_prefix_loop_cons _ _ (by omega), Nat.pow_zero, Nat.mul_one, Nat.zero_add]
  simp only
  split_ifs <;> first | rfl | omega

/-- Too few bytes for the continuation bits they carry. -/
theorem decode_prefix_loop_unfinished (hsize : size ≤ 8) {groups : List UInt8}
    (hlen : groups.length ≤ 9) (hmore : ∀ byte ∈ groups, 128 ≤ byte.toNat) :
    decode_prefix_loop (2 ^ size - 1) 0 groups = err .UnexpectedEnd := by
  have hfit := groups_fit hlen hsize
  rw [← List.append_nil groups, decode_prefix_loop_groups [] hmore (by omega) (by simpa using hfit),
    decode_prefix_loop]

/-- The buffer starts with an integer of ten or more bytes after the prefix, and the lowest
bit of the tenth takes the sum of the prefix and the nine groups before it past `usize`. -/
def PrefixOverflow (size : Nat) (buf : List UInt8) : Prop :=
  ∃ (first : UInt8) (groups : List UInt8) (tenth : UInt8) (rest : List UInt8),
    buf = first :: (groups ++ tenth :: rest) ∧ first.toNat % 2 ^ size = 2 ^ size - 1 ∧
    groups.length = 9 ∧ (∀ byte ∈ groups, 128 ≤ byte.toNat) ∧ tenth.toNat % 2 = 1 ∧
    2 ^ 63 < 2 ^ size + groups_value groups

private theorem tenth_group (tenth : UInt8) :
    tenth.toNat % 128 * 2 ^ (7 * 9) % 2 ^ 64 = tenth.toNat % 2 * 2 ^ 63 := by
  omega

/-- `decode_prefix` panics exactly on these integers. -/
theorem decode_prefix_eq_panic_iff (hpos : 0 < size) (hsize : size ≤ 8) (buf : List UInt8) :
    decode_prefix buf size = panic ↔ PrefixOverflow size buf := by
  have hmask : 1 ≤ 2 ^ size := Nat.one_le_two_pow
  constructor
  · intro h
    cases buf with
    | nil =>
      rw [decode_prefix_nil hsize] at h
      cases h
    | cons first buf =>
      rw [decode_prefix_cons hpos hsize] at h
      split at h
      · cases h
      · rename_i hlong
        have hfirst : first.toNat % 2 ^ size = 2 ^ size - 1 := by
          have := Nat.mod_lt first.toNat (show 2 ^ size > 0 by omega)
          omega
        simp only [bind_eq_panic_iff, reduceCtorEq, and_false, exists_false, or_false] at h
        rcases exists_last_group 9 buf with
          ⟨hlen, hmore⟩ | ⟨groups, last, rest, rfl, hlen, hmore, hend⟩
        · rw [decode_prefix_loop_unfinished hsize hlen hmore] at h
          cases h
        · rw [decode_prefix_loop_last hsize last rest hlen hmore hend] at h
          simp only at h
          split at h
          · rename_i hover
            have hgroups := groups_value_lt groups
            have hnine : groups.length = 9 := by
              by_contra hne
              have hsmall : last.toNat % 128 * 2 ^ (7 * groups.length) ≤ 128 * 2 ^ (7 * groups.length) :=
                Nat.mul_le_mul_right _ (by omega)
              have hpow : 2 ^ (7 * groups.length) ≤ 2 ^ 56 := Nat.pow_le_pow_right (by decide) (by omega)
              have hsize8 : 2 ^ size ≤ 2 ^ 8 := Nat.pow_le_pow_right (by decide) hsize
              have hmod := Nat.mod_le (last.toNat % 128 * 2 ^ (7 * groups.length)) (2 ^ 64)
              omega
            rw [hnine, tenth_group] at hover
            have hsize8 : 2 ^ size ≤ 2 ^ 8 := Nat.pow_le_pow_right (by decide) hsize
            rw [hnine] at hgroups
            exact ⟨first, groups, last, rest, rfl, hfirst, hnine, hmore, by omega, by omega⟩
          · split at h <;> cases h
  · rintro ⟨first, groups, tenth, rest, rfl, hfirst, hnine, hmore, hbit, hsum⟩
    rw [decode_prefix_cons hpos hsize, if_neg (by omega),
      decode_prefix_loop_last hsize tenth rest (by omega) hmore (.inr hnine)]
    simp only
    rw [hnine, tenth_group, hbit, if_pos (by omega), panic_bind]

/-- What the low group of a number contributes, and what is left for the groups after it. -/
theorem group_split (remaining power : Nat) :
    remaining * 2 ^ power = remaining % 128 * 2 ^ power + remaining / 128 * 2 ^ (power + 7) := by
  rw [Nat.pow_add, ← Nat.mul_assoc, Nat.mul_right_comm, ← Nat.add_mul]
  congr 1
  omega

/-- A number that fits at its weight and needs another group has a weight for it. -/
theorem group_room {value remaining power : Nat} (hmore : remaining ≥ 128)
    (hfit : value + remaining * 2 ^ power < 2 ^ 64) : power + 7 < 64 := by
  by_contra hnot
  have hpow : 2 ^ 64 ≤ 2 ^ (power + 7) := Nat.pow_le_pow_right (by decide) (by omega)
  have hquot : 1 * 2 ^ (power + 7) ≤ remaining / 128 * 2 ^ (power + 7) :=
    Nat.mul_le_mul_right _ (by omega)
  have hsplit := group_split remaining power
  omega

/-- The byte of a group that is not the last. -/
theorem continued_toNat (remaining : Nat) :
    (UInt8.ofNat (remaining % 128 + 128)).toNat = remaining % 128 + 128 := by
  rw [UInt8.toNat_ofNat']
  omega

/-- The decoder reads back the groups the encoder wrote, at any weight at which the value fits. -/
theorem decode_encode_loop (remaining : Nat) {value power : Nat} (rest : List UInt8)
    (hpower : power < 64) (hfit : value + remaining * 2 ^ power < 2 ^ 64) :
    decode_prefix_loop value power (encode_prefix_loop remaining ++ rest) =
      ok (value + remaining * 2 ^ power, rest) := by
  induction remaining using Nat.strong_induction_on generalizing value power with
  | _ remaining ih =>
    rw [encode_prefix_loop]
    by_cases hmore : remaining ≥ 128
    · have hsplit := group_split remaining power
      have hgroup : (remaining % 128 + 128) % 128 * 2 ^ power % 2 ^ 64 = remaining % 128 * 2 ^ power := by
        rw [Nat.add_mod_right, Nat.mod_mod]
        exact Nat.mod_eq_of_lt (by omega)
      have hroom := group_room hmore hfit
      rw [if_pos hmore, List.cons_append, decode_prefix_loop_cons _ _ hpower, continued_toNat, hgroup,
        if_neg (by omega), if_neg (by omega), if_neg (by omega),
        ih (remaining / 128) (by omega) hroom (by omega), hsplit, Nat.add_assoc]
    · have hbyte : (UInt8.ofNat remaining).toNat = remaining := by
        rw [UInt8.toNat_ofNat']
        omega
      have hgroup : remaining % 128 * 2 ^ power % 2 ^ 64 = remaining * 2 ^ power := by
        rw [Nat.mod_eq_of_lt (show remaining < 128 by omega)]
        exact Nat.mod_eq_of_lt (by omega)
      rw [if_neg hmore, List.singleton_append, decode_prefix_loop_cons _ _ hpower, hbyte, hgroup,
        if_neg (by omega), if_pos (by omega)]

/-- The mask of the encoder for the prefix sizes it is called with. -/
theorem encode_mask (hpos : 0 < size) (hsize : size ≤ 8) :
    0xFF - (0xFF <<< size) % 2 ^ 8 = 2 ^ size - 1 := by
  interval_cases size <;> rfl

/-- Encoding any `usize` writes one integer the decoder accepts with the same flags and value. -/
theorem encode_prefix_spec (hpos : 0 < size) (hsize : size ≤ 8) (buf : List UInt8)
    {flags value : Nat} (hflags : flags < 2 ^ (8 - size)) (hvalue : value < 2 ^ 64) :
    ∃ enc, encode_prefix buf size flags value = ok (buf ++ enc) ∧ PrefixInt size enc flags value := by
  have hmask := encode_mask hpos hsize
  have hword : 2 ^ (8 - size) * 2 ^ size = 2 ^ 8 := by
    rw [← Nat.pow_add]
    congr 1
    omega
  have hhigh : flags * 2 ^ size + 2 ^ size ≤ 2 ^ 8 := by
    rw [← hword, ← Nat.succ_mul]
    exact Nat.mul_le_mul_right _ hflags
  have hone : 1 ≤ 2 ^ size := Nat.one_le_two_pow
  have hshift : (flags <<< size) % 2 ^ 8 = 2 ^ size * flags := by
    rw [Nat.shiftLeft_eq, Nat.mul_comm]
    exact Nat.mod_eq_of_lt (by rw [Nat.mul_comm]; omega)
  have hbyte (low : Nat) (hlow : low < 2 ^ size) :
      (UInt8.ofNat (2 ^ size * flags ||| low)).toNat = 2 ^ size * flags + low := by
    rw [← Nat.two_pow_add_eq_or_of_lt hlow, UInt8.toNat_ofNat']
    exact Nat.mod_eq_of_lt (by rw [Nat.mul_comm]; omega)
  have hdiv (low : Nat) (hlow : low < 2 ^ size) : (2 ^ size * flags + low) / 2 ^ size = flags := by
    rw [Nat.mul_add_div (by omega), Nat.div_eq_of_lt hlow, Nat.add_zero]
  have hmod (low : Nat) (hlow : low < 2 ^ size) : (2 ^ size * flags + low) % 2 ^ size = low := by
    rw [Nat.mul_add_mod, Nat.mod_eq_of_lt hlow]
  unfold encode_prefix
  rw [assert_of ⟨hpos, hsize⟩, ok_bind]
  simp only [hmask, hshift]
  by_cases hshort : value < 2 ^ size - 1
  · rw [if_pos hshort]
    refine ⟨[UInt8.ofNat (2 ^ size * flags ||| value)], rfl, ?_⟩
    rw [PrefixInt, decode_prefix_cons hpos hsize, hbyte value (by omega), hmod value (by omega),
      hdiv value (by omega), if_pos hshort]
  · rw [if_neg hshort]
    refine ⟨_, rfl, ?_⟩
    have hloop : decode_prefix_loop (2 ^ size - 1) 0 (encode_prefix_loop (value - (2 ^ size - 1))) =
        ok (value, []) := by
      rw [← List.append_nil (encode_prefix_loop _), decode_encode_loop _ _ (by decide) (by omega)]
      simp only [Outcome.ok.injEq, Prod.mk.injEq, and_true]
      omega
    rw [PrefixInt, Nat.lor_comm, decode_prefix_cons hpos hsize, hbyte _ (by omega), hmod _ (by omega),
      hdiv _ (by omega), if_neg (by omega), hloop, ok_bind]

end wt_proto.qpack
