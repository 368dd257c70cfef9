import WebTransport.Qpack.PrefixInt

open rust rust.Outcome

namespace wt_proto.qpack

/-- `enc` is one integer of RFC 7541, section 5.1, whatever its length and its size: a prefix
that holds the value, or a full prefix and groups of seven bits up to the first byte without
the continuation bit. -/
inductive RfcInt (size : Nat) : (enc : List UInt8) → (flags value : Nat) → Prop where
  | short {first : UInt8} (hfirst : first.toNat % 2 ^ size < 2 ^ size - 1) :
      RfcInt size [first] (first.toNat / 2 ^ size) (first.toNat % 2 ^ size)
  | long {first last : UInt8} {groups : List UInt8}
      (hfirst : first.toNat % 2 ^ size = 2 ^ size - 1)
      (hmore : ∀ byte ∈ groups, 128 ≤ byte.toNat) (hlast : last.toNat < 128) :
      RfcInt size (first :: (groups ++ [last])) (first.toNat / 2 ^ size)
        (2 ^ size - 1 + groups_value (groups ++ [last]))

/-- The buffer starts with a full prefix and ten continuation bytes, so its integer, complete
or not, has more than ten bytes after the first. -/
def TooLong (size : Nat) (buf : List UInt8) : Prop :=
  ∃ (first : UInt8) (groups rest : List UInt8), buf = first :: (groups ++ rest) ∧
    first.toNat % 2 ^ size = 2 ^ size - 1 ∧ groups.length = 10 ∧ ∀ byte ∈ groups, 128 ≤ byte.toNat

/-- Every turn of the loop shifts by less than the width and keeps the whole group and the
whole sum. -/
def LosslessLoop (value power : Nat) : List UInt8 → Prop
  | [] => True
  | byte :: buf =>
    power < USIZE_BITS ∧ (byte.toNat &&& 127) <<< power < 2 ^ USIZE_BITS ∧
      value + (byte.toNat &&& 127) <<< power < 2 ^ USIZE_BITS ∧
      (byte.toNat &&& 128 ≠ 0 → power + 7 < MAX_POWER →
        LosslessLoop (value + (byte.toNat &&& 127) <<< power) (power + 7) buf)

/-- No group of the integer at the front loses a bit and no partial sum overflows. -/
def Lossless (size : Nat) : List UInt8 → Prop
  | [] => True
  | first :: buf => first.toNat % 2 ^ size = 2 ^ size - 1 → LosslessLoop (2 ^ size - 1) 0 buf

/-- `decode_prefix` treats the buffer as the RFC's definition of an integer asks. -/
structure DecodesExactly (size : Nat) (buf : List UInt8) : Prop where
  accepted : ∀ flags value rest, decode_prefix buf size = ok ((flags, value), rest) →
    ∃ enc, buf = enc ++ rest ∧ RfcInt size enc flags value
  too_large : ∀ enc flags value rest, buf = enc ++ rest → RfcInt size enc flags value →
    2 ^ USIZE_BITS ≤ value → ∃ e, decode_prefix buf size = err e
  too_long : TooLong size buf → ∃ e, decode_prefix buf size = err e
  lossless : Lossless size buf

/-- The buffer starts with a full prefix and nine continuation bytes, and the seven bits of the
byte after them take the exact value to `2 ^ 64` or above. -/
def TenthOverflow (size : Nat) (buf : List UInt8) : Prop :=
  ∃ (first : UInt8) (groups : List UInt8) (tenth : UInt8) (rest : List UInt8),
    buf = first :: (groups ++ tenth :: rest) ∧ first.toNat % 2 ^ size = 2 ^ size - 1 ∧
    groups.length = 9 ∧ (∀ byte ∈ groups, 128 ≤ byte.toNat) ∧
    2 ^ 64 ≤ 2 ^ size - 1 + groups_value (groups ++ [tenth])

/-- The last group counts for the highest seven bits. -/
theorem groups_value_append_last (groups : List UInt8) (last : UInt8) :
    groups_value (groups ++ [last]) = groups_value groups + last.toNat % 128 * 2 ^ (7 * groups.length) := by
  induction groups with
  | nil => simp [groups_value]
  | cons byte groups ih =>
    rw [List.cons_append, groups_value, groups_value, ih, List.length_cons,
      show 7 * (groups.length + 1) = 7 + 7 * groups.length by omega, Nat.pow_add]
    ring

/-- The continuation bits tell where the groups end. -/
theorem groups_unique {groups groups' rest rest' : List UInt8} {last last' : UInt8}
    (hmore : ∀ byte ∈ groups, 128 ≤ byte.toNat) (hlast : last.toNat < 128)
    (hmore' : ∀ byte ∈ groups', 128 ≤ byte.toNat) (hlast' : last'.toNat < 128)
    (h : groups ++ last :: rest = groups' ++ last' :: rest') :
    groups = groups' ∧ last = last' ∧ rest = rest' := by
  induction groups generalizing groups' with
  | nil =>
    cases groups' with
    | nil =>
      obtain ⟨rfl, rfl⟩ := List.cons.inj h
      exact ⟨rfl, rfl, rfl⟩
    | cons byte' groups' =>
      obtain ⟨rfl, -⟩ := List.cons.inj h
      have := hmore' last List.mem_cons_self
      omega
  | cons byte groups ih =>
    cases groups' with
    | nil =>
      obtain ⟨rfl, -⟩ := List.cons.inj h
      have := hmore byte List.mem_cons_self
      omega
    | cons byte' groups' =>
      obtain ⟨rfl, htail⟩ := List.cons.inj h
      obtain ⟨rfl, rfl, rfl⟩ := ih (fun b hb => hmore b (List.mem_cons_of_mem _ hb))
        (fun b hb => hmore' b (List.mem_cons_of_mem _ hb)) htail
      exact ⟨rfl, rfl, rfl⟩

variable {size : Nat}

/-- At most one integer is at the front of a buffer. -/
theorem RfcInt.unique {enc enc' rest rest' : List UInt8} {flags flags' value value' : Nat}
    (hint : RfcInt size enc flags value) (hint' : RfcInt size enc' flags' value')
    (h : enc ++ rest = enc' ++ rest') : enc = enc' ∧ flags = flags' ∧ value = value' := by
  cases hint with
  | short hfirst =>
    cases hint' with
    | short hfirst' =>
      obtain ⟨rfl, -⟩ := List.cons.inj h
      exact ⟨rfl, rfl, rfl⟩
    | long hfirst' hmore' hlast' =>
      obtain ⟨rfl, -⟩ := List.cons.inj h
      omega
  | long hfirst hmore hlast =>
    cases hint' with
    | short hfirst' =>
      obtain ⟨rfl, -⟩ := List.cons.inj h
      omega
    | long hfirst' hmore' hlast' =>
      simp only [List.cons_append, List.append_assoc, List.nil_append] at h
      obtain ⟨rfl, htail⟩ := List.cons.inj h
      obtain ⟨rfl, rfl, rfl⟩ := groups_unique hmore hlast hmore' hlast' htail
      exact ⟨rfl, rfl, rfl⟩

/-- One turn of the loop, with the masks read as arithmetic. -/
theorem losslessLoop_cons {value power : Nat} (byte : UInt8) (buf : List UInt8) (hpower : power < 64) :
    LosslessLoop value power (byte :: buf) ↔
      value + byte.toNat % 128 * 2 ^ power < 2 ^ 64 ∧ (128 ≤ byte.toNat → power + 7 < 70 →
        LosslessLoop (value + byte.toNat % 128 * 2 ^ power) (power + 7) buf) := by
  rw [LosslessLoop, and_127, Nat.shiftLeft_eq, ne_eq, and_128_eq_zero_iff, Nat.not_lt]
  constructor
  · rintro ⟨-, -, hsum, hnext⟩
    exact ⟨hsum, hnext⟩
  · rintro ⟨hsum, hnext⟩
    exact ⟨hpower, lt_of_le_of_lt (Nat.le_add_left _ _) hsum, hsum, hnext⟩

/-- Continuation bytes whose sum fits are added in full. -/
theorem losslessLoop_groups {value power : Nat} {groups : List UInt8} (tail : List UInt8)
    (hmore : ∀ byte ∈ groups, 128 ≤ byte.toNat) (hpower : power + 7 * groups.length < 70)
    (hfit : value + groups_value groups * 2 ^ power < 2 ^ 64) :
    LosslessLoop value power (groups ++ tail) ↔
      LosslessLoop (value + groups_value groups * 2 ^ power) (power + 7 * groups.length) tail := by
  induction groups generalizing value power with
  | nil => simp [groups_value]
  | cons byte groups ih =>
    simp only [List.mem_cons, forall_eq_or_imp] at hmore
    rw [List.length_cons] at hpower
    rw [groups_value_cons_mul] at hfit ⊢
    rw [List.cons_append, losslessLoop_cons _ _ (by omega), ih hmore.2 (by omega) (by omega),
      List.length_cons, Nat.add_assoc,
      show power + 7 + 7 * groups.length = power + 7 * (groups.length + 1) by omega]
    constructor
    · rintro ⟨-, hnext⟩
      exact hnext hmore.1 (by omega)
    · intro hnext
      exact ⟨by omega, fun _ _ => hnext⟩

/-- The loop on an integer whose last byte is known loses nothing iff its exact value fits. -/
theorem losslessLoop_last (hsize : size ≤ 8) {groups : List UInt8} (last : UInt8) (rest : List UInt8)
    (hlen : groups.length ≤ 9) (hmore : ∀ byte ∈ groups, 128 ≤ byte.toNat)
    (hend : last.toNat < 128 ∨ groups.length = 9) :
    LosslessLoop (2 ^ size - 1) 0 (groups ++ last :: rest) ↔
      2 ^ size - 1 + groups_value (groups ++ [last]) < 2 ^ 64 := by
  have hfit := groups_fit hlen hsize
  rw [losslessLoop_groups _ hmore (by omega) (by simpa using hfit), losslessLoop_cons _ _ (by omega),
    Nat.pow_zero, Nat.mul_one, Nat.zero_add, groups_value_append_last, ← Nat.add_assoc]
  constructor
  · rintro ⟨hsum, -⟩
    exact hsum
  · intro hsum
    refine ⟨hsum, fun hcontinued hbound => ?_⟩
    omega

/-- The exact value of an integer with fewer than ten groups is a `usize`. -/
private theorem exact_fit (hsize : size ≤ 8) {groups : List UInt8} (last : UInt8)
    (hlen : groups.length < 9) : 2 ^ size - 1 + groups_value (groups ++ [last]) < 2 ^ 64 :=
  groups_fit (by rw [List.length_append, List.length_singleton]; omega) hsize

/-- Nothing is lost iff the exact value up to the tenth group is a `usize`. -/
theorem lossless_iff (hsize : size ≤ 8) (buf : List UInt8) :
    Lossless size buf ↔ ¬ TenthOverflow size buf := by
  constructor
  · rintro hlossless ⟨first, groups, tenth, rest, rfl, hfirst, hnine, hmore, hover⟩
    have hexact := (losslessLoop_last hsize tenth rest (by omega) hmore (.inr hnine)).mp (hlossless hfirst)
    omega
  · intro hnot
    cases buf with
    | nil => trivial
    | cons first buf =>
      intro hfirst
      rcases exists_last_group 9 buf with
        ⟨hlen, hmore⟩ | ⟨groups, last, rest, rfl, hlen, hmore, hend⟩
      · have hfit := groups_fit hlen hsize
        rw [← List.append_nil buf, losslessLoop_groups [] hmore (by omega) (by simpa using hfit)]
        trivial
      · rw [losslessLoop_last hsize last rest hlen hmore hend]
        by_cases hnine : groups.length = 9
        · by_contra hover
          exact hnot ⟨first, groups, last, rest, rfl, hfirst, hnine, hmore, not_lt.mp hover⟩
        · exact exact_fit hsize last (by omega)

/-- Below the overflow the decoder has two outcomes: an error, or the integer at the front. -/
theorem decode_prefix_cases (hpos : 0 < size) (hsize : size ≤ 8) {buf : List UInt8}
    (hnot : ¬ TenthOverflow size buf) :
    (∃ e, decode_prefix buf size = err e) ∨
      ∃ enc flags value rest, buf = enc ++ rest ∧ RfcInt size enc flags value ∧ value < 2 ^ 64 ∧
        enc.length ≤ 11 ∧ decode_prefix buf size = ok ((flags, value), rest) := by
  cases buf with
  | nil => exact .inl ⟨_, decode_prefix_nil hsize⟩
  | cons first buf =>
    have hmod : first.toNat % 2 ^ size < 2 ^ size := Nat.mod_lt _ (Nat.two_pow_pos size)
    rw [decode_prefix_cons hpos hsize]
    by_cases hshort : first.toNat % 2 ^ size < 2 ^ size - 1
    · have hbyte := first.toNat_lt
      have hle := Nat.mod_le first.toNat (2 ^ size)
      rw [if_pos hshort]
      exact .inr ⟨[first], _, _, buf, rfl, .short hshort, by omega,
        by rw [List.length_singleton]; omega, rfl⟩
    · have hfirst : first.toNat % 2 ^ size = 2 ^ size - 1 := by omega
      rw [if_neg hshort]
      rcases exists_last_group 9 buf with
        ⟨hlen, hmore⟩ | ⟨groups, last, rest, rfl, hlen, hmore, hend⟩
      · rw [decode_prefix_loop_unfinished hsize hlen hmore, err_bind]
        exact .inl ⟨_, rfl⟩
      · have hexact := (losslessLoop_last hsize last rest hlen hmore hend).mp
          ((lossless_iff hsize _).mpr hnot hfirst)
        rw [groups_value_append_last] at hexact
        rw [decode_prefix_loop_last hsize last rest hlen hmore hend,
          Nat.mod_eq_of_lt (show last.toNat % 128 * 2 ^ (7 * groups.length) < 2 ^ 64 by omega),
          Nat.add_assoc]
        simp only
        rw [if_neg (not_le.mpr hexact)]
        by_cases hlast : last.toNat < 128
        · rw [if_pos hlast, ok_bind, ← groups_value_append_last]
          refine .inr ⟨first :: (groups ++ [last]), _, _, rest, ?_, .long hfirst hmore hlast, ?_, ?_, rfl⟩
          · simp
          · rwa [groups_value_append_last]
          · rw [List.length_cons, List.length_append, List.length_singleton]
            omega
        · rw [if_neg hlast, err_bind]
          exact .inl ⟨_, rfl⟩

/-- An integer behind ten continuation bytes ends after them. -/
theorem TooLong.length_lt {enc rest : List UInt8} {flags value : Nat} (hlong : TooLong size (enc ++ rest))
    (hint : RfcInt size enc flags value) : 11 < enc.length := by
  obtain ⟨first, ten, rest', heq, hfirst, hten, hmore'⟩ := hlong
  cases hint with
  | short hshort =>
    obtain ⟨rfl, -⟩ := List.cons.inj heq
    omega
  | @long first' last groups hfirst' hmore hlast =>
    simp only [List.cons_append, List.append_assoc, List.nil_append] at heq
    obtain ⟨rfl, htail⟩ := List.cons.inj heq
    rw [List.length_cons, List.length_append, List.length_singleton]
    by_contra hle
    rcases List.append_eq_append_iff.mp htail with ⟨more, rfl, hmid⟩ | ⟨more, rfl, hmid⟩
    · cases more with
      | nil =>
        rw [List.append_nil] at hten
        omega
      | cons byte more =>
        obtain ⟨rfl, -⟩ := List.cons.inj hmid
        have := hmore' last (List.mem_append_right _ List.mem_cons_self)
        omega
    · rw [List.length_append] at hle
      omega

/-- Integers are decoded exactly or rejected, except where the tenth byte after the prefix
takes the exact value past `usize`: there its high bits are shifted out. -/
theorem decode_prefix_exact_iff (hpos : 0 < size) (hsize : size ≤ 8) (buf : List UInt8) :
    DecodesExactly size buf ↔ ¬ TenthOverflow size buf := by
  constructor
  · intro hexact
    exact (lossless_iff hsize buf).mp hexact.lossless
  · intro hnot
    refine ⟨?_, ?_, ?_, (lossless_iff hsize buf).mpr hnot⟩
    · intro flags value rest hdecode
      rcases decode_prefix_cases hpos hsize hnot with ⟨e, herr⟩ | ⟨enc, _, _, _, rfl, hint, -, -, hok⟩
      · rw [herr] at hdecode
        cases hdecode
      · rw [hok] at hdecode
        cases hdecode
        exact ⟨enc, rfl, hint⟩
    · intro enc flags value rest heq hint hlarge
      rcases decode_prefix_cases hpos hsize hnot with herr | ⟨enc', _, _, _, rfl, hint', hfit, -, -⟩
      · exact herr
      · obtain ⟨-, -, rfl⟩ := hint'.unique hint heq
        exact absurd hlarge (not_le.mpr hfit)
    · intro hlong
      rcases decode_prefix_cases hpos hsize hnot with herr | ⟨enc, _, _, _, rfl, hint, -, hlen, -⟩
      · exact herr
      · exact absurd hlen (not_le.mpr (hlong.length_lt hint))

/-- The largest value that the loop can get to is decoded exactly. -/
theorem decode_prefix_exact_largest :
    DecodesExactly 8 [0xFF, 0x80, 0xFE, 0xFF, 0xFF, 0xFF, 0xFF, 0xFF, 0xFF, 0xFF, 0x01] := by
  apply (decode_prefix_exact_iff (by decide) (by decide) _).mpr
  rw [← lossless_iff (by decide)]
  simp [Lossless, LosslessLoop, MAX_POWER, USIZE_BITS]

/-- Nine groups of zeros and a tenth that is 2 spell `2 ^ 64 + 255`, and are accepted as 255. -/
theorem decode_prefix_tenth_byte :
    decode_prefix [0xFF, 0x80, 0x80, 0x80, 0x80, 0x80, 0x80, 0x80, 0x80, 0x80, 0x02] 8 =
        ok ((0, 255), []) ∧
      ¬ DecodesExactly 8 [0xFF, 0x80, 0x80, 0x80, 0x80, 0x80, 0x80, 0x80, 0x80, 0x80, 0x02] := by
  have hdecode : decode_prefix [0xFF, 0x80, 0x80, 0x80, 0x80, 0x80, 0x80, 0x80, 0x80, 0x80, 0x02] 8 =
      ok ((0, 255), []) := by decide
  refine ⟨hdecode, fun hexact => ?_⟩
  have hint := @RfcInt.long 8 0xFF 0x02 (List.replicate 9 0x80) (by decide)
    (fun byte hmem => by rw [List.eq_of_mem_replicate hmem]; decide) (by decide)
  obtain ⟨e, herr⟩ := hexact.too_large _ _ _ [] rfl hint (by decide)
  rw [hdecode] at herr
  cases herr

/-- `encode_prefix_loop` with its addition checked in `u8`. -/
def encode_prefix_loop_checked (remaining : Nat) : Outcome Infallible (List UInt8) :=
  if remaining ≥ 128 then do
    let byte ← addChecked 8 (remaining % 128) 128
    let bytes ← encode_prefix_loop_checked (remaining / 128)
    ok (UInt8.ofNat byte :: bytes)
  else ok [UInt8.ofNat remaining]

/-- `encode_prefix` with every shift, addition and subtraction checked in the type the source
computes it in. -/
def encode_prefix_checked (buf : List UInt8) (size flags value : Nat) :
    Outcome Infallible (List UInt8) := do
  assert (size > 0 ∧ size ≤ 8)
  let ones ← shlChecked 32 0xFF size
  let mask := 0xFF - ones % 2 ^ 8
  let flags ← shlChecked USIZE_BITS flags size
  let flags := flags % 2 ^ 8
  if value < mask then ok (buf ++ [UInt8.ofNat (flags ||| value)])
  else
    let remaining ← subChecked value mask
    let bytes ← encode_prefix_loop_checked remaining
    ok (buf ++ UInt8.ofNat (mask ||| flags) :: bytes)

/-- No shift of the encoder goes wrong. -/
theorem encode_prefix_loop_checked_eq (remaining : Nat) :
    encode_prefix_loop_checked remaining = ok (encode_prefix_loop remaining) := by
  induction remaining using Nat.strong_induction_on with
  | _ remaining ih =>
    rw [encode_prefix_loop_checked, encode_prefix_loop]
    split_ifs with hmore
    · rw [addChecked_of_lt (by omega), ok_bind, ih _ (by omega), ok_bind]
    · rfl

/-- No operation of the encoder overflows, whatever the value. -/
theorem encode_prefix_checked_eq (hpos : 0 < size) (hsize : size ≤ 8) (buf : List UInt8)
    {flags : Nat} (hflags : flags < 2 ^ 8) (value : Nat) :
    encode_prefix_checked buf size flags value = encode_prefix buf size flags value := by
  have hpow : 2 ^ size ≤ 2 ^ 8 := Nat.pow_le_pow_right (by decide) hsize
  have hones : 0xFF <<< size < 2 ^ 32 := by
    rw [Nat.shiftLeft_eq]
    omega
  have hshift : flags <<< size < 2 ^ 64 := by
    rw [Nat.shiftLeft_eq]
    exact lt_of_le_of_lt (Nat.mul_le_mul (Nat.le_of_lt_succ hflags) hpow) (by decide)
  unfold encode_prefix_checked encode_prefix
  rw [assert_of ⟨hpos, hsize⟩, ok_bind, ok_bind, shlChecked_of_lt (by omega), ok_bind,
    shlChecked_of_lt (show size < 64 by omega), ok_bind, Nat.mod_eq_of_lt hones, Nat.mod_eq_of_lt hshift]
  simp only
  split_ifs with hshort
  · rfl
  · rw [subChecked_of_le (Nat.not_lt.mp hshort), ok_bind, encode_prefix_loop_checked_eq, ok_bind]

/-- The decoder loses nothing of the groups the encoder wrote. -/
theorem losslessLoop_encode (remaining : Nat) {value power : Nat} (rest : List UInt8)
    (hpower : power < 64) (hfit : value + remaining * 2 ^ power < 2 ^ 64) :
    LosslessLoop value power (encode_prefix_loop remaining ++ rest) := by
  induction remaining using Nat.strong_induction_on generalizing value power with
  | _ remaining ih =>
    rw [encode_prefix_loop]
    split_ifs with hmore
    · have hsplit := group_split remaining power
      rw [List.cons_append, losslessLoop_cons _ _ hpower, continued_toNat, Nat.add_mod_right, Nat.mod_mod]
      exact ⟨by omega, fun _ _ => ih _ (by omega) (group_room hmore hfit) (by omega)⟩
    · have hbyte : (UInt8.ofNat remaining).toNat = remaining := by
        rw [UInt8.toNat_ofNat']
        omega
      rw [List.cons_append, losslessLoop_cons _ _ hpower, hbyte,
        Nat.mod_eq_of_lt (show remaining < 128 by omega)]
      exact ⟨hfit, fun hcontinued => absurd hcontinued (by omega)⟩

/-- The byte the encoder writes first, and what it writes behind it. -/
theorem encode_prefix_shape (hpos : 0 < size) (hsize : size ≤ 8) (buf : List UInt8)
    (flags value : Nat) :
    ∃ first, encode_prefix buf size flags value =
      ok (buf ++ first :: if value < 2 ^ size - 1 then [] else encode_prefix_loop (value - (2 ^ size - 1))) := by
  unfold encode_prefix
  rw [assert_of ⟨hpos, hsize⟩, ok_bind]
  simp only [encode_mask hpos hsize]
  split_ifs
  · exact ⟨_, rfl⟩
  · exact ⟨_, rfl⟩

/-- Whatever follows an encoded `usize`, the decoder returns it with its flags and leaves what
follows, and no operation of either loses anything. -/
theorem decode_prefix_encode_prefix (hpos : 0 < size) (hsize : size ≤ 8) (buf rest : List UInt8)
    {flags value : Nat} (hflags : flags < 2 ^ (8 - size)) (hvalue : value < 2 ^ 64) :
    ∃ enc, encode_prefix buf size flags value = ok (buf ++ enc) ∧
      encode_prefix_checked buf size flags value = ok (buf ++ enc) ∧
      decode_prefix (enc ++ rest) size = ok ((flags, value), rest) ∧ Lossless size (enc ++ rest) := by
  obtain ⟨enc, hencode, hint⟩ := encode_prefix_spec hpos hsize buf hflags hvalue
  have hbyte : flags < 2 ^ 8 := hflags.trans_le (Nat.pow_le_pow_right (by decide) (by omega))
  refine ⟨enc, hencode, ?_, hint.decode hpos hsize rest, ?_⟩
  · rw [encode_prefix_checked_eq hpos hsize buf hbyte, hencode]
  · obtain ⟨first, hshape⟩ := encode_prefix_shape hpos hsize buf flags value
    rw [hencode, Outcome.ok.injEq, List.append_right_inj] at hshape
    split_ifs at hshape with hshort
    · subst hshape
      intro hfirst
      rw [PrefixInt, decode_prefix_cons hpos hsize, if_neg (by omega)] at hint
      cases hint
    · subst hshape
      intro _
      exact losslessLoop_encode _ rest (by decide) (by omega)

/-- The value 1337, with a prefix of five bits, in front of another byte. -/
theorem decode_prefix_encode_prefix_1337 :
    ∃ enc, encode_prefix [] 5 0 1337 = ok ([] ++ enc) ∧ encode_prefix_checked [] 5 0 1337 = ok ([] ++ enc) ∧
      decode_prefix (enc ++ [0xFF]) 5 = ok ((0, 1337), [0xFF]) ∧ Lossless 5 (enc ++ [0xFF]) :=
  decode_prefix_encode_prefix (by decide) (by decide) [] [0xFF] (by decide) (by decide)

end wt_proto.qpack
