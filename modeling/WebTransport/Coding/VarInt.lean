import WebTransport.Quinn.Error
import WebTransport.Rust.Buf

open rust rust.Outcome

namespace wt_proto.coding

/-- A number of at most 62 bits, as both constructors of the source make them. -/
structure VarInt where
  into_inner : Nat
  lt : into_inner < 2 ^ 62
  deriving DecidableEq, Repr

inductive CodingError where
  | ReadExactError (error : quinn.ReadExactError)
  | VarIntMalformed (tag : UInt8)
  | VarIntBoundsExceeded
  | UnexpectedEnd
  deriving DecidableEq, Repr

namespace VarInt

@[ext] theorem ext {x y : VarInt} (h : x.into_inner = y.into_inner) : x = y := by
  cases x
  cases y
  simpa using h

def from_u64 (x : Nat) : Outcome CodingError VarInt :=
  if h : x < 2 ^ 62 then ok ⟨x, h⟩ else err .VarIntBoundsExceeded

def from_u32 (x : UInt32) : VarInt :=
  ⟨x.toNat, lt_of_lt_of_le x.toNat_lt (by decide)⟩

@[simp] theorem from_u64_into_inner (x : VarInt) : from_u64 x.into_inner = ok x :=
  dif_pos x.lt

end VarInt

/-- The branches of `read_varint` for more than one byte: the check that the rest of the
encoding is there, then the copy. -/
def read_tail (first : UInt8) (len : Nat) (buf : List UInt8) :
    Outcome CodingError (Nat × List UInt8) :=
  if buf.length < len then err .UnexpectedEnd
  else do
    let (tail, buf) ← copy_to_bytes buf len
    ok (from_be_bytes (first :: tail), buf)

/-- `VarIntExt::read_varint` for a `Buf`. -/
def read_varint (buf : List UInt8) : Outcome CodingError (VarInt × List UInt8) := do
  let (first, buf) ← get_u8 buf
  let tag := first >>> 6
  let first := first &&& 0b0011_1111
  let (val, buf) ←
    if tag = 0b00 then ok (first.toNat, buf)
    else if tag = 0b01 then read_tail first 1 buf
    else if tag = 0b10 then read_tail first 3 buf
    else if tag = 0b11 then read_tail first 7 buf
    else err (.VarIntMalformed tag)
  let x ← VarInt.from_u64 val
  ok (x, buf)

/-- `VarIntMutExt::write_varint`, whose `unreachable!` is the panic. -/
def write_varint (buf : List UInt8) (x : Nat) : Outcome Empty (List UInt8) :=
  if x < 2 ^ 6 then ok (buf ++ to_be_bytes 1 (x % 2 ^ 8))
  else if x < 2 ^ 14 then ok (buf ++ to_be_bytes 2 (0b01 <<< 14 ||| x % 2 ^ 16))
  else if x < 2 ^ 30 then ok (buf ++ to_be_bytes 4 (0b10 <<< 30 ||| x % 2 ^ 32))
  else if x < 2 ^ 62 then ok (buf ++ to_be_bytes 8 (0b11 <<< 62 ||| x))
  else .panic

/-- `enc` is an encoding of `x`: as many bytes as the two tag bits tell, which hold `x` in
the remaining bits. -/
inductive Encodes : (enc : List UInt8) → VarInt → Prop where
  | intro {first : UInt8} {tail : List UInt8} {x : VarInt}
      (hlen : tail.length + 1 = 2 ^ (first.toNat / 64))
      (hvalue : x.into_inner = first.toNat % 64 * 256 ^ tail.length + from_be_bytes tail) :
      Encodes (first :: tail) x

theorem width_le (first : UInt8) : 2 ^ (first.toNat / 64) ≤ 8 := by
  have hlt := first.toNat_lt
  have htag : first.toNat / 64 ≤ 3 := by omega
  exact Nat.pow_le_pow_right (Nat.succ_pos 1) htag

/-- An encoding is at most eight bytes long. -/
theorem Encodes.length_le {enc : List UInt8} {x : VarInt} (henc : Encodes enc x) : enc.length ≤ 8 := by
  obtain @⟨first, tail, x, hlen, hvalue⟩ := henc
  have hwidth := width_le first
  rw [List.length_cons]
  omega

/-- An encoding that was cut off after its first byte. -/
def CutOff (buf : List UInt8) : Prop :=
  ∃ first tail, buf = first :: tail ∧ tail.length + 1 < 2 ^ (first.toNat / 64)

theorem Encodes.ne_nil {enc : List UInt8} {x : VarInt} (henc : Encodes enc x) : enc ≠ [] := by
  obtain ⟨hlen, hvalue⟩ := henc
  exact List.cons_ne_nil _ _

/-- No complete encoding is at the front. -/
def Incomplete (buf : List UInt8) : Prop := buf = [] ∨ CutOff buf

theorem CutOff.ne_nil {buf : List UInt8} (hcut : CutOff buf) : buf ≠ [] := by
  obtain ⟨first, tail, rfl, -⟩ := hcut
  exact List.cons_ne_nil _ _

/-- A buffer starts with a complete encoding, or it is empty, or an encoding is cut off. -/
theorem encodes_cases (buf : List UInt8) :
    buf = [] ∨ CutOff buf ∨ ∃ enc x rest, buf = enc ++ rest ∧ Encodes enc x := by
  cases buf with
  | nil => exact .inl rfl
  | cons first tail =>
    by_cases hlen : tail.length + 1 < 2 ^ (first.toNat / 64)
    · exact .inr (.inl ⟨first, tail, rfl, hlen⟩)
    · have hpos := Nat.two_pow_pos (first.toNat / 64)
      have htake : (tail.take (2 ^ (first.toNat / 64) - 1)).length + 1 = 2 ^ (first.toNat / 64) := by
        rw [List.length_take]
        omega
      have hwidth := width_le first
      have hbytes := from_be_bytes_lt (tail.take (2 ^ (first.toNat / 64) - 1))
      have hpow : 256 ^ (tail.take (2 ^ (first.toNat / 64) - 1)).length ≤ 256 ^ 7 :=
        Nat.pow_le_pow_right (by decide) (by omega)
      have hhead : first.toNat % 64 * 256 ^ (tail.take (2 ^ (first.toNat / 64) - 1)).length ≤
          63 * 256 ^ (tail.take (2 ^ (first.toNat / 64) - 1)).length :=
        Nat.mul_le_mul_right _ (by omega)
      refine .inr (.inr ⟨first :: tail.take (2 ^ (first.toNat / 64) - 1), ⟨_, ?_⟩,
        tail.drop (2 ^ (first.toNat / 64) - 1), by simp, .intro htake rfl⟩)
      omega

/-- The shift takes the two bits of the length. -/
theorem tag_eq_iff (first tag : UInt8) : first >>> 6 = tag ↔ first.toNat / 64 = tag.toNat := by
  rw [← UInt8.toNat_inj, UInt8.toNat_shiftRight, Nat.shiftRight_eq_div_pow]
  rfl

/-- The mask leaves the six bits of the value. -/
theorem toNat_and_63 (first : UInt8) : (first &&& 0b0011_1111).toNat = first.toNat % 64 := by
  rw [UInt8.toNat_and]
  exact Nat.and_two_pow_sub_one_eq_mod first.toNat 6

private theorem read_tail_eq (first : UInt8) (len : Nat) (buf : List UInt8) :
    read_tail first len buf =
      if buf.length < len then err .UnexpectedEnd
      else ok (first.toNat * 256 ^ len + from_be_bytes (buf.take len), buf.drop len) := by
  unfold read_tail
  by_cases hshort : buf.length < len
  · rw [if_pos hshort, if_pos hshort]
  · have htake : (buf.take len).length = len := by
      rw [List.length_take]
      omega
    rw [if_neg hshort, if_neg hshort, copy_to_bytes_of_le (Nat.le_of_not_lt hshort), ok_bind]
    simp only [from_be_bytes_cons, htake]

/-- All four branches at once, by the number of bytes the tag announces. -/
theorem read_varint_cons (first : UInt8) (buf : List UInt8) :
    read_varint (first :: buf) =
      let len := 2 ^ (first.toNat / 64) - 1
      if buf.length < len then err .UnexpectedEnd
      else (do
        let x ← VarInt.from_u64 (first.toNat % 64 * 256 ^ len + from_be_bytes (buf.take len))
        ok (x, buf.drop len)) := by
  have hlt := first.toNat_lt
  unfold read_varint
  rw [get_u8_cons, ok_bind]
  simp only [read_tail_eq, toNat_and_63, tag_eq_iff, UInt8.reduceToNat]
  obtain htag | htag | htag | htag : first.toNat / 64 = 0 ∨ first.toNat / 64 = 1 ∨
      first.toNat / 64 = 2 ∨ first.toNat / 64 = 3 := by omega
  · simp [htag]
  · have hlen : 2 ^ (first.toNat / 64) - 1 = 1 := by simp only [htag, Nat.reducePow, Nat.reduceSub]
    rw [hlen, htag, if_neg (by decide), if_pos rfl]
    split_ifs
    · rw [err_bind]
    · rw [ok_bind]
  · have hlen : 2 ^ (first.toNat / 64) - 1 = 3 := by simp only [htag, Nat.reducePow, Nat.reduceSub]
    rw [hlen, htag, if_neg (by decide), if_neg (by decide), if_pos rfl]
    split_ifs
    · rw [err_bind]
    · rw [ok_bind]
  · have hlen : 2 ^ (first.toNat / 64) - 1 = 7 := by simp only [htag, Nat.reducePow, Nat.reduceSub]
    rw [hlen, htag, if_neg (by decide), if_neg (by decide), if_neg (by decide), if_pos rfl]
    split_ifs
    · rw [err_bind]
    · rw [ok_bind]

/-- The reader takes an encoding of any of the four lengths, and no byte behind it. -/
theorem read_varint_of_encodes {enc : List UInt8} {x : VarInt} (henc : Encodes enc x)
    (rest : List UInt8) : read_varint (enc ++ rest) = ok (x, rest) := by
  obtain @⟨first, tail, x, hlen, hvalue⟩ := henc
  have hwidth : 2 ^ (first.toNat / 64) - 1 = tail.length := by omega
  rw [List.cons_append, read_varint_cons]
  simp only [hwidth, List.length_append, if_neg (show ¬ tail.length + rest.length < tail.length by omega),
    List.take_left, List.drop_left, ← hvalue, VarInt.from_u64_into_inner, ok_bind]

theorem read_varint_of_cutOff {buf : List UInt8} (hcut : CutOff buf) :
    read_varint buf = err .UnexpectedEnd := by
  obtain ⟨first, tail, rfl, hlen⟩ := hcut
  rw [read_varint_cons, if_pos (by omega)]

@[simp] theorem read_varint_nil : read_varint [] = .panic := rfl

private theorem or_eq_add {x width tag : Nat} (h : x < 2 ^ width) :
    tag <<< width ||| x = tag * 2 ^ width + x := by
  rw [← Nat.shiftLeft_add_eq_or_of_lt h, Nat.shiftLeft_eq]

/-- A number of `8 * width` bits whose top two bits are the tag of its width. -/
private theorem encodes_to_be_bytes {width tag : Nat} {x : VarInt} (hwidth : width + 1 = 2 ^ tag)
    (htag : tag < 4) (hx : x.into_inner < 64 * 256 ^ width) :
    Encodes (to_be_bytes (width + 1) (tag * (64 * 256 ^ width) + x.into_inner)) x := by
  have hpos : 0 < 256 ^ width := Nat.pow_pos (by decide)
  have hsplit : (tag * (64 * 256 ^ width) + x.into_inner) / 256 ^ width =
      tag * 64 + x.into_inner / 256 ^ width := by
    rw [← Nat.mul_assoc, Nat.mul_comm _ (256 ^ width), Nat.mul_add_div hpos]
  have hjoin : x.into_inner = x.into_inner / 256 ^ width * 256 ^ width + x.into_inner % 256 ^ width :=
    (Nat.div_add_mod' _ _).symm
  have hhigh : x.into_inner / 256 ^ width < 64 := Nat.div_lt_of_lt_mul (by rwa [Nat.mul_comm])
  have hlow : (tag * (64 * 256 ^ width) + x.into_inner) % 256 ^ width =
      x.into_inner % 256 ^ width := by
    rw [← Nat.mul_assoc, Nat.mul_add_mod_self_right]
  rw [to_be_bytes, hsplit]
  generalize x.into_inner / 256 ^ width = high at hjoin hhigh ⊢
  have hfirst : (UInt8.ofNat (tag * 64 + high)).toNat = tag * 64 + high := by
    rw [UInt8.toNat_ofNat']
    exact Nat.mod_eq_of_lt (by omega)
  have htag : (tag * 64 + high) / 64 = tag := by omega
  have hmod : (tag * 64 + high) % 64 = high := by omega
  refine .intro ?_ ?_
  · rw [length_to_be_bytes, hfirst, hwidth, htag]
  · rw [length_to_be_bytes, from_be_bytes_to_be_bytes, hfirst, hlow, hmod]
    exact hjoin

/-- No encoding is the beginning of another one. -/
theorem Encodes.unique {enc enc' rest rest' : List UInt8} {x x' : VarInt} (henc : Encodes enc x)
    (henc' : Encodes enc' x') (h : enc ++ rest = enc' ++ rest') : enc = enc' ∧ x = x' ∧ rest = rest' := by
  have hread := read_varint_of_encodes henc rest
  rw [h, read_varint_of_encodes henc'] at hread
  cases hread
  exact ⟨List.append_cancel_right h, rfl, rfl⟩

/-- An encoding is complete, whatever follows it. -/
theorem Encodes.not_incomplete {enc : List UInt8} {x : VarInt} (henc : Encodes enc x)
    (rest : List UInt8) : ¬ Incomplete (enc ++ rest) := by
  have hread := read_varint_of_encodes henc rest
  rintro (hnil | hcut)
  · exact henc.ne_nil (List.append_eq_nil_iff.mp hnil).1
  · rw [read_varint_of_cutOff hcut] at hread
    cases hread

/-- Every buffer starts with an encoding, or it is the beginning of one. -/
theorem encodes_or_incomplete (buf : List UInt8) :
    Incomplete buf ∨ ∃ enc x rest, buf = enc ++ rest ∧ Encodes enc x := by
  obtain hnil | hcut | hcomplete := encodes_cases buf
  · exact .inl (.inl hnil)
  · exact .inl (.inr hcut)
  · exact .inr hcomplete

/-- Writing never fails, and it writes one encoding. -/
theorem write_varint_spec (buf : List UInt8) (x : VarInt) :
    ∃ enc, write_varint buf x.into_inner = ok (buf ++ enc) ∧ Encodes enc x := by
  have hlt := x.lt
  unfold write_varint
  split_ifs with h6 h14 h30
  · refine ⟨_, rfl, ?_⟩
    have henc := @encodes_to_be_bytes 0 0 x rfl (by decide) (by omega)
    rw [Nat.zero_mul, Nat.zero_add, Nat.zero_add] at henc
    rwa [Nat.mod_eq_of_lt (by omega)]
  · refine ⟨_, rfl, ?_⟩
    have henc := @encodes_to_be_bytes 1 1 x rfl (by decide) (by omega)
    rwa [Nat.mod_eq_of_lt (by omega), or_eq_add h14]
  · refine ⟨_, rfl, ?_⟩
    have henc := @encodes_to_be_bytes 3 2 x rfl (by decide) (by omega)
    rwa [Nat.mod_eq_of_lt (by omega), or_eq_add h30]
  · refine ⟨_, rfl, ?_⟩
    have henc := @encodes_to_be_bytes 7 3 x rfl (by decide) (by omega)
    rwa [or_eq_add hlt]

/-- The four lengths of an encoding, in bytes. -/
def widths : List Nat := [1, 2, 4, 8]

/-- No smaller width leaves room for the number beside the tag. -/
structure Shortest (x : VarInt) (width : Nat) : Prop where
  legal : width ∈ widths
  holds : x.into_inner < 2 ^ (8 * width - 2)
  least : ∀ width' ∈ widths, x.into_inner < 2 ^ (8 * width' - 2) → width ≤ width'

private theorem shortest_of_le {x : VarInt} {width : Nat} (hlegal : width ∈ widths)
    (hholds : x.into_inner < 2 ^ (8 * width - 2))
    (hbelow : ∀ width' ∈ widths, width' < width → 2 ^ (8 * width' - 2) ≤ x.into_inner) :
    Shortest x width := by
  refine ⟨hlegal, hholds, fun width' hlegal' hholds' => ?_⟩
  by_contra hlt
  have := hbelow width' hlegal' (not_le.mp hlt)
  omega

/-- The writer takes the shortest of the four lengths. -/
theorem write_varint_shortest {buf enc : List UInt8} {x : VarInt}
    (hwrite : write_varint buf x.into_inner = ok (buf ++ enc)) : Shortest x enc.length := by
  have hlt := x.lt
  have hlength {width value : Nat} (h : (ok (buf ++ to_be_bytes width value) : Outcome Empty (List UInt8)) =
      ok (buf ++ enc)) : enc.length = width := by
    rw [Outcome.ok.injEq, List.append_right_inj] at h
    rw [← h, length_to_be_bytes]
  unfold write_varint at hwrite
  split_ifs at hwrite with h6 h14 h30
  · rw [hlength hwrite]
    apply shortest_of_le (by simp [widths]) h6
    simp [widths]
  · rw [hlength hwrite]
    apply shortest_of_le (by simp [widths]) h14
    simpa [widths] using h6
  · rw [hlength hwrite]
    apply shortest_of_le (by simp [widths]) h30
    simp only [widths, List.mem_cons, List.not_mem_nil, or_false]
    rintro width' (rfl | rfl | rfl | rfl) hbelow <;> omega
  · rw [hlength hwrite]
    apply shortest_of_le (by simp [widths]) hlt
    simp only [widths, List.mem_cons, List.not_mem_nil, or_false]
    rintro width' (rfl | rfl | rfl | rfl) hbelow <;> omega

end wt_proto.coding
