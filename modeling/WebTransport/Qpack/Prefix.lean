import Mathlib.Tactic.IntervalCases
import WebTransport.Huffman.Window

open rust rust.Outcome

namespace wt_proto.qpack

inductive DecodeError where
  | UnexpectedEnd
  | BoundsExceeded
  | DynamicEntry
  | UnknownEntry
  | HuffmanError (error : huffman.Error)
  | Utf8Error
  deriving DecidableEq, Repr

/-- Encoders return no `Result`. -/
abbrev Infallible := Empty

/-- The `usize` of the 64-bit targets. -/
abbrev USIZE_BITS : Nat := 64

def MAX_POWER : Nat := 10 * 7

/-- The loop over the continuation bytes of a prefix integer. -/
def decode_prefix_loop (value power : Nat) :
    List UInt8 → Outcome DecodeError (Nat × List UInt8)
  | [] => err .UnexpectedEnd
  | byte :: buf => do
    let group ← shlChecked USIZE_BITS (byte.toNat &&& 127) power
    let value ← addChecked USIZE_BITS value group
    let power := power + 7
    if byte.toNat &&& 128 = 0 then ok (value, buf)
    else if power ≥ MAX_POWER then err .BoundsExceeded
    else decode_prefix_loop value power buf

def decode_prefix (buf : List UInt8) (size : Nat) :
    Outcome DecodeError ((Nat × Nat) × List UInt8) := do
  assert (size ≤ 8)
  match buf with
  | [] => err .UnexpectedEnd
  | first :: buf =>
    let flags := (first.toNat >>> size) % 2 ^ 8
    let mask ← shrChecked 8 0xFF (8 - size)
    let first := first.toNat &&& mask
    if first < mask then ok ((flags, first), buf)
    else
      let (value, buf) ← decode_prefix_loop mask 0 buf
      ok ((flags, value), buf)

/-- The loop writing what is left of a value after the prefix, seven bits a byte. -/
def encode_prefix_loop (remaining : Nat) : List UInt8 :=
  if remaining ≥ 128 then
    UInt8.ofNat (remaining % 128 + 128) :: encode_prefix_loop (remaining / 128)
  else [UInt8.ofNat remaining]

def encode_prefix (buf : List UInt8) (size flags value : Nat) :
    Outcome Infallible (List UInt8) := do
  assert (size > 0 ∧ size ≤ 8)
  -- `0xFF << size` is computed in `i32` and complemented before the cast to `u8`.
  let mask := 0xFF - (0xFF <<< size) % 2 ^ 8
  let flags := (flags <<< size) % 2 ^ 8
  if value < mask then ok (buf ++ [UInt8.ofNat (flags ||| value)])
  else ok (buf ++ UInt8.ofNat (mask ||| flags) :: encode_prefix_loop (value - mask))

/-- The number a sequence of seven-bit groups spells, least significant group first. -/
def groups_value : List UInt8 → Nat
  | [] => 0
  | byte :: groups => byte.toNat % 128 + 128 * groups_value groups

/-- The first group counts for the lowest seven bits. -/
theorem groups_value_cons_mul (byte : UInt8) (groups : List UInt8) (power : Nat) :
    groups_value (byte :: groups) * 2 ^ power =
      byte.toNat % 128 * 2 ^ power + groups_value groups * 2 ^ (power + 7) := by
  rw [groups_value, Nat.pow_add]
  ring

/-- Each group has seven bits. -/
theorem groups_value_lt (groups : List UInt8) : groups_value groups < 2 ^ (7 * groups.length) := by
  induction groups with
  | nil => simp [groups_value]
  | cons byte groups ih =>
    rw [groups_value, List.length_cons, Nat.mul_succ, Nat.pow_add]
    omega

theorem and_127 (byte : UInt8) : byte.toNat &&& 127 = byte.toNat % 128 :=
  Nat.and_two_pow_sub_one_eq_mod byte.toNat 7

/-- The mask tells whether another group comes. -/
theorem and_128_eq_zero_iff (byte : UInt8) : byte.toNat &&& 128 = 0 ↔ byte.toNat < 128 := by
  have hlt := byte.toNat_lt
  rw [show 128 = 2 ^ 7 from rfl, Nat.and_two_pow, Nat.testBit_eq_decide_div_mod_eq]
  simp only [Nat.mul_eq_zero, Bool.toNat_eq_zero, decide_eq_false_iff_not, Nat.reducePow,
    OfNat.ofNat_ne_zero, or_false]
  omega

/-- One turn of the loop, with the masks read as arithmetic. -/
theorem decode_prefix_loop_cons {value power : Nat} (byte : UInt8) (buf : List UInt8)
    (hpower : power < 64) :
    decode_prefix_loop value power (byte :: buf) =
      if 2 ^ 64 ≤ value + byte.toNat % 128 * 2 ^ power % 2 ^ 64 then panic
      else if byte.toNat < 128 then ok (value + byte.toNat % 128 * 2 ^ power % 2 ^ 64, buf)
      else if 70 ≤ power + 7 then err .BoundsExceeded
      else decode_prefix_loop (value + byte.toNat % 128 * 2 ^ power % 2 ^ 64) (power + 7) buf := by
  rw [decode_prefix_loop, and_127, shlChecked_of_lt hpower, ok_bind, Nat.shiftLeft_eq]
  simp only [and_128_eq_zero_iff, MAX_POWER, ge_iff_le, USIZE_BITS]
  by_cases hfit : value + byte.toNat % 128 * 2 ^ power % 2 ^ 64 < 2 ^ 64
  · rw [addChecked_of_lt hfit, ok_bind, if_neg (show ¬ 2 ^ 64 ≤ _ by omega)]
  · rw [addChecked_of_le (by omega), panic_bind, if_pos (show 2 ^ 64 ≤ _ by omega)]

/-- The mask of the decoder for the prefix sizes it is called with. -/
private theorem decode_mask {size : Nat} (hpos : 0 < size) (hsize : size ≤ 8) :
    (shrChecked 8 0xFF (8 - size) : Outcome DecodeError Nat) = ok (2 ^ size - 1) := by
  interval_cases size <;> rfl

/-- `decode_prefix` on a nonempty buffer, with shifts and masks read as arithmetic. -/
theorem decode_prefix_cons {size : Nat} (hpos : 0 < size) (hsize : size ≤ 8) (first : UInt8)
    (buf : List UInt8) :
    decode_prefix (first :: buf) size =
      if first.toNat % 2 ^ size < 2 ^ size - 1 then
        ok ((first.toNat / 2 ^ size, first.toNat % 2 ^ size), buf)
      else (do
        let (value, buf) ← decode_prefix_loop (2 ^ size - 1) 0 buf
        ok ((first.toNat / 2 ^ size, value), buf)) := by
  have hflags : first.toNat / 2 ^ size % 2 ^ 8 = first.toNat / 2 ^ size :=
    Nat.mod_eq_of_lt (lt_of_le_of_lt (Nat.div_le_self _ _) first.toNat_lt)
  unfold decode_prefix
  rw [assert_of hsize, ok_bind]
  simp only [decode_mask hpos hsize, ok_bind, Nat.and_two_pow_sub_one_eq_mod,
    Nat.shiftRight_eq_div_pow, hflags]

@[simp] theorem decode_prefix_nil {size : Nat} (hsize : size ≤ 8) :
    decode_prefix [] size = err .UnexpectedEnd := by
  unfold decode_prefix
  rw [assert_of hsize, ok_bind]

end wt_proto.qpack
