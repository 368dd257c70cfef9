import WebTransport.Rust.Buf
import WebTransport.Bits.Basic

open rust rust.Outcome

namespace wt_proto.huffman

/-- The window slid over the payload: `count` bits starting at bit `bit` of byte `byte`.
Its fields are `u32`s. -/
structure BitWindow where
  byte : Nat
  bit : Nat
  count : Nat
  deriving DecidableEq, Repr

inductive Error where
  | MissingBits (window : BitWindow)
  | Unhandled (window : BitWindow) (value : Nat)
  deriving DecidableEq, Repr

namespace BitWindow

def new : BitWindow := ⟨0, 0, 0⟩

/-- Steps over the bits of the last read and asks for the next `step` bits. -/
def forwards (self : BitWindow) (step : Nat) : Outcome Error BitWindow := do
  let bit ← addChecked 32 self.bit self.count
  let byte ← addChecked 32 self.byte (bit / 8)
  ok { byte, bit := bit % 8, count := step }

def opposite_bit_window (self : BitWindow) : BitWindow :=
  { byte := self.byte, bit := self.bit, count := 8 - self.bit % 8 }

/-- Index of the first bit the window covers. -/
def position (self : BitWindow) : Nat := 8 * self.byte + self.bit

/-- Number of bits consumed once the window's own bits are stepped over. -/
def consumed (self : BitWindow) : Nat := self.position + self.count

@[simp] theorem consumed_new : new.consumed = 0 := rfl

/-- Within `u32`, stepping forward puts the window right after the bits it covered. -/
theorem forwards_spec (self : BitWindow) (step : Nat) (hfit : self.consumed < 2 ^ 32) :
    ∃ next, self.forwards step = ok next ∧ next.position = self.consumed ∧
      next.bit < 8 ∧ next.count = step := by
  simp only [consumed, position] at hfit
  have hbit : self.bit + self.count < 2 ^ 32 := by omega
  have hbyte : self.byte + (self.bit + self.count) / 8 < 2 ^ 32 := by omega
  refine ⟨⟨self.byte + (self.bit + self.count) / 8, (self.bit + self.count) % 8, step⟩, ?_, ?_, ?_, rfl⟩
  · simp only [forwards, addChecked_of_lt hbit, ok_bind, addChecked_of_lt hbyte]
  · simp only [consumed, position]
    omega
  · exact Nat.mod_lt _ (by decide)

end BitWindow

/-- Reads `len` bits of `src`. The bound check is done in `u32`: the length of `src` is
truncated to 32 bits, the products and sums are checked. -/
def read_bits (src : List UInt8) (byte_offset bit_offset len : Nat) : Outcome Unit Nat :=
  if len = 0 ∨ len > 8 then err ()
  else do
    let available ← mulChecked 32 (src.length % 2 ^ 32) 8
    let start ← mulChecked 32 byte_offset 8
    let start ← addChecked 32 start bit_offset
    let stop ← addChecked 32 start len
    if available < stop then err ()
    else
      let byte_offset ← addChecked 32 byte_offset (bit_offset / 8)
      let bit_offset := bit_offset - bit_offset / 8 * 8
      if bit_offset + len ≤ 8 then
        let byte ← index src byte_offset
        let shifted ← shlChecked 8 byte.toNat bit_offset
        shrChecked 8 shifted (8 - len)
      else
        let first ← index src byte_offset
        let result := first.toNat <<< 8
        let second ← index src (byte_offset + 1)
        let result := result ||| second.toNat
        let shifted ← shlChecked 16 result bit_offset
        let window ← shrChecked 16 shifted (16 - len)
        ok (window % 2 ^ 8)

/-- Shifting left inside an `n`-bit word and back right cuts out `l` bits after the first `i`. -/
theorem shift_window {x n i l : Nat} (hfit : i + l ≤ n) :
    ((x <<< i) % 2 ^ n) >>> (n - l) = x % 2 ^ (n - i) / 2 ^ (n - i - l) := by
  have hword : 2 ^ n = 2 ^ (n - i) * 2 ^ i := by rw [← Nat.pow_add]; congr 1; omega
  have hlow : 2 ^ (n - l) = 2 ^ (n - i - l) * 2 ^ i := by rw [← Nat.pow_add]; congr 1; omega
  rw [Nat.shiftLeft_eq, Nat.shiftRight_eq_div_pow, hword, hlow, Nat.mul_mod_mul_right,
    Nat.mul_div_mul_right _ _ (Nat.two_pow_pos i)]

private theorem window_in_byte (byte : UInt8) {i l : Nat} (hfit : i + l ≤ 8) :
    ((byte.toNat <<< i) % 2 ^ 8) >>> (8 - l) = bits.value (((bits.ofByte byte).drop i).take l) := by
  rw [bits.value_window, bits.value_ofByte, bits.length_ofByte, shift_window hfit]

private theorem window_in_two_bytes (first second : UInt8) {i l : Nat} (hfit : i + l ≤ 16) :
    (((first.toNat <<< 8 ||| second.toNat) <<< i) % 2 ^ 16) >>> (16 - l) =
      bits.value (((bits.ofByte first ++ bits.ofByte second).drop i).take l) := by
  have hor : first.toNat <<< 8 ||| second.toNat = first.toNat * 2 ^ 8 + second.toNat := by
    rw [Nat.shiftLeft_eq, Nat.mul_comm, Nat.two_pow_add_eq_or_of_lt second.toNat_lt]
  rw [hor, bits.value_window, bits.value_append, bits.value_ofByte, bits.value_ofByte,
    List.length_append, bits.length_ofByte, bits.length_ofByte, shift_window hfit]

private theorem drop_position (src : List UInt8) (byte bit : Nat) :
    (bits.ofBytes src).drop (8 * byte + bit) = (bits.ofBytes (src.drop byte)).drop bit := by
  rw [← List.drop_drop, bits.drop_ofBytes]

/-- A read inside the `u32` range yields exactly the requested bits of the payload, or
fails when the payload, its length truncated to 32 bits, ends before them. -/
theorem read_bits_spec {src : List UInt8} {byte bit len : Nat}
    (hsrc : src.length % 2 ^ 32 < 2 ^ 29) (hpos : 0 < len) (hlen : len ≤ 8) (hbit : bit < 8)
    (hstop : 8 * byte + bit + len < 2 ^ 32) :
    read_bits src byte bit len =
      if 8 * byte + bit + len ≤ 8 * (src.length % 2 ^ 32) then
        ok (bits.value (((bits.ofBytes src).drop (8 * byte + bit)).take len))
      else err () := by
  have havailable : src.length % 2 ^ 32 * 8 < 2 ^ 32 := by omega
  have hstart : byte * 8 < 2 ^ 32 := by omega
  have hoffset : byte * 8 + bit < 2 ^ 32 := by omega
  have hend : byte * 8 + bit + len < 2 ^ 32 := by omega
  rw [read_bits, if_neg (by omega), mulChecked_of_lt havailable, ok_bind, mulChecked_of_lt hstart,
    ok_bind, addChecked_of_lt hoffset, ok_bind, addChecked_of_lt hend, ok_bind]
  by_cases hfit : 8 * byte + bit + len ≤ 8 * (src.length % 2 ^ 32)
  · have htrunc : src.length % 2 ^ 32 ≤ src.length := Nat.mod_le _ _
    have hbyte : byte < src.length := by omega
    have hcarry : byte + bit / 8 < 2 ^ 32 := by omega
    have hdiv : bit / 8 = 0 := Nat.div_eq_of_lt hbit
    rw [if_neg (by omega), if_pos hfit, addChecked_of_lt hcarry, ok_bind, hdiv, drop_position,
      List.drop_eq_getElem_cons hbyte, bits.ofBytes_cons]
    simp only [Nat.add_zero, Nat.zero_mul, Nat.sub_zero]
    by_cases hone : bit + len ≤ 8
    · rw [if_pos hone, index_of_lt hbyte, ok_bind, shlChecked_of_lt hbit, ok_bind,
        shrChecked_of_lt (by omega), window_in_byte _ hone, bits.window_append (by simpa using hone)]
    · have hnext : byte + 1 < src.length := by omega
      have htwo : bit + len ≤ (bits.ofByte src[byte] ++ bits.ofByte src[byte + 1]).length := by
        simp only [List.length_append, bits.length_ofByte]
        omega
      have hsmall : bits.value
          (((bits.ofByte src[byte] ++ bits.ofByte src[byte + 1]).drop bit).take len) < 2 ^ 8 := by
        refine lt_of_lt_of_le (bits.value_lt _) (Nat.pow_le_pow_right (by decide) ?_)
        rw [List.length_take]
        omega
      rw [if_neg hone, index_of_lt hbyte, ok_bind, index_of_lt hnext, ok_bind,
        shlChecked_of_lt (by omega), ok_bind, shrChecked_of_lt (by omega), ok_bind,
        window_in_two_bytes _ _ (by omega), Nat.mod_eq_of_lt hsmall,
        List.drop_eq_getElem_cons hnext, bits.ofBytes_cons, ← List.append_assoc,
        bits.window_append htwo]
  · rw [if_pos (by omega), if_neg hfit]

/-- The bit length of a payload of `2 ^ 29` bytes or more (modulo `2 ^ 32`) overflows. -/
theorem read_bits_panic_of_length {src : List UInt8} {byte bit len : Nat}
    (hsrc : 2 ^ 29 ≤ src.length % 2 ^ 32) (hpos : 0 < len) (hlen : len ≤ 8) :
    read_bits src byte bit len = panic := by
  rw [read_bits, if_neg (by omega), mulChecked_of_le (by omega), panic_bind]

/-- Asking for bits that would end past `u32::MAX` overflows. -/
theorem read_bits_panic_of_stop {src : List UInt8} {byte bit len : Nat}
    (hsrc : src.length % 2 ^ 32 < 2 ^ 29) (hpos : 0 < len) (hlen : len ≤ 8)
    (hbyte : byte < 2 ^ 29) (hbit : bit < 8) (hstop : 2 ^ 32 ≤ 8 * byte + bit + len) :
    read_bits src byte bit len = panic := by
  rw [read_bits, if_neg (by omega), mulChecked_of_lt (by omega), ok_bind, mulChecked_of_lt (by omega),
    ok_bind, addChecked_of_lt (by omega), ok_bind, addChecked_of_le (by omega), panic_bind]

end wt_proto.huffman
