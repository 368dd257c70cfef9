import Mathlib.Tactic.Ring
import WebTransport.Rust.Outcome

namespace rust

open Outcome

variable {ε : Type}

/-- `Buf::get_u8` on the unread bytes: it panics when nothing is left. -/
def get_u8 : List UInt8 → Outcome ε (UInt8 × List UInt8)
  | [] => panic
  | byte :: buf => ok (byte, buf)

/-- `Buf::copy_to_slice` and `Buf::copy_to_bytes`: they take exactly `len` bytes off the
front, and panic when fewer remain. -/
def copy_to_bytes (buf : List UInt8) (len : Nat) : Outcome ε (List UInt8 × List UInt8) :=
  if len ≤ buf.length then ok (buf.take len, buf.drop len) else panic

/-- What `Chain::into_inner` gives back as its second half, when `unread` bytes are left of
the chain of a first half and `last`. Bytes of the first half nobody read are dropped. -/
def chain_into_last (last unread : List UInt8) : List UInt8 :=
  unread.drop (unread.length - last.length)

/-- `slice[i]`. -/
def index (slice : List UInt8) (i : Nat) : Outcome ε UInt8 :=
  match slice[i]? with
  | some byte => ok byte
  | none => panic

/-- `from_be_bytes`: the bytes as one big-endian number. -/
def from_be_bytes (bytes : List UInt8) : Nat :=
  bytes.foldl (fun value byte => value * 256 + byte.toNat) 0

/-- `to_be_bytes` of a number of `width` bytes. -/
def to_be_bytes : (width : Nat) → Nat → List UInt8
  | 0, _ => []
  | width + 1, x => UInt8.ofNat (x / 256 ^ width) :: to_be_bytes width x

@[simp] theorem get_u8_cons (byte : UInt8) (buf : List UInt8) :
    (get_u8 (byte :: buf) : Outcome ε _) = ok (byte, buf) := rfl

@[simp] theorem get_u8_nil : (get_u8 [] : Outcome ε _) = panic := rfl

@[simp] theorem copy_to_bytes_append (payload rest : List UInt8) :
    (copy_to_bytes (payload ++ rest) payload.length : Outcome ε _) = ok (payload, rest) := by
  simp [copy_to_bytes]

theorem copy_to_bytes_of_le {buf : List UInt8} {len : Nat} (h : len ≤ buf.length) :
    (copy_to_bytes buf len : Outcome ε _) = ok (buf.take len, buf.drop len) :=
  if_pos h

/-- As soon as the first half is used up, the chain's unread bytes are those of the last. -/
theorem chain_into_last_of_le {last unread : List UInt8} (h : unread.length ≤ last.length) :
    chain_into_last last unread = unread := by
  simp [chain_into_last, Nat.sub_eq_zero_of_le h]

@[simp] theorem from_be_bytes_nil : from_be_bytes [] = 0 := rfl

private theorem foldl_be (bytes : List UInt8) (value : Nat) :
    bytes.foldl (fun value byte => value * 256 + byte.toNat) value =
      value * 256 ^ bytes.length + from_be_bytes bytes := by
  induction bytes generalizing value with
  | nil => simp
  | cons byte bytes ih =>
    rw [from_be_bytes, List.foldl_cons, List.foldl_cons, ih, ih, List.length_cons, Nat.pow_succ]
    ring

/-- The first byte weighs most. -/
theorem from_be_bytes_cons (byte : UInt8) (bytes : List UInt8) :
    from_be_bytes (byte :: bytes) = byte.toNat * 256 ^ bytes.length + from_be_bytes bytes := by
  rw [from_be_bytes, List.foldl_cons, foldl_be, Nat.zero_mul, Nat.zero_add]

/-- So many bytes hold a number of as many digits to the base 256. -/
theorem from_be_bytes_lt (bytes : List UInt8) : from_be_bytes bytes < 256 ^ bytes.length := by
  induction bytes with
  | nil => simp
  | cons byte bytes ih =>
    have hbyte := byte.toNat_lt
    have hle : byte.toNat * 256 ^ bytes.length ≤ 255 * 256 ^ bytes.length :=
      Nat.mul_le_mul_right _ (by omega)
    rw [from_be_bytes_cons, List.length_cons, Nat.pow_succ]
    omega

@[simp] theorem length_to_be_bytes (width x : Nat) : (to_be_bytes width x).length = width := by
  induction width with
  | zero => rfl
  | succ width ih => rw [to_be_bytes, List.length_cons, ih]

/-- A number is read back up to the width it was written with. -/
@[simp] theorem from_be_bytes_to_be_bytes (width x : Nat) :
    from_be_bytes (to_be_bytes width x) = x % 256 ^ width := by
  induction width with
  | zero => simp [to_be_bytes, Nat.mod_one]
  | succ width ih =>
    have hsplit : x / 256 ^ width % 256 = x % 256 ^ (width + 1) / 256 ^ width := by
      rw [Nat.pow_succ, Nat.mod_mul_right_div_self]
    have hlow : x % 256 ^ (width + 1) % 256 ^ width = x % 256 ^ width :=
      Nat.mod_mod_of_dvd x (Nat.pow_dvd_pow 256 (Nat.le_succ width))
    rw [to_be_bytes, from_be_bytes_cons, ih, length_to_be_bytes, UInt8.toNat_ofNat', hsplit, ← hlow]
    exact Nat.div_add_mod' _ _

theorem index_of_lt {slice : List UInt8} {i : Nat} (h : i < slice.length) :
    (index slice i : Outcome ε _) = ok slice[i] := by
  simp [index, h]

end rust
