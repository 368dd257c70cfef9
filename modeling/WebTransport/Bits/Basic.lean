import Mathlib.Data.Nat.Bitwise
import Mathlib.Data.List.Basic
import Mathlib.Tactic.Ring
import Mathlib.Tactic.Common

namespace bits

/-- The number a bit string spells, most significant bit first. -/
def value : List Bool → Nat
  | [] => 0
  | bit :: bs => bit.toNat * 2 ^ bs.length + value bs

/-- The low `width` bits of a number, most significant bit first. -/
def ofNat : (width n : Nat) → List Bool
  | 0, _ => []
  | width + 1, n => n.testBit width :: ofNat width n

/-- The eight bits of a byte, most significant bit first. -/
def ofByte (byte : UInt8) : List Bool := ofNat 8 byte.toNat

/-- The bits of a byte string in reading order. -/
def ofBytes (bytes : List UInt8) : List Bool := bytes.flatMap ofByte

@[simp] theorem value_nil : value [] = 0 := rfl

@[simp] theorem value_cons (bit : Bool) (bs : List Bool) :
    value (bit :: bs) = bit.toNat * 2 ^ bs.length + value bs := rfl

/-- A bit string stands for a number of at most as many bits. -/
theorem value_lt (bs : List Bool) : value bs < 2 ^ bs.length := by
  induction bs with
  | nil => simp
  | cons bit bs ih =>
    have hbit : bit.toNat ≤ 1 := Bool.toNat_le bit
    have hmul : bit.toNat * 2 ^ bs.length ≤ 1 * 2 ^ bs.length := Nat.mul_le_mul_right _ hbit
    simp only [value_cons, List.length_cons, Nat.pow_succ]
    omega

/-- The bits in front weigh more than those behind them. -/
theorem value_append (as bs : List Bool) :
    value (as ++ bs) = value as * 2 ^ bs.length + value bs := by
  induction as with
  | nil => simp
  | cons bit as ih =>
    simp only [List.cons_append, value_cons, ih, List.length_append, Nat.pow_add]
    ring

/-- Cut anywhere, the bits in front are the quotient and those behind the remainder. -/
theorem value_split (bs : List Bool) (k : Nat) :
    value bs = value (bs.take k) * 2 ^ (bs.length - k) + value (bs.drop k) ∧
      value (bs.drop k) < 2 ^ (bs.length - k) := by
  have hlt := value_lt (bs.drop k)
  have hsplit := value_append (bs.take k) (bs.drop k)
  rw [List.take_append_drop, List.length_drop] at hsplit
  rw [List.length_drop] at hlt
  exact ⟨hsplit, hlt⟩

/-- The bits in front of a cut are the quotient. -/
theorem value_take (bs : List Bool) (k : Nat) :
    value (bs.take k) = value bs / 2 ^ (bs.length - k) := by
  obtain ⟨hsplit, hlt⟩ := value_split bs k
  rw [hsplit, Nat.add_comm, Nat.add_mul_div_right _ _ (Nat.two_pow_pos _), Nat.div_eq_of_lt hlt,
    Nat.zero_add]

theorem value_drop (bs : List Bool) (k : Nat) :
    value (bs.drop k) = value bs % 2 ^ (bs.length - k) := by
  obtain ⟨hsplit, hlt⟩ := value_split bs k
  rw [hsplit, Nat.add_comm, Nat.add_mul_mod_self_right, Nat.mod_eq_of_lt hlt]

/-- A window of `len` bits at `start`, cut out of the number the bits spell. -/
theorem value_window (bs : List Bool) (start len : Nat) :
    value ((bs.drop start).take len) =
      value bs % 2 ^ (bs.length - start) / 2 ^ (bs.length - start - len) := by
  rw [value_take, value_drop, List.length_drop]

theorem window_append {as : List Bool} {start len : Nat} (hfit : start + len ≤ as.length)
    (bs : List Bool) : ((as ++ bs).drop start).take len = (as.drop start).take len := by
  rw [List.drop_append_of_le_length (by omega),
    List.take_append_of_le_length (by rw [List.length_drop]; omega)]

@[simp] theorem length_ofNat (width n : Nat) : (ofNat width n).length = width := by
  induction width with
  | zero => rfl
  | succ width ih => simp [ofNat, ih]

/-- Only so many bits of a number are kept. -/
theorem value_ofNat (width n : Nat) : value (ofNat width n) = n % 2 ^ width := by
  induction width with
  | zero => simp [ofNat, Nat.mod_one]
  | succ width ih =>
    simp only [ofNat, value_cons, length_ofNat, ih]
    rw [Nat.mod_pow_succ, Nat.testBit_eq_decide_div_mod_eq]
    have hmod : n / 2 ^ width % 2 < 2 := Nat.mod_lt _ (by decide)
    by_cases hbit : n / 2 ^ width % 2 = 1
    · simp [hbit, Nat.add_comm]
    · have hzero : n / 2 ^ width % 2 = 0 := by omega
      simp [hzero]

/-- Bit strings of one length are told apart by the numbers they spell. -/
theorem value_injective {as bs : List Bool} (hlen : as.length = bs.length)
    (hvalue : value as = value bs) : as = bs := by
  induction as generalizing bs with
  | nil => exact (List.length_eq_zero_iff.mp hlen.symm).symm
  | cons a as ih =>
    cases bs with
    | nil => cases hlen
    | cons b bs =>
      have htail : as.length = bs.length := by simpa using hlen
      have has := value_lt as
      have hbs := value_lt bs
      rw [value_cons, value_cons, htail] at hvalue
      rw [htail] at has
      cases a <;> cases b <;> simp only [Bool.toNat_true, Bool.toNat_false] at hvalue
      · rw [ih htail (by omega)]
      · omega
      · omega
      · rw [ih htail (by omega)]

theorem ofNat_value (bs : List Bool) : ofNat bs.length (value bs) = bs := by
  apply value_injective (length_ofNat _ _)
  rw [value_ofNat, Nat.mod_eq_of_lt (value_lt bs)]

@[simp] theorem length_ofByte (byte : UInt8) : (ofByte byte).length = 8 := length_ofNat _ _

@[simp] theorem value_ofByte (byte : UInt8) : value (ofByte byte) = byte.toNat := by
  rw [ofByte, value_ofNat]
  exact Nat.mod_eq_of_lt byte.toNat_lt

@[simp] theorem ofBytes_nil : ofBytes [] = [] := rfl

@[simp] theorem ofBytes_cons (byte : UInt8) (bytes : List UInt8) :
    ofBytes (byte :: bytes) = ofByte byte ++ ofBytes bytes := rfl

@[simp] theorem length_ofBytes (bytes : List UInt8) : (ofBytes bytes).length = 8 * bytes.length := by
  induction bytes with
  | nil => rfl
  | cons byte bytes ih =>
    simp only [ofBytes_cons, List.length_append, length_ofByte, ih, List.length_cons]
    omega

/-- To skip bytes is to skip eight bits for each of them. -/
theorem drop_ofBytes (bytes : List UInt8) (i : Nat) :
    (ofBytes bytes).drop (8 * i) = ofBytes (bytes.drop i) := by
  induction i generalizing bytes with
  | zero => simp
  | succ i ih =>
    cases bytes with
    | nil => simp
    | cons byte bytes =>
      rw [show 8 * (i + 1) = (ofByte byte).length + 8 * i by simp; omega, ofBytes_cons,
        List.drop_length_add_append, ih, List.drop_succ_cons]

end bits
