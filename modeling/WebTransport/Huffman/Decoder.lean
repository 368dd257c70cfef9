import WebTransport.Huffman.Window
import WebTransport.Bits.LookupTree

open rust rust.Outcome

namespace wt_proto.huffman

/-- An entry of a decoding table: a symbol, or a further table. -/
abbrev DecodeValue := bits.LookupTree UInt8

structure HuffmanDecoder where
  lookup : Nat
  table : List DecodeValue

abbrev DecodeValue.Sym (x : UInt8) : DecodeValue := .symbol x

abbrev DecodeValue.Partial (d : HuffmanDecoder) : DecodeValue := .table d.lookup d.table

/-- Called where fewer bits are left than the table wants to look up. -/
def check_eof (bit_pos : BitWindow) (input : List UInt8) : Outcome Error (Option Nat) := do
  let next ← addChecked 32 bit_pos.byte 1
  if next > input.length then
    -- Position is out-of-range
    ok none
  else if next = input.length then
    -- Position is on the last byte
    let side := bit_pos.opposite_bit_window
    match read_bits input side.byte side.bit side.count with
    | ok rest =>
      let filler ← shlChecked 16 2 (side.count - 1)
      let eof_filler := (filler - 1) % 2 ^ 8
      if rest &&& eof_filler = eof_filler then ok none else err (.MissingBits bit_pos)
    | err () => err (.MissingBits side)
    | .panic => .panic
    | .diverge => .diverge
  else err (.MissingBits bit_pos)

def fetch_value (bit_pos : BitWindow) (input : List UInt8) : Outcome Error (Option Nat) :=
  match read_bits input bit_pos.byte bit_pos.bit bit_pos.count with
  | ok value => ok (some value)
  | err () => check_eof bit_pos input
  | .panic => .panic
  | .diverge => .diverge

mutual

/-- Goes on with an entry of a table: a symbol is the result, a table is decoded with. -/
def follow : DecodeValue → BitWindow → List UInt8 → Outcome Error (Option UInt8 × BitWindow)
  | .symbol x, bit_pos, _ => ok (some x, bit_pos)
  | .table lookup table, bit_pos, input => do
    let bit_pos ← bit_pos.forwards lookup
    let value ← fetch_value bit_pos input
    match value with
    | some value => follow_entry table value value bit_pos input
    | none => ok (none, bit_pos)

/-- Goes on with entry `i` of a table, found under the looked-up `value`. -/
def follow_entry : List DecodeValue → (i value : Nat) → BitWindow → List UInt8 →
    Outcome Error (Option UInt8 × BitWindow)
  | [], _, value, bit_pos, _ => err (.Unhandled bit_pos value)
  | entry :: _, 0, _, bit_pos, input => follow entry bit_pos input
  | _ :: table, i + 1, value, bit_pos, input => follow_entry table i value bit_pos input

end

/-- Decodes the next symbol of `input`; `none` is the end of the payload. -/
def HuffmanDecoder.decode_next (self : HuffmanDecoder) (bit_pos : BitWindow)
    (input : List UInt8) : Outcome Error (Option UInt8 × BitWindow) :=
  follow (.Partial self) bit_pos input

/-- Going on with an entry is looking it up first. -/
theorem follow_entry_eq (table : List DecodeValue) (i value : Nat) (bit_pos : BitWindow)
    (input : List UInt8) :
    follow_entry table i value bit_pos input =
      match table[i]? with
      | some entry => follow entry bit_pos input
      | none => err (.Unhandled bit_pos value) := by
  induction table generalizing i with
  | nil => simp [follow_entry]
  | cons entry table ih =>
    cases i with
    | zero => simp [follow_entry]
    | succ i => simp [follow_entry, ih]

/-- The equation of `decode_next` as the source writes it: step forward, fetch, look the
value up in the table, and return the symbol or recurse. -/
theorem HuffmanDecoder.decode_next_eq (self : HuffmanDecoder) (bit_pos : BitWindow)
    (input : List UInt8) :
    self.decode_next bit_pos input = (do
      let bit_pos ← bit_pos.forwards self.lookup
      let value ← fetch_value bit_pos input
      match value with
      | none => ok (none, bit_pos)
      | some value =>
        match self.table[value]? with
        | none => err (.Unhandled bit_pos value)
        | some (.symbol x) => ok (some x, bit_pos)
        | some (.table lookup table) =>
          HuffmanDecoder.decode_next ⟨lookup, table⟩ bit_pos input) := by
  rw [decode_next, follow]
  congr 1
  funext window
  congr 1
  funext value
  cases value with
  | none => rfl
  | some value =>
    simp only [follow_entry_eq]
    cases self.table[value]? with
    | none => rfl
    | some entry => cases entry <;> simp [follow, decode_next]

end wt_proto.huffman
