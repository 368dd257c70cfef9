import Mathlib.Data.List.Sort
import WebTransport.Qpack.Literal
import WebTransport.Qpack.StaticTable
import WebTransport.Rust.Map

open rust rust.Outcome

namespace wt_proto.qpack

structure Headers where
  fields : HashMap Str Str
  deriving DecidableEq

/-- A name and its value. -/
abbrev Field := Str × Str

namespace Headers

def decode_index (buf : List UInt8) : Outcome DecodeError (Field × List UInt8) := do
  let ((_, index), buf) ← decode_prefix buf 6
  let (name, value) ← StaticTable.get index
  ok ((name, value), buf)

def decode_literal_value (buf : List UInt8) : Outcome DecodeError (Field × List UInt8) := do
  let ((_, name), buf) ← decode_prefix buf 4
  let (name, _) ← StaticTable.get name
  let (value, buf) ← decode_string buf 8
  let value ← (from_utf8 value).mapErr fun _ => .Utf8Error
  ok ((name, value), buf)

def decode_literal (buf : List UInt8) : Outcome DecodeError (Field × List UInt8) := do
  let (name, buf) ← decode_string buf 4
  let name ← (from_utf8 name).mapErr fun _ => .Utf8Error
  let (value, buf) ← decode_string buf 8
  let value ← (from_utf8 value).mapErr fun _ => .Utf8Error
  ok ((name, value), buf)

/-- The dispatch on the first byte of a line, over the chain that puts the byte back. -/
def decode_line (peek : UInt8) (chain : List UInt8) : Outcome DecodeError (Field × List UInt8) :=
  if peek &&& 0b1100_0000 = 0b1100_0000 then decode_index chain
  else if peek &&& 0b1100_0000 = 0b1000_0000 then err .DynamicEntry
  else if peek &&& 0b1101_0000 = 0b0101_0000 then decode_literal_value chain
  else if peek &&& 0b1101_0000 = 0b0100_0000 then err .DynamicEntry
  else if peek &&& 0b1110_0000 = 0b0010_0000 then decode_literal chain
  else if peek &&& 0b1111_0000 = 0b0001_0000 then err .DynamicEntry
  else if peek &&& 0b1111_0000 = 0b0000_0000 then err .DynamicEntry
  else err .UnknownEntry

/-- The loop over the lines. -/
def decode_lines : (fuel : Nat) → List UInt8 → HashMap Str Str →
    Outcome DecodeError (HashMap Str Str)
  | 0, _, _ => diverge
  | _ + 1, [], fields => ok fields
  | fuel + 1, peek :: buf, fields => do
    let ((name, value), chain) ← decode_line peek ([peek] ++ buf)
    decode_lines fuel (chain_into_last buf chain) (fields.insert name value)

/-- Each turn of the loop consumes at least the byte it looked at, so the fuel is enough. -/
def decode (buf : List UInt8) : Outcome DecodeError Headers := do
  let ((_, _insert_count), buf) ← decode_prefix buf 8
  let ((_sign, _delta_base), buf) ← decode_prefix buf 7
  let fields ← decode_lines (buf.length + 1) buf ∅
  ok { fields }

def encode_index (buf : List UInt8) (index : Nat) : Outcome Infallible (List UInt8) :=
  encode_prefix buf 6 0b11 index

def encode_literal_value (buf : List UInt8) (name : Nat) (value : Str) :
    Outcome Infallible (List UInt8) := do
  let buf ← encode_prefix buf 4 0b0101 name
  let buf ← encode_prefix buf 7 0b0 value.len
  ok (buf ++ value.as_bytes)

def encode_literal (buf : List UInt8) (name value : Str) : Outcome Infallible (List UInt8) := do
  let buf ← encode_prefix buf 3 0b00100 name.len
  let buf := buf ++ name.as_bytes
  let buf ← encode_prefix buf 7 0b0 value.len
  ok (buf ++ value.as_bytes)

def encode_line (buf : List UInt8) (name value : Str) : Outcome Infallible (List UInt8) :=
  match StaticTable.find name value with
  | some index => encode_index buf index
  | none =>
    match StaticTable.find_name name with
    | some index => encode_literal_value buf index value
    | none => encode_literal buf name value

def encode_lines : List Field → List UInt8 → Outcome Infallible (List UInt8)
  | [], buf => ok buf
  | (name, value) :: headers, buf => do
    let buf ← encode_line buf name value
    encode_lines headers buf

/-- The key of the stable sort that puts pseudo-headers first. -/
def sort_key (header : Field) : Bool := !header.1.starts_with ':'

def sort_by_key (headers : List Field) : List Field :=
  headers.insertionSort fun a b => sort_key a ≤ sort_key b

/-- `iter` is the iterator over the fields the encoder collects. -/
def encode (iter : HashMap.Iter Str Str) (buf : List UInt8) : Outcome Infallible (List UInt8) := do
  let buf ← encode_prefix buf 8 0 0
  let buf ← encode_prefix buf 7 0 0
  encode_lines (sort_by_key iter.entries) buf

def default : Headers := { fields := ∅ }

def get (self : Headers) (name : Str) : Option Str := self.fields.lookup name

def set (self : Headers) (name value : Str) : Headers := { fields := self.fields.insert name value }

end Headers

end wt_proto.qpack
