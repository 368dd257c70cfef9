import WebTransport.H3.Error
import WebTransport.Rust.Map

open rust rust.Outcome wt_proto.coding

namespace wt_proto.h3

/-- The identifier of a setting. -/
structure Setting where
  id : VarInt
  deriving DecidableEq

namespace Setting

def ENABLE_CONNECT_PROTOCOL : Setting := ⟨.from_u32 0x8⟩
def WEBTRANSPORT_MAX_SESSIONS : Setting := ⟨.from_u32 0xc671706a⟩
def ENABLE_DATAGRAM : Setting := ⟨.from_u32 0x33⟩
def ENABLE_DATAGRAM_DEPRECATED : Setting := ⟨.from_u32 0xFFD277⟩
def WEBTRANSPORT_ENABLE_DEPRECATED : Setting := ⟨.from_u32 0x2b603742⟩
def WEBTRANSPORT_MAX_SESSIONS_DEPRECATED : Setting := ⟨.from_u32 0x2b603743⟩

end Setting

structure Settings where
  inner : HashMap Setting VarInt
  deriving DecidableEq

namespace Settings

def default : Settings := { inner := ∅ }

def insert (self : Settings) (setting : Setting) (value : UInt32) : Settings :=
  { inner := self.inner.insert setting (.from_u32 value) }

/-- The loop over the payload. Every turn reads at least one byte, so the fuel of `decode` is
enough. -/
def decode_loop : (fuel : Nat) → List UInt8 → Settings → Outcome H3Error Settings
  | 0, _, _ => diverge
  | _ + 1, [], settings => ok settings
  | fuel + 1, byte :: data, settings => do
    let (setting, data) ← (read_varint (byte :: data)).mapErr .CodingError
    let (value, data) ← (read_varint data).mapErr .CodingError
    decode_loop fuel data (settings.insert ⟨setting⟩ (UInt32.ofNat value.into_inner))

/-- The settings and what is left of `data`. -/
def decode (data : List UInt8) (len : Nat) : Outcome H3Error (Settings × List UInt8) := do
  let (payload, data) ← copy_to_bytes data len
  let settings ← decode_loop (payload.length + 1) payload default
  ok (settings, data)

def encode_loop : List (Setting × VarInt) → List UInt8 → Outcome Empty (List UInt8)
  | [], data => ok data
  | (setting, value) :: entries, data => do
    let data ← write_varint data setting.id.into_inner
    let data ← write_varint data value.into_inner
    encode_loop entries data

/-- `iter` hands out the entries of the map. -/
def encode (iter : HashMap.Iter Setting VarInt) : Outcome Empty (Nat × List UInt8) := do
  let data ← encode_loop iter.entries []
  ok (data.length, data)

def enable_webtransport (self : Settings) (max_sessions : UInt32) : Settings :=
  let self := self.insert .ENABLE_CONNECT_PROTOCOL 1
  let self := self.insert .ENABLE_DATAGRAM 1
  let self := self.insert .ENABLE_DATAGRAM_DEPRECATED 1
  let self := self.insert .WEBTRANSPORT_MAX_SESSIONS max_sessions
  let self := self.insert .WEBTRANSPORT_MAX_SESSIONS_DEPRECATED max_sessions
  self.insert .WEBTRANSPORT_ENABLE_DEPRECATED 1

def supports_webtransport (self : Settings) : Bool :=
  match self.inner.lookup .WEBTRANSPORT_ENABLE_DEPRECATED with
  | some n => decide (n.into_inner ≥ 1)
  | none =>
    match self.inner.lookup .WEBTRANSPORT_MAX_SESSIONS with
    | some n => decide (n.into_inner ≥ 1)
    | none =>
      match self.inner.lookup .WEBTRANSPORT_MAX_SESSIONS_DEPRECATED with
      | some n => decide (n.into_inner ≥ 1)
      | none => false

/-- `bytes` is a sequence of identifiers, each with its value. -/
inductive Pairs : (bytes : List UInt8) → List (Setting × VarInt) → Prop where
  | nil : Pairs [] []
  | cons {enc enc' bytes : List UInt8} {setting : Setting} {value : VarInt}
      {list : List (Setting × VarInt)} (hsetting : Encodes enc setting.id)
      (hvalue : Encodes enc' value) (hrest : Pairs bytes list) :
      Pairs (enc ++ (enc' ++ bytes)) ((setting, value) :: list)

/-- What is left of a payload behind its last whole pair: nothing, or an identifier that is
cut off, alone, or followed by a value that is cut off. -/
inductive Remnant : List UInt8 → Prop where
  | nothing : Remnant []
  | identifier {rest : List UInt8} (hcut : CutOff rest) : Remnant rest
  | no_value {enc : List UInt8} {x : VarInt} (henc : Encodes enc x) : Remnant enc
  | value {enc rest : List UInt8} {x : VarInt} (henc : Encodes enc x) (hcut : CutOff rest) :
      Remnant (enc ++ rest)

/-- The payload ends between an identifier and its value. -/
def EndsAfterIdentifier (d : List UInt8) : Prop :=
  ∃ bytes list enc x, d = bytes ++ enc ∧ Pairs bytes list ∧ Encodes enc x

/-- Any payload is some pairs, and then what does not make another one. -/
theorem exists_pairs (d : List UInt8) :
    ∃ bytes list rest, d = bytes ++ rest ∧ Pairs bytes list ∧ Remnant rest := by
  induction hlen : d.length using Nat.strong_induction_on generalizing d with
  | _ n ih =>
    obtain rfl | hcut | ⟨enc, x, left, rfl, henc⟩ := encodes_cases d
    · exact ⟨[], [], [], rfl, .nil, .nothing⟩
    · exact ⟨[], [], d, rfl, .nil, .identifier hcut⟩
    · obtain rfl | hcut | ⟨enc', y, left, rfl, henc'⟩ := encodes_cases left
      · exact ⟨[], [], enc ++ [], rfl, .nil, by simpa using Remnant.no_value henc⟩
      · exact ⟨[], [], enc ++ left, rfl, .nil, .value henc hcut⟩
      · have hpos := List.length_pos_iff.mpr henc.ne_nil
        rw [List.length_append, List.length_append] at hlen
        obtain ⟨bytes, list, rest, rfl, hpairs, hrest⟩ := ih left.length (by omega) left rfl
        refine ⟨enc ++ (enc' ++ bytes), (⟨x⟩, y) :: list, rest, ?_, .cons henc henc' hpairs, hrest⟩
        simp only [List.append_assoc]

/-- There are no more pairs than bytes. -/
theorem Pairs.length_le {bytes : List UInt8} {list : List (Setting × VarInt)}
    (hpairs : Pairs bytes list) : list.length ≤ bytes.length := by
  induction hpairs with
  | nil => exact le_refl _
  | cons hsetting _ _ ih =>
    have hpos := List.length_pos_iff.mpr hsetting.ne_nil
    rw [List.length_cons, List.length_append, List.length_append]
    omega

/-- Insertion of decoded pairs, from left to right. Values are cut down to 32 bits. -/
def insert_pairs (self : Settings) (list : List (Setting × VarInt)) : Settings :=
  list.foldl (fun self pair => self.insert pair.1 (UInt32.ofNat pair.2.into_inner)) self

private theorem decode_loop_of_ne_nil {data : List UInt8} (hdata : data ≠ []) (fuel : Nat)
    (settings : Settings) :
    decode_loop (fuel + 1) data settings = (do
      let (setting, data) ← (read_varint data).mapErr .CodingError
      let (value, data) ← (read_varint data).mapErr .CodingError
      decode_loop fuel data (settings.insert ⟨setting⟩ (UInt32.ofNat value.into_inner))) := by
  obtain ⟨byte, data, rfl⟩ := List.exists_cons_of_ne_nil hdata
  rw [decode_loop]

/-- The loop takes in one pair after the other, and goes on with what is behind them. -/
theorem decode_loop_of_pairs {bytes : List UInt8} {list : List (Setting × VarInt)}
    (hpairs : Pairs bytes list) (fuel : Nat) (rest : List UInt8) (settings : Settings) :
    decode_loop (fuel + list.length) (bytes ++ rest) settings =
      decode_loop fuel rest (settings.insert_pairs list) := by
  induction hpairs generalizing settings with
  | nil => rfl
  | @cons enc enc' bytes setting value list hsetting hvalue _ ih =>
    have hdata : enc ++ (enc' ++ (bytes ++ rest)) ≠ [] :=
      List.append_ne_nil_of_left_ne_nil hsetting.ne_nil _
    rw [List.length_cons, ← Nat.add_assoc, List.append_assoc, List.append_assoc,
      decode_loop_of_ne_nil hdata, read_varint_of_encodes hsetting, mapErr_ok, ok_bind]
    simp only [read_varint_of_encodes hvalue, mapErr_ok, ok_bind]
    exact ih _

/-- Behind the whole pairs, `decode` goes on with what is left. -/
theorem decode_of_pairs {bytes : List UInt8} {list : List (Setting × VarInt)}
    (hpairs : Pairs bytes list) (rest : List UInt8) :
    ∃ fuel, decode (bytes ++ rest) (bytes ++ rest).length = (do
      let settings ← decode_loop (fuel + 1) rest (default.insert_pairs list)
      ok (settings, [])) := by
  have hle := hpairs.length_le
  have hcopy : (copy_to_bytes (bytes ++ rest) (bytes ++ rest).length : Outcome H3Error _) =
      ok (bytes ++ rest, []) := by
    simpa using copy_to_bytes_append (bytes ++ rest) []
  have hfuel : (bytes ++ rest).length + 1 =
      bytes.length + rest.length - list.length + 1 + list.length := by
    rw [List.length_append]
    omega
  refine ⟨bytes.length + rest.length - list.length, ?_⟩
  rw [decode, hcopy, ok_bind]
  simp only [hfuel, decode_loop_of_pairs hpairs]

/-- Pairs with nothing behind them are decoded. -/
theorem decode_whole_pairs {bytes : List UInt8} {list : List (Setting × VarInt)}
    (hpairs : Pairs bytes list) :
    decode bytes bytes.length = ok (default.insert_pairs list, []) := by
  obtain ⟨fuel, hdecode⟩ := decode_of_pairs hpairs []
  rw [List.append_nil] at hdecode
  rw [hdecode, decode_loop, ok_bind]

/-- `get_u8` is called on the empty rest. -/
theorem decode_endsAfterIdentifier {d : List UInt8} (hends : EndsAfterIdentifier d) :
    decode d d.length = .panic := by
  obtain ⟨bytes, list, enc, x, rfl, hpairs, henc⟩ := hends
  obtain ⟨fuel, hdecode⟩ := decode_of_pairs hpairs enc
  have hread := read_varint_of_encodes henc []
  rw [List.append_nil] at hread
  rw [hdecode, decode_loop_of_ne_nil henc.ne_nil, hread, mapErr_ok, ok_bind]
  simp only [read_varint_nil, mapErr_panic, panic_bind]

/-- A payload cut off in an identifier ends in an error. -/
theorem decode_cutOff_identifier {bytes rest : List UInt8} {list : List (Setting × VarInt)}
    (hpairs : Pairs bytes list) (hcut : CutOff rest) :
    decode (bytes ++ rest) (bytes ++ rest).length = err (.CodingError .UnexpectedEnd) := by
  obtain ⟨fuel, hdecode⟩ := decode_of_pairs hpairs rest
  rw [hdecode, decode_loop_of_ne_nil hcut.ne_nil, read_varint_of_cutOff hcut, mapErr_err, err_bind,
    err_bind]

/-- A payload cut off in a value ends in an error. -/
theorem decode_cutOff_value {bytes enc rest : List UInt8} {list : List (Setting × VarInt)}
    {x : VarInt} (hpairs : Pairs bytes list) (henc : Encodes enc x) (hcut : CutOff rest) :
    decode (bytes ++ (enc ++ rest)) (bytes ++ (enc ++ rest)).length =
      err (.CodingError .UnexpectedEnd) := by
  obtain ⟨fuel, hdecode⟩ := decode_of_pairs hpairs (enc ++ rest)
  rw [hdecode, decode_loop_of_ne_nil (List.append_ne_nil_of_left_ne_nil henc.ne_nil _),
    read_varint_of_encodes henc, mapErr_ok, ok_bind]
  simp only [read_varint_of_cutOff hcut, mapErr_err, err_bind]

/-- `decode` comes back with `Ok` or `Err`, and with `Err` on everything but whole pairs,
exactly on the payloads that do not end between an identifier and its value. -/
theorem settings_returns_iff (d : List UInt8) :
    (decode d d.length).Returns ∧
      ((¬ ∃ list, Pairs d list) → ∃ e, decode d d.length = err e) ↔ ¬ EndsAfterIdentifier d := by
  constructor
  · rintro ⟨hreturns, -⟩ hends
    rw [decode_endsAfterIdentifier hends] at hreturns
    exact not_returns_panic hreturns
  · intro hnot
    obtain ⟨bytes, list, rest, rfl, hpairs, hrest⟩ := exists_pairs d
    cases hrest with
    | nothing =>
      rw [List.append_nil, decode_whole_pairs hpairs]
      exact ⟨returns_ok _, fun hnone => absurd ⟨list, hpairs⟩ hnone⟩
    | identifier hcut =>
      rw [decode_cutOff_identifier hpairs hcut]
      exact ⟨returns_err _, fun _ => ⟨_, rfl⟩⟩
    | no_value henc => exact absurd ⟨bytes, list, rest, _, rfl, hpairs, henc⟩ hnot
    | value henc hcut =>
      rw [decode_cutOff_value hpairs henc hcut]
      exact ⟨returns_err _, fun _ => ⟨_, rfl⟩⟩

/-- `ENABLE_CONNECT_PROTOCOL` without a value. -/
theorem decode_lone_identifier : ¬ (decode [0x08] 1).Returns := by
  rw [show decode [0x08] 1 = .panic by rfl]
  exact not_returns_panic

end Settings

end wt_proto.h3
