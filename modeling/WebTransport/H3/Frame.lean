import WebTransport.H3.Streams
import WebTransport.Quinn.Script

open rust rust.Outcome rust.Async quinn wt_proto.coding

namespace wt_proto.h3

structure Frame where
  ftype : VarInt
  deriving DecidableEq

namespace Frame

def HEADERS : Frame := ⟨.from_u32 0x01⟩
def SETTINGS : Frame := ⟨.from_u32 0x04⟩

def is_grease (self : Frame) : Bool :=
  let val := self.ftype.into_inner
  if val < 0x21 then false else (val - 0x21) % 0x1f == 0

def encode (self : Frame) (b fdata : List UInt8) : Outcome Empty (List UInt8) := do
  let b ← write_varint b self.ftype.into_inner
  let b ← write_varint b fdata.length
  ok (b ++ fdata)

/-- The loop over frames, for at most `fuel` of them. -/
def accept : (fuel : Nat) → StreamId → Async Quic H3Error (Frame × Nat × List UInt8)
  | 0, _ => lift diverge
  | fuel + 1, v => do
    let ftype ← (read_varint_async v).mapErr .CodingError
    let len ← (read_varint_async v).mapErr .CodingError
    let data ← (read_exact v len.into_inner).mapErr .ReadExactError
    if is_grease ⟨ftype⟩ then accept fuel v else pure (⟨ftype⟩, len.into_inner, data)

/-- `bytes` is a frame with the payload `fdata`. -/
def Encoding (self : Frame) (bytes fdata : List UInt8) : Prop :=
  ∃ enc enc' len, bytes = enc ++ (enc' ++ fdata) ∧ Encodes enc self.ftype ∧ Encodes enc' len ∧
    len.into_inner = fdata.length

/-- A payload of fewer than 2^62 bytes is encoded as a frame, behind what the buffer holds. -/
theorem encode_spec (self : Frame) (b : List UInt8) {fdata : List UInt8} (hlen : fdata.length < 2 ^ 62) :
    ∃ bytes, self.encode b fdata = ok (b ++ bytes) ∧ self.Encoding bytes fdata := by
  obtain ⟨enc, hwrite, henc⟩ := write_varint_spec b self.ftype
  obtain ⟨enc', hwrite', henc'⟩ := write_varint_spec (b ++ enc) ⟨fdata.length, hlen⟩
  refine ⟨enc ++ (enc' ++ fdata), ?_, enc, enc', _, rfl, henc, henc', rfl⟩
  rw [encode, hwrite, ok_bind, hwrite', ok_bind]
  simp only [List.append_assoc]

/-- A frame that is no grease is accepted, and nothing behind it is read. -/
theorem reads_accept {self : Frame} {bytes fdata : List UInt8} (henc : self.Encoding bytes fdata)
    (hgrease : self.is_grease = false) (fuel : Nat) (stream : StreamId) :
    Reads stream [] bytes (self, fdata.length, fdata) (accept (fuel + 1) stream) := by
  obtain ⟨enc, enc', len, rfl, hftype, hlen, hdata⟩ := henc
  apply ((reads_read_varint_async hftype).mapErr _).bind
  apply ((reads_read_varint_async hlen).mapErr _).bind
  rw [hdata]
  apply ((reads_read_exact stream fdata).mapErr _).bind_last
  rw [if_neg (Bool.eq_false_iff.mp hgrease)]
  exact reads_done _

end Frame

end wt_proto.h3
