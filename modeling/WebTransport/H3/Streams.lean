import WebTransport.Coding.VarIntAsync
import WebTransport.H3.Error

open rust rust.Outcome rust.Async quinn wt_proto.coding

namespace wt_proto.h3

structure UniStream where
  stype : VarInt
  deriving DecidableEq

namespace UniStream

def CONTROL : UniStream := ⟨.from_u32 0x00⟩
def PUSH : UniStream := ⟨.from_u32 0x01⟩
def QPACK_ENCODER : UniStream := ⟨.from_u32 0x02⟩
def QPACK_DECODER : UniStream := ⟨.from_u32 0x03⟩
def WEBTRANSPORT : UniStream := ⟨.from_u32 0x54⟩

def encode (self : UniStream) (buffer : List UInt8) : Outcome Empty (List UInt8) :=
  write_varint buffer self.stype.into_inner

def accept : Async Quic H3Error (UniStream × StreamId) := do
  let stream ← accept_uni.mapErr .ConnectionError
  let stype ← (read_varint_async stream).mapErr .CodingError
  pure (⟨stype⟩, stream)

def open_ (self : UniStream) : Async Quic H3Error StreamId := do
  let buffer ← lift ((self.encode []).mapErr Empty.elim)
  let stream ← open_uni.mapErr .ConnectionError
  let _ ← (write_all stream buffer).mapErr .WriteErrir
  pure stream

end UniStream

structure BiStream where
  stype : VarInt
  deriving DecidableEq

def BiStream.WEBTRANSPORT : BiStream := ⟨.from_u32 0x41⟩

namespace BiStream

def encode (self : BiStream) (buffer : List UInt8) : Outcome Empty (List UInt8) :=
  write_varint buffer self.stype.into_inner

/-- Both halves of the stream come back. -/
def open_ (self : BiStream) : Async Quic H3Error StreamId := do
  let buffer ← lift ((self.encode []).mapErr Empty.elim)
  let stream ← open_bi.mapErr .ConnectionError
  let _ ← (write_all stream buffer).mapErr .WriteErrir
  pure stream

end BiStream

variable {enc : List UInt8} {side : Side} {index : Nat}

theorem UniStream.follows_open {self : UniStream} (hwrite : write_varint [] self.stype.into_inner = ok enc) :
    self.open_.Follows (calls ⟨side, .Uni, index⟩ [.opens, .writes enc]) ⟨side, .Uni, index⟩ := by
  rw [open_, encode, hwrite]
  exact (follows_open_uni.mapErr _).bind (((follows_write_all _ enc).mapErr _).bind (.done _))

theorem BiStream.follows_open {self : BiStream} (hwrite : write_varint [] self.stype.into_inner = ok enc) :
    self.open_.Follows (calls ⟨side, .Bi, index⟩ [.opens, .writes enc]) ⟨side, .Bi, index⟩ := by
  rw [open_, encode, hwrite]
  exact (follows_open_bi.mapErr _).bind (((follows_write_all _ enc).mapErr _).bind (.done _))

end wt_proto.h3
