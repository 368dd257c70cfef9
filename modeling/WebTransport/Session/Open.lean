import WebTransport.Conn.Place
import WebTransport.Session.Upgrade

open rust rust.Outcome rust.Async quinn wt_proto.coding wt_proto.h3

namespace wt_rs

namespace WriteStream

def open_ (stream : StreamId) (id : VarInt) : Async Quic WTError StreamId := do
  let buffer ← lift ((write_varint [] id.into_inner).mapErr Empty.elim)
  let _ ← (write_all stream buffer).mapErr .WriteError
  pure stream

end WriteStream

namespace Connection

def open_uni (self : Connection) : Async Quic WTError StreamId :=
  match self.connect with
  | some _ => do
    let stream ← UniStream.WEBTRANSPORT.open_.mapErr .H3Error
    let id ← lift (unwrap_some self.id)
    WriteStream.open_ stream id
  | none => quinn.open_uni.mapErr .ConnectionError

/-- Both halves of the stream come back. -/
def open_bi (self : Connection) : Async Quic WTError StreamId :=
  match self.connect with
  | some _ => do
    let stream ← BiStream.WEBTRANSPORT.open_.mapErr .H3Error
    let id ← lift (unwrap_some self.id)
    WriteStream.open_ stream id
  | none => quinn.open_bi.mapErr .ConnectionError

def open_stream (dir : Dir) (self : Connection) : Async Quic WTError StreamId :=
  match dir with
  | .Uni => self.open_uni
  | .Bi => self.open_bi

end Connection

variable {connection : Connection} {connect : Connect} {id : VarInt}

theorem WriteStream.follows_open {enc : List UInt8} (hwrite : write_varint [] id.into_inner = ok enc)
    (stream : StreamId) : (open_ stream id).Follows (calls stream [.writes enc]) stream := by
  rw [open_, hwrite]
  exact ((follows_write_all stream enc).mapErr _).bind (.done _)

/-- A stream is opened, and its type and the session are written to it, one after the other. -/
theorem Connection.follows_open_stream (hconnect : connection.connect = some connect)
    (hid : connection.id = some id) (dir : Dir) :
    ∃ enc enc', Encodes enc (webtransport dir) ∧ Encodes enc' id ∧ ∀ side index,
      (connection.open_stream dir).Follows (calls ⟨side, dir, index⟩ [.opens, .writes enc, .writes enc'])
        ⟨side, dir, index⟩ := by
  obtain ⟨enc, hwrite, henc⟩ := write_varint_spec [] (webtransport dir)
  obtain ⟨enc', hwrite', henc'⟩ := write_varint_spec [] id
  refine ⟨enc, enc', henc, henc', fun side index => ?_⟩
  cases dir with
  | Uni =>
    have hopen := @UniStream.follows_open enc side index UniStream.WEBTRANSPORT hwrite
    rw [open_stream, open_uni, hconnect, hid]
    exact (hopen.mapErr _).bind (WriteStream.follows_open hwrite' _)
  | Bi =>
    have hopen := @BiStream.follows_open enc side index BiStream.WEBTRANSPORT hwrite
    rw [open_stream, open_bi, hconnect, hid]
    exact (hopen.mapErr _).bind (WriteStream.follows_open hwrite' _)

end wt_rs
