import WebTransport.Conn.Accept
import WebTransport.H3.Connect
import WebTransport.H3.Control

open rust rust.Outcome rust.Async quinn wt_proto.coding wt_proto.h3.connect wt_proto.qpack

namespace wt_rs

structure Settings where
  reader : StreamId
  writer : StreamId
  deriving DecidableEq

namespace Settings

/-- The settings a side sends. -/
def offered : wt_proto.h3.Settings := wt_proto.h3.Settings.default.enable_webtransport 1

/-- The errors of the two functions are converted here before they are joined, not after. -/
def accept (fuel : Nat) (iter : HashMap.Iterates offered.inner) :
    TryJoin Quic WTError (wt_proto.h3.Settings × StreamId) StreamId Settings :=
  let accept := (wt_proto.h3.Settings.accept fuel).mapErr .H3Error
  let open_ := (offered.open_ iter).mapErr .H3Error
  (TryJoin.try_join accept open_).bind fun ((settings, reader), writer) =>
    if ¬ settings.supports_webtransport then lift (err .WebTransportNotSupported)
    else pure { reader, writer }

end Settings

structure Connect where
  inner : Request
  deriving DecidableEq

namespace Connect

def accept (fuel : Nat) (iter : HashMap.Iterates Request.ok_headers.fields) : Async Quic WTError Connect := do
  let request ← (Request.accept fuel).mapErr .H3Error
  if (request.headers.get (.lit ":protocol")).all (· ≠ (.lit "webtransport")) then
    lift (err (.ProtocolError ":protocol invalid in H3 Header"))
  else do
    let _ ← (request.ok iter).mapErr .H3Error
    pure { inner := request }

/-- The headers of the request a client makes. -/
def open_headers : Headers :=
  ((((Headers.default.set (.lit "origin") (.lit "https://googlechrome.github.io")).set
    (.lit ":protocol") (.lit "webtransport")).set
    (.lit ":method") (.lit "CONNECT")).set
    (.lit ":scheme") (.lit "https")).set
    (.lit "sec-webtransport-http3-draft02") (.lit "1")

def open_ (fuel : Nat) (iter : HashMap.Iterates open_headers.fields) : Async Quic WTError Connect := do
  let request ← (Request.open_ fuel open_headers iter).mapErr .H3Error
  pure { inner := request }

def session_id {ε : Type} (self : Connect) : Outcome ε VarInt :=
  (VarInt.from_u64 self.inner.writer.value).unwrap

end Connect

structure Connection where
  id : Option VarInt
  settings : Option Settings
  connect : Option Connect
  accept : Option WTAccept

/-- The orders in which the maps of one side are iterated. -/
structure Orders where
  settings : HashMap.Iterates Settings.offered.inner
  request : HashMap.Iterates Connect.open_headers.fields
  response : HashMap.Iterates Request.ok_headers.fields

namespace Connection

def upgrade (fuel : Nat) (orders : Orders) :
    TryJoin Quic WTError (wt_proto.h3.Settings × StreamId) StreamId Connection :=
  (Settings.accept fuel orders.settings).bind fun settings => do
    let connect ← Connect.accept fuel orders.response
    let id ← lift connect.session_id
    let accept := WTAccept.new id
    pure { id := some id, settings := some settings, connect := some connect, accept := some accept }

def open_ (fuel : Nat) (orders : Orders) :
    TryJoin Quic WTError (wt_proto.h3.Settings × StreamId) StreamId Connection :=
  (Settings.accept fuel orders.settings).bind fun settings => do
    let connect ← Connect.open_ fuel orders.request
    let id ← lift connect.session_id
    let accept := WTAccept.new id
    pure { id := some id, settings := some settings, connect := some connect, accept := some accept }

end Connection

end wt_rs
