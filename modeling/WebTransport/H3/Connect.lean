import WebTransport.H3.Frame
import WebTransport.Qpack.Length

open rust rust.Outcome rust.Async quinn wt_proto.coding wt_proto.qpack

namespace wt_proto.h3.connect

/-- The two halves of a stream, and the headers of a request made on it. -/
structure Request where
  writer : StreamId
  reader : StreamId
  headers : Headers
  deriving DecidableEq

namespace Request

def accept (fuel : Nat) : Async Quic H3Error Request := do
  let stream ← accept_bi.mapErr .ConnectionError
  let (ftype, _len, fdata) ← Frame.accept fuel stream
  if ftype ≠ .HEADERS then lift (err (.ProtocolError "Incorrect Ftype"))
  else do
    let headers ← lift ((Headers.decode fdata).mapErr .QpackDeocdeError)
    if (headers.get (.lit ":method")).all (· ≠ (.lit "CONNECT")) then
      lift (err (.ProtocolError ":method invalid in H3 Header"))
    else pure { writer := stream, reader := stream, headers }

def open_ (fuel : Nat) (headers : Headers) (iter : HashMap.Iterates headers.fields) :
    Async Quic H3Error Request := do
  let hdata ← lift ((Headers.encode iter.val []).mapErr Empty.elim)
  let buf ← lift ((Frame.HEADERS.encode [] hdata).mapErr Empty.elim)
  let stream ← open_bi.mapErr .ConnectionError
  let _ ← (write_all stream buf).mapErr .WriteErrir
  let (ftype, _, fdata) ← Frame.accept fuel stream
  if ftype ≠ .HEADERS then lift (err (.ProtocolError "Received Unknown Header on Connect Open"))
  else do
    let resp ← lift ((Headers.decode fdata).mapErr .QpackDeocdeError)
    if (resp.get (.lit ":status")).all (· ≠ (.lit "200")) then lift (err .ConnectError)
    else if (resp.get (.lit "sec-webtransport-http3-draft")).all (· ≠ (.lit "draft02")) then
      lift (err .ConnectError)
    else pure { writer := stream, reader := stream, headers }

/-- The headers of a successful response. -/
def ok_headers : Headers :=
  (Headers.default.set (.lit ":status") (.lit "200")).set
    (.lit "sec-webtransport-http3-draft") (.lit "draft02")

def ok (self : Request) (iter : HashMap.Iterates ok_headers.fields) : Async Quic H3Error Unit := do
  let fdata ← lift ((Headers.encode iter.val []).mapErr Empty.elim)
  let buffer ← lift ((Frame.HEADERS.encode [] fdata).mapErr Empty.elim)
  (write_all self.writer buffer).mapErr .WriteErrir

end Request

/-- The headers fit into a frame. -/
def Sendable (headers : Headers) : Prop :=
  ∀ iter : HashMap.Iterates headers.fields, (iter.val.entries.map Headers.line_bound).sum < 2 ^ 32

/-- What is written for the headers. -/
def Message (headers : Headers) (frame : List UInt8) : Prop :=
  ∃ fdata, Frame.HEADERS.Encoding frame fdata ∧ Headers.decode fdata = .ok headers

/-- Headers that can be sent are one frame, whatever the order of the fields. -/
theorem encode_spec {headers : Headers} (hheaders : Sendable headers) (iter : HashMap.Iterates headers.fields) :
    ∃ fdata frame, Headers.encode iter.val [] = .ok fdata ∧ Frame.HEADERS.encode [] fdata = .ok frame ∧
      Message headers frame := by
  obtain ⟨int, int', lines, sorted, hencode, -, -, -, -, -, hdecode⟩ :=
    headers.decode_encode iter.val iter.property []
  have hlength := Headers.length_encode hencode
  have hbound := hheaders iter
  rw [List.nil_append] at hencode hlength
  rw [List.length_nil] at hlength
  obtain ⟨frame, hframe, hencoding⟩ :=
    Frame.HEADERS.encode_spec [] (show (int ++ int' ++ lines).length < 2 ^ 62 by omega)
  exact ⟨_, frame, hencode, hframe, _, hencoding, hdecode⟩

theorem Message.ne_nil {headers : Headers} {frame : List UInt8} (hmessage : Message headers frame) :
    frame ≠ [] := by
  obtain ⟨fdata, ⟨enc, enc', len, rfl, hftype, -, -⟩, -⟩ := hmessage
  exact List.append_ne_nil_of_left_ne_nil hftype.ne_nil _

/-- One order of the fields is enough to tell their size. -/
theorem sendable_of_iter {headers : Headers} {iter : HashMap.Iter Str Str} (hiter : iter.map = headers.fields)
    (hsum : (iter.entries.map Headers.line_bound).sum < 2 ^ 32) : Sendable headers := by
  intro iter'
  have hperm := HashMap.Iter.perm (iter'.property.trans hiter.symm)
  rwa [(hperm.map Headers.line_bound).sum_eq]

namespace Request

/-- The headers of the response in the order in which they are set. -/
def ok_iter : HashMap.Iter Str Str where
  entries := [(.lit ":status", .lit "200"),
    (.lit "sec-webtransport-http3-draft", .lit "draft02")]
  nodup := by decide

theorem sendable_ok_headers : Sendable ok_headers :=
  @sendable_of_iter ok_headers ok_iter rfl (by decide)

variable {headers resp : Headers} {frame frame' : List UInt8}

/-- A CONNECT request is accepted by reading the frame from the next stream, and nothing behind it. -/
theorem reads_accept (hmessage : Message headers frame)
    (hmethod : headers.get (.lit ":method") = some (.lit "CONNECT")) (fuel : Nat) (side : Side)
    (index : Nat) :
    Reads ⟨side, .Bi, index⟩ [.accepts] frame
      { writer := ⟨side, .Bi, index⟩, reader := ⟨side, .Bi, index⟩, headers } (accept (fuel + 1)) := by
  obtain ⟨fdata, hencoding, hdecode⟩ := hmessage
  apply Reads.after (follows_accept_bi.mapErr _)
  apply (Frame.reads_accept hencoding rfl fuel _).bind_last
  simp only [ne_eq, not_true_eq_false, ↓reduceIte, hdecode, mapErr_ok, lift, done_ok_bind, hmethod,
    Option.all_some, decide_false, Bool.false_eq_true]
  exact reads_done _

/-- A request opens a stream, writes its frame and reads the answer, and nothing behind that. -/
theorem reads_open (hheaders : Sendable headers) (iter : HashMap.Iterates headers.fields)
    (hmessage : Message resp frame')
    (hstatus : resp.get (.lit ":status") = some (.lit "200"))
    (hdraft : resp.get (.lit "sec-webtransport-http3-draft") = some (.lit "draft02")) :
    ∃ frame, Message headers frame ∧ ∀ fuel side index,
      Reads ⟨side, .Bi, index⟩ [.opens, .writes frame] frame'
        { writer := ⟨side, .Bi, index⟩, reader := ⟨side, .Bi, index⟩, headers } (open_ (fuel + 1) headers iter) := by
  obtain ⟨hdata, frame, hencode, hframe, hrequest⟩ := encode_spec hheaders iter
  obtain ⟨fdata, hencoding, hdecode⟩ := hmessage
  refine ⟨frame, hrequest, fun fuel side index => ?_⟩
  simp only [open_, hencode, mapErr_ok, lift, done_ok_bind, hframe]
  apply Reads.after (follows_open_bi.mapErr _)
  apply Reads.after ((follows_write_all _ frame).mapErr _)
  apply (Frame.reads_accept hencoding rfl fuel _).bind_last
  simp only [ne_eq, not_true_eq_false, ↓reduceIte, hdecode, mapErr_ok, done_ok_bind, hstatus, hdraft,
    Option.all_some, decide_false, Bool.false_eq_true]
  exact reads_done _

/-- The answer is one write on the stream of the request. -/
theorem follows_ok (iter : HashMap.Iterates ok_headers.fields) :
    ∃ frame, Message ok_headers frame ∧ ∀ self : Request,
      (self.ok iter).Follows (calls self.writer [.writes frame]) () := by
  obtain ⟨fdata, frame, hencode, hframe, hmessage⟩ := encode_spec sendable_ok_headers iter
  refine ⟨frame, hmessage, fun self => ?_⟩
  simp only [Request.ok, hencode, mapErr_ok, lift, done_ok_bind, hframe]
  exact (follows_write_all _ frame).mapErr _

end Request

end wt_proto.h3.connect
