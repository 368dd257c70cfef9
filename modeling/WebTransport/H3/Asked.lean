import WebTransport.H3.Heard
import WebTransport.Qpack.Decode

open rust rust.Outcome rust.Async quinn wt_proto.coding wt_proto.qpack

namespace wt_proto.h3

variable {stream : StreamId} {script : Script Quic} {fuel : Nat}

/-- A stream that was opened has its type written to it. -/
theorem UniStream.of_open {self : UniStream} (h : self.open_.Follows script stream) :
    ∃ enc, script = [⟨.open_uni, .ok stream⟩, ⟨.write_all stream enc, .ok ()⟩] ∧ Encodes enc self.stype := by
  obtain ⟨enc, hwrite, henc⟩ := write_varint_spec [] self.stype
  rw [open_, encode, hwrite] at h
  obtain ⟨before, tail, opened, rfl, hopen, htail⟩ := Follows.of_bind (m := open_uni.mapErr _) h
  obtain ⟨written, last, ⟨⟩, rfl, hwritten, hlast⟩ := htail.of_bind
  obtain ⟨rfl, hresult⟩ := hlast.of_done
  cases hresult
  rw [of_open_uni hopen.of_mapErr, of_write_all hwritten.of_mapErr]
  exact ⟨enc, rfl, henc⟩

/-- Opening a stream does not panic. -/
theorem UniStream.always_open (self : UniStream) : Always (fun _ => True) False self.open_ := by
  obtain ⟨enc, hwrite, -⟩ := write_varint_spec [] self.stype
  rw [open_, encode, hwrite]
  change Always (I := Quic) _ _ (open_uni.mapErr _ >>= _)
  apply ((always_open_uni trivial).mapErr _).bind
  intro stream
  apply ((always_write_all trivial).mapErr _).bind
  exact fun _ => .done_ok _

/-- What could not open its stream or write the type ends. -/
theorem UniStream.fails_fast_open (self : UniStream) : self.open_.FailsFast := by
  obtain ⟨enc, hwrite, -⟩ := write_varint_spec [] self.stype
  rw [open_, encode, hwrite]
  apply (fails_fast_open_uni.mapErr _).bind
  intro stream
  apply ((fails_fast_write_all stream enc).mapErr _).bind
  exact fun _ => .done_ok _

namespace Settings

variable {settings : Settings} {iter : HashMap.Iterates settings.inner}

/-- A control stream has been opened, and the settings are written on it. -/
def Sent (settings : Settings) (script : Script Quic) (stream : StreamId) : Prop :=
  ∃ enc frame, script = [⟨.open_uni, .ok stream⟩, ⟨.write_all stream enc, .ok ()⟩, ⟨.write_all stream frame, .ok ()⟩] ∧
    settings.Payload enc frame

/-- Settings that were sent are on their stream. -/
theorem of_open (hsettings : settings.Sendable) (h : (settings.open_ iter).Follows script stream) :
    settings.Sent script stream := by
  obtain ⟨fdata, hencode, hlen, hdecode⟩ := encode_spec hsettings iter
  obtain ⟨frame, hframe, hencoding⟩ := Frame.SETTINGS.encode_spec [] hlen
  obtain ⟨before, tail, cs, rfl, hopen, htail⟩ := h.of_bind
  obtain ⟨enc, rfl, henc⟩ := UniStream.of_open hopen
  simp only [hencode, mapErr_ok, lift, done_ok_bind, hframe] at htail
  obtain ⟨written, last, ⟨⟩, rfl, hwritten, hlast⟩ := htail.of_bind
  obtain ⟨rfl, hresult⟩ := hlast.of_done
  cases hresult
  rw [of_write_all hwritten.of_mapErr]
  exact ⟨enc, frame, rfl, henc, fdata, hencoding, hdecode⟩

/-- Sending settings does not panic. -/
theorem always_open (hsettings : settings.Sendable) : Always (fun _ => True) False (settings.open_ iter) := by
  obtain ⟨fdata, hencode, hlen, -⟩ := encode_spec hsettings iter
  obtain ⟨frame, hframe, -⟩ := Frame.SETTINGS.encode_spec [] hlen
  apply UniStream.CONTROL.always_open.bind
  intro cs
  simp only [hencode, mapErr_ok, lift, done_ok_bind, hframe]
  apply ((always_write_all trivial).mapErr _).bind
  exact fun _ => .done_ok _

/-- However far the function gets, what it sends is the type of the control stream and the settings, on
the stream it has opened. -/
theorem ran_open (hsettings : settings.Sendable) {m : Async Quic H3Error StreamId}
    (h : Ran script (settings.open_ iter) m) : ∃ full stream, settings.Sent full stream ∧ Begins script full := by
  have hfast : (settings.open_ iter).FailsFast := by
    obtain ⟨fdata, hencode, hlen, -⟩ := encode_spec hsettings iter
    obtain ⟨frame, hframe, -⟩ := Frame.SETTINGS.encode_spec [] hlen
    apply UniStream.CONTROL.fails_fast_open.bind
    intro cs
    simp only [hencode, mapErr_ok, lift, done_ok_bind, hframe]
    apply ((fails_fast_write_all cs frame).mapErr _).bind
    exact fun _ => .done_ok _
  obtain ⟨full, stream, hfull, hbegins⟩ := hfast _ _ h
  exact ⟨full, stream, of_open hsettings hfull, hbegins⟩

end Settings

end wt_proto.h3

namespace wt_proto.h3.connect

variable {stream : StreamId} {script : Script Quic} {fuel : Nat} {headers : Headers} {request : Request}

/-- The first frame on the stream behind grease is HEADERS, with this payload. -/
def SectionRead (script : Script Quic) (stream : StreamId) (fdata : List UInt8) : Prop :=
  ∃ skipped greases frame, Took stream script (skipped ++ frame) ∧ Frame.Greases skipped greases ∧
    Frame.HEADERS.Encoding frame fdata

/-- The payload is a field section, and its lines make these headers. -/
def Lists (fdata : List UInt8) (headers : Headers) : Prop :=
  ∃ prefix_bytes bytes list, fdata = prefix_bytes ++ bytes ∧ SectionPrefix prefix_bytes ∧
    FieldLines bytes list ∧ headers.fields = HashMap.insert_all ∅ list

/-- What was decoded is listed by the section. -/
theorem lists_of_decode {fdata : List UInt8} (h : Headers.decode fdata = ok headers) : Lists fdata headers := by
  rcases Headers.decode_cases fdata with
    ⟨prefix_bytes, bytes, list, rfl, hstart, hlines, hok⟩ | ⟨_, _, _, _, _, rfl, -, -, ⟨e, -, herr⟩ | ⟨-, hpanic⟩⟩ |
    ⟨e, herr, -⟩ | ⟨hpanic, -⟩
  · rw [hok] at h
    cases h
    exact ⟨prefix_bytes, bytes, list, rfl, hstart, hlines, rfl⟩
  · rw [h] at herr
    cases herr
  · rw [h] at hpanic
    cases hpanic
  · rw [h] at herr
    cases herr
  · rw [h] at hpanic
    cases hpanic

/-- A value that a check asks for. -/
theorem get_of_checked {name value : Str} (h : ¬ (headers.get name).all (· ≠ value) = true) :
    headers.get name = some value := by
  cases hget : headers.get name with
  | none =>
    rw [hget] at h
    exact absurd rfl h
  | some found =>
    rw [hget, Option.all_some, decide_eq_true_eq, not_not] at h
    rw [h]

namespace Request

/-- A frame is read, and its payload decoded. -/
private theorem took_section {frame : Frame} {len : Nat} {fdata : List UInt8}
    (h : (Frame.accept fuel stream).Follows script (frame, len, fdata)) (hexact : Exact script)
    (hframe : ¬ frame ≠ Frame.HEADERS) : SectionRead script stream fdata := by
  obtain ⟨skipped, greases, enc, htook, hgreases, hencoding, -, -⟩ := Frame.took_accept h hexact
  obtain rfl := not_not.mp hframe
  exact ⟨skipped, greases, enc, htook, hgreases, hencoding⟩

/-- A request has been accepted. -/
structure Accepted (request : Request) (script : Script Quic) : Prop where
  took : ∃ reads fdata, script = ⟨.accept_bi, .ok request.writer⟩ :: reads ∧ SectionRead reads request.writer fdata ∧
    Lists fdata request.headers
  reader : request.reader = request.writer
  method : request.headers.get (.lit ":method") = some (.lit "CONNECT")

/-- A request that was accepted was read from a stream of the peer, in one message. -/
theorem took_accept (h : (accept fuel).Follows script request) (hexact : Exact script) : request.Accepted script := by
  obtain ⟨before, tail, stream, rfl, haccept, htail⟩ := h.of_bind
  obtain ⟨framed, rest, ⟨ftype, len, fdata⟩, rfl, hframe, hrest⟩ := htail.of_bind
  obtain rfl := of_accept_bi haccept.of_mapErr
  simp only at hrest
  split_ifs at hrest with hftype
  · cases hrest.of_done.2
  · obtain ⟨decoded, last, headers, rfl, hdecode, hlast⟩ := hrest.of_bind
    obtain ⟨rfl, hdecoded⟩ := hdecode.of_done
    split_ifs at hlast with hmethod
    · cases hlast.of_done.2
    · obtain ⟨rfl, hresult⟩ := hlast.of_done
      cases hresult
      have hread := took_section hframe hexact.of_append.2.of_append.1 hftype
      refine ⟨⟨framed, fdata, ?_, hread, lists_of_decode (mapErr_eq_ok_iff.mp hdecoded)⟩, rfl, get_of_checked hmethod⟩
      rw [List.nil_append, List.append_nil]
      rfl

/-- The headers of a request can make the server panic, in this way only. -/
theorem panic_accept (h : Ran script (accept fuel) (.done .panic)) (hexact : Exact script) :
    ∃ stream reads fdata, script = ⟨.accept_bi, .ok stream⟩ :: reads ∧ SectionRead reads stream fdata ∧
      Headers.SectionOverflow fdata := by
  obtain hpanic | ⟨before, tail, stream, rfl, haccept, htail⟩ := h.panic_of_bind
  · exact absurd hpanic (quiet_accept_bi.mapErr _).not_panic
  obtain hpanic | ⟨framed, rest, ⟨ftype, len, fdata⟩, rfl, hframe, hrest⟩ := htail.panic_of_bind
  · exact absurd hpanic (Frame.quiet_accept False fuel stream).not_panic
  obtain rfl := of_accept_bi haccept.of_mapErr
  simp only at hrest
  split_ifs at hrest with hftype
  · cases hrest.of_done.2
  obtain hdecode | ⟨decoded, last, headers, rfl, hdecode, hlast⟩ := hrest.panic_of_bind
  · obtain ⟨rfl, hdecoded⟩ := hdecode.of_done
    have hpanic := mapErr_eq_panic_iff.mp (Async.done.inj hdecoded).symm
    have hread := took_section hframe hexact.of_append.2.of_append.1 hftype
    refine ⟨stream, framed, fdata, ?_, hread, (Headers.decode_eq_panic_iff fdata).mp hpanic⟩
    rw [List.append_nil]
    rfl
  · split_ifs at hlast with hmethod
    · cases hlast.of_done.2
    · cases hlast.of_done.2

/-- Accepting a request sends nothing. -/
theorem quiet_accept (fuel : Nat) : Quiet True (accept fuel) := by
  apply (quiet_accept_bi.mapErr _).bind
  intro stream
  apply (Frame.quiet_accept True fuel stream).bind
  rintro ⟨ftype, len, fdata⟩
  simp only
  split_ifs
  · exact .done_err _
  · apply Always.bind (.done fun _ => trivial)
    intro headers
    split_ifs
    · exact .done_err _
    · exact .done_ok _

/-- The answer is one message with the status. -/
theorem of_ok {iter : HashMap.Iterates ok_headers.fields} (h : (request.ok iter).Follows script ()) :
    ∃ frame, script = [⟨.write_all request.writer frame, .ok ()⟩] ∧ Message ok_headers frame := by
  obtain ⟨fdata, frame, hencode, hframe, hmessage⟩ := encode_spec sendable_ok_headers iter
  simp only [ok, hencode, mapErr_ok, lift, done_ok_bind, hframe] at h
  exact ⟨frame, of_write_all h.of_mapErr, hmessage⟩

/-- The operation sends the response to the request. -/
def Responds (request : Request) (op : Op) : Prop :=
  ∃ frame, op = .write_all request.writer frame ∧ Message ok_headers frame

/-- An answer is sent in one operation, if at all. -/
theorem ran_ok {iter : HashMap.Iterates ok_headers.fields} {m : Async Quic H3Error Unit}
    (h : Ran script (request.ok iter) m) : script = [] ∨ ∃ entry, script = [entry] ∧ request.Responds entry.1 := by
  obtain ⟨fdata, frame, hencode, hframe, hmessage⟩ := encode_spec sendable_ok_headers iter
  simp only [ok, hencode, mapErr_ok, lift, done_ok_bind, hframe] at h
  obtain ⟨mid, hmid, -⟩ := h.of_mapErr
  obtain hscript | ⟨answer, hscript⟩ := quinn.Ran.of_write_all hmid
  · exact .inl hscript
  · exact .inr ⟨_, hscript, frame, rfl, hmessage⟩

/-- Sending it does not panic, and nothing else is sent. -/
theorem always_ok (iter : HashMap.Iterates ok_headers.fields) (request : Request) :
    Always request.Responds False (request.ok iter) := by
  obtain ⟨fdata, frame, hencode, hframe, hmessage⟩ := encode_spec sendable_ok_headers iter
  simp only [ok, hencode, mapErr_ok, lift, done_ok_bind, hframe]
  exact (always_write_all ⟨frame, rfl, hmessage⟩).mapErr _

section open_

variable {iter : HashMap.Iterates headers.fields}

/-- A request has been made, and a response has come that accepts it. -/
structure Answered (request : Request) (script : Script Quic) : Prop where
  took : ∃ frame reads fdata resp, Message request.headers frame ∧
    script = ⟨.open_bi, .ok request.writer⟩ :: ⟨.write_all request.writer frame, .ok ()⟩ :: reads ∧
    SectionRead reads request.writer fdata ∧ Lists fdata resp ∧
    resp.get (.lit ":status") = some (.lit "200") ∧
    resp.get (.lit "sec-webtransport-http3-draft") = some (.lit "draft02")
  reader : request.reader = request.writer

/-- A request that was answered was sent with its headers, and the answer was read from its stream. -/
theorem took_open (hheaders : Sendable headers) (h : (open_ fuel headers iter).Follows script request)
    (hexact : Exact script) : request.Answered script ∧ request.headers = headers := by
  obtain ⟨hdata, frame, hencode, hframe, hmessage⟩ := encode_spec hheaders iter
  simp only [open_, hencode, mapErr_ok, lift, done_ok_bind, hframe] at h
  obtain ⟨before, tail, stream, rfl, hopen, htail⟩ := h.of_bind
  obtain ⟨written, rest, ⟨⟩, rfl, hwritten, hrest⟩ := htail.of_bind
  obtain ⟨framed, rest, ⟨ftype, len, fdata⟩, rfl, hresponse, hrest⟩ := hrest.of_bind
  obtain rfl := of_open_bi hopen.of_mapErr
  obtain rfl := of_write_all hwritten.of_mapErr
  simp only at hrest
  split_ifs at hrest with hftype
  · cases hrest.of_done.2
  obtain ⟨decoded, last, resp, rfl, hdecode, hlast⟩ := hrest.of_bind
  obtain ⟨rfl, hdecoded⟩ := hdecode.of_done
  split_ifs at hlast with hstatus hdraft
  · cases hlast.of_done.2
  · cases hlast.of_done.2
  · obtain ⟨rfl, hresult⟩ := hlast.of_done
    cases hresult
    have hread := took_section hresponse hexact.of_append.2.of_append.2.of_append.1 hftype
    refine ⟨⟨⟨frame, framed, fdata, resp, hmessage, ?_, hread, lists_of_decode (mapErr_eq_ok_iff.mp hdecoded),
      get_of_checked hstatus, get_of_checked hdraft⟩, rfl⟩, rfl⟩
    rw [List.nil_append, List.append_nil]
    rfl

/-- The headers of a response can make the client panic, in this way only. -/
theorem panic_open (hheaders : Sendable headers) (h : Ran script (open_ fuel headers iter) (.done .panic))
    (hexact : Exact script) :
    ∃ stream frame reads fdata,
      script = ⟨.open_bi, .ok stream⟩ :: ⟨.write_all stream frame, .ok ()⟩ :: reads ∧
        SectionRead reads stream fdata ∧ Headers.SectionOverflow fdata := by
  obtain ⟨hdata, frame, hencode, hframe, -⟩ := encode_spec hheaders iter
  simp only [open_, hencode, mapErr_ok, lift, done_ok_bind, hframe] at h
  obtain hpanic | ⟨before, tail, stream, rfl, hopen, htail⟩ := h.panic_of_bind
  · exact absurd hpanic ((@always_open_bi (fun _ => True) False trivial).mapErr _).not_panic
  obtain hpanic | ⟨written, rest, ⟨⟩, rfl, hwritten, hrest⟩ := htail.panic_of_bind
  · exact absurd hpanic ((@always_write_all stream frame (fun _ => True) False trivial).mapErr _).not_panic
  obtain hpanic | ⟨framed, rest, ⟨ftype, len, fdata⟩, rfl, hresponse, hrest⟩ := hrest.panic_of_bind
  · exact absurd hpanic (Frame.quiet_accept False fuel stream).not_panic
  obtain rfl := of_open_bi hopen.of_mapErr
  obtain rfl := of_write_all hwritten.of_mapErr
  simp only at hrest
  split_ifs at hrest with hftype
  · cases hrest.of_done.2
  obtain hdecode | ⟨decoded, last, resp, rfl, hdecode, hlast⟩ := hrest.panic_of_bind
  · obtain ⟨rfl, hdecoded⟩ := hdecode.of_done
    have hpanic := mapErr_eq_panic_iff.mp (Async.done.inj hdecoded).symm
    have hread := took_section hresponse hexact.of_append.2.of_append.2.of_append.1 hftype
    refine ⟨stream, frame, framed, fdata, ?_, hread, (Headers.decode_eq_panic_iff fdata).mp hpanic⟩
    rw [List.append_nil]
    rfl
  · split_ifs at hlast
    · cases hlast.of_done.2
    · cases hlast.of_done.2
    · cases hlast.of_done.2

/-- The script is the beginning of one that opens a stream, sends a request with these headers on it and
from then on only reads. The operation opens the stream, or sends the request. -/
def Asks (headers : Headers) (script : Script Quic) (op : Op) : Prop :=
  ∃ stream frame reads, Message headers frame ∧ (∀ entry ∈ reads, ¬ entry.1.Sends) ∧
    Begins script (⟨.open_bi, .ok stream⟩ :: ⟨.write_all stream frame, .ok ()⟩ :: reads) ∧
    (op = .open_bi ∨ op = .write_all stream frame)

/-- However far the client gets, all that it sends is its request. -/
theorem asks_of_ran (hheaders : Sendable headers) {m : Async Quic H3Error Request}
    (h : Ran script (open_ fuel headers iter) m) {entry : (op : Op) × op.Answer} (hentry : entry ∈ script)
    (hsends : entry.1.Sends) : Asks headers script entry.1 := by
  obtain ⟨hdata, frame, hencode, hframe, hmessage⟩ := encode_spec hheaders iter
  have hbegins : ∃ stream reads, (∀ entry ∈ reads, ¬ entry.1.Sends) ∧
      Begins script (⟨.open_bi, .ok stream⟩ :: ⟨.write_all stream frame, .ok ()⟩ :: reads) := by
    simp only [open_, hencode, mapErr_ok, lift, done_ok_bind, hframe] at h
    obtain ⟨mid, hmid, -⟩ | ⟨before, tail, stream, rfl, hopen, htail⟩ := h.of_bind
    · obtain ⟨full, stream, hfull, hbegins⟩ := (fails_fast_open_bi.mapErr _) _ _ hmid
      obtain rfl := of_open_bi hfull.of_mapErr
      exact ⟨stream, [], List.forall_mem_nil _, hbegins.append _⟩
    obtain rfl := of_open_bi hopen.of_mapErr
    obtain ⟨mid, hmid, -⟩ | ⟨written, reads, ⟨⟩, rfl, hwritten, hreads⟩ := htail.of_bind
    · obtain ⟨full, ⟨⟩, hfull, hbegins⟩ := ((fails_fast_write_all stream frame).mapErr _) _ _ hmid
      obtain rfl := of_write_all hfull.of_mapErr
      exact ⟨stream, [], List.forall_mem_nil _, hbegins.append_left _⟩
    obtain rfl := of_write_all hwritten.of_mapErr
    refine ⟨stream, reads, ?_, .refl _⟩
    suffices hquiet : Quiet True _ from (hquiet.of_ran hreads).1
    apply (Frame.quiet_accept True fuel stream).bind
    rintro ⟨ftype, len, fdata⟩
    simp only
    split_ifs
    · exact .done_err _
    · apply Always.bind (.done fun _ => trivial)
      intro resp
      split_ifs
      · exact .done_err _
      · exact .done_err _
      · exact .done_ok _
  obtain ⟨stream, reads, hquiet, hbegins⟩ := hbegins
  refine ⟨stream, frame, reads, hmessage, hquiet, hbegins, ?_⟩
  obtain ⟨entry', hmem, hop⟩ := hbegins.exists_of_mem hentry
  rw [← hop] at hsends ⊢
  obtain rfl | hmem := List.mem_cons.mp hmem
  · exact .inl rfl
  obtain rfl | hmem := List.mem_cons.mp hmem
  · exact .inr rfl
  · exact absurd hsends (hquiet entry' hmem)

end open_

end Request

end wt_proto.h3.connect
