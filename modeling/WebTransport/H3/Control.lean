import WebTransport.H3.Frame
import WebTransport.H3.SettingsValues

open rust rust.Outcome rust.Async quinn wt_proto.coding

namespace wt_proto.h3

namespace Settings

def open_ (settings : Settings) (iter : HashMap.Iterates settings.inner) : Async Quic H3Error StreamId := do
  let cs ← UniStream.CONTROL.open_
  let (_, fdata) ← lift ((encode iter.val).mapErr Empty.elim)
  let buffer ← lift ((Frame.SETTINGS.encode [] fdata).mapErr Empty.elim)
  let _ ← (write_all cs buffer).mapErr .WriteErrir
  pure cs

def accept (fuel : Nat) : Async Quic H3Error (Settings × StreamId) := do
  let (stype, cs) ← UniStream.accept
  if stype ≠ .CONTROL then lift (err .SettingsError)
  else do
    let (ftype, len, data) ← Frame.accept fuel cs
    if ftype ≠ .SETTINGS then lift (err .SettingsError)
    else do
      let (settings, _) ← lift (decode data len)
      pure (settings, cs)

/-- The settings fit into a frame, and their values into 32 bits. -/
structure Sendable (settings : Settings) : Prop where
  short : ∀ iter : HashMap.Iterates settings.inner, iter.val.entries.length < 2 ^ 32
  values : ∀ setting value, settings.inner.lookup setting = some value → value.into_inner < 2 ^ 32

/-- What is written for the settings on a control stream. -/
structure Payload (settings : Settings) (enc frame : List UInt8) : Prop where
  stype : Encodes enc UniStream.CONTROL.stype
  frame : ∃ fdata, Frame.SETTINGS.Encoding frame fdata ∧ decode fdata fdata.length = ok (settings, [])

variable {settings : Settings} {iter : HashMap.Iterates settings.inner} {enc frame : List UInt8}

/-- Settings that can be sent are written in fewer than 2^62 bytes, and decoded from them. -/
theorem encode_spec (hsettings : settings.Sendable) (iter : HashMap.Iterates settings.inner) :
    ∃ fdata : List UInt8, encode iter.val = ok (fdata.length, fdata) ∧ fdata.length < 2 ^ 62 ∧
      decode fdata fdata.length = ok (settings, []) := by
  obtain ⟨fdata, hencode, hpairs, hdecode⟩ := encode_of_narrow hsettings.values iter
  have hle := hpairs.length_le_mul
  have hshort := hsettings.short iter
  exact ⟨fdata, hencode, by omega, hdecode⟩

/-- Whatever the order of the entries is, the same settings are sent. -/
theorem follows_open (hsettings : settings.Sendable) (iter : HashMap.Iterates settings.inner) :
    ∃ enc frame, settings.Payload enc frame ∧ ∀ side index, (settings.open_ iter).Follows
      (calls ⟨side, .Uni, index⟩ [.opens, .writes enc, .writes frame]) ⟨side, .Uni, index⟩ := by
  obtain ⟨enc, hwrite, henc⟩ := write_varint_spec [] UniStream.CONTROL.stype
  obtain ⟨fdata, hencode, hlen, hdecode⟩ := encode_spec hsettings iter
  obtain ⟨frame, hframe, hencoding⟩ := Frame.SETTINGS.encode_spec [] hlen
  refine ⟨enc, frame, ⟨henc, fdata, hencoding, hdecode⟩, fun side index => ?_⟩
  apply (UniStream.follows_open hwrite).bind
  simp only [hencode, mapErr_ok, lift, done_ok_bind, hframe]
  exact ((follows_write_all _ frame).mapErr _).bind (.done _)

/-- Settings are accepted by reading the type and the frame from the next stream, and nothing behind
them. -/
theorem reads_accept (hpayload : settings.Payload enc frame) (fuel : Nat) (side : Side) (index : Nat) :
    Reads ⟨side, .Uni, index⟩ [.accepts] (enc ++ frame) (settings, ⟨side, .Uni, index⟩)
      (accept (fuel + 1)) := by
  obtain ⟨henc, fdata, hencoding, hdecode⟩ := hpayload
  have hstream : Reads ⟨side, .Uni, index⟩ [.accepts] enc (UniStream.CONTROL, ⟨side, .Uni, index⟩)
      UniStream.accept := by
    apply Reads.after (follows_accept_uni.mapErr _)
    apply ((reads_read_varint_async henc).mapErr _).bind_last
    exact reads_done _
  apply hstream.bind
  simp only [ne_eq, not_true_eq_false, ↓reduceIte]
  apply (Frame.reads_accept hencoding rfl fuel _).bind_last
  simp only [not_true_eq_false, ↓reduceIte, hdecode]
  exact reads_done _

/-- The entries `enable_webtransport` leaves in the default settings. -/
def webtransport_iter (max_sessions : UInt32) : HashMap.Iter Setting VarInt where
  entries := [(.ENABLE_CONNECT_PROTOCOL, .from_u32 1), (.ENABLE_DATAGRAM, .from_u32 1),
    (.ENABLE_DATAGRAM_DEPRECATED, .from_u32 1), (.WEBTRANSPORT_MAX_SESSIONS, .from_u32 max_sessions),
    (.WEBTRANSPORT_MAX_SESSIONS_DEPRECATED, .from_u32 max_sessions),
    (.WEBTRANSPORT_ENABLE_DEPRECATED, .from_u32 1)]
  nodup := by
    simp only [List.map_cons, List.map_nil]
    decide

theorem webtransport_iter_map (max_sessions : UInt32) :
    (webtransport_iter max_sessions).map = (default.enable_webtransport max_sessions).inner := rfl

/-- The settings of both sides can be sent. -/
theorem sendable_enable_webtransport (max_sessions : UInt32) :
    (default.enable_webtransport max_sessions).Sendable := by
  constructor
  · intro iter
    have hperm := HashMap.Iter.perm (iter.property.trans (webtransport_iter_map max_sessions).symm)
    have hlength : (webtransport_iter max_sessions).entries.length = 6 := rfl
    rw [hperm.length_eq, hlength]
    decide
  · intro setting value hlookup
    rw [← webtransport_iter_map, HashMap.Iter.lookup_map_iff] at hlookup
    have hvalue : ∃ n : UInt32, value = .from_u32 n := by
      simp only [webtransport_iter, List.mem_cons, Prod.mk.injEq, List.not_mem_nil, or_false] at hlookup
      obtain ⟨-, rfl⟩ | ⟨-, rfl⟩ | ⟨-, rfl⟩ | ⟨-, rfl⟩ | ⟨-, rfl⟩ | ⟨-, rfl⟩ := hlookup
      all_goals exact ⟨_, rfl⟩
    obtain ⟨n, rfl⟩ := hvalue
    exact n.toNat_lt

theorem supports_enable_webtransport (max_sessions : UInt32) :
    (default.enable_webtransport max_sessions).supports_webtransport = true := by
  rw [supports_webtransport, enable_webtransport, Settings.insert, Finmap.lookup_insert]
  rfl

end Settings

end wt_proto.h3
