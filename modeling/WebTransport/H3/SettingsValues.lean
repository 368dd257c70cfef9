import WebTransport.H3.Settings

open rust rust.Outcome wt_proto.coding

namespace wt_proto.h3

namespace Settings

/-- The peer's last word on a setting. -/
def LastValue (list : List (Setting × VarInt)) (setting : Setting) (value : VarInt) : Prop :=
  ∃ before after, list = before ++ (setting, value) :: after ∧ setting ∉ after.map Prod.fst

/-- The settings the peer sent, with nothing cut off. -/
def sent (list : List (Setting × VarInt)) : Settings := { inner := HashMap.insert_all ∅ list }

/-- The payload is read as the settings the peer sent. -/
structure Received (bytes : List UInt8) (list : List (Setting × VarInt)) (settings : Settings) : Prop where
  decoded : decode bytes bytes.length = ok (settings, [])
  bound : ∀ setting value, settings.inner.lookup setting = some value ↔ LastValue list setting value
  supports : settings.supports_webtransport = (sent list).supports_webtransport

/-- Entries are written as pairs, in their order. -/
theorem encode_loop_spec (entries : List (Setting × VarInt)) (data : List UInt8) :
    ∃ bytes, encode_loop entries data = ok (data ++ bytes) ∧ Pairs bytes entries := by
  induction entries generalizing data with
  | nil => exact ⟨[], by rw [encode_loop, List.append_nil], .nil⟩
  | cons entry entries ih =>
    obtain ⟨setting, value⟩ := entry
    obtain ⟨enc, hwrite, henc⟩ := write_varint_spec data setting.id
    obtain ⟨enc', hwrite', henc'⟩ := write_varint_spec (data ++ enc) value
    obtain ⟨bytes, hloop, hpairs⟩ := ih (data ++ enc ++ enc')
    refine ⟨enc ++ (enc' ++ bytes), ?_, .cons henc henc' hpairs⟩
    rw [encode_loop, hwrite, ok_bind, hwrite', ok_bind, hloop]
    simp only [List.append_assoc]

/-- A pair has 16 bytes at most. -/
theorem Pairs.length_le_mul {bytes : List UInt8} {list : List (Setting × VarInt)} (hpairs : Pairs bytes list) :
    bytes.length ≤ 16 * list.length := by
  induction hpairs with
  | nil => exact le_refl _
  | cons hsetting hvalue _ ih =>
    have hle := hsetting.length_le
    have hle' := hvalue.length_le
    simp only [List.length_append, List.length_cons]
    omega

/-- A pair as `insert` stores it. -/
def narrow (pair : Setting × VarInt) : Setting × VarInt :=
  (pair.1, .from_u32 (UInt32.ofNat pair.2.into_inner))

/-- A value of 32 bits keeps all of them. -/
theorem narrow_of_lt {pair : Setting × VarInt} (hvalue : pair.2.into_inner < 2 ^ 32) : narrow pair = pair := by
  have hcast : VarInt.from_u32 (UInt32.ofNat pair.2.into_inner) = pair.2 := by
    apply VarInt.ext
    exact Nat.mod_eq_of_lt hvalue
  rw [narrow, hcast]

/-- The map holds the last value of each setting, cut to 32 bits. -/
theorem insert_pairs_inner (self : Settings) (list : List (Setting × VarInt)) :
    (self.insert_pairs list).inner = self.inner.insert_all (list.map narrow) := by
  induction list generalizing self with
  | nil => rfl
  | cons pair list ih =>
    rw [List.map_cons, HashMap.insert_all_cons]
    exact ih _

/-- Values of 32 bits are inserted as they are. -/
theorem insert_pairs_of_lt {list : List (Setting × VarInt)} (hvalues : ∀ pair ∈ list, pair.2.into_inner < 2 ^ 32)
    (self : Settings) : self.insert_pairs list = { inner := self.inner.insert_all list } := by
  have hlist : list.map narrow = list := by
    rw [List.map_congr_left fun pair hmem => narrow_of_lt (hvalues pair hmem), List.map_id']
  have hinner := self.insert_pairs_inner list
  rw [hlist] at hinner
  rw [← hinner]

/-- Cutting the values does not change which of them is the last one. -/
theorem lastValue_map_narrow_iff (list : List (Setting × VarInt)) (setting : Setting) (value : VarInt) :
    LastValue (list.map narrow) setting value ↔
      ∃ whole, LastValue list setting whole ∧ value = .from_u32 (UInt32.ofNat whole.into_inner) := by
  constructor
  · rintro ⟨before, after, hlist, hafter⟩
    obtain ⟨before', after', rfl, rfl, hcons⟩ := List.map_eq_append_iff.mp hlist
    obtain ⟨⟨setting', whole⟩, after'', rfl, hpair, rfl⟩ := List.map_eq_cons_iff.mp hcons
    cases hpair
    refine ⟨whole, ⟨before', after'', rfl, ?_⟩, rfl⟩
    rwa [List.map_map] at hafter
  · rintro ⟨whole, ⟨before, after, rfl, hafter⟩, rfl⟩
    refine ⟨before.map narrow, after.map narrow, by rw [List.map_append, List.map_cons]; rfl, ?_⟩
    rwa [List.map_map]

/-- What `decode` binds a setting to: the last value the peer sent, cut down to 32 bits. -/
theorem lookup_insert_pairs_iff (list : List (Setting × VarInt)) (setting : Setting) (value : VarInt) :
    (default.insert_pairs list).inner.lookup setting = some value ↔
      ∃ whole, LastValue list setting whole ∧ value = .from_u32 (UInt32.ofNat whole.into_inner) := by
  rw [insert_pairs_inner, ← lastValue_map_narrow_iff]
  exact HashMap.lookup_insert_all_iff _ _ _

/-- Settings are received exactly iff the last value of each of them fits into 32 bits. -/
theorem received_iff {bytes : List UInt8} {list : List (Setting × VarInt)} (hpairs : Pairs bytes list) :
    (∃ settings, Received bytes list settings) ↔
      ∀ setting value, LastValue list setting value → value.into_inner < 2 ^ 32 := by
  constructor
  · rintro ⟨settings, hreceived⟩ setting value hlast
    have hdecoded := hreceived.decoded
    rw [decode_whole_pairs hpairs] at hdecoded
    cases hdecoded
    obtain ⟨whole, -, rfl⟩ := (lookup_insert_pairs_iff _ _ _).mp ((hreceived.bound _ _).mpr hlast)
    exact (UInt32.ofNat whole.into_inner).toNat_lt
  · intro hvalues
    have hbound (setting : Setting) (value : VarInt) :
        (default.insert_pairs list).inner.lookup setting = some value ↔ LastValue list setting value := by
      rw [lookup_insert_pairs_iff]
      constructor
      · rintro ⟨whole, hlast, rfl⟩
        rwa [show VarInt.from_u32 (UInt32.ofNat whole.into_inner) = whole from
          congrArg Prod.snd (@narrow_of_lt (setting, whole) (hvalues setting whole hlast))]
      · intro hlast
        exact ⟨value, hlast, (congrArg Prod.snd (@narrow_of_lt (setting, value) (hvalues setting value hlast))).symm⟩
    have hsent : default.insert_pairs list = sent list := by
      apply congrArg Settings.mk
      apply Finmap.ext_lookup
      intro setting
      apply Option.ext
      intro value
      exact (hbound setting value).trans (HashMap.lookup_insert_all_iff _ _ _).symm
    exact ⟨default.insert_pairs list, decode_whole_pairs hpairs, hbound, by rw [hsent]⟩

theorem LastValue.mem {list : List (Setting × VarInt)} {setting : Setting} {value : VarInt}
    (hlast : LastValue list setting value) : (setting, value) ∈ list := by
  obtain ⟨before, after, rfl, -⟩ := hlast
  exact List.mem_append_right _ List.mem_cons_self

/-- `ENABLE_DATAGRAM` twice, the second time with its value in two bytes. -/
theorem received_enable_datagram :
    ∃ settings, Received [0x33, 0x01, 0x33, 0x40, 0x00]
      [(.ENABLE_DATAGRAM, .from_u32 1), (.ENABLE_DATAGRAM, .from_u32 0)] settings := by
  have hpairs : Pairs [0x33, 0x01, 0x33, 0x40, 0x00]
      [(.ENABLE_DATAGRAM, .from_u32 1), (.ENABLE_DATAGRAM, .from_u32 0)] :=
    @Pairs.cons [0x33] [0x01] _ _ _ _ (.intro (by decide) (by decide)) (.intro (by decide) (by decide))
      (@Pairs.cons [0x33] [0x40, 0x00] _ _ _ _ (.intro (by decide) (by decide))
        (.intro (by decide) (by decide)) .nil)
  refine (received_iff hpairs).mpr fun setting value hlast => ?_
  have hmem := hlast.mem
  simp only [List.mem_cons, Prod.mk.injEq, List.not_mem_nil, or_false] at hmem
  obtain ⟨-, rfl⟩ | ⟨-, rfl⟩ := hmem
  all_goals exact UInt32.toNat_lt _

/-- `WEBTRANSPORT_ENABLE_DEPRECATED` with the value `2 ^ 32` is stored as 0. -/
theorem not_received_two_pow_32 :
    Pairs [0xAB, 0x60, 0x37, 0x42, 0xC0, 0x00, 0x00, 0x01, 0x00, 0x00, 0x00, 0x00]
        [(.WEBTRANSPORT_ENABLE_DEPRECATED, ⟨2 ^ 32, by decide⟩)] ∧
      ¬ ∃ settings, Received [0xAB, 0x60, 0x37, 0x42, 0xC0, 0x00, 0x00, 0x01, 0x00, 0x00, 0x00, 0x00]
        [(.WEBTRANSPORT_ENABLE_DEPRECATED, ⟨2 ^ 32, by decide⟩)] settings := by
  have hpairs : Pairs [0xAB, 0x60, 0x37, 0x42, 0xC0, 0x00, 0x00, 0x01, 0x00, 0x00, 0x00, 0x00]
      [(.WEBTRANSPORT_ENABLE_DEPRECATED, ⟨2 ^ 32, by decide⟩)] :=
    @Pairs.cons [0xAB, 0x60, 0x37, 0x42] [0xC0, 0x00, 0x00, 0x01, 0x00, 0x00, 0x00, 0x00] _ _ _ _
      (.intro (by decide) (by decide)) (.intro (by decide) (by decide)) .nil
  refine ⟨hpairs, ?_⟩
  rintro ⟨settings, hreceived⟩
  have hdecoded := hreceived.decoded
  rw [decode_whole_pairs hpairs] at hdecoded
  cases hdecoded
  have hsupports := hreceived.supports
  rw [insert_pairs, sent, supports_webtransport, supports_webtransport] at hsupports
  cases hsupports

/-- Every value fits into the `u32` that `insert` takes. -/
def Narrow (settings : Settings) : Prop :=
  ∀ setting value, settings.inner.lookup setting = some value → value.into_inner < 2 ^ 32

def new : Settings :=
  let grease := VarInt.from_u32 (0x1f + 0x21)
  let randomvalue := VarInt.from_u32 0x6429
  { inner := (∅ : HashMap Setting VarInt).insert ⟨grease⟩ randomvalue }

/-- The settings that can be made by the public functions. -/
inductive Built : Settings → Prop where
  | new : Built new
  | default : Built default
  | enable_webtransport {settings : Settings} (hbuilt : Built settings) (max_sessions : UInt32) :
      Built (settings.enable_webtransport max_sessions)
  | decode {settings : Settings} {data rest : List UInt8} {len : Nat}
      (hdecode : decode data len = ok (settings, rest)) : Built settings

theorem narrow_default : Narrow default := by
  intro setting value hlookup
  rw [default, Finmap.lookup_empty] at hlookup
  cases hlookup

/-- Values are inserted with 32 bits. -/
theorem Narrow.insert {settings : Settings} (hnarrow : settings.Narrow) (setting : Setting) (value : UInt32) :
    (settings.insert setting value).Narrow := by
  intro setting' value' hlookup
  rw [Settings.insert] at hlookup
  by_cases hsame : setting' = setting
  · subst hsame
    rw [Finmap.lookup_insert] at hlookup
    cases hlookup
    exact value.toNat_lt
  · rw [Finmap.lookup_insert_of_ne _ hsame] at hlookup
    exact hnarrow setting' value' hlookup

/-- The settings that WebTransport needs are inserted with 32 bits. -/
theorem Narrow.enable_webtransport {settings : Settings} (hnarrow : settings.Narrow) (max_sessions : UInt32) :
    (settings.enable_webtransport max_sessions).Narrow := by
  rw [Settings.enable_webtransport]
  apply Narrow.insert
  apply Narrow.insert
  apply Narrow.insert
  apply Narrow.insert
  apply Narrow.insert
  exact hnarrow.insert _ _

/-- The loop only inserts, whatever the payload is. -/
theorem Narrow.decode_loop {settings settings' : Settings} {fuel : Nat} {data : List UInt8}
    (hnarrow : settings.Narrow) (h : decode_loop fuel data settings = ok settings') : settings'.Narrow := by
  induction fuel generalizing data settings with
  | zero => cases h
  | succ fuel ih =>
    cases data with
    | nil =>
      cases h
      exact hnarrow
    | cons byte data =>
      rw [Settings.decode_loop, bind_eq_ok_iff] at h
      obtain ⟨⟨setting, data'⟩, -, h⟩ := h
      rw [bind_eq_ok_iff] at h
      obtain ⟨⟨value, data''⟩, -, h⟩ := h
      exact ih (hnarrow.insert _ _) h

/-- Settings that the code can build have values of 32 bits only. -/
theorem Built.narrow {settings : Settings} (hbuilt : Built settings) : settings.Narrow := by
  induction hbuilt with
  | new => exact narrow_default.insert ⟨.from_u32 (0x1f + 0x21)⟩ 0x6429
  | default => exact narrow_default
  | enable_webtransport _ max_sessions ih => exact ih.enable_webtransport max_sessions
  | decode hdecode =>
    rw [Settings.decode, bind_eq_ok_iff] at hdecode
    obtain ⟨⟨payload, data⟩, -, h⟩ := hdecode
    rw [bind_eq_ok_iff] at h
    obtain ⟨settings, hloop, h⟩ := h
    cases h
    exact narrow_default.decode_loop hloop

/-- Narrow settings are written without loss, in any order of their entries. -/
theorem encode_of_narrow {settings : Settings} (hnarrow : settings.Narrow)
    (iter : HashMap.Iterates settings.inner) :
    ∃ bytes : List UInt8, encode iter.val = ok (bytes.length, bytes) ∧ Pairs bytes iter.val.entries ∧
      decode bytes bytes.length = ok (settings, []) := by
  obtain ⟨bytes, hloop, hpairs⟩ := encode_loop_spec iter.val.entries []
  have hvalues : ∀ pair ∈ iter.val.entries, pair.2.into_inner < 2 ^ 32 := by
    intro pair hmem
    apply hnarrow pair.1
    rw [← iter.property]
    exact (iter.val.lookup_map_iff _ _).mpr hmem
  have hinsert : default.insert_pairs iter.val.entries = settings := by
    rw [insert_pairs_of_lt hvalues]
    exact congrArg Settings.mk iter.property
  refine ⟨bytes, ?_, hpairs, ?_⟩
  · rw [encode, hloop, ok_bind, List.nil_append]
  · rw [decode_whole_pairs hpairs, hinsert]

/-- Whatever built the settings and in whatever order the map yields its entries, they are
encoded with their length and decoded to the same settings. -/
theorem decode_encode_built {settings : Settings} (hbuilt : Built settings)
    (iter : HashMap.Iterates settings.inner) :
    ∃ bytes : List UInt8, encode iter.val = ok (bytes.length, bytes) ∧
      decode bytes bytes.length = ok (settings, []) := by
  obtain ⟨bytes, hencode, -, hdecode⟩ := encode_of_narrow hbuilt.narrow iter
  exact ⟨bytes, hencode, hdecode⟩

/-- The entries of `new` after `enable_webtransport`, in another order than that of their insertion. -/
def enabled_iter : HashMap.Iterates (new.enable_webtransport 4).inner where
  val := {
    entries := [(.WEBTRANSPORT_MAX_SESSIONS, .from_u32 4), (.ENABLE_DATAGRAM, .from_u32 1),
      (⟨.from_u32 (0x1f + 0x21)⟩, .from_u32 0x6429), (.WEBTRANSPORT_ENABLE_DEPRECATED, .from_u32 1),
      (.ENABLE_CONNECT_PROTOCOL, .from_u32 1), (.WEBTRANSPORT_MAX_SESSIONS_DEPRECATED, .from_u32 4),
      (.ENABLE_DATAGRAM_DEPRECATED, .from_u32 1)]
    nodup := by decide }
  property := by decide

/-- New settings with WebTransport enabled, written in the order of `enabled_iter`. -/
theorem decode_encode_enabled :
    ∃ bytes : List UInt8, encode enabled_iter.val = ok (bytes.length, bytes) ∧
      decode bytes bytes.length = ok (new.enable_webtransport 4, []) :=
  decode_encode_built (.enable_webtransport .new 4) enabled_iter

end Settings

end wt_proto.h3
