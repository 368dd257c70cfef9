import WebTransport.Huffman.Decode
import WebTransport.Transition.Run

open rust rust.Outcome bits transition

namespace wt_proto.huffman

/-- The iteration between two lookups: the table to look up in, the window of the lookup before,
the bits all lookups have returned, how many they were at the last symbol, and the symbols. -/
structure Decoding where
  decoder : HuffmanDecoder
  bit_pos : BitWindow
  taken : List Bool
  begun : Nat
  decoded : List UInt8

namespace Decoding

def start : Decoding :=
  { decoder := HPACK_STRING, bit_pos := BitWindow.new, taken := [], begun := 0, decoded := [] }

/-- One lookup: a call of `decode_next` up to its recursive call, or to the next call that
the iterator makes after a symbol. -/
def turn (self : Decoding) (content : List UInt8) : Outcome Error (Option Decoding) := do
  let bit_pos ← self.bit_pos.forwards self.decoder.lookup
  let value ← fetch_value bit_pos content
  match value with
  | none => ok none
  | some value =>
    let taken := self.taken ++ bits.ofNat bit_pos.count value
    match self.decoder.table[value]? with
    | none => err (.Unhandled bit_pos value)
    | some (.symbol x) =>
      ok (some { decoder := HPACK_STRING, bit_pos, taken, begun := taken.length, decoded := self.decoded ++ [x] })
    | some (.table lookup table) => ok (some { self with decoder := ⟨lookup, table⟩, bit_pos, taken })

def step (content : List UInt8) (self : Decoding) (_ : Unit) : Option Decoding :=
  match self.turn content with
  | ok next => next
  | _ => none

/-- A step is a lookup that does not end the iteration. -/
theorem step_eq_some_iff {content : List UInt8} {self next : Decoding} {event : Unit} :
    step content self event = some next ↔ self.turn content = ok (some next) := by
  rw [step]
  split
  · rename_i heq
    rw [heq, Outcome.ok.injEq]
  · rename_i hne
    constructor
    · rintro ⟨⟩
    · intro h
      exact absurd h (hne _)

/-- One round of `collect` decodes one symbol. -/
theorem collect_eq (fuel : Nat) (bit_pos : BitWindow) (content decoded : List UInt8) :
    DecodeIter.collect (fuel + 1) { bit_pos, content } decoded = (do
      let (byte, bit_pos) ← HPACK_STRING.decode_next bit_pos content
      match byte with
      | none => ok decoded
      | some byte => DecodeIter.collect fuel { bit_pos, content } (decoded ++ [byte])) := by
  rw [DecodeIter.collect, DecodeIter.next, bind_assoc]
  rfl

/-- What is left of `hpack_decode`. -/
def resumes (self : Decoding) (content : List UInt8) : Outcome Error (List UInt8) := do
  let (byte, bit_pos) ← self.decoder.decode_next self.bit_pos content
  match byte with
  | none => ok self.decoded
  | some byte =>
    DecodeIter.collect (8 * content.length - self.decoded.length) { bit_pos, content } (self.decoded ++ [byte])

/-- At the start all of `hpack_decode` is left. -/
theorem resumes_start (content : List UInt8) : hpack_decode content = start.resumes content := by
  rw [hpack_decode, collect_eq]
  rfl

/-- A lookup brings `hpack_decode` forward as it does the iteration. -/
theorem resumes_turn (self : Decoding) {content : List UInt8}
    (hroom : ∀ next, self.turn content = ok (some next) → self.decoded.length < 8 * content.length) :
    self.resumes content = (do
      let next ← self.turn content
      match next with
      | none => ok self.decoded
      | some next => next.resumes content) := by
  rw [resumes, HuffmanDecoder.decode_next_eq]
  rw [turn] at hroom ⊢
  cases hforwards : self.bit_pos.forwards self.decoder.lookup with
  | err e => rfl
  | panic => rfl
  | diverge => rfl
  | ok window =>
    rw [hforwards, ok_bind] at hroom
    rw [ok_bind, ok_bind]
    cases hfetch : fetch_value window content with
    | err e => rfl
    | panic => rfl
    | diverge => rfl
    | ok value =>
      rw [hfetch, ok_bind] at hroom
      rw [ok_bind, ok_bind]
      cases value with
      | none => rfl
      | some value =>
        cases hentry : self.decoder.table[value]? with
        | none => simp only [hentry, err_bind]
        | some entry =>
          simp only [hentry] at hroom
          cases entry with
          | symbol x =>
            have hless := hroom _ rfl
            obtain ⟨fuel, hfuel⟩ : ∃ fuel, 8 * content.length - self.decoded.length = fuel + 1 :=
              ⟨8 * content.length - self.decoded.length - 1, by omega⟩
            have hrest : 8 * content.length - (self.decoded.length + 1) = fuel := by omega
            simp only [hentry, ok_bind, hfuel, collect_eq, resumes, List.length_append,
              List.length_singleton, hrest]
          | table lookup table => simp only [hentry, ok_bind, resumes]

/-- The window is where the lookups have got to, and they have followed code words and then a
path to the table. -/
structure Valid (content : List UInt8) (state : Decoding) : Prop where
  decoder : ∃ path, state.taken = rfc7541_encode state.decoded ++ path ∧
    (DecodeValue.Partial HPACK_STRING).At path (DecodeValue.Partial state.decoder)
  begun : state.begun = (rfc7541_encode state.decoded).length
  consumed : state.bit_pos.consumed = state.taken.length
  front : ∃ rest, ofBytes content = state.taken ++ rest

theorem valid_start (content : List UInt8) : start.Valid content :=
  ⟨⟨[], rfl, .here _⟩, rfl, rfl, ⟨_, rfl⟩⟩

/-- A read of the window: it begins where the reads before it have ended, inside the payload, and
gives the bits that come next or fails when there are not enough of them. -/
structure ReadsNext (content : List UInt8) (taken : List Bool) (window : BitWindow) : Prop where
  bit : window.bit < 8
  position : 8 * window.byte + window.bit = taken.length
  inside : taken.length ≤ 8 * content.length
  bits : read_bits content window.byte window.bit window.count =
    if taken.length + window.count ≤ 8 * content.length then
      ok (value (((ofBytes content).drop taken.length).take window.count))
    else err ()

variable {content : List UInt8} {self next : Decoding}

theorem Valid.lookup (hvalid : self.Valid content) : 0 < self.decoder.lookup ∧ self.decoder.lookup ≤ 8 := by
  obtain ⟨path, -, hat⟩ := hvalid.decoder
  exact hpack_string_narrow hat

/-- No bit has been read from behind the payload. -/
theorem Valid.inside (hvalid : self.Valid content) : self.taken.length ≤ 8 * content.length := by
  obtain ⟨rest, hrest⟩ := hvalid.front
  have hlength := congrArg List.length hrest
  rw [length_ofBytes, List.length_append] at hlength
  omega

/-- Every symbol has taken five bits or more. -/
theorem Valid.symbols (hvalid : self.Valid content) : 5 * self.decoded.length ≤ self.taken.length := by
  obtain ⟨path, htaken, -⟩ := hvalid.decoder
  have hwords := length_le_encode self.decoded
  rw [htaken, List.length_append]
  omega

/-- A window that begins inside the payload reads the next bits, or fails when there are not enough of
them. -/
theorem readsNext {taken : List Bool} {window : BitWindow} (hlen : content.length ≤ 2 ^ 28)
    (hbit : window.bit < 8) (hposition : 8 * window.byte + window.bit = taken.length)
    (hinside : taken.length ≤ 8 * content.length) (hpos : 0 < window.count) (hcount : window.count ≤ 8) :
    ReadsNext content taken window := by
  refine ⟨hbit, hposition, hinside, ?_⟩
  rw [read_bits_spec (by omega) hpos hcount hbit (by omega), hposition,
    Nat.mod_eq_of_lt (show content.length < 2 ^ 32 by omega)]

/-- The next lookup steps forward without overflow and reads the next bits. -/
theorem Valid.forwards (hvalid : self.Valid content) (hlen : content.length ≤ 2 ^ 28) :
    ∃ window, self.bit_pos.forwards self.decoder.lookup = ok window ∧
      window.count = self.decoder.lookup ∧ ReadsNext content self.taken window := by
  have hinside := hvalid.inside
  have hconsumed := hvalid.consumed
  obtain ⟨hpos, hcount⟩ := hvalid.lookup
  obtain ⟨window, hforwards, hposition, hbit, hstep⟩ :=
    self.bit_pos.forwards_spec self.decoder.lookup (by omega)
  rw [hconsumed, BitWindow.position] at hposition
  exact ⟨window, hforwards, hstep, readsNext hlen hbit hposition hinside (by omega) (by omega)⟩

theorem ReadsNext.fetch_value_ok {taken : List Bool} {window : BitWindow} (hreads : ReadsNext content taken window)
    (hfit : taken.length + window.count ≤ 8 * content.length) :
    fetch_value window content = ok (some (value (((ofBytes content).drop taken.length).take window.count))) := by
  rw [fetch_value, hreads.bits, if_pos hfit]

/-- Where a read fails the window is in the last byte of the payload or behind it, and so is the
read of the rest of that byte. -/
theorem ReadsNext.short {taken : List Bool} {window : BitWindow} (hreads : ReadsNext content taken window)
    (hlen : content.length ≤ 2 ^ 28) (hcount : window.count ≤ 8)
    (hshort : 8 * content.length < taken.length + window.count) :
    content.length ≤ window.byte + 1 ∧ ReadsNext content taken window.opposite_bit_window ∧
      (fetch_value window content = ok none ∨ ∃ e, fetch_value window content = err e) := by
  obtain ⟨hbit, hposition, hinside, -⟩ := hreads
  refine ⟨by omega, ?_, ?_⟩
  · apply @readsNext content taken window.opposite_bit_window hlen hbit hposition hinside
    · simp only [BitWindow.opposite_bit_window]
      omega
    · exact Nat.sub_le _ _
  · have hmod : content.length % 2 ^ 32 = content.length := Nat.mod_eq_of_lt (by omega)
    rw [fetch_value_short (by omega) hbit hcount (by rw [BitWindow.position]; omega)
      (by rw [BitWindow.position]; omega) rfl
      (by rw [List.length_drop, length_readable, BitWindow.position]; omega)]
    split_ifs
    · exact .inl rfl
    · exact .inr ⟨_, rfl⟩

/-- A lookup that does not end the iteration takes bits, and five or more for each symbol. -/
structure Advances (state next : Decoding) : Prop where
  taken : state.taken.length < next.taken.length
  symbol : next.decoded = state.decoded ∧ next.begun = state.begun ∨
    ∃ x, next.decoded = state.decoded ++ [x] ∧ next.begun = next.taken.length ∧ state.begun + 5 ≤ next.begun

/-- A lookup ends the iteration, or it fails, or it takes bits and stays inside the payload. -/
theorem Valid.turn (hvalid : self.Valid content) (hlen : content.length ≤ 2 ^ 28) :
    self.turn content = ok none ∨ (∃ e, self.turn content = err e) ∨
      ∃ next, self.turn content = ok (some next) ∧ next.Valid content ∧ self.Advances next := by
  obtain ⟨window, hforwards, hcount, hreads⟩ := hvalid.forwards hlen
  obtain ⟨hpos, hle⟩ := hvalid.lookup
  by_cases hfit : self.taken.length + window.count ≤ 8 * content.length
  · obtain ⟨path, htaken, hat⟩ := hvalid.decoder
    obtain ⟨rest, hrest⟩ := hvalid.front
    have hfetch := hreads.fetch_value_ok hfit
    have hlength := congrArg List.length hrest
    rw [length_ofBytes, List.length_append] at hlength
    rw [hrest, List.drop_left] at hfetch
    have hword : (rest.take window.count).length = window.count := by
      rw [List.length_take]
      omega
    have hbits := ofNat_value (rest.take window.count)
    rw [hword] at hbits
    have hconsumed : window.consumed = (self.taken ++ rest.take window.count).length := by
      have hposition := hreads.position
      rw [List.length_append, hword, BitWindow.consumed, BitWindow.position, hposition]
    have hfront : ∃ rest', ofBytes content = self.taken ++ rest.take window.count ++ rest' := by
      refine ⟨rest.drop window.count, ?_⟩
      rw [List.append_assoc, List.take_append_drop, hrest]
    have htake : self.taken.length < (self.taken ++ rest.take window.count).length := by
      rw [List.length_append, hword]
      omega
    rw [Decoding.turn, hforwards, ok_bind, hfetch, ok_bind]
    simp only [hbits]
    generalize hvalue : rest.take window.count = word at *
    cases hentry : self.decoder.table[value word]? with
    | none => exact .inr (.inl ⟨_, rfl⟩)
    | some entry =>
      have hsnoc := hat.snoc (hword.trans hcount) hentry
      right
      right
      cases entry with
      | symbol x =>
        have hcode : path ++ word = rfc7541_code x := hpack_string_decodes.sound hsnoc
        have hencode : self.taken ++ word = rfc7541_encode (self.decoded ++ [x]) := by
          rw [htaken, List.append_assoc, hcode, rfc7541_encode, rfc7541_encode, List.flatMap_append]
          simp
        have hfive : (rfc7541_encode self.decoded).length + 5 ≤ (self.taken ++ word).length := by
          have hcodelen := rfc7541_code_length x
          rw [htaken, List.append_assoc, hcode, List.length_append]
          omega
        refine ⟨_, rfl, ⟨⟨[], ?_, .here _⟩, ?_, hconsumed, hfront⟩, htake, .inr ⟨x, rfl, rfl, ?_⟩⟩
        · rw [List.append_nil]
          exact hencode
        · exact congrArg List.length hencode
        · rw [hvalid.begun]
          exact hfive
      | table lookup table =>
        refine ⟨_, rfl, ⟨⟨path ++ word, ?_, hsnoc⟩, hvalid.begun, hconsumed, hfront⟩, htake, .inl ⟨rfl, rfl⟩⟩
        rw [htaken, List.append_assoc]
  · have hshort := (hreads.short hlen (by omega) (by omega)).2.2
    rw [Decoding.turn, hforwards, ok_bind]
    rcases hshort with hend | ⟨e, herr⟩
    · left
      rw [hend, ok_bind]
    · right
      left
      exact ⟨e, by rw [herr, err_bind]⟩

/-- The window is right after any number of lookups. -/
theorem valid_of_reachable (hlen : content.length ≤ 2 ^ 28)
    (hreached : Reachable (step content) start self) : self.Valid content := by
  apply Run.invariant (Decoding.Valid content) (valid_start content) _ hreached
  intro s next _ hvalid _ hstep
  rw [step_eq_some_iff] at hstep
  rcases hvalid.turn hlen with hend | ⟨e, herr⟩ | ⟨next', hnext, hvalid', -⟩
  · rw [hend] at hstep
    cases hstep
  · rw [herr] at hstep
    cases hstep
  · rw [hnext] at hstep
    cases hstep
    exact hvalid'

/-- There is fuel for another symbol wherever a lookup does not end the iteration. -/
theorem Valid.room (hvalid : self.Valid content) (hlen : content.length ≤ 2 ^ 28)
    (hturn : self.turn content = ok (some next)) : self.decoded.length < 8 * content.length := by
  have hsymbols := hvalid.symbols
  rcases hvalid.turn hlen with hend | ⟨e, herr⟩ | ⟨next', hnext, hvalid', hadvances⟩
  · rw [hend] at hturn
    cases hturn
  · rw [herr] at hturn
    cases hturn
  · have htaken := hadvances.taken
    have hinside := hvalid'.inside
    omega

/-- Every state the iteration reaches is a state of `hpack_decode`. -/
theorem resumes_of_reachable (hlen : content.length ≤ 2 ^ 28)
    (hreached : Reachable (step content) start self) : hpack_decode content = self.resumes content := by
  induction hreached with
  | start => exact resumes_start content
  | @step s next event hrun _ hstep ih =>
    have hvalid := valid_of_reachable hlen hrun
    rw [step_eq_some_iff] at hstep
    rw [ih, resumes_turn s fun _ hturn => hvalid.room hlen hturn, hstep, ok_bind]

/-- From every state the iteration comes to its end. -/
theorem exists_end (hlen : content.length ≤ 2 ^ 28) (hreached : Reachable (step content) start self) :
    ∃ last : Decoding, Reachable (step content) start last ∧
      (last.turn content = ok none ∨ ∃ e, last.turn content = err e) := by
  induction hleft : 8 * content.length - self.taken.length using Nat.strong_induction_on generalizing self with
  | _ left ih =>
    have hvalid := valid_of_reachable hlen hreached
    rcases hvalid.turn hlen with hend | herr | ⟨next, hnext, hvalid', hadvances⟩
    · exact ⟨self, hreached, .inl hend⟩
    · exact ⟨self, hreached, .inr herr⟩
    · have htaken := hadvances.taken
      have hinside := hvalid'.inside
      have hstep : step content self () = some next := step_eq_some_iff.mpr hnext
      exact ih (8 * content.length - next.taken.length) (by omega) (.step hreached trivial hstep) rfl

/-- What the next lookup does: it reads the next bits, and if they are not there it looks for the
end in the last byte of the payload or behind it, and reads the rest of that byte. -/
structure Safe (content : List UInt8) (state : Decoding) : Prop where
  reads : ∃ window, state.bit_pos.forwards state.decoder.lookup = ok window ∧
    ReadsNext content state.taken window ∧
    (read_bits content window.byte window.bit window.count = err () →
      content.length ≤ window.byte + 1 ∧ ReadsNext content state.taken window.opposite_bit_window)
  returns : (state.turn content).Returns
  advances : ∀ next, state.turn content = ok (some next) → state.Advances next
  symbols : 5 * state.decoded.length ≤ 8 * content.length

/-- The next lookup reads the bits that come next. -/
theorem Valid.safe (hvalid : self.Valid content) (hlen : content.length ≤ 2 ^ 28) : self.Safe content := by
  obtain ⟨window, hforwards, hcount, hreads⟩ := hvalid.forwards hlen
  obtain ⟨hpos, hle⟩ := hvalid.lookup
  have hinside := hvalid.inside
  have hsymbols := hvalid.symbols
  have hturn := hvalid.turn hlen
  refine ⟨⟨window, hforwards, hreads, fun hfails => ?_⟩, ?_, fun next hnext => ?_, by omega⟩
  · rw [hreads.bits] at hfails
    split_ifs at hfails with hfit
    obtain ⟨hlast, hside, -⟩ := hreads.short hlen (by omega) (by omega)
    exact ⟨hlast, hside⟩
  · rcases hturn with hend | ⟨e, herr⟩ | ⟨next, hnext, -, -⟩
    · rw [hend]
      exact returns_ok _
    · rw [herr]
      exact returns_err _
    · rw [hnext]
      exact returns_ok _
  · rcases hturn with hend | ⟨e, herr⟩ | ⟨next', hnext', -, hadvances⟩
    · rw [hend] at hnext
      cases hnext
    · rw [herr] at hnext
      cases hnext
    · rw [hnext'] at hnext
      cases hnext
      exact hadvances

/-- Every lookup of `hpack_decode` is safe and goes forward, and after a bounded number of symbols
comes the end of the payload or one error. -/
theorem hpack_decode_progress {content : List UInt8} (hlen : content.length ≤ 2 ^ 28) :
    (∀ state, Reachable (step content) start state →
      state.Safe content ∧ hpack_decode content = state.resumes content) ∧
    ∃ last : Decoding, Reachable (step content) start last ∧ last.decoded.length ≤ 8 * content.length / 5 ∧
      (last.turn content = ok none ∧ hpack_decode content = ok last.decoded ∨
        ∃ e, last.turn content = err e ∧ hpack_decode content = err e) := by
  refine ⟨fun state hreached => ?_, ?_⟩
  · exact ⟨(valid_of_reachable hlen hreached).safe hlen, resumes_of_reachable hlen hreached⟩
  · obtain ⟨last, hreached, hend⟩ := exists_end hlen Run.start
    have hvalid := valid_of_reachable hlen hreached
    have hsymbols := (hvalid.safe hlen).symbols
    have hdecode := resumes_of_reachable hlen hreached
    rw [resumes_turn last fun _ hturn => hvalid.room hlen hturn] at hdecode
    refine ⟨last, hreached, by omega, ?_⟩
    rcases hend with hend | ⟨e, herr⟩
    · rw [hend, ok_bind] at hdecode
      exact .inl ⟨hend, hdecode⟩
    · rw [herr, err_bind] at hdecode
      exact .inr ⟨e, herr, hdecode⟩

/-- The codes of `a` and `b`, then padding: the code of `b` starts in the first byte and goes on in the
second one. -/
theorem hpack_decode_progress_ab :
    (∃ (state : Decoding) (window : BitWindow), Reachable (step [0x1C, 0x7F]) start state ∧ state.decoded = [0x61] ∧
      state.bit_pos.forwards state.decoder.lookup = ok window ∧ window = { byte := 0, bit := 5, count := 5 } ∧
      state.Safe [0x1C, 0x7F] ∧ hpack_decode [0x1C, 0x7F] = state.resumes [0x1C, 0x7F]) ∧
    ∃ last : Decoding, Reachable (step [0x1C, 0x7F]) start last ∧ last.decoded.length ≤ 3 ∧
      (last.turn [0x1C, 0x7F] = ok none ∧ hpack_decode [0x1C, 0x7F] = ok last.decoded ∨
        ∃ e, last.turn [0x1C, 0x7F] = err e ∧ hpack_decode [0x1C, 0x7F] = err e) := by
  obtain ⟨hsafe, hends⟩ := @hpack_decode_progress [0x1C, 0x7F] (by decide)
  refine ⟨?_, hends⟩
  have hfacts : (step [0x1C, 0x7F] start ()).map (fun state =>
      (state.decoded, state.bit_pos.forwards state.decoder.lookup)) =
        some ([0x61], ok { byte := 0, bit := 5, count := 5 }) := rfl
  obtain ⟨state, hstep, hfacts⟩ := Option.map_eq_some_iff.mp hfacts
  obtain ⟨hdecoded, hwindow⟩ := Prod.mk.inj hfacts
  have hreached : Reachable (step [0x1C, 0x7F]) start state := .step .start trivial hstep
  obtain ⟨hstate, hresumes⟩ := hsafe state hreached
  exact ⟨state, _, hreached, hdecoded, hwindow, rfl, hstate, hresumes⟩

end Decoding

end wt_proto.huffman
