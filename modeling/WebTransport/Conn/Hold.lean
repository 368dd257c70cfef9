import WebTransport.Conn.Delivery

open rust rust.Outcome quinn wt_proto.coding wt_proto.h3 transition

namespace wt_rs

/-- `bytes` starts with the type of its stream. -/
def Kind (bytes : List UInt8) (stype : VarInt) : Prop := ∃ enc rest, bytes = enc ++ rest ∧ Encodes enc stype

/-- The stream, on which the peer has sent `bytes`, is of a kind that is not for the caller. -/
def Foreign (dir : Dir) (bytes : List UInt8) : Prop := ∃ stype, Kind bytes stype ∧ stype ≠ webtransport dir

variable {bytes more rest : List UInt8} {stype stype' sid : VarInt} {dir dir' : Dir} {slot : Slot}

theorem Kind.unique (h : Kind bytes stype) (h' : Kind bytes stype') : stype = stype' := by
  obtain ⟨enc, rest, rfl, henc⟩ := h
  obtain ⟨enc', rest', heq, henc'⟩ := h'
  exact (henc.unique henc' heq).2.1

theorem Kind.append (h : Kind bytes stype) (more : List UInt8) : Kind (bytes ++ more) stype := by
  obtain ⟨enc, rest, rfl, henc⟩ := h
  exact ⟨enc, rest ++ more, List.append_assoc _ _ _, henc⟩

theorem Header.kind (h : Header bytes stype sid rest) : Kind bytes stype := by
  obtain ⟨enc, enc', rfl, henc, -⟩ := h
  exact ⟨enc, enc' ++ rest, rfl, henc⟩

theorem Foreign.append (h : Foreign dir bytes) (more : List UInt8) : Foreign dir (bytes ++ more) := by
  obtain ⟨stype, hkind, hstype⟩ := h
  exact ⟨stype, hkind.append more, hstype⟩

/-- The stream is not of a kind that is not for the caller, and will not become so. -/
def Excused (dir : Dir) (bytes : List UInt8) (ended : Option End) : Prop :=
  Kind bytes (webtransport dir) ∨ ended ≠ none ∧ ∀ stype, ¬ Kind bytes stype

/-- A stream that is excused is no stream of another kind. -/
theorem Excused.not_foreign {ended : Option End} (h : Excused dir bytes ended) : ¬ Foreign dir bytes := by
  rintro ⟨stype, hkind, hstype⟩
  obtain hwebtransport | ⟨-, hnone⟩ := h
  · exact hstype (hkind.unique hwebtransport)
  · exact hnone stype hkind

/-- A stream that has ended is excused unless it is of another kind. -/
theorem Excused.of_not_foreign {ended : Option End} (hforeign : ¬ Foreign dir bytes) (hended : ended ≠ none) :
    Excused dir bytes ended := by
  by_cases hkind : ∃ stype, Kind bytes stype
  · obtain ⟨stype, hkind⟩ := hkind
    have hstype : stype = webtransport dir := by
      by_contra hother
      exact hforeign ⟨stype, hkind, hother⟩
    exact .inl (hstype ▸ hkind)
  · exact .inr ⟨hended, not_exists.mp hkind⟩

namespace Acceptor

/-- The streams of one kind that are not for the caller do no harm: what follows the type on them is
the session of the acceptor, it arrives, and there is one stream at most for each place. `sent` is what
the peer has sent. -/
structure Harmless (dir : Dir) (first : Dir → Nat) (sent : StreamId → List UInt8) (acceptor : Acceptor) : Prop where
  session : ∀ {key stype sid rest}, key.dir = dir → acceptor.Expects first key → Header (sent key) stype sid rest →
    stype ≠ webtransport key.dir → sid = acceptor.accept.id
  complete : ∀ {key}, key.dir = dir → acceptor.Expects first key → Foreign key.dir (sent key) →
    (acceptor.conn.streams key).ended ≠ none → ¬ Headless (acceptor.conn.streams key).received
  single : ∀ {key key' slot stype stype' rest rest'}, key.dir = dir → key'.dir = dir →
    acceptor.Expects first key → acceptor.Expects first key' →
    dispatch key.dir stype = .store slot → dispatch key'.dir stype' = .store slot →
    Header (sent key) stype acceptor.accept.id rest → Header (sent key') stype' acceptor.accept.id rest' →
    key = key'

/-- Only unidirectional streams come to a place. -/
theorem dir_of_store (h : dispatch dir stype = .store slot) : dir = .Uni := by
  cases dir with
  | Uni => rfl
  | Bi =>
    rw [dispatch, dispatch_bi] at h
    split_ifs at h

/-- Every stream the acceptor has got is in the queue, or it was for the caller, or it came to
an end without a type, or it is in the place there is for its type. -/
structure Holds (first : Dir → Nat) (sent : StreamId → List UInt8) (acceptor : Acceptor) : Prop where
  slots : ∀ {slot key}, acceptor.accept.slots slot = some key → acceptor.Expects first key ∧
    ∃ stype rest, dispatch key.dir stype = .store slot ∧ Header (sent key) stype acceptor.accept.id rest
  place : ∀ {key}, acceptor.Obtained first key → key ∈ (acceptor.accept.drained key.dir).tasks ∨
    Excused key.dir (sent key) (acceptor.conn.streams key).ended ∨
    ∃ stype, Kind (sent key) stype ∧ ∀ slot, dispatch key.dir stype = .store slot →
      acceptor.accept.slots slot = some key

/-- The bytes received are those sent, but for what a reset takes away. -/
def Delivers (sent : StreamId → List UInt8) (acceptor : Acceptor) : Prop :=
  ∀ key, ∃ gone, sent key = (acceptor.conn.streams key).received ++ gone ∧
    ((acceptor.conn.streams key).ended ≠ some .reset → gone = [])

variable {cx : TaskId} {order : List StreamId} {first : Dir → Nat} {sent : StreamId → List UInt8}
  {self next : Acceptor} {returned : List StreamId} {key : StreamId}

theorem Frame.expects (hframe : Frame dir self next) : next.Expects first key ↔ self.Expects first key := by
  rw [Expects, Expects, hframe.side]

/-- A poll does not change whether streams are harmless. -/
theorem Frame.harmless (hframe : Frame dir self next) (hharmless : self.Harmless dir' first sent) :
    next.Harmless dir' first sent where
  session hdir hexpects hheader hstype := by
    rw [hframe.id]
    exact hharmless.session hdir (hframe.expects.mp hexpects) hheader hstype
  complete {key} hdir hexpects hforeign hended := by
    rw [hframe.ended] at hended
    rw [hframe.received]
    exact hharmless.complete hdir (hframe.expects.mp hexpects) hforeign hended
  single hdir hdir' hexpects hexpects' hslot hslot' hheader hheader' := by
    rw [hframe.id] at hheader hheader'
    exact hharmless.single hdir hdir' (hframe.expects.mp hexpects) (hframe.expects.mp hexpects') hslot hslot' hheader
      hheader'

theorem Frame.delivers (hframe : Frame dir self next) (hdelivers : self.Delivers sent) : next.Delivers sent := by
  intro key
  rw [hframe.received, hframe.ended]
  exact hdelivers key

namespace Holds

/-- A stream that is accepted goes into the queue, so that the acceptor holds it. -/
theorem take (hholds : self.Holds first sent) : (self.take dir).Holds first sent where
  slots := hholds.slots
  place {key} hobtained := by
    obtain ⟨hexpects, hindex⟩ := hobtained
    by_cases hdir : key.dir = dir
    · subst hdir
      rw [take_drained, AList.mem_insert]
      by_cases hkey : key = self.conn.incoming key.dir (self.conn.accepted key.dir)
      · exact .inl (.inl hkey)
      · rw [take_accepted] at hindex
        have hne : key.index ≠ self.conn.accepted key.dir := by
          intro hindex
          apply hkey
          rw [← hindex, quinn.Connection.incoming]
          exact congrArg (fun initiator => ({ key with initiator } : StreamId)) hexpects.1
        exact (hholds.place ⟨hexpects, by omega⟩).imp_left .inr
    · rw [take_accepted_ne hdir] at hindex
      rw [take_drained_ne hdir]
      exact hholds.place ⟨hexpects, hindex⟩

/-- A stream leaves the queue for its place. -/
theorem leave {drained : Drained} {streams : StreamId → RecvStream} {slots : Slot → Option StreamId}
    (hholds : self.Holds first sent) (hframe : Frame dir self (self.set_queue dir drained streams))
    (hmem : ∀ key' ≠ key, key' ∈ (self.accept.drained dir).tasks → key' ∈ drained.tasks)
    (hslots : ∀ {slot key}, slots slot = some key → self.Expects first key ∧
      ∃ stype rest, dispatch key.dir stype = .store slot ∧ Header (sent key) stype self.accept.id rest)
    (hothers : ∀ key' ≠ key, ∀ slot, self.accept.slots slot = some key' → slots slot = some key')
    (hkey : Excused key.dir (sent key) (self.conn.streams key).ended ∨
      ∃ stype, Kind (sent key) stype ∧ ∀ slot, dispatch key.dir stype = .store slot → slots slot = some key) :
    { self.set_queue dir drained streams with accept.slots := slots }.Holds first sent where
  slots := hslots
  place {key'} hobtained := by
    rw [hframe.ended]
    by_cases h : key' = key
    · rw [h]
      exact .inr hkey
    · obtain hqueued | hexcused | ⟨stype, hkind, hplace⟩ := hholds.place hobtained
      · left
        by_cases hdir : key'.dir = dir
        · subst hdir
          rw [set_queue_drained]
          exact hmem key' h hqueued
        · rw [set_queue_drained_ne hdir]
          exact hqueued
      · exact .inr (.inl hexcused)
      · exact .inr (.inr ⟨stype, hkind, fun slot hslot => hothers key' h slot (hplace slot hslot)⟩)

/-- The queue changes, and no stream leaves it. -/
theorem requeue {drained : Drained} {streams : StreamId → RecvStream} (hholds : self.Holds first sent)
    (hframe : Frame dir self (self.set_queue dir drained streams))
    (hmem : ∀ key', key' ∈ (self.accept.drained dir).tasks → key' ∈ drained.tasks) :
    (self.set_queue dir drained streams).Holds first sent where
  slots := hholds.slots
  place {key'} hobtained := by
    rw [hframe.ended]
    refine (hholds.place hobtained).imp_left fun hqueued => ?_
    by_cases hdir : key'.dir = dir
    · subst hdir
      rw [set_queue_drained]
      exact hmem key' hqueued
    · rw [set_queue_drained_ne hdir]
      exact hqueued

end Holds

/-- A header that has been read has been sent. -/
theorem Delivers.header {stream : RecvStream} (hdelivers : self.Delivers sent)
    (hreceived : stream.received = (self.conn.streams key).received)
    (hheader : Header stream.taken stype sid []) : ∃ rest, Header (sent key) stype sid rest := by
  obtain ⟨gone, hsent, -⟩ := hdelivers key
  rw [hsent, ← hreceived]
  exact ⟨_, (hheader.append stream.unread).append gone⟩

private theorem mem_erase_of_mem {key' : StreamId} (hkey : key' ≠ key)
    (hmem : key' ∈ (self.accept.drained dir).tasks) :
    key' ∈ (self.accept.drained dir).tasks.erase key :=
  AList.mem_erase.mpr ⟨hkey, hmem⟩

/-- A turn of the loop lets go of no stream of another kind: a header read that fails is not one of
theirs, and no stream is put into a place that is taken. -/
theorem Holds.turn (hholds : self.Holds first sent) (hvalid : self.Valid first returned)
    (hharmless : self.Harmless dir first sent) (hdelivers : self.Delivers sent) (hturn : Turn dir cx self next) :
    next.Holds first sent := by
  have hframe := hturn.frame hvalid
  cases hturn with
  | take hopened => exact hholds.take
  | accepting => exact ⟨hholds.slots, hholds.place⟩
  | waker => exact hholds.requeue hframe fun _ hmem => hmem
  | advance hlost hlookup hpoll =>
    exact hholds.requeue hframe fun _ hmem => (AList.mem_insert _).mpr (.inr hmem)
  | @store key stream future stype slot streams hlost hlookup hpoll hdispatch =>
    have hexpects := hvalid.expects hlookup
    have hdir := hvalid.dir_eq hlookup
    obtain ⟨last, -, hreceived, -, hpolled, -⟩ := hvalid.finish hlookup hpoll
    obtain ⟨rfl, hheader⟩ := hpolled.header_of_ok
    obtain ⟨rest, hheader⟩ := hdelivers.header hreceived hheader
    rw [← hvalid.dir_eq hlookup] at hdispatch
    refine hholds.leave (hvalid.frame_poll hlookup hpoll _) (fun _ hkey hmem => mem_erase_of_mem hkey hmem)
      (fun {slot' key'} hslot' => ?_) (fun key' hkey slot' hslot' => ?_)
      (.inr ⟨stype, hheader.kind, fun slot' hslot' => ?_⟩)
    · by_cases h : slot' = slot
      · subst h
        rw [Function.update_self] at hslot'
        cases hslot'
        exact ⟨hexpects, stype, rest, hdispatch, hheader⟩
      · rw [Function.update_of_ne h] at hslot'
        exact hholds.slots hslot'
    · by_cases h : slot' = slot
      · subst h
        obtain ⟨hexpects', stype', rest', hdispatch', hheader'⟩ := hholds.slots hslot'
        have hdir' : key'.dir = dir := (dir_of_store hdispatch').trans (hdir ▸ dir_of_store hdispatch).symm
        exact absurd (hharmless.single hdir' hdir hexpects' hexpects hdispatch' hdispatch hheader' hheader) hkey
      · rw [Function.update_of_ne h]
        exact hslot'
    · rw [hdispatch] at hslot'
      cases hslot'
      exact Function.update_self ..
  | @ignore key stream future stype streams hlost hlookup hpoll hdispatch =>
    obtain ⟨last, -, hreceived, -, hpolled, -⟩ := hvalid.finish hlookup hpoll
    obtain ⟨rfl, hheader⟩ := hpolled.header_of_ok
    obtain ⟨rest, hheader⟩ := hdelivers.header hreceived hheader
    rw [← hvalid.dir_eq hlookup] at hdispatch
    refine hholds.leave hframe (fun _ hkey hmem => mem_erase_of_mem hkey hmem) hholds.slots
      (fun _ _ _ hslot => hslot) (.inr ⟨stype, hheader.kind, fun slot hslot => ?_⟩)
    rw [hdispatch] at hslot
    cases hslot

/-- Some turns let go of no stream of another kind. -/
theorem Holds.turns (hholds : self.Holds first sent) (hvalid : self.Valid first returned)
    (hharmless : self.Harmless dir first sent) (hdelivers : self.Delivers sent) (hturns : Turns dir cx self next) :
    next.Holds first sent := by
  induction hturns with
  | refl => exact hholds
  | tail hturns hturn ih =>
    have hframe := Turns.frame hturns hvalid
    exact ih.turn (hvalid.turns hturns) (hframe.harmless hharmless) (hframe.delivers hdelivers) hturn

/-- A call comes to its result because of a stream for the caller, or of one without a type. -/
theorem Holds.ends {completion : Completion} (hholds : self.Holds first sent)
    (hvalid : self.Valid first returned) (hharmless : self.Harmless dir first sent) (hdelivers : self.Delivers sent)
    (hends : Ends dir self completion next) :
    next.Holds first sent ∧ ∀ key, completion.cause = some key →
      Excused key.dir (sent key) (next.conn.streams key).ended := by
  have hframe := hends.frame hvalid
  cases hends with
  | lost =>
    refine ⟨hholds, fun key hcause => ?_⟩
    cases hcause
  | @deliver key stream future stype streams hlost hlookup hpoll hdispatch =>
    obtain ⟨last, -, hreceived, -, hpolled, -⟩ := hvalid.finish hlookup hpoll
    obtain ⟨rfl, hheader⟩ := hpolled.header_of_ok
    obtain ⟨rest, hheader⟩ := hdelivers.header hreceived hheader
    rw [dispatch_eq_deliver_iff, ← hvalid.dir_eq hlookup] at hdispatch
    have hexcused (ended : Option End) : Excused stream.dir (sent stream) ended := .inl (hdispatch ▸ hheader.kind)
    refine ⟨hholds.leave hframe (fun _ hkey hmem => mem_erase_of_mem hkey hmem) hholds.slots
      (fun _ _ _ hslot => hslot) (.inl (hexcused _)), fun key hcause => ?_⟩
    cases hcause
    exact hexcused _
  | @fail key future error streams hlost hlookup hpoll =>
    obtain ⟨last, -, hreceived, hended, hpolled, -⟩ := hvalid.finish hlookup hpoll
    have hexpects := hvalid.expects hlookup
    have hdir := hvalid.dir_eq hlookup
    have hexcused : Excused key.dir (sent key) (self.conn.streams key).ended := by
      obtain ⟨stype, sid, hheader, hsid⟩ | ⟨hheadless, hunread, hover⟩ := hpolled.cause_of_err
      · obtain ⟨rest, hheader⟩ := hdelivers.header hreceived hheader
        have hstype : stype = webtransport key.dir := by
          by_contra hother
          exact hsid (hharmless.session hdir hexpects hheader hother)
        exact .inl (hstype ▸ hheader.kind)
      · have hended := hended ▸ hover.resolve_right (not_not_intro hlost)
        refine .of_not_foreign (fun hforeign => hharmless.complete hdir hexpects hforeign hended ?_) hended
        rw [← hreceived, RecvStream.received, hunread, List.append_nil]
        exact hheadless
    refine ⟨hholds.leave hframe (fun _ hkey hmem => mem_erase_of_mem hkey hmem) hholds.slots
      (fun _ _ _ hslot => hslot) (.inl hexcused), fun key hcause => ?_⟩
    cases hcause
    rw [hframe.ended]
    exact hexcused

end Acceptor

end wt_rs
