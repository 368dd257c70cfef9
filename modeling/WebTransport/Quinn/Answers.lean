import WebTransport.Quinn.Script
import WebTransport.Rust.Trace

open rust rust.Outcome rust.Async

namespace quinn

/-- What holds of an answer whatever the peer does: a read that does not fail gives as many bytes as it
was asked for, and a request comes on a stream with an identifier of 62 bits. -/
def Genuine : (op : Op) × op.Answer → Prop
  | ⟨.read_exact _ len, .ok bytes⟩ => bytes.length = len
  | ⟨.accept_bi, .ok stream⟩ => stream.value < 2 ^ 62
  | ⟨.open_bi, .ok stream⟩ => stream.value < 2 ^ 62
  | _ => True

/-- The peer may send what it likes, but the answers are genuine. -/
def Exact (script : Script Quic) : Prop := ∀ entry ∈ script, Genuine entry

/-- There is an answer to every operation. -/
def Op.refused : (op : Op) → op.Answer
  | accept_uni | accept_bi | open_uni | open_bi => .error .TimedOut
  | write_all _ _ => .error .Stopped
  | read_exact _ _ => .error (.FinishedEarly 0)

/-- The operation sends something. -/
def Op.Sends : Op → Prop
  | open_uni | open_bi | write_all _ _ => True
  | accept_uni | accept_bi | read_exact _ _ => False

/-- The function sends nothing. -/
abbrev Quiet {ε α : Type} (Panics : Prop) (m : Async Quic ε α) : Prop :=
  @Always Quic _ _ (fun op => ¬ op.Sends) Panics m

/-- The script reads these bytes from the stream, and does nothing else. -/
def Took (stream : StreamId) (script : Script Quic) (bytes : List UInt8) : Prop :=
  ∃ chunks : List (List UInt8), chunks.flatten = bytes ∧ script = calls stream (chunks.map Action.reads)

variable {ε : Type} {stream : StreamId} {script script' : Script Quic} {bytes bytes' data : List UInt8} {len : Nat}

theorem Exact.of_append (h : Exact (script ++ script')) : Exact script ∧ Exact script' :=
  List.forall_mem_append.mp h

/-- What is done on a stream whose identifier has 62 bits gets genuine answers. -/
theorem exact_calls (hvalue : stream.value < 2 ^ 62) (actions : List Action) : Exact (calls stream actions) := by
  intro entry hentry
  obtain ⟨action, -, rfl⟩ := List.mem_map.mp hentry
  obtain ⟨initiator, dir, index⟩ := stream
  cases action with
  | opens | accepts =>
    cases dir with
    | Uni => trivial
    | Bi => exact hvalue
  | writes => trivial
  | reads => rfl

theorem Took.eq_nil (h : Took stream [] bytes) : bytes = [] := by
  obtain ⟨chunks, rfl, hchunks⟩ := h
  rw [List.map_eq_nil_iff.mp (List.map_eq_nil_iff.mp hchunks.symm), List.flatten_nil]

/-- Reads in a row take their bytes in a row. -/
theorem Took.append (h : Took stream script bytes) (h' : Took stream script' bytes') :
    Took stream (script ++ script') (bytes ++ bytes') := by
  obtain ⟨chunks, rfl, rfl⟩ := h
  obtain ⟨chunks', rfl, rfl⟩ := h'
  exact ⟨chunks ++ chunks', List.flatten_append, by rw [List.map_append, calls_append]⟩

/-- What an operation that has come back has been answered. -/
private theorem follows_answered {ε' α : Type} {op : Op} {f : op.Answer → Async Quic ε' α} {value : α}
    (h : (Async.wait op f).Follows script value) :
    ∃ answer tail, script = ⟨op, answer⟩ :: tail ∧ (f answer).Follows tail value := by
  cases h with
  | wait hresume => exact ⟨_, _, rfl, hresume⟩

/-- `read_exact` takes as many bytes as it is asked for. -/
theorem took_read_exact (h : (read_exact stream len).Follows script bytes) (hexact : Exact script) :
    Took stream script bytes ∧ bytes.length = len := by
  obtain ⟨answer, tail, rfl, hanswer⟩ := follows_answered h
  cases answer with
  | error error => cases hanswer
  | ok bytes' =>
    cases hanswer
    have hlength : bytes.length = len := hexact _ List.mem_cons_self
    refine ⟨⟨[bytes], List.flatten_singleton, ?_⟩, hlength⟩
    rw [← hlength]
    rfl

section always

variable {P : Op → Prop} {Panics : Prop}

/-- The answer is all that a function waits for. -/
private theorem always_answered {α : Type} {op : Op} {f : op.Answer → Async Quic ε α} (hop : P op)
    (hf : ∀ answer, ∃ result : Outcome ε α, f answer = .done result ∧ result.Returns) :
    @Always Quic ε α P Panics (.wait op f) := by
  refine .wait hop fun answer => ?_
  obtain ⟨result, hresult, hreturns⟩ := hf answer
  rw [hresult]
  exact .done fun hpanic => absurd hpanic (returns_iff.mp hreturns).1

/-- Reading sends nothing. -/
theorem quiet_read_exact (stream : StreamId) (len : Nat) : Quiet Panics (read_exact stream len) :=
  always_answered id answered_returns

/-- Accepting sends nothing. -/
theorem quiet_accept_uni : Quiet Panics accept_uni :=
  always_answered id answered_returns

/-- Accepting sends nothing. -/
theorem quiet_accept_bi : Quiet Panics accept_bi :=
  always_answered id answered_returns

/-- Opening a stream is one operation. -/
theorem always_open_uni (hop : P .open_uni) : Always P Panics open_uni :=
  always_answered hop answered_returns

/-- Opening a stream is one operation. -/
theorem always_open_bi (hop : P .open_bi) : Always P Panics open_bi :=
  always_answered hop answered_returns

/-- Writing is one operation. -/
theorem always_write_all (hop : P (.write_all stream data)) : Always P Panics (write_all stream data) :=
  always_answered hop answered_returns

end always

/-- A function with one operation fails fast, when it comes back with one of the answers. -/
private theorem fails_fast_answered {α : Type} (op : Op) (answer : op.Answer) {f : op.Answer → Async Quic ε α}
    {value : α} (hvalue : f answer = .done (ok value))
    (hf : ∀ answer, ∃ result : Outcome ε α, f answer = .done result ∧ result.Returns) :
    @FailsFast Quic ε α (.wait op f) := by
  intro script m hran
  refine ⟨[⟨op, answer⟩], value, .wait (by rw [hvalue]; exact .done value), ?_⟩
  cases hran with
  | here => exact .nil _
  | @wait _ answer' _ _ _ hresume =>
    obtain ⟨result, hresult, -⟩ := hf answer'
    rw [hresult] at hresume
    rw [hresume.of_done.1]
    exact .last []

theorem fails_fast_open_uni : open_uni.FailsFast :=
  fails_fast_answered .open_uni (.ok ⟨.Client, .Uni, 0⟩) rfl answered_returns

theorem fails_fast_open_bi : open_bi.FailsFast :=
  fails_fast_answered .open_bi (.ok ⟨.Client, .Bi, 0⟩) rfl answered_returns

theorem fails_fast_write_all (stream : StreamId) (data : List UInt8) : (write_all stream data).FailsFast :=
  fails_fast_answered (.write_all stream data) (.ok ()) rfl answered_returns

/-- Writing has come back by writing the data to the stream. -/
theorem of_write_all (h : (write_all stream data).Follows script ()) : script = [⟨.write_all stream data, .ok ()⟩] := by
  obtain ⟨answer, tail, rfl, hanswer⟩ := follows_answered h
  cases answer with
  | error error => cases hanswer
  | ok => cases hanswer; rfl

/-- A write has been asked for at most once. -/
theorem Ran.of_write_all {m : Async Quic WriteError Unit} (h : Ran script (write_all stream data) m) :
    script = [] ∨ ∃ answer, script = [⟨.write_all stream data, answer⟩] := by
  cases h with
  | here => exact .inl rfl
  | @wait _ answer _ _ _ hresume =>
    cases answer with
    | ok | error => exact .inr ⟨_, by rw [(Ran.of_done hresume).1]⟩

/-- The stream that comes back is the one that was accepted. -/
theorem of_accept_uni (h : accept_uni.Follows script stream) : script = [⟨.accept_uni, .ok stream⟩] := by
  obtain ⟨answer, tail, rfl, hanswer⟩ := follows_answered h
  cases answer with
  | error error => cases hanswer
  | ok => cases hanswer; rfl

/-- The stream that comes back is the one that was accepted. -/
theorem of_accept_bi (h : accept_bi.Follows script stream) : script = [⟨.accept_bi, .ok stream⟩] := by
  obtain ⟨answer, tail, rfl, hanswer⟩ := follows_answered h
  cases answer with
  | error error => cases hanswer
  | ok => cases hanswer; rfl

/-- The stream that comes back is the one that was opened. -/
theorem of_open_uni (h : open_uni.Follows script stream) : script = [⟨.open_uni, .ok stream⟩] := by
  obtain ⟨answer, tail, rfl, hanswer⟩ := follows_answered h
  cases answer with
  | error error => cases hanswer
  | ok => cases hanswer; rfl

/-- The stream that comes back is the one that was opened. -/
theorem of_open_bi (h : open_bi.Follows script stream) : script = [⟨.open_bi, .ok stream⟩] := by
  obtain ⟨answer, tail, rfl, hanswer⟩ := follows_answered h
  cases answer with
  | error error => cases hanswer
  | ok => cases hanswer; rfl

end quinn
