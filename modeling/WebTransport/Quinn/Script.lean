import WebTransport.Quinn.Stream
import WebTransport.Rust.TryJoin

open rust rust.Outcome rust.Async

namespace quinn

/-- What a function does on one stream, with what comes of it: it opens or accepts the stream, it
writes `data`, or it reads `bytes`. -/
inductive Action where
  | opens
  | accepts
  | writes (data : List UInt8)
  | reads (bytes : List UInt8)
  deriving DecidableEq, Repr

def Action.call (stream : StreamId) : Action → (op : Op) × op.Answer
  | opens =>
    match stream.dir with
    | .Uni => ⟨.open_uni, .ok stream⟩
    | .Bi => ⟨.open_bi, .ok stream⟩
  | accepts =>
    match stream.dir with
    | .Uni => ⟨.accept_uni, .ok stream⟩
    | .Bi => ⟨.accept_bi, .ok stream⟩
  | writes data => ⟨.write_all stream data, .ok ()⟩
  | reads bytes => ⟨.read_exact stream bytes.length, .ok bytes⟩

/-- The operations of some actions. -/
def calls (stream : StreamId) (actions : List Action) : Script Quic := actions.map (Action.call stream)

@[simp] theorem calls_nil (stream : StreamId) : calls stream [] = [] := rfl

@[simp] theorem calls_cons (stream : StreamId) (action : Action) (actions : List Action) :
    calls stream (action :: actions) = action.call stream :: calls stream actions := rfl

@[simp] theorem calls_append (stream : StreamId) (actions actions' : List Action) :
    calls stream (actions ++ actions') = calls stream actions ++ calls stream actions' :=
  List.map_append

/-- The bytes some actions write. -/
def written : List Action → List UInt8
  | [] => []
  | .writes data :: actions => data ++ written actions
  | _ :: actions => written actions

/-- The bytes some actions read. -/
def wanted : List Action → List UInt8
  | [] => []
  | .reads bytes :: actions => bytes ++ wanted actions
  | _ :: actions => wanted actions

@[simp] theorem written_map_reads (chunks : List (List UInt8)) : written (chunks.map Action.reads) = [] := by
  induction chunks with
  | nil => rfl
  | cons bytes chunks ih => exact ih

/-- Reads take their chunks in a row. -/
@[simp] theorem wanted_map_reads (chunks : List (List UInt8)) :
    wanted (chunks.map Action.reads) = chunks.flatten := by
  induction chunks with
  | nil => rfl
  | cons bytes chunks ih => rw [List.map_cons, wanted, ih, List.flatten_cons]

/-- Actions in a row write their bytes in a row. -/
theorem written_append (actions actions' : List Action) :
    written (actions ++ actions') = written actions ++ written actions' := by
  induction actions with
  | nil => rfl
  | cons action actions ih =>
    cases action with
    | writes data => rw [List.cons_append, written, written, ih, List.append_assoc]
    | opens | accepts | reads => exact ih

/-- Actions in a row read their bytes in a row. -/
theorem wanted_append (actions actions' : List Action) :
    wanted (actions ++ actions') = wanted actions ++ wanted actions' := by
  induction actions with
  | nil => rfl
  | cons action actions ih =>
    cases action with
    | reads bytes => rw [List.cons_append, wanted, wanted, ih, List.append_assoc]
    | opens | accepts | writes => exact ih

theorem written_cons (action : Action) (actions : List Action) :
    written (action :: actions) = written [action] ++ written actions :=
  written_append [action] actions

theorem wanted_cons (action : Action) (actions : List Action) :
    wanted (action :: actions) = wanted [action] ++ wanted actions :=
  wanted_append [action] actions

variable {index : Nat} {side : Side} (stream : StreamId)

theorem follows_open_uni :
    open_uni.Follows (calls ⟨side, .Uni, index⟩ [.opens]) ⟨side, .Uni, index⟩ :=
  .wait (.done _)

theorem follows_open_bi : open_bi.Follows (calls ⟨side, .Bi, index⟩ [.opens]) ⟨side, .Bi, index⟩ :=
  .wait (.done _)

theorem follows_accept_uni :
    accept_uni.Follows (calls ⟨side, .Uni, index⟩ [.accepts]) ⟨side, .Uni, index⟩ :=
  .wait (.done _)

theorem follows_accept_bi : accept_bi.Follows (calls ⟨side, .Bi, index⟩ [.accepts]) ⟨side, .Bi, index⟩ :=
  .wait (.done _)

theorem follows_write_all (data : List UInt8) :
    (write_all stream data).Follows (calls stream [.writes data]) () :=
  .wait (.done _)

variable {ε ε' α β : Type} {stream} {m : Async Quic ε α} {actions actions' : List Action}
  {bytes bytes' : List UInt8} {value : α}

/-- After the actions the function takes all of these bytes from the stream and comes back with
the value. -/
def Reads (stream : StreamId) (actions : List Action) (bytes : List UInt8) (value : α)
    (m : Async Quic ε α) : Prop :=
  ∃ chunks : List (List UInt8), chunks.flatten = bytes ∧
    m.Follows (calls stream (actions ++ chunks.map Action.reads)) value

theorem reads_done (value : α) : Reads stream [] [] value (done (ok value) : Async Quic ε α) :=
  ⟨[], rfl, .done _⟩

theorem reads_read_exact (stream : StreamId) (bytes : List UInt8) :
    Reads stream [] bytes bytes (read_exact stream bytes.length) :=
  ⟨[bytes], List.flatten_singleton, .wait (.done _)⟩

theorem Reads.mapErr (h : Reads stream actions bytes value m) (f : ε → ε') :
    Reads stream actions bytes value (m.mapErr f) := by
  obtain ⟨chunks, hbytes, hfollows⟩ := h
  exact ⟨chunks, hbytes, hfollows.mapErr f⟩

/-- Of two functions in a row, the second reads on where the first has stopped. -/
theorem Reads.bind {f : α → Async Quic ε β} {value' : β} (h : Reads stream actions bytes value m)
    (hf : Reads stream [] bytes' value' (f value)) :
    Reads stream actions (bytes ++ bytes') value' (m >>= f) := by
  obtain ⟨chunks, rfl, hfollows⟩ := h
  obtain ⟨chunks', rfl, hfollows'⟩ := hf
  refine ⟨chunks ++ chunks', List.flatten_append, ?_⟩
  rw [List.map_append, ← List.append_assoc, calls_append]
  exact hfollows.bind hfollows'

/-- Nothing is read after `m`. -/
theorem Reads.bind_last {f : α → Async Quic ε β} {value' : β} (h : Reads stream actions bytes value m)
    (hf : Reads stream [] [] value' (f value)) : Reads stream actions bytes value' (m >>= f) := by
  have hbind := h.bind hf
  rwa [List.append_nil] at hbind

/-- Nothing is read in `m`. -/
theorem Reads.after {f : α → Async Quic ε β} {value' : β} (h : m.Follows (calls stream actions) value)
    (hf : Reads stream actions' bytes value' (f value)) :
    Reads stream (actions ++ actions') bytes value' (m >>= f) := by
  obtain ⟨chunks, rfl, hfollows⟩ := hf
  refine ⟨chunks, rfl, ?_⟩
  rw [List.append_assoc, calls_append]
  exact h.bind hfollows

/-- Bytes that have arrived are read in one poll, and nothing behind them. -/
theorem Reads.poll {lost : Option ConnectionError} {taken rest : List UInt8} {ended : Option End}
    (h : Reads stream [] bytes value m) :
    m.poll (RecvStream.serve lost stream) ⟨taken, bytes ++ rest, ended⟩ =
      (.done (ok value), ⟨taken ++ bytes, rest, ended⟩) := by
  obtain ⟨chunks, rfl, hfollows⟩ := h
  induction chunks generalizing m taken with
  | nil =>
    rw [hfollows.eq_done, Async.poll_done, List.flatten_nil, List.nil_append, List.append_nil]
  | cons chunk chunks ih =>
    obtain ⟨resume, rfl, hresume⟩ := hfollows.eq_wait
    rw [List.flatten_cons, List.append_assoc,
      Async.poll_wait_some (RecvStream.serve_append taken chunk _ ended lost stream), ih hresume,
      List.append_assoc]

end quinn
