import WebTransport.Conn.Accept

open rust rust.Outcome quinn wt_proto.coding

namespace wt_rs

/-- An accept call that has come back. -/
structure Return where
  task : TaskId
  dir : Dir
  completion : Completion
  deriving DecidableEq

/-- A connection whose clones are shared by tasks: the accept calls they wait in, the wakers
that have fired since their tasks were last polled, and what has come back so far. For the
record, `sent` is what the peer has sent on its streams. -/
structure System where
  shared : Acceptor
  calls : TaskId → Option Dir
  woken : TaskId → Bool
  log : List Return
  sent : StreamId → List UInt8

inductive Event where
  | peer_opens (dir : Dir)
  | bytes (key : StreamId) (data : List UInt8)
  | finish (key : StreamId)
  | reset (key : StreamId)
  | close (error : ConnectionError)
  | call (task : TaskId) (dir : Dir) (order : List StreamId)
  | repoll (task : TaskId) (order : List StreamId)
  | cancel (task : TaskId)

namespace System

/-- A new acceptor for the session `id`. Streams that came before it show up as events before
the first call. -/
def new (id : VarInt) (side : Side) (accepted : Dir → Nat) : System where
  shared := .new id (.established side accepted)
  calls := fun _ => none
  woken := fun _ => false
  log := []
  sent := fun _ => []

def wake (self : System) : Option TaskId → System
  | none => self
  | some task => { self with woken := Function.update self.woken task true }

/-- The peer can send on the stream. -/
def Live (self : System) (key : StreamId) : Prop :=
  key.initiator = self.shared.conn.side.peer ∧ key.index < self.shared.conn.opened key.dir ∧
    (self.shared.conn.streams key).ended = none ∧ self.shared.conn.lost = none

instance (self : System) (key : StreamId) : Decidable (self.Live key) :=
  inferInstanceAs (Decidable (_ ∧ _ ∧ _ ∧ _))

/-- Something happens on a stream, and a header read that waits for it is woken. -/
def arrive (self : System) (key : StreamId) (change : RecvStream → RecvStream) : System :=
  let (drained, waker) := (self.shared.accept.drained key.dir).wake key
  { self with
    shared := self.shared.set_queue key.dir drained
      (Function.update self.shared.conn.streams key (change (self.shared.conn.streams key))) }.wake waker

/-- The waker of the stream of accepted streams fires. -/
def notify (self : System) (dir : Dir) : System :=
  { self with shared := self.shared.set_accepting dir none }.wake (self.shared.accept.accepting dir)

def open_stream (self : System) (dir : Dir) : System :=
  { self with
    shared.conn.opened := Function.update self.shared.conn.opened dir (self.shared.conn.opened dir + 1) }

/-- The connection is lost, and all that wait for it are woken. -/
def close (self : System) (error : ConnectionError) : System :=
  let self := ({ self with shared.conn.lost := some error }.notify .Uni).notify .Bi
  let keys := (self.shared.accept.drained .Uni).tasks.keys ++ (self.shared.accept.drained .Bi).tasks.keys
  keys.foldl (fun self key => self.arrive key fun stream => stream) self

/-- A task polls its accept call. -/
def poll (self : System) (task : TaskId) (dir : Dir) (order : List StreamId) : Option System :=
  match self.shared.poll_accept dir task order with
  | ok (.Pending, shared) =>
    some { self with
      shared
      calls := Function.update self.calls task (some dir)
      woken := Function.update self.woken task false }
  | ok (.Ready completion, shared) =>
    some { self with
      shared
      calls := Function.update self.calls task none
      woken := Function.update self.woken task false
      log := ⟨task, dir, completion⟩ :: self.log }
  | _ => none

/-- What an event makes of the system, if it can happen. -/
def step (self : System) : Event → Option System
  | .peer_opens dir =>
    if self.shared.conn.lost = none then some ((self.open_stream dir).notify dir) else none
  | .bytes key data =>
    if self.Live key then
      some { self.arrive key (·.push data) with
        sent := Function.update self.sent key (self.sent key ++ data) }
    else none
  | .finish key => if self.Live key then some (self.arrive key RecvStream.finish) else none
  | .reset key => if self.Live key then some (self.arrive key RecvStream.reset) else none
  | .close error => if self.shared.conn.lost = none then some (self.close error) else none
  | .call task dir order => if self.calls task = none then self.poll task dir order else none
  | .repoll task order =>
    match self.calls task with
    | some dir => self.poll task dir order
    | none => none
  | .cancel task =>
    if self.calls task = none then none
    else some { self with calls := Function.update self.calls task none }

/-- The streams that accept calls have come back with. -/
def returned (self : System) : List StreamId := self.log.flatMap (·.completion.returned)

/-- The event is a poll of a call for streams of kind `dir`. -/
def Polls (self : System) (event : Event) (task : TaskId) (dir : Dir) (order : List StreamId) : Prop :=
  event = .call task dir order ∧ self.calls task = none ∨
    event = .repoll task order ∧ self.calls task = some dir

/-- The events with what they do. -/
inductive Move (self : System) : Event → System → Prop where
  | peer_opens {dir : Dir} (hlost : self.shared.conn.lost = none) :
      Move self (.peer_opens dir) ((self.open_stream dir).notify dir)
  | bytes {key : StreamId} {data : List UInt8} (hlive : self.Live key) :
      Move self (.bytes key data) { self.arrive key (·.push data) with
        sent := Function.update self.sent key (self.sent key ++ data) }
  | finish {key : StreamId} (hlive : self.Live key) :
      Move self (.finish key) (self.arrive key RecvStream.finish)
  | reset {key : StreamId} (hlive : self.Live key) :
      Move self (.reset key) (self.arrive key RecvStream.reset)
  | close {error : ConnectionError} (hlost : self.shared.conn.lost = none) :
      Move self (.close error) (self.close error)
  | wait {event : Event} {task : TaskId} {dir : Dir} {order : List StreamId} {shared : Acceptor}
      (hpolls : self.Polls event task dir order)
      (hpoll : self.shared.poll_accept dir task order = ok (.Pending, shared)) :
      Move self event { self with
        shared
        calls := Function.update self.calls task (some dir)
        woken := Function.update self.woken task false }
  | complete {event : Event} {task : TaskId} {dir : Dir} {order : List StreamId} {shared : Acceptor}
      {completion : Completion} (hpolls : self.Polls event task dir order)
      (hpoll : self.shared.poll_accept dir task order = ok (.Ready completion, shared)) :
      Move self event { self with
        shared
        calls := Function.update self.calls task none
        woken := Function.update self.woken task false
        log := ⟨task, dir, completion⟩ :: self.log }
  | cancel {task : TaskId} (hcall : self.calls task ≠ none) :
      Move self (.cancel task) { self with calls := Function.update self.calls task none }

variable {self next : System} {event : Event}

/-- A poll that can happen is a poll of an acceptor. -/
theorem move_of_poll {task : TaskId} {dir : Dir} {order : List StreamId}
    (hpolls : self.Polls event task dir order) (h : self.poll task dir order = some next) :
    Move self event next := by
  unfold poll at h
  split at h
  · rename_i shared hpoll
    cases h
    exact .wait hpolls hpoll
  · rename_i completion shared hpoll
    cases h
    exact .complete hpolls hpoll
  · cases h

/-- Every step of the system is one of the moves. -/
theorem move_of_step (h : self.step event = some next) : Move self event next := by
  unfold step at h
  cases event with
  | peer_opens dir =>
    obtain ⟨hlost, h⟩ := Option.ite_none_right_eq_some.mp h
    cases h
    exact .peer_opens hlost
  | bytes key data =>
    obtain ⟨hlive, h⟩ := Option.ite_none_right_eq_some.mp h
    cases h
    exact .bytes hlive
  | finish key =>
    obtain ⟨hlive, h⟩ := Option.ite_none_right_eq_some.mp h
    cases h
    exact .finish hlive
  | reset key =>
    obtain ⟨hlive, h⟩ := Option.ite_none_right_eq_some.mp h
    cases h
    exact .reset hlive
  | close error =>
    obtain ⟨hlost, h⟩ := Option.ite_none_right_eq_some.mp h
    cases h
    exact .close hlost
  | call task dir order =>
    obtain ⟨hcall, h⟩ := Option.ite_none_right_eq_some.mp h
    exact move_of_poll (.inl ⟨rfl, hcall⟩) h
  | repoll task order =>
    simp only at h
    split at h
    · rename_i dir hcall
      exact move_of_poll (.inr ⟨rfl, hcall⟩) h
    · cases h
  | cancel task =>
    obtain ⟨hcall, h⟩ := Option.ite_none_left_eq_some.mp h
    cases h
    exact .cancel hcall

end System

end wt_rs
