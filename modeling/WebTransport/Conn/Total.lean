import WebTransport.Conn.Valid

open rust rust.Outcome rust.Async quinn wt_proto.coding wt_proto.h3

namespace wt_rs.Acceptor

variable {dir : Dir} {cx : TaskId} {order : List StreamId} {first : Dir → Nat} {self next : Acceptor}
  {returned : List StreamId}

/-- The header reads in the queue and those to come. -/
def load (self : Acceptor) (dir : Dir) : Nat :=
  (self.accept.drained dir).tasks.keys.length + (self.conn.opened dir - self.conn.accepted dir)

private theorem length_keys_insert_le {κ β : Type} [DecidableEq κ] (tasks : AList fun _ : κ => β) (key : κ)
    (task : β) : (tasks.insert key task).keys.length ≤ tasks.keys.length + 1 := by
  rw [AList.keys_insert, List.length_cons]
  exact Nat.succ_le_succ (List.erase_sublist.length_le)

private theorem length_keys_insert {κ β : Type} [DecidableEq κ] {tasks : AList fun _ : κ => β} {key : κ}
    {task : β} (task' : β) (hlookup : tasks.lookup key = some task) :
    (tasks.insert key task').keys.length = tasks.keys.length := by
  have hmem : key ∈ tasks.keys := AList.mem_keys.mp (FuturesUnordered.mem_iff_lookup.mpr ⟨task, hlookup⟩)
  have hpos := List.length_pos_of_mem hmem
  rw [AList.keys_insert, List.length_cons, List.length_erase_of_mem hmem]
  omega

private theorem length_keys_erase {κ β : Type} [DecidableEq κ] {tasks : AList fun _ : κ => β} {key : κ}
    {task : β} (hlookup : tasks.lookup key = some task) :
    (tasks.erase key).keys.length + 1 = tasks.keys.length := by
  have hmem : key ∈ tasks.keys := AList.mem_keys.mp (FuturesUnordered.mem_iff_lookup.mpr ⟨task, hlookup⟩)
  have hpos := List.length_pos_of_mem hmem
  rw [AList.keys_erase, List.length_erase_of_mem hmem]
  omega

/-- The load counts the queue, and the streams that have not been accepted. -/
theorem load_set_queue (self : Acceptor) (dir : Dir) (drained : Drained) (streams : StreamId → RecvStream) :
    (self.set_queue dir drained streams).load dir =
      drained.tasks.keys.length + (self.conn.opened dir - self.conn.accepted dir) := by
  rw [load, set_queue_drained]
  rfl

/-- A header read that leaves the queue takes from the load. -/
theorem load_erase {key : StreamId} {task : QueuedFuture PendingHeader}
    {streams : StreamId → RecvStream} (hlookup : (self.accept.drained dir).tasks.lookup key = some task) :
    (self.set_queue dir { self.accept.drained dir with
      tasks := (self.accept.drained dir).tasks.erase key } streams).load dir < self.load dir := by
  have hlen := length_keys_erase hlookup
  rw [load_set_queue, load]
  simp only
  omega

/-- A turn does not add to the load. -/
theorem load_turn (hturn : Turn dir cx self next) : next.load dir ≤ self.load dir := by
  cases hturn with
  | take hopened =>
    have hlen := length_keys_insert_le (self.accept.drained dir).tasks
      (self.conn.incoming dir (self.conn.accepted dir))
      ⟨decode dir self.accept.id (self.conn.incoming dir (self.conn.accepted dir)), true⟩
    rw [load, load, take_accepted, take_drained]
    change _ + (self.conn.opened dir - _) ≤ _
    omega
  | accepting => exact Nat.le_refl _
  | waker =>
    change (self.set_queue dir _ self.conn.streams).load dir ≤ _
    rw [load_set_queue]
    exact Nat.le_refl _
  | advance hlost hlookup hpoll =>
    rw [load_set_queue, length_keys_insert _ hlookup]
    exact Nat.le_refl _
  | store hlost hlookup hpoll hdispatch => exact Nat.le_of_lt (load_erase hlookup)
  | ignore hlost hlookup hpoll hdispatch => exact Nat.le_of_lt (load_erase hlookup)

theorem load_turns (hturns : Turns dir cx self next) : next.load dir ≤ self.load dir := by
  induction hturns with
  | refl => exact Nat.le_refl _
  | tail _ hturn ih => exact Nat.le_trans (load_turn hturn) ih

/-- `drain` comes back when there are fewer streams to accept than it has fuel. -/
theorem drain_returns {fuel : Nat} (hfuel : self.conn.opened dir - self.conn.accepted dir < fuel) :
    ∃ drained next, self.drain dir cx fuel = ok (drained, next) := by
  induction fuel generalizing self with
  | zero => cases hfuel
  | succ fuel ih =>
    rw [drain]
    split_ifs with hopened
    · refine ih ?_
      rw [take_accepted]
      change self.conn.opened dir - _ < fuel
      omega
    · cases self.conn.lost with
      | some error => exact ⟨_, _, rfl⟩
      | none => exact ⟨_, _, rfl⟩

/-- A poll comes back: the loop takes a header read out of the queue in every turn but the
last. -/
theorem poll_loop_returns {fuel : Nat} (hvalid : self.Valid first returned) (hload : self.load dir < fuel) :
    ∃ out next, poll_loop dir cx order fuel self = ok (out, next) := by
  induction fuel generalizing self with
  | zero => cases hload
  | succ fuel ih =>
    obtain ⟨drained, mid, hdrain⟩ := @drain_returns dir cx self _ (Nat.lt_succ_self _)
    obtain ⟨hturns, -, ⟨error, rfl, -⟩ | ⟨rfl, hlost, -⟩⟩ := drain_spec hdrain
    · exact ⟨_, _, by rw [poll_loop, hdrain]; rfl⟩
    · rw [poll_loop, hdrain, ok_bind]
      simp only
      cases hselect : mid.select dir cx order with
      | mk out last =>
        cases out with
        | Pending => exact ⟨_, _, rfl⟩
        | Ready out =>
          obtain ⟨cause, result⟩ := out
          obtain ⟨before, future, streams, hmore, hlive, hlookup, hpoll, rfl⟩ := select_ready hlost hselect
          have hvalid := hvalid.turns (hturns.trans hmore)
          have hload := Nat.lt_of_le_of_lt (load_turns (hturns.trans hmore)) hload
          have hless := @load_erase dir before cause _ streams hlookup
          obtain ⟨stream, -, -, -, hpolled, -⟩ := hvalid.finish hlookup hpoll
          cases result with
          | err error => exact ⟨_, _, rfl⟩
          | panic => exact absurd hpolled.returns not_returns_panic
          | diverge => exact absurd hpolled.returns not_returns_diverge
          | ok value =>
            obtain ⟨stype, stream⟩ := value
            cases hdispatch : dispatch dir stype with
            | deliver =>
              simp only [hdispatch]
              exact ⟨_, _, rfl⟩
            | store slot =>
              simp only [hdispatch]
              exact ih (@Valid.turn dir cx _ _ _ _ (.store hlive hlookup hpoll hdispatch) hvalid)
                (Nat.lt_of_lt_of_le hless (Nat.le_of_lt_succ hload))
            | ignore =>
              simp only [hdispatch]
              exact ih (@Valid.turn dir cx _ _ _ _ (.ignore hlive hlookup hpoll hdispatch) hvalid)
                (Nat.lt_of_lt_of_le hless (Nat.le_of_lt_succ hload))

/-- A poll comes back, whatever has arrived. -/
theorem poll_accept_returns (hvalid : self.Valid first returned) :
    ∃ out next, self.poll_accept dir cx order = ok (out, next) :=
  poll_loop_returns hvalid (Nat.lt_succ_self _)

end wt_rs.Acceptor
