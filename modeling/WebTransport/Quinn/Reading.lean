import WebTransport.Quinn.Stream
import WebTransport.Transition.Run

open rust rust.Outcome rust.Async transition

namespace quinn

namespace RecvStream

variable {ε α : Type} {m m' : Async Quic ε α} {taken unread : List UInt8} {left s : RecvStream}
  {lost : Option ConnectionError} {id : StreamId}

/-- A poll of a live stream takes some bytes. On a stream that starts with them it does the same,
whatever comes behind and however the stream ends. -/
theorem poll_live (h : m.poll (serve none id) ⟨taken, unread, none⟩ = (m', left)) :
    ∃ read rest, unread = read ++ rest ∧ left = ⟨taken ++ read, rest, none⟩ ∧
      ∀ bytes ended lost, m.poll (serve lost id) ⟨taken, read ++ bytes, ended⟩ =
        m'.poll (serve lost id) ⟨taken ++ read, bytes, ended⟩ := by
  induction m generalizing taken unread with
  | done result =>
    cases h
    exact ⟨[], unread, rfl, by rw [List.append_nil], by simp⟩
  | wait op resume ih =>
    cases hserve : serve none id op ⟨taken, unread, none⟩ with
    | none =>
      rw [Async.poll_wait_none hserve] at h
      cases h
      exact ⟨[], unread, rfl, by rw [List.append_nil], by simp⟩
    | some out =>
      rw [Async.poll_wait_some hserve] at h
      obtain ⟨first, tail, rfl, heq⟩ := serve_live_cases hserve
      cases heq
      obtain ⟨read, rest, rfl, rfl, hagain⟩ := ih _ h
      refine ⟨first ++ read, rest, by simp, by simp, fun bytes ended lost => ?_⟩
      rw [List.append_assoc, Async.poll_wait_some (serve_append taken first _ ended lost id), hagain,
        List.append_assoc]

/-- An operation loses nothing of what has arrived. -/
theorem serve_received {op : Op} {out : op.Answer × RecvStream} (h : serve lost id op s = some out) :
    out.2.received = s.received ∧ out.2.ended = s.ended := by
  cases op with
  | read_exact stream len =>
    rw [serve] at h
    split_ifs at h with hid hlen
    · cases h
      simp [received]
    · split at h
      · cases h
        simp [received]
      · cases h
  | accept_uni | accept_bi | open_uni | open_bi | write_all => cases h

/-- A poll loses nothing of what has arrived. -/
theorem poll_received (h : m.poll (serve lost id) s = (m', left)) :
    left.received = s.received ∧ left.ended = s.ended := by
  induction m generalizing s with
  | done result =>
    cases h
    exact ⟨rfl, rfl⟩
  | wait op resume ih =>
    cases hserve : serve lost id op s with
    | none =>
      rw [Async.poll_wait_none hserve] at h
      cases h
      exact ⟨rfl, rfl⟩
    | some out =>
      rw [Async.poll_wait_some hserve] at h
      obtain ⟨hreceived, hended⟩ := serve_received hserve
      obtain ⟨hreceived', hended'⟩ := ih _ h
      exact ⟨hreceived'.trans hreceived, hended'.trans hended⟩

/-- A second poll finds nothing more to do. -/
theorem poll_again (h : m.poll (serve lost id) s = (m', left)) : m'.poll (serve lost id) left = (m', left) := by
  induction m generalizing s with
  | done result =>
    cases h
    rfl
  | wait op resume ih =>
    cases hserve : serve lost id op s with
    | none =>
      rw [Async.poll_wait_none hserve] at h
      cases h
      exact Async.poll_wait_none hserve
    | some out =>
      rw [Async.poll_wait_some hserve] at h
      exact ih _ h

end RecvStream

/-- A function that reads one stream, while the stream's bytes arrive. -/
structure Reading (ε α : Type) where
  reader : Async Quic ε α
  stream : RecvStream
  lost : Option ConnectionError

namespace Reading

variable {ε α : Type}

inductive Event where
  | arrive (data : List UInt8)
  | finish
  | reset
  | lose (error : ConnectionError)
  | poll

def start (reader : Async Quic ε α) : Reading ε α := { reader, stream := .opened, lost := none }

/-- What a poll now gives back. -/
def poll (id : StreamId) (self : Reading ε α) : Async Quic ε α × RecvStream :=
  self.reader.poll (RecvStream.serve self.lost id) self.stream

/-- More may come on the stream. -/
def Live (self : Reading ε α) : Prop := self.stream.ended = none ∧ self.lost = none

instance (self : Reading ε α) : Decidable self.Live := inferInstanceAs (Decidable (_ ∧ _))

/-- Nothing happens on a stream that is over, except that it is polled. -/
def step (id : StreamId) (self : Reading ε α) : Event → Option (Reading ε α)
  | .arrive data => if self.Live then some { self with stream := self.stream.push data } else none
  | .finish => if self.Live then some { self with stream := self.stream.finish } else none
  | .reset => if self.Live then some { self with stream := self.stream.reset } else none
  | .lose error => if self.Live then some { self with lost := some error } else none
  | .poll => some { self with reader := (self.poll id).1, stream := (self.poll id).2 }

/-- The reader is where `first` gets with the bytes taken so far: on a live stream, for whatever
comes behind them, and on one that is over, for what is there. -/
structure Follows (id : StreamId) (first : Async Quic ε α) (s : Reading ε α) : Prop where
  live : s.Live → ∀ bytes ended lost,
    first.poll (RecvStream.serve lost id) ⟨[], s.stream.taken ++ bytes, ended⟩ =
      s.reader.poll (RecvStream.serve lost id) ⟨s.stream.taken, bytes, ended⟩
  now : first.poll (RecvStream.serve s.lost id) ⟨[], s.stream.received, s.stream.ended⟩ = s.poll id

variable {id : StreamId} {first : Async Quic ε α} {self next : Reading ε α}

/-- A reader that is polled has asked for what a single poll of the first one asks for. -/
theorem Follows.poll (hfollows : self.Follows id first) :
    Follows id first { self with reader := (self.poll id).1, stream := (self.poll id).2 } where
  live hlive bytes ended lost := by
    obtain ⟨reader, ⟨taken, unread, stream_ended⟩, lost'⟩ := self
    obtain ⟨hended, rfl⟩ :
        (Reading.poll id ⟨reader, ⟨taken, unread, stream_ended⟩, lost'⟩).2.ended = none ∧ lost' = none :=
      hlive
    cases hpoll : Reading.poll id ⟨reader, ⟨taken, unread, stream_ended⟩, none⟩ with
    | mk reader' left =>
      obtain ⟨-, hsame⟩ := RecvStream.poll_received hpoll
      rw [hpoll] at hended
      obtain rfl : stream_ended = none := hsame.symm.trans hended
      obtain ⟨read, rest, rfl, rfl, hagain⟩ := RecvStream.poll_live hpoll
      have hbefore := hfollows.live ⟨rfl, rfl⟩ (read ++ bytes) ended lost
      simp only at hbefore ⊢
      rw [List.append_assoc, hbefore, hagain]
  now := by
    have hpoll : self.poll id = ((self.poll id).1, (self.poll id).2) := rfl
    obtain ⟨hreceived, hended⟩ := RecvStream.poll_received hpoll
    have hagain := RecvStream.poll_again hpoll
    simp only [hreceived, hended]
    exact (hfollows.now.trans hpoll).trans hagain.symm

/-- An event on the stream leaves the reader where a single poll of the first one would be. -/
theorem Follows.step {event : Event} (hfollows : self.Follows id first) (h : self.step id event = some next) :
    next.Follows id first := by
  cases event with
  | poll =>
    cases h
    exact hfollows.poll
  | arrive data =>
    rw [Reading.step] at h
    split_ifs at h with hlive
    cases h
    refine ⟨fun _ => hfollows.live hlive, ?_⟩
    rw [RecvStream.received_push, RecvStream.received, List.append_assoc]
    exact hfollows.live hlive _ _ _
  | finish =>
    rw [Reading.step] at h
    split_ifs at h with hlive
    cases h
    exact ⟨fun hover => absurd hover.1 (by simp [RecvStream.finish]), hfollows.live hlive _ _ _⟩
  | reset =>
    rw [Reading.step] at h
    split_ifs at h with hlive
    cases h
    exact ⟨fun hover => absurd hover.1 (by simp [RecvStream.reset]), hfollows.live hlive _ _ _⟩
  | lose error =>
    rw [Reading.step] at h
    split_ifs at h with hlive
    cases h
    exact ⟨fun hover => absurd hover.2 (by simp), hfollows.live hlive _ _ _⟩

/-- However the bytes arrive and the function is polled meanwhile, a poll gives what a single
poll gives that finds everything there. -/
theorem poll_eq (hrun : Reachable (step id) (start first) self) :
    self.poll id =
      first.poll (RecvStream.serve self.lost id) ⟨[], self.stream.received, self.stream.ended⟩ := by
  have hfollows : self.Follows id first := by
    refine Run.invariant (Follows id first) ⟨fun _ _ _ _ => rfl, rfl⟩ ?_ hrun
    intro s next event hs _ hstep
    exact hs.step hstep
  exact hfollows.now.symm

end Reading

end quinn
