import WebTransport.Quinn.Network
import WebTransport.Transition.Run

open rust rust.Outcome transition

namespace quinn

namespace Network

/-- A side operates on the connection or on one of its streams, or bytes arrive. -/
inductive Event where
  | serve (side : Side) (op : Op)
  | deliver (sender : Side) (stream : StreamId) (len : Nat)

def step (self : Network) : Event → Option Network
  | .serve side op =>
    if self.Permits side op then
      match self.serve side op with
      | some (_, net) => some net
      | none => none
    else none
  | .deliver sender stream len =>
    if 0 < len ∧ len ≤ (self.flight (sender, stream)).length then some (self.deliver sender stream len) else none

/-- Streams are opened before bytes of them arrive, and before they are accepted. There is nothing
on a stream that has not been opened. -/
structure Sound (net : Network) : Prop where
  accepted : ∀ side dir, net.accepted (side, dir) ≤ net.surfaced (side, dir)
  surfaced : ∀ side dir, net.surfaced (side, dir) ≤ net.opened (side.peer, dir)
  fresh : ∀ stream, net.opened (stream.initiator, stream.dir) ≤ stream.index →
    ∀ side, net.flight (side, stream) = [] ∧ net.streams (side, stream) = .opened

theorem sound_new : new.Sound where
  accepted _ _ := Nat.le_refl 0
  surfaced _ _ := Nat.le_refl 0
  fresh _ _ _ := ⟨rfl, rfl⟩

namespace Sound

variable {net next : Network} {side : Side} {stream : StreamId}

/-- What is done on a stream is not done on another one. -/
theorem update_of_ne {α : Type} {f : Side × StreamId → α} {side' : Side} {stream' : StreamId} {value : α}
    (hne : stream' ≠ stream) : Function.update f (side, stream) value (side', stream') = f (side', stream') :=
  Function.update_of_ne (fun hkey => hne (Prod.mk.inj hkey).2) _ _

/-- A stream that a side knows has been opened. -/
theorem lt_opened_of_knows (h : net.Sound) (hknows : net.Knows side stream) :
    stream.index < net.opened (stream.initiator, stream.dir) := by
  rw [Knows] at hknows
  split_ifs at hknows with hinitiator
  · rw [hinitiator]
    exact hknows
  · rw [Side.eq_peer_of_ne hinitiator]
    exact Nat.lt_of_lt_of_le hknows (Nat.le_trans (h.accepted side stream.dir) (h.surfaced side stream.dir))

/-- Something is done on a stream that has been opened. -/
theorem of_opened (h : net.Sound) (hopened : stream.index < net.opened (stream.initiator, stream.dir))
    {flight : Side × StreamId → List UInt8} {streams : Side × StreamId → RecvStream}
    (hflight : ∀ side stream', stream' ≠ stream → flight (side, stream') = net.flight (side, stream'))
    (hstreams : ∀ side stream', stream' ≠ stream → streams (side, stream') = net.streams (side, stream')) :
    { net with flight, streams }.Sound where
  accepted := h.accepted
  surfaced := h.surfaced
  fresh stream' hindex side := by
    have hne : stream' ≠ stream := fun heq => Nat.not_le_of_lt hopened (heq ▸ hindex)
    simp only [hflight side stream' hne, hstreams side stream' hne]
    exact h.fresh stream' hindex side

/-- Opening the next stream keeps the order. -/
theorem open_ (h : net.Sound) (side : Side) (dir : Dir) :
    (net.set_opened side dir (net.opened (side, dir) + 1)).Sound where
  accepted := h.accepted
  surfaced side' dir' := by
    have hsurfaced := h.surfaced side' dir'
    rw [opened_set_opened]
    by_cases hkey : (side'.peer, dir') = (side, dir)
    · rw [hkey, Function.update_self]
      exact Nat.le_succ_of_le (hkey ▸ hsurfaced)
    · rw [Function.update_of_ne hkey]
      exact hsurfaced
  fresh stream hindex := by
    apply h.fresh stream
    rw [opened_set_opened] at hindex
    by_cases hkey : (stream.initiator, stream.dir) = (side, dir)
    · rw [hkey, Function.update_self] at hindex
      rw [hkey]
      exact Nat.le_of_succ_le hindex
    · rwa [Function.update_of_ne hkey] at hindex

/-- Accepting keeps the order: a stream is announced before it is accepted. -/
theorem accept {dir : Dir} {out : Except ConnectionError StreamId × Network} (h : net.Sound)
    (haccept : net.accept side dir = some out) : out.2.Sound := by
  rw [Network.accept] at haccept
  split at haccept
  · rename_i hindex
    cases haccept
    refine ⟨fun side' dir' => ?_, h.surfaced, h.fresh⟩
    rw [accepted_set_accepted]
    by_cases hkey : (side', dir') = (side, dir)
    · rw [hkey, Function.update_self]
      exact hindex
    · rw [Function.update_of_ne hkey]
      exact h.accepted side' dir'
  · cases haccept

/-- An operation that is permitted keeps the order. -/
theorem serve {op : Op} {out : op.Answer × Network} (h : net.Sound) (hpermits : net.Permits side op)
    (hserve : net.serve side op = some out) : out.2.Sound := by
  cases op with
  | open_uni =>
    cases hserve
    exact h.open_ side .Uni
  | open_bi =>
    cases hserve
    exact h.open_ side .Bi
  | accept_uni => exact h.accept hserve
  | accept_bi => exact h.accept hserve
  | write_all stream data =>
    cases hserve
    exact h.of_opened (h.lt_opened_of_knows hpermits.1) (fun _ _ hne => update_of_ne hne) fun _ _ _ => rfl
  | read_exact stream len =>
    rw [Network.serve] at hserve
    split at hserve
    · cases hserve
      exact h.of_opened (h.lt_opened_of_knows hpermits.1) (fun _ _ _ => rfl) fun _ _ hne => update_of_ne hne
    · cases hserve

/-- The arrival of bytes that were on their way keeps the order. -/
theorem deliver {len : Nat} (h : net.Sound) (hlen : 0 < len ∧ len ≤ (net.flight (side, stream)).length) :
    (net.deliver side stream len).Sound := by
  have hopened : stream.index < net.opened (stream.initiator, stream.dir) := by
    by_contra hindex
    rw [(h.fresh stream (Nat.le_of_not_lt hindex) side).1, List.length_nil] at hlen
    exact Nat.not_le_of_lt hlen.1 hlen.2
  have hsound : { net with
      flight := (net.deliver side stream len).flight
      streams := (net.deliver side stream len).streams }.Sound :=
    h.of_opened hopened (fun _ _ hne => update_of_ne hne) fun _ _ hne => update_of_ne hne
  refine ⟨fun side' dir' => Nat.le_trans (h.accepted side' dir') (surfaced_le_deliver len _), fun side' dir' => ?_,
    hsound.fresh⟩
  have hsurfaced := h.surfaced side' dir'
  rw [surfaced_deliver]
  split
  · rename_i hinitiator
    by_cases hkey : (side', dir') = (side.peer, stream.dir)
    · obtain ⟨rfl, rfl⟩ := Prod.mk.inj hkey
      rw [Side.peer_peer] at hsurfaced ⊢
      rw [hinitiator] at hopened
      rw [Function.update_self]
      exact Nat.max_le.mpr ⟨hsurfaced, hopened⟩
    · rw [Function.update_of_ne hkey]
      exact hsurfaced
  · exact hsurfaced

end Sound

/-- Whatever the sides do on a new connection. -/
theorem sound_of_reachable {net : Network} (hreach : Reachable step new net) : net.Sound := by
  refine hreach.invariant Sound sound_new fun {net next event} hsound _ hstep => ?_
  cases event with
  | serve side op =>
    rw [step] at hstep
    split_ifs at hstep with hpermits
    split at hstep
    · rename_i hserve
      cases hstep
      exact hsound.serve hpermits hserve
    · cases hstep
  | deliver sender stream len =>
    rw [step] at hstep
    split_ifs at hstep with hlen
    cases hstep
    exact hsound.deliver hlen

end Network

end quinn
