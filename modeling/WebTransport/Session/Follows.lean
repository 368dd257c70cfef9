import WebTransport.Session.Agrees
import WebTransport.Transition.Run

open rust rust.Outcome rust.Async quinn transition wt_proto.h3.connect

namespace wt_rs

namespace Handshake

/-- Both sides keep to the plan, and `todo` is what is left of it. -/
structure Follows (plan : Plan) (todo : Task → List Action) (handshake : Handshake) : Prop where
  agrees : Agrees plan todo handshake.net
  party : ∀ side, (handshake.party side).Follows (Task.scripts todo side) (Connection.established side)

variable {plan : Plan} {todo : Task → List Action} {self next : Handshake} {side : Side} {branch : Branch}
  {event : Event}

/-- There is a plan for every order in which the two sides iterate their maps. -/
theorem exists_follows (fuel : Nat) (orders : Side → Orders) :
    ∃ plan : Plan, (start (fuel + 1) orders).Follows plan plan.script := by
  obtain ⟨plan, hclient, hserver⟩ := exists_plan orders fuel
  refine ⟨plan, .start plan, fun side => ?_⟩
  cases side with
  | Client => exact hclient
  | Server => exact hserver

theorem calls_eq_nil {stream : StreamId} {actions : List Action} (h : calls stream actions = []) : actions = [] :=
  List.map_eq_nil_iff.mp h

/-- A side that has come back has nothing left to do, and it did not fail. -/
theorem Follows.of_result (h : self.Follows plan todo) {result : Outcome WTError Connection}
    (hresult : self.result side = some result) :
    (∀ branch, todo (side, branch) = []) ∧ result = ok (Connection.established side) := by
  have hparty := h.party side
  rw [Handshake.result] at hresult
  split at hresult
  · rename_i heq
    cases hresult
    rw [heq] at hparty
    obtain ⟨hscripts, hvalue⟩ := hparty.of_done
    exact ⟨fun branch => calls_eq_nil (hscripts branch), hvalue⟩
  · cases hresult

/-- What a side does is what its plan says is next, and the plan goes on without it. -/
theorem Follows.act (h : self.Follows plan todo) {party : TryJoin Quic WTError _ StreamId Connection} {net : Network}
    (hstep : (self.party side).step (Network.serve side) branch self.net = some (party, net)) :
    ∃ action tail answer, todo (side, branch) = action :: tail ∧
      self.net.serve side (action.call (Task.stream (side, branch))).1 = some (answer, net) ∧
      Follows plan (Function.update todo (side, branch) tail)
        { party := Function.update self.party side party, net } := by
  obtain ⟨op, answer, tail, answer', hscript, hserve, hnext⟩ := (h.party side).of_step hstep
  obtain ⟨action, actions, htodo, hcall, rfl⟩ := List.map_eq_cons_iff.mp hscript
  obtain ⟨rfl, hanswer⟩ := Sigma.mk.inj_iff.mp hcall
  obtain ⟨rfl, hagrees⟩ := h.agrees.serve htodo hserve
  refine ⟨action, actions, _, htodo, hserve, hagrees, fun side' => ?_⟩
  change TryJoin.Follows _ _ (Function.update self.party side party side')
  by_cases heq : side' = side
  · subst heq
    rw [Function.update_self, Task.scripts_update_self]
    exact hnext (eq_of_heq hanswer)
  · rw [Function.update_of_ne heq, Task.scripts_update_of_ne todo heq]
    exact h.party side'

/-- Every step keeps to the plan. -/
theorem Follows.step (h : self.Follows plan todo) (hstep : self.step event = some next) :
    ∃ todo', next.Follows plan todo' := by
  cases event with
  | act side branch =>
    rw [Handshake.step] at hstep
    split at hstep
    · rename_i party net hact
      cases hstep
      obtain ⟨action, tail, answer, -, -, hnext⟩ := h.act hact
      exact ⟨_, hnext⟩
    · cases hstep
  | deliver sender stream len =>
    rw [Handshake.step] at hstep
    split at hstep
    · cases hstep
      exact ⟨todo, h.agrees.deliver, h.party⟩
    · cases hstep
  | app side op =>
    rw [Handshake.step] at hstep
    split at hstep
    · rename_i connection hresult
      obtain ⟨hdone, hconnection⟩ := h.of_result hresult
      cases hconnection
      split at hstep
      · rename_i hallowed
        split at hstep
        · rename_i answer net hserve
          cases hstep
          exact ⟨todo, h.agrees.app hdone hallowed.2 hserve, h.party⟩
        · cases hstep
      · cases hstep
    · cases hstep

/-- Both sides keep to the plan in every run. -/
theorem exists_follows_of_reachable {fuel : Nat} {orders : Side → Orders}
    (hrun : Reachable Handshake.step (start (fuel + 1) orders) self) : ∃ plan todo, self.Follows plan todo := by
  obtain ⟨plan, hstart⟩ := exists_follows fuel orders
  obtain ⟨todo, h⟩ := hrun.invariant (fun self => ∃ todo, self.Follows plan todo) ⟨_, hstart⟩
    fun ⟨_, h⟩ _ hstep => h.step hstep
  exact ⟨plan, todo, h⟩

end Handshake

end wt_rs
