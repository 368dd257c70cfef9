import Mathlib.Algebra.Order.BigOperators.Group.List
import WebTransport.Session.Follows

open rust rust.Outcome rust.Async quinn transition wt_proto.h3.connect

namespace wt_rs

/-- All functions of both sides. -/
def tasks : List Task :=
  [(.Client, .left), (.Client, .right), (.Client, .rest), (.Server, .left), (.Server, .right), (.Server, .rest)]

/-- Every function is counted. -/
theorem mem_tasks (task : Task) : task ∈ tasks := by
  obtain ⟨side, branch⟩ := task
  cases side <;> cases branch <;> decide

/-- How much is left to do for a function: its actions, the bytes it has to write, and those it
has written that have not arrived. -/
def remaining (todo : Task → List Action) (net : Network) (task : Task) : Nat :=
  (todo task).length + (written (todo task)).length + (net.flight (task.1, task.stream)).length

def total (todo : Task → List Action) (net : Network) : Nat := (tasks.map (remaining todo net)).sum

variable {plan : Plan} {todo todo' : Task → List Action} {net net' : Network} {task : Task} {action : Action}
  {tail : List Action}

theorem total_lt (hle : ∀ task, remaining todo' net' task ≤ remaining todo net task)
    (hlt : remaining todo' net' task < remaining todo net task) : total todo' net' < total todo net :=
  List.sum_lt_sum _ _ (fun task _ => hle task) ⟨task, mem_tasks task, hlt⟩

/-- An action leaves less to do. -/
theorem total_serve_lt {answer : (action.call task.stream).1.Answer} (htodo : todo task = action :: tail)
    (hserve : net.serve task.1 (action.call task.stream).1 = some (answer, net')) :
    total (Function.update todo task tail) net' < total todo net := by
  have hflight := Network.flight_serve hserve
  have hlt : remaining (Function.update todo task tail) net' task < remaining todo net task := by
    rw [remaining, remaining, hflight, Function.update_self, Function.update_self, htodo, written_cons action tail]
    simp only [List.length_append, List.length_cons]
    omega
  apply total_lt _ hlt
  intro task'
  by_cases heq : task' = task
  · rw [heq]
    exact hlt.le
  · rw [remaining, remaining, hflight, Function.update_of_ne heq, Function.update_of_ne (Task.key_ne heq)]

/-- Bytes that arrive leave less to do. -/
theorem total_deliver_lt (hflight : net.flight (task.1, task.stream) ≠ []) :
    total todo (net.deliver task.1 task.stream (net.flight (task.1, task.stream)).length) < total todo net := by
  have hpos := List.length_pos_iff.mpr hflight
  have hlt : remaining todo (net.deliver task.1 task.stream (net.flight (task.1, task.stream)).length) task <
      remaining todo net task := by
    rw [remaining, remaining, Network.flight_deliver, Function.update_self, List.length_drop]
    omega
  apply total_lt _ hlt
  intro task'
  by_cases heq : task' = task
  · rw [heq]
    exact hlt.le
  · rw [remaining, remaining, Network.flight_deliver, Function.update_of_ne (Task.key_ne heq)]

namespace Agrees

/-- A function that is to write nothing has nothing left to write. -/
theorem written_eq_nil (h : Agrees plan todo net) (hscript : written (plan.script task) = []) :
    written (todo task) = [] := by
  obtain ⟨done, hdone⟩ := h.suffix task
  rw [← hdone, written_append] at hscript
  exact (List.append_eq_nil_iff.mp hscript).2

/-- The client writes its request before it reads. -/
theorem client_writes (h : Agrees plan todo net) (hwritten : written (todo (.Client, .rest)) ≠ []) :
    ∃ action tail, todo (.Client, .rest) = action :: tail ∧ (action = .opens ∨ ∃ data, action = .writes data) := by
  have hsuffix := h.suffix (.Client, .rest)
  rw [Plan.script, List.suffix_cons_iff, List.suffix_cons_iff] at hsuffix
  obtain heq | heq | hreads := hsuffix
  · exact ⟨_, _, heq, .inl rfl⟩
  · exact ⟨_, _, heq, .inr ⟨_, rfl⟩⟩
  · obtain ⟨done, hdone⟩ := hreads
    have hnone := written_map_reads plan.response_chunks
    rw [← hdone, written_append] at hnone
    exact absurd (List.append_eq_nil_iff.mp hnone).2 hwritten

/-- When no bytes are on their way, some function can go on: one that sends its settings, else one
that receives them, else one of the two that deal with the request. -/
theorem exists_ready (h : Agrees plan todo net)
    (hflight : ∀ task : Task, net.flight (task.1, task.stream) = []) (hpending : ∃ task, todo task ≠ []) :
    ∃ task action tail, todo task = action :: tail ∧
      (action = .opens ∨ (∃ data, action = .writes data) ∨ Heard todo net task) ∧
      (task.2 = .rest → todo (task.1, .left) = [] ∧ todo (task.1, .right) = []) := by
  have hheard {task : Task} (hwritten : written (todo task.dual) = []) : Heard todo net task := by
    have hdual := hflight task.dual
    rw [Task.dual_fst, Task.stream_dual] at hdual
    exact ⟨hdual, hwritten⟩
  by_cases hright : ∃ side, todo (side, .right) ≠ []
  · obtain ⟨side, hright⟩ := hright
    obtain ⟨action, tail, htodo⟩ := List.exists_cons_of_ne_nil hright
    have hwritten : written (todo (side.peer, .left)) = [] := by
      apply h.written_eq_nil
      rw [Plan.script]
      exact written_map_reads _
    exact ⟨_, action, tail, htodo, .inr (.inr (hheard hwritten)), fun heq => Branch.noConfusion heq⟩
  · simp only [not_exists, not_not] at hright
    by_cases hleft : ∃ side, todo (side, .left) ≠ []
    · obtain ⟨side, hleft⟩ := hleft
      obtain ⟨action, tail, htodo⟩ := List.exists_cons_of_ne_nil hleft
      have hwritten : written (todo (side.peer, .right)) = [] := by
        rw [hright]
        rfl
      exact ⟨_, action, tail, htodo, .inr (.inr (hheard hwritten)), fun heq => Branch.noConfusion heq⟩
    · simp only [not_exists, not_not] at hleft
      have hbefore (side : Side) : todo (side, .left) = [] ∧ todo (side, .right) = [] := ⟨hleft side, hright side⟩
      by_cases hclient : written (todo (.Client, .rest)) = []
      · by_cases hserver : todo (.Server, .rest) = []
        · have hrest : todo (.Client, .rest) ≠ [] := by
            intro hdone
            obtain ⟨⟨side, branch⟩, htask⟩ := hpending
            cases branch with
            | left => exact htask (hleft side)
            | right => exact htask (hright side)
            | rest =>
              cases side with
              | Client => exact htask hdone
              | Server => exact htask hserver
          obtain ⟨action, tail, htodo⟩ := List.exists_cons_of_ne_nil hrest
          have hwritten : written (todo (.Server, .rest)) = [] := by
            rw [hserver]
            rfl
          exact ⟨_, action, tail, htodo, .inr (.inr (hheard hwritten)), fun _ => hbefore _⟩
        · obtain ⟨action, tail, htodo⟩ := List.exists_cons_of_ne_nil hserver
          exact ⟨_, action, tail, htodo, .inr (.inr (hheard hclient)), fun _ => hbefore _⟩
      · obtain ⟨action, tail, htodo, hopens | hwrites⟩ := h.client_writes hclient
        · exact ⟨_, action, tail, htodo, .inl hopens, fun _ => hbefore _⟩
        · exact ⟨_, action, tail, htodo, .inr (.inl hwrites), fun _ => hbefore _⟩

end Agrees

namespace Handshake

variable {self : Handshake}

/-- As long as something is left to do, the handshake gets on. -/
theorem Follows.progress (h : self.Follows plan todo) (hpending : ∃ task, todo task ≠ []) :
    ∃ event next todo', event.Internal ∧ self.step event = some next ∧ next.Follows plan todo' ∧
      total todo' next.net < total todo self.net := by
  by_cases hflight : ∃ task : Task, self.net.flight (task.1, task.stream) ≠ []
  · obtain ⟨task, hflight⟩ := hflight
    have hlen := List.length_pos_iff.mpr hflight
    exact ⟨.deliver task.1 task.stream _, _, todo, task.internal _ _, if_pos ⟨hlen, Nat.le_refl _⟩,
      ⟨h.agrees.deliver, h.party⟩, total_deliver_lt hflight⟩
  · simp only [not_exists, not_not] at hflight
    obtain ⟨⟨side, branch⟩, action, tail, htodo, hready, hrest⟩ := h.agrees.exists_ready hflight hpending
    obtain ⟨answer, net, hserve⟩ := h.agrees.exists_serve htodo hready
    have hscript : Task.scripts todo side branch =
        action.call (Task.stream (side, branch)) :: calls (Task.stream (side, branch)) tail := by
      rw [Task.scripts, htodo, calls_cons]
    have hbefore (heq : branch = .rest) :
        Task.scripts todo side .left = [] ∧ Task.scripts todo side .right = [] := by
      obtain ⟨hleft, hright⟩ := hrest heq
      rw [Task.scripts, Task.scripts, hleft, hright]
      exact ⟨rfl, rfl⟩
    obtain ⟨party, hparty⟩ := (h.party side).step hscript hbefore hserve
    obtain ⟨action, tail, answer, htodo, hserve, hnext⟩ := h.act hparty
    refine ⟨.act side branch, _, _, trivial, ?_, hnext, total_serve_lt htodo hserve⟩
    rw [Handshake.step, hparty]

/-- When nothing is left of the plan, both sides have come back with their connections. -/
theorem Follows.finished (h : self.Follows plan todo) (hdone : ∀ task, todo task = []) (side : Side) :
    self.result side = some (ok (.established side)) := by
  have hscripts (branch : Branch) : Task.scripts todo side branch = [] := by
    rw [Task.scripts, hdone, calls_nil]
  rw [result, (h.party side).finished hscripts]

/-- From every state on the way the handshake can be completed. -/
theorem Follows.completes (h : self.Follows plan todo) :
    ∃ events next, (∀ event ∈ events, Event.Internal event) ∧ steps Handshake.step self events = some next ∧
      ∀ side, next.result side = some (ok (.established side)) := by
  induction htotal : total todo self.net using Nat.strong_induction_on generalizing self todo with
  | _ n ih =>
    by_cases hpending : ∃ task, todo task ≠ []
    · obtain ⟨event, mid, todo', hinternal, hstep, hmid, hlt⟩ := h.progress hpending
      obtain ⟨events, next, hevents, hsteps, hresult⟩ := ih _ (htotal ▸ hlt) hmid rfl
      refine ⟨event :: events, next, List.forall_mem_cons.mpr ⟨hinternal, hevents⟩, ?_, hresult⟩
      rw [steps, hstep]
      exact hsteps
    · simp only [not_exists, not_not] at hpending
      exact ⟨[], self, List.forall_mem_nil _, rfl, h.finished hpending⟩

/-- No side ever fails. Before both have come back, the handshake can go on, and it can always be
completed. When both have come back, they hold the same session: that of the stream on which the
server has read the request of the client. -/
theorem handshake_completes {fuel : Nat} {orders : Side → Orders}
    (hrun : Reachable Handshake.step (start (fuel + 1) orders) self) :
    (∀ side result, self.result side = some result → ∃ connection, result = ok connection) ∧
    ((∃ side, self.result side = none) → ∃ event next, Event.Internal event ∧ self.step event = some next) ∧
    (∃ events next, (∀ event ∈ events, Event.Internal event) ∧ steps Handshake.step self events = some next ∧
      ∀ side, next.result side ≠ none) ∧
    ∀ client server, self.result .Client = some (ok client) → self.result .Server = some (ok server) →
      ∃ id connect stream, client.id = some id ∧ server.id = some id ∧ client.connect = some connect ∧
        server.connect = some connect ∧ connect.inner.writer = stream ∧ connect.inner.reader = stream ∧
        id.into_inner = stream.value ∧ Message Connect.open_headers (self.net.streams (.Server, stream)).taken := by
  obtain ⟨plan, todo, h⟩ := exists_follows_of_reachable hrun
  refine ⟨fun side result hresult => ⟨_, (h.of_result hresult).2⟩, fun hnone => ?_, ?_,
    fun client server hclient hserver => ?_⟩
  · obtain ⟨side, hnone⟩ := hnone
    have hpending : ∃ task, todo task ≠ [] := by
      by_contra hdone
      simp only [not_exists, not_not] at hdone
      rw [h.finished hdone side] at hnone
      cases hnone
    obtain ⟨event, next, -, hinternal, hstep, -⟩ := h.progress hpending
    exact ⟨event, next, hinternal, hstep⟩
  · obtain ⟨events, next, hevents, hsteps, hresult⟩ := h.completes
    refine ⟨events, next, hevents, hsteps, fun side hnone => ?_⟩
    rw [hresult side] at hnone
    cases hnone
  · obtain ⟨-, hclient⟩ := h.of_result hclient
    obtain ⟨hdone, hserver⟩ := h.of_result hserver
    cases hclient
    cases hserver
    refine ⟨_, _, ⟨.Client, .Bi, 0⟩, rfl, rfl, rfl, rfl, rfl, rfl, rfl, ?_⟩
    have htaken := h.agrees.taken (.Server, .rest)
    simp only [hdone, Plan.script, wanted, wanted_append, wanted_map_reads, plan.flatten_request,
      List.append_nil] at htaken
    change Message Connect.open_headers (self.net.streams (.Server, Task.stream (.Server, .rest))).taken
    rw [htaken]
    exact plan.message

/-- Both sides iterate their maps in the order in which these were filled. -/
def in_order : Side → Orders := fun _ =>
  { settings := ⟨wt_proto.h3.Settings.webtransport_iter 1, rfl⟩
    request := ⟨Connect.open_iter, rfl⟩
    response := ⟨Request.ok_iter, rfl⟩ }

/-- Once both sides have opened their control streams, the rest of the handshake ends with a session
on both sides. -/
theorem handshake_completes_in_order :
    ∃ opened events finished client server id,
      steps Handshake.step (start 1 in_order) [.act .Client .right, .act .Server .right] = some opened ∧
      steps Handshake.step opened events = some finished ∧ finished.result .Client = some (ok client) ∧
      finished.result .Server = some (ok server) ∧ client.id = some id ∧ server.id = some id := by
  obtain ⟨opened, hopened⟩ : ∃ opened,
      steps Handshake.step (start 1 in_order) [.act .Client .right, .act .Server .right] = some opened :=
    ⟨_, rfl⟩
  have hrun : Reachable Handshake.step (start (0 + 1) in_order) opened := Reachable.steps .start hopened
  obtain ⟨-, -, ⟨events, finished, -, hsteps, hresult⟩, -⟩ := handshake_completes hrun
  obtain ⟨hok, -, -, hagree⟩ := handshake_completes (hrun.steps hsteps)
  obtain ⟨result, hclient⟩ := Option.ne_none_iff_exists'.mp (hresult .Client)
  obtain ⟨result', hserver⟩ := Option.ne_none_iff_exists'.mp (hresult .Server)
  obtain ⟨client, rfl⟩ := hok .Client result hclient
  obtain ⟨server, rfl⟩ := hok .Server result' hserver
  obtain ⟨id, -, -, hid, hid', -⟩ := hagree client server hclient hserver
  exact ⟨opened, events, finished, client, server, id, hopened, hsteps, hclient, hserver, hid, hid'⟩

end Handshake

end wt_rs
