import WebTransport.Session.Handshake
import WebTransport.Session.Plan

open rust rust.Outcome rust.Async quinn

namespace wt_rs

namespace Task

/-- How a function gets its stream. -/
def first (task : Task) : Action :=
  if task.stream.initiator = task.1 then .opens else .accepts

variable {task task' : Task}

@[simp] theorem stream_dual (task : Task) : task.dual.stream = task.stream := by
  obtain ⟨side, branch⟩ := task
  cases side <;> cases branch <;> rfl

@[simp] theorem dual_fst (task : Task) : task.dual.1 = task.1.peer := by
  obtain ⟨side, branch⟩ := task
  cases branch <;> rfl

@[simp] theorem stream_index (task : Task) : task.stream.index = 0 := by
  obtain ⟨side, branch⟩ := task
  cases branch <;> rfl

/-- The functions of a side are on different streams. -/
theorem stream_inj (hside : task.1 = task'.1) (hstream : task.stream = task'.stream) : task = task' := by
  obtain ⟨side, branch⟩ := task
  obtain ⟨side', branch'⟩ := task'
  simp only at hside
  subst hside
  revert hstream
  cases side <;> cases branch <;> cases branch' <;> decide

theorem key_ne (hne : task ≠ task') : (task.1, task.stream) ≠ (task'.1, task'.stream) := by
  intro hkey
  obtain ⟨hside, hstream⟩ := Prod.mk.inj hkey
  exact hne (stream_inj hside hstream)

/-- At a side a function is known by the kind of its stream and by who opens that. -/
theorem eq_of_dir (hside : task.1 = task'.1) (hdir : task.stream.dir = task'.stream.dir)
    (hinitiator : task.stream.initiator = task'.stream.initiator) : task = task' := by
  apply stream_inj hside
  have hindex := (stream_index task).trans (stream_index task').symm
  cases hstream : task.stream
  cases hstream' : task'.stream
  rw [hstream, hstream'] at hdir hinitiator hindex
  rw [StreamId.mk.injEq]
  exact ⟨hinitiator, hdir, hindex⟩

/-- A side opens one stream of a kind, and accepts one. -/
theorem dir_key_ne (hne : task ≠ task')
    (hinitiator : task.1 = task'.1 → task.stream.initiator = task'.stream.initiator) :
    (task.1, task.stream.dir) ≠ (task'.1, task'.stream.dir) := by
  intro hkey
  obtain ⟨hside, hdir⟩ := Prod.mk.inj hkey
  exact hne (eq_of_dir hside hdir (hinitiator hside))

/-- The bytes of the handshake arrive without the applications. -/
theorem internal (task : Task) (sender : Side) (len : Nat) :
    (Handshake.Event.deliver sender task.stream len).Internal := by
  obtain ⟨side, branch⟩ := task
  rw [Handshake.Event.Internal]
  cases side <;> cases branch <;> decide

theorem stream_mem_held (task : Task) : task.stream ∈ (Connection.established task.1).held := by
  obtain ⟨side, branch⟩ := task
  cases side <;> cases branch <;> decide

/-- A stream that is not held is on no function's way. -/
theorem ne_of_not_held {side : Side} {stream : StreamId} (h : stream ∉ (Connection.established side).held) :
    (task.1, task.stream) ≠ (side, stream) := by
  intro heq
  obtain ⟨rfl, rfl⟩ := Prod.mk.inj heq
  exact h task.stream_mem_held

end Task

namespace Plan

variable (plan : Plan) (task : Task)

theorem script_eq_first : ∃ tail, plan.script task = task.first :: tail ∧
    .opens ∉ tail ∧ .accepts ∉ tail := by
  obtain ⟨side, branch⟩ := task
  cases side <;> cases branch <;> exact ⟨_, rfl, by simp, by simp⟩

/-- The bytes one function writes are those the other one reads. -/
theorem written_dual : written (plan.script task.dual) = wanted (plan.script task) := by
  obtain ⟨side, branch⟩ := task
  cases branch with
  | left =>
    simp only [Task.dual, script, written, wanted, wanted_map_reads, plan.flatten_control, List.append_nil]
  | right => simp only [Task.dual, script, written, wanted, written_map_reads]
  | rest =>
    cases side with
    | Client =>
      simp only [Task.dual, Side.peer, script, written, wanted, written_append, written_map_reads,
        wanted_map_reads, plan.flatten_response, List.nil_append, List.append_nil]
    | Server =>
      simp only [Task.dual, Side.peer, script, written, wanted, wanted_append, written_map_reads,
        wanted_map_reads, plan.flatten_request, List.append_nil]

/-- A function that accepts its stream reads from it. -/
theorem wanted_ne_nil {task : Task} (hinitiator : task.stream.initiator = task.1.peer) :
    wanted (plan.script task) ≠ [] := by
  obtain ⟨side, branch⟩ := task
  cases branch with
  | left =>
    simp only [script, wanted, wanted_map_reads, plan.flatten_control]
    exact List.append_ne_nil_of_left_ne_nil (plan.stype_ne_nil _) _
  | right => cases side <;> cases hinitiator
  | rest =>
    cases side with
    | Client => cases hinitiator
    | Server =>
      simp only [script, wanted, wanted_append, wanted_map_reads, plan.flatten_request]
      exact List.append_ne_nil_of_left_ne_nil plan.message.ne_nil _

end Plan

/-- The sides have kept to the plan so far, and `todo` is what is left of it. What has been
written but not read yet is still wanted, and what has been read was. -/
structure Agrees (plan : Plan) (todo : Task → List Action) (net : Network) : Prop where
  suffix : ∀ task : Task, todo task <:+ plan.script task
  flow : ∀ task : Task, (net.streams (task.1, task.stream)).unread ++ net.flight (task.1.peer, task.stream) ++
    written (todo task.dual) = wanted (todo task)
  taken : ∀ task : Task, (net.streams (task.1, task.stream)).taken ++ wanted (todo task) = wanted (plan.script task)
  live : ∀ task : Task, (net.streams (task.1, task.stream)).ended = none
  unopened : ∀ task : Task, .opens ∈ todo task → net.opened (task.1, task.stream.dir) = 0
  unaccepted : ∀ task : Task, .accepts ∈ todo task → net.accepted (task.1, task.stream.dir) = 0
  surfaced : ∀ task : Task, (net.streams (task.1, task.stream)).unread ≠ [] →
    task.stream.initiator = task.1.peer → 0 < net.surfaced (task.1, task.stream.dir)

namespace Agrees

variable {plan : Plan} {todo : Task → List Action} {net net' : Network} {task task' : Task} {action : Action}
  {tail : List Action}

/-- At the start the whole plan is left, and nothing is on its way. -/
theorem start (plan : Plan) : Agrees plan plan.script .new where
  suffix := fun _ => List.suffix_rfl
  flow := plan.written_dual
  taken := fun _ => rfl
  live := fun _ => rfl
  unopened := fun _ _ => rfl
  unaccepted := fun _ _ => rfl
  surfaced := fun _ hunread => absurd rfl hunread

/-- A stream is opened or accepted before anything else. -/
theorem not_mem_tail (h : Agrees plan todo net) (htodo : todo task = action :: tail) :
    .opens ∉ tail ∧ .accepts ∉ tail := by
  obtain ⟨tail', hscript, hopens, haccepts⟩ := plan.script_eq_first task
  have hsuffix := h.suffix task
  rw [htodo, hscript, List.suffix_cons_iff] at hsuffix
  have hsubset : tail ⊆ tail' := by
    obtain heq | hsuffix := hsuffix
    · cases heq
      exact List.Subset.refl _
    · exact List.Subset.trans (List.subset_cons_self _ _) hsuffix.subset
  exact ⟨fun hmem => hopens (hsubset hmem), fun hmem => haccepts (hsubset hmem)⟩

/-- A function that has not got its stream yet has done nothing. -/
theorem first_of_mem (h : Agrees plan todo net) (haction : action = .opens ∨ action = .accepts)
    (hmem : action ∈ todo task) : action = task.first ∧ todo task = plan.script task := by
  obtain ⟨tail, hscript, hopens, haccepts⟩ := plan.script_eq_first task
  have hrest : action ∉ tail := by
    obtain rfl | rfl := haction
    · exact hopens
    · exact haccepts
  have hsuffix := h.suffix task
  rw [hscript, List.suffix_cons_iff] at hsuffix
  obtain heq | hsuffix := hsuffix
  · rw [heq, List.mem_cons] at hmem
    exact ⟨hmem.resolve_right hrest, heq.trans hscript.symm⟩
  · exact absurd (hsuffix.subset hmem) hrest

/-- A function opens a stream of its own side. -/
theorem initiator_of_opens (h : Agrees plan todo net) (hmem : .opens ∈ todo task) :
    task.stream.initiator = task.1 := by
  obtain ⟨hfirst, -⟩ := h.first_of_mem (.inl rfl) hmem
  by_contra hne
  rw [Task.first, if_neg hne] at hfirst
  cases hfirst

/-- A function accepts a stream of the peer. -/
theorem initiator_of_accepts (h : Agrees plan todo net) (hmem : .accepts ∈ todo task) :
    task.stream.initiator = task.1.peer := by
  obtain ⟨hfirst, -⟩ := h.first_of_mem (.inr rfl) hmem
  apply Side.eq_peer_of_ne
  intro heq
  rw [Task.first, if_pos heq] at hfirst
  cases hfirst

section Act

variable (h : Agrees plan todo net) (htodo : todo task = action :: tail)

include h htodo

/-- What is left after an action is left of the script. -/
theorem suffix_update (task' : Task) : Function.update todo task tail task' <:+ plan.script task' := by
  by_cases heq : task' = task
  · subst heq
    have hsuffix := h.suffix task'
    rw [htodo] at hsuffix
    rw [Function.update_self]
    exact List.IsSuffix.trans (List.suffix_cons _ _) hsuffix
  · rw [Function.update_of_ne heq]
    exact h.suffix task'

/-- A stream left to be opened after an action is that of another function. -/
theorem opens_mem_update (hmem : .opens ∈ Function.update todo task tail task') :
    task' ≠ task ∧ .opens ∈ todo task' := by
  by_cases heq : task' = task
  · subst heq
    rw [Function.update_self] at hmem
    exact absurd hmem (h.not_mem_tail htodo).1
  · rw [Function.update_of_ne heq] at hmem
    exact ⟨heq, hmem⟩

/-- A stream left to be accepted after an action is that of another function. -/
theorem accepts_mem_update (hmem : .accepts ∈ Function.update todo task tail task') :
    task' ≠ task ∧ .accepts ∈ todo task' := by
  by_cases heq : task' = task
  · subst heq
    rw [Function.update_self] at hmem
    exact absurd hmem (h.not_mem_tail htodo).2
  · rw [Function.update_of_ne heq] at hmem
    exact ⟨heq, hmem⟩

end Act

/-- An action that writes nothing leaves as much to be written. -/
theorem written_update (htodo : todo task = action :: tail) (haction : written [action] = []) (task' : Task) :
    written (Function.update todo task tail task') = written (todo task') := by
  by_cases heq : task' = task
  · subst heq
    rw [Function.update_self, htodo, written_cons, haction, List.nil_append]
  · rw [Function.update_of_ne heq]

/-- An action that reads nothing leaves as much to be read. -/
theorem wanted_update (htodo : todo task = action :: tail) (haction : wanted [action] = []) (task' : Task) :
    wanted (Function.update todo task tail task') = wanted (todo task') := by
  by_cases heq : task' = task
  · subst heq
    rw [Function.update_self, htodo, wanted_cons, haction, List.nil_append]
  · rw [Function.update_of_ne heq]

/-- A function opens its stream, and the plan goes on without that. -/
theorem opens (h : Agrees plan todo net) (htodo : todo task = .opens :: tail) :
    Agrees plan (Function.update todo task tail) (net.set_opened task.1 task.stream.dir 1) where
  suffix := h.suffix_update htodo
  flow := fun task' => by
    rw [written_update htodo rfl, wanted_update htodo rfl]
    exact h.flow task'
  taken := fun task' => by
    rw [wanted_update htodo rfl]
    exact h.taken task'
  live := h.live
  unopened := fun task' hmem => by
    obtain ⟨hne, hmem⟩ := h.opens_mem_update htodo hmem
    have hinitiator := h.initiator_of_opens hmem
    have hhead : .opens ∈ todo task := by
      rw [htodo]
      exact List.mem_cons_self
    have hinitiator' := h.initiator_of_opens hhead
    rw [Network.opened_set_opened, Function.update_of_ne (Task.dir_key_ne hne fun hside => ?_)]
    · exact h.unopened task' hmem
    · rw [hinitiator, hinitiator', hside]
  unaccepted := fun task' hmem => h.unaccepted task' (h.accepts_mem_update htodo hmem).2
  surfaced := h.surfaced

/-- A function accepts its stream, and the plan goes on without that. -/
theorem accepts (h : Agrees plan todo net) (htodo : todo task = .accepts :: tail) :
    Agrees plan (Function.update todo task tail) (net.set_accepted task.1 task.stream.dir 1) where
  suffix := h.suffix_update htodo
  flow := fun task' => by
    rw [written_update htodo rfl, wanted_update htodo rfl]
    exact h.flow task'
  taken := fun task' => by
    rw [wanted_update htodo rfl]
    exact h.taken task'
  live := h.live
  unopened := fun task' hmem => h.unopened task' (h.opens_mem_update htodo hmem).2
  unaccepted := fun task' hmem => by
    obtain ⟨hne, hmem⟩ := h.accepts_mem_update htodo hmem
    have hinitiator := h.initiator_of_accepts hmem
    have hhead : .accepts ∈ todo task := by
      rw [htodo]
      exact List.mem_cons_self
    have hinitiator' := h.initiator_of_accepts hhead
    rw [Network.accepted_set_accepted, Function.update_of_ne (Task.dir_key_ne hne fun hside => ?_)]
    · exact h.unaccepted task' hmem
    · rw [hinitiator, hinitiator', hside]
  surfaced := h.surfaced

/-- What a function writes is on its way, where the plan had it to be written. -/
theorem writes {data : List UInt8} (h : Agrees plan todo net) (htodo : todo task = .writes data :: tail) :
    Agrees plan (Function.update todo task tail)
      (net.set_flight task.1 task.stream (net.flight (task.1, task.stream) ++ data)) where
  suffix := h.suffix_update htodo
  flow := fun task' => by
    rw [wanted_update htodo rfl, ← h.flow task', Network.streams_set_flight, Network.flight_set_flight]
    by_cases heq : task'.dual = task
    · subst heq
      rw [htodo, Function.update_self, Task.dual_fst, Task.stream_dual, Function.update_self, written]
      simp only [List.append_assoc]
    · have hkey := Task.key_ne heq
      rw [Task.dual_fst, Task.stream_dual] at hkey
      rw [Function.update_of_ne hkey, Function.update_of_ne heq]
  taken := fun task' => by
    rw [wanted_update htodo rfl]
    exact h.taken task'
  live := h.live
  unopened := fun task' hmem => h.unopened task' (h.opens_mem_update htodo hmem).2
  unaccepted := fun task' hmem => h.unaccepted task' (h.accepts_mem_update htodo hmem).2
  surfaced := h.surfaced

/-- Bytes that are as many as a read takes are those it takes. -/
theorem reads_prefix {bytes : List UInt8} (h : Agrees plan todo net) (htodo : todo task = .reads bytes :: tail)
    (hlen : bytes.length ≤ (net.streams (task.1, task.stream)).unread.length) :
    bytes <+: (net.streams (task.1, task.stream)).unread := by
  have hflow := h.flow task
  rw [htodo, wanted, List.append_assoc] at hflow
  exact List.prefix_of_prefix_length_le ⟨_, rfl⟩ ⟨_, hflow⟩ hlen

/-- A function reads what it was to read. -/
theorem reads {bytes rest : List UInt8} (h : Agrees plan todo net) (htodo : todo task = .reads bytes :: tail)
    (hunread : (net.streams (task.1, task.stream)).unread = bytes ++ rest) :
    Agrees plan (Function.update todo task tail)
      (net.set_stream task.1 task.stream ⟨(net.streams (task.1, task.stream)).taken ++ bytes, rest,
        (net.streams (task.1, task.stream)).ended⟩) where
  suffix := h.suffix_update htodo
  flow := fun task' => by
    rw [written_update htodo rfl, Network.streams_set_stream, Network.flight_set_stream]
    have hflow := h.flow task'
    by_cases heq : task' = task
    · subst heq
      rw [htodo, wanted, hunread, List.append_assoc, List.append_assoc] at hflow
      rw [Function.update_self, Function.update_self, List.append_assoc]
      exact List.append_cancel_left hflow
    · rw [Function.update_of_ne (Task.key_ne heq), Function.update_of_ne heq]
      exact hflow
  taken := fun task' => by
    rw [Network.streams_set_stream]
    have htaken := h.taken task'
    by_cases heq : task' = task
    · subst heq
      rw [htodo, wanted, ← List.append_assoc] at htaken
      rw [Function.update_self, Function.update_self]
      exact htaken
    · rw [Function.update_of_ne (Task.key_ne heq), Function.update_of_ne heq]
      exact htaken
  live := fun task' => by
    rw [Network.streams_set_stream]
    by_cases heq : task' = task
    · subst heq
      rw [Function.update_self]
      exact h.live task'
    · rw [Function.update_of_ne (Task.key_ne heq)]
      exact h.live task'
  unopened := fun task' hmem => h.unopened task' (h.opens_mem_update htodo hmem).2
  unaccepted := fun task' hmem => h.unaccepted task' (h.accepts_mem_update htodo hmem).2
  surfaced := fun task' hrest hinitiator => by
    rw [Network.streams_set_stream] at hrest
    apply h.surfaced task' _ hinitiator
    by_cases heq : task' = task
    · subst heq
      rw [Function.update_self] at hrest
      rw [hunread]
      exact List.append_ne_nil_of_right_ne_nil _ hrest
    · rwa [Function.update_of_ne (Task.key_ne heq)] at hrest

/-- An operation that is served gives the answer of the plan. -/
theorem serve (h : Agrees plan todo net) (htodo : todo task = action :: tail)
    {answer : (action.call task.stream).1.Answer}
    (hserve : net.serve task.1 (action.call task.stream).1 = some (answer, net')) :
    answer = (action.call task.stream).2 ∧ Agrees plan (Function.update todo task tail) net' := by
  have hmem : action ∈ todo task := by
    rw [htodo]
    exact List.mem_cons_self
  cases action with
  | opens =>
    have hindex := (h.unopened task hmem).trans task.stream_index.symm
    rw [Network.serve_opens (h.initiator_of_opens hmem) hindex, task.stream_index] at hserve
    cases hserve
    exact ⟨rfl, h.opens htodo⟩
  | accepts =>
    have hindex := (h.unaccepted task hmem).trans task.stream_index.symm
    rw [Network.serve_accepts (h.initiator_of_accepts hmem) hindex, task.stream_index] at hserve
    split at hserve
    · cases hserve
      exact ⟨rfl, h.accepts htodo⟩
    · cases hserve
  | writes data =>
    cases hserve
    exact ⟨rfl, h.writes htodo⟩
  | reads bytes =>
    obtain ⟨rest, hrest⟩ := h.reads_prefix htodo (Network.length_le_of_serve_reads (h.live task) hserve)
    rw [Network.serve_reads hrest.symm] at hserve
    cases hserve
    exact ⟨rfl, h.reads htodo hrest.symm⟩

/-- Everything the peer has to say has arrived. -/
def Heard (todo : Task → List Action) (net : Network) (task : Task) : Prop :=
  net.flight (task.1.peer, task.stream) = [] ∧ written (todo task.dual) = []

theorem unread_of_heard (h : Agrees plan todo net) (hheard : Heard todo net task) :
    (net.streams (task.1, task.stream)).unread = wanted (todo task) := by
  have hflow := h.flow task
  rwa [hheard.1, hheard.2, List.append_nil, List.append_nil] at hflow

/-- Only a read or an accept has to wait, and for the peer only. -/
theorem exists_serve (h : Agrees plan todo net) (htodo : todo task = action :: tail)
    (hheard : action = .opens ∨ (∃ data, action = .writes data) ∨ Heard todo net task) :
    ∃ answer net', net.serve task.1 (action.call task.stream).1 = some (answer, net') := by
  have hmem : action ∈ todo task := by
    rw [htodo]
    exact List.mem_cons_self
  cases action with
  | opens =>
    have hindex := (h.unopened task hmem).trans task.stream_index.symm
    exact ⟨_, _, Network.serve_opens (h.initiator_of_opens hmem) hindex⟩
  | writes data => exact ⟨_, _, rfl⟩
  | accepts =>
    have hunread := h.unread_of_heard (by simpa using hheard)
    have hindex := (h.unaccepted task hmem).trans task.stream_index.symm
    have hinitiator := h.initiator_of_accepts hmem
    have hsurfaced : task.stream.index < net.surfaced (task.1, task.stream.dir) := by
      rw [task.stream_index]
      apply h.surfaced task _ hinitiator
      rw [hunread, (h.first_of_mem (.inr rfl) hmem).2]
      exact plan.wanted_ne_nil hinitiator
    exact ⟨_, _, (Network.serve_accepts hinitiator hindex).trans (if_pos hsurfaced)⟩
  | reads bytes =>
    have hunread := h.unread_of_heard (by simpa using hheard)
    rw [htodo, wanted] at hunread
    exact ⟨_, _, Network.serve_reads hunread⟩

/-- Bytes that arrive, on whatever stream, leave the plan as it is. -/
theorem deliver {sender : Side} {stream : StreamId} {len : Nat} (h : Agrees plan todo net) :
    Agrees plan todo (net.deliver sender stream len) where
  suffix := h.suffix
  flow := fun task => by
    have hflow := h.flow task
    rw [Network.streams_deliver, Network.flight_deliver]
    by_cases hkey : task.1 = sender.peer ∧ task.stream = stream
    · obtain ⟨hside, rfl⟩ := hkey
      rw [hside, Side.peer_peer] at hflow ⊢
      rw [Function.update_self, Function.update_self, RecvStream.push]
      simp only [List.append_assoc]
      rw [← List.append_assoc (List.take _ _), List.take_append_drop, ← List.append_assoc]
      exact hflow
    · have hkey' : (task.1, task.stream) ≠ (sender.peer, stream) := fun heq => hkey (Prod.mk.inj heq)
      have hkey'' : (task.1.peer, task.stream) ≠ (sender, stream) := by
        intro heq
        obtain ⟨hside, hstream⟩ := Prod.mk.inj heq
        exact hkey ⟨by rw [← hside, Side.peer_peer], hstream⟩
      rw [Function.update_of_ne hkey', Function.update_of_ne hkey'']
      exact hflow
  taken := fun task => by
    rw [Network.streams_deliver]
    by_cases hkey : (task.1, task.stream) = (sender.peer, stream)
    · rw [hkey, Function.update_self, ← hkey]
      exact h.taken task
    · rw [Function.update_of_ne hkey]
      exact h.taken task
  live := fun task => by
    rw [Network.streams_deliver]
    by_cases hkey : (task.1, task.stream) = (sender.peer, stream)
    · rw [hkey, Function.update_self, ← hkey]
      exact h.live task
    · rw [Function.update_of_ne hkey]
      exact h.live task
  unopened := h.unopened
  unaccepted := h.unaccepted
  surfaced := fun task hunread hinitiator => by
    by_cases hkey : (task.1, task.stream) = (sender.peer, stream)
    · obtain ⟨hside, rfl⟩ := Prod.mk.inj hkey
      rw [hside, Side.peer_peer] at hinitiator
      have hlt := net.lt_surfaced_deliver len hinitiator
      rwa [task.stream_index, ← hside] at hlt
    · rw [Network.streams_deliver, Function.update_of_ne hkey] at hunread
      exact Nat.lt_of_lt_of_le (h.surfaced task hunread hinitiator) (net.surfaced_le_deliver len _)

/-- Only the streams of the handshake matter. -/
theorem congr (h : Agrees plan todo net)
    (hstreams : ∀ task : Task, net'.streams (task.1, task.stream) = net.streams (task.1, task.stream))
    (hflight : ∀ task : Task, net'.flight (task.1, task.stream) = net.flight (task.1, task.stream))
    (hopened : ∀ task : Task, .opens ∈ todo task →
      net'.opened (task.1, task.stream.dir) = net.opened (task.1, task.stream.dir))
    (haccepted : ∀ task : Task, .accepts ∈ todo task →
      net'.accepted (task.1, task.stream.dir) = net.accepted (task.1, task.stream.dir))
    (hsurfaced : net'.surfaced = net.surfaced) : Agrees plan todo net' where
  suffix := h.suffix
  flow := fun task => by
    have hdual := hflight task.dual
    rw [Task.dual_fst, Task.stream_dual] at hdual
    rw [hstreams, hdual]
    exact h.flow task
  taken := fun task => by
    rw [hstreams]
    exact h.taken task
  live := fun task => by
    rw [hstreams]
    exact h.live task
  unopened := fun task hmem => (hopened task hmem).trans (h.unopened task hmem)
  unaccepted := fun task hmem => (haccepted task hmem).trans (h.unaccepted task hmem)
  surfaced := fun task hunread => by
    rw [hstreams] at hunread
    rw [hsurfaced]
    exact h.surfaced task hunread

/-- What an application does leaves the handshake alone. -/
theorem app {side : Side} {op : Op} {answer : op.Answer} (h : Agrees plan todo net)
    (hdone : ∀ branch, todo (side, branch) = []) (hoffers : (Connection.established side).Offers op)
    (hserve : net.serve side op = some (answer, net')) : Agrees plan todo net' := by
  have hother {task : Task} {action : Action} (hmem : action ∈ todo task) : task.1 ≠ side := by
    rintro rfl
    rw [hdone task.2] at hmem
    cases hmem
  cases op with
  | open_uni | open_bi =>
    cases hserve
    refine h.congr (fun _ => rfl) (fun _ => rfl) (fun task hmem => ?_) (fun _ _ => rfl) rfl
    exact Function.update_of_ne (fun heq => hother hmem (Prod.mk.inj heq).1) _ _
  | accept_uni | accept_bi =>
    simp only [Network.serve, Network.accept] at hserve
    split at hserve
    · cases hserve
      refine h.congr (fun _ => rfl) (fun _ => rfl) (fun _ _ => rfl) (fun task hmem => ?_) rfl
      exact Function.update_of_ne (fun heq => hother hmem (Prod.mk.inj heq).1) _ _
    · cases hserve
  | write_all stream data =>
    cases hserve
    refine h.congr (fun _ => rfl) (fun task => ?_) (fun _ _ => rfl) (fun _ _ => rfl) rfl
    exact Function.update_of_ne (Task.ne_of_not_held hoffers) _ _
  | read_exact stream len =>
    rw [Network.serve] at hserve
    split at hserve
    · cases hserve
      refine h.congr (fun task => ?_) (fun _ => rfl) (fun _ _ => rfl) (fun _ _ => rfl) rfl
      exact Function.update_of_ne (Task.ne_of_not_held hoffers) _ _
    · cases hserve

end Agrees

end wt_rs
