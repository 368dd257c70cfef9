import WebTransport.Quinn.Sound
import WebTransport.Session.Follows

open rust rust.Outcome rust.Async quinn

namespace quinn.Network

variable {net net' : Network} {side : Side} {stream : StreamId} {action : Action}

/-- An action on a stream that has been opened, or one that gets a stream. -/
theorem Sound.serve_action (h : net.Sound)
    (hopened : action = .opens ∨ action = .accepts ∨ stream.index < net.opened (stream.initiator, stream.dir))
    {answer : (action.call stream).1.Answer}
    (hserve : net.serve side (action.call stream).1 = some (answer, net')) : net'.Sound := by
  obtain ⟨initiator, dir, index⟩ := stream
  cases action with
  | opens =>
    cases dir with
    | Uni =>
      cases hserve
      exact h.open_ side .Uni
    | Bi =>
      cases hserve
      exact h.open_ side .Bi
  | accepts =>
    cases dir with
    | Uni => exact h.accept hserve
    | Bi => exact h.accept hserve
  | writes data =>
    simp only [reduceCtorEq, false_or] at hopened
    cases hserve
    exact h.of_opened hopened (fun _ _ hne => update_of_ne hne) fun _ _ _ => rfl
  | reads bytes =>
    simp only [reduceCtorEq, false_or] at hopened
    simp only [Action.call, Network.serve] at hserve
    split at hserve
    · cases hserve
      exact h.of_opened hopened (fun _ _ _ => rfl) fun _ _ hne => update_of_ne hne
    · cases hserve

/-- An action on one stream reads from no other. -/
theorem streams_serve {answer : (action.call stream).1.Answer}
    (hserve : net.serve side (action.call stream).1 = some (answer, net')) {key : Side × StreamId}
    (hne : key.2 ≠ stream) : net'.streams key = net.streams key := by
  obtain ⟨initiator, dir, index⟩ := stream
  cases action with
  | opens =>
    cases dir with
    | Uni | Bi =>
      cases hserve
      rfl
  | accepts =>
    cases dir with
    | Uni | Bi =>
      simp only [Action.call, serve, accept] at hserve
      split at hserve
      · cases hserve
        rfl
      · cases hserve
  | writes data =>
    cases hserve
    rfl
  | reads bytes =>
    simp only [Action.call, serve] at hserve
    split at hserve
    · cases hserve
      exact Function.update_of_ne (fun hkey => hne (congrArg Prod.snd hkey)) _ _
    · cases hserve

end quinn.Network

namespace wt_rs

/-- The first stream of a kind that a side opens for its application. Those before it are for the
settings and the request. -/
def Handshake.first : Side → Dir → Nat
  | _, .Uni => 1
  | .Client, .Bi => 1
  | .Server, .Bi => 0

theorem Task.first_eq_one (task : Task) : Handshake.first task.stream.initiator task.stream.dir = 1 := by
  obtain ⟨side, branch⟩ := task
  cases side <;> cases branch <;> rfl

theorem Task.lt_first (task : Task) :
    task.stream.index < Handshake.first task.stream.initiator task.stream.dir := by
  rw [task.stream_index, task.first_eq_one]
  exact Nat.one_pos

/-- A stream that the handshake counts is opened by one of its functions. -/
theorem Task.exists_opens {side : Side} {dir : Dir} (h : Handshake.first side dir ≠ 0) :
    Handshake.first side dir = 1 ∧
      ∃ task : Task, task.1 = side ∧ task.stream.initiator = side ∧ task.stream.dir = dir := by
  cases side with
  | Client =>
    cases dir with
    | Uni => exact ⟨rfl, (.Client, .right), rfl, rfl, rfl⟩
    | Bi => exact ⟨rfl, (.Client, .rest), rfl, rfl, rfl⟩
  | Server =>
    cases dir with
    | Uni => exact ⟨rfl, (.Server, .right), rfl, rfl, rfl⟩
    | Bi => exact absurd rfl h

/-- The function of the peer that gets the stream from the other side. -/
theorem Task.exists_accepts {side : Side} {dir : Dir} (h : Handshake.first side.peer dir ≠ 0) :
    Handshake.first side.peer dir = 1 ∧
      ∃ task : Task, task.1 = side ∧ task.stream.initiator = side.peer ∧ task.stream.dir = dir := by
  obtain ⟨hone, task, hside, hinitiator, hdir⟩ := Task.exists_opens h
  refine ⟨hone, task.dual, ?_, ?_, ?_⟩
  · rw [task.dual_fst, hside, Side.peer_peer]
  · rw [task.stream_dual, hinitiator]
  · rw [task.stream_dual, hdir]

variable {plan : Plan} {todo : Task → List Action} {net net' : Network} {task : Task} {action : Action}
  {tail : List Action} {side : Side} {stream : StreamId}

/-- How many streams the handshake has opened and accepted, with `todo` left to do. -/
structure Counts (todo : Task → List Action) (net : Network) : Prop where
  opened : ∀ task : Task, task.stream.initiator = task.1 → .opens ∉ todo task →
    0 < net.opened (task.1, task.stream.dir)
  accepted : ∀ task : Task, task.stream.initiator = task.1.peer → .accepts ∉ todo task →
    0 < net.accepted (task.1, task.stream.dir)
  opened_le : ∀ side dir, (∃ branch, todo (side, branch) ≠ []) → net.opened (side, dir) ≤ Handshake.first side dir
  accepted_le : ∀ side dir, net.accepted (side, dir) ≤ Handshake.first side.peer dir

namespace Agrees

/-- What an operation does to the number of streams opened. -/
theorem opened_serve (h : Agrees plan todo net) (htodo : todo task = action :: tail)
    {answer : (action.call task.stream).1.Answer}
    (hserve : net.serve task.1 (action.call task.stream).1 = some (answer, net')) (key : Side × Dir) :
    net'.opened key = if action = .opens ∧ key = (task.1, task.stream.dir) then 1 else net.opened key := by
  have hmem : action ∈ todo task := by
    rw [htodo]
    exact List.mem_cons_self
  cases action with
  | opens =>
    have hindex := (h.unopened task hmem).trans task.stream_index.symm
    rw [Network.serve_opens (h.initiator_of_opens hmem) hindex, task.stream_index] at hserve
    cases hserve
    simp only [Network.opened_set_opened, Function.update_apply, true_and]
  | accepts =>
    have hindex := (h.unaccepted task hmem).trans task.stream_index.symm
    rw [Network.serve_accepts (h.initiator_of_accepts hmem) hindex] at hserve
    split at hserve
    · cases hserve
      rfl
    · cases hserve
  | writes data =>
    cases hserve
    rfl
  | reads bytes =>
    simp only [Action.call, Network.serve] at hserve
    split at hserve
    · cases hserve
      rfl
    · cases hserve

/-- And to the number of those accepted. -/
theorem accepted_serve (h : Agrees plan todo net) (htodo : todo task = action :: tail)
    {answer : (action.call task.stream).1.Answer}
    (hserve : net.serve task.1 (action.call task.stream).1 = some (answer, net')) (key : Side × Dir) :
    net'.accepted key = if action = .accepts ∧ key = (task.1, task.stream.dir) then 1 else net.accepted key := by
  have hmem : action ∈ todo task := by
    rw [htodo]
    exact List.mem_cons_self
  cases action with
  | opens =>
    have hindex := (h.unopened task hmem).trans task.stream_index.symm
    rw [Network.serve_opens (h.initiator_of_opens hmem) hindex] at hserve
    cases hserve
    rfl
  | accepts =>
    have hindex := (h.unaccepted task hmem).trans task.stream_index.symm
    rw [Network.serve_accepts (h.initiator_of_accepts hmem) hindex, task.stream_index] at hserve
    split at hserve
    · cases hserve
      simp only [Network.accepted_set_accepted, Function.update_apply, true_and]
    · cases hserve
  | writes data =>
    cases hserve
    rfl
  | reads bytes =>
    simp only [Action.call, Network.serve] at hserve
    split at hserve
    · cases hserve
      rfl
    · cases hserve

/-- It does no harm when a side gets to know of streams early. -/
theorem surface {surfaced : Side × Dir → Nat} (h : Agrees plan todo net)
    (hle : ∀ key, net.surfaced key ≤ surfaced key) :
    Agrees plan todo { net with surfaced } where
  suffix := h.suffix
  flow := h.flow
  taken := h.taken
  live := h.live
  unopened := h.unopened
  unaccepted := h.unaccepted
  surfaced task hunread hinitiator := Nat.lt_of_lt_of_le (h.surfaced task hunread hinitiator) (hle _)

end Agrees

/-- What is left of a function after one of its actions. -/
theorem mem_update_of_ne {action' : Action} (htodo : todo task = action :: tail) (hne : action ≠ action')
    {task' : Task} (h : action' ∉ Function.update todo task tail task') : action' ∉ todo task' := by
  by_cases heq : task' = task
  · rw [heq, htodo, List.mem_cons]
    rw [heq, Function.update_self] at h
    exact not_or_intro hne.symm h
  · rwa [Function.update_of_ne heq] at h

/-- A side that has something left after an action had something left before. -/
theorem exists_ne_nil_of_update (htodo : todo task = action :: tail) {side : Side}
    (h : ∃ branch, Function.update todo task tail (side, branch) ≠ []) : ∃ branch, todo (side, branch) ≠ [] := by
  obtain ⟨branch, hbranch⟩ := h
  refine ⟨branch, ?_⟩
  by_cases heq : (side, branch) = task
  · rw [heq, htodo]
    exact List.cons_ne_nil _ _
  · rwa [Function.update_of_ne heq] at hbranch

namespace Counts

/-- At the start no stream has been opened or accepted. -/
theorem start (plan : Plan) : Counts plan.script .new where
  opened task hinitiator hopens := by
    obtain ⟨tail, hscript, -, -⟩ := plan.script_eq_first task
    rw [hscript, Task.first, if_pos hinitiator] at hopens
    exact absurd List.mem_cons_self hopens
  accepted task hinitiator haccepts := by
    obtain ⟨tail, hscript, -, -⟩ := plan.script_eq_first task
    rw [hscript, Task.first, if_neg (hinitiator ▸ task.1.peer_ne)] at haccepts
    exact absurd List.mem_cons_self haccepts
  opened_le _ _ _ := Nat.zero_le _
  accepted_le _ _ := Nat.zero_le _

/-- A side that has not come back opens no stream but those of the handshake. -/
theorem opened_le_of_serve (hcounts : Counts todo net) (h : Agrees plan todo net) (htodo : todo task = action :: tail)
    {answer : (action.call task.stream).1.Answer}
    (hserve : net.serve task.1 (action.call task.stream).1 = some (answer, net')) (dir : Dir) :
    net'.opened (task.1, dir) ≤ Handshake.first task.1 dir := by
  rw [h.opened_serve htodo hserve]
  split_ifs with hopens
  · obtain ⟨rfl, hkey⟩ := hopens
    obtain ⟨-, rfl⟩ := Prod.mk.inj hkey
    have hinitiator := h.initiator_of_opens (by rw [htodo]; exact List.mem_cons_self)
    have hone := task.first_eq_one
    rw [hinitiator] at hone
    rw [hone]
  · refine hcounts.opened_le task.1 dir ⟨task.2, ?_⟩
    rw [htodo]
    exact List.cons_ne_nil _ _

/-- An action of the plan counts its stream. -/
theorem serve (hcounts : Counts todo net) (h : Agrees plan todo net) (htodo : todo task = action :: tail)
    {answer : (action.call task.stream).1.Answer}
    (hserve : net.serve task.1 (action.call task.stream).1 = some (answer, net')) :
    Counts (Function.update todo task tail) net' where
  opened task' hinitiator hopens := by
    rw [h.opened_serve htodo hserve]
    split_ifs with hkey
    · exact Nat.one_pos
    · by_cases hne : action = .opens
      · have heq : task' ≠ task := by
          rintro rfl
          exact hkey ⟨hne, rfl⟩
        rw [Function.update_of_ne heq] at hopens
        exact hcounts.opened task' hinitiator hopens
      · exact hcounts.opened task' hinitiator (mem_update_of_ne htodo hne hopens)
  accepted task' hinitiator haccepts := by
    rw [h.accepted_serve htodo hserve]
    split_ifs with hkey
    · exact Nat.one_pos
    · by_cases hne : action = .accepts
      · have heq : task' ≠ task := by
          rintro rfl
          exact hkey ⟨hne, rfl⟩
        rw [Function.update_of_ne heq] at haccepts
        exact hcounts.accepted task' hinitiator haccepts
      · exact hcounts.accepted task' hinitiator (mem_update_of_ne htodo hne haccepts)
  opened_le side dir hleft := by
    by_cases hside : side = task.1
    · rw [hside]
      exact hcounts.opened_le_of_serve h htodo hserve dir
    · rw [h.opened_serve htodo hserve, if_neg fun hkey => hside (Prod.mk.inj hkey.2).1]
      exact hcounts.opened_le side dir (exists_ne_nil_of_update htodo hleft)
  accepted_le side dir := by
    rw [h.accepted_serve htodo hserve]
    split_ifs with hkey
    · obtain ⟨rfl, hkey⟩ := hkey
      obtain ⟨rfl, rfl⟩ := Prod.mk.inj hkey
      have hinitiator := h.initiator_of_accepts (by rw [htodo]; exact List.mem_cons_self)
      have hone := task.first_eq_one
      rw [hinitiator] at hone
      rw [hone]
    · exact hcounts.accepted_le side dir

/-- The stream a function works on has been opened, by the function or by the peer. -/
theorem lt_opened (hcounts : Counts todo net) (hsound : net.Sound) (hfirst : task.first ∉ todo task) :
    task.stream.index < net.opened (task.stream.initiator, task.stream.dir) := by
  rw [task.stream_index]
  by_cases hinitiator : task.stream.initiator = task.1
  · rw [Task.first, if_pos hinitiator] at hfirst
    rw [hinitiator]
    exact hcounts.opened task hinitiator hfirst
  · rw [Task.first, if_neg hinitiator] at hfirst
    have hpeer := Side.eq_peer_of_ne hinitiator
    rw [hpeer]
    exact Nat.lt_of_lt_of_le (hcounts.accepted task hpeer hfirst)
      (Nat.le_trans (hsound.accepted _ _) (hsound.surfaced _ _))

/-- An action of the plan keeps the network in order. -/
theorem sound_serve (hcounts : Counts todo net) (h : Agrees plan todo net) (hsound : net.Sound)
    (htodo : todo task = action :: tail) {answer : (action.call task.stream).1.Answer}
    (hserve : net.serve task.1 (action.call task.stream).1 = some (answer, net')) : net'.Sound := by
  apply hsound.serve_action ?_ hserve
  by_cases hfirst : task.first ∈ todo task
  · have hkind : task.first = .opens ∨ task.first = .accepts := by
      rw [Task.first]
      split
      · exact .inl rfl
      · exact .inr rfl
    obtain ⟨-, hscript⟩ := h.first_of_mem hkind hfirst
    obtain ⟨tail', hscript', -⟩ := plan.script_eq_first task
    rw [htodo, hscript'] at hscript
    obtain ⟨rfl, -⟩ := List.cons.inj hscript
    exact hkind.imp_right .inl
  · exact .inr (.inr (hcounts.lt_opened hsound hfirst))

private theorem not_mem (hdone : ∀ branch, todo (side, branch) = []) (task : Task) (hside : task.1 = side)
    (action : Action) : action ∉ todo task := by
  have htask := hdone task.2
  rw [← hside] at htask
  rw [show todo task = [] from htask]
  exact List.not_mem_nil

variable (hcounts : Counts todo net) (hdone : ∀ branch, todo (side, branch) = [])

include hcounts hdone

/-- A side that has come back has opened all its streams of the handshake, and accepted those of its
peer. -/
theorem first_le_opened (dir : Dir) : Handshake.first side dir ≤ net.opened (side, dir) := by
  by_cases hzero : Handshake.first side dir = 0
  · rw [hzero]
    exact Nat.zero_le _
  · obtain ⟨hone, task, hside, hinitiator, rfl⟩ := Task.exists_opens hzero
    have hopened := hcounts.opened task (hinitiator.trans hside.symm) (not_mem hdone task hside _)
    rw [hside] at hopened
    rw [hone]
    exact hopened

/-- A side that is done has accepted the streams of the handshake and no others. -/
theorem accepted_eq (dir : Dir) : net.accepted (side, dir) = Handshake.first side.peer dir := by
  apply Nat.le_antisymm (hcounts.accepted_le side dir)
  by_cases hzero : Handshake.first side.peer dir = 0
  · rw [hzero]
    exact Nat.zero_le _
  · obtain ⟨hone, task, hside, hinitiator, rfl⟩ := Task.exists_accepts hzero
    have haccepted := hcounts.accepted task (by rw [hinitiator, hside]) (not_mem hdone task hside _)
    rw [hside] at haccepted
    rw [hone]
    exact haccepted

end Counts

end wt_rs
