import WebTransport.Rust.TryJoin
import WebTransport.Transition.Run

open transition

namespace rust

open Outcome

namespace Async

variable {I : Interface} {ε ε' α β : Type}

/-- With the answers of the script `m` gets as far as `m'`. -/
inductive Ran : Script I → Async I ε α → Async I ε α → Prop where
  | here (m : Async I ε α) : Ran [] m m
  | wait {op : I.Op} {answer : I.Answer op} {resume : I.Answer op → Async I ε α} {script : Script I}
      {m' : Async I ε α} (hresume : Ran script (resume answer) m') :
      Ran (⟨op, answer⟩ :: script) (.wait op resume) m'

/-- All operations the function can come to satisfy `P`, whatever the answers are, and it panics only
if `Panics`. -/
inductive Always (P : I.Op → Prop) (Panics : Prop) : Async I ε α → Prop where
  | done {result : Outcome ε α} (hresult : result = .panic → Panics) : Always P Panics (.done result)
  | wait {op : I.Op} {resume : I.Answer op → Async I ε α} (hop : P op)
      (hresume : ∀ answer, Always P Panics (resume answer)) : Always P Panics (.wait op resume)

/-- The script is the beginning of another one, and only its last answer can be different. -/
inductive Begins : Script I → Script I → Prop where
  | nil (full : Script I) : Begins [] full
  | last {op : I.Op} {answer answer' : I.Answer op} (full : Script I) : Begins [⟨op, answer⟩] (⟨op, answer'⟩ :: full)
  | cons {entry : (op : I.Op) × I.Answer op} {script full : Script I} (h : Begins script full) :
      Begins (entry :: script) (entry :: full)

/-- The function goes on as long as it gets the answers of a run that comes back: it ends early with
the first answer that is another one. -/
def FailsFast (m : Async I ε α) : Prop :=
  ∀ (script : Script I) (m' : Async I ε α), Ran script m m' →
    ∃ full value, m.Follows full value ∧ Begins script full

variable {script : Script I} {m m' last : Async I ε α} {f : α → Async I ε β} {value : α}

theorem Follows.ran (h : m.Follows script value) : Ran script m (.done (ok value)) := by
  induction h with
  | done value => exact .here _
  | wait _ ih => exact .wait ih

/-- Getting as far as a value is coming back with it. -/
theorem Ran.follows (h : Ran script m (.done (ok value))) : m.Follows script value := by
  generalize hlast : Async.done (ok value) = last at h
  induction h with
  | here m =>
    subst hlast
    exact .done value
  | wait _ ih => exact .wait (ih hlast)

theorem Ran.of_done {result : Outcome ε α} (h : Ran script (.done result) m) : script = [] ∧ m = .done result := by
  cases h with
  | here => exact ⟨rfl, rfl⟩

/-- One more answer. -/
theorem Ran.snoc {op : I.Op} {resume : I.Answer op → Async I ε α} (h : Ran script m (.wait op resume))
    (answer : I.Answer op) : Ran (script ++ [⟨op, answer⟩]) m (resume answer) := by
  generalize hlast : Async.wait op resume = last at h
  induction h with
  | here m =>
    subst hlast
    exact .wait (.here _)
  | wait _ ih => exact .wait (ih hlast)

/-- A sequence is in its first function, or behind it. -/
theorem Ran.of_bind {last : Async I ε β} (h : Ran script (m >>= f) last) :
    (∃ mid, Ran script m mid ∧ last = (mid >>= f)) ∨
      ∃ before after value, script = before ++ after ∧ m.Follows before value ∧ Ran after (f value) last := by
  induction m generalizing script with
  | done result =>
    cases result with
    | ok value => exact .inr ⟨[], script, value, rfl, .done value, h⟩
    | err | panic | diverge =>
      obtain ⟨rfl, rfl⟩ := h.of_done
      exact .inl ⟨_, .here _, rfl⟩
  | wait op resume ih =>
    cases h with
    | here => exact .inl ⟨_, .here _, rfl⟩
    | wait hresume =>
      obtain ⟨mid, hmid, hlast⟩ | ⟨before, after, value, rfl, hbefore, hafter⟩ := ih _ hresume
      · exact .inl ⟨mid, .wait hmid, hlast⟩
      · exact .inr ⟨_ :: before, after, value, rfl, .wait hbefore, hafter⟩

/-- With its error changed, a function gets as far as it does without. -/
theorem Ran.of_mapErr {g : ε → ε'} {last : Async I ε' α} (h : Ran script (m.mapErr g) last) :
    ∃ mid, Ran script m mid ∧ last = mid.mapErr g := by
  induction m generalizing script with
  | done result =>
    obtain ⟨rfl, rfl⟩ := h.of_done
    exact ⟨_, .here _, rfl⟩
  | wait op resume ih =>
    cases h with
    | here => exact ⟨_, .here _, rfl⟩
    | wait hresume =>
      obtain ⟨mid, hmid, hlast⟩ := ih _ hresume
      exact ⟨mid, .wait hmid, hlast⟩

/-- A sequence comes back through both of its functions, and its script is theirs in a row. -/
theorem Follows.of_bind {value : β} (h : (m >>= f).Follows script value) :
    ∃ before after value', script = before ++ after ∧ m.Follows before value' ∧ (f value').Follows after value := by
  obtain ⟨mid, hmid, hlast⟩ | ⟨before, after, value', hscript, hbefore, hafter⟩ := h.ran.of_bind
  · cases mid with
    | wait => cases hlast
    | done result =>
      cases result with
      | ok value' =>
        refine ⟨script, [], value', (List.append_nil _).symm, hmid.follows, ?_⟩
        rw [done_ok_bind] at hlast
        rw [← hlast]
        exact .done value
      | err | panic | diverge => cases hlast
  · exact ⟨before, after, value', hscript, hbefore, hafter.follows⟩

/-- A function that comes back with its error changed comes back without. -/
theorem Follows.of_mapErr {g : ε → ε'} (h : (m.mapErr g).Follows script value) : m.Follows script value := by
  obtain ⟨mid, hmid, hlast⟩ := h.ran.of_mapErr
  cases mid with
  | wait => cases hlast
  | done result =>
    cases result with
    | ok value' =>
      cases hlast
      exact hmid.follows
    | err | panic | diverge => cases hlast

/-- A panic of a sequence comes out of one of its functions. -/
theorem Ran.panic_of_bind (h : Ran script (m >>= f) (.done .panic)) :
    Ran script m (.done .panic) ∨
      ∃ before after value, script = before ++ after ∧ m.Follows before value ∧ Ran after (f value) (.done .panic) := by
  obtain ⟨mid, hmid, hlast⟩ | hafter := h.of_bind
  · cases mid with
    | wait => cases hlast
    | done result =>
      cases result with
      | ok value =>
        rw [done_ok_bind] at hlast
        refine .inr ⟨script, [], value, (List.append_nil _).symm, hmid.follows, ?_⟩
        rw [← hlast]
        exact .here _
      | panic => exact .inl hmid
      | err | diverge => cases hlast
  · exact .inr hafter

/-- A panic does not come from changing the error. -/
theorem Ran.panic_of_mapErr {g : ε → ε'} (h : Ran script (m.mapErr g) (.done .panic)) :
    Ran script m (.done .panic) := by
  obtain ⟨mid, hmid, hlast⟩ := h.of_mapErr
  cases mid with
  | wait => cases hlast
  | done result =>
    cases result with
    | panic => exact hmid
    | ok | err | diverge => cases hlast

namespace Begins

variable {full : Script I}

theorem refl (script : Script I) : Begins script script := by
  induction script with
  | nil => exact .nil []
  | cons entry script ih => exact .cons ih

/-- What comes after the script does not matter to its beginnings. -/
theorem append (h : Begins script full) (more : Script I) : Begins script (full ++ more) := by
  induction h with
  | nil => exact .nil _
  | last full => exact .last (full ++ more)
  | cons _ ih => exact .cons ih

theorem append_left (h : Begins script full) (before : Script I) : Begins (before ++ script) (before ++ full) := by
  induction before with
  | nil => exact h
  | cons entry before ih => exact .cons ih

/-- The operations of the script are among those of the other one. -/
theorem exists_of_mem (h : Begins script full) {entry : (op : I.Op) × I.Answer op} (hentry : entry ∈ script) :
    ∃ entry' ∈ full, entry'.1 = entry.1 := by
  induction h with
  | nil => exact absurd hentry List.not_mem_nil
  | last full =>
    obtain rfl := List.mem_singleton.mp hentry
    exact ⟨_, List.mem_cons_self, rfl⟩
  | cons _ ih =>
    obtain rfl | htail := List.mem_cons.mp hentry
    · exact ⟨entry, List.mem_cons_self, rfl⟩
    · obtain ⟨entry', hmem, hop⟩ := ih htail
      exact ⟨entry', List.mem_cons_of_mem _ hmem, hop⟩

end Begins

namespace FailsFast

theorem done_ok (value : α) : FailsFast (.done (ok value) : Async I ε α) := by
  intro script m' hran
  obtain ⟨rfl, -⟩ := hran.of_done
  exact ⟨[], value, .done value, .nil []⟩

/-- Functions that fail fast do so one after the other. -/
theorem bind (hm : m.FailsFast) (hf : ∀ value, (f value).FailsFast) : (m >>= f).FailsFast := by
  intro script m' hran
  obtain ⟨mid, hmid, -⟩ | ⟨before, after, value, rfl, hbefore, hafter⟩ := hran.of_bind
  · obtain ⟨full, value, hfull, hbegins⟩ := hm _ _ hmid
    obtain ⟨full', value', hfull', -⟩ := hf value _ _ (.here _)
    exact ⟨full ++ full', value', hfull.bind hfull', hbegins.append full'⟩
  · obtain ⟨full, value', hfull, hbegins⟩ := hf value _ _ hafter
    exact ⟨before ++ full, value', hbefore.bind hfull, hbegins.append_left before⟩

/-- A function fails as fast when its error is changed. -/
theorem mapErr (hm : m.FailsFast) (g : ε → ε') : (m.mapErr g).FailsFast := by
  intro script m' hran
  obtain ⟨mid, hmid, -⟩ := hran.of_mapErr
  obtain ⟨full, value, hfull, hbegins⟩ := hm _ _ hmid
  exact ⟨full, value, hfull.mapErr g, hbegins⟩

end FailsFast

namespace Always

variable {P : I.Op → Prop} {Panics : Prop}

theorem done_ok (value : α) : Always P Panics (Async.done (ok value) : Async I ε α) := .done fun h => by cases h

theorem done_err (error : ε) : Always P Panics (Async.done (err error) : Async I ε α) := .done fun h => by cases h

/-- What holds of all operations of a function holds of those it has come to, and of those to come. -/
theorem of_ran (h : Always P Panics m) (hran : Ran script m m') :
    (∀ entry ∈ script, P entry.1) ∧ Always P Panics m' := by
  induction hran with
  | here => exact ⟨fun entry hentry => absurd hentry List.not_mem_nil, h⟩
  | wait _ ih =>
    cases h with
    | wait hop hresume =>
      obtain ⟨hscript, hlast⟩ := ih (hresume _)
      exact ⟨List.forall_mem_cons.mpr ⟨hop, hscript⟩, hlast⟩

theorem of_panic (h : Always P Panics m) (hran : Ran script m (.done .panic)) : Panics := by
  cases (h.of_ran hran).2 with
  | done hresult => exact hresult rfl

theorem not_panic (h : Always P False m) : ¬ Ran script m (.done .panic) := fun hran => h.of_panic hran

/-- Two functions in a row do only what each of them does. -/
theorem bind (h : Always P Panics m) (hf : ∀ value, Always P Panics (f value)) : Always P Panics (m >>= f) := by
  induction h with
  | @done result hresult =>
    cases result with
    | ok value => exact hf value
    | err error => exact .done_err error
    | diverge => exact .done fun h => by cases h
    | panic => exact .done fun _ => hresult rfl
  | wait hop _ ih => exact .wait hop ih

theorem mapErr (h : Always P Panics m) (g : ε → ε') : Always P Panics (m.mapErr g) := by
  induction h with
  | done hresult => exact .done fun hpanic => hresult (mapErr_eq_panic_iff.mp hpanic)
  | wait hop _ ih => exact .wait hop ih

end Always

end Async

namespace TryJoin

variable {I : Interface} {ε α β γ δ : Type}

/-- An `async` function with the answers that its parts have got. -/
structure Trace (I : Interface) (ε β γ α : Type) where
  fut : TryJoin I ε β γ α
  scripts : Branch → Script I

/-- One of the parts gets an answer. Whatever operation it waits for, `answers` has an answer
for it. -/
def Trace.step (self : Trace I ε β γ α) (event : Branch × ((op : I.Op) → I.Answer op)) :
    Option (Trace I ε β γ α) :=
  match self.fut.step (fun op script => some (event.2 op, script ++ [⟨op, event.2 op⟩])) event.1
      (self.scripts event.1) with
  | some (fut, script) => some { fut, scripts := Function.update self.scripts event.1 script }
  | none => none

def Trace.start (fut : TryJoin I ε β γ α) : Trace I ε β γ α := { fut, scripts := fun _ => [] }

/-- How far two functions and what comes after them have got: the functions run first, and when both
have come back, the rest. -/
inductive Came (left : Async I ε β) (right : Async I ε γ) (rest : β × γ → Async I ε α) :
    Trace I ε β γ α → Prop where
  | joining {l : Async I ε β} {r : Async I ε γ} {scripts : Branch → Script I}
      (hleft : Async.Ran (scripts .left) left l) (hright : Async.Ran (scripts .right) right r)
      (hrest : scripts .rest = []) : Came left right rest ⟨settle l r rest, scripts⟩
  | joined {value : β} {value' : γ} {m : Async I ε α} {scripts : Branch → Script I}
      (hleft : left.Follows (scripts .left) value) (hright : right.Follows (scripts .right) value')
      (hrest : Async.Ran (scripts .rest) (rest (value, value')) m) : Came left right rest ⟨.joined m, scripts⟩

variable {left l : Async I ε β} {right r : Async I ε γ} {rest : β × γ → Async I ε α} {trace next : Trace I ε β γ α}

/-- `try_join!` goes on when both functions have come back, and fails with the first that does. -/
theorem settle_cases (l : Async I ε β) (r : Async I ε γ) (rest : β × γ → Async I ε α) :
    (∃ value value', l = .done (ok value) ∧ r = .done (ok value') ∧ settle l r rest = .joined (rest (value, value'))) ∨
      settle l r rest = .joining l r rest ∨
      ∃ result, settle l r rest = .joined (.done result) ∧ (∀ value, result ≠ ok value) ∧
        (result = .panic → l = .done .panic ∨ r = .done .panic) := by
  cases l with
  | done result =>
    cases result with
    | ok value =>
      cases r with
      | done result' =>
        cases result' with
        | ok value' => exact .inl ⟨value, value', rfl, rfl, rfl⟩
        | err error => exact .inr (.inr ⟨err error, rfl, nofun, nofun⟩)
        | panic => exact .inr (.inr ⟨.panic, rfl, nofun, fun _ => .inr rfl⟩)
        | diverge => exact .inr (.inr ⟨.diverge, rfl, nofun, nofun⟩)
      | wait => exact .inr (.inl rfl)
    | err error => exact .inr (.inr ⟨err error, rfl, nofun, nofun⟩)
    | panic => exact .inr (.inr ⟨.panic, rfl, nofun, fun _ => .inl rfl⟩)
    | diverge => exact .inr (.inr ⟨.diverge, rfl, nofun, nofun⟩)
  | wait =>
    cases r with
    | done result' =>
      cases result' with
      | ok value' => exact .inr (.inl rfl)
      | err error => exact .inr (.inr ⟨err error, rfl, nofun, nofun⟩)
      | panic => exact .inr (.inr ⟨.panic, rfl, nofun, fun _ => .inr rfl⟩)
      | diverge => exact .inr (.inr ⟨.diverge, rfl, nofun, nofun⟩)
    | wait => exact .inr (.inl rfl)

/-- What is sequenced after a joined pair runs after the rest of it. -/
theorem settle_bind (l : Async I ε β) (r : Async I ε γ) (rest : β × γ → Async I ε α) (f : α → Async I ε δ) :
    (settle l r rest).bind f = settle l r fun values => rest values >>= f := by
  cases l with
  | done result =>
    cases result with
    | ok value => cases r with
      | done result' => cases result' <;> rfl
      | wait => rfl
    | err | panic | diverge => rfl
  | wait => cases r with
    | done result' => cases result' <;> rfl
    | wait => rfl

/-- One operation of a function is answered. -/
private theorem step_record {m m' : Async I ε δ} {script script' : Script I} {answers : (op : I.Op) → I.Answer op}
    {start : Async I ε δ} (hran : Async.Ran script start m)
    (hstep : m.step (fun op script => some (answers op, script ++ [⟨op, answers op⟩])) script = some (m', script')) :
    Async.Ran script' start m' := by
  cases m with
  | done => cases hstep
  | wait op resume =>
    cases hstep
    exact hran.snoc (answers op)

/-- An answer takes the function on in one of its parts, and the parts stay in order: the rest does not
start before both functions have come back, and then these get no more answers. -/
theorem Came.step (hcame : Came left right rest trace) {event : Branch × ((op : I.Op) → I.Answer op)}
    (hstep : trace.step event = some next) : Came left right rest next := by
  obtain ⟨branch, answers⟩ := event
  rw [Trace.step] at hstep
  split at hstep
  · rename_i fut script hfut
    cases hstep
    cases hcame with
    | @joining l r scripts hleft hright hrest =>
      obtain ⟨value, value', rfl, rfl, hsettle⟩ | hsettle | ⟨result, hsettle, -⟩ := settle_cases l r rest
      · simp only [hsettle] at hfut
        cases branch with
        | left | right => cases hfut
        | rest =>
          rw [TryJoin.step] at hfut
          split at hfut
          · rename_i m script' hm
            cases hfut
            refine .joined hleft.follows hright.follows ?_
            rw [Function.update_self]
            refine step_record ?_ hm
            rw [hrest]
            exact .here _
          · cases hfut
      · simp only [hsettle] at hfut
        cases branch with
        | left =>
          rw [TryJoin.step] at hfut
          split at hfut
          · rename_i m script' hm
            cases hfut
            refine .joining ?_ hright hrest
            rw [Function.update_self]
            exact step_record hleft hm
          · cases hfut
        | right =>
          rw [TryJoin.step] at hfut
          split at hfut
          · rename_i m script' hm
            cases hfut
            refine .joining hleft ?_ hrest
            rw [Function.update_self]
            exact step_record hright hm
          · cases hfut
        | rest => cases hfut
      · simp only [hsettle] at hfut
        cases branch with
        | left | right | rest => cases hfut
    | joined hleft hright hrest =>
      cases branch with
      | left | right => cases hfut
      | rest =>
        rw [TryJoin.step] at hfut
        split at hfut
        · rename_i m script' hm
          cases hfut
          refine .joined hleft hright ?_
          rw [Function.update_self]
          exact step_record hrest hm
        · cases hfut
  · cases hstep

/-- In every run, however the two functions take turns. -/
theorem came_of_reachable (hrun : Reachable Trace.step (.start (settle left right rest)) trace) :
    Came left right rest trace :=
  hrun.invariant (Came left right rest) (.joining (.here left) (.here right) rfl) fun hcame _ hstep => hcame.step hstep

/-- What has come back has followed the answers it got. -/
theorem Came.of_ok {value : α} (hcame : Came left right rest trace) (hresult : trace.fut = .joined (.done (ok value))) :
    ∃ value' value'', left.Follows (trace.scripts .left) value' ∧ right.Follows (trace.scripts .right) value'' ∧
      (rest (value', value'')).Follows (trace.scripts .rest) value := by
  cases hcame with
  | @joining l r scripts hleft hright hrest =>
    simp only at hresult
    obtain ⟨value', value'', rfl, rfl, hsettle⟩ | hsettle | ⟨result, hsettle, hnot, -⟩ := settle_cases l r rest
    · rw [hsettle] at hresult
      refine ⟨value', value'', hleft.follows, hright.follows, ?_⟩
      simp only [hrest, joined.inj hresult]
      exact .done value
    · rw [hsettle] at hresult
      cases hresult
    · rw [hsettle] at hresult
      cases hresult
      exact absurd rfl (hnot value)
  | joined hleft hright hrest =>
    cases hresult
    exact ⟨_, _, hleft, hright, hrest.follows⟩

/-- The answers of the left function are answers it has asked for, one after the other. -/
theorem Came.ran_left (hcame : Came left right rest trace) : ∃ l, Async.Ran (trace.scripts .left) left l := by
  cases hcame with
  | joining hleft hright hrest => exact ⟨_, hleft⟩
  | joined hleft hright hrest => exact ⟨_, hleft.ran⟩

theorem Came.ran_right (hcame : Came left right rest trace) : ∃ r, Async.Ran (trace.scripts .right) right r := by
  cases hcame with
  | joining hleft hright hrest => exact ⟨_, hright⟩
  | joined hleft hright hrest => exact ⟨_, hright.ran⟩

/-- The rest has done something only after both functions have come back. -/
theorem Came.of_rest (hcame : Came left right rest trace) (hrest : trace.scripts .rest ≠ []) :
    ∃ value value' m, left.Follows (trace.scripts .left) value ∧ right.Follows (trace.scripts .right) value' ∧
      Async.Ran (trace.scripts .rest) (rest (value, value')) m := by
  cases hcame with
  | joining hleft hright hempty => exact absurd hempty hrest
  | joined hleft hright hran => exact ⟨_, _, _, hleft, hright, hran⟩

/-- A panic comes out of one of the parts. -/
theorem Came.of_panic (hcame : Came left right rest trace) (hresult : trace.fut = .joined (.done .panic)) :
    Async.Ran (trace.scripts .left) left (.done .panic) ∨ Async.Ran (trace.scripts .right) right (.done .panic) ∨
      ∃ value value', left.Follows (trace.scripts .left) value ∧ right.Follows (trace.scripts .right) value' ∧
        Async.Ran (trace.scripts .rest) (rest (value, value')) (.done .panic) := by
  cases hcame with
  | @joining l r scripts hleft hright hrest =>
    simp only at hresult
    obtain ⟨value', value'', rfl, rfl, hsettle⟩ | hsettle | ⟨result, hsettle, -, hpanic⟩ := settle_cases l r rest
    · rw [hsettle] at hresult
      refine .inr (.inr ⟨value', value'', hleft.follows, hright.follows, ?_⟩)
      simp only [hrest, joined.inj hresult]
      exact .here _
    · rw [hsettle] at hresult
      cases hresult
    · rw [hsettle] at hresult
      cases hresult
      obtain rfl | rfl := hpanic rfl
      · exact .inl hleft
      · exact .inr (.inl hright)
  | joined hleft hright hrest =>
    cases hresult
    exact .inr (.inr ⟨_, _, hleft, hright, hrest⟩)

/-- Whatever answers come, there are others that can come next. -/
private theorem Trace.advance (arbitrary : (op : I.Op) → I.Answer op) {todo : Branch → Script I} {value : α}
    (h : trace.fut.Follows todo value) {branch : Branch} {op : I.Op} {answer : I.Answer op} {tail : Script I}
    (htodo : todo branch = ⟨op, answer⟩ :: tail) (hbranch : branch = .rest → todo .left = [] ∧ todo .right = []) :
    ∃ event next, trace.step event = some next ∧ next.fut.Follows (Function.update todo branch tail) value ∧
      next.scripts = Function.update trace.scripts branch (trace.scripts branch ++ [⟨op, answer⟩]) := by
  classical
  let answers := Function.update arbitrary op answer
  let serve := fun (op : I.Op) (script : Script I) => some (answers op, script ++ [⟨op, answers op⟩])
  have hanswer : answers op = answer := Function.update_self op answer arbitrary
  have hserve : serve op (trace.scripts branch) = some (answer, trace.scripts branch ++ [⟨op, answer⟩]) := by
    simp only [serve, hanswer]
  obtain ⟨fut, hstep⟩ := h.step htodo hbranch hserve
  obtain ⟨op', answer', tail', answer'', htodo', hserve', hnext⟩ := h.of_step hstep
  rw [htodo] at htodo'
  cases htodo'
  rw [hserve] at hserve'
  cases hserve'
  refine ⟨(branch, answers),
    ⟨fut, Function.update trace.scripts branch (trace.scripts branch ++ [⟨op, answer⟩])⟩, ?_, hnext rfl, rfl⟩
  simp only [Trace.step, serve] at hstep ⊢
  rw [hstep]

/-- What a function follows can happen to it. -/
theorem reachable_of_follows (arbitrary : (op : I.Op) → I.Answer op) {fut : TryJoin I ε β γ α}
    {scripts : Branch → Script I} {value : α} (h : fut.Follows scripts value) :
    Reachable Trace.step (.start fut) ⟨.joined (.done (ok value)), scripts⟩ := by
  suffices hsuffices : ∀ (n : Nat) (trace : Trace I ε β γ α) (todo : Branch → Script I),
      (todo .left).length + (todo .right).length + (todo .rest).length = n → trace.fut.Follows todo value →
      Reachable Trace.step (.start fut) trace → (∀ branch, trace.scripts branch ++ todo branch = scripts branch) →
      Reachable Trace.step (.start fut) ⟨.joined (.done (ok value)), scripts⟩ from
    hsuffices _ (.start fut) scripts rfl h .start fun _ => rfl
  intro n
  induction n with
  | zero =>
    intro trace todo hlength hfollows hrun hscripts
    have hnil : ∀ branch, todo branch = [] := by
      intro branch
      apply List.length_eq_zero_iff.mp
      cases branch with
      | left | right | rest => omega
    have htrace : trace = ⟨.joined (.done (ok value)), scripts⟩ := by
      obtain ⟨fut', scripts'⟩ := trace
      obtain rfl := hfollows.finished hnil
      obtain rfl : scripts' = scripts := by
        funext branch
        rw [← hscripts branch, hnil branch, List.append_nil]
      rfl
    rw [← htrace]
    exact hrun
  | succ n ih =>
    intro trace todo hlength hfollows hrun hscripts
    obtain ⟨branch, entry, tail, htodo, hbranch⟩ : ∃ branch entry tail, todo branch = entry :: tail ∧
        (branch = .rest → todo .left = [] ∧ todo .right = []) := by
      cases hleft : todo .left with
      | cons entry tail => exact ⟨.left, entry, tail, hleft, nofun⟩
      | nil =>
        cases hright : todo .right with
        | cons entry tail => exact ⟨.right, entry, tail, hright, nofun⟩
        | nil =>
          cases hrest : todo .rest with
          | cons entry tail => exact ⟨.rest, entry, tail, hrest, fun _ => ⟨rfl, rfl⟩⟩
          | nil =>
            rw [hleft, hright, hrest] at hlength
            cases hlength
    obtain ⟨event, next, hstep, hnext, hdone⟩ := Trace.advance arbitrary hfollows htodo hbranch
    refine ih next _ ?_ hnext (.step hrun trivial hstep) fun branch' => ?_
    · have hcons := congrArg List.length htodo
      rw [List.length_cons] at hcons
      cases branch with
      | left | right | rest =>
        simp only [Function.update_self, ne_eq, reduceCtorEq, not_false_eq_true, Function.update_of_ne]
        omega
    · rw [hdone, ← hscripts branch']
      by_cases heq : branch' = branch
      · rw [heq, Function.update_self, Function.update_self, htodo, List.append_assoc, List.singleton_append]
      · rw [Function.update_of_ne heq, Function.update_of_ne heq]

end TryJoin

end rust
