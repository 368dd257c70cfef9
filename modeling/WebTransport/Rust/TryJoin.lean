import WebTransport.Rust.Async

namespace rust

open Outcome

/-- Operations in the order in which an `async` function waits for them, with their answers. -/
abbrev Script (I : Interface) := List ((op : I.Op) × I.Answer op)

namespace Async

variable {I : Interface} {ε ε' α β γ δ σ : Type}

/-- With these answers the function comes back with the value. -/
inductive Follows : Script I → α → Async I ε α → Prop where
  | done (value : α) : Follows [] value (done (ok value))
  | wait {op : I.Op} {answer : I.Answer op} {resume : I.Answer op → Async I ε α} {script : Script I}
      {value : α} (hresume : Follows script value (resume answer)) :
      Follows (⟨op, answer⟩ :: script) value (wait op resume)

namespace Follows

variable {script script' : Script I} {m : Async I ε α} {value : α}

/-- The scripts of two functions in a row are put in a row. -/
theorem bind {f : α → Async I ε β} {value' : β} (h : m.Follows script value)
    (hf : (f value).Follows script' value') : (m >>= f).Follows (script ++ script') value' := by
  induction h with
  | done value => exact hf
  | wait _ ih => exact .wait (ih hf)

theorem mapErr (h : m.Follows script value) (f : ε → ε') : (m.mapErr f).Follows script value := by
  induction h with
  | done value => exact .done value
  | wait _ ih => exact .wait ih

theorem eq_done (h : m.Follows [] value) : m = Async.done (ok value) := by
  cases h with
  | done => rfl

theorem eq_wait {op : I.Op} {answer : I.Answer op} (h : m.Follows (⟨op, answer⟩ :: script) value) :
    ∃ resume, m = Async.wait op resume ∧ (resume answer).Follows script value := by
  cases h with
  | wait hresume => exact ⟨_, rfl, hresume⟩

/-- A function that has come back has gone through its operations, and it did not fail. -/
theorem of_done {result : Outcome ε α} (h : (Async.done result).Follows script value) :
    script = [] ∧ result = ok value := by
  cases h with
  | done => exact ⟨rfl, rfl⟩

end Follows

/-- One operation is served. -/
def step (serve : (op : I.Op) → σ → Option (I.Answer op × σ)) : Async I ε α → σ → Option (Async I ε α × σ)
  | done _, _ => none
  | wait op resume, s =>
    match serve op s with
    | some (answer, s) => some (resume answer, s)
    | none => none

variable {serve : (op : I.Op) → σ → Option (I.Answer op × σ)} {script : Script I} {m m' : Async I ε α}
  {value : α} {s s' : σ}

/-- The operation served is the next one of the script. -/
theorem Follows.of_step (h : m.Follows script value) (hstep : m.step serve s = some (m', s')) :
    ∃ op answer tail answer', script = ⟨op, answer⟩ :: tail ∧ serve op s = some (answer', s') ∧
      (answer' = answer → m'.Follows tail value) := by
  cases h with
  | done => cases hstep
  | @wait op answer resume tail _ hresume =>
    rw [Async.step] at hstep
    split at hstep
    · rename_i answer' s'' hserve
      cases hstep
      refine ⟨op, answer, tail, answer', rfl, hserve, fun hanswer => ?_⟩
      rw [hanswer]
      exact hresume
    · cases hstep

theorem Follows.step {op : I.Op} {answer answer' : I.Answer op} (h : m.Follows (⟨op, answer⟩ :: script) value)
    (hserve : serve op s = some (answer', s')) : ∃ m', m.step serve s = some (m', s') := by
  obtain ⟨resume, rfl, -⟩ := h.eq_wait
  exact ⟨resume answer', by rw [Async.step, hserve]⟩

end Async

/-- An `async` function that starts with `try_join!`: it goes on when both functions have come
back, or one of them has failed. -/
inductive TryJoin (I : Interface) (ε β γ α : Type) where
  | joining (left : Async I ε β) (right : Async I ε γ) (rest : β × γ → Async I ε α)
  | joined (rest : Async I ε α)

/-- The functions a `TryJoin` consists of. -/
inductive Branch where
  | left
  | right
  | rest
  deriving DecidableEq, Repr

/-- One thing for each function. -/
def Branch.of {α : Type} (left right rest : α) : Branch → α
  | .left => left
  | .right => right
  | .rest => rest

namespace TryJoin

variable {I : Interface} {ε α β γ δ σ : Type}

/-- What `try_join!` looks at after each step. -/
def settle (left : Async I ε β) (right : Async I ε γ) (rest : β × γ → Async I ε α) : TryJoin I ε β γ α :=
  match left, right with
  | .done (ok value), .done (ok value') => joined (rest (value, value'))
  | .done (err error), _ => joined (.done (err error))
  | .done .panic, _ => joined (.done .panic)
  | .done .diverge, _ => joined (.done .diverge)
  | _, .done (err error) => joined (.done (err error))
  | _, .done .panic => joined (.done .panic)
  | _, .done .diverge => joined (.done .diverge)
  | left, right => joining left right rest

/-- `try_join!(left, right)?`. -/
def try_join (left : Async I ε β) (right : Async I ε γ) : TryJoin I ε β γ (β × γ) :=
  settle left right pure

/-- Sequencing with `.await?`. -/
protected def bind (self : TryJoin I ε β γ α) (f : α → Async I ε δ) : TryJoin I ε β γ δ :=
  match self with
  | joining left right rest => joining left right fun values => rest values >>= f
  | joined rest => joined (rest >>= f)

/-- One operation of one of the functions is served. -/
def step (serve : (op : I.Op) → σ → Option (I.Answer op × σ)) (branch : Branch) :
    TryJoin I ε β γ α → σ → Option (TryJoin I ε β γ α × σ)
  | joining left right rest, s =>
    match branch with
    | .left =>
      match left.step serve s with
      | some (left, s) => some (settle left right rest, s)
      | none => none
    | .right =>
      match right.step serve s with
      | some (right, s) => some (settle left right rest, s)
      | none => none
    | .rest => none
  | joined rest, s =>
    match branch with
    | .rest =>
      match rest.step serve s with
      | some (rest, s) => some (joined rest, s)
      | none => none
    | _ => none

/-- With the answers of the scripts the function comes back with the value. -/
inductive Follows (scripts : Branch → Script I) (value : α) : TryJoin I ε β γ α → Prop where
  | joining {left : Async I ε β} {right : Async I ε γ} {rest : β × γ → Async I ε α} {value' : β} {value'' : γ}
      (hpending : scripts .left ≠ [] ∨ scripts .right ≠ []) (hleft : left.Follows (scripts .left) value')
      (hright : right.Follows (scripts .right) value'')
      (hrest : (rest (value', value'')).Follows (scripts .rest) value) : Follows scripts value (joining left right rest)
  | joined {rest : Async I ε α} (hleft : scripts .left = []) (hright : scripts .right = [])
      (hrest : rest.Follows (scripts .rest) value) : Follows scripts value (joined rest)

variable {scripts : Branch → Script I} {value : α} {self next : TryJoin I ε β γ α}
  {serve : (op : I.Op) → σ → Option (I.Answer op × σ)} {s s' : σ} {branch : Branch}

/-- Two functions with their scripts, and a rest that takes on their values, make one function with
three scripts, also when one of the functions or both have come back. -/
theorem follows_settle {left : Async I ε β} {right : Async I ε γ} {rest : β × γ → Async I ε α} {value' : β}
    {value'' : γ} (hleft : left.Follows (scripts .left) value') (hright : right.Follows (scripts .right) value'')
    (hrest : (rest (value', value'')).Follows (scripts .rest) value) :
    (settle left right rest).Follows scripts value := by
  generalize hl : scripts .left = l at hleft
  generalize hr : scripts .right = r at hright
  cases hleft with
  | done =>
    cases hright with
    | done => exact .joined hl hr hrest
    | wait hright =>
      exact .joining (.inr (by rw [hr]; exact List.cons_ne_nil _ _)) (by rw [hl]; exact .done _)
        (by rw [hr]; exact .wait hright) hrest
  | wait hleft =>
    have hpending : scripts .left ≠ [] ∨ scripts .right ≠ [] := .inl (by rw [hl]; exact List.cons_ne_nil _ _)
    cases hright with
    | done => exact .joining hpending (by rw [hl]; exact .wait hleft) (by rw [hr]; exact .done _) hrest
    | wait hright => exact .joining hpending (by rw [hl]; exact .wait hleft) (by rw [hr]; exact .wait hright) hrest

theorem follows_try_join {left : Async I ε β} {right : Async I ε γ} {value' : β} {value'' : γ}
    {script script' : Script I} (hleft : left.Follows script value') (hright : right.Follows script' value'') :
    (try_join left right).Follows (Branch.of script script' []) (value', value'') :=
  follows_settle hleft hright (.done _)

/-- What is sequenced after the function lengthens the script of its rest. -/
theorem Follows.bind {left right rest script : Script I} {f : α → Async I ε δ} {value' : δ}
    (h : self.Follows (Branch.of left right rest) value) (hf : (f value).Follows script value') :
    (self.bind f).Follows (Branch.of left right (rest ++ script)) value' := by
  cases h with
  | joining hpending hleft hright hrest => exact .joining hpending hleft hright (hrest.bind hf)
  | joined hleft hright hrest => exact .joined hleft hright (hrest.bind hf)

/-- The operation served is the next one in the script of its branch, and if the answer is the one of
the script, the function goes on along what is left of it. -/
theorem Follows.of_step (h : self.Follows scripts value)
    (hstep : self.step serve branch s = some (next, s')) :
    ∃ op answer tail answer', scripts branch = ⟨op, answer⟩ :: tail ∧ serve op s = some (answer', s') ∧
      (answer' = answer → next.Follows (Function.update scripts branch tail) value) := by
  cases h with
  | @joining left right rest _ _ hpending hleft hright hrest =>
    cases branch with
    | left =>
      rw [TryJoin.step] at hstep
      split at hstep
      · rename_i left' s'' hleft_step
        cases hstep
        obtain ⟨op, answer, tail, answer', hscript, hserve, hnext⟩ := hleft.of_step hleft_step
        refine ⟨op, answer, tail, answer', hscript, hserve, fun hanswer => ?_⟩
        exact follows_settle (by rw [Function.update_self]; exact hnext hanswer) hright hrest
      · cases hstep
    | right =>
      rw [TryJoin.step] at hstep
      split at hstep
      · rename_i right' s'' hright_step
        cases hstep
        obtain ⟨op, answer, tail, answer', hscript, hserve, hnext⟩ := hright.of_step hright_step
        refine ⟨op, answer, tail, answer', hscript, hserve, fun hanswer => ?_⟩
        exact follows_settle hleft (by rw [Function.update_self]; exact hnext hanswer) hrest
      · cases hstep
    | rest => cases hstep
  | joined hleft hright hrest =>
    cases branch with
    | left => cases hstep
    | right => cases hstep
    | rest =>
      rw [TryJoin.step] at hstep
      split at hstep
      · rename_i rest' s'' hrest_step
        cases hstep
        obtain ⟨op, answer, tail, answer', hscript, hserve, hnext⟩ := hrest.of_step hrest_step
        refine ⟨op, answer, tail, answer', hscript, hserve, fun hanswer => ?_⟩
        exact .joined hleft hright (by rw [Function.update_self]; exact hnext hanswer)
      · cases hstep

/-- The next operation of a script can be served, after `try_join!` those of the rest. -/
theorem Follows.step {op : I.Op} {answer answer' : I.Answer op} {script : Script I}
    (h : self.Follows scripts value) (hscript : scripts branch = ⟨op, answer⟩ :: script)
    (hbranch : branch = .rest → scripts .left = [] ∧ scripts .right = [])
    (hserve : serve op s = some (answer', s')) : ∃ next, self.step serve branch s = some (next, s') := by
  cases h with
  | joining hpending hleft hright hrest =>
    cases branch with
    | left =>
      rw [hscript] at hleft
      obtain ⟨left', hstep⟩ := hleft.step hserve
      exact ⟨_, by rw [TryJoin.step, hstep]⟩
    | right =>
      rw [hscript] at hright
      obtain ⟨right', hstep⟩ := hright.step hserve
      exact ⟨_, by rw [TryJoin.step, hstep]⟩
    | rest =>
      obtain ⟨hl, hr⟩ := hbranch rfl
      exact absurd hpending (not_or.mpr ⟨not_not_intro hl, not_not_intro hr⟩)
  | joined hleft hright hrest =>
    cases branch with
    | left =>
      rw [hleft] at hscript
      cases hscript
    | right =>
      rw [hright] at hscript
      cases hscript
    | rest =>
      rw [hscript] at hrest
      obtain ⟨rest', hstep⟩ := hrest.step hserve
      exact ⟨_, by rw [TryJoin.step, hstep]⟩

/-- When all scripts are used up, the function has come back with the value. -/
theorem Follows.finished (h : self.Follows scripts value) (hscripts : ∀ branch, scripts branch = []) :
    self = TryJoin.joined (.done (ok value)) := by
  cases h with
  | joining hpending =>
    exact absurd hpending (not_or.mpr ⟨not_not_intro (hscripts .left), not_not_intro (hscripts .right)⟩)
  | joined hleft hright hrest =>
    rw [hscripts .rest] at hrest
    rw [hrest.eq_done]

/-- A function that has come back has used up its scripts, and its result is the value of them. -/
theorem Follows.of_done {result : Outcome ε α}
    (h : (TryJoin.joined (.done result) : TryJoin I ε β γ α).Follows scripts value) :
    (∀ branch, scripts branch = []) ∧ result = ok value := by
  cases h with
  | joined hleft hright hrest =>
    obtain ⟨hscript, hresult⟩ := hrest.of_done
    refine ⟨fun branch => ?_, hresult⟩
    cases branch with
    | left => exact hleft
    | right => exact hright
    | rest => exact hscript

end TryJoin

end rust
