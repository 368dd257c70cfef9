import WebTransport.Rust.Outcome

namespace rust

open Outcome

/-- `std::task::Poll`. -/
inductive Poll (α : Type) where
  | Ready (value : α)
  | Pending
  deriving DecidableEq, Repr

/-- The operations an `async` function can wait for, with the type of what each one gives
back. -/
structure Interface where
  Op : Type
  Answer : Op → Type

/-- The state of an `async` function: it has finished, or it waits for an operation and goes
on with its answer. -/
inductive Async (I : Interface) (ε α : Type) where
  | done (result : Outcome ε α)
  | wait (op : I.Op) (resume : I.Answer op → Async I ε α)

namespace Async

variable {I : Interface} {ε ε' α β γ σ : Type}

/-- Sequencing with `.await?`. -/
protected def bind (m : Async I ε α) (f : α → Async I ε β) : Async I ε β :=
  match m with
  | done (ok value) => f value
  | done (err error) => done (err error)
  | done .panic => done .panic
  | done .diverge => done .diverge
  | wait op resume => wait op fun answer => (resume answer).bind f

instance : Monad (Async I ε) where
  pure value := done (ok value)
  bind := Async.bind

/-- A call of a function that is not `async`, with `?`. -/
def lift (x : Outcome ε α) : Async I ε α := done x

/-- The `From` conversion that `?` applies to an error. -/
def mapErr (f : ε → ε') : Async I ε α → Async I ε' α
  | done result => done (result.mapErr f)
  | wait op resume => wait op fun answer => (resume answer).mapErr f

@[simp] theorem pure_eq (a : α) : (pure a : Async I ε α) = done (ok a) := rfl

@[simp] theorem done_ok_bind (a : α) (f : α → Async I ε β) : (done (ok a) >>= f) = f a := rfl

@[simp] theorem done_err_bind (e : ε) (f : α → Async I ε β) :
    ((done (err e) : Async I ε α) >>= f) = done (err e) := rfl

@[simp] theorem wait_bind (op : I.Op) (resume : I.Answer op → Async I ε α) (f : α → Async I ε β) :
    (wait op resume >>= f) = wait op fun answer => resume answer >>= f := rfl

@[simp] theorem mapErr_done (f : ε → ε') (result : Outcome ε α) :
    mapErr f (done result : Async I ε α) = done (result.mapErr f) := rfl

@[simp] theorem mapErr_wait (f : ε → ε') (op : I.Op) (resume : I.Answer op → Async I ε α) :
    mapErr f (wait op resume) = wait op fun answer => mapErr f (resume answer) := rfl

/-- Sequencing is associative. -/
theorem bind_assoc (m : Async I ε α) (f : α → Async I ε β) (g : β → Async I ε γ) :
    (m >>= f >>= g) = (m >>= fun a => f a >>= g) := by
  induction m with
  | done result => cases result <;> rfl
  | wait op resume ih =>
    simp only [wait_bind, wait.injEq, heq_eq_eq, true_and]
    funext answer
    exact ih answer

/-- One poll: operations are served from the state `s` until the function has finished or one
of them is not ready. -/
def poll (serve : (op : I.Op) → σ → Option (I.Answer op × σ)) :
    Async I ε α → σ → Async I ε α × σ
  | done result, s => (done result, s)
  | wait op resume, s =>
    match serve op s with
    | none => (wait op resume, s)
    | some (answer, s) => poll serve (resume answer) s

variable {serve : (op : I.Op) → σ → Option (I.Answer op × σ)}

@[simp] theorem poll_done (result : Outcome ε α) (s : σ) :
    poll serve (done result : Async I ε α) s = (done result, s) := rfl

theorem poll_wait_none {op : I.Op} {resume : I.Answer op → Async I ε α} {s : σ}
    (h : serve op s = none) : poll serve (wait op resume) s = (wait op resume, s) := by
  rw [poll, h]

theorem poll_wait_some {op : I.Op} {resume : I.Answer op → Async I ε α} {s s' : σ}
    {answer : I.Answer op} (h : serve op s = some (answer, s')) :
    poll serve (wait op resume) s = poll serve (resume answer) s' := by
  rw [poll, h]

/-- A sequence is polled through its first part as far as that one gets. -/
theorem poll_bind (m : Async I ε α) (f : α → Async I ε β) (s : σ) :
    poll serve (m >>= f) s =
      match poll serve m s with
      | (done (ok value), s) => poll serve (f value) s
      | (m, s) => (m >>= f, s) := by
  induction m generalizing s with
  | done result => cases result <;> rfl
  | wait op resume ih =>
    rw [wait_bind]
    cases h : serve op s with
    | none =>
      rw [poll_wait_none h, poll_wait_none h]
      rfl
    | some out => rw [poll_wait_some h, poll_wait_some h, ih]

/-- To rename errors does not change what a poll does. -/
theorem poll_mapErr (f : ε → ε') (m : Async I ε α) (s : σ) :
    poll serve (mapErr f m) s = (mapErr f (poll serve m s).1, (poll serve m s).2) := by
  induction m generalizing s with
  | done result => rfl
  | wait op resume ih =>
    rw [mapErr_wait]
    cases h : serve op s with
    | none => rw [poll_wait_none h, poll_wait_none h, mapErr_wait]
    | some out =>
      rw [poll_wait_some h, poll_wait_some h]
      exact ih out.1 out.2

theorem poll_bind_of_ok {m : Async I ε α} {s s' : σ} {value : α}
    (h : poll serve m s = (done (ok value), s')) (f : α → Async I ε β) :
    poll serve (m >>= f) s = poll serve (f value) s' := by
  rw [poll_bind, h]

/-- A poll in which the first function fails does not come to the second one. -/
theorem poll_bind_of_err {m : Async I ε α} {s s' : σ} {error : ε}
    (h : poll serve m s = (done (err error), s')) (f : α → Async I ε β) :
    poll serve (m >>= f) s = (done (err error), s') := by
  rw [poll_bind, h]
  rfl

/-- The function waits for an operation. -/
def Pending (m : Async I ε α) : Prop := ∃ op resume, m = wait op resume

@[simp] theorem pending_wait (op : I.Op) (resume : I.Answer op → Async I ε α) :
    (wait op resume).Pending := ⟨op, resume, rfl⟩

@[simp] theorem not_pending_done (result : Outcome ε α) : ¬ (done result : Async I ε α).Pending := by
  rintro ⟨op, resume, h⟩
  cases h

theorem Pending.bind {m : Async I ε α} (hm : m.Pending) (f : α → Async I ε β) : (m >>= f).Pending := by
  obtain ⟨op, resume, rfl⟩ := hm
  exact pending_wait _ _

theorem Pending.mapErr {m : Async I ε α} (hm : m.Pending) (f : ε → ε') : (m.mapErr f).Pending := by
  obtain ⟨op, resume, rfl⟩ := hm
  exact pending_wait _ _

theorem pending_or_done (m : Async I ε α) : m.Pending ∨ ∃ result, m = done result := by
  cases m with
  | done result => exact .inr ⟨result, rfl⟩
  | wait op resume => exact .inl (pending_wait op resume)

theorem poll_bind_of_pending {m m' : Async I ε α} {s s' : σ} (h : poll serve m s = (m', s'))
    (hm : m'.Pending) (f : α → Async I ε β) : poll serve (m >>= f) s = (m' >>= f, s') := by
  obtain ⟨op, resume, rfl⟩ := hm
  rw [poll_bind, h]

theorem poll_mapErr_of {m m' : Async I ε α} {s s' : σ} (h : poll serve m s = (m', s'))
    (f : ε → ε') : poll serve (mapErr f m) s = (mapErr f m', s') := by
  rw [poll_mapErr, h]

end Async

end rust
