import Mathlib.Data.List.AList
import WebTransport.Rust.Async

namespace rust

/-- A future in the queue, and whether it stands in the list of those to be polled. -/
structure QueuedFuture (φ : Type) where
  future : φ
  ready : Bool

/-- `futures::stream::FuturesUnordered`, with the futures told apart by keys. It remembers the
waker of its most recent poll. -/
structure FuturesUnordered (κ φ ω : Type) where
  tasks : AList fun _ : κ => QueuedFuture φ
  waker : Option ω

namespace FuturesUnordered

variable {κ φ ω ρ σ : Type} [DecidableEq κ]

def new : FuturesUnordered κ φ ω := { tasks := ∅, waker := none }

/-- A new future is to be polled. -/
def push (self : FuturesUnordered κ φ ω) (key : κ) (future : φ) : FuturesUnordered κ φ ω :=
  { self with tasks := self.tasks.insert key ⟨future, true⟩ }

/-- The waker of the future `key` fires: the future is to be polled again, and the waker of
the queue fires, if this has not happened before. -/
def wake (self : FuturesUnordered κ φ ω) (key : κ) : FuturesUnordered κ φ ω × Option ω :=
  match self.tasks.lookup key with
  | some ⟨future, false⟩ =>
    ({ tasks := self.tasks.insert key ⟨future, true⟩, waker := none }, self.waker)
  | _ => (self, none)

/-- The futures to be polled are polled in the order of `keys`, until one has finished. `step`
polls a future: it gives back the future, or its result. -/
def poll_loop (step : κ → φ → σ → (φ ⊕ ρ) × σ) :
    (keys : List κ) → (AList fun _ : κ => QueuedFuture φ) → σ →
      Option (κ × ρ) × (AList fun _ : κ => QueuedFuture φ) × σ
  | [], tasks, s => (none, tasks, s)
  | key :: keys, tasks, s =>
    match tasks.lookup key with
    | some ⟨future, true⟩ =>
      match step key future s with
      | (.inl future, s) => poll_loop step keys (tasks.insert key ⟨future, false⟩) s
      | (.inr result, s) => (some (key, result), tasks.erase key, s)
    | _ => poll_loop step keys tasks s

/-- `poll_next`. Futures are woken in any order: `order` comes first. The library stops when it has
polled as many futures as there are, and wakes `cx` at once to go on. That wake is left out, and the
loop goes on here until nothing is left to be polled: nobody is woken who is not woken there. -/
def poll_next (step : κ → φ → σ → (φ ⊕ ρ) × σ) (cx : ω) (order : List κ)
    (self : FuturesUnordered κ φ ω) (s : σ) :
    Poll (Option (κ × ρ)) × FuturesUnordered κ φ ω × σ :=
  match poll_loop step (order ++ self.tasks.keys) self.tasks s with
  | (some out, tasks, s) => (.Ready (some out), { tasks, waker := some cx }, s)
  | (none, tasks, s) =>
    (if tasks.keys.isEmpty then .Ready none else .Pending, { tasks, waker := some cx }, s)

/-- A queue has the keys under which something is found. -/
theorem mem_iff_lookup {β : Type} {tasks : AList fun _ : κ => β} {key : κ} :
    key ∈ tasks ↔ ∃ task, tasks.lookup key = some task := by
  rw [← AList.lookup_isSome, Option.isSome_iff_exists]

variable {step : κ → φ → σ → (φ ⊕ ρ) × σ} {tasks tasks' : AList fun _ : κ => QueuedFuture φ} {s s' : σ}
  {keys : List κ} {key : κ} {result : ρ}

/-- What holds of the queue and survives the poll of one future that has not finished: it holds
when the loop comes to the end of `keys`. -/
theorem poll_loop_none (P : (AList fun _ : κ => QueuedFuture φ) → σ → Prop)
    (hadvance : ∀ tasks s key future future' s', P tasks s →
      tasks.lookup key = some ⟨future, true⟩ → step key future s = (.inl future', s') →
      P (tasks.insert key ⟨future', false⟩) s')
    (hP : P tasks s) (h : poll_loop step keys tasks s = (none, tasks', s')) : P tasks' s' := by
  induction keys generalizing tasks s with
  | nil =>
    cases h
    exact hP
  | cons key keys ih =>
    rw [poll_loop] at h
    split at h
    · rename_i future hlookup
      split at h
      · rename_i future' s₁ hstep
        exact ih (hadvance tasks s key future future' s₁ hP hlookup hstep) h
      · cases h
    · exact ih hP h

/-- The same, up to the poll that finishes. -/
theorem poll_loop_some (P : (AList fun _ : κ => QueuedFuture φ) → σ → Prop)
    (hadvance : ∀ tasks s key future future' s', P tasks s →
      tasks.lookup key = some ⟨future, true⟩ → step key future s = (.inl future', s') →
      P (tasks.insert key ⟨future', false⟩) s')
    (hP : P tasks s) (h : poll_loop step keys tasks s = (some (key, result), tasks', s')) :
    ∃ tasks₁ s₁ future, P tasks₁ s₁ ∧ tasks₁.lookup key = some ⟨future, true⟩ ∧
      step key future s₁ = (.inr result, s') ∧ tasks' = tasks₁.erase key := by
  induction keys generalizing tasks s with
  | nil => cases h
  | cons key' keys ih =>
    rw [poll_loop] at h
    split at h
    · rename_i future hlookup
      split at h
      · rename_i future' s₁ hstep
        exact ih (hadvance tasks s key' future future' s₁ hP hlookup hstep) h
      · rename_i result' s₁ hstep
        cases h
        exact ⟨tasks, s, future, hP, hlookup, hstep, rfl⟩
    · exact ih hP h

private theorem lookup_poll_loop_of_idle (h : poll_loop step keys tasks s = (none, tasks', s'))
    (hidle : ∀ task, tasks.lookup key = some task → task.ready = false) (task : QueuedFuture φ)
    (htask : tasks'.lookup key = some task) : task.ready = false := by
  refine poll_loop_none (fun tasks _ => ∀ task, tasks.lookup key = some task → task.ready = false)
    (fun tasks s key' future future' s' hidle hlookup _ task htask => ?_) hidle h task htask
  by_cases hkey : key = key'
  · subst hkey
    rw [AList.lookup_insert] at htask
    cases htask
    rfl
  · rw [AList.lookup_insert_ne hkey] at htask
    exact hidle task htask

/-- At the end of the loop none of the keys is to be polled any more. -/
theorem poll_loop_idle (h : poll_loop step keys tasks s = (none, tasks', s')) (hkey : key ∈ keys)
    (task : QueuedFuture φ) (htask : tasks'.lookup key = some task) : task.ready = false := by
  induction keys generalizing tasks s with
  | nil => cases hkey
  | cons key' keys ih =>
    obtain rfl | hkey := List.mem_cons.mp hkey
    · rw [poll_loop] at h
      split at h
      · rename_i future hlookup
        split at h
        · rename_i future' s₁ hstep
          refine lookup_poll_loop_of_idle h (fun task htask => ?_) task htask
          rw [AList.lookup_insert] at htask
          cases htask
          rfl
        · cases h
      · rename_i hnot
        refine lookup_poll_loop_of_idle h (fun task htask => ?_) task htask
        obtain ⟨future, ready⟩ := task
        cases ready with
        | false => rfl
        | true => exact absurd htask (hnot future)
    · rw [poll_loop] at h
      split at h
      · split at h
        · exact ih h hkey
        · cases h
      · exact ih h hkey

/-- Polling adds no future. -/
theorem mem_of_poll_loop (h : poll_loop step keys tasks s = (none, tasks', s')) (key : κ) :
    key ∈ tasks' ↔ key ∈ tasks := by
  refine poll_loop_none (fun tasks₁ _ => key ∈ tasks₁ ↔ key ∈ tasks)
    (fun tasks₁ s key' future future' s' hmem hlookup _ => ?_) Iff.rfl h
  rw [AList.mem_insert, hmem, or_iff_right_iff_imp]
  rintro rfl
  rw [← hmem]
  exact mem_iff_lookup.mpr ⟨_, hlookup⟩

/-- A future that is woken is to be polled. -/
theorem lookup_wake_self (self : FuturesUnordered κ φ ω) (key : κ) :
    (self.wake key).1.tasks.lookup key = (self.tasks.lookup key).map fun task => ⟨task.future, true⟩ := by
  unfold wake
  split
  · rename_i future hlookup
    rw [AList.lookup_insert, hlookup]
    rfl
  · rename_i hnot
    cases hlookup : self.tasks.lookup key with
    | none => rfl
    | some task =>
      obtain ⟨future, ready⟩ := task
      cases ready with
      | false => exact absurd hlookup (hnot future)
      | true => rfl

/-- To wake a future leaves the others alone. -/
theorem lookup_wake_ne (self : FuturesUnordered κ φ ω) {key key' : κ} (hkey : key' ≠ key) :
    (self.wake key).1.tasks.lookup key' = self.tasks.lookup key' := by
  unfold wake
  split
  · exact AList.lookup_insert_ne hkey
  · rfl

/-- A wake that has a future to wake fires the waker of the queue; any other does nothing. -/
theorem wake_cases (self : FuturesUnordered κ φ ω) (key : κ) :
    (self.wake key).2 = self.waker ∧ (self.wake key).1.waker = none ∨
      self.wake key = (self, none) ∧ ∀ future, self.tasks.lookup key ≠ some ⟨future, false⟩ := by
  unfold wake
  split
  · exact .inl ⟨rfl, rfl⟩
  · rename_i hnot
    exact .inr ⟨rfl, hnot⟩

end FuturesUnordered

end rust
