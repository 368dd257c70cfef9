import Mathlib.Logic.Function.Basic
import Mathlib.Logic.Relation

namespace transition

/-- Items that are sorted, each at most once: what is known of each of them by now, and what
those that have been sorted were sorted as. -/
structure Sorter (κ β : Type) where
  verdict : κ → Option β
  sorted : κ → Option β

namespace Sorter

variable {κ β : Type} {self next other : Sorter κ β} {key : κ} {fate : β}

/-- Every item was sorted as is known of it. -/
def Faithful (self : Sorter κ β) : Prop := ∀ key fate, self.sorted key = some fate → self.verdict key = some fate

/-- Every item in question of which enough is known has been sorted. -/
def Settled (self : Sorter κ β) (P : κ → Prop) : Prop :=
  ∀ key, P key → ∀ fate, self.verdict key = some fate → self.sorted key = some fate

/-- Where all of which enough is known has been sorted, the items are sorted as is known of them, and no
others are. -/
theorem Faithful.sorted_eq {P : κ → Prop} (hfaithful : self.Faithful) (hsettled : self.Settled P)
    (hkey : P key) : self.sorted key = self.verdict key := by
  cases hverdict : self.verdict key with
  | some fate => exact hsettled key hkey fate hverdict
  | none =>
    cases hsorted : self.sorted key with
    | none => rfl
    | some fate => exact hverdict.symm.trans (hfaithful key fate hsorted) |>.symm

/-- In whatever order two sorters got there, an item of which both know the same is not sorted
in two ways. -/
theorem Faithful.agree {fate' : β} (hfaithful : self.Faithful) (hother : other.Faithful)
    (hverdict : self.verdict key = other.verdict key) (hsorted : self.sorted key = some fate)
    (hsorted' : other.sorted key = some fate') : fate = fate' := by
  have h := hfaithful key fate hsorted
  rw [hverdict, hother key fate' hsorted'] at h
  exact (Option.some.inj h).symm

section steps

variable [DecidableEq κ]

/-- Something gets known of an item that has not been sorted, or such an item is sorted as is
known of it. -/
inductive Step : Sorter κ β → Sorter κ β → Prop where
  | learn {self : Sorter κ β} {key : κ} (verdict : Option β) (hsorted : self.sorted key = none) :
      Step self { self with verdict := Function.update self.verdict key verdict }
  | sort {self : Sorter κ β} {key : κ} {fate : β} (hsorted : self.sorted key = none)
      (hverdict : self.verdict key = some fate) :
      Step self { self with sorted := Function.update self.sorted key (some fate) }

abbrev Steps : Sorter κ β → Sorter κ β → Prop := Relation.ReflTransGen Step

/-- A sorter that looks the same has made no step. -/
theorem steps_of_eq (hverdict : next.verdict = self.verdict) (hsorted : next.sorted = self.sorted) :
    Steps self next := by
  obtain ⟨verdict, sorted⟩ := self
  obtain rfl : next = ⟨verdict, sorted⟩ := congrArg₂ mk hverdict hsorted
  exact .refl

/-- What has been sorted stays as it was sorted. -/
theorem Step.sorted (hstep : Step self next) (hsorted : self.sorted key = some fate) :
    next.sorted key = some fate := by
  cases hstep with
  | learn => exact hsorted
  | @sort key' _ hnone _ =>
    have hkey : key ≠ key' := by
      rintro rfl
      rw [hnone] at hsorted
      cases hsorted
    exact (Function.update_of_ne hkey _ _).trans hsorted

/-- One step sorts nothing against what is known of it, and of what has been sorted nothing more gets
known. -/
theorem Step.faithful (hstep : Step self next) (hfaithful : self.Faithful) : next.Faithful := by
  intro key fate hsorted
  cases hstep with
  | @learn key' _ hnone =>
    have hkey : key ≠ key' := by
      rintro rfl
      rw [hnone] at hsorted
      cases hsorted
    exact (Function.update_of_ne hkey _ _).trans (hfaithful key fate hsorted)
  | @sort key' _ _ hverdict =>
    simp only at hsorted
    by_cases hkey : key = key'
    · subst hkey
      rw [Function.update_self] at hsorted
      exact hverdict.trans hsorted
    · rw [Function.update_of_ne hkey] at hsorted
      exact hfaithful key fate hsorted

/-- What an item was sorted as is final. -/
theorem Steps.sorted (hsteps : Steps self next) (hsorted : self.sorted key = some fate) :
    next.sorted key = some fate := by
  induction hsteps with
  | refl => exact hsorted
  | tail _ hstep ih => exact hstep.sorted ih

theorem Steps.faithful (hsteps : Steps self next) (hfaithful : self.Faithful) : next.Faithful := by
  induction hsteps with
  | refl => exact hfaithful
  | tail _ hstep ih => exact hstep.faithful ih

end steps

end Sorter

end transition
