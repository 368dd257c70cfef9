import WebTransport.Rust.Outcome

namespace rust

open Outcome

/-- A Rust `String` or `str`: valid UTF-8 whose length in bytes is a `usize`. -/
structure Str where
  toString : String
  len_lt : toString.utf8ByteSize < 2 ^ 64
  deriving DecidableEq

namespace Str

/-- A literal of the source. None is as long as the other case has it. -/
def lit (s : String) : Str :=
  if h : s.utf8ByteSize < 2 ^ 64 then ⟨s, h⟩ else ⟨"", by decide⟩

def as_bytes (self : Str) : List UInt8 := self.toString.toByteArray.data.toList

def len (self : Str) : Nat := self.toString.utf8ByteSize

/-- `starts_with` for a character pattern. -/
def starts_with (self : Str) (c : Char) : Bool := self.toString.toList.head? == some c

@[ext] theorem ext {s t : Str} (h : s.toString = t.toString) : s = t := by
  cases s
  cases t
  simpa using h

@[simp] theorem length_as_bytes (s : Str) : s.as_bytes.length = s.len := rfl

end Str

/-- `std::str::from_utf8` followed by a copy into a `String`. No vector is longer than a
`usize` tells, so the copy never fails for the vectors a program can hold. -/
def from_utf8 (bytes : List UInt8) : Outcome Unit Str :=
  match String.fromUTF8? ⟨bytes.toArray⟩ with
  | none => err ()
  | some s => if h : s.utf8ByteSize < 2 ^ 64 then ok ⟨s, h⟩ else panic

/-- The text of some bytes is the one that has them as its encoding. -/
theorem fromUTF8?_eq_some_iff {bytes : List UInt8} {s : String} :
    String.fromUTF8? ⟨bytes.toArray⟩ = some s ↔ bytes = s.toByteArray.data.toList := by
  constructor
  · intro h
    simp only [String.fromUTF8?, Option.dite_none_right_eq_some, Option.some.injEq] at h
    obtain ⟨hvalid, rfl⟩ := h
    rfl
  · rintro rfl
    have hvalid : ByteArray.IsValidUTF8 ⟨s.toByteArray.data.toList.toArray⟩ := by
      simpa using s.isValidUTF8
    simp only [String.fromUTF8?, dif_pos hvalid, Option.some.injEq]
    apply String.toByteArray_inj.mp
    simp [String.fromUTF8]

/-- Decoding accepts exactly the bytes of a string. -/
theorem from_utf8_eq_ok_iff {bytes : List UInt8} {s : Str} :
    from_utf8 bytes = ok s ↔ bytes = s.as_bytes := by
  constructor
  · intro h
    unfold from_utf8 at h
    split at h
    · cases h
    · rename_i t ht
      split at h
      · cases h
        exact fromUTF8?_eq_some_iff.mp ht
      · cases h
  · rintro rfl
    have hsome := fromUTF8?_eq_some_iff.mpr (rfl : s.as_bytes = _)
    rw [from_utf8, hsome]
    simp only [dif_pos s.len_lt]

@[simp] theorem from_utf8_as_bytes (s : Str) : from_utf8 s.as_bytes = ok s :=
  from_utf8_eq_ok_iff.mpr rfl

/-- The check of bytes that fit into memory comes back. -/
theorem from_utf8_returns {bytes : List UInt8} (hlen : bytes.length < 2 ^ 64) :
    (from_utf8 bytes).Returns := by
  unfold from_utf8
  split
  · exact returns_err _
  · rename_i s hs
    have hsize : s.utf8ByteSize < 2 ^ 64 := by
      rw [fromUTF8?_eq_some_iff.mp hs] at hlen
      exact hlen
    rw [dif_pos hsize]
    exact returns_ok _

end rust
