import Mathlib.Algebra.BigOperators.Group.List.Basic
import WebTransport.Qpack.RoundTrip

open rust rust.Outcome

namespace wt_proto.qpack

private theorem length_encode_prefix_loop (remaining : Nat) :
    (encode_prefix_loop remaining).length ≤ remaining + 1 := by
  induction remaining using Nat.strong_induction_on with
  | _ remaining ih =>
    rw [encode_prefix_loop]
    split
    · have := ih (remaining / 128) (by omega)
      rw [List.length_cons]
      omega
    · rw [List.length_singleton]
      omega

/-- An integer is encoded in at most its value and two bytes. -/
theorem length_encode_prefix {buf out : List UInt8} {size flags value : Nat}
    (h : encode_prefix buf size flags value = ok out) : out.length ≤ buf.length + value + 2 := by
  unfold encode_prefix at h
  obtain ⟨-, -, h⟩ := bind_eq_ok_iff.mp h
  simp only at h
  have hloop := length_encode_prefix_loop (value - (0xFF - (0xFF <<< size) % 2 ^ 8))
  split at h
  · cases h
    rw [List.length_append, List.length_singleton]
    omega
  · cases h
    rw [List.length_append, List.length_cons]
    omega

namespace Headers

/-- More bytes than the line of a field takes. -/
def line_bound : Field → Nat
  | (name, value) => 2 * (name.len + value.len) + 103

/-- A field is encoded within its bound. -/
theorem length_encode_line {buf out : List UInt8} {name value : Str}
    (h : encode_line buf name value = ok out) : out.length ≤ buf.length + line_bound (name, value) := by
  unfold encode_line at h
  split at h
  · rename_i index hfind
    have hlt := StaticTable.lt_of_get (StaticTable.get_of_find hfind)
    have hle := length_encode_prefix h
    rw [line_bound]
    omega
  · split at h
    · rename_i index hfind
      obtain ⟨entry_value, hget⟩ := StaticTable.get_of_find_name hfind
      have hlt := StaticTable.lt_of_get hget
      rw [encode_literal_value] at h
      obtain ⟨buf', hname, h⟩ := bind_eq_ok_iff.mp h
      obtain ⟨buf'', hvalue, h⟩ := bind_eq_ok_iff.mp h
      have hle := length_encode_prefix hname
      have hle' := length_encode_prefix hvalue
      cases h
      rw [line_bound, List.length_append, Str.length_as_bytes]
      omega
    · rw [encode_literal] at h
      obtain ⟨buf', hname, h⟩ := bind_eq_ok_iff.mp h
      obtain ⟨buf'', hvalue, h⟩ := bind_eq_ok_iff.mp h
      have hle := length_encode_prefix hname
      have hle' := length_encode_prefix hvalue
      cases h
      rw [List.length_append, Str.length_as_bytes] at hle' ⊢
      rw [line_bound]
      omega

/-- Fields in a row are encoded within the sum of their bounds. -/
theorem length_encode_lines {headers : List Field} {buf out : List UInt8}
    (h : encode_lines headers buf = ok out) : out.length ≤ buf.length + (headers.map line_bound).sum := by
  induction headers generalizing buf with
  | nil =>
    cases h
    rw [List.map_nil, List.sum_nil, Nat.add_zero]
  | cons header headers ih =>
    obtain ⟨name, value⟩ := header
    obtain ⟨buf', hline, h⟩ := bind_eq_ok_iff.mp h
    have hle := length_encode_line hline
    have hle' := ih h
    rw [List.map_cons, List.sum_cons]
    omega

/-- The length does not depend on the order of the fields. -/
theorem length_encode {iter : HashMap.Iter Str Str} {buf out : List UInt8} (h : encode iter buf = ok out) :
    out.length ≤ buf.length + 4 + (iter.entries.map line_bound).sum := by
  obtain ⟨buf', hint, h⟩ := bind_eq_ok_iff.mp h
  obtain ⟨buf'', hint', h⟩ := bind_eq_ok_iff.mp h
  have hle := length_encode_prefix hint
  have hle' := length_encode_prefix hint'
  have hlines := length_encode_lines h
  rw [((sort_by_key_perm iter.entries).map line_bound).sum_eq] at hlines
  omega

end Headers

end wt_proto.qpack
