import Mathlib.Data.Finmap

namespace rust

/-- `std::collections::HashMap`, with equality of contents. -/
abbrev HashMap (κ ν : Type) := Finmap fun _ : κ => ν

namespace HashMap

variable {κ ν : Type} [DecidableEq κ]

/-- Insertion of the entries of a list from left to right: a later entry replaces an earlier
one with the same key. -/
def insert_all (map : HashMap κ ν) (entries : List (κ × ν)) : HashMap κ ν :=
  entries.foldl (fun map entry => map.insert entry.1 entry.2) map

@[simp] theorem insert_all_nil (map : HashMap κ ν) : map.insert_all [] = map := rfl

@[simp] theorem insert_all_cons (map : HashMap κ ν) (entry : κ × ν) (entries : List (κ × ν)) :
    map.insert_all (entry :: entries) =
      HashMap.insert_all (map.insert entry.1 entry.2) entries := rfl

theorem insert_all_append (map : HashMap κ ν) (entries entries' : List (κ × ν)) :
    map.insert_all (entries ++ entries') = (map.insert_all entries).insert_all entries' :=
  List.foldl_append

/-- A key that does not occur keeps its value. -/
theorem lookup_insert_all_of_not_mem {map : HashMap κ ν} {entries : List (κ × ν)} {key : κ}
    (h : key ∉ entries.map Prod.fst) : (map.insert_all entries).lookup key = map.lookup key := by
  induction entries generalizing map with
  | nil => rfl
  | cons entry entries ih =>
    simp only [List.map_cons, List.mem_cons, not_or] at h
    rw [insert_all_cons, ih h.2, Finmap.lookup_insert_of_ne _ h.1]

/-- A key that occurs once gets the value of its entry. -/
theorem lookup_insert_all_of_mem {map : HashMap κ ν} {entries : List (κ × ν)} {key : κ} {value : ν}
    (hnodup : (entries.map Prod.fst).Nodup) (hmem : (key, value) ∈ entries) :
    (map.insert_all entries).lookup key = some value := by
  induction entries generalizing map with
  | nil => cases hmem
  | cons entry entries ih =>
    rw [List.map_cons, List.nodup_cons] at hnodup
    rw [insert_all_cons]
    rcases List.mem_cons.mp hmem with rfl | hmem
    · rw [lookup_insert_all_of_not_mem hnodup.1, Finmap.lookup_insert]
    · exact ih hnodup.2 hmem

/-- The last entry for a key decides. -/
theorem lookup_insert_all_last (map : HashMap κ ν) (before after : List (κ × ν)) {key : κ} (value : ν)
    (h : key ∉ after.map Prod.fst) :
    (map.insert_all (before ++ (key, value) :: after)).lookup key = some value := by
  rw [insert_all_append, insert_all_cons, lookup_insert_all_of_not_mem h, Finmap.lookup_insert]

/-- A key that occurs has a last entry. -/
theorem exists_last_entry {entries : List (κ × ν)} {key : κ} (h : key ∈ entries.map Prod.fst) :
    ∃ value before after, entries = before ++ (key, value) :: after ∧ key ∉ after.map Prod.fst := by
  induction entries with
  | nil => cases h
  | cons entry entries ih =>
    by_cases hlater : key ∈ entries.map Prod.fst
    · obtain ⟨value, before, after, rfl, hafter⟩ := ih hlater
      exact ⟨value, entry :: before, after, rfl, hafter⟩
    · rw [List.map_cons, List.mem_cons] at h
      obtain rfl := h.resolve_right hlater
      exact ⟨entry.2, [], entries, rfl, hlater⟩

/-- What a map built from entries holds for a key is the last entry for it. -/
theorem lookup_insert_all_iff (entries : List (κ × ν)) (key : κ) (value : ν) :
    (insert_all ∅ entries).lookup key = some value ↔
      ∃ before after, entries = before ++ (key, value) :: after ∧ key ∉ after.map Prod.fst := by
  constructor
  · intro h
    by_cases hkey : key ∈ entries.map Prod.fst
    · obtain ⟨value', before, after, rfl, hafter⟩ := exists_last_entry hkey
      rw [lookup_insert_all_last _ _ _ _ hafter] at h
      cases h
      exact ⟨before, after, rfl, hafter⟩
    · rw [lookup_insert_all_of_not_mem hkey, Finmap.lookup_empty] at h
      cases h
  · rintro ⟨before, after, rfl, hafter⟩
    exact lookup_insert_all_last _ _ _ _ hafter

/-- The entries of a map in the order in which one of its iterators yields them: every key once. -/
structure Iter (κ ν : Type) where
  entries : List (κ × ν)
  nodup : (entries.map Prod.fst).Nodup

/-- The map an iterator belongs to. -/
def Iter.map (iter : Iter κ ν) : HashMap κ ν := insert_all ∅ iter.entries

/-- The entries of an iterator are those of its map. -/
theorem Iter.lookup_map_iff (iter : Iter κ ν) (key : κ) (value : ν) :
    iter.map.lookup key = some value ↔ (key, value) ∈ iter.entries := by
  constructor
  · intro h
    by_cases hkey : key ∈ iter.entries.map Prod.fst
    · obtain ⟨⟨key', value'⟩, hmem, rfl⟩ := List.mem_map.mp hkey
      have hvalue : iter.map.lookup key' = some value' := lookup_insert_all_of_mem iter.nodup hmem
      rw [hvalue] at h
      cases h
      exact hmem
    · rw [Iter.map, lookup_insert_all_of_not_mem hkey, Finmap.lookup_empty] at h
      cases h
  · exact lookup_insert_all_of_mem iter.nodup

/-- The same map results from the entries in any other order. -/
theorem Iter.insert_all_perm (iter : Iter κ ν) {entries : List (κ × ν)}
    (hperm : entries.Perm iter.entries) : insert_all ∅ entries = iter.map := by
  have hnodup : (entries.map Prod.fst).Nodup := (hperm.map Prod.fst).nodup_iff.mpr iter.nodup
  apply Finmap.ext_lookup
  intro key
  apply Option.ext
  intro value
  rw [Iter.lookup_map_iff, ← hperm.mem_iff]
  exact Iter.lookup_map_iff ⟨entries, hnodup⟩ key value

/-- Iterators of one map differ in the order only. -/
theorem Iter.perm {iter iter' : Iter κ ν} (h : iter.map = iter'.map) : iter.entries.Perm iter'.entries := by
  apply (List.perm_ext_iff_of_nodup iter.nodup.of_map iter'.nodup.of_map).mpr
  intro entry
  rw [← Iter.lookup_map_iff, ← Iter.lookup_map_iff, h]

/-- The orders in which a map can hand out its entries. -/
abbrev Iterates (map : HashMap κ ν) := { iter : Iter κ ν // iter.map = map }

end HashMap

end rust
