import WebTransport.Bits.Basic

namespace bits

/-- A tree of lookup tables: the next `lookup` bits, read as a number, select the entry to
go on with, until a symbol is reached. -/
inductive LookupTree (σ : Type) where
  | symbol (x : σ)
  | table (lookup : Nat) (entries : List (LookupTree σ))

namespace LookupTree

variable {σ : Type}

/-- Induction over a tree, with the hypothesis for every entry of a table. -/
@[elab_as_elim]
theorem entryInduction {motive : LookupTree σ → Prop} (symbol : ∀ x, motive (.symbol x))
    (table : ∀ lookup entries, (∀ t ∈ entries, motive t) → motive (.table lookup entries)) :
    ∀ t, motive t
  | .symbol x => symbol x
  | .table lookup entries => table lookup entries fun t _ => entryInduction symbol table t

/-- Reading the bits `path` from the root of `t` leads to the node `u`. -/
inductive At : LookupTree σ → List Bool → LookupTree σ → Prop where
  | here (t : LookupTree σ) : At t [] t
  | step {lookup : Nat} {entries : List (LookupTree σ)} {word path : List Bool}
      {t u : LookupTree σ} (hword : word.length = lookup) (hentry : entries[value word]? = some t)
      (hrest : At t path u) : At (.table lookup entries) (word ++ path) u

/-- Reading goes on from a table that has been reached. -/
theorem At.snoc {t u : LookupTree σ} {lookup : Nat} {entries : List (LookupTree σ)} {path word : List Bool}
    (hat : At t path (.table lookup entries)) (hword : word.length = lookup)
    (hentry : entries[value word]? = some u) : At t (path ++ word) u := by
  generalize hnode : LookupTree.table lookup entries = node at hat
  induction hat with
  | here t =>
    subst hnode
    have hstep := At.step hword hentry (.here u)
    rwa [List.append_nil] at hstep
  | step hword' hentry' _ ih =>
    rw [List.append_assoc]
    exact .step hword' hentry' (ih hnode)

/-- No further step is possible at a node with the bits `rest` still unread: it is a symbol,
or a table with too few bits left, or a table without the entry they select. -/
def Stuck : LookupTree σ → List Bool → Prop
  | .symbol _, _ => True
  | .table lookup entries, rest =>
    rest.length < lookup ∨ entries[value (rest.take lookup)]? = none

/-- Every bit string leads down the tree to one node at which reading stops. -/
theorem exists_stuck (t : LookupTree σ) (bs : List Bool) :
    ∃ path u rest, bs = path ++ rest ∧ At t path u ∧ Stuck u rest := by
  induction t using entryInduction generalizing bs with
  | symbol x => exact ⟨[], _, bs, rfl, .here _, trivial⟩
  | table lookup entries ih =>
    by_cases hshort : bs.length < lookup
    · exact ⟨[], _, bs, rfl, .here _, .inl hshort⟩
    · cases hentry : entries[value (bs.take lookup)]? with
      | none => exact ⟨[], _, bs, rfl, .here _, .inr hentry⟩
      | some t =>
        obtain ⟨path, u, rest, hbs, hat, hstuck⟩ :=
          ih t (List.mem_of_getElem? hentry) (bs.drop lookup)
        have hword : (bs.take lookup).length = lookup := by
          rw [List.length_take]
          omega
        refine ⟨bs.take lookup ++ path, u, rest, ?_, .step hword hentry hat, hstuck⟩
        rw [List.append_assoc, ← hbs, List.take_append_drop]

mutual

/-- All nodes of a tree, each with the bits that lead to it. -/
def nodes : LookupTree σ → List (List Bool × LookupTree σ)
  | .symbol x => [([], .symbol x)]
  | .table lookup entries => ([], .table lookup entries) :: entryNodes lookup 0 entries

/-- The nodes below the entries of a table, from index `i` on. -/
def entryNodes (lookup : Nat) : Nat → List (LookupTree σ) → List (List Bool × LookupTree σ)
  | _, [] => []
  | i, t :: entries =>
    if i < 2 ^ lookup then
      (nodes t).map (fun node => (ofNat lookup i ++ node.1, node.2)) ++
        entryNodes lookup (i + 1) entries
    else []

end

/-- The nodes below the entries of a table: a word leads to an entry, and the rest of the path to the
node. -/
theorem mem_entryNodes {lookup : Nat} {entries : List (LookupTree σ)} {i : Nat}
    {path : List Bool} {u : LookupTree σ} :
    (path, u) ∈ entryNodes lookup i entries ↔
      ∃ word t rest, word.length = lookup ∧ i ≤ value word ∧
        entries[value word - i]? = some t ∧ (rest, u) ∈ nodes t ∧ path = word ++ rest := by
  induction entries generalizing i with
  | nil => simp [entryNodes]
  | cons t entries ih =>
    rw [entryNodes]
    by_cases hi : i < 2 ^ lookup
    · rw [if_pos hi, List.mem_append, ih]
      constructor
      · rintro (hmem | ⟨word, t', rest, hword, hle, hentry, hmem, rfl⟩)
        · obtain ⟨⟨rest, u'⟩, hnode, heq⟩ := List.mem_map.mp hmem
          obtain ⟨rfl, rfl⟩ := Prod.mk.inj heq
          have hvalue : value (ofNat lookup i) = i := by rw [value_ofNat, Nat.mod_eq_of_lt hi]
          exact ⟨ofNat lookup i, t, rest, by simp, by omega, by simp [hvalue], hnode, rfl⟩
        · refine ⟨word, t', rest, hword, by omega, ?_, hmem, rfl⟩
          rwa [show value word - i = value word - (i + 1) + 1 by omega, List.getElem?_cons_succ]
      · rintro ⟨word, t', rest, hword, hle, hentry, hmem, rfl⟩
        by_cases heq : value word = i
        · left
          have ht : t = t' := by simpa [heq] using hentry
          subst ht
          refine List.mem_map.mpr ⟨(rest, u), hmem, ?_⟩
          rw [← heq, ← hword, ofNat_value]
        · right
          refine ⟨word, t', rest, hword, by omega, ?_, hmem, rfl⟩
          rwa [show value word - i = value word - (i + 1) + 1 by omega,
            List.getElem?_cons_succ] at hentry
    · rw [if_neg hi]
      simp only [List.not_mem_nil, false_iff]
      rintro ⟨word, t', rest, hword, hle, -⟩
      have hlt := value_lt word
      rw [hword] at hlt
      omega

/-- The list of nodes is exactly what reading bits can reach. -/
theorem mem_nodes_iff {t u : LookupTree σ} {path : List Bool} :
    (path, u) ∈ nodes t ↔ At t path u := by
  induction t using entryInduction generalizing path with
  | symbol x =>
    rw [nodes]
    constructor
    · intro hmem
      obtain ⟨rfl, rfl⟩ := Prod.mk.inj (List.mem_singleton.mp hmem)
      exact .here _
    · rintro ⟨⟩
      exact List.mem_singleton.mpr rfl
  | table lookup entries ih =>
    rw [nodes, List.mem_cons, mem_entryNodes]
    constructor
    · rintro (heq | ⟨word, t, rest, hword, -, hentry, hmem, rfl⟩)
      · obtain ⟨rfl, rfl⟩ := Prod.mk.inj heq
        exact .here _
      · exact .step hword hentry ((ih t (List.mem_of_getElem? hentry)).mp hmem)
    · intro hat
      cases hat with
      | here => exact .inl rfl
      | @step _ _ word rest t _ hword hentry hrest =>
        exact .inr ⟨word, t, rest, hword, Nat.zero_le _, hentry,
          (ih t (List.mem_of_getElem? hentry)).mpr hrest, rfl⟩

/-- A check of every node decides a property of everything that can be reached. -/
theorem at_of_all_nodes {t : LookupTree σ} {p : List Bool × LookupTree σ → Bool}
    (hall : (nodes t).all p = true) {path : List Bool} {u : LookupTree σ} (hat : At t path u) :
    p (path, u) = true :=
  List.all_eq_true.mp hall _ (mem_nodes_iff.mpr hat)

/-- The tree decodes the code that writes the symbol `x` as the word `code x`. -/
structure Decodes (t : LookupTree σ) (code : σ → List Bool) : Prop where
  sound : ∀ {path x}, At t path (.symbol x) → path = code x
  complete : ∀ x, At t (code x) (.symbol x)
  nonempty : ∀ x, code x ≠ []

/-- Every bit string is a sequence of code words followed by a part in which reading stops
inside the tree, before any symbol. -/
theorem Decodes.exists_split {t : LookupTree σ} {code : σ → List Bool} (hcode : t.Decodes code)
    (bs : List Bool) :
    ∃ (s : List σ) (path : List Bool) (lookup : Nat) (entries : List (LookupTree σ)) (rest : List Bool),
      bs = s.flatMap code ++ (path ++ rest) ∧ At t path (.table lookup entries) ∧
        Stuck (.table lookup entries) rest := by
  induction hlen : bs.length using Nat.strong_induction_on generalizing bs with
  | _ n ih =>
    obtain ⟨path, u, rest, rfl, hat, hstuck⟩ := exists_stuck t bs
    cases u with
    | symbol x =>
      obtain rfl := hcode.sound hat
      have hpos := List.length_pos_iff.mpr (hcode.nonempty x)
      rw [List.length_append] at hlen
      obtain ⟨s, path, lookup, entries, rest', rfl, hat', hstuck'⟩ := ih rest.length (by omega) rest rfl
      exact ⟨x :: s, path, lookup, entries, rest', by simp, hat', hstuck'⟩
    | table lookup entries => exact ⟨[], path, lookup, entries, rest, rfl, hat, hstuck⟩

end LookupTree

end bits
