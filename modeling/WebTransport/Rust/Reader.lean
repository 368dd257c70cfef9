import WebTransport.Rust.Buf

namespace rust

open Outcome

/-- A parser of a buffer: the value at its front, and what is left of it. -/
abbrev Reader (β ε α : Type) := List β → Outcome ε (α × List β)

namespace Reader

variable {β ε ε' α γ : Type} {read : Reader β ε α} {e : ε} {bytes bytes' rest : List β} {value value' : α}

/-- The parser reads `bytes` as `value` whatever follows them, and it is an error `e` if the
buffer ends inside of them. -/
structure Delimits (read : Reader β ε α) (e : ε) (bytes : List β) (value : α) : Prop where
  whole : ∀ rest, read (bytes ++ rest) = ok (value, rest)
  cut : ∀ n < bytes.length, read (bytes.take n) = err e

/-- Whatever the parser accepts tells by itself where it ends. -/
def SelfDelimiting (read : Reader β ε α) (e : ε) : Prop :=
  ∀ buf value rest, read buf = ok (value, rest) →
    ∃ bytes, buf = bytes ++ rest ∧ read.Delimits e bytes value

theorem Delimits.nil (value : α) (e : ε) :
    Delimits (fun buf : List β => ok (value, buf)) e [] value where
  whole _ := rfl
  cut _ hn := absurd hn (Nat.not_lt_zero _)

/-- Two readers, one after the other, end where the second one does. -/
theorem Delimits.bind {next : α × List β → Outcome ε (γ × List β)} {result : γ}
    (hread : read.Delimits e bytes value) (hnext : Delimits (fun buf => next (value, buf)) e bytes' result) :
    Delimits (fun buf => read buf >>= next) e (bytes ++ bytes') result where
  whole rest := by
    simp only [List.append_assoc, hread.whole, ok_bind, hnext.whole]
  cut n hn := by
    by_cases hfirst : n < bytes.length
    · rw [List.take_append_of_le_length (Nat.le_of_lt hfirst), hread.cut n hfirst, err_bind]
    · rw [List.length_append] at hn
      rw [List.take_append, List.take_of_length_le (Nat.not_lt.mp hfirst), hread.whole, ok_bind]
      exact hnext.cut _ (by omega)

/-- What reads nothing does not look at the buffer. -/
theorem selfDelimiting_pure (value : α) (e : ε) :
    SelfDelimiting (fun buf : List β => ok (value, buf)) e := by
  intro buf value' rest h
  cases h
  exact ⟨[], rfl, .nil value e⟩

/-- One parser after the other. -/
theorem SelfDelimiting.bind {next : α × List β → Outcome ε (γ × List β)} (hread : read.SelfDelimiting e)
    (hnext : ∀ value, SelfDelimiting (fun buf => next (value, buf)) e) :
    SelfDelimiting (fun buf => read buf >>= next) e := by
  intro buf result rest h
  simp only [bind_eq_ok_iff] at h
  obtain ⟨⟨value, left⟩, hfirst, h⟩ := h
  obtain ⟨bytes, rfl, hbytes⟩ := hread _ _ _ hfirst
  obtain ⟨bytes', rfl, hbytes'⟩ := hnext value _ _ _ h
  exact ⟨bytes ++ bytes', (List.append_assoc _ _ _).symm, hbytes.bind hbytes'⟩

/-- A computation that reads nothing, before a parser. -/
theorem SelfDelimiting.after {next : α → Reader β ε γ} (x : Outcome ε α)
    (hnext : ∀ value, (next value).SelfDelimiting e) :
    SelfDelimiting (fun buf => x >>= fun value => next value buf) e := by
  intro buf result rest h
  simp only [bind_eq_ok_iff] at h
  obtain ⟨value, rfl, h⟩ := h
  exact hnext value _ _ _ h

theorem selfDelimiting_err (e' : ε) : SelfDelimiting (fun _ : List β => (err e' : Outcome ε (α × List β))) e :=
  fun _ _ _ h => by cases h

/-- A parser that chooses how to go on by the first byte, without consuming it. -/
def peek (e : ε) (choose : β → Reader β ε α) : Reader β ε α
  | [] => err e
  | first :: buf => choose first (first :: buf)

/-- A look at the first element does not take it, so that it is enough that the reader it chooses finds
its end. -/
theorem selfDelimiting_peek {choose : β → Reader β ε α} (hchoose : ∀ first, (choose first).SelfDelimiting e)
    (hnil : ∀ first out, choose first [] ≠ ok out) : (peek e choose).SelfDelimiting e := by
  intro buf value rest h
  cases buf with
  | nil => cases h
  | cons first tail =>
    obtain ⟨bytes, hbuf, hbytes⟩ := hchoose first _ _ _ h
    cases bytes with
    | nil => exact absurd (hbytes.whole []) (hnil first _)
    | cons first' bytes =>
      obtain ⟨rfl, -⟩ := List.cons.inj hbuf
      refine ⟨first :: bytes, hbuf, hbytes.whole, fun n hn => ?_⟩
      cases n with
      | zero => rfl
      | succ n => exact hbytes.cut (n + 1) hn

/-- `copy_to_bytes` behind a check that the bytes are there. -/
def take (e : ε) (len : Nat) : Reader UInt8 ε (List UInt8) := fun buf =>
  if buf.length < len then err e else copy_to_bytes buf len

/-- A fixed length is an end of its own. -/
theorem selfDelimiting_take (e : ε) (len : Nat) : (take e len).SelfDelimiting e := by
  intro buf value rest h
  unfold take at h
  split_ifs at h with hshort
  rw [copy_to_bytes_of_le (Nat.not_lt.mp hshort)] at h
  cases h
  have htake : (buf.take len).length = len := List.length_take_of_le (Nat.not_lt.mp hshort)
  refine ⟨buf.take len, (List.take_append_drop _ _).symm, fun rest => ?_, fun n hn => ?_⟩
  · unfold take
    rw [if_neg (by rw [List.length_append]; omega)]
    simpa only [htake] using copy_to_bytes_append (buf.take len) rest
  · exact if_pos (by rw [List.length_take]; omega)

/-- `bytes` is read as the values of a list, one after the other. -/
inductive Sequence (read : Reader β ε α) (e : ε) : List β → List α → Prop where
  | nil : Sequence read e [] []
  | cons {bytes rest : List β} {value : α} {list : List α} (hfirst : read.Delimits e bytes value)
      (hrest : Sequence read e rest list) : Sequence read e (bytes ++ rest) (value :: list)

variable {list list' : List α}

/-- A reader that fails on the empty buffer accepts nothing empty. -/
theorem Delimits.ne_nil (hbytes : read.Delimits e bytes value) (hnil : read [] = err e) : bytes ≠ [] := by
  rintro rfl
  have hwhole := hbytes.whole []
  rw [List.append_nil, hnil] at hwhole
  cases hwhole

/-- No value's bytes start with those of another. -/
theorem Delimits.unique (hbytes : read.Delimits e bytes value) (hbytes' : read.Delimits e bytes' value')
    {rest' : List β} (h : bytes ++ rest = bytes' ++ rest') : bytes = bytes' ∧ value = value' ∧ rest = rest' := by
  have hread := hbytes.whole rest
  rw [h, hbytes'.whole, ok.injEq, Prod.mk.injEq] at hread
  obtain ⟨rfl, rfl⟩ := hread
  exact ⟨List.append_cancel_right h, rfl, rfl⟩

/-- A sequence can be read in one way only, and what follows it in a longer one is a sequence
again. -/
theorem Sequence.split (hbytes : read.Sequence e bytes list) (hnil : read [] = err e)
    (hall : read.Sequence e (bytes ++ rest) list') :
    ∃ more, read.Sequence e rest more ∧ list' = list ++ more := by
  induction hbytes generalizing list' with
  | nil => exact ⟨list', hall, rfl⟩
  | @cons bytes tail value list hfirst _ ih =>
    rw [List.append_assoc] at hall
    generalize hbuf : bytes ++ (tail ++ rest) = buf at hall
    cases hall with
    | nil => exact absurd (List.append_eq_nil_iff.mp hbuf).1 (hfirst.ne_nil hnil)
    | cons hfirst' htail =>
      obtain ⟨-, rfl, rfl⟩ := hfirst.unique hfirst' hbuf
      obtain ⟨more, hmore, rfl⟩ := ih htail
      exact ⟨more, hmore, rfl⟩

/-- A buffer cut off anywhere holds the values before the cut, and behind them nothing, or
bytes whose end the parser misses. -/
theorem Sequence.take (hbytes : read.Sequence e bytes list) (n : Nat) :
    ∃ front list' back rest, bytes.take n = front ++ rest ∧ list = list' ++ back ∧
      read.Sequence e front list' ∧ (rest = [] ∨ rest ≠ [] ∧ read rest = err e) := by
  induction hbytes generalizing n with
  | nil => exact ⟨[], [], [], [], List.take_nil, rfl, .nil, .inl rfl⟩
  | @cons bytes tail value list hfirst _ ih =>
    by_cases hn : n < bytes.length
    · refine ⟨[], [], value :: list, bytes.take n, ?_, rfl, .nil, ?_⟩
      · rw [List.take_append_of_le_length (Nat.le_of_lt hn), List.nil_append]
      · exact or_iff_not_imp_left.mpr fun hne => ⟨hne, hfirst.cut n hn⟩
    · obtain ⟨front, list', back, rest, htail, rfl, hfront, hrest⟩ := ih (n - bytes.length)
      refine ⟨bytes ++ front, value :: list', back, rest, ?_, rfl, .cons hfirst hfront, hrest⟩
      rw [List.take_append, List.take_of_length_le (Nat.not_lt.mp hn), htail, List.append_assoc]

end Reader

end rust
