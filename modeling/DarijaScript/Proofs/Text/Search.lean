import DarijaScript.Text.Search

/-!
# Where a text occurs in another one

A text occurs at a position if it stands there behind as many characters. Searching finds the first
position, and cutting takes out occurrences from left to right: the parts with the separator between
them are the text again, and an occurrence that is left in a part would have been found before.
-/

namespace DarijaScript.Text

/-- A sequence of characters or bytes stands in another one behind the given number of them. -/
def OccursAt {α : Type} (needle text : List α) (position : Nat) : Prop :=
  ∃ before after, before.length = position ∧ before ++ needle ++ after = text

/-! ### Occurrences -/

section

variable {α : Type} {needle text front : List α} {i : Nat}

theorem occursAt_zero : OccursAt needle text 0 ↔ needle <+: text := by
  constructor
  · rintro ⟨before, after, empty, rfl⟩
    rw [List.eq_nil_of_length_eq_zero empty]
    exact List.prefix_append ..
  · rintro ⟨after, rfl⟩
    exact ⟨[], after, rfl, rfl⟩

theorem occursAt_succ {c : α} : OccursAt needle (c :: text) (i + 1) ↔ OccursAt needle text i := by
  constructor
  · rintro ⟨_ | ⟨d, before⟩, after, length, same⟩
    · cases length
    · rw [List.cons_append, List.cons_append] at same
      exact ⟨before, after, Nat.succ.inj length, (List.cons.inj same).2⟩
  · rintro ⟨before, after, length, rfl⟩
    exact ⟨c :: before, after, congrArg (· + 1) length, rfl⟩

theorem occursAt_nil : OccursAt needle [] i ↔ i = 0 ∧ needle = [] := by
  constructor
  · rintro ⟨before, after, rfl, none⟩
    rw [List.append_eq_nil_iff, List.append_eq_nil_iff] at none
    exact ⟨List.length_eq_zero_iff.mpr none.1.1, none.1.2⟩
  · rintro ⟨rfl, rfl⟩
    exact ⟨[], [], rfl, rfl⟩

/-- A text is inside another one if it occurs at some position. -/
theorem isInfix_iff : needle <:+: text ↔ ∃ i, OccursAt needle text i := by
  constructor
  · rintro ⟨before, after, same⟩
    exact ⟨before.length, before, after, rfl, same⟩
  · rintro ⟨_, before, after, -, same⟩
    exact ⟨before, after, same⟩

/-- Behind the front the occurrences are those in what follows. -/
theorem occursAt_append : OccursAt needle (front ++ text) (front.length + i) ↔
    OccursAt needle text i := by
  induction front with
  | nil => rw [List.length_nil, Nat.zero_add, List.nil_append]
  | cons c front ih =>
    rw [List.length_cons, Nat.add_right_comm, List.cons_append, occursAt_succ, ih]

/-- What occurs goes on occurring when a text is continued. -/
theorem OccursAt.append (occurs : OccursAt needle front i) (text : List α) :
    OccursAt needle (front ++ text) i := by
  obtain ⟨before, after, length, rfl⟩ := occurs
  exact ⟨before, after ++ text, length, by rw [List.append_assoc _ after]⟩

/-- An occurrence ends inside the text. -/
theorem OccursAt.add_length_le (occurs : OccursAt needle text i) :
    i + needle.length ≤ text.length := by
  obtain ⟨before, after, rfl, rfl⟩ := occurs
  rw [List.length_append, List.length_append]
  omega

theorem OccursAt.getElem? {c : α} (occurs : OccursAt (c :: needle) text i) : text[i]? = some c := by
  obtain ⟨before, after, rfl, rfl⟩ := occurs
  simp

theorem OccursAt.take_drop (occurs : OccursAt needle text i) :
    (text.take (i + needle.length)).drop i = needle := by
  obtain ⟨before, after, rfl, rfl⟩ := occurs
  rw [← List.length_append, List.take_left, List.drop_left]

end

variable {needle separator text front : List Char} {i : Nat}

/-! ### Searching -/

theorem indexFrom?_succ (needle : List Char) (position : Nat) (text : List Char) :
    indexFrom? needle (position + 1) text = (indexFrom? needle position text).map (· + 1) := by
  induction text generalizing position with
  | nil =>
    unfold indexFrom?
    split <;> rfl
  | cons c rest ih =>
    unfold indexFrom?
    split
    · rfl
    · exact ih _

theorem indexOf?_nil : indexOf? needle [] = if needle = [] then some 0 else none := by
  unfold indexOf? indexFrom?
  simp

theorem indexOf?_cons {c : Char} : indexOf? needle (c :: text) =
    if needle <+: c :: text then some 0 else (indexOf? needle text).map (· + 1) := by
  rw [indexOf?, indexFrom?, indexFrom?_succ]
  simp [indexOf?]

/-- Nothing occurs up to a position if it does not at the beginning and not in the rest. -/
theorem not_occursAt_before_succ {c : Char} : (∀ j < i + 1, ¬OccursAt needle (c :: text) j) ↔
    ¬OccursAt needle (c :: text) 0 ∧ ∀ j < i, ¬OccursAt needle text j := by
  rw [Nat.forall_lt_succ_left]
  simp only [occursAt_succ]

/-- The search finds exactly the first position at which the text occurs. -/
theorem indexOf?_eq_some_iff : indexOf? needle text = some i ↔
    OccursAt needle text i ∧ ∀ j < i, ¬OccursAt needle text j := by
  induction text generalizing i with
  | nil =>
    rw [indexOf?_nil]
    by_cases empty : needle = []
    · simp only [occursAt_nil, empty]
      constructor
      · intro found
        cases found
        simp
      · rintro ⟨⟨rfl, -⟩, -⟩
        rfl
    · simp [occursAt_nil, empty]
  | cons c rest ih =>
    rw [indexOf?_cons]
    by_cases here : OccursAt needle (c :: rest) 0
    · rw [if_pos (occursAt_zero.mp here)]
      constructor
      · intro found
        cases found
        exact ⟨here, by simp⟩
      · intro ⟨_, first⟩
        cases i with
        | zero => rfl
        | succ i => exact absurd here (first 0 (Nat.succ_pos i))
    · rw [if_neg (mt occursAt_zero.mpr here)]
      cases i with
      | zero => simp [here]
      | succ i =>
        rw [not_occursAt_before_succ, and_iff_right here, occursAt_succ, ← ih]
        simp

theorem indexOf?_eq_none_iff : indexOf? needle text = none ↔ ∀ i, ¬OccursAt needle text i := by
  induction text with
  | nil => simp [indexOf?_nil, occursAt_nil]
  | cons c rest ih =>
    rw [indexOf?_cons, ← Nat.and_forall_add_one]
    by_cases here : OccursAt needle (c :: rest) 0
    · simp [here, occursAt_zero.mp here]
    · simp [here, mt occursAt_zero.mpr here, ih, occursAt_succ]

/-! ### Cutting -/

theorem splitFrom_ne_nil (separator : List Char) (skip : Nat) (part text : List Char) :
    splitFrom separator skip part text ≠ [] := by
  induction text generalizing skip part with
  | nil => simp [splitFrom]
  | cons c rest ih =>
    cases skip with
    | zero =>
      rw [splitFrom]
      split
      · simp
      · exact ih 0 (c :: part)
    | succ skip => exact ih skip part

/-- The parts that are still to come, with the separator between them, are the current part and what
is behind the last occurrence. -/
theorem intercalate_splitFrom (some : separator ≠ []) (skip : Nat) (part text : List Char) :
    separator.intercalate (splitFrom separator skip part text) = part.reverse ++ text.drop skip := by
  induction text generalizing skip part with
  | nil => simp [splitFrom]
  | cons c rest ih =>
    cases skip with
    | succ skip => exact ih skip part
    | zero =>
      rw [splitFrom, List.drop_zero]
      split
      · next here =>
        obtain ⟨after, same⟩ := List.isPrefixOf_iff_prefix.mp here
        have behind : rest.drop (separator.length - 1) = after := by
          have length := List.length_pos_iff.mpr some
          rw [← List.drop_succ_cons (a := c), ← same, Nat.sub_add_cancel length, List.drop_left]
        rw [List.intercalate_cons_of_ne_nil (splitFrom_ne_nil _ _ _ _), ih, behind, List.reverse_nil,
          List.nil_append, List.append_assoc, same]
      · rw [ih, List.reverse_cons, List.append_assoc]
        rfl

/-- A text that occurs in the front begins in it, whatever follows. -/
theorem not_occursAt_of_begins (some : separator ≠ [])
    (before : ∀ j < front.length, ¬OccursAt separator (front ++ text) j) (i : Nat) :
    ¬OccursAt separator front i := by
  intro occurs
  have ends := occurs.add_length_le
  have length := List.length_pos_iff.mpr some
  exact before i (by omega) (occurs.append text)

/-- The separator does not occur in a part that is still to come if it does not begin in the current
one: where it is found the part ends. -/
theorem not_occursAt_of_mem_splitFrom (some : separator ≠ []) {skip : Nat} {part found : List Char}
    (before : ∀ j < part.reverse.length, ¬OccursAt separator (part.reverse ++ text.drop skip) j)
    (mem : found ∈ splitFrom separator skip part text) (i : Nat) : ¬OccursAt separator found i := by
  induction text generalizing skip part with
  | nil =>
    rw [splitFrom, List.mem_singleton] at mem
    exact mem ▸ not_occursAt_of_begins some before i
  | cons c rest ih =>
    cases skip with
    | succ skip => exact ih before mem
    | zero =>
      rw [splitFrom] at mem
      split at mem
      · rcases List.mem_cons.mp mem with rfl | mem
        · exact not_occursAt_of_begins some before i
        · exact ih (by simp) mem
      · next elsewhere =>
        refine ih (fun j begins occurs => ?_) mem
        rw [List.reverse_cons, List.append_assoc] at occurs
        rw [List.reverse_cons, List.length_append, List.length_singleton] at begins
        rcases Nat.lt_succ_iff_lt_or_eq.mp begins with begins | rfl
        · exact before j begins occurs
        · have here := occursAt_zero.mp (occursAt_append.mp occurs)
          exact elsewhere (List.isPrefixOf_iff_prefix.mpr here)

/-- The parts of a text with the separator between them are the text. -/
theorem intercalate_splitOn (some : separator ≠ []) (text : List Char) :
    separator.intercalate (splitOn separator text) = text :=
  intercalate_splitFrom some 0 [] text

/-- The separator occurs in no part. -/
theorem not_isInfix_of_mem_splitOn (some : separator ≠ []) {found : List Char}
    (mem : found ∈ splitOn separator text) : ¬separator <:+: found := by
  rw [isInfix_iff]
  rintro ⟨i, occurs⟩
  exact not_occursAt_of_mem_splitFrom some (by simp) mem i occurs

end DarijaScript.Text
