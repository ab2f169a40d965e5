/-!
# Runs of characters

A text is cut where its characters leave a class: what is taken while they are in it is the run, and
what is left begins with no character of the class.
-/

namespace DarijaScript.Text

variable {p : Char → Bool} {run rest : List Char}

/-- Characters of a class are taken up to the first one outside the class. -/
theorem takeWhile_run (all : ∀ c ∈ run, p c = true) (stops : rest.head?.any p = false) :
    (run ++ rest).takeWhile p = run := by
  rw [List.takeWhile_append_of_pos all]
  cases rest with
  | nil => simp
  | cons c rest => simp_all

theorem dropWhile_run (all : ∀ c ∈ run, p c = true) (stops : rest.head?.any p = false) :
    (run ++ rest).dropWhile p = rest := by
  rw [List.dropWhile_append_of_pos all]
  cases rest with
  | nil => simp
  | cons c rest => simp_all

/-- A finite class is checked character by character. -/
theorem forall_mem_of_all {p : Char → Prop} [DecidablePred p] {chars : List Char}
    (h : chars.all (fun c => decide (p c)) = true) : ∀ c ∈ chars, p c :=
  fun c mem => of_decide_eq_true (List.all_eq_true.mp h c mem)

/-- Every text is a run and a text that does not go on with it. -/
theorem exists_run (p : Char → Bool) (text : List Char) : ∃ run rest, text = run ++ rest ∧
    (∀ c ∈ run, p c = true) ∧ rest.head?.any p = false := by
  induction text with
  | nil => exact ⟨[], [], rfl, by simp, rfl⟩
  | cons c text ih =>
    cases inside : p c with
    | false => exact ⟨[], c :: text, rfl, by simp, by simpa using inside⟩
    | true =>
      obtain ⟨run, rest, rfl, all, stops⟩ := ih
      exact ⟨c :: run, rest, rfl, by simpa [inside] using all, stops⟩

end DarijaScript.Text
