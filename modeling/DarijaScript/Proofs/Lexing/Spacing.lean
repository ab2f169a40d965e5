import DarijaScript.Proofs.Lexing.Scan

/-!
# What is passed over

Between tokens stand blanks and comments. A block comment ends with the first sign that closes it and
a comment of a line with its line, so what is passed over is read off its own characters, whatever
stands behind it.
-/

namespace DarijaScript

open Text

/-- The sign that closes a block comment. -/
def commentClose : List Char := ['*', '/']

/-- Blanks, comments with the ends of their lines and block comments that are closed. -/
inductive Spacing : List Char → Prop
  | nil : Spacing []
  | blank {c : Char} {rest : List Char} (blank : isBlank c = true) (more : Spacing rest) :
      Spacing (c :: rest)
  | line {text rest : List Char} (inside : '\n' ∉ text) (more : Spacing rest) :
      Spacing ('/' :: '/' :: (text ++ '\n' :: rest))
  | block {text rest : List Char} (inside : ¬commentClose <:+: text ++ ['*'])
      (more : Spacing rest) : Spacing ('/' :: '*' :: (text ++ commentClose ++ rest))

/-- What is passed over in front of the end of the text, which ends a comment as the end of its line
does. -/
inductive LastSpacing : List Char → Prop
  | spacing {text : List Char} (h : Spacing text) : LastSpacing text
  | comment {front text : List Char} (h : Spacing front) (inside : '\n' ∉ text) :
      LastSpacing (front ++ '/' :: '/' :: text)

theorem spacing_blanks {blanks : List Char} (all : ∀ c ∈ blanks, isBlank c = true) :
    Spacing blanks := by
  induction blanks with
  | nil => exact .nil
  | cons c blanks ih =>
    exact .blank (all c (by simp)) (ih fun d mem => all d (List.mem_cons_of_mem _ mem))

theorem Spacing.append {front rest : List Char} (h : Spacing front) (more : Spacing rest) :
    Spacing (front ++ rest) := by
  induction h with
  | nil => exact more
  | blank blank _ ih => exact .blank blank ih
  | line inside _ ih => simpa using Spacing.line inside ih
  | block inside _ ih => simpa using Spacing.block inside ih

/-! ### Measuring -/

theorem gapFrom_line {text : List Char} (inside : '\n' ∉ text) (length : Nat) (rest : List Char) :
    gapFrom .lineComment length (text ++ rest) =
      gapFrom .lineComment (length + text.length) rest := by
  induction text generalizing length with
  | nil => rfl
  | cons c text ih =>
    rw [List.mem_cons, not_or] at inside
    obtain ⟨first, others⟩ := inside
    rw [List.cons_append, gapFrom, if_neg (Ne.symm first), ih others, List.length_cons]
    congr 1
    omega

/-- Inside a block comment only the character behind the text can close it. -/
theorem gapFrom_block {text rest : List Char} (inside : ¬commentClose <:+: text ++ rest.take 1)
    (start length : Nat) : gapFrom (.blockComment start) length (text ++ rest) =
      gapFrom (.blockComment start) (length + text.length) rest := by
  induction text generalizing length with
  | nil => rfl
  | cons c text ih =>
    rw [List.cons_append, List.infix_cons_iff, not_or] at inside
    obtain ⟨first, others⟩ := inside
    have goesOn : ¬(c = '*' ∧ (text ++ rest).head? = some '/') := by
      rintro ⟨rfl, closes⟩
      refine first (List.cons_prefix_cons.mpr ⟨rfl, ?_⟩)
      cases text with
      | nil =>
        cases rest with
        | nil => cases closes
        | cons d rest => simpa using closes.symm
      | cons d text => simpa using closes.symm
    rw [List.cons_append, gapFrom, if_neg goesOn, ih others, List.length_cons]
    congr 1
    omega

/-- What is passed over does not depend on what stands behind it. -/
theorem Spacing.gapFrom {front : List Char} (h : Spacing front) (length : Nat) (rest : List Char) :
    gapFrom .between length (front ++ rest) = gapFrom .between (length + front.length) rest := by
  induction h generalizing length with
  | nil => rfl
  | blank blank _ ih =>
    rw [List.cons_append, DarijaScript.gapFrom, if_pos blank, ih, List.length_cons]
    congr 1
    omega
  | @line text more inside _ ih =>
    have slash : isBlank '/' = false := by decide
    rw [List.cons_append, DarijaScript.gapFrom, if_neg (by simp [slash]), if_pos ⟨rfl, rfl⟩]
    rw [List.cons_append, DarijaScript.gapFrom, List.append_assoc, gapFrom_line inside]
    rw [List.cons_append, DarijaScript.gapFrom, if_pos rfl, ih]
    simp only [List.length_cons, List.length_append]
    congr 1
    omega
  | @block text more inside _ ih =>
    have slash : isBlank '/' = false := by decide
    rw [List.cons_append, DarijaScript.gapFrom, if_neg (by simp [slash]), if_neg (by simp),
      if_pos ⟨rfl, rfl⟩]
    rw [List.cons_append, DarijaScript.gapFrom, List.append_assoc, List.append_assoc]
    rw [gapFrom_block (by simpa [commentClose] using inside)]
    rw [commentClose, List.cons_append, DarijaScript.gapFrom, if_pos ⟨rfl, rfl⟩]
    rw [List.cons_append, DarijaScript.gapFrom, List.nil_append, ih]
    simp only [List.length_cons, List.length_append, List.length_nil]
    congr 1
    omega

/-- Behind what is passed over the text begins as a token does, or not at all. -/
theorem Spacing.gap_append {front rest : List Char} (h : Spacing front) (noGap : NoGap rest) :
    gap (front ++ rest) = .skip front.length := by
  rw [gap, h.gapFrom, noGap, Nat.zero_add]

theorem LastSpacing.gap_eq {text : List Char} (h : LastSpacing text) :
    gap text = .skip text.length := by
  cases h with
  | spacing h => simpa using h.gap_append noGap_nil
  | @comment front text h inside =>
    have slash : isBlank '/' = false := by decide
    have line := gapFrom_line inside (front.length + 1 + 1) []
    rw [List.append_nil] at line
    rw [gap, h.gapFrom, gapFrom, if_neg (by simp [slash]), if_pos ⟨rfl, rfl⟩, gapFrom, Nat.zero_add, line,
      gapFrom]
    simp only [List.length_cons, List.length_append]
    congr 1
    omega

/-! ### Every text -/

/-- A text is cut behind the first sign that closes a comment. -/
theorem exists_close {text : List Char} (h : commentClose <:+: text) :
    ∃ inside rest, text = inside ++ commentClose ++ rest ∧ ¬commentClose <:+: inside ++ ['*'] := by
  induction text with
  | nil => simp [commentClose] at h
  | cons c text ih =>
    by_cases first : commentClose <+: c :: text
    · obtain ⟨rest, eq⟩ := first
      exact ⟨[], rest, eq.symm, by simp [commentClose, List.infix_cons_iff]⟩
    · obtain ⟨inside, rest, rfl, clean⟩ := ih ((List.infix_cons_iff.mp h).resolve_left first)
      refine ⟨c :: inside, rest, rfl, ?_⟩
      rw [List.cons_append, List.infix_cons_iff, not_or]
      refine ⟨fun here => first (here.trans ?_), clean⟩
      simp [commentClose]

/-- What ends what is passed over: a token or the end of the text, a comment in its last line, or a
block comment that is never closed. -/
inductive EndsSpacing : List Char → Prop
  | token {text : List Char} (noGap : NoGap text) (solid : text.head?.any isBlank = false) :
      EndsSpacing text
  | comment {text : List Char} (inside : '\n' ∉ text) : EndsSpacing ('/' :: '/' :: text)
  | unclosed {text : List Char} (inside : ¬commentClose <:+: text) :
      EndsSpacing ('/' :: '*' :: text)

theorem exists_spacing (text : List Char) :
    ∃ front rest, text = front ++ rest ∧ Spacing front ∧ EndsSpacing rest := by
  match text with
  | [] => exact ⟨[], [], rfl, .nil, .token noGap_nil rfl⟩
  | c :: text =>
    by_cases blank : isBlank c = true
    · obtain ⟨front, rest, rfl, spacing, ends⟩ := exists_spacing text
      exact ⟨c :: front, rest, rfl, .blank blank spacing, ends⟩
    by_cases line : c = '/' ∧ text.head? = some '/'
    · obtain ⟨rfl, head⟩ := line
      obtain ⟨text, rfl⟩ := List.head?_eq_some_iff.mp head
      by_cases newline : '\n' ∈ text
      · obtain ⟨inside, behind, rfl, clean⟩ := List.eq_append_cons_of_mem newline
        obtain ⟨front, rest, rfl, spacing, ends⟩ := exists_spacing behind
        exact ⟨_, rest, by simp, .line clean spacing, ends⟩
      · exact ⟨[], _, rfl, .nil, .comment newline⟩
    by_cases block : c = '/' ∧ text.head? = some '*'
    · obtain ⟨rfl, head⟩ := block
      obtain ⟨text, rfl⟩ := List.head?_eq_some_iff.mp head
      by_cases closes : commentClose <:+: text
      · obtain ⟨inside, behind, rfl, clean⟩ := exists_close closes
        obtain ⟨front, rest, rfl, spacing, ends⟩ := exists_spacing behind
        exact ⟨_, rest, by simp, .block clean spacing, ends⟩
      · exact ⟨[], _, rfl, .nil, .unclosed closes⟩
    · have solid : isBlank c = false := by simpa using blank
      refine ⟨[], c :: text, rfl, .nil, .token (noGap_cons solid ?_) solid⟩
      rintro rfl
      exact ⟨fun head => line ⟨rfl, head⟩, fun head => block ⟨rfl, head⟩⟩
termination_by text.length

/-- What is ahead of a text: a token or its end behind what is passed over, its end in the last line of a
comment, or a block comment that is never closed. -/
inductive Passes : List Char → Gap → Prop
  | token {front rest : List Char} (spacing : Spacing front)
      (solid : rest.head?.any isBlank = false) : Passes (front ++ rest) (.skip front.length)
  | comment {text : List Char} (last : LastSpacing text) : Passes text (.skip text.length)
  | unclosed {front text : List Char} (spacing : Spacing front)
      (inside : ¬commentClose <:+: text) :
      Passes (front ++ '/' :: '*' :: text) (.openComment front.length)

theorem passes_gap (text : List Char) : Passes text (gap text) := by
  obtain ⟨front, rest, rfl, spacing, ends⟩ := exists_spacing text
  cases ends with
  | token noGap solid =>
    rw [spacing.gap_append noGap]
    exact .token spacing solid
  | comment inside =>
    have last := LastSpacing.comment spacing inside
    rw [last.gap_eq]
    exact .comment last
  | @unclosed text inside =>
    have slash : isBlank '/' = false := by decide
    have block (start length : Nat) : gapFrom (.blockComment start) length text = .openComment start := by
      have unclosed : ¬commentClose <:+: text ++ [].take 1 := by simpa using inside
      simpa [gapFrom] using gapFrom_block unclosed start length
    rw [gap, spacing.gapFrom, gapFrom, if_neg (by simp [slash]), if_neg (by simp), if_pos ⟨rfl, rfl⟩,
      gapFrom, block, Nat.zero_add]
    exact .unclosed spacing inside

/-- The characters that are skipped are blanks and comments, the last of which is ended by the text
only if no token stands behind it. -/
theorem gap_skip {text : List Char} {length : Nat} (h : gap text = .skip length) :
    ∃ front rest, text = front ++ rest ∧ front.length = length ∧
      (rest ≠ [] → Spacing front) ∧ LastSpacing front := by
  have passes := passes_gap text
  rw [h] at passes
  cases passes with
  | token spacing => exact ⟨_, _, rfl, rfl, fun _ => spacing, .spacing spacing⟩
  | comment last =>
    exact ⟨text, [], (List.append_nil _).symm, rfl, fun some => absurd rfl some, last⟩

end DarijaScript
