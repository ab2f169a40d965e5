import DarijaScript.Proofs.Lexing.Spacing

/-!
# Tokens partition their text

A cursor stands at an offset of the text, and the offset tells the rest and the position, so each
token is cut out of the text at its own offsets. Between two tokens, and in front of the first, only
blanks and comments are passed over.
-/

namespace DarijaScript

open Text

/-- The characters between two offsets. -/
def slice (text : List Char) (start stop : Nat) : List Char := (text.drop start).take (stop - start)

/-- The position behind some characters: the lines that they end are counted, and the characters of
the line that they begin. -/
def Position.behind (front : List Char) : Position :=
  ⟨front.count '\n' + 1, (front.reverse.takeWhile (· != '\n')).length + 1⟩

theorem Position.behind_concat (front : List Char) (c : Char) :
    behind (front ++ [c]) = (behind front).after c := by
  unfold behind after
  by_cases newline : c = '\n'
  · simp [newline]
  · simp [newline]

/-! ### Cursors -/

namespace Cursor

/-- The cursor at an offset of a text. -/
def ofOffset (text : List Char) (offset : Nat) : Cursor :=
  ⟨text.drop offset, offset, .behind (text.take offset)⟩

theorem forward_ofOffset {text : List Char} {offset n : Nat} (le : offset + n ≤ text.length) :
    (ofOffset text offset).forward n = ofOffset text (offset + n) := by
  induction n generalizing offset with
  | zero => rfl
  | succ n ih =>
    have lt : offset < text.length := by omega
    have step : (ofOffset text offset).forward (n + 1) = (ofOffset text (offset + 1)).forward n := by
      conv => lhs; unfold forward ofOffset
      rw [List.drop_eq_getElem_cons lt]
      dsimp only
      rw [← Position.behind_concat, List.take_append_getElem lt]
      rfl
    rw [step, ih (by omega), Nat.add_assoc, Nat.add_comm 1 n]

end Cursor

/-! ### One token -/

theorem length_scanString_le (quote : Char) (length : Nat) (value text : List Char) :
    (scanString quote length value text).length ≤ length + text.length := by
  fun_induction scanString quote length value text with
  | case1 => exact Nat.le_refl _
  | case2 => exact Nat.le_refl _
  | case3 _ _ _ _ ih => simp only [List.length_cons]; omega
  | case4 => simp only [List.length_cons]; omega
  | case5 => simp only [List.length_cons]; omega
  | case6 _ _ _ _ _ _ ih => simp only [List.length_cons]; omega

/-- The lexeme is what was taken from the front of the text. -/
structure Taken (text : List Char) (length : Nat) (lexeme : String) : Prop where
  isPrefix : lexeme.toList <+: text
  length_eq : length = lexeme.length

theorem Taken.length_le {text : List Char} {length : Nat} {lexeme : String}
    (h : Taken text length lexeme) : length ≤ text.length := by
  rw [h.length_eq, ← String.length_toList]
  exact h.isPrefix.length_le

theorem Taken.eq_take {text : List Char} {length : Nat} {lexeme : String}
    (h : Taken text length lexeme) : lexeme.toList = text.take length := by
  rw [h.length_eq, ← String.length_toList]
  exact List.prefix_iff_eq_take.mp h.isPrefix

theorem scanWord_taken {text : List Char} {kind : TokenKind} {lexeme : String}
    (h : (scanWord text).outcome = .ok (kind, lexeme)) :
    Taken text (scanWord text).length lexeme := by
  obtain ⟨-, eq⟩ := scanWord_ok h
  refine ⟨eq ▸ List.takeWhile_prefix _, ?_⟩
  rw [← String.length_toList, eq]
  rfl

/-- What is found lies in the text, and it is taken as it is unless it is a string. -/
theorem scan_ok {text : List Char} {kind : TokenKind} {lexeme : String}
    (h : (scan text).outcome = .ok (kind, lexeme)) :
    (scan text).length ≤ text.length ∧
      (kind ≠ .string → lexeme.toList = text.take (scan text).length) := by
  have finds := finds_scan text
  generalize scan text = found at finds h ⊢
  have of_taken (taken : Taken text found.length lexeme) : found.length ≤ text.length ∧
      (kind ≠ .string → lexeme.toList = text.take found.length) :=
    ⟨taken.length_le, fun _ => taken.eq_take⟩
  cases finds with
  | ending =>
    obtain ⟨-, rfl⟩ := Prod.mk.inj (Except.ok.inj h)
    exact of_taken ⟨List.nil_prefix, rfl⟩
  | @string quote rest =>
    have le := length_scanString_le quote 1 [] rest
    exact ⟨by rwa [List.length_cons, Nat.add_comm], fun other => absurd (scanString_ok h) other⟩
  | @number c rest digit =>
    have begins : digitAhead (c :: rest) = true := by simpa [digitAhead] using digit
    rcases scanNumber_ok begins h with ⟨same, -⟩ | ⟨-, -, isPrefix, length⟩
    · rw [same] at h of_taken ⊢
      exact of_taken (scanWord_taken h)
    · exact of_taken ⟨isPrefix, length⟩
  | word => exact of_taken (scanWord_taken h)
  | punctuation =>
    obtain ⟨-, rfl⟩ := Prod.mk.inj (Except.ok.inj h)
    exact of_taken ⟨by simp [Char.toString], by simp [Char.toString]⟩
  | operator =>
    obtain ⟨-, -, isPrefix, length⟩ := scanOperator_ok h
    exact of_taken ⟨isPrefix, length⟩

/-- What is found lies in the text, whether it is a token or not. -/
theorem length_scan_le (text : List Char) : (scan text).length ≤ text.length := by
  have finds := finds_scan text
  generalize scan text = found at finds ⊢
  cases finds with
  | ending => exact Nat.le_refl _
  | @string quote rest =>
    have le := length_scanString_le quote 1 [] rest
    rwa [List.length_cons, Nat.add_comm]
  | @number c rest digit =>
    have begins : digitAhead (c :: rest) = true := by simpa [digitAhead] using digit
    have finds := finds_scanNumber begins
    generalize c :: rest = text, scanNumber (c :: rest) = found at finds ⊢
    cases finds with
    | word => exact (List.takeWhile_prefix _).length_le
    | number => exact (List.prefix_append _ _).length_le
    | glued => rw [← List.append_assoc]; exact (List.prefix_append _ _).length_le
  | word => exact (List.takeWhile_prefix _).length_le
  | punctuation => exact Nat.succ_le_succ (Nat.zero_le _)
  | @operator c rest =>
    cases found : (scanOperator c (c :: rest)).outcome with
    | ok token =>
      obtain ⟨-, -, isPrefix, length⟩ := scanOperator_ok found
      exact (Taken.mk isPrefix length).length_le
    | error issue =>
      unfold scanOperator at found ⊢
      split at found
      · cases found
      · exact Nat.succ_le_succ (Nat.zero_le _)

/-- The end of the file is found at the end of the text only. -/
theorem scan_endOfFile {text : List Char} {lexeme : String}
    (h : (scan text).outcome = .ok (.endOfFile, lexeme)) : text = [] := by
  have finds := finds_scan text
  generalize scan text = found at finds h
  cases finds with
  | ending => rfl
  | string => cases scanString_ok h
  | @number c rest digit =>
    have begins : digitAhead (c :: rest) = true := by simpa [digitAhead] using digit
    rcases scanNumber_ok begins h with ⟨same, -⟩ | ⟨kind, -⟩
    · rw [same] at h
      exact absurd (scanWord_ok h).1.symm (wordKind_ne (by decide) lexeme)
    · cases kind
  | word => exact absurd (scanWord_ok h).1.symm (wordKind_ne (by decide) lexeme)
  | punctuation => cases h
  | operator => cases (scanOperator_ok h).1

/-- The token is cut out of the text behind this offset: it is the next one behind what is passed
over, or the end of the file at the end of the text. -/
structure Token.Cut (text : List Char) (front : Nat) (token : Token) : Prop where
  begins : front ≤ token.start
  ends : token.stop ≤ text.length
  nonempty : token.isEnd = false → token.start < token.stop
  ending : token.isEnd = true → token.start = text.length ∧ token.stop = text.length
  spacing : token.isEnd = false → Spacing (slice text front token.start)
  lastSpacing : LastSpacing (slice text front token.start)
  position : token.position = .behind (text.take token.start)
  lexeme : token.kind ≠ .string → token.lexeme.toList = slice text token.start token.stop

section

variable {text spaces left : List Char} {front : Nat} (eq : text.drop front = spaces ++ left)
include eq

theorem drop_behind : text.drop (front + spaces.length) = left := by
  rw [← List.drop_drop, eq, List.drop_left]

theorem slice_front : slice text front (front + spaces.length) = spaces := by
  rw [slice, Nat.add_sub_cancel_left, eq, List.take_left]

theorem length_of_drop (le : front ≤ text.length) :
    text.length = front + spaces.length + left.length := by
  have length := congrArg List.length eq
  rw [List.length_drop, List.length_append] at length
  omega

/-- What is found behind blanks and comments is cut out of the text. -/
theorem cut_of_scan (le : front ≤ text.length) (spacing : left ≠ [] → Spacing spaces)
    (lastSpacing : LastSpacing spaces) {kind : TokenKind} {lexeme : String}
    (found : (scan left).outcome = .ok (kind, lexeme)) :
    Token.Cut text front ⟨kind, lexeme, .behind (text.take (front + spaces.length)),
      front + spaces.length, front + spaces.length + (scan left).length⟩ := by
  have length := length_of_drop eq le
  have passed := slice_front eq
  have behind := drop_behind eq
  obtain ⟨fits, taken⟩ := scan_ok found
  have some (notEnd : kind ≠ .endOfFile) : left ≠ [] := by
    rintro rfl
    exact notEnd (Prod.mk.inj (Except.ok.inj found)).1.symm
  have none (isEnd : kind = .endOfFile) : left = [] := scan_endOfFile (isEnd ▸ found)
  constructor <;> dsimp only [Token.isEnd]
  case begins => exact Nat.le_add_right _ _
  case ends => omega
  case nonempty => exact fun notEnd => Nat.lt_add_of_pos_right (length_scan_pos (some (by simpa using notEnd)))
  case ending =>
    intro isEnd
    obtain rfl := none (by simpa using isEnd)
    exact ⟨length.symm, length.symm⟩
  case spacing =>
    intro notEnd
    rw [passed]
    exact spacing (some (by simpa using notEnd))
  case lastSpacing => rwa [passed]
  case lexeme =>
    intro other
    rw [slice, Nat.add_sub_cancel_left, behind]
    exact taken other

end

namespace Cursor

section

variable {text spaces left : List Char} {front : Nat} (le : front ≤ text.length)
  (eq : text.drop front = spaces ++ left)
include le eq

/-- Behind what is skipped the cursor moves over what is found. -/
theorem next_of_skip (skips : gap (text.drop front) = .skip spaces.length) :
    (ofOffset text front).next =
      match (scan left).outcome with
      | .ok (kind, lexeme) =>
        (.ok ⟨kind, lexeme, .behind (text.take (front + spaces.length)), front + spaces.length,
          front + spaces.length + (scan left).length⟩,
          ofOffset text (front + spaces.length + (scan left).length))
      | .error issue =>
        (.error ⟨.lexical issue, .behind (text.take (front + spaces.length))⟩,
          ofOffset text (front + spaces.length + (scan left).length)) := by
  have length := length_of_drop eq le
  have fits := length_scan_le left
  have start : (ofOffset text front).forward spaces.length =
      ofOffset text (front + spaces.length) := forward_ofOffset (by omega)
  have ahead : (ofOffset text (front + spaces.length)).rest = left := drop_behind eq
  have stop : (ofOffset text (front + spaces.length)).forward (scan left).length =
      ofOffset text (front + spaces.length + (scan left).length) := forward_ofOffset (by omega)
  have skips : gap (ofOffset text front).rest = .skip spaces.length := skips
  unfold next
  simp only [skips, start, ahead, stop]
  rfl

/-- A block comment that is never closed is told where it begins, and the cursor moves to the end. -/
theorem next_of_openComment (opens : gap (text.drop front) = .openComment spaces.length) :
    (ofOffset text front).next =
      (.error ⟨.lexical .unterminatedComment, .behind (text.take (front + spaces.length))⟩,
        ofOffset text text.length) := by
  have length := length_of_drop eq le
  have comment : (ofOffset text front).forward spaces.length =
      ofOffset text (front + spaces.length) := forward_ofOffset (by omega)
  have ahead : (ofOffset text (front + spaces.length)).rest = left := drop_behind eq
  have stop : (ofOffset text (front + spaces.length)).forward left.length =
      ofOffset text text.length := by rw [forward_ofOffset (by omega), ← length]
  have opens : gap (ofOffset text front).rest = .openComment spaces.length := opens
  unfold next
  simp only [opens, comment, ahead, stop]
  rfl

end

/-- The next token is found behind the blanks and comments ahead, and the cursor moves behind it. -/
theorem next_found {text : List Char} {front : Nat} {token : Token} {rest : Cursor}
    (le : front ≤ text.length) (h : (ofOffset text front).next = (.ok token, rest)) :
    ∃ spaces left kind lexeme, text.drop front = spaces ++ left ∧ (left ≠ [] → Spacing spaces) ∧
      LastSpacing spaces ∧ (scan left).outcome = .ok (kind, lexeme) ∧
      token = ⟨kind, lexeme, .behind (text.take (front + spaces.length)), front + spaces.length,
        front + spaces.length + (scan left).length⟩ ∧
      rest = ofOffset text token.stop := by
  cases ahead : gap (text.drop front) with
  | openComment start =>
    have ahead : gap (ofOffset text front).rest = .openComment start := ahead
    unfold next at h
    rw [ahead] at h
    cases h
  | skip length =>
    obtain ⟨spaces, left, eq, rfl, spacing, lastSpacing⟩ := gap_skip ahead
    rw [next_of_skip le eq ahead] at h
    split at h
    · next kind lexeme found =>
      obtain ⟨made, rfl⟩ := Prod.mk.inj h
      obtain rfl := Except.ok.inj made
      exact ⟨spaces, left, kind, lexeme, eq, spacing, lastSpacing, found, rfl, rfl⟩
    · cases h

/-- A cursor that stands at its offset cuts the next token out of the text and stands behind it. -/
theorem next_ofOffset {text : List Char} {front : Nat} {token : Token} {rest : Cursor}
    (le : front ≤ text.length) (h : (ofOffset text front).next = (.ok token, rest)) :
    token.Cut text front ∧ rest = ofOffset text token.stop := by
  obtain ⟨spaces, left, kind, lexeme, eq, spacing, lastSpacing, found, rfl, behind⟩ := next_found le h
  exact ⟨cut_of_scan eq le spacing lastSpacing found, behind⟩

end Cursor

/-! ### All tokens -/

/-- The characters in front of each token, from an offset on. -/
def gaps (text : List Char) : (front : Nat) → List Token → List (List Char)
  | _, [] => []
  | front, token :: rest => slice text front token.start :: gaps text token.stop rest

/-- The characters in front of each token and those of the token, in turn. -/
def segments (text : List Char) : (front : Nat) → List Token → List (List Char)
  | _, [] => []
  | front, token :: rest =>
    slice text front token.start :: slice text token.start token.stop ::
      segments text token.stop rest

/-- The tokens partition the text behind an offset. -/
structure Partition (text : List Char) (front : Nat) (tokens : List Token) : Prop where
  begins : ∀ token ∈ tokens, front ≤ token.start
  ordered : tokens.Pairwise fun token other => token.stop ≤ other.start
  ending : ∃ body ending, tokens = body ++ [ending] ∧
    (ending.isEnd = true ∧ ending.start = text.length ∧ ending.stop = text.length) ∧
    ∀ token ∈ body, token.isEnd = false ∧ token.start < token.stop
  spacing : ∃ inner last, gaps text front tokens = inner ++ [last] ∧
    (∀ gap ∈ inner, Spacing gap) ∧ LastSpacing last
  position : ∀ token ∈ tokens, token.position = .behind (text.take token.start)
  lexeme : ∀ token ∈ tokens, token.kind ≠ .string →
    token.lexeme.toList = slice text token.start token.stop
  whole : (segments text front tokens).flatten = text.drop front

theorem slice_append_drop {text : List Char} {start stop : Nat} (le : start ≤ stop) :
    slice text start stop ++ text.drop stop = text.drop start := by
  obtain ⟨n, rfl⟩ := Nat.exists_eq_add_of_le le
  rw [slice, Nat.add_sub_cancel_left, ← List.drop_drop, List.take_append_drop]

section

variable {text : List Char} {front : Nat} {token : Token} (cut : token.Cut text front)
include cut

theorem Token.Cut.start_le : token.start ≤ token.stop := by
  cases isEnd : token.isEnd with
  | true =>
    obtain ⟨start, stop⟩ := cut.ending isEnd
    omega
  | false => exact (cut.nonempty isEnd).le

theorem Partition.single (isEnd : token.isEnd = true) : Partition text front [token] where
  begins := by simpa using cut.begins
  ordered := List.pairwise_singleton _ _
  ending := ⟨[], token, rfl, ⟨isEnd, cut.ending isEnd⟩, List.forall_mem_nil _⟩
  spacing := ⟨[], _, rfl, List.forall_mem_nil _, cut.lastSpacing⟩
  position := by simpa using cut.position
  lexeme := by simpa using cut.lexeme
  whole := by
    have stop := (cut.ending isEnd).2
    have nothing : text.drop token.stop = [] := by simp [stop]
    simp only [segments, List.flatten_cons, List.flatten_nil]
    rw [← nothing, slice_append_drop cut.start_le, slice_append_drop cut.begins]

theorem Partition.cons {rest : List Token} (notEnd : token.isEnd = false)
    (more : Partition text token.stop rest) : Partition text front (token :: rest) where
  begins := by
    have le := cut.begins
    have le' := cut.start_le
    exact List.forall_mem_cons.mpr ⟨le, fun other mem => by have := more.begins other mem; omega⟩
  ordered := List.pairwise_cons.mpr ⟨more.begins, more.ordered⟩
  ending := by
    obtain ⟨body, ending, rfl, last, inside⟩ := more.ending
    exact ⟨token :: body, ending, rfl, last,
      List.forall_mem_cons.mpr ⟨⟨notEnd, cut.nonempty notEnd⟩, inside⟩⟩
  spacing := by
    obtain ⟨inner, last, eq, inside, lastSpacing⟩ := more.spacing
    exact ⟨_ :: inner, last, by rw [gaps, eq, List.cons_append],
      List.forall_mem_cons.mpr ⟨cut.spacing notEnd, inside⟩, lastSpacing⟩
  position := List.forall_mem_cons.mpr ⟨cut.position, more.position⟩
  lexeme := List.forall_mem_cons.mpr ⟨cut.lexeme, more.lexeme⟩
  whole := by
    rw [segments, List.flatten_cons, List.flatten_cons, more.whole, slice_append_drop cut.start_le,
      slice_append_drop cut.begins]

end

/-- By induction on the tokens: each is cut out of the text behind the one before it. -/
theorem Cursor.tokens_ofOffset {text : List Char} {atMost front : Nat} {found : List Token}
    (le : front ≤ text.length) (enough : text.length - front < atMost)
    (h : tokens atMost (ofOffset text front) = .ok found) : Partition text front found := by
  induction atMost generalizing front found with
  | zero => omega
  | succ atMost ih =>
    obtain ⟨token, rest, next, last | ⟨notEnd, others, further, rfl⟩⟩ := tokens_succ h
    · obtain ⟨isEnd, rfl⟩ := last
      exact .single (next_ofOffset le next).1 isEnd
    · obtain ⟨cut, rfl⟩ := next_ofOffset le next
      have begins := cut.begins
      have nonempty := cut.nonempty notEnd
      have ends := cut.ends
      exact .cons cut notEnd (ih ends (by omega) further)

/-- **Tokens partition their text.** They come in order and do not overlap, and only the last is empty,
the end of the file at the end of the text. In front of each stand blanks and comments only, it has the
position of its first character, and unless it is a string its lexeme is the text between its
offsets. -/
theorem tokenize_partition {source : String} {tokens : List Token}
    (h : tokenize source = .ok tokens) : Partition source.toList 0 tokens :=
  Cursor.tokens_ofOffset (Nat.zero_le _) (Nat.lt_succ_self _) h

/-- A comment and a string that go over several lines, and a comment that the text ends. -/
theorem tokenize_partition_lines : ∃ tokens,
    tokenize "bdl s = \"a\\\nb\"; /* 1\n2 */ s // 3" = .ok tokens ∧
      Partition "bdl s = \"a\\\nb\"; /* 1\n2 */ s // 3".toList 0 tokens := by
  have lexed : (tokenize "bdl s = \"a\\\nb\"; /* 1\n2 */ s // 3").isOk = true := by decide +kernel
  cases found : tokenize "bdl s = \"a\\\nb\"; /* 1\n2 */ s // 3" with
  | error error => simp [found, Except.isOk, Except.toBool] at lexed
  | ok tokens => exact ⟨tokens, rfl, tokenize_partition found⟩

end DarijaScript
