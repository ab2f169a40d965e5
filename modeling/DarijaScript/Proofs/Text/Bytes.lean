import DarijaScript.Proofs.Text.Search

/-!
# Searching the encoding of a text

No character is encoded by the beginning of another one's encoding, and the byte that begins an
encoding is in no other place of one. So the encoding of a text occurs in another one's only where the
text occurs, and the first place that is found in the bytes is the first one in the characters.
-/

namespace DarijaScript.Text

/-- The UTF-8 encoding of a text. -/
def bytes (text : List Char) : List UInt8 := text.flatMap String.utf8EncodeChar

variable {needle text : List Char} {c d : Char} {i offset : Nat}

theorem bytes_cons (c : Char) (text : List Char) :
    bytes (c :: text) = String.utf8EncodeChar c ++ bytes text := rfl

theorem bytes_append (front text : List Char) : bytes (front ++ text) = bytes front ++ bytes text :=
  List.flatMap_append

theorem bytes_toList (text : String) : bytes text.toList = text.toByteArray.data.toList := by
  rw [← String.utf8Encode_toList, List.utf8Encode, List.toList_data_toByteArray]
  rfl

theorem length_bytes_toList (text : String) : (bytes text.toList).length = text.utf8ByteSize :=
  congrArg List.length (bytes_toList text)

/-! ### Encodings of characters -/

/-- What begins with an encoding begins with no other one. -/
theorem utf8EncodeChar_append_inj {bytes bytes' : List UInt8}
    (same : String.utf8EncodeChar c ++ bytes = String.utf8EncodeChar d ++ bytes') :
    c = d ∧ bytes = bytes' := by
  have decoded (c : Char) (bytes : List UInt8) :
      (String.utf8EncodeChar c ++ bytes).toByteArray.utf8DecodeChar? 0 = some c := by
    rw [List.toByteArray_append]
    exact ByteArray.utf8DecodeChar?_utf8EncodeChar_append
  have first : c = d := by
    rw [← Option.some_inj, ← decoded c bytes, same, decoded]
  subst first
  exact ⟨rfl, List.append_cancel_left same⟩

theorem exists_firstByte (c : Char) :
    ∃ first others, String.utf8EncodeChar c = first :: others ∧ first.IsUTF8FirstByte := by
  have some : 0 < (String.utf8EncodeChar c).length := by
    rw [String.length_utf8EncodeChar]
    exact c.utf8Size_pos
  obtain ⟨first, others, encoded⟩ := List.exists_cons_of_length_pos some
  refine ⟨first, others, encoded, ?_⟩
  have begins : (String.utf8EncodeChar c)[0].IsUTF8FirstByte :=
    UInt8.isUTF8FirstByte_getElem_utf8EncodeChar.mpr rfl
  simpa only [encoded, List.getElem_cons_zero] using begins

/-- An encoding begins at no other place inside of one than the beginning. -/
theorem eq_zero_of_occursAt_inside (some : needle ≠ []) {behind : List UInt8}
    (occurs : OccursAt (bytes needle) (String.utf8EncodeChar c ++ behind) offset)
    (inside : offset < (String.utf8EncodeChar c).length) : offset = 0 := by
  obtain ⟨d, rest, rfl⟩ := List.exists_cons_of_ne_nil some
  obtain ⟨first, others, encoded, begins⟩ := exists_firstByte d
  rw [bytes_cons, encoded] at occurs
  have here : (String.utf8EncodeChar c)[offset] = first := by
    have here := occurs.getElem?
    rw [List.getElem?_append_left inside, List.getElem?_eq_getElem inside] at here
    exact Option.some.inj here
  exact UInt8.isUTF8FirstByte_getElem_utf8EncodeChar.mp (here ▸ begins)

/-! ### Encodings of texts -/

theorem bytes_prefix_iff : bytes needle <+: bytes text ↔ needle <+: text := by
  constructor
  · intro begins
    induction needle generalizing text with
    | nil => exact List.nil_prefix
    | cons c needle ih =>
      obtain ⟨after, same⟩ := begins
      cases text with
      | nil => simp [bytes] at same
      | cons d text =>
        rw [bytes_cons, bytes_cons, List.append_assoc] at same
        obtain ⟨rfl, behind⟩ := utf8EncodeChar_append_inj same
        exact List.cons_prefix_cons.mpr ⟨rfl, ih ⟨after, behind⟩⟩
  · rintro ⟨after, rfl⟩
    rw [bytes_append]
    exact List.prefix_append ..

theorem OccursAt.bytes (occurs : OccursAt needle text i) :
    OccursAt (bytes needle) (bytes text) (Text.bytes (text.take i)).length := by
  obtain ⟨before, after, rfl, rfl⟩ := occurs
  refine ⟨Text.bytes before, Text.bytes after, ?_, ?_⟩
  · rw [List.append_assoc, List.take_left]
  · rw [bytes_append, bytes_append]

/-- The encoding of a text occurs where the text does, and nowhere else. -/
theorem exists_of_occursAt_bytes (some : needle ≠ [])
    (occurs : OccursAt (bytes needle) (bytes text) offset) :
    ∃ i, OccursAt needle text i ∧ (bytes (text.take i)).length = offset := by
  induction text generalizing offset with
  | nil =>
    have none : bytes needle <+: bytes [] := (occursAt_nil.mp occurs).2 ▸ List.nil_prefix
    exact absurd (List.prefix_nil.mp (bytes_prefix_iff.mp none)) some
  | cons c rest ih =>
    by_cases inside : offset < (String.utf8EncodeChar c).length
    · have begins := eq_zero_of_occursAt_inside some occurs inside
      subst begins
      exact ⟨0, occursAt_zero.mpr (bytes_prefix_iff.mp (occursAt_zero.mp occurs)), rfl⟩
    · obtain ⟨behind, rfl⟩ := Nat.exists_eq_add_of_le (Nat.le_of_not_lt inside)
      obtain ⟨i, found, rfl⟩ := ih (occursAt_append.mp occurs)
      refine ⟨i + 1, occursAt_succ.mpr found, ?_⟩
      rw [List.take_succ_cons, bytes_cons, List.length_append]

/-- A text occurs exactly if its encoding does. -/
theorem exists_occursAt_bytes_iff :
    (∃ offset, OccursAt (bytes needle) (bytes text) offset) ↔ ∃ i, OccursAt needle text i := by
  constructor
  · rintro ⟨offset, occurs⟩
    by_cases some : needle = []
    · exact ⟨0, occursAt_zero.mpr (some ▸ List.nil_prefix)⟩
    · obtain ⟨i, found, -⟩ := exists_of_occursAt_bytes some occurs
      exact ⟨i, found⟩
  · rintro ⟨i, occurs⟩
    exact ⟨_, occurs.bytes⟩

/-- No place in the bytes is in front of the first one in the characters. -/
theorem length_bytes_take_le (first : ∀ j < i, ¬OccursAt needle text j)
    (occurs : OccursAt (bytes needle) (bytes text) offset) :
    (bytes (text.take i)).length ≤ offset := by
  by_cases some : needle = []
  · have begins : i = 0 := Nat.eq_zero_of_not_pos fun later =>
      first 0 later (occursAt_zero.mpr (some ▸ List.nil_prefix))
    rw [begins]
    exact Nat.zero_le _
  · obtain ⟨j, found, rfl⟩ := exists_of_occursAt_bytes some occurs
    have later : i ≤ j := Nat.le_of_not_lt fun before => first j before found
    exact (bytes_prefix_iff.mpr (List.take_prefix_take_left later)).length_le

end DarijaScript.Text
