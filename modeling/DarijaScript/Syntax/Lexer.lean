import DarijaScript.Decimal.Reading
import DarijaScript.Syntax.Issue
import DarijaScript.Syntax.Token
import DarijaScript.Text.Alphanumeric
import DarijaScript.Text.Blank

/-!
# From characters to tokens

What the next token is depends on the characters ahead alone: `gap` measures what is skipped in
front of it and `scan` how many characters it takes, also when they form no token. A `Cursor` then
moves over that many characters, so its place is always that of its offset, after errors too.
-/

namespace DarijaScript

/-- A character that may stand in a word. -/
def isWordChar (c : Char) : Bool := Text.isAlphanumeric c || c == '_' || c == '$'

/-- Characters skipped in front of a token, or a block comment that is never closed. -/
inductive Gap where
  | skip (length : Nat)
  | openComment (start : Nat)
  deriving Repr, DecidableEq

/-- What a gap is being read in. -/
inductive GapState where
  | between
  | lineComment
  /-- In a block comment that begins at this offset. -/
  | blockComment (start : Nat)
  /-- Behind the first of the two signs that open a comment or close a block comment. -/
  | pending (next : GapState)
  deriving Repr, DecidableEq

/-- Measures a gap, `length` characters of which lie behind. -/
def gapFrom : GapState → (length : Nat) → List Char → Gap
  | .pending next, length, _ :: rest => gapFrom next (length + 1) rest
  | .pending _, length, [] => .skip length
  | .blockComment start, _, [] => .openComment start
  | .blockComment start, length, c :: rest =>
    if c = '*' ∧ rest.head? = some '/' then gapFrom (.pending .between) (length + 1) rest
    else gapFrom (.blockComment start) (length + 1) rest
  | .lineComment, length, [] => .skip length
  | .lineComment, length, c :: rest =>
    if c = '\n' then gapFrom .between (length + 1) rest
    else gapFrom .lineComment (length + 1) rest
  | .between, length, [] => .skip length
  | .between, length, c :: rest =>
    if Text.isBlank c then gapFrom .between (length + 1) rest
    else if c = '/' ∧ rest.head? = some '/' then
      gapFrom (.pending .lineComment) (length + 1) rest
    else if c = '/' ∧ rest.head? = some '*' then
      gapFrom (.pending (.blockComment length)) (length + 1) rest
    else .skip length

/-- The blanks and comments at the front of a text. -/
def gap (text : List Char) : Gap := gapFrom .between 0 text

/-- The token at the front of a text, or why there is none, and the number of characters taken. -/
structure Scan where
  length : Nat
  outcome : Except LexicalIssue (TokenKind × String)

/-- A word takes all the word characters ahead. -/
def scanWord (text : List Char) : Scan :=
  let word := text.takeWhile isWordChar
  ⟨word.length, .ok (wordKind (String.ofList word), String.ofList word)⟩

/-- The sign and digits of a power of ten and the letter before them, if one is ahead. -/
def powerAhead : List Char → List Char
  | letter :: rest =>
    if letter = 'e' ∨ letter = 'E' then
      match rest with
      | sign :: digit :: more =>
        if (sign = '+' ∨ sign = '-') ∧ digit.isDigit then
          letter :: sign :: digit :: more.takeWhile Char.isDigit
        else if sign.isDigit then letter :: (sign :: digit :: more).takeWhile Char.isDigit
        else []
      | [digit] => if digit.isDigit then [letter, digit] else []
      | [] => []
    else []
  | [] => []

/-- The point and digits of a fraction, if a digit follows the point. -/
def fractionAhead : List Char → List Char
  | '.' :: digit :: rest =>
    if digit.isDigit then '.' :: digit :: rest.takeWhile Char.isDigit else []
  | _ => []

/--
A number, or a word that begins with digits. A point without a digit behind it is left for the
access to a member.
-/
def scanNumber (text : List Char) : Scan :=
  let whole := text.takeWhile Char.isDigit
  let afterWhole := text.dropWhile Char.isDigit
  if (powerAhead afterWhole).isEmpty && afterWhole.head?.any isWordChar then scanWord text
  else
    let fraction := fractionAhead afterWhole
    let afterFraction := afterWhole.drop fraction.length
    let exponent := powerAhead afterFraction
    let glued := (afterFraction.drop exponent.length).takeWhile isWordChar
    let taken := whole ++ fraction ++ exponent ++ glued
    let lexeme := String.ofList taken
    if glued.isEmpty && (Decimal.read? taken).isSome then ⟨taken.length, .ok (.number, lexeme)⟩
    else ⟨taken.length, .error (.invalidNumber lexeme)⟩

/-- The character that a backslash and this one stand for. -/
def unescape : Char → Char
  | 'n' => '\n'
  | 't' => '\t'
  | 'r' => '\r'
  | '0' => '\x00'
  | c => c

/-- A string behind its opening quote; `value` holds the characters read so far in reverse. -/
def scanString (quote : Char) : (length : Nat) → (value : List Char) → List Char → Scan
  | length, _, [] => ⟨length, .error .unterminatedString⟩
  | length, value, '\\' :: rest =>
    match rest with
    | [] => ⟨length + 1, .error .unterminatedString⟩
    | c :: more => scanString quote (length + 2) (unescape c :: value) more
  | length, value, c :: rest =>
    if c = '\n' then ⟨length + 1, .error .unterminatedString⟩
    else if c = quote then ⟨length + 1, .ok (.string, String.ofList value.reverse)⟩
    else scanString quote (length + 1) (c :: value) rest

/-- The longest operator ahead. -/
def scanOperator (first : Char) (text : List Char) : Scan :=
  match operatorTexts.find? fun operator => operator.toList.isPrefixOf text with
  | some operator => ⟨operator.length, .ok (.operator, operator)⟩
  | none => ⟨1, .error (.unexpectedCharacter first)⟩

/-- The token at the front of a text that begins with no blank or comment. -/
def scan : List Char → Scan
  | [] => ⟨0, .ok (.endOfFile, "")⟩
  | c :: rest =>
    if c = '"' ∨ c = '\'' then scanString c 1 [] rest
    else if c.isDigit then scanNumber (c :: rest)
    else if isWordChar c then scanWord (c :: rest)
    else if c ∈ punctuationChars then ⟨1, .ok (.punctuation, c.toString)⟩
    else scanOperator c (c :: rest)

/-- A place in a source text and what is left of the text. -/
structure Cursor where
  rest : List Char
  offset : Nat
  position : Position

namespace Cursor

/-- The cursor at the beginning of a text. -/
def ofText (text : List Char) : Cursor := ⟨text, 0, .start⟩

/-- The cursor some characters further on, at most at the end of the text. -/
def forward : Nat → Cursor → Cursor
  | 0, cursor => cursor
  | n + 1, cursor =>
    match cursor.rest with
    | [] => cursor
    | c :: rest => forward n ⟨rest, cursor.offset + 1, cursor.position.after c⟩

/-- The next token and the cursor behind it; after an error the cursor is behind the characters
that were taken for a token. -/
def next (cursor : Cursor) : Except SyntaxError Token × Cursor :=
  match gap cursor.rest with
  | .openComment start =>
    let comment := cursor.forward start
    (.error ⟨.lexical .unterminatedComment, comment.position⟩,
      comment.forward comment.rest.length)
  | .skip length =>
    let start := cursor.forward length
    let found := scan start.rest
    let stop := start.forward found.length
    match found.outcome with
    | .ok (kind, lexeme) => (.ok ⟨kind, lexeme, start.position, start.offset, stop.offset⟩, stop)
    | .error issue => (.error ⟨.lexical issue, start.position⟩, stop)

/-- Tokens up to the end of the text, the first error or the given number. -/
def tokens : (atMost : Nat) → Cursor → Except SyntaxError (List Token)
  | 0, _ => .ok []
  | atMost + 1, cursor =>
    match cursor.next with
    | (.error error, _) => .error error
    | (.ok token, rest) =>
      if token.isEnd then .ok [token]
      else (tokens atMost rest).map (token :: ·)

end Cursor

/-- The tokens of a source text, the last one being the end of the file, or its first error. Every
token but the last takes a character. -/
def tokenize (source : String) : Except SyntaxError (List Token) :=
  let text := source.toList
  Cursor.tokens (text.length + 1) (Cursor.ofText text)

end DarijaScript
