import DarijaScript.Syntax.Token

/-!
# Written programs

A program is written as a sequence of tokens with spaces and line ends between some of them. Keeping
the tokens apart from the layout says directly which tokens the written text holds.
-/

namespace DarijaScript

/-- One character of a string as it is written between double quotes. -/
def escape : Char → List Char
  | '"' => ['\\', '"']
  | '\\' => ['\\', '\\']
  | '\n' => ['\\', 'n']
  | '\t' => ['\\', 't']
  | '\r' => ['\\', 'r']
  | '\x00' => ['\\', '0']
  | c => [c]

/-- A string between double quotes. -/
def quote (text : List Char) : List Char := '"' :: text.flatMap escape ++ ['"']

/-- A part of a written program. -/
inductive Piece where
  | token (kind : TokenKind) (lexeme : String)
  | space
  /-- A line end and the indentation of the next line. -/
  | line (depth : Nat)
  deriving Repr, DecidableEq

namespace Piece

/-- One level of indentation. -/
def indentation : List Char := List.replicate 4 ' '

/-- The characters of a part. -/
def chars : Piece → List Char
  | token .string lexeme => quote lexeme.toList
  | token _ lexeme => lexeme.toList
  | space => [' ']
  | line depth => '\n' :: (List.replicate depth indentation).flatten

/-- The text that the parts make up. -/
def render (pieces : List Piece) : List Char := pieces.flatMap chars

/-- A keyword. -/
def keyword (keyword : Keyword) : Piece := token .keyword keyword.text

/-- A punctuation sign. -/
def sign (c : Char) : Piece := token .punctuation c.toString

/-- An operator. -/
def operator (text : String) : Piece := token .operator text

/-- A name, which after a point may be spelled as any word. -/
def word (text : String) : Piece := token (wordKind text) text

/-- Parts between parentheses. -/
def parenthesized (pieces : List Piece) : List Piece := sign '(' :: pieces ++ [sign ')']

/-- The text begins as a block or as a function does. -/
def looksLikeStatement (pieces : List Piece) : Bool :=
  let text := render pieces
  text.head? == some '\x7b' || Keyword.dala.text.toList.isPrefixOf text

end Piece

end DarijaScript
