import DarijaScript.Syntax.Position

/-!
# Tokens

The words and signs of the language. A keyword is known by its spelling alone, and a token carries
its text and its place in the source.
-/

namespace DarijaScript

/-- The reserved words, named by their spelling where that is a name. -/
inductive Keyword where
  /-- A constant declaration. -/
  | tabit
  /-- A variable declaration. -/
  | bdl
  /-- A function. -/
  | dala
  /-- Return from a function. -/
  | rj3
  /-- Construction of an object. -/
  | jdid
  /-- The receiver of a call. -/
  | hadi
  /-- The type of a value. -/
  | no3
  /-- A condition. -/
  | ila
  /-- The other branch of a condition. -/
  | ella
  /-- Another condition when the one before does not hold. -/
  | wa9ila
  /-- A counting loop. -/
  | douz
  /-- A loop as long as a condition holds. -/
  | madamt
  /-- A loop that tests its condition last. -/
  | dir
  /-- A choice among cases. -/
  | bdl3la
  /-- One case of a choice, spelled with a seven. -/
  | hala
  /-- The case taken when no other fits, spelled with a three. -/
  | adi
  /-- Leave a loop or a choice. -/
  | wa9f
  /-- Go on with the next round of a loop. -/
  | kamml
  /-- Statements whose exceptions are handled. -/
  | jrb
  /-- The handler of exceptions. -/
  | msk
  /-- Statements that run in every case. -/
  | fakhr
  /-- The null value. -/
  | farkha
  /-- The undefined value. -/
  | mchmcha
  deriving Repr, DecidableEq

namespace Keyword

/-- The spelling of a keyword. -/
def text : Keyword → String
  | tabit => "tabit"
  | bdl => "bdl"
  | dala => "dala"
  | rj3 => "rj3"
  | jdid => "jdid"
  | hadi => "hadi"
  | no3 => "no3"
  | ila => "ila"
  | ella => "ella"
  | wa9ila => "wa9ila"
  | douz => "douz"
  | madamt => "madamt"
  | dir => "dir"
  | bdl3la => "bdl3la"
  | hala => "7ala"
  | adi => "3adi"
  | wa9f => "wa9f"
  | kamml => "kamml"
  | jrb => "jrb"
  | msk => "msk"
  | fakhr => "fakhr"
  | farkha => "farkha"
  | mchmcha => "mchmcha"

/-- Every keyword. -/
def all : List Keyword :=
  [tabit, bdl, dala, rj3, jdid, hadi, no3, ila, ella, wa9ila, douz, madamt, dir, bdl3la, hala, adi,
    wa9f, kamml, jrb, msk, fakhr, farkha, mchmcha]

theorem mem_all (keyword : Keyword) : keyword ∈ all := by
  cases keyword <;> decide

/-- The keyword with this spelling. -/
def ofWord? (word : String) : Option Keyword := all.find? (·.text == word)

theorem ofWord?_text (keyword : Keyword) : ofWord? keyword.text = some keyword := by
  cases keyword <;> decide

theorem text_of_ofWord? {word : String} {keyword : Keyword} (h : ofWord? word = some keyword) :
    keyword.text = word := by
  simpa using List.find?_some h

/-- A statement may begin with the keyword. After an error, parsing goes on at such a word. -/
def beginsStatement : Keyword → Bool
  | tabit | bdl | dala | rj3 | ila | douz | madamt | dir | bdl3la | wa9f | kamml | jrb => true
  | _ => false

end Keyword

/-- The operators, longer ones before those they begin with. -/
def operatorTexts : List String :=
  ["===", "!==", "==", "!=", "<=", ">=", "&&", "||", "++", "--", "+=", "-=", "*=", "/=", "%=",
    "+", "-", "*", "/", "%", "<", ">", "!", "="]

/-- The punctuation signs, each of one character. -/
def punctuationChars : List Char :=
  ['\x7b', '\x7d', '(', ')', '[', ']', ',', ';', '.', ':']

/-- The word for true. -/
def trueWord : String := "s7i7"

/-- The words for false. -/
def falseWords : List String := ["ghalat", "kdb"]

/-- The classes of tokens. -/
inductive TokenKind where
  | number
  | string
  | boolean
  | identifier
  | keyword
  | operator
  | punctuation
  | endOfFile
  deriving Repr, DecidableEq

/-- The kind of a word. -/
def wordKind (word : String) : TokenKind :=
  if word = trueWord ∨ word ∈ falseWords then .boolean
  else if (Keyword.ofWord? word).isSome then .keyword
  else .identifier

/-- The name of a class of tokens. -/
def TokenKind.name : TokenKind → String
  | .number => "number"
  | .string => "string"
  | .boolean => "boolean"
  | .identifier => "identifier"
  | .keyword => "keyword"
  | .operator => "operator"
  | .punctuation => "punctuation"
  | .endOfFile => "end of file"

/-- A token: its text, which for a string is the value without the quotes, the place of its first
character and the character offsets between which it stands. -/
structure Token where
  kind : TokenKind
  lexeme : String
  position : Position
  start : Nat
  stop : Nat
  deriving Repr, DecidableEq

namespace Token

/-- The token as messages show it. -/
def display (token : Token) : String :=
  match token.kind with
  | .endOfFile => "end of file"
  | .string => "\"" ++ token.lexeme ++ "\""
  | _ => token.lexeme

/-- The end of the tokens. -/
def isEnd (token : Token) : Bool := token.kind == .endOfFile

/-- The keyword that the token is. -/
def keyword? (token : Token) : Option Keyword :=
  if token.kind = .keyword then Keyword.ofWord? token.lexeme else none

/-- The token is this keyword. -/
def isKeyword (token : Token) (keyword : Keyword) : Bool := token.keyword? == some keyword

/-- The token is this operator. -/
def isOperator (token : Token) (text : String) : Bool :=
  token.kind == .operator && token.lexeme == text

/-- The token is this punctuation sign. -/
def isPunctuation (token : Token) (sign : Char) : Bool :=
  token.kind == .punctuation && token.lexeme.toList.head? == some sign

/-- The token may follow the point of a member access. -/
def isMemberName (token : Token) : Bool :=
  token.kind == .identifier || token.kind == .keyword || token.kind == .boolean

end Token

end DarijaScript
