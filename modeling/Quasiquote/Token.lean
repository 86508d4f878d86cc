import Quasiquote.Json

/-!
# Tokens

A token is a kind, the slice of the source it was read from, and the line on which that slice
starts. Marks and keywords have one spelling each, given by `Mark.spelling` and `Keyword.text`.

* `TokenKind.alike` compares kinds and leaves the value of an integer out.
* `Token.alike` compares kinds in that way, and slices and lines exactly.
-/

namespace Quasiquote

/-- Operators and delimiters. -/
inductive Mark
  | leftParen
  | rightParen
  | leftBrace
  | rightBrace
  | comma
  | semicolon
  | minus
  | plus
  | slash
  | star
  | bang
  | bangEqual
  | equal
  | equalEqual
  | greater
  | greaterEqual
  | less
  | lessEqual
  deriving DecidableEq, Repr

def Mark.spelling : Mark → List Char
  | .leftParen => ['(']
  | .rightParen => [')']
  | .leftBrace => ['{']
  | .rightBrace => ['}']
  | .comma => [',']
  | .semicolon => [';']
  | .minus => ['-']
  | .plus => ['+']
  | .slash => ['/']
  | .star => ['*']
  | .bang => ['!']
  | .bangEqual => ['!', '=']
  | .equal => ['=']
  | .equalEqual => ['=', '=']
  | .greater => ['>']
  | .greaterEqual => ['>', '=']
  | .less => ['<']
  | .lessEqual => ['<', '=']

/-- Every mark; one that extends another stands before it. -/
def Mark.all : List Mark :=
  [.bangEqual, .equalEqual, .greaterEqual, .lessEqual, .leftParen, .rightParen, .leftBrace,
    .rightBrace, .comma, .semicolon, .minus, .plus, .slash, .star, .bang, .equal, .greater, .less]

def Mark.label : Mark → String
  | .leftParen => "LEFT_PAREN"
  | .rightParen => "RIGHT_PAREN"
  | .leftBrace => "LEFT_BRACE"
  | .rightBrace => "RIGHT_BRACE"
  | .comma => "COMMA"
  | .semicolon => "SEMICOLON"
  | .minus => "MINUS"
  | .plus => "PLUS"
  | .slash => "SLASH"
  | .star => "STAR"
  | .bang => "BANG"
  | .bangEqual => "BANG_EQUAL"
  | .equal => "EQUAL"
  | .equalEqual => "EQUAL_EQUAL"
  | .greater => "GREATER"
  | .greaterEqual => "GREATER_EQUAL"
  | .less => "LESS"
  | .lessEqual => "LESS_EQUAL"

/-- Words that are not names. -/
inductive Keyword
  | fnWord
  | letWord
  | trueWord
  | falseWord
  | ifWord
  | elseWord
  | returnWord
  | macroWord
  deriving DecidableEq, Repr

def Keyword.text : Keyword → String
  | .fnWord => "fn"
  | .letWord => "let"
  | .trueWord => "true"
  | .falseWord => "false"
  | .ifWord => "if"
  | .elseWord => "else"
  | .returnWord => "return"
  | .macroWord => "macro"

def Keyword.label : Keyword → String
  | .fnWord => "FUNCTION"
  | .letWord => "LET"
  | .trueWord => "TRUE"
  | .falseWord => "FALSE"
  | .ifWord => "IF"
  | .elseWord => "ELSE"
  | .returnWord => "RETURN"
  | .macroWord => "MACRO"

def Keyword.all : List Keyword :=
  [.fnWord, .letWord, .trueWord, .falseWord, .ifWord, .elseWord, .returnWord, .macroWord]

def Keyword.ofText? (word : String) : Option Keyword :=
  Keyword.all.find? fun k => k.text == word

/-- What a slice of source is. -/
inductive TokenKind
  | mark (m : Mark)
  | keyword (k : Keyword)
  | identifier
  | integer (value : Int64)
  /-- A character that starts no other token. -/
  | illegal
  /-- The end of the source. -/
  | eof
  deriving DecidableEq, Repr

/-- The listed name of a kind, which leaves the value of an integer out. -/
def TokenKind.label : TokenKind → String
  | .mark m => m.label
  | .keyword k => k.label
  | .identifier => "IDENTIFIER"
  | .integer _ => "INTEGER"
  | .illegal => "ILLEGAL"
  | .eof => "EOF"

/-- Whether two kinds are the same but for the value of an integer. -/
def TokenKind.alike : TokenKind → TokenKind → Bool
  | .integer _, .integer _ => true
  | a, b => a == b

def TokenKind.value? : TokenKind → Option Int64
  | .integer n => some n
  | _ => none

/-- A slice of source and what it is. Lines count from one. -/
structure Token where
  kind : TokenKind
  lexeme : String
  line : Nat
  deriving DecidableEq, Repr

/-- Whether two tokens have the same slice and line and kinds that are alike. -/
def Token.alike (a b : Token) : Bool :=
  a.kind.alike b.kind && a.lexeme == b.lexeme && a.line == b.line

/-- The listing of a token: its kind, its slice and the value of an integer. -/
def Token.text (t : Token) : String :=
  t.kind.label ++ " " ++ t.lexeme ++ " " ++
    match t.kind.value? with
    | some n => toString n.toInt
    | none => "null"

/-- The JSON form of a kind: its name, or an object when it carries a value. -/
def TokenKind.json (kind : TokenKind) : Json :=
  match kind.value? with
  | some n => .tagged kind.label (.int n.toInt)
  | none => .string kind.label

def Token.json (t : Token) : Json :=
  .object [("token_type", t.kind.json), ("lexeme", .string t.lexeme), ("line", .int t.line)]

end Quasiquote
