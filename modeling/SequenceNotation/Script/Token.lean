import SequenceNotation.Number.Text
import SequenceNotation.Text.Quoted

/-!
# Tokens of the expression language

Literals, names, reserved words and marks.  A token knows how it is spelled and the name under which
diagnostics show it; where it stood in the source is kept beside it.
-/

namespace SequenceNotation.Script

open SequenceNotation.Number SequenceNotation.Text

/-- The reserved words. -/
inductive Keyword where
  | letWord | varWord | constWord | ifWord | elseWord | whileWord | returnWord | functionWord
  | trueWord | falseWord | nullWord | undefinedWord | typeofWord
  deriving DecidableEq, Repr

/-- Punctuation and operators. -/
inductive Mark where
  | openParen | closeParen | openBrace | closeBrace | comma | semicolon | dot | question | colon
  | arrow | assign | plusAssign | minusAssign | starAssign | slashAssign | increment | decrement
  | plus | minus | star | power | slash | percent | not | equal | notEqual | strictEqual
  | strictNotEqual | less | lessEqual | greater | greaterEqual | and | or | nullish
  deriving DecidableEq, Repr

/-- The smallest unit of a source text. -/
inductive Token where
  | number (value : Double)
  | string (text : String)
  | identifier (name : String)
  | keyword (word : Keyword)
  | mark (mark : Mark)
  deriving DecidableEq

namespace Keyword

/-- Every reserved word with its spelling and its name in diagnostics. -/
def table : List (Keyword × String × String) :=
  [(.letWord, "let", "Let"), (.varWord, "var", "Var"), (.constWord, "const", "Const"),
   (.ifWord, "if", "If"), (.elseWord, "else", "Else"), (.whileWord, "while", "While"),
   (.returnWord, "return", "Return"), (.functionWord, "function", "Function"),
   (.trueWord, "true", "True"), (.falseWord, "false", "False"), (.nullWord, "null", "Null"),
   (.undefinedWord, "undefined", "Undefined"), (.typeofWord, "typeof", "Typeof")]

/-- The word that a name is reserved as. -/
def ofSpelling? (name : String) : Option Keyword :=
  (table.find? fun (_, spelling, _) => spelling == name).map (·.1)

def recordName (word : Keyword) : String :=
  ((table.lookup word).map (·.2)).getD ""

end Keyword

namespace Mark

/-- Every mark with its spelling and its name in diagnostics; a spelling stands behind the longer ones
that begin with it. -/
def table : List (Mark × String × String) :=
  [(.strictEqual, "===", "StrictEq"), (.strictNotEqual, "!==", "StrictNotEq"),
   (.arrow, "=>", "Arrow"), (.plusAssign, "+=", "PlusAssign"), (.minusAssign, "-=", "MinusAssign"),
   (.starAssign, "*=", "StarAssign"), (.slashAssign, "/=", "SlashAssign"),
   (.increment, "++", "Increment"), (.decrement, "--", "Decrement"), (.power, "**", "Power"),
   (.equal, "==", "Eq"), (.notEqual, "!=", "NotEq"), (.lessEqual, "<=", "LtEq"),
   (.greaterEqual, ">=", "GtEq"), (.and, "&&", "And"), (.or, "||", "Or"),
   (.nullish, "??", "Nullish"), (.openParen, "(", "LParen"), (.closeParen, ")", "RParen"),
   (.openBrace, "\x7b", "LBrace"), (.closeBrace, "\x7d", "RBrace"), (.comma, ",", "Comma"),
   (.semicolon, ";", "Semicolon"), (.dot, ".", "Dot"), (.question, "?", "Question"),
   (.colon, ":", "Colon"), (.assign, "=", "Assign"), (.plus, "+", "Plus"), (.minus, "-", "Minus"),
   (.star, "*", "Star"), (.slash, "/", "Slash"), (.percent, "%", "Percent"), (.not, "!", "Not"),
   (.less, "<", "Lt"), (.greater, ">", "Gt")]

/-- The longest mark at the start of a text, and the number of its characters. -/
def atStart? (text : List Char) : Option (Mark × Nat) :=
  (table.find? fun (_, spelling, _) => spelling.toList.isPrefixOf text).map
    fun (mark, spelling, _) => (mark, spelling.length)

def recordName (mark : Mark) : String :=
  ((table.lookup mark).map (·.2)).getD ""

end Mark

namespace Token

/-- The name of the kind of token. -/
def kindName : Token → String
  | number _ => "Number"
  | string _ => "Str"
  | identifier _ => "Ident"
  | keyword word => word.recordName
  | mark m => m.recordName

/-- The token as diagnostics show it: the kind, and the value of a literal or name in parentheses. -/
def recordText : Token → String
  | number value => "Number(" ++ value.toRecordText ++ ")"
  | string text => "Str(" ++ recordQuoted text ++ ")"
  | identifier name => "Ident(" ++ recordQuoted name ++ ")"
  | token => token.kindName

end Token

/-- A token with the byte offsets at which it starts and stops. -/
structure PlacedToken where
  token : Token
  start : Nat
  stop : Nat
  deriving DecidableEq

end SequenceNotation.Script
