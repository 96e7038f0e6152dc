import Cohort.Text.Bytes
import Cohort.Text.Quoted

/-!
The tokens of a statement. A token keeps its own characters and the layout in front of it, so that
the characters of any stretch of tokens can be read off the tokens themselves.
-/

namespace Cohort.Sql

inductive Keyword where
  | SELECT | FROM | WHERE | AND | OR | NOT | EXISTS | BETWEEN | LIKE | IS | NULL | IN
  | INNER | JOIN | ON | GROUP | BY | HAVING | INTERVAL
  deriving DecidableEq, Repr

namespace Keyword

def all : List Keyword :=
  [SELECT, FROM, WHERE, AND, OR, NOT, EXISTS, BETWEEN, LIKE, IS, NULL, IN,
   INNER, JOIN, ON, GROUP, BY, HAVING, INTERVAL]

def title : Keyword → String
  | SELECT => "Select"
  | FROM => "From"
  | WHERE => "Where"
  | AND => "And"
  | OR => "Or"
  | NOT => "Not"
  | EXISTS => "Exists"
  | BETWEEN => "Between"
  | LIKE => "Like"
  | IS => "Is"
  | NULL => "Null"
  | IN => "In"
  | INNER => "Inner"
  | JOIN => "Join"
  | ON => "On"
  | GROUP => "Group"
  | BY => "By"
  | HAVING => "Having"
  | INTERVAL => "Interval"

def spelling : Keyword → List Char
  | SELECT => ['s', 'e', 'l', 'e', 'c', 't']
  | FROM => ['f', 'r', 'o', 'm']
  | WHERE => ['w', 'h', 'e', 'r', 'e']
  | AND => ['a', 'n', 'd']
  | OR => ['o', 'r']
  | NOT => ['n', 'o', 't']
  | EXISTS => ['e', 'x', 'i', 's', 't', 's']
  | BETWEEN => ['b', 'e', 't', 'w', 'e', 'e', 'n']
  | LIKE => ['l', 'i', 'k', 'e']
  | IS => ['i', 's']
  | NULL => ['n', 'u', 'l', 'l']
  | IN => ['i', 'n']
  | INNER => ['i', 'n', 'n', 'e', 'r']
  | JOIN => ['j', 'o', 'i', 'n']
  | ON => ['o', 'n']
  | GROUP => ['g', 'r', 'o', 'u', 'p']
  | BY => ['b', 'y']
  | HAVING => ['h', 'a', 'v', 'i', 'n', 'g']
  | INTERVAL => ['i', 'n', 't', 'e', 'r', 'v', 'a', 'l']

def ofWord? (word : List Char) : Option Keyword :=
  all.find? fun keyword => keyword.spelling == word.map Char.toLower

end Keyword

inductive Comparison where
  | eq | ne | gt | lt | ge | le
  deriving DecidableEq, Repr

namespace Comparison

def title : Comparison → String
  | eq => "Eq"
  | ne => "NotEq"
  | gt => "Gt"
  | lt => "Lt"
  | ge => "Gte"
  | le => "Lte"

def symbol : Comparison → String
  | eq => "="
  | ne => "!="
  | gt => ">"
  | lt => "<"
  | ge => ">="
  | le => "<="

end Comparison

inductive Mark where
  | lparen | rparen | comma | dot | semicolon | star | plus | minus
  deriving DecidableEq, Repr

def Mark.title : Mark → String
  | lparen => "LParen"
  | rparen => "RParen"
  | comma => "Comma"
  | dot => "Dot"
  | semicolon => "Semicolon"
  | star => "Star"
  | plus => "Plus"
  | minus => "Minus"

inductive TokenKind where
  | keyword (word : Keyword)
  | identifier (name : String)
  /-- The characters between the quotes, a quote inside still doubled. -/
  | string (raw : String)
  | number (digits : String)
  | mark (sign : Mark)
  | comparison (op : Comparison)
  /-- A character no token starts with, or a literal without its end. -/
  | illegal
  deriving DecidableEq, Repr

namespace TokenKind

def isComparison : TokenKind → Bool
  | comparison _ => true
  | _ => false

def title : TokenKind → String
  | keyword word => word.title
  | identifier _ => "Identifier"
  | string _ => "String"
  | number _ => "Number"
  | mark sign => sign.title
  | comparison op => op.title
  | illegal => "Illegal"

def text? : TokenKind → Option String
  | identifier name => some name
  | string raw => some raw
  | number digits => some digits
  | _ => none

def describe (kind : TokenKind) : String :=
  match kind.text? with
  | some text => kind.title ++ "(" ++ Text.display text ++ ")"
  | none => kind.title

end TokenKind

structure Token where
  kind : TokenKind
  /-- Blanks and comments between the token before and this one. -/
  layout : List Char
  lexeme : List Char
  /-- Where the lexeme starts, in bytes from the start of the text. -/
  start : Nat
  deriving DecidableEq, Repr

def Token.stop (token : Token) : Nat :=
  token.start + Text.byteLength token.lexeme

def lexemes : List Token → List Char
  | [] => []
  | first :: rest => first.lexeme ++ rest.flatMap fun token => token.layout ++ token.lexeme

def sourceText (tokens : List Token) : String :=
  String.ofList (lexemes tokens)

end Cohort.Sql
