/-
# ExprLang.Token — the words of the language

A token is a kind, the text it was read from, and the line it stands on. The
lexer numbers lines from one; a caller that builds tokens by hand may put any
integer there and any text under any kind.

Keywords, operators and delimiters have one spelling each (`spelling?`);
names, integers, unknown characters and the end of input have none of their
own.
-/
import ExprLang.Text.Quoted

namespace ExprLang

set_option autoImplicit false

/-- The kinds of token. -/
inductive TokenKind where
  | illegal
  | eof
  | identifier
  | int
  | letKeyword
  | returnKeyword
  | ifKeyword
  | elseKeyword
  | functionKeyword
  | trueKeyword
  | falseKeyword
  | assign
  | plus
  | minus
  | bang
  | product
  | divide
  | equal
  | notEqual
  | less
  | greater
  | lessEqual
  | greaterEqual
  | leftParen
  | rightParen
  | leftBrace
  | rightBrace
  | comma
  | semicolon
  deriving DecidableEq, Repr

namespace TokenKind

/-- Every kind. -/
def all : List TokenKind :=
  [.illegal, .eof, .identifier, .int, .letKeyword, .returnKeyword, .ifKeyword, .elseKeyword,
    .functionKeyword, .trueKeyword, .falseKeyword, .assign, .plus, .minus, .bang, .product,
    .divide, .equal, .notEqual, .less, .greater, .lessEqual, .greaterEqual, .leftParen,
    .rightParen, .leftBrace, .rightBrace, .comma, .semicolon]

theorem mem_all (kind : TokenKind) : kind ∈ all := by cases kind <;> decide

/-- The name of a kind in diagnostics. -/
def name : TokenKind → String
  | .illegal => "ILLEGAL"
  | .eof => "EOF"
  | .identifier => "IDENTIFIER"
  | .int => "INT"
  | .letKeyword => "LET"
  | .returnKeyword => "RETURN"
  | .ifKeyword => "IF"
  | .elseKeyword => "ELSE"
  | .functionKeyword => "FUNCTION"
  | .trueKeyword => "TRUE"
  | .falseKeyword => "FALSE"
  | .assign => "ASSIGN"
  | .plus => "PLUS"
  | .minus => "MINUS"
  | .bang => "BANG"
  | .product => "PRODUCT"
  | .divide => "DIVIDE"
  | .equal => "EQUAL"
  | .notEqual => "NOTEQUAL"
  | .less => "LESS"
  | .greater => "GREATER"
  | .lessEqual => "LESSEQUAL"
  | .greaterEqual => "GREATEREQUAL"
  | .leftParen => "LPAREN"
  | .rightParen => "RPAREN"
  | .leftBrace => "LBRACE"
  | .rightBrace => "RBRACE"
  | .comma => "COMMA"
  | .semicolon => "SEMICOLON"

/-- The kind of a name, if it is one. -/
def ofName? (text : String) : Option TokenKind := all.find? fun kind => kind.name == text

/-- The one spelling of a keyword, operator or delimiter. -/
def spelling? : TokenKind → Option String
  | .illegal | .eof | .identifier | .int => none
  | .letKeyword => some "let"
  | .returnKeyword => some "return"
  | .ifKeyword => some "if"
  | .elseKeyword => some "else"
  | .functionKeyword => some "fn"
  | .trueKeyword => some "true"
  | .falseKeyword => some "false"
  | .assign => some "="
  | .plus => some "+"
  | .minus => some "-"
  | .bang => some "!"
  | .product => some "*"
  | .divide => some "/"
  | .equal => some "=="
  | .notEqual => some "!="
  | .less => some "<"
  | .greater => some ">"
  | .lessEqual => some "<="
  | .greaterEqual => some ">="
  | .leftParen => some "("
  | .rightParen => some ")"
  | .leftBrace => some "\x7b"
  | .rightBrace => some "\x7d"
  | .comma => some ","
  | .semicolon => some ";"

/-- The keywords. -/
def keywords : List TokenKind :=
  [.letKeyword, .returnKeyword, .ifKeyword, .elseKeyword, .functionKeyword, .trueKeyword,
    .falseKeyword]

/-- The keyword with this spelling, if there is one. -/
def keyword? (word : String) : Option TokenKind :=
  keywords.find? fun kind => kind.spelling? == some word

end TokenKind

/-- A token: its kind, its text and its line. -/
structure Token where
  kind : TokenKind
  literal : String
  line : Int
  deriving DecidableEq, Repr

namespace Token

/-- The displayed form of a token. -/
def describe (token : Token) : String :=
  "Token(" ++ token.kind.name ++ ", " ++ Text.quote token.literal ++ ", line=" ++
    toString token.line ++ ")"

/-- The displayed form of a list of tokens. -/
def describeAll (tokens : List Token) : String := Text.bracketed (tokens.map describe)

end Token

end ExprLang
