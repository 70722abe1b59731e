/-
# ExprLang.Token.Segment — cutting a text into segments

A text is a sequence of segments: tokens, line feeds, runs of space, tab and
carriage return, and comments from `#` to the end of the line. `Segment.first`
cuts off the segment a text starts with, always the longest of its class, and
`Segment.scan` cuts until nothing is left. Nothing is lost: `first_text` says
that the segment and the rest join to the text.

Whether a run of name characters is a keyword depends on its neighbours: a
keyword has no word character (`Text.isWord`) directly before or after it.

`tokenize` keeps the tokens among the segments, each with one more than the
number of line feeds before it as its line, and ends with an `eof` token on the
last line. A text that the language does not know is no failure here: each
unknown character is an `illegal` token.
-/
import ExprLang.Token
import ExprLang.Text.Word

namespace ExprLang

set_option autoImplicit false

/-- A piece of a text. -/
inductive Segment where
  | token (kind : TokenKind) (text : List Char)
  | newline
  | blank (text : List Char)
  | comment (text : List Char)
  deriving DecidableEq, Repr

namespace Segment

/-- The characters of a segment. -/
def text : Segment → List Char
  | .token _ text => text
  | .newline => ['\n']
  | .blank text => text
  | .comment text => text

/-- Whether the last character of a segment belongs to a word. -/
def endsInWord (segment : Segment) : Bool := segment.text.getLast?.any Text.isWord

/-- Blanks inside a line. -/
def isSpacing (c : Char) : Bool := c == ' ' || c == '\t' || c == '\r'

/-- The kind of a run of name characters between its neighbours. -/
def wordKind (afterWord : Bool) (run rest : List Char) : TokenKind :=
  match TokenKind.keyword? (String.ofList run) with
  | none => .identifier
  | some keyword =>
    if afterWord || rest.head?.any Text.isWord then .identifier else keyword

/-- The operator or delimiter that a character starts, with how many more
characters it takes: one of `==`, `!=`, `<=`, `>=` before its first half. -/
def symbol? (c : Char) (next : Option Char) : Option (TokenKind × Nat) :=
  match c with
  | '=' => some (if next = some '=' then (.equal, 1) else (.assign, 0))
  | '!' => some (if next = some '=' then (.notEqual, 1) else (.bang, 0))
  | '<' => some (if next = some '=' then (.lessEqual, 1) else (.less, 0))
  | '>' => some (if next = some '=' then (.greaterEqual, 1) else (.greater, 0))
  | '+' => some (.plus, 0)
  | '-' => some (.minus, 0)
  | '*' => some (.product, 0)
  | '/' => some (.divide, 0)
  | '(' => some (.leftParen, 0)
  | ')' => some (.rightParen, 0)
  | '{' => some (.leftBrace, 0)
  | '}' => some (.rightBrace, 0)
  | ',' => some (.comma, 0)
  | ';' => some (.semicolon, 0)
  | _ => none

/-- The segment a text starts with and what follows it. The text is given by
its first character and the others; `afterWord` tells whether a word character
stands directly before it. -/
def first (afterWord : Bool) (c : Char) (others : List Char) : Segment × List Char :=
  if Text.isNameStart c then
    let run := c :: others.takeWhile Text.isNameChar
    let rest := others.dropWhile Text.isNameChar
    (.token (wordKind afterWord run rest) run, rest)
  else if c = '\n' then (.newline, others)
  else if isSpacing c then
    (.blank (c :: others.takeWhile isSpacing), others.dropWhile isSpacing)
  else if c = '#' then
    (.comment (c :: others.takeWhile (· != '\n')), others.dropWhile (· != '\n'))
  else
    match symbol? c others.head? with
    | some (kind, more) => (.token kind (c :: others.take more), others.drop more)
    | none =>
      if Text.isDigit c then
        (.token .int (c :: others.takeWhile Text.isDigit), others.dropWhile Text.isDigit)
      else (.token .illegal [c], others)

/-- The first segment and the rest make up the text. -/
theorem first_text (afterWord : Bool) (c : Char) (others : List Char) :
    (first afterWord c others).1.text ++ (first afterWord c others).2 = c :: others := by
  unfold first
  split
  · simp [text]
  split
  · simp_all [text]
  split
  · simp [text]
  split
  · simp [text]
  split
  · simp [text]
  split
  · simp [text]
  · simp [text]

/-- A segment has a character. -/
theorem first_text_ne_nil (afterWord : Bool) (c : Char) (others : List Char) :
    (first afterWord c others).1.text ≠ [] := by
  unfold first
  repeat' split
  all_goals simp [text]

/-- What follows the first segment is shorter than the text. -/
theorem length_first_lt (afterWord : Bool) (c : Char) (others : List Char) :
    (first afterWord c others).2.length < (c :: others).length := by
  have joined := congrArg List.length (first_text afterWord c others)
  have nonempty := List.length_pos_iff.2 (first_text_ne_nil afterWord c others)
  simp only [List.length_append] at joined
  omega

/-- Cut a text into segments, after `done` in reverse. -/
def scanOnto (done : List Segment) (afterWord : Bool) : List Char → List Segment
  | [] => done.reverse
  | c :: others =>
    let cut := first afterWord c others
    scanOnto (cut.1 :: done) cut.1.endsInWord cut.2
termination_by remaining => remaining.length
decreasing_by exact length_first_lt afterWord c others

/-- The segments of a text. -/
def scan (source : List Char) : List Segment := scanOnto [] false source

end Segment

/-! ## The tokens of a text -/

namespace Token

/-- The tokens among segments, from a line on, after `done` in reverse. -/
def ofSegmentsOnto (done : List Token) (line : Int) : List Segment → List Token
  | [] => (⟨.eof, "", line⟩ :: done).reverse
  | .token kind text :: rest => ofSegmentsOnto (⟨kind, String.ofList text, line⟩ :: done) line rest
  | .newline :: rest => ofSegmentsOnto done (line + 1) rest
  | .blank _ :: rest => ofSegmentsOnto done line rest
  | .comment _ :: rest => ofSegmentsOnto done line rest

/-- The tokens among segments, the first of them on line one. -/
def ofSegments (segments : List Segment) : List Token := ofSegmentsOnto [] 1 segments

theorem ofSegmentsOnto_ne_nil (done : List Token) (line : Int) (segments : List Segment) :
    ofSegmentsOnto done line segments ≠ [] := by
  fun_induction ofSegmentsOnto done line segments <;> simp_all

end Token

/-- The tokens of a text, closed by an `eof` token. -/
def tokenize (source : String) : List Token := Token.ofSegments (Segment.scan source.toList)

theorem tokenize_ne_nil (source : String) : tokenize source ≠ [] :=
  Token.ofSegmentsOnto_ne_nil _ _ _

end ExprLang
