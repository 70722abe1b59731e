/-
# ExprLang.Text.Lines — line ends, and places in lines

Files and standard input end a line with a line feed, a carriage return, or
the two together. `unifyNewlines` writes each of them as one line feed, so a
text read from outside holds no carriage return. `inputLines` cuts such a text
into the lines a reader is handed: without their line feeds, and with nothing
after the last one. `keptLines` keeps the line feeds, so its pieces join to the
text again.

An editor names a place by a line and an offset in UTF-16 units. `column` turns
the offset into a count of characters: a line end of two characters is measured
as one, an offset past the end falls back to the place before the last unit,
and a character of two units is passed whole. The word at a column is the run
of name characters that ends there, joined to the run that starts there.
-/
import ExprLang.Text.Word

namespace ExprLang.Text

set_option autoImplicit false

/-- Write every line end as one line feed, after `done` in reverse. -/
def unifyNewlinesOnto (done : List Char) : List Char → List Char
  | [] => done.reverse
  | '\r' :: '\n' :: rest => unifyNewlinesOnto ('\n' :: done) rest
  | '\r' :: rest => unifyNewlinesOnto ('\n' :: done) rest
  | c :: rest => unifyNewlinesOnto (c :: done) rest

/-- Write every line end as one line feed. -/
def unifyNewlines (text : List Char) : List Char := unifyNewlinesOnto [] text

/-- Cut a text after each line feed. `line` holds the open line in reverse and
`done` the finished lines in reverse; an empty open line at the end is no line. -/
def keptLinesOnto (done : List (List Char)) (line : List Char) :
    List Char → List (List Char)
  | [] => (if line.isEmpty then done else line.reverse :: done).reverse
  | '\n' :: rest => keptLinesOnto (('\n' :: line).reverse :: done) [] rest
  | c :: rest => keptLinesOnto done (c :: line) rest

/-- The lines of a text, each with the line feed that ends it. -/
def keptLines (text : List Char) : List (List Char) := keptLinesOnto [] [] text

/-- The lines of a text as they are typed: line ends made one, then dropped. -/
def inputLines (text : String) : List String :=
  (keptLines (unifyNewlines text.toList)).map fun line =>
    String.ofList (if line.getLast? = some '\n' then line.dropLast else line)

/-! ## The word under an editor's cursor -/

/-- How many UTF-16 units a character takes. -/
def units16 (c : Char) : Nat := if c.toNat < 0x10000 then 1 else 2

/-- A line whose two-character end is made one. -/
def shortEnd : List Char → List Char
  | [] => []
  | '\r' :: '\n' :: rest => '\n' :: shortEnd rest
  | c :: rest => c :: shortEnd rest

/-- How many characters are passed until at least `units` units are. -/
def columnOf (units : Nat) : List Char → Nat
  | [] => 0
  | c :: rest => if units = 0 then 0 else columnOf (units - units16 c) rest + 1

/-- The character column of a UTF-16 offset in a line. -/
def column (line : List Char) (offset : Nat) : Nat :=
  let measured := shortEnd line
  let total := measured.foldl (fun total c => total + units16 c) 0
  columnOf (if total < offset then total - 1 else offset) measured

/-- The run of name characters a text ends in, a last line feed ignored. -/
def trailingName (text : List Char) : List Char :=
  let reversed := text.reverse
  let body := if reversed.head? = some '\n' then reversed.tail else reversed
  (body.takeWhile isNameChar).reverse

/-- The word at an offset of a line. -/
def wordInLine (line : List Char) (offset : Nat) : List Char :=
  let col := column line offset
  trailingName (line.take col) ++ (line.drop col).takeWhile isNameChar

/-- The word at a line and a UTF-16 offset; empty past the last line. -/
def wordAt (text : String) (line offset : Nat) : String :=
  match (keptLines text.toList)[line]? with
  | none => ""
  | some found => String.ofList (wordInLine found offset)

end ExprLang.Text
