/-
# ExprLang.Decimal — integers as decimal text

Integers are unbounded, but text is not: a numeral of more than `digitLimit`
digits is neither read nor written.

Reading takes a numeral with white space around it, at most one sign, and
decimal digits of any script with single underscores between them. The white
space allowed here is narrower than `Text.isBlank`: of the ASCII characters
only the space and the five controls from tab to carriage return count.
Leading zeros count as digits, the sign and the underscores do not.
-/
import ExprLang.Text.Classes

namespace ExprLang.Decimal

set_option autoImplicit false

/-- The most digits that a numeral may have. -/
def digitLimit : Nat := 4300

/-- The least natural number whose numeral is too long. -/
@[irreducible] def tooLong : Nat := Nat.pow 10 digitLimit

/-- An integer whose numeral is short enough to be written. -/
def Writable (number : Int) : Prop := number.natAbs < tooLong

instance (number : Int) : Decidable (Writable number) := inferInstanceAs (Decidable (_ < _))

/-- The text of an integer, `none` if it has too many digits. -/
def write? (number : Int) : Option String :=
  if Writable number then some (toString number) else none

/-- What is said of an integer that cannot be written. -/
def tooLongMessage : String :=
  "Exceeds the limit (4300 digits) for integer string conversion; " ++
    "use sys.set_int_max_str_digits() to increase the limit"

/-- White space that may stand around a numeral. -/
def isMargin (c : Char) : Bool :=
  if c.toNat < 0x80 then c == ' ' || (decide (9 ≤ c.toNat) && decide (c.toNat ≤ 13))
  else Text.isBlank c

/-- The values of the digits of a numeral, most significant first. `gap` says
that a digit has to come next: at the start and after an underscore. The values
read so far are in `values` in reverse. -/
def digitsFrom (gap : Bool) (values : List Nat) : List Char → Option (List Nat)
  | [] => if gap then none else some values.reverse
  | c :: rest =>
    if c = '_' then if gap then none else digitsFrom true values rest
    else
      match Text.digitValue? c with
      | none => none
      | some value => digitsFrom false (value :: values) rest

/-- The natural number with these digits. -/
def ofDigits (values : List Nat) : Nat := values.foldl (fun number value => 10 * number + value) 0

/-- Read an unsigned numeral. -/
def readNat? (text : List Char) : Option Nat :=
  match digitsFrom true [] text with
  | none => none
  | some values => if values.length ≤ digitLimit then some (ofDigits values) else none

/-- Read a numeral with an optional sign and white space around it. -/
def read? (text : String) : Option Int :=
  match Text.trimWhile isMargin text.toList with
  | '-' :: rest => (readNat? rest).map fun number => -(number : Int)
  | '+' :: rest => (readNat? rest).map fun number => (number : Int)
  | rest => (readNat? rest).map fun number => (number : Int)

end ExprLang.Decimal
