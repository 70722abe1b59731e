/-
# ExprLang.Text.Classes — classes of characters

A character class that a standard fixes by enumeration is data: a list of
inclusive ranges of code points in increasing order. `Ranges.holds` is the only
reader, so a class is exactly its table.

White space is the wide class (`isBlank`): every character whose bidirectional
type or category makes it a separator, the four information separators included.

A script that writes decimals has ten digits in a row, from its zero on. The
table of digits lists the zeros; a character is a digit when one of the rows
holds it, and its value is the distance from that row's zero.
-/

namespace ExprLang.Text

set_option autoImplicit false

/-- Inclusive ranges of code points, lowest first. -/
abbrev Ranges := List (Nat × Nat)

/-- Whether some range of the table holds the character. -/
def Ranges.holds (table : Ranges) (c : Char) : Bool :=
  table.any fun (low, high) => decide (low ≤ c.toNat) && decide (c.toNat ≤ high)

theorem Ranges.holds_iff (table : Ranges) (c : Char) :
    table.holds c = true ↔ ∃ range ∈ table, range.1 ≤ c.toNat ∧ c.toNat ≤ range.2 := by
  simp [Ranges.holds]

/-! ## White space -/

/-- Code points that count as white space. -/
def Blank.table : Ranges :=
  [(0x9, 0xD), (0x1C, 0x20), (0x85, 0x85), (0xA0, 0xA0), (0x1680, 0x1680), (0x2000, 0x200A),
    (0x2028, 0x2029), (0x202F, 0x202F), (0x205F, 0x205F), (0x3000, 0x3000)]

/-- Whether a character is white space. -/
def isBlank (c : Char) : Bool := Blank.table.holds c

/-- Remove the characters of a class from both ends. -/
def trimWhile (drops : Char → Bool) (text : List Char) : List Char :=
  ((text.dropWhile drops).reverse.dropWhile drops).reverse

/-- Remove white space from both ends. -/
def trim (text : String) : String := String.ofList (trimWhile isBlank text.toList)

/-- Whether a text has no character but white space. -/
def isBlankText (text : String) : Bool := text.toList.all isBlank

/-! ## Decimal digits -/

/-- The zero of each script's row of ten decimal digits, lowest first. -/
def Digit.zeros : List Nat :=
  [0x30, 0x660, 0x6F0, 0x7C0, 0x966, 0x9E6, 0xA66, 0xAE6, 0xB66, 0xBE6, 0xC66, 0xCE6, 0xD66,
    0xDE6, 0xE50, 0xED0, 0xF20, 0x1040, 0x1090, 0x17E0, 0x1810, 0x1946, 0x19D0, 0x1A80, 0x1A90,
    0x1B50, 0x1BB0, 0x1C40, 0x1C50, 0xA620, 0xA8D0, 0xA900, 0xA9D0, 0xA9F0, 0xAA50, 0xABF0,
    0xFF10, 0x104A0, 0x10D30, 0x11066, 0x110F0, 0x11136, 0x111D0, 0x112F0, 0x11450, 0x114D0,
    0x11650, 0x116C0, 0x11730, 0x118E0, 0x11950, 0x11C50, 0x11D50, 0x11DA0, 0x16A60, 0x16AC0,
    0x16B50, 0x1D7CE, 0x1D7D8, 0x1D7E2, 0x1D7EC, 0x1D7F6, 0x1E140, 0x1E2F0, 0x1E950, 0x1FBF0]

/-- The value of a decimal digit, `none` for any other character. -/
def digitValue? (c : Char) : Option Nat :=
  (Digit.zeros.find? fun first => decide (first ≤ c.toNat) && decide (c.toNat < first + 10)).map
    (c.toNat - ·)

/-- Whether a character is a decimal digit. -/
def isDigit (c : Char) : Bool := (digitValue? c).isSome

theorem digitValue?_lt {c : Char} {value : Nat} (found : digitValue? c = some value) :
    value < 10 := by
  unfold digitValue? at found
  obtain ⟨first, hit, rfl⟩ := Option.map_eq_some_iff.1 found
  have holds := List.find?_some hit
  simp only [Bool.and_eq_true, decide_eq_true_eq] at holds
  omega

end ExprLang.Text
