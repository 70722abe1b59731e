/-
# ExprLang.Proofs.Decimal — numerals that are a run of digits

What the lexer takes for an integer is a run of digits of any script, with no
sign, margin or underscore. Such a text is read as the number its digits stand
for, and it is read exactly when it is not too long (`read?_of_run`).
-/
import ExprLang.Decimal

namespace ExprLang

set_option autoImplicit false

namespace Decimal

/-- The number that the digits of a text stand for. -/
def numeral (text : String) : Nat := ofDigits (text.toList.filterMap Text.digitValue?)

/-- The text is a run of digits. -/
def Run (text : String) : Prop := text.toList ≠ [] ∧ ∀ c ∈ text.toList, Text.isDigit c = true

/-- A digit lies in the row of its script. -/
theorem row_of_isDigit {c : Char} (digit : Text.isDigit c = true) :
    ∃ first ∈ Text.Digit.zeros, first ≤ c.toNat ∧ c.toNat < first + 10 := by
  unfold Text.isDigit at digit
  obtain ⟨value, found⟩ := Option.isSome_iff_exists.1 digit
  unfold Text.digitValue? at found
  obtain ⟨first, hit, -⟩ := Option.map_eq_some_iff.1 found
  have row := List.find?_some hit
  simp only [Bool.and_eq_true, decide_eq_true_eq] at row
  exact ⟨first, List.mem_of_find?_eq_some hit, row⟩

theorem isMargin_of_isDigit {c : Char} (digit : Text.isDigit c = true) : isMargin c = false := by
  have apart : ∀ first ∈ Text.Digit.zeros, ∀ range ∈ Text.Blank.table,
      first + 9 < range.1 ∨ range.2 < first := by decide
  have high : ∀ first ∈ Text.Digit.zeros, 0x30 ≤ first := by decide
  obtain ⟨first, member, row⟩ := row_of_isDigit digit
  have low := high first member
  unfold isMargin
  split
  · have noSpace : c ≠ ' ' := by
      rintro rfl
      have : ' '.toNat = 0x20 := rfl
      omega
    simp [noSpace]
    omega
  · refine Bool.eq_false_iff.2 fun blank => ?_
    obtain ⟨range, listed, above, below⟩ := (Text.Ranges.holds_iff _ _).1 blank
    rcases apart first member range listed with gap | gap <;> omega

theorem ne_of_isDigit {c other : Char} (digit : Text.isDigit c = true)
    (not : Text.isDigit other = false) : c ≠ other := by
  rintro rfl
  rw [digit] at not
  cases not

/-- Reading digits one after the other gathers their values. -/
theorem digitsFrom_of_run (text : List Char) (gap : Bool) (values : List Nat)
    (digits : ∀ c ∈ text, Text.isDigit c = true) (ready : gap = true → text ≠ []) :
    digitsFrom gap values text =
      some (values.reverse ++ text.filterMap Text.digitValue?) := by
  induction text generalizing gap values with
  | nil =>
      cases gap with
      | false => simp [digitsFrom]
      | true => exact absurd rfl (ready rfl)
  | cons c rest ih =>
      have digit := digits c (by simp)
      obtain ⟨value, found⟩ := Option.isSome_iff_exists.1 digit
      have plain : c ≠ '_' := ne_of_isDigit digit (by decide)
      rw [digitsFrom, if_neg plain, found]
      simp only
      rw [ih false (value :: values) (fun other member => digits other (by simp [member])) nofun]
      simp [found]

theorem length_filterMap_digits (text : List Char)
    (digits : ∀ c ∈ text, Text.isDigit c = true) :
    (text.filterMap Text.digitValue?).length = text.length := by
  induction text with
  | nil => rfl
  | cons c rest ih =>
      obtain ⟨value, found⟩ := Option.isSome_iff_exists.1 (digits c (by simp))
      simp [found, ih fun other member => digits other (by simp [member])]

theorem trimWhile_of_run (text : List Char) (digits : ∀ c ∈ text, Text.isDigit c = true) :
    Text.trimWhile isMargin text = text := by
  have kept : ∀ run : List Char, (∀ c ∈ run, Text.isDigit c = true) →
      run.dropWhile isMargin = run := by
    intro run all
    cases run with
    | nil => rfl
    | cons c rest => simp [isMargin_of_isDigit (all c (by simp))]
  unfold Text.trimWhile
  rw [kept text digits, kept text.reverse (by simpa using digits), List.reverse_reverse]

/-- A run of digits is read as the number it stands for, unless it is too long. -/
theorem read?_of_run {text : String} (run : Run text) :
    read? text = if text.length ≤ digitLimit then some (numeral text : Int) else none := by
  obtain ⟨nonempty, digits⟩ := run
  have noMinus (c : Char) (member : c ∈ text.toList) : c ≠ '-' :=
    ne_of_isDigit (digits c member) (by decide)
  have noPlus (c : Char) (member : c ∈ text.toList) : c ≠ '+' :=
    ne_of_isDigit (digits c member) (by decide)
  have read : readNat? text.toList =
      if text.length ≤ digitLimit then some (numeral text) else none := by
    unfold readNat?
    rw [digitsFrom_of_run text.toList true [] digits fun _ => nonempty]
    simp only [List.reverse_nil, List.nil_append, length_filterMap_digits text.toList digits,
      String.length_toList]
    rfl
  unfold read?
  rw [trimWhile_of_run text.toList digits]
  split
  · next rest same => exact absurd rfl (noMinus '-' (by simp [same]))
  · next rest same => exact absurd rfl (noPlus '+' (by simp [same]))
  · rw [read]
    split <;> rfl

/-- So many digits stand for less than that power of ten. -/
theorem ofDigits_lt {values : List Nat} (digits : ∀ value ∈ values, value < 10) :
    ofDigits values < Nat.pow 10 values.length := by
  suffices bound : ∀ start, values.foldl (fun number value => 10 * number + value) start <
      (start + 1) * 10 ^ values.length by
    have small := bound 0
    rwa [Nat.zero_add, Nat.one_mul] at small
  induction values with
  | nil => intro start; simp
  | cons value values ih =>
      intro start
      have here := digits value (by simp)
      have later := ih (fun other member => digits other (by simp [member])) (10 * start + value)
      refine Nat.lt_of_lt_of_le later ?_
      rw [List.length_cons, Nat.pow_succ', ← Nat.mul_assoc]
      exact Nat.mul_le_mul_right _ (by omega)

/-- What was read from no more digits than the limit can be written. -/
theorem writable_of_digits {values : List Nat} (digits : ∀ value ∈ values, value < 10)
    (short : values.length ≤ digitLimit) {number : Int} (same : number.natAbs = ofDigits values) :
    Writable number := by
  unfold Writable tooLong
  rw [same]
  generalize digitLimit = limit at short ⊢
  exact Nat.lt_of_lt_of_le (ofDigits_lt digits) (Nat.pow_le_pow_right (by decide) short)

/-! ## Numerals that were written -/

theorem mem_of_isDigit {c : Char} (digit : c.isDigit = true) :
    c ∈ ['0', '1', '2', '3', '4', '5', '6', '7', '8', '9'] := by
  have row : ∀ n : Nat, 48 ≤ n → n ≤ 57 →
      Char.ofNat n ∈ ['0', '1', '2', '3', '4', '5', '6', '7', '8', '9'] := by
    intro n low high
    have one : n = 48 ∨ n = 49 ∨ n = 50 ∨ n = 51 ∨ n = 52 ∨ n = 53 ∨ n = 54 ∨ n = 55 ∨ n = 56 ∨
        n = 57 := by omega
    rcases one with rfl | rfl | rfl | rfl | rfl | rfl | rfl | rfl | rfl | rfl <;> decide
  obtain ⟨low, high⟩ := Char.isDigit_iff_toNat.1 digit
  rw [← Char.ofNat_toNat c]
  exact row c.toNat low high

theorem digitValue?_of_isDigit {c : Char} (digit : c.isDigit = true) :
    Text.digitValue? c = some (c.toNat - '0'.toNat) := by
  have values : ['0', '1', '2', '3', '4', '5', '6', '7', '8', '9'].all
      (fun c => Text.digitValue? c == some (c.toNat - '0'.toNat)) = true := by decide
  exact beq_iff_eq.1 (List.all_eq_true.1 values c (mem_of_isDigit digit))

theorem run_repr (number : Nat) : Run number.repr := by
  rw [Run, Nat.toList_repr]
  refine ⟨Nat.toDigits_ne_nil, fun c member => ?_⟩
  have digit := Nat.isDigit_of_mem_toDigits (by decide) (by decide) member
  simp [Text.isDigit, digitValue?_of_isDigit digit]

/-- A numeral that was written stands for the number it was written from. -/
theorem numeral_repr (number : Nat) : numeral number.repr = number := by
  have values (text : List Char) (digits : ∀ c ∈ text, c.isDigit = true) :
      text.filterMap Text.digitValue? = text.map fun c => c.toNat - '0'.toNat := by
    induction text with
    | nil => rfl
    | cons c rest ih =>
        rw [List.filterMap_cons, digitValue?_of_isDigit (digits c (by simp)), List.map_cons,
          ih fun other member => digits other (by simp [member])]
  have digits : ∀ c ∈ Nat.toDigits 10 number, c.isDigit = true := fun c member =>
    Nat.isDigit_of_mem_toDigits (by decide) (by decide) member
  unfold numeral ofDigits
  rw [Nat.toList_repr, values _ digits, List.foldl_map, ← Nat.ofDigitChars_eq_foldl,
    Nat.ofDigitChars_ten_toDigits]

/-- An integer can be written exactly when it has no more digits than the limit. -/
theorem writable_iff {number : Int} :
    Writable number ↔ (toString number.natAbs).length ≤ digitLimit := by
  have some : 0 < digitLimit := by decide
  unfold Writable tooLong
  generalize digitLimit = limit at some ⊢
  change _ ↔ (Nat.repr number.natAbs).length ≤ limit
  rw [← String.length_toList, Nat.toList_repr, Nat.pow_eq]
  exact (Nat.length_toDigits_le_iff (by decide) some).symm

/-- A number whose numeral is short enough is written. -/
theorem write?_of_length_le {number : Int} (natural : 0 ≤ number)
    (short : (toString number).length ≤ digitLimit) : write? number = some (toString number) := by
  obtain ⟨value, rfl⟩ := Int.eq_ofNat_of_zero_le natural
  have writable : Writable value := by
    rw [writable_iff, Int.natAbs_natCast]
    exact short
  exact if_pos writable

end Decimal

end ExprLang
