/-
# ExprLang.Proofs.Settings — which settings are accepted

Which texts stand for an integer is said by a small grammar (`Decimal.Denotes`): white
space, a sign or none, digits with single underscores between them, white space. It
does not say how such a text is found; `Decimal.read?` reads exactly these texts, each
as the integer it stands for (`read?_eq_some_iff`).

With that, what a limit may be set to (`Settings.Sets`) and what is said about a
variable that sets it to anything else (`Settings.Refuses`) are statements about the
variable alone. The settings are loaded when all three limits are set, and otherwise
the first that is not is reported (`Settings.load_exact`). Two notions of white space
meet here: a text is blank in the wide sense of `Text.isBlank`, while the white space
around an integer is the narrower `Decimal.isMargin`.
-/
import ExprLang.Proofs.Decimal
import ExprLang.Settings

namespace ExprLang

set_option autoImplicit false

/-! ## Texts that stand for an integer -/

namespace Decimal

/-- Digits, with single underscores between some of them, and their values in order. -/
inductive Digits : List Char → List Nat → Prop where
  | last {c : Char} {value : Nat} (digit : Text.digitValue? c = some value) : Digits [c] [value]
  | next {c : Char} {value : Nat} {text : List Char} {values : List Nat}
      (digit : Text.digitValue? c = some value) (later : Digits text values) :
      Digits (c :: text) (value :: values)
  | underscore {c : Char} {value : Nat} {text : List Char} {values : List Nat}
      (digit : Text.digitValue? c = some value) (later : Digits text values) :
      Digits (c :: '_' :: text) (value :: values)

/-- The sign of an integer, which may be left out. -/
inductive Sign where
  | none
  | plus
  | minus
  deriving DecidableEq, Repr

namespace Sign

def text : Sign → List Char
  | .none => []
  | .plus => ['+']
  | .minus => ['-']

/-- The integer of a sign and a magnitude. -/
def of : Sign → Nat → Int
  | .minus, number => -number
  | _, number => number

end Sign

/-- A text stands for an integer: it has at most as many digits as can be read, and
nothing but white space around them and their sign. -/
inductive Denotes : String → Int → Prop where
  | intro {before body after : List Char} {values : List Nat} (sign : Sign)
      (margin : ∀ c ∈ before, isMargin c = true) (digits : Digits body values)
      (short : values.length ≤ digitLimit) (margin' : ∀ c ∈ after, isMargin c = true) :
      Denotes (String.ofList (before ++ (sign.text ++ body) ++ after))
        (sign.of (ofDigits values))

theorem isDigit_of_value {c : Char} {value : Nat} (digit : Text.digitValue? c = some value) :
    Text.isDigit c = true := by
  rw [Text.isDigit, digit]
  rfl

namespace Digits

variable {text : List Char} {values : List Nat}

theorem head (digits : Digits text values) :
    ∃ c rest, text = c :: rest ∧ Text.isDigit c = true := by
  cases digits with
  | last digit => exact ⟨_, _, rfl, isDigit_of_value digit⟩
  | next digit _ => exact ⟨_, _, rfl, isDigit_of_value digit⟩
  | underscore digit _ => exact ⟨_, _, rfl, isDigit_of_value digit⟩

theorem getLast? (digits : Digits text values) :
    ∃ c, text.getLast? = some c ∧ Text.isDigit c = true := by
  induction digits with
  | last digit => exact ⟨_, rfl, isDigit_of_value digit⟩
  | next _ later ih | underscore _ later ih =>
      obtain ⟨c, lasts, digit⟩ := ih
      refine ⟨c, ?_, digit⟩
      simp [List.getLast?_cons, lasts]

/-- Digits are read one after the other, an underscore between two of them is passed. -/
theorem digitsFrom (digits : Digits text values) (gap : Bool) (found : List Nat) :
    Decimal.digitsFrom gap found text = some (found.reverse ++ values) := by
  induction digits generalizing gap found with
  | @last c value digit =>
      have plain : c ≠ '_' := ne_of_isDigit (isDigit_of_value digit) (by decide)
      simp [Decimal.digitsFrom, plain, digit]
  | @next c value text values digit later ih =>
      have plain : c ≠ '_' := ne_of_isDigit (isDigit_of_value digit) (by decide)
      simp [Decimal.digitsFrom, plain, digit, ih]
  | @underscore c value text values digit later ih =>
      have plain : c ≠ '_' := ne_of_isDigit (isDigit_of_value digit) (by decide)
      simp [Decimal.digitsFrom, plain, digit, ih]

theorem lt_ten (digits : Digits text values) : ∀ value ∈ values, value < 10 := by
  induction digits with
  | last digit => exact List.forall_mem_singleton.2 (Text.digitValue?_lt digit)
  | next digit _ ih | underscore digit _ ih =>
      exact List.forall_mem_cons.2 ⟨Text.digitValue?_lt digit, ih⟩

end Digits

/-- What is read as digits: after a digit there may be nothing more or an underscore,
elsewhere there are digits. -/
theorem digits_of_digitsFrom {gap : Bool} {found values : List Nat} {text : List Char}
    (read : digitsFrom gap found text = some values) :
    (∃ later, Digits text later ∧ values = found.reverse ++ later) ∨
      gap = false ∧ (text = [] ∧ values = found.reverse ∨ ∃ rest later,
        text = '_' :: rest ∧ Digits rest later ∧ values = found.reverse ++ later) := by
  induction text generalizing gap found with
  | nil =>
      cases gap with
      | true => cases read
      | false => exact .inr ⟨rfl, .inl ⟨rfl, (Option.some.inj read).symm⟩⟩
  | cons c rest ih =>
      rw [digitsFrom] at read
      by_cases underscore : c = '_'
      · rw [if_pos underscore] at read
        cases gap with
        | true => cases read
        | false =>
            rcases ih read with ⟨later, digits, same⟩ | ⟨impossible, -⟩
            · exact .inr ⟨rfl, .inr ⟨rest, later, by rw [underscore], digits, same⟩⟩
            · cases impossible
      · rw [if_neg underscore] at read
        cases digit : Text.digitValue? c with
        | none =>
            rw [digit] at read
            cases read
        | some value =>
            rw [digit] at read
            have step (later : List Nat) : (value :: found).reverse ++ later =
                found.reverse ++ value :: later := by simp
            rcases ih read with
              ⟨later, digits, rfl⟩ | ⟨-, ⟨rfl, rfl⟩ | ⟨_, later, rfl, digits, rfl⟩⟩
            · exact .inl ⟨value :: later, .next digit digits, step later⟩
            · exact .inl ⟨[value], .last digit, by simp⟩
            · exact .inl ⟨value :: later, .underscore digit digits, step later⟩

theorem readNat?_eq_some_iff {text : List Char} {number : Nat} :
    readNat? text = some number ↔
      ∃ values, Digits text values ∧ values.length ≤ digitLimit ∧ number = ofDigits values := by
  constructor
  · intro read
    unfold readNat? at read
    split at read
    · cases read
    · next values found =>
        split at read
        · next short =>
            rcases digits_of_digitsFrom found with ⟨later, digits, same⟩ | ⟨impossible, -⟩
            · obtain rfl : values = later := same
              exact ⟨values, digits, short, (Option.some.inj read).symm⟩
            · cases impossible
        · cases read
  · rintro ⟨values, digits, short, rfl⟩
    have found : digitsFrom true [] text = some values := digits.digitsFrom true []
    rw [readNat?, found]
    exact if_pos short

/-! ## White space around it -/

/-- What is trimmed off a text is of the class, on both ends. -/
theorem trimWhile_split (drops : Char → Bool) (text : List Char) :
    ∃ before after, text = before ++ Text.trimWhile drops text ++ after ∧
      (∀ c ∈ before, drops c = true) ∧ ∀ c ∈ after, drops c = true := by
  let rest := text.dropWhile drops
  have all (run : List Char) : ∀ c ∈ run.takeWhile drops, drops c = true :=
    List.all_eq_true.1 List.all_takeWhile
  refine ⟨text.takeWhile drops, (rest.reverse.takeWhile drops).reverse, ?_, all text,
    fun c member => all rest.reverse c (List.mem_reverse.1 member)⟩
  have ends : rest = (rest.reverse.dropWhile drops).reverse ++
      (rest.reverse.takeWhile drops).reverse := by
    rw [← List.reverse_append, List.takeWhile_append_dropWhile, List.reverse_reverse]
  rw [Text.trimWhile, List.append_assoc, ← ends, List.takeWhile_append_dropWhile]

/-- A text that starts and ends outside of the class is left when what surrounds it is
trimmed off. -/
theorem trimWhile_surrounded {drops : Char → Bool} {before core after : List Char}
    (first : ∃ c rest, core = c :: rest ∧ drops c = false)
    (last : ∃ c, core.getLast? = some c ∧ drops c = false)
    (trimmed : ∀ c ∈ before, drops c = true) (trimmed' : ∀ c ∈ after, drops c = true) :
    Text.trimWhile drops (before ++ core ++ after) = core := by
  have front : (before ++ core ++ after).dropWhile drops = core ++ after := by
    obtain ⟨c, rest, rfl, stays⟩ := first
    rw [List.append_assoc, List.dropWhile_append_of_pos trimmed]
    simp [stays]
  have back : (core ++ after).reverse.dropWhile drops = core.reverse := by
    obtain ⟨c, lasts, stays⟩ := last
    obtain ⟨rest, rfl⟩ := List.getLast?_eq_some_iff.1 lasts
    rw [List.reverse_append, List.dropWhile_append_of_pos fun c member =>
      trimmed' c (List.mem_reverse.1 member)]
    simp [stays]
  rw [Text.trimWhile, front, back, List.reverse_reverse]

theorem trimWhile_signed {before body after : List Char} {values : List Nat} (sign : Sign)
    (margin : ∀ c ∈ before, isMargin c = true) (digits : Digits body values)
    (margin' : ∀ c ∈ after, isMargin c = true) :
    Text.trimWhile isMargin (before ++ (sign.text ++ body) ++ after) = sign.text ++ body := by
  obtain ⟨c, rest, rfl, digit⟩ := digits.head
  obtain ⟨c', lasts, digit'⟩ := digits.getLast?
  refine trimWhile_surrounded ?_ ⟨c', ?_, isMargin_of_isDigit digit'⟩ margin margin'
  · cases sign with
    | none => exact ⟨c, rest, rfl, isMargin_of_isDigit digit⟩
    | plus => exact ⟨'+', _, rfl, by decide⟩
    | minus => exact ⟨'-', _, rfl, by decide⟩
  · rw [List.getLast?_append, lasts]
    rfl

/-- A list of characters with a sign of its own in front, or with none. -/
theorem exists_sign (core : List Char) : ∃ sign : Sign, ∃ body, core = sign.text ++ body ∧
    (sign = .none → ∀ rest, body ≠ '-' :: rest ∧ body ≠ '+' :: rest) := by
  by_cases minus : ∃ rest, core = '-' :: rest
  · obtain ⟨rest, rfl⟩ := minus
    exact ⟨.minus, rest, rfl, nofun⟩
  by_cases plus : ∃ rest, core = '+' :: rest
  · obtain ⟨rest, rfl⟩ := plus
    exact ⟨.plus, rest, rfl, nofun⟩
  · exact ⟨.none, core, rfl, fun _ rest =>
      ⟨fun same => minus ⟨rest, same⟩, fun same => plus ⟨rest, same⟩⟩⟩

/-- The sign is taken off first, and what it leaves is read without one. -/
theorem read?_of_trimmed {text : String} {sign : Sign} {body : List Char}
    (trimmed : Text.trimWhile isMargin text.toList = sign.text ++ body)
    (bare : sign = .none → ∀ rest, body ≠ '-' :: rest ∧ body ≠ '+' :: rest) :
    read? text = (readNat? body).map sign.of := by
  rw [read?, trimmed]
  cases sign with
  | minus | plus =>
      simp only [Sign.text, List.cons_append, List.nil_append]
      cases readNat? body <;> rfl
  | none =>
      simp only [Sign.text, List.nil_append]
      split
      · next rest => exact absurd rfl (bare rfl rest).1
      · next rest => exact absurd rfl (bare rfl rest).2
      · cases readNat? body <;> rfl

/-- **Exactly the texts of integers are read**, each as its integer. -/
theorem read?_eq_some_iff {text : String} {value : Int} :
    read? text = some value ↔ Denotes text value := by
  constructor
  · intro read
    obtain ⟨before, after, split, margin, margin'⟩ := trimWhile_split isMargin text.toList
    obtain ⟨sign, body, trimmed, bare⟩ := exists_sign (Text.trimWhile isMargin text.toList)
    rw [read?_of_trimmed trimmed bare] at read
    obtain ⟨number, numeral, rfl⟩ := Option.map_eq_some_iff.1 read
    obtain ⟨values, digits, short, rfl⟩ := readNat?_eq_some_iff.1 numeral
    rw [trimmed] at split
    rw [← String.ofList_toList (s := text), split]
    exact .intro sign margin digits short margin'
  · rintro ⟨sign, margin, digits, short, margin'⟩
    have trimmed := (congrArg (Text.trimWhile isMargin) String.toList_ofList).trans
      (trimWhile_signed sign margin digits margin')
    have numeral := readNat?_eq_some_iff.2 ⟨_, digits, short, rfl⟩
    rw [read?_of_trimmed trimmed fun _ rest => ?_, numeral]
    · rfl
    · obtain ⟨c, _, rfl, digit⟩ := digits.head
      exact ⟨fun same => ne_of_isDigit digit (by decide) (List.cons.inj same).1,
        fun same => ne_of_isDigit digit (by decide) (List.cons.inj same).1⟩

theorem Denotes.writable {text : String} {value : Int} (denotes : Denotes text value) :
    Writable value := by
  cases denotes with
  | intro sign _ digits short _ =>
      refine writable_of_digits digits.lt_ten short ?_
      cases sign with
      | minus => exact Int.natAbs_neg _
      | _ => rfl

/-- The text of an integer has a character that is no white space, also in the wide
sense. -/
theorem Denotes.not_blank {text : String} {value : Int} (denotes : Denotes text value) :
    ¬ ∀ c ∈ text.toList, Text.isBlank c = true := by
  rintro blank
  obtain ⟨sign, margin, digits, short, margin'⟩ := denotes
  obtain ⟨c, rest, rfl, digit⟩ := digits.head
  have held := blank c (by simp)
  rw [Text.isBlank, Text.Ranges.holds_iff] at held
  obtain ⟨range, listed, low, high⟩ := held
  have apart : ∀ first ∈ Text.Digit.zeros, ∀ range ∈ Text.Blank.table,
      first + 9 < range.1 ∨ range.2 < first := by decide
  obtain ⟨first, member, row⟩ := row_of_isDigit digit
  rcases apart first member range listed with gap | gap <;> omega

end Decimal

/-! ## Settings -/

/-- The limits in the order in which they are read. -/
def LimitName.order : List LimitName := [.nesting, .callDepth, .evalDepth]

namespace Settings

/-- The value of a limit. -/
def limit (settings : Settings) : LimitName → Int
  | .nesting => settings.maxNesting
  | .callDepth => settings.maxCallDepth
  | .evalDepth => settings.maxEvalDepth

/-- The value that the variables give to a limit: the default, if the variable is not
set or holds white space only, or else the positive integer that its text stands for. -/
inductive Sets (environment : Variables) (limit : LimitName) : Int → Prop where
  | absent (unset : environment limit.variableName = none) : Sets environment limit limit.default
  | blank {text : String} (found : environment limit.variableName = some text)
      (white : ∀ c ∈ text.toList, Text.isBlank c = true) : Sets environment limit limit.default
  | integer {text : String} {value : Int} (found : environment limit.variableName = some text)
      (denotes : Decimal.Denotes text value) (positive : 0 < value) :
      Sets environment limit value

/-- What is said about a variable that gives no value to its limit. -/
inductive Refuses (environment : Variables) (limit : LimitName) : String → Prop where
  | notAnInteger {text : String} (found : environment limit.variableName = some text)
      (written : ¬ ∀ c ∈ text.toList, Text.isBlank c = true)
      (none : ∀ value, ¬ Decimal.Denotes text value) :
      Refuses environment limit
        (limit.variableName ++ " must be an integer, got '" ++ text ++ "'")
  | notPositive {text : String} {value : Int} (found : environment limit.variableName = some text)
      (denotes : Decimal.Denotes text value) (least : value ≤ 0) :
      Refuses environment limit (limit.variableName ++ " must be positive, got " ++ toString value)

variable {environment : Variables} {limit : LimitName} {settings : Settings} {value : Int}

theorem isBlankText_iff {text : String} :
    Text.isBlankText text = true ↔ ∀ c ∈ text.toList, Text.isBlank c = true :=
  List.all_eq_true

/-- A text with something in it is read for its integer. -/
theorem readLimit_of_text {text : String} (found : environment limit.variableName = some text)
    (written : ¬ ∀ c ∈ text.toList, Text.isBlank c = true) :
    readLimit environment limit =
      match Decimal.read? text with
      | none => .error (.notAnInteger limit text)
      | some value => if 0 < value then .ok value else .error (.notPositive limit value) := by
  rw [readLimit, found]
  exact if_neg fun blank => written (isBlankText_iff.1 blank)

theorem Sets.readLimit (sets : Sets environment limit value) :
    Settings.readLimit environment limit = .ok value := by
  cases sets with
  | absent unset => rw [Settings.readLimit, unset]
  | blank found white =>
      rw [Settings.readLimit, found]
      exact if_pos (isBlankText_iff.2 white)
  | integer found denotes positive =>
      rw [readLimit_of_text found denotes.not_blank, Decimal.read?_eq_some_iff.2 denotes]
      exact if_pos positive

/-- Reading a limit gives the value that it is set to, or says what is wrong. -/
theorem readLimit_cases (environment : Variables) (limit : LimitName) :
    (∃ value, readLimit environment limit = .ok value ∧ Sets environment limit value) ∨
      ∃ error, readLimit environment limit = .error error ∧
        Refuses environment limit error.message := by
  cases found : environment limit.variableName with
  | none =>
      have sets := Sets.absent found
      exact .inl ⟨_, sets.readLimit, sets⟩
  | some text =>
      by_cases white : ∀ c ∈ text.toList, Text.isBlank c = true
      · have sets := Sets.blank found white
        exact .inl ⟨_, sets.readLimit, sets⟩
      · rw [readLimit_of_text found white]
        cases read : Decimal.read? text with
        | none =>
            refine .inr ⟨_, rfl, .notAnInteger found white fun value denotes => ?_⟩
            rw [Decimal.read?_eq_some_iff.2 denotes] at read
            cases read
        | some value =>
            have denotes := Decimal.read?_eq_some_iff.1 read
            by_cases positive : 0 < value
            · exact .inl ⟨value, if_pos positive, .integer found denotes positive⟩
            · exact .inr ⟨_, if_neg positive, .notPositive found denotes (Int.not_lt.1 positive)⟩

theorem readLimit_eq_ok_iff : readLimit environment limit = .ok value ↔
    Sets environment limit value := by
  refine ⟨fun read => ?_, Sets.readLimit⟩
  rcases readLimit_cases environment limit with ⟨other, read', sets⟩ | ⟨error, read', -⟩
  · cases read.symm.trans read'
    exact sets
  · cases read.symm.trans read'

/-- A variable is refused for one reason only, and not when it sets its limit. -/
theorem Refuses.readLimit {message : String} (refuses : Refuses environment limit message) :
    ∃ error, Settings.readLimit environment limit = .error error ∧ error.message = message := by
  cases refuses with
  | @notAnInteger text found written none =>
      have read : Decimal.read? text = .none := Option.eq_none_iff_forall_ne_some.2
        fun value read => none value (Decimal.read?_eq_some_iff.1 read)
      refine ⟨.notAnInteger limit text, ?_, rfl⟩
      rw [readLimit_of_text found written, read]
  | @notPositive text value found denotes least =>
      refine ⟨.notPositive limit value, ?_, rfl⟩
      rw [readLimit_of_text found denotes.not_blank, Decimal.read?_eq_some_iff.2 denotes]
      exact if_neg (Int.not_lt.2 least)

theorem readLimit_error_iff {message : String} :
    (∃ error, readLimit environment limit = .error error ∧ error.message = message) ↔
      Refuses environment limit message := by
  refine ⟨fun ⟨error, read, same⟩ => ?_, Refuses.readLimit⟩
  rcases readLimit_cases environment limit with ⟨value, read', -⟩ | ⟨other, read', refuses⟩
  · cases read.symm.trans read'
  · cases read.symm.trans read'
    exact same ▸ refuses

/-- Every value that a limit can be set to is at least one, the defaults included. -/
theorem Sets.one_le (sets : Sets environment limit value) : 1 ≤ value := by
  cases sets with
  | absent _ | blank _ _ => cases limit <;> decide
  | integer _ _ positive => exact positive

theorem Sets.writable (sets : Sets environment limit value) : Decimal.Writable value := by
  cases sets with
  | absent _ | blank _ _ => cases limit <;> decide +kernel
  | integer _ denotes _ => exact denotes.writable

/-- Whether the variables turn debugging on. -/
def debugs (environment : Variables) : Bool :=
  (environment debugVariable).any fun text => !text.isEmpty

theorem debugs_iff : debugs environment = true ↔
    ∃ text, environment debugVariable = some text ∧ text ≠ "" := by
  simp [debugs, Option.any_eq_true]

/-- The limits are read one after the other, up to the first that is refused. -/
theorem load_eq (environment : Variables) : load environment =
    match readLimit environment .nesting with
    | .error error => .error error
    | .ok nesting =>
      match readLimit environment .callDepth with
      | .error error => .error error
      | .ok calls =>
        match readLimit environment .evalDepth with
        | .error error => .error error
        | .ok depth => .ok ⟨debugs environment, nesting, calls, depth⟩ := by
  rw [load]
  rcases readLimit environment .nesting with error | nesting
  · rfl
  rcases readLimit environment .callDepth with error | calls
  · rfl
  rcases readLimit environment .evalDepth with error | depth <;> rfl

theorem load_eq_ok_iff : load environment = .ok settings ↔ settings.debug = debugs environment ∧
    ∀ limit, readLimit environment limit = .ok (settings.limit limit) := by
  constructor
  · intro loaded
    rw [load_eq] at loaded
    split at loaded
    · cases loaded
    split at loaded
    · cases loaded
    split at loaded
    · cases loaded
    · cases loaded
      refine ⟨rfl, fun limit => ?_⟩
      cases limit <;> assumption
  · rintro ⟨debug, limits⟩
    rw [load_eq, limits .nesting, limits .callDepth, limits .evalDepth, ← debug]
    rfl

/-- Each of the limits can be written. -/
def Writable (settings : Settings) : Prop := ∀ limit, Decimal.Writable (settings.limit limit)

theorem standard_writable : standard.Writable := by
  intro limit
  cases limit <;> decide +kernel

/-- Limits that were loaded can be written, as they were read. -/
theorem load_writable (loaded : load environment = .ok settings) : settings.Writable :=
  fun limit => (readLimit_eq_ok_iff.1 ((load_eq_ok_iff.1 loaded).2 limit)).writable

theorem load_eq_error_iff {error : SettingsError} : load environment = .error error ↔
    ∃ earlier limit later, LimitName.order = earlier ++ limit :: later ∧
      (∀ other ∈ earlier, ∃ value, readLimit environment other = .ok value) ∧
      readLimit environment limit = .error error := by
  rw [load_eq]
  constructor
  · intro refused
    cases first : readLimit environment .nesting with
    | error cause =>
        rw [first] at refused
        cases refused
        exact ⟨[], .nesting, [.callDepth, .evalDepth], rfl, by simp, first⟩
    | ok nesting =>
        cases second : readLimit environment .callDepth with
        | error cause =>
            rw [first, second] at refused
            cases refused
            exact ⟨[.nesting], .callDepth, [.evalDepth], rfl, by simp [first], second⟩
        | ok calls =>
            cases third : readLimit environment .evalDepth with
            | error cause =>
                rw [first, second, third] at refused
                cases refused
                exact ⟨[.nesting, .callDepth], .evalDepth, [], rfl, by simp [first, second], third⟩
            | ok depth =>
                rw [first, second, third] at refused
                cases refused
  · rintro ⟨earlier, limit, later, order, passed, refused⟩
    -- The order has three places, and the refused limit is at one of them.
    rcases earlier with _ | ⟨first, _ | ⟨second, _ | ⟨third, rest⟩⟩⟩
    · obtain ⟨rfl, -⟩ := List.cons.inj order
      rw [refused]
    · simp only [LimitName.order, List.cons_append, List.nil_append, List.cons.injEq] at order
      obtain ⟨rfl, rfl, -⟩ := order
      obtain ⟨nesting, read⟩ := passed .nesting (by simp)
      rw [read, refused]
    · simp only [LimitName.order, List.cons_append, List.nil_append, List.cons.injEq] at order
      obtain ⟨rfl, rfl, rfl, -⟩ := order
      obtain ⟨nesting, read⟩ := passed .nesting (by simp)
      obtain ⟨calls, read'⟩ := passed .callDepth (by simp)
      rw [read, read', refused]
    · simp [LimitName.order] at order

/-- **Settings are accepted exactly when they are valid.** They are loaded when each
limit is set to a value, and then have these values, which are never less than one. If
some limit is refused, the message is about the first one in the order in which they
are read. No variable but the three that are named for the limits makes a difference
to them. -/
theorem load_exact (environment : Variables) :
    ((∃ settings, load environment = .ok settings) ↔
      ∀ limit, ∃ value, Sets environment limit value) ∧
    (∀ settings, load environment = .ok settings ↔
      (settings.debug = true ↔ ∃ text, environment debugVariable = some text ∧ text ≠ "") ∧
        ∀ limit, Sets environment limit (settings.limit limit)) ∧
    (∀ settings, load environment = .ok settings → ∀ limit, 1 ≤ settings.limit limit) ∧
    (∀ message, (∃ error, load environment = .error error ∧ error.message = message) ↔
      ∃ earlier limit later, LimitName.order = earlier ++ limit :: later ∧
        (∀ other ∈ earlier, ∃ value, Sets environment other value) ∧
        Refuses environment limit message) ∧
    (∀ other : Variables,
      (∀ limit : LimitName, other limit.variableName = environment limit.variableName) →
        (load other).map Settings.limit = (load environment).map Settings.limit) := by
  have loaded (settings : Settings) : load environment = .ok settings ↔
      settings.debug = debugs environment ∧
        ∀ limit, Sets environment limit (settings.limit limit) := by
    simp only [load_eq_ok_iff, readLimit_eq_ok_iff]
  refine ⟨⟨fun ⟨settings, came⟩ limit => ⟨_, ((loaded settings).1 came).2 limit⟩, fun sets => ?_⟩,
    fun settings => ?_, fun settings came limit => (((loaded settings).1 came).2 limit).one_le,
    fun message => ?_, fun other same => ?_⟩
  · obtain ⟨nesting, first⟩ := sets .nesting
    obtain ⟨calls, second⟩ := sets .callDepth
    obtain ⟨depth, third⟩ := sets .evalDepth
    refine ⟨⟨debugs environment, nesting, calls, depth⟩, (loaded _).2 ⟨rfl, fun limit => ?_⟩⟩
    cases limit <;> assumption
  · rw [loaded, ← debugs_iff, Bool.eq_iff_iff]
  · simp only [load_eq_error_iff, ← readLimit_error_iff, ← readLimit_eq_ok_iff]
    constructor
    · rintro ⟨error, ⟨earlier, limit, later, order, passed, refused⟩, said⟩
      exact ⟨earlier, limit, later, order, passed, error, refused, said⟩
    · rintro ⟨earlier, limit, later, order, passed, error, refused, said⟩
      exact ⟨error, ⟨earlier, limit, later, order, passed, refused⟩, said⟩
  · have read (limit : LimitName) : readLimit other limit = readLimit environment limit := by
      rw [readLimit, readLimit, same]
    rw [load_eq, load_eq, read, read, read]
    rcases readLimit environment .nesting with error | nesting
    · rfl
    rcases readLimit environment .callDepth with error | calls
    · rfl
    rcases readLimit environment .evalDepth with error | depth <;> rfl

end Settings

end ExprLang
