/-
# ExprLang.Proofs.Token.Spelled — reading a text piece by piece

What the lexer makes of a text that starts with a known piece: a symbol, a
keyword, a name or a numeral gives one token, a space gives none, and then the
lexer goes on with the rest (`tokensFrom`). Everything is on line one.

A word ends where a character comes that is part of no word. Which characters
may follow a word here is a short list (`Edge`), and before one of them it makes
no difference whether a word came before.
-/
import ExprLang.Proofs.Token.Lexed

namespace ExprLang

set_option autoImplicit false

/-- The tokens of what is left of a text, on line one. -/
def tokensFrom (afterWord : Bool) (text : List Char) : List Token :=
  Token.ofSegmentsOnto [] 1 (Segment.scanOnto [] afterWord text)

theorem tokenize_eq (source : String) : tokenize source = tokensFrom false source.toList := rfl

@[simp] theorem tokensFrom_nil (afterWord : Bool) :
    tokensFrom afterWord [] = [⟨.eof, "", 1⟩] := by
  simp [tokensFrom, Segment.scanOnto, Token.ofSegmentsOnto]

theorem Segment.scanOnto_eq (done : List Segment) (afterWord : Bool) (text : List Char) :
    scanOnto done afterWord text = done.reverse ++ scanOnto [] afterWord text := by
  induction size : text.length using Nat.strongRecOn generalizing done afterWord text with
  | ind size ih =>
      cases text with
      | nil => simp [scanOnto]
      | cons c others =>
          have shorter := length_first_lt afterWord c others
          rw [scanOnto, scanOnto, ih _ (size ▸ shorter) _ _ _ rfl,
            ih _ (size ▸ shorter) [_] _ _ rfl]
          simp

section Cut

variable {afterWord : Bool} {c : Char} {others text rest : List Char}

theorem tokensFrom_token {kind : TokenKind}
    (cut : Segment.first afterWord c others = (.token kind text, rest)) :
    tokensFrom afterWord (c :: others) =
      ⟨kind, String.ofList text, 1⟩ :: tokensFrom (text.getLast?.any Text.isWord) rest := by
  unfold tokensFrom
  rw [Segment.scanOnto, Segment.scanOnto_eq, cut]
  simp only [List.reverse_cons, List.reverse_nil, List.nil_append, List.singleton_append]
  rw [Token.ofSegmentsOnto, Token.ofSegmentsOnto_eq]
  rfl

theorem tokensFrom_blank
    (cut : Segment.first afterWord c others = (.blank text, rest)) :
    tokensFrom afterWord (c :: others) = tokensFrom (text.getLast?.any Text.isWord) rest := by
  unfold tokensFrom
  rw [Segment.scanOnto, Segment.scanOnto_eq, cut]
  rfl

end Cut

/-! ## Where a word ends -/

/-- A class that holds a word and not what follows takes the word and stops. -/
theorem takeWhile_eq {holds : Char → Bool} {word rest : List Char}
    (all : ∀ c ∈ word, holds c = true) (stops : ∀ c ∈ rest.head?, holds c = false) :
    (word ++ rest).takeWhile holds = word ∧ (word ++ rest).dropWhile holds = rest := by
  rw [List.takeWhile_append_of_pos all, List.dropWhile_append_of_pos all]
  cases rest with
  | nil => simp
  | cons c rest =>
      have stop : ¬ holds c = true := by simp [stops c rfl]
      simp [List.takeWhile_cons_of_neg stop, List.dropWhile_cons_of_neg stop]

/-- Characters that end a word. -/
def edges : List Char :=
  [' ', '\t', '\r', '\n', '#', '(', ')', ',', ';', '+', '-', '*', '/']

/-- The text is over, or goes on with a character that ends a word. -/
def Edge (rest : List Char) : Prop := ∀ c ∈ rest.head?, c ∈ edges

namespace Edge

variable {c : Char} {rest : List Char}

@[simp] theorem cons_iff :
    Edge (c :: rest) ↔
      c ∈ [' ', '\t', '\r', '\n', '#', '(', ')', ',', ';', '+', '-', '*', '/'] := by
  simp [Edge, edges]

/-- A class with none of the ending characters stops at an edge. -/
theorem not_of_any {holds : Char → Bool} (edge : Edge rest)
    (none : edges.any holds = false) :
    ∀ c ∈ rest.head?, holds c = false := by
  intro c next
  exact Bool.eq_false_iff.2 (List.any_eq_false.1 none c (edge c next))

theorem not_word (edge : Edge rest) : ∀ c ∈ rest.head?, Text.isWord c = false :=
  edge.not_of_any (by decide +kernel)

theorem not_name (edge : Edge rest) : ∀ c ∈ rest.head?, Text.isNameChar c = false :=
  edge.not_of_any (by decide)

theorem not_digit (edge : Edge rest) : ∀ c ∈ rest.head?, Text.isDigit c = false :=
  edge.not_of_any (by decide)

/-- Before an edge it does not matter what came before. -/
theorem tokensFrom_eq (edge : Edge rest) (afterWord : Bool) :
    tokensFrom afterWord rest = tokensFrom false rest := by
  cases rest with
  | nil => simp
  | cons c others =>
      have same : Segment.first afterWord c others = Segment.first false c others := by
        have noName := edge.not_name c rfl
        have noStart : ¬ Text.isNameStart c = true := fun start => by
          rw [Text.isNameChar_of_isNameStart start] at noName
          cases noName
        unfold Segment.first
        rw [if_neg noStart, if_neg noStart]
      unfold tokensFrom
      rw [Segment.scanOnto, Segment.scanOnto, same]

end Edge

/-! ## One piece -/

/-- The token of a keyword, an operator or a delimiter, on line one. -/
def Token.sign (kind : TokenKind) : Token := ⟨kind, kind.spelling?.getD "", 1⟩

/-- The token of a name, on line one. -/
def Token.word (name : String) : Token := ⟨.identifier, name, 1⟩

theorem spacing_not_word {c : Char} (spacing : Segment.isSpacing c = true) :
    Text.isWord c = false := by
  simp only [Segment.isSpacing, Bool.or_eq_true, beq_iff_eq] at spacing
  rcases spacing with (rfl | rfl) | rfl <;> decide +kernel

/-- A run of blanks is passed over whole. -/
theorem tokensFrom_spacing (afterWord : Bool) {c : Char} (rest : List Char)
    (spacing : Segment.isSpacing c = true) :
    tokensFrom afterWord (c :: rest) = tokensFrom false (rest.dropWhile Segment.isSpacing) := by
  have cut : Segment.first afterWord c rest =
      (.blank (c :: rest.takeWhile Segment.isSpacing), rest.dropWhile Segment.isSpacing) := by
    simp only [Segment.isSpacing, Bool.or_eq_true, beq_iff_eq] at spacing
    rcases spacing with (rfl | rfl) | rfl <;> rfl
  have last : (c :: rest.takeWhile Segment.isSpacing).getLast?.any Text.isWord = false := by
    cases final : (c :: rest.takeWhile Segment.isSpacing).getLast? with
    | none => rfl
    | some other =>
        refine spacing_not_word ?_
        rcases List.mem_cons.1 (List.mem_of_getLast? final) with rfl | member
        · exact spacing
        · exact List.all_eq_true.1 List.all_takeWhile other member
  rw [tokensFrom_blank cut, last]

/-- So each of them may be passed over on its own. -/
theorem tokensFrom_blank_cons (afterWord : Bool) {c : Char} (rest : List Char)
    (spacing : Segment.isSpacing c = true) :
    tokensFrom afterWord (c :: rest) = tokensFrom false rest := by
  rw [tokensFrom_spacing afterWord rest spacing]
  cases rest with
  | nil => rfl
  | cons next others =>
      by_cases spacing' : Segment.isSpacing next = true
      · rw [List.dropWhile_cons_of_pos spacing', tokensFrom_spacing false others spacing']
      · rw [List.dropWhile_cons_of_neg spacing']

@[simp] theorem tokensFrom_space (afterWord : Bool) (rest : List Char) :
    tokensFrom afterWord (' ' :: rest) = tokensFrom false rest :=
  tokensFrom_blank_cons afterWord rest rfl

/-- The characters that operators and delimiters are made of. -/
def symbolCharacters : List Char :=
  ['=', '!', '<', '>', '+', '-', '*', '/', '(', ')', '{', '}', ',', ';']

section Symbols

variable {c : Char} {rest : List Char} {kind : TokenKind}

theorem first_symbol (afterWord : Bool) {more : Nat} (member : c ∈ symbolCharacters)
    (found : Segment.symbol? c rest.head? = some (kind, more)) :
    Segment.first afterWord c rest = (.token kind (c :: rest.take more), rest.drop more) := by
  have others : symbolCharacters.all (fun c => !Text.isNameStart c && c != '\n' &&
      !Segment.isSpacing c && c != '#') = true := by decide
  have other := List.all_eq_true.1 others c member
  simp only [Bool.and_eq_true, Bool.not_eq_true', bne_iff_ne] at other
  obtain ⟨⟨⟨noName, noLine⟩, noSpace⟩, noComment⟩ := other
  unfold Segment.first
  rw [noName, if_neg Bool.false_ne_true, if_neg noLine, noSpace, if_neg Bool.false_ne_true,
    if_neg noComment, found]

theorem symbol_not_word (member : c ∈ symbolCharacters) : Text.isWord c = false := by
  have none : symbolCharacters.any Text.isWord = false := by decide +kernel
  exact Bool.eq_false_iff.2 (List.any_eq_false.1 none c member)

theorem tokensFrom_single (afterWord : Bool) (member : c ∈ symbolCharacters)
    (found : Segment.symbol? c rest.head? = some (kind, 0)) :
    tokensFrom afterWord (c :: rest) = ⟨kind, String.ofList [c], 1⟩ :: tokensFrom false rest := by
  rw [tokensFrom_token (first_symbol afterWord member found)]
  simp [symbol_not_word member]

theorem tokensFrom_double (afterWord : Bool) (member : c ∈ symbolCharacters)
    (found : Segment.symbol? c (some '=') = some (kind, 1)) :
    tokensFrom afterWord (c :: '=' :: rest) =
      ⟨kind, String.ofList [c, '='], 1⟩ :: tokensFrom false rest := by
  have cut : Segment.first afterWord c ('=' :: rest) = _ := first_symbol afterWord member found
  have last : Text.isWord '=' = false := symbol_not_word (by decide)
  rw [tokensFrom_token cut]
  simp [last]

end Symbols

/-- The operators and delimiters. -/
def TokenKind.symbols : List TokenKind :=
  [.assign, .plus, .minus, .bang, .product, .divide, .equal, .notEqual, .less, .greater,
    .lessEqual, .greaterEqual, .leftParen, .rightParen, .leftBrace, .rightBrace, .comma, .semicolon]

/-- A symbol is read as such, unless it is one that takes in an equals sign after it. -/
theorem tokensFrom_sign (afterWord : Bool) {kind : TokenKind} {rest : List Char}
    (symbol : kind ∈ TokenKind.symbols) (apart : rest.head? ≠ some '=') :
    tokensFrom afterWord ((Token.sign kind).literal.toList ++ rest) =
      Token.sign kind :: tokensFrom false rest := by
  cases kind
  all_goals first
    | exact absurd symbol (by decide)
    | exact tokensFrom_single afterWord (by decide) rfl
    | exact tokensFrom_double afterWord (by decide) rfl
    | exact tokensFrom_single afterWord (by decide) (congrArg some (if_neg apart))

section Delimiters

variable (afterWord : Bool) (rest : List Char)

@[simp] theorem tokensFrom_leftParen :
    tokensFrom afterWord ('(' :: rest) = .sign .leftParen :: tokensFrom false rest :=
  tokensFrom_single afterWord (by decide) rfl

@[simp] theorem tokensFrom_rightParen :
    tokensFrom afterWord (')' :: rest) = .sign .rightParen :: tokensFrom false rest :=
  tokensFrom_single afterWord (by decide) rfl

@[simp] theorem tokensFrom_leftBrace :
    tokensFrom afterWord ('{' :: rest) = .sign .leftBrace :: tokensFrom false rest :=
  tokensFrom_single afterWord (by decide) rfl

@[simp] theorem tokensFrom_rightBrace :
    tokensFrom afterWord ('}' :: rest) = .sign .rightBrace :: tokensFrom false rest :=
  tokensFrom_single afterWord (by decide) rfl

@[simp] theorem tokensFrom_comma :
    tokensFrom afterWord (',' :: rest) = .sign .comma :: tokensFrom false rest :=
  tokensFrom_single afterWord (by decide) rfl

@[simp] theorem tokensFrom_semicolon :
    tokensFrom afterWord (';' :: rest) = .sign .semicolon :: tokensFrom false rest :=
  tokensFrom_single afterWord (by decide) rfl

@[simp] theorem tokensFrom_assign :
    tokensFrom afterWord ('=' :: ' ' :: rest) = .sign .assign :: tokensFrom false rest := by
  rw [← tokensFrom_space false rest]
  exact tokensFrom_single afterWord (by decide) rfl

end Delimiters

/-! ## Words -/

/-- The text of a name: a letter or an underscore, then letters, digits and
underscores, and no keyword. -/
def IsName (name : String) : Prop :=
  (∃ c others, name.toList = c :: others ∧ Text.isNameStart c = true ∧
    ∀ c ∈ others, Text.isNameChar c = true) ∧ TokenKind.keyword? name = none

/-- Name characters up to an edge are read as one word. -/
theorem tokensFrom_word (afterWord : Bool) {c : Char} {others rest : List Char}
    (starts : Text.isNameStart c = true) (all : ∀ c ∈ others, Text.isNameChar c = true)
    (edge : Edge rest) :
    tokensFrom afterWord (c :: others ++ rest) =
      ⟨Segment.wordKind afterWord (c :: others) rest, String.ofList (c :: others), 1⟩ ::
        tokensFrom false rest := by
  obtain ⟨taken, dropped⟩ := takeWhile_eq all edge.not_name
  have cut : Segment.first afterWord c (others ++ rest) =
      (.token (Segment.wordKind afterWord (c :: others) rest) (c :: others), rest) := by
    unfold Segment.first
    rw [if_pos starts, taken, dropped]
  rw [List.cons_append, tokensFrom_token cut, edge.tokensFrom_eq]

theorem tokensFrom_name {name : String} {rest : List Char} (isName : IsName name)
    (edge : Edge rest) :
    tokensFrom false (name.toList ++ rest) = Token.word name :: tokensFrom false rest := by
  obtain ⟨⟨c, others, spelled, starts, all⟩, free⟩ := isName
  have same : String.ofList (c :: others) = name := by
    rw [← spelled, String.ofList_toList]
  rw [spelled, tokensFrom_word false starts all edge, same]
  unfold Segment.wordKind
  rw [same, free]
  rfl

theorem tokensFrom_keyword (kind : TokenKind) {rest : List Char}
    (keyword : kind ∈ TokenKind.keywords) (edge : Edge rest) :
    tokensFrom false ((Token.sign kind).literal.toList ++ rest) =
      Token.sign kind :: tokensFrom false rest := by
  have shape : ∀ kind ∈ TokenKind.keywords, ∃ c others,
      (Token.sign kind).literal.toList = c :: others ∧ Text.isNameStart c = true ∧
        (∀ c ∈ others, Text.isNameChar c = true) ∧
        TokenKind.keyword? (Token.sign kind).literal = some kind := by
    intro kind member
    cases kind
    all_goals first
      | exact absurd member (by decide)
      | exact ⟨_, _, rfl, by decide, List.all_eq_true.1 (by decide), by decide +kernel⟩
  obtain ⟨c, others, spelled, starts, all, found⟩ := shape kind keyword
  have same : String.ofList (c :: others) = (Token.sign kind).literal := by
    rw [← spelled, String.ofList_toList]
  have ends : rest.head?.any Text.isWord = false := by
    have noWord := edge.not_word
    cases rest with
    | nil => rfl
    | cons next rest => exact noWord next rfl
  rw [spelled, tokensFrom_word false starts all edge, same]
  unfold Segment.wordKind
  rw [same, found, ends]
  rfl

section Keywords

variable {rest : List Char} (edge : Edge rest)

include edge

@[simp] theorem tokensFrom_let :
    tokensFrom false ('l' :: 'e' :: 't' :: rest) = .sign .letKeyword :: tokensFrom false rest :=
  tokensFrom_keyword .letKeyword (by decide) edge

@[simp] theorem tokensFrom_return :
    tokensFrom false ('r' :: 'e' :: 't' :: 'u' :: 'r' :: 'n' :: rest) =
      .sign .returnKeyword :: tokensFrom false rest :=
  tokensFrom_keyword .returnKeyword (by decide) edge

@[simp] theorem tokensFrom_if :
    tokensFrom false ('i' :: 'f' :: rest) = .sign .ifKeyword :: tokensFrom false rest :=
  tokensFrom_keyword .ifKeyword (by decide) edge

@[simp] theorem tokensFrom_else :
    tokensFrom false ('e' :: 'l' :: 's' :: 'e' :: rest) =
      .sign .elseKeyword :: tokensFrom false rest :=
  tokensFrom_keyword .elseKeyword (by decide) edge

@[simp] theorem tokensFrom_fn :
    tokensFrom false ('f' :: 'n' :: rest) = .sign .functionKeyword :: tokensFrom false rest :=
  tokensFrom_keyword .functionKeyword (by decide) edge

@[simp] theorem tokensFrom_true :
    tokensFrom false ('t' :: 'r' :: 'u' :: 'e' :: rest) =
      .sign .trueKeyword :: tokensFrom false rest :=
  tokensFrom_keyword .trueKeyword (by decide) edge

@[simp] theorem tokensFrom_false :
    tokensFrom false ('f' :: 'a' :: 'l' :: 's' :: 'e' :: rest) =
      .sign .falseKeyword :: tokensFrom false rest :=
  tokensFrom_keyword .falseKeyword (by decide) edge

end Keywords

/-! ## Numerals -/

/-- No digit of any script starts a name. -/
theorem isNameStart_of_isDigit {c : Char} (digit : Text.isDigit c = true) :
    Text.isNameStart c = false := by
  have apart : ∀ first ∈ Text.Digit.zeros, first + 10 ≤ 65 ∨ 122 < first := by decide
  obtain ⟨first, member, low, high⟩ := Decimal.row_of_isDigit digit
  have noMark : c ≠ '_' := Decimal.ne_of_isDigit digit (by decide)
  refine Bool.eq_false_iff.2 fun start => ?_
  change (decide ('A'.val ≤ c.val ∧ c.val ≤ 'Z'.val) ||
    decide ('a'.val ≤ c.val) && decide (c.val ≤ 'z'.val) || c == '_') = true at start
  simp only [UInt32.le_iff_toNat_le, Bool.or_eq_true, Bool.and_eq_true, decide_eq_true_eq,
    beq_iff_eq, noMark, or_false, Char.toNat_val] at start
  have letter : 65 ≤ c.toNat ∧ c.toNat ≤ 122 := by
    rcases start with ⟨above, below⟩ | ⟨above, below⟩
    · exact ⟨above, Nat.le_trans below (by decide)⟩
    · exact ⟨Nat.le_trans (by decide) above, below⟩
  rcases apart first member with gap | gap <;> omega

theorem symbol?_of_not_mem {c : Char} (absent : c ∉ symbolCharacters) (next : Option Char) :
    Segment.symbol? c next = none := by
  unfold Segment.symbol?
  split <;> first | rfl | exact absurd (by decide) absent

/-- A digit starts an integer, which takes in all the digits that follow. -/
theorem first_digit (afterWord : Bool) {c : Char} (others : List Char)
    (digit : Text.isDigit c = true) :
    Segment.first afterWord c others =
      (.token .int (c :: others.takeWhile Text.isDigit), others.dropWhile Text.isDigit) := by
  have other {c' : Char} (not : Text.isDigit c' = false) : c ≠ c' :=
    Decimal.ne_of_isDigit digit not
  have noSpace : Segment.isSpacing c = false := by
    simp only [Segment.isSpacing, Bool.or_eq_false_iff, beq_eq_false_iff_ne]
    exact ⟨⟨other (by decide), other (by decide)⟩, other (by decide)⟩
  have noSymbol : c ∉ symbolCharacters := by
    intro member
    have none : symbolCharacters.any Text.isDigit = false := by decide
    exact List.any_eq_false.1 none c member digit
  unfold Segment.first
  rw [isNameStart_of_isDigit digit, if_neg Bool.false_ne_true, if_neg (other (by decide)), noSpace,
    if_neg Bool.false_ne_true, if_neg (other (by decide)), symbol?_of_not_mem noSymbol,
    if_pos digit]

/-- A run of digits is read as one integer. -/
theorem tokensFrom_digits {text : String} {rest : List Char} (run : Decimal.Run text)
    (edge : Edge rest) :
    tokensFrom false (text.toList ++ rest) = ⟨.int, text, 1⟩ :: tokensFrom false rest := by
  obtain ⟨nonempty, digits⟩ := run
  obtain ⟨c, others, spelled⟩ := List.exists_cons_of_ne_nil nonempty
  have same : String.ofList (c :: others) = text := by
    rw [← spelled, String.ofList_toList]
  rw [spelled] at digits
  obtain ⟨taken, dropped⟩ := takeWhile_eq
    (fun other member => digits other (List.mem_cons_of_mem c member)) edge.not_digit
  have cut := first_digit false (others ++ rest) (digits c List.mem_cons_self)
  rw [taken, dropped] at cut
  rw [spelled, List.cons_append, tokensFrom_token cut, edge.tokensFrom_eq, same]

theorem tokensFrom_numeral (number : Nat) {rest : List Char} (edge : Edge rest) :
    tokensFrom false (number.repr.toList ++ rest) =
      ⟨.int, number.repr, 1⟩ :: tokensFrom false rest :=
  tokensFrom_digits (Decimal.run_repr number) edge

end ExprLang
