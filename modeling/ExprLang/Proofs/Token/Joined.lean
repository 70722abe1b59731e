/-
# ExprLang.Proofs.Token.Joined — the tokens of two texts one below the other

A line feed ends whatever stands before it: it belongs to no word, number, blank
or comment and goes with no symbol, and no word goes on after it. So two texts
with a line feed between them are cut where they meet, and the tokens are those
of the first, less its end of input, and then those of the second, which only
stand on later lines (`tokenize_joined`).
-/
import ExprLang.Proofs.Token.Spelled

namespace ExprLang

set_option autoImplicit false

/-- The token so many lines further down. -/
def Token.lower (amount : Int) (token : Token) : Token :=
  { token with line := token.line + amount }

namespace Segment

theorem takeWhile_append_newline (holds : Char → Bool) (stops : holds '\n' = false)
    (text rest : List Char) :
    (text ++ '\n' :: rest).takeWhile holds = text.takeWhile holds ∧
      (text ++ '\n' :: rest).dropWhile holds = text.dropWhile holds ++ '\n' :: rest := by
  induction text with
  | nil => simp [stops]
  | cons c text ih => by_cases held : holds c = true <;> simp [held, ih]

/-- A word ends before a line feed as it does at the end of the text. -/
theorem wordKind_append_newline (afterWord : Bool) (run left rest : List Char) :
    wordKind afterWord run (left ++ '\n' :: rest) = wordKind afterWord run left := by
  have apart : Text.isWord '\n' = false := by decide +kernel
  cases left with
  | nil => simp [wordKind, apart]
  | cons c left => simp [wordKind]

/-- No symbol takes in a line feed. -/
theorem symbol?_append_newline (c : Char) (others rest : List Char) :
    symbol? c (others ++ '\n' :: rest).head? = symbol? c others.head? ∧
      ∀ kind more, symbol? c others.head? = some (kind, more) → more ≤ others.length := by
  cases others with
  | cons next others =>
      refine ⟨rfl, fun kind more found => ?_⟩
      have least : more ≤ 1 := by
        unfold symbol? at found
        grind
      simp only [List.length_cons]
      omega
  | nil =>
      constructor
      · simp [symbol?]
      · intro kind more found
        unfold symbol? at found
        grind

/-- The first segment of a text is not changed by what stands below the text. -/
theorem first_append_newline (afterWord : Bool) (c : Char) (others rest : List Char) :
    first afterWord c (others ++ '\n' :: rest) =
      ((first afterWord c others).1, (first afterWord c others).2 ++ '\n' :: rest) := by
  have name := takeWhile_append_newline Text.isNameChar (by decide) others rest
  have spacing := takeWhile_append_newline isSpacing (by decide) others rest
  have inline := takeWhile_append_newline (· != '\n') (by decide) others rest
  have digit := takeWhile_append_newline Text.isDigit (by decide) others rest
  obtain ⟨symbol, short⟩ := symbol?_append_newline c others rest
  unfold first
  dsimp only
  rw [name.1, name.2, spacing.1, spacing.2, inline.1, inline.2, digit.1, digit.2, symbol,
    wordKind_append_newline]
  split
  · rfl
  split
  · rfl
  split
  · rfl
  split
  · rfl
  split
  · next kind more found =>
      have within := short kind more found
      rw [List.take_append_of_le_length within, List.drop_append_of_le_length within]
  split
  · rfl
  · rfl

theorem scanOnto_cons (afterWord : Bool) (c : Char) (others : List Char) :
    scanOnto [] afterWord (c :: others) =
      (first afterWord c others).1 ::
        scanOnto [] (first afterWord c others).1.endsInWord (first afterWord c others).2 := by
  rw [scanOnto, scanOnto_eq]
  rfl

/-- Two texts, one below the other, are cut apart. -/
theorem scanOnto_joined (afterWord : Bool) (text rest : List Char) :
    scanOnto [] afterWord (text ++ '\n' :: rest) =
      scanOnto [] afterWord text ++ .newline :: scanOnto [] false rest := by
  induction size : text.length using Nat.strongRecOn generalizing afterWord text with
  | ind size ih =>
      cases text with
      | nil =>
          have cut : first afterWord '\n' rest = (.newline, rest) := rfl
          have apart : endsInWord .newline = false := by decide +kernel
          rw [List.nil_append, scanOnto_cons, cut, apart, scanOnto]
          rfl
      | cons c others =>
          have shorter := length_first_lt afterWord c others
          rw [List.cons_append, scanOnto_cons, scanOnto_cons, first_append_newline,
            ih _ (size ▸ shorter) _ _ rfl, List.cons_append]

end Segment

namespace Token

/-- Later lines give the same tokens on later lines. -/
theorem ofSegmentsOnto_lower (amount line : Int) (segments : List Segment) :
    ofSegmentsOnto [] (line + amount) segments =
      (ofSegmentsOnto [] line segments).map (lower amount) := by
  induction segments generalizing line with
  | nil => rfl
  | cons segment rest ih =>
      cases segment with
      | token kind text =>
          rw [ofSegmentsOnto, ofSegmentsOnto_eq, ofSegmentsOnto, ofSegmentsOnto_eq [_], ih]
          rfl
      | newline =>
          rw [ofSegmentsOnto, ofSegmentsOnto, ← ih]
          congr 1
          omega
      | blank text | comment text => rw [ofSegmentsOnto, ofSegmentsOnto, ih]

theorem map_lower_zero (tokens : List Token) : tokens.map (lower 0) = tokens := by
  have same : lower 0 = id := funext fun token => by simp [lower]
  rw [same, List.map_id]

theorem map_lower_lower (first second : Int) (tokens : List Token) :
    (tokens.map (lower first)).map (lower second) = tokens.map (lower (first + second)) := by
  have same : lower second ∘ lower first = lower (first + second) :=
    funext fun token => by simp [lower, Int.add_assoc]
  rw [List.map_map, same]

theorem ofSegmentsOnto_append (line : Int) (segments others : List Segment) :
    ofSegmentsOnto [] line (segments ++ others) =
      (ofSegmentsOnto [] line segments).dropLast ++
        ofSegmentsOnto [] (line + segments.count .newline) others := by
  induction segments generalizing line with
  | nil => simp [ofSegmentsOnto]
  | cons segment rest ih =>
      cases segment with
      | token kind text =>
          have some := ofSegmentsOnto_ne_nil [] line rest
          rw [List.cons_append, ofSegmentsOnto, ofSegmentsOnto_eq, ofSegmentsOnto,
            ofSegmentsOnto_eq [_], ih]
          simp [List.dropLast_cons_of_ne_nil some]
      | newline =>
          have counted : line + 1 + (rest.count .newline : Nat) =
              line + ((.newline :: rest).count .newline : Nat) := by
            rw [List.count_cons_self]
            omega
          rw [List.cons_append, ofSegmentsOnto, ofSegmentsOnto, ih, counted]
      | blank text | comment text =>
          rw [List.cons_append, ofSegmentsOnto, ofSegmentsOnto, ih,
            List.count_cons_of_ne (by simp)]

end Token

/-- How many lines further down a text stands below another one. -/
def linesDown (source : String) : Int := (Segment.scan source.toList).count .newline + 1

/-- **Two texts, one below the other.** -/
theorem tokenize_joined (source below : String) :
    tokenize (source ++ "\n" ++ below) =
      (tokenize source).dropLast ++ (tokenize below).map (.lower (linesDown source)) := by
  have text : (source ++ "\n" ++ below).toList = source.toList ++ '\n' :: below.toList := by simp
  unfold tokenize Token.ofSegments Segment.scan
  rw [text, Segment.scanOnto_joined, Token.ofSegmentsOnto_append, Token.ofSegmentsOnto,
    ← Token.ofSegmentsOnto_lower, linesDown, Segment.scan, ← Int.add_assoc]

end ExprLang
