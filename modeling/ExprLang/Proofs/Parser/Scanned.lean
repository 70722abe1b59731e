/-
# ExprLang.Proofs.Parser.Scanned — trees that texts are parsed to

What a text brings into a tree is what its tokens are made of: a name is a word, a
number is short enough to be written again, an operator is spelled like one
(`fits_scanned`). Only one thing can keep such a tree from having a text that reads
back to it: a word right behind a digit is a name even where it is spelled like a
keyword. So the lexicon of scanned trees is that of written ones with any word for
a name. The program of every text is of this lexicon, also where statements had to
be left out (`parse_placed`).
-/
import ExprLang.Proofs.Node.Canonical
import ExprLang.Proofs.Parser.Builds
import ExprLang.Proofs.Token.Division

namespace ExprLang

set_option autoImplicit false

/-- The text of a word: a letter or an underscore, then letters, digits and
underscores. -/
def IsWord (text : String) : Prop :=
  ∃ c others, text.toList = c :: others ∧ Text.isNameStart c = true ∧
    ∀ c ∈ others, Text.isNameChar c = true

/-- The names, numbers and operators that a text can have. -/
def Lexicon.scanned : Lexicon := { written with name := IsWord }

/-- The digits of a number bound it. -/
theorem Decimal.numeral_lt {text : String} (run : Run text) :
    numeral text < Nat.pow 10 text.length := by
  have digits : ∀ value ∈ text.toList.filterMap Text.digitValue?, value < 10 := by
    intro value member
    obtain ⟨c, -, found⟩ := List.mem_filterMap.1 member
    exact Text.digitValue?_lt found
  have small := ofDigits_lt digits
  rwa [length_filterMap_digits _ run.2, String.length_toList] at small

/-- A number is written with no more digits than it was read from. -/
theorem Decimal.length_toString_numeral {text : String} (run : Run text) :
    (toString (numeral text : Int)).length ≤ text.length := by
  have positive : 0 < text.length := by
    rw [← String.length_toList]
    exact List.length_pos_of_ne_nil run.1
  rw [← String.length_toList]
  change (Nat.repr (numeral text)).toList.length ≤ _
  rw [Nat.toList_repr]
  exact (Nat.length_toDigits_le_iff (by decide) positive).2 (numeral_lt run)

namespace Segment

/-- A token with only one spelling is spelled so. -/
theorem Formed.literal_eq {kind : TokenKind} {run : List Char} {spelling : String}
    (formed : Formed (.token kind run)) (fixed : kind.spelling? = some spelling) :
    String.ofList run = spelling := by
  cases formed with
  | word listed starts all spelled =>
      rcases spelled with rfl | spelled
      · cases fixed
      · exact Option.some.inj (spelled.symm.trans fixed)
  | numeral | unknown => cases fixed
  | symbol listed spelled => exact Option.some.inj (spelled.symm.trans fixed)

end Segment

/-- A token of a text is the end of it or one of its segments. -/
theorem formed_of_mem_tokenize {source : String} {token : Token}
    (member : token ∈ tokenize source) :
    token.kind = .eof ∨
      ∃ run, Segment.Formed (.token token.kind run) ∧ token.literal = String.ofList run := by
  have division := Segment.division_scanOnto false source.toList
  have tokens := Segment.ofSegmentsOnto_formed [] _ division.formed
  change tokenize source = _ at tokens
  rw [tokens] at member
  rcases List.mem_append.1 member with member | member
  · obtain ⟨⟨before, segment⟩, here, found⟩ := List.mem_filterMap.1 member
    have formed := division.formed segment (List.of_mem_zip here).2
    cases segment with
    | token kind run =>
        cases found
        exact .inr ⟨run, formed, rfl⟩
    | newline | blank | comment => cases found
  · rw [List.mem_singleton.1 member]
    exact .inl rfl

/-- What a text has for a number is a run of digits. -/
theorem run_of_mem_tokenize {source : String} {token : Token} (member : token ∈ tokenize source)
    (kind : token.kind = .int) : Decimal.Run token.literal := by
  have noWord : TokenKind.int ∉ TokenKind.words := by decide
  rcases formed_of_mem_tokenize member with ended | ⟨run, formed, literal⟩
  · cases kind.symm.trans ended
  rw [kind] at formed
  rw [literal]
  cases formed with
  | word listed starts all spelled => exact absurd listed noWord
  | numeral some all => exact ⟨by rwa [String.toList_ofList], by rwa [String.toList_ofList]⟩
  | symbol listed spelled => cases spelled

/-- The tokens of a text are those of scanned trees. -/
theorem fits_scanned {source : String} {token : Token} (member : token ∈ tokenize source) :
    token.Fits .scanned := by
  have digits := run_of_mem_tokenize member
  have source := formed_of_mem_tokenize member
  obtain ⟨kind, literal, line⟩ := token
  rcases source with rfl | ⟨run, formed, rfl⟩
  · exact ⟨trivial, nofun, nofun, nofun, nofun⟩
  refine ⟨trivial, ?_, ?_, ?_, ?_⟩
  · rintro rfl
    cases formed with
    | word listed starts all spelled => exact ⟨_, _, String.toList_ofList, starts, all⟩
    | symbol listed spelled => cases spelled
  · rintro rfl value read
    rw [Decimal.read?_of_run (digits rfl)] at read
    split at read
    · next short =>
        cases read
        exact ⟨Int.natCast_nonneg _,
          Nat.le_trans (Decimal.length_toString_numeral (digits rfl)) short⟩
    · cases read
  · intro isPrefix
    change String.ofList run ∈ _
    cases kind <;> cases isPrefix <;> rw [formed.literal_eq rfl] <;> decide
  · intro isBinary
    change String.ofList run ∈ _
    cases kind <;> cases isBinary <;> rw [formed.literal_eq rfl] <;> decide

/-- **What a text is parsed to.** Whatever it looks like, it is a program in which
everything stands where it belongs. -/
theorem parse_placed {limit : Int} {levels : Nat} {source : String} {parsed : Parsed}
    (ended : parse limit levels source = .ok parsed) :
    parsed.program.Placed .scanned .program := by
  have fits : (Parser.ofTokens (tokenize source)).window.Fits .scanned := by
    have each (token : Token) (member : token ∈ tokenize source) := fits_scanned member
    obtain ⟨token, tail, same⟩ := List.exists_cons_of_ne_nil (lexed_tokenize source).ne_nil
    rw [same] at each ⊢
    exact each
  obtain ⟨after, reached, -⟩ := parse_eq_ok_iff.1 ended
  exact parseProgram_placed fits reached

end ExprLang
