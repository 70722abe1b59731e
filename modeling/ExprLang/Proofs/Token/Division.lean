/-
# ExprLang.Proofs.Token.Division — a text is the sum of its segments

What the lexer leaves out of a text is blanks, line feeds and comments, and it
leaves out nothing else. `Division` says how a text is divided: the segments join
to it, each is made as its class says (`Formed`), and each goes on for as long as
it can (`StopsBefore`). The tokens are the segments of that class, in order, each
on the line that the line feeds before it make (`tokenize_division`).

That a run of blanks is not the second half of a longer one, and that unknown
characters are tokens of their own wherever they are not commented out, follows
from the division alone.
-/
import Mathlib.Data.List.Infix
import ExprLang.Proofs.Token.Spelled

namespace ExprLang

set_option autoImplicit false

/-- The kinds of word. -/
def TokenKind.words : List TokenKind := .identifier :: keywords

namespace Segment

/-- The kinds that would be another one with an equals sign after them. -/
def halves : List TokenKind := [.assign, .bang, .less, .greater]

/-- A character of no class: it is of no name, number or symbol, it is not blank
and starts no comment. -/
def IsUnknown (c : Char) : Prop :=
  Text.isNameStart c = false ∧ Text.isDigit c = false ∧ c ∉ symbolCharacters ∧
    c ∉ ['#', ' ', '\t', '\r', '\n']

/-- A segment that is made as its class says. -/
inductive Formed : Segment → Prop where
  | word {kind : TokenKind} {c : Char} {others : List Char} (listed : kind ∈ TokenKind.words)
      (starts : Text.isNameStart c = true) (all : ∀ c ∈ others, Text.isNameChar c = true)
      (spelled : kind = .identifier ∨ kind.spelling? = some (String.ofList (c :: others))) :
      Formed (.token kind (c :: others))
  | numeral {text : List Char} (some : text ≠ []) (all : ∀ c ∈ text, Text.isDigit c = true) :
      Formed (.token .int text)
  | symbol {kind : TokenKind} {text : List Char} (listed : kind ∈ TokenKind.symbols)
      (spelled : kind.spelling? = some (String.ofList text)) : Formed (.token kind text)
  | unknown {c : Char} (unknown : IsUnknown c) : Formed (.token .illegal [c])
  | newline : Formed .newline
  | blank {text : List Char} (some : text ≠ []) (all : ∀ c ∈ text, isSpacing c = true) :
      Formed (.blank text)
  | comment {text : List Char} (inline : '\n' ∉ text) : Formed (.comment ('#' :: text))

/-- What comes next in the text is not for the segment to take in. -/
def StopsBefore (next : Option Char) : Segment → Prop
  | .token kind _ =>
      (kind ∈ TokenKind.words → ∀ c ∈ next, Text.isNameChar c = false) ∧
        (kind = .int → ∀ c ∈ next, Text.isDigit c = false) ∧
        (kind ∈ halves → next ≠ some '=')
  | .newline => True
  | .blank _ => ∀ c ∈ next, isSpacing c = false
  | .comment _ => ∀ c ∈ next, c = '\n'

/-- The segments are a division of the text. -/
structure Division (source : List Char) (segments : List Segment) : Prop where
  whole : segments.flatMap text = source
  formed : ∀ segment ∈ segments, segment.Formed
  stops : ∀ before segment after, segments = before ++ segment :: after →
    segment.StopsBefore (after.flatMap text).head?

/-! ## The first segment -/

theorem stops_dropWhile (holds : Char → Bool) (rest : List Char) :
    ∀ c ∈ (rest.dropWhile holds).head?, holds c = false := by
  intro c next
  have stopped := List.head?_dropWhile_not holds rest
  rw [Option.mem_def.1 next] at stopped
  simpa using stopped

/-- The kind of a run of name characters: a name, or the keyword that it spells. -/
theorem wordKind_cases (afterWord : Bool) (run rest : List Char) :
    wordKind afterWord run rest = .identifier ∨
      wordKind afterWord run rest ∈ TokenKind.keywords ∧
        (wordKind afterWord run rest).spelling? = some (String.ofList run) := by
  unfold wordKind
  split
  · exact .inl rfl
  · next keyword found =>
      split
      · exact .inl rfl
      · have spelled := List.find?_some found
        exact .inr ⟨List.mem_of_find?_eq_some found, beq_iff_eq.1 spelled⟩

theorem formed_word (afterWord : Bool) {c : Char} {others : List Char} (rest : List Char)
    (starts : Text.isNameStart c = true) (all : ∀ c ∈ others, Text.isNameChar c = true) :
    Formed (.token (wordKind afterWord (c :: others) rest) (c :: others)) := by
  rcases wordKind_cases afterWord (c :: others) rest with name | ⟨listed, spelled⟩
  · exact .word (by simp [name, TokenKind.words]) starts all (.inl name)
  · exact .word (List.mem_cons_of_mem _ listed) starts all (.inr spelled)

theorem stops_word (afterWord : Bool) (run rest text : List Char) {next : Option Char}
    (ends : ∀ c ∈ next, Text.isNameChar c = false) :
    StopsBefore next (.token (wordKind afterWord run rest) text) := by
  have apart : ∀ kind ∈ TokenKind.words, kind ≠ .int ∧ kind ∉ halves := by decide
  have listed : wordKind afterWord run rest ∈ TokenKind.words := by
    rcases wordKind_cases afterWord run rest with name | ⟨listed, -⟩
    · simp [name, TokenKind.words]
    · exact List.mem_cons_of_mem _ listed
  obtain ⟨noInt, noHalf⟩ := apart _ listed
  exact ⟨fun _ => ends, fun same => absurd same noInt, fun half => absurd half noHalf⟩

/-- A symbol is spelled as its kind is, and takes in an equals sign if it can. -/
theorem symbol?_spelled {c : Char} {others : List Char} {kind : TokenKind} {more : Nat}
    (found : symbol? c others.head? = some (kind, more)) :
    kind ∈ TokenKind.symbols ∧ kind.spelling? = some (String.ofList (c :: others.take more)) ∧
      (kind ∈ halves → (others.drop more).head? ≠ some '=') := by
  unfold symbol? at found
  split at found
  case h_15 => cases found
  case h_1 | h_2 | h_3 | h_4 =>
    split at found
    · next equals =>
        cases found
        obtain ⟨rest, rfl⟩ := List.head?_eq_some_iff.1 equals
        exact ⟨by decide, rfl, fun half => absurd half (by decide)⟩
    · next apart =>
        cases found
        exact ⟨by decide, rfl, fun _ => apart⟩
  all_goals
    cases found
    exact ⟨by decide, rfl, fun half => absurd half (by decide)⟩

theorem stops_symbol {c : Char} {others text : List Char} {kind : TokenKind} {more : Nat}
    (found : symbol? c others.head? = some (kind, more)) :
    StopsBefore (others.drop more).head? (.token kind text) := by
  have apart : ∀ kind ∈ TokenKind.symbols, kind ∉ TokenKind.words ∧ kind ≠ .int := by decide
  obtain ⟨listed, -, whole⟩ := symbol?_spelled found
  obtain ⟨noWord, noInt⟩ := apart kind listed
  exact ⟨fun word => absurd word noWord, fun same => absurd same noInt, whole⟩

theorem symbol?_of_mem {c : Char} (member : c ∈ symbolCharacters) (next : Option Char) :
    symbol? c next ≠ none := by
  simp only [symbolCharacters, List.mem_cons, List.not_mem_nil, or_false] at member
  rcases member with rfl | rfl | rfl | rfl | rfl | rfl | rfl | rfl | rfl | rfl | rfl | rfl | rfl |
    rfl <;> simp [symbol?]

/-- The first segment of a text is made as its class says. -/
theorem first_formed (afterWord : Bool) (c : Char) (others : List Char) :
    (first afterWord c others).1.Formed := by
  unfold first
  split
  · next starts => exact formed_word afterWord _ starts (List.all_eq_true.1 List.all_takeWhile)
  next noName =>
  split
  · exact .newline
  next noLine =>
  split
  · next spacing =>
      refine .blank (by simp) fun other member => ?_
      rcases List.mem_cons.1 member with rfl | member
      · exact spacing
      · exact List.all_eq_true.1 List.all_takeWhile other member
  next noSpace =>
  split
  · next opens =>
      subst opens
      refine .comment fun member => ?_
      simpa using List.all_eq_true.1 List.all_takeWhile _ member
  next noComment =>
  split
  · next kind more found =>
      obtain ⟨listed, spelled, -⟩ := symbol?_spelled found
      exact .symbol listed spelled
  next noSymbol =>
  split
  · next digit =>
      refine .numeral (by simp) fun other member => ?_
      rcases List.mem_cons.1 member with rfl | member
      · exact digit
      · exact List.all_eq_true.1 List.all_takeWhile other member
  · next noDigit =>
      refine .unknown ⟨by simpa using noName, by simpa using noDigit,
        fun member => symbol?_of_mem member _ noSymbol, ?_⟩
      simp only [isSpacing, Bool.or_eq_true, beq_iff_eq, not_or] at noSpace
      simp [noComment, noLine, noSpace]

/-- It goes on for as long as it can. -/
theorem first_stops (afterWord : Bool) (c : Char) (others : List Char) :
    (first afterWord c others).1.StopsBefore (first afterWord c others).2.head? := by
  unfold first
  split
  · exact stops_word afterWord _ _ _ (stops_dropWhile Text.isNameChar others)
  split
  · trivial
  split
  · exact stops_dropWhile isSpacing others
  split
  · intro other next
    simpa using stops_dropWhile (· != '\n') others other next
  split
  · next kind more found => exact stops_symbol found
  split
  · exact ⟨fun word => absurd word (by decide), fun _ => stops_dropWhile Text.isDigit others,
      fun half => absurd half (by decide)⟩
  · exact ⟨fun word => absurd word (by decide), nofun, fun half => absurd half (by decide)⟩

/-! ## The whole text -/

/-- A segment before a text that is divided. -/
theorem Division.cons {segment : Segment} {rest : List Char} {segments : List Segment}
    (formed : segment.Formed) (stops : segment.StopsBefore rest.head?)
    (division : Division rest segments) : Division (segment.text ++ rest) (segment :: segments) where
  whole := by rw [List.flatMap_cons, division.whole]
  formed := List.forall_mem_cons.2 ⟨formed, division.formed⟩
  stops before other after same := by
    cases before with
    | nil =>
        obtain ⟨rfl, rfl⟩ := List.cons.inj same
        rwa [division.whole]
    | cons first before =>
        obtain ⟨-, same⟩ := List.cons.inj same
        exact division.stops before other after same

theorem division_scanOnto (afterWord : Bool) (source : List Char) :
    Division source (scanOnto [] afterWord source) := by
  induction size : source.length using Nat.strongRecOn generalizing afterWord source with
  | ind size ih =>
      cases source with
      | nil =>
          rw [scanOnto]
          exact ⟨rfl, by simp, by simp⟩
      | cons c others =>
          have shorter := length_first_lt afterWord c others
          have rest := ih _ (size ▸ shorter) (first afterWord c others).1.endsInWord _ rfl
          rw [scanOnto, scanOnto_eq, ← first_text afterWord c others]
          exact .cons (first_formed afterWord c others) (first_stops afterWord c others) rest

/-! ## What the characters are -/

/-- A character of a name, a number or a symbol. -/
def IsKnown (c : Char) : Prop :=
  Text.isNameChar c = true ∨ Text.isDigit c = true ∨ c ∈ symbolCharacters

theorem isKnown_of_symbol {kind : TokenKind} {text : List Char} (listed : kind ∈ TokenKind.symbols)
    (spelled : kind.spelling? = some (String.ofList text)) {c : Char} (member : c ∈ text) :
    IsKnown c := by
  have made : ∀ kind ∈ TokenKind.symbols, ∀ spelling ∈ kind.spelling?,
      spelling.toList.all symbolCharacters.contains = true := by decide +kernel
  have all := made kind listed _ spelled
  rw [String.toList_ofList] at all
  exact .inr (.inr (List.contains_iff_mem.1 (List.all_eq_true.1 all c member)))

/-- A token is an unknown character, or its characters are known. -/
theorem Formed.token_cases {kind : TokenKind} {text : List Char}
    (formed : Formed (.token kind text)) :
    (kind = .illegal ∧ ∃ c, text = [c] ∧ IsUnknown c) ∨
      (kind ≠ .illegal ∧ ∀ c ∈ text, IsKnown c) := by
  cases formed with
  | word listed starts all _ =>
      refine .inr ⟨fun same => absurd (same ▸ listed) (by decide), fun other member => .inl ?_⟩
      rcases List.mem_cons.1 member with rfl | member
      · exact Text.isNameChar_of_isNameStart starts
      · exact all other member
  | numeral _ all => exact .inr ⟨nofun, fun other member => .inr (.inl (all other member))⟩
  | symbol listed spelled =>
      exact .inr ⟨fun same => absurd (same ▸ listed) (by decide),
        fun other member => isKnown_of_symbol listed spelled member⟩
  | unknown unknown => exact .inl ⟨rfl, _, rfl, unknown⟩

theorem IsKnown.not_unknown {c : Char} (known : IsKnown c) : ¬ IsUnknown c := by
  rintro ⟨noStart, noDigit, noSymbol, -⟩
  rcases known with name | digit | symbol
  · simp only [Text.isNameStart, Bool.or_eq_false_iff] at noStart
    simp only [Text.isNameChar, Char.isAlphanum, noStart.1, noStart.2, Bool.or_false,
      Bool.false_or] at name
    have digit : Text.isDigit c = true := by simp [Text.isDigit, Decimal.digitValue?_of_isDigit name]
    simp [digit] at noDigit
  · simp [digit] at noDigit
  · exact noSymbol symbol

/-- No token has a blank or a line feed in it. -/
theorem Formed.token_solid {kind : TokenKind} {text : List Char}
    (formed : Formed (.token kind text)) {c : Char} (member : c ∈ text) :
    c ∉ [' ', '\t', '\r', '\n'] := by
  rcases formed.token_cases with ⟨-, other, rfl, -, -, -, unknown⟩ | ⟨-, known⟩
  · rw [List.mem_singleton.1 member]
    exact fun blank => unknown (List.mem_cons_of_mem _ blank)
  · intro blank
    have none : Text.isNameChar c = false ∧ Text.isDigit c = false ∧ c ∉ symbolCharacters := by
      simp only [List.mem_cons, List.not_mem_nil, or_false] at blank
      rcases blank with rfl | rfl | rfl | rfl <;> decide
    obtain ⟨noName, noDigit, noSymbol⟩ := none
    rcases known c member with name | digit | symbol
    · simp [name] at noName
    · simp [digit] at noDigit
    · exact noSymbol symbol

theorem isSpacing_iff {c : Char} : isSpacing c = true ↔ c ∈ [' ', '\t', '\r'] := by
  simp [isSpacing, or_assoc]

/-- Line feeds are segments of their own. -/
theorem Formed.count_text {segment : Segment} (formed : segment.Formed) :
    segment.text.count '\n' = if segment = .newline then 1 else 0 := by
  cases segment with
  | newline => rfl
  | token kind run =>
      exact List.count_eq_zero.2 fun member => formed.token_solid member (by decide)
  | blank run =>
      cases formed with
      | blank _ all => exact List.count_eq_zero.2 fun member => absurd (all _ member) (by decide)
  | comment run =>
      cases formed with
      | comment inline => exact List.count_eq_zero.2 (by simp [text, inline])

theorem Formed.text_ne_nil {segment : Segment} (formed : segment.Formed) : segment.text ≠ [] := by
  cases formed with
  | symbol listed spelled =>
      have some : ∀ kind ∈ TokenKind.symbols, kind.spelling? ≠ some (String.ofList []) := by decide
      rintro rfl
      exact some _ listed spelled
  | numeral some | blank some => exact some
  | word | unknown | newline | comment => exact List.cons_ne_nil _ _

namespace Division

variable {source : List Char} {segments before after : List Segment}

/-- A run of blanks starts where no other one ends. -/
theorem blank_starts (division : Division source segments) {run : List Char}
    (here : segments = before ++ .blank run :: after) :
    ∀ c ∈ (before.flatMap text).getLast?, isSpacing c = false := by
  intro c last
  rcases List.eq_nil_or_concat before with rfl | ⟨init, previous, rfl⟩
  · cases last
  rw [List.concat_eq_append] at here last
  have formed := division.formed previous (by simp [here])
  have ends : c ∈ previous.text.getLast? := by
    rw [List.flatMap_append, List.flatMap_singleton, List.getLast?_append,
      List.getLast?_eq_some_getLast formed.text_ne_nil, Option.some_or] at last
    rwa [List.getLast?_eq_some_getLast formed.text_ne_nil]
  have stops := division.stops init previous (.blank run :: after) (by simp [here])
  have starts : ∃ next, ((Segment.blank run :: after).flatMap text).head? = some next ∧
      isSpacing next = true := by
    cases division.formed (.blank run) (by simp [here]) with
    | blank some all =>
        obtain ⟨next, rest, rfl⟩ := List.exists_cons_of_ne_nil some
        exact ⟨next, rfl, all next List.mem_cons_self⟩
  obtain ⟨next, follows, spacing⟩ := starts
  rw [follows] at stops
  cases previous with
  | token kind run =>
      refine Bool.eq_false_iff.2 fun blank => ?_
      have solid := formed.token_solid (List.mem_of_getLast? ends)
      exact solid (List.mem_append_left ['\n'] (isSpacing_iff.1 blank))
  | newline =>
      cases ends
      rfl
  -- Neither a run of blanks nor a comment would have stopped here.
  | blank run => simp [stops next rfl] at spacing
  | comment run =>
      rw [stops next rfl] at spacing
      exact absurd spacing (by decide)

/-- Unknown characters are tokens of their own, unless they are commented out. -/
theorem unknown_alone (division : Division source segments) {segment : Segment}
    (member : segment ∈ segments) {c : Char} (held : c ∈ segment.text) (unknown : IsUnknown c) :
    (∃ run, segment = .comment run) ∨ segment = .token .illegal [c] := by
  have formed := division.formed segment member
  cases segment with
  | comment run => exact .inl ⟨run, rfl⟩
  | token kind run =>
      rcases formed.token_cases with ⟨rfl, other, rfl, -⟩ | ⟨-, known⟩
      · rw [List.mem_singleton.1 held]
        exact .inr rfl
      · exact absurd unknown (known c held).not_unknown
  | newline =>
      rw [List.mem_singleton.1 held] at unknown
      exact absurd unknown.2.2.2 (by decide)
  | blank run =>
      cases formed with
      | blank _ all =>
          have spacing := isSpacing_iff.1 (all c held)
          refine absurd (List.mem_cons_of_mem _ ?_) unknown.2.2.2
          exact List.mem_append_left ['\n'] spacing

end Division

/-! ## The tokens -/

/-- The token that a segment is, on the line which the segments before it make. -/
def token? (before : List Segment) : Segment → Option Token
  | .token kind run =>
      some ⟨kind, String.ofList run, 1 + (before.flatMap text).count '\n'⟩
  | .newline | .blank _ | .comment _ => none

/-- The tokens among segments are where the line feeds before them say. -/
theorem ofSegmentsOnto_formed (passed segments : List Segment)
    (formed : ∀ segment ∈ segments, segment.Formed) :
    Token.ofSegmentsOnto [] (1 + (passed.flatMap text).count '\n') segments =
      (segments.inits.zip segments).filterMap
          (fun (before, segment) => segment.token? (passed ++ before)) ++
        [⟨.eof, "", 1 + ((passed ++ segments).flatMap text).count '\n'⟩] := by
  induction segments generalizing passed with
  | nil => simp [Token.ofSegmentsOnto]
  | cons segment rest ih =>
      obtain ⟨here, later⟩ := List.forall_mem_cons.1 formed
      have lines : ((passed ++ [segment]).flatMap text).count '\n' =
          (passed.flatMap text).count '\n' + if segment = .newline then 1 else 0 := by
        rw [List.flatMap_append, List.flatMap_singleton, List.count_append, here.count_text]
      have next := ih (passed ++ [segment]) later
      rw [lines, List.append_assoc] at next
      have shifted : ((rest.inits.map (segment :: ·)).zip rest).filterMap
            (fun (before, segment) => segment.token? (passed ++ before)) =
          (rest.inits.zip rest).filterMap
            (fun (before, other) => other.token? (passed ++ [segment] ++ before)) := by
        rw [List.zip_map_left, List.filterMap_map]
        congr 1
        funext pair
        simp
      rw [List.inits_cons, List.zip_cons_cons, List.filterMap_cons, shifted]
      cases segment with
      | token kind run =>
          rw [Token.ofSegmentsOnto, Token.ofSegmentsOnto_eq]
          simpa [token?] using next
      | newline =>
          rw [Token.ofSegmentsOnto]
          simpa [token?, Int.add_assoc] using next
      | blank run | comment run =>
          rw [Token.ofSegmentsOnto]
          simpa [token?] using next

end Segment

/-- **A text is the sum of its segments.** Every text is divided into segments, none
of them empty. Its tokens are the segments that are tokens, in order, each on the
line that the line feeds before it make, and the end of input on the line that all
of them make. A run of blanks does not go on from another. The illegal tokens are
the unknown characters that no comment holds. -/
theorem tokenize_division (source : String) :
    ∃ segments : List Segment,
      Segment.Division source.toList segments ∧
      (∀ segment ∈ segments, segment.text ≠ []) ∧
      tokenize source =
        (segments.inits.zip segments).filterMap (fun (before, segment) => segment.token? before) ++
          [⟨.eof, "", 1 + source.toList.count '\n'⟩] ∧
      (∀ before run after, segments = before ++ .blank run :: after →
        ∀ c ∈ (before.flatMap Segment.text).getLast?, Segment.isSpacing c = false) ∧
      (∀ run, .token .illegal run ∈ segments → ∃ c, run = [c] ∧ Segment.IsUnknown c) ∧
      ∀ segment ∈ segments, ∀ c ∈ segment.text, Segment.IsUnknown c →
        (∃ run, segment = .comment run) ∨ segment = .token .illegal [c] := by
  have division := Segment.division_scanOnto false source.toList
  have tokens := Segment.ofSegmentsOnto_formed [] _ division.formed
  rw [List.nil_append, division.whole] at tokens
  refine ⟨_, division, fun segment member => (division.formed segment member).text_ne_nil, tokens,
    fun before run after here => division.blank_starts here, fun run member => ?_,
    fun segment member c held unknown => division.unknown_alone member held unknown⟩
  rcases (division.formed _ member).token_cases with ⟨-, alone⟩ | ⟨other, -⟩
  · exact alone
  · exact absurd rfl other

end ExprLang
