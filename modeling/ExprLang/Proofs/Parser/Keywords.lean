/-
# ExprLang.Proofs.Parser.Keywords — words that are spelled like keywords

A word that is spelled like a keyword is the keyword, unless a word character stands
directly before or after it (`Text.touched`): then it is a name. Name characters are
taken into the word, so what can touch it is a number before it, or a letter or numeral
that names may not have, on either side. In `5let` the word is a name, and so it is in
the tree.

The place of a token in a text is told by the segments around it (`Token.Stands`). The
lexer cuts every segment off knowing the last character before it (`scanOnto_split`),
and from there on a word is as `Segment.first` says.
-/
import ExprLang.Proofs.Eval.Unmentioned
import ExprLang.Proofs.Parser.Scanned

namespace ExprLang

set_option autoImplicit false

/-- A word character stands at the end of what comes before, or at the start of what
comes after. -/
def Text.touched (before after : List Char) : Bool :=
  before.getLast?.any isWord || after.head?.any isWord

/-- The token is read from the text between what comes before it and what comes after. -/
def Token.Stands (source : String) (before : List Char) (token : Token) (after : List Char) :
    Prop :=
  ∃ passed segment rest, Segment.scan source.toList = passed ++ segment :: rest ∧
    segment.token? passed = some token ∧
    passed.flatMap Segment.text = before ∧ rest.flatMap Segment.text = after

namespace Segment

/-- Every segment is cut off what was left of the text, with the last character before it
in view. -/
theorem scanOnto_split {afterWord : Bool} {source : List Char} {passed rest : List Segment}
    {segment : Segment} (split : scanOnto [] afterWord source = passed ++ segment :: rest) :
    ∃ c others, first (((passed.flatMap text).getLast?.map Text.isWord).getD afterWord) c others =
      (segment, rest.flatMap text) := by
  induction passed generalizing afterWord source with
  | nil =>
      cases source with
      | nil => simp [scanOnto] at split
      | cons c others =>
          rw [scanOnto, scanOnto_eq] at split
          obtain ⟨rfl, rfl⟩ := List.cons.inj split
          exact ⟨c, others, Prod.ext rfl (division_scanOnto _ _).whole.symm⟩
  | cons previous passed ih =>
      cases source with
      | nil => simp [scanOnto] at split
      | cons c others =>
          rw [scanOnto, scanOnto_eq] at split
          obtain ⟨rfl, later⟩ := List.cons.inj split
          obtain ⟨c', others', cut⟩ := ih later
          refine ⟨c', others', cut ▸ ?_⟩
          congr 1
          -- No segment is empty, so what the first one ends in is in view behind it.
          rw [List.flatMap_cons, List.getLast?_append]
          have some := first_text_ne_nil afterWord c others
          cases (passed.flatMap text).getLast? with
          | some last => rfl
          | none =>
              rw [endsInWord, List.getLast?_eq_some_getLast some]
              rfl

/-- The spelling of a keyword starts like a name. -/
theorem isNameStart_of_keyword {c : Char} {others : List Char} {keyword : TokenKind}
    (spelled : TokenKind.keyword? (String.ofList (c :: others)) = some keyword) :
    Text.isNameStart c = true := by
  have starts : ∀ kind ∈ TokenKind.keywords, ∀ spelling ∈ kind.spelling?,
      spelling.toList.head?.all Text.isNameStart = true := by decide +kernel
  have listed := List.mem_of_find?_eq_some spelled
  have found := List.find?_some spelled
  simpa using starts keyword listed _ (beq_iff_eq.1 found)

/-- A segment that is spelled like a keyword is a word, and its neighbours tell which. -/
theorem first_keyword {afterWord : Bool} {c : Char} {others run after : List Char}
    {kind keyword : TokenKind} (cut : first afterWord c others = (.token kind run, after))
    (spelled : TokenKind.keyword? (String.ofList run) = some keyword) :
    kind = if afterWord || after.head?.any Text.isWord then .identifier else keyword := by
  have joined := first_text afterWord c others
  have some := first_text_ne_nil afterWord c others
  rw [cut] at joined some
  obtain ⟨c', run', rfl⟩ := List.exists_cons_of_ne_nil some
  obtain ⟨rfl, -⟩ := List.cons.inj joined
  rw [first, if_pos (isNameStart_of_keyword spelled)] at cut
  cases cut
  rw [wordKind, spelled]

end Segment

/-! ## The places of tokens -/

/-- What stands before a segment in a list, with the segment. -/
theorem Segment.mem_zip_inits {segments passed : List Segment} {segment : Segment} :
    (passed, segment) ∈ segments.inits.zip segments ↔
      ∃ rest, segments = passed ++ segment :: rest := by
  induction segments generalizing passed with
  | nil => simp
  | cons other segments ih =>
      rw [List.inits_cons, List.zip_cons_cons, List.zip_map_left, List.mem_cons, List.mem_map]
      cases passed with
      | nil => simp [eq_comm]
      | cons previous passed => simp [ih, eq_comm, and_comm]

/-- The tokens of a text are those that stand in it, and the end. -/
theorem mem_tokenize_iff {source : String} {token : Token} :
    token ∈ tokenize source ↔
      (∃ before after, token.Stands source before after) ∨
        token = ⟨.eof, "", 1 + source.toList.count '\n'⟩ := by
  have division := Segment.division_scanOnto false source.toList
  have tokens := Segment.ofSegmentsOnto_formed [] _ division.formed
  rw [List.nil_append, division.whole] at tokens
  change tokenize source = _ at tokens
  rw [tokens, List.mem_append, List.mem_singleton, List.mem_filterMap]
  refine or_congr ⟨?_, ?_⟩ Iff.rfl
  · rintro ⟨⟨passed, segment⟩, here, found⟩
    obtain ⟨rest, split⟩ := Segment.mem_zip_inits.1 here
    exact ⟨_, _, passed, segment, rest, split, found, rfl, rfl⟩
  · rintro ⟨before, after, passed, segment, rest, split, found, -, -⟩
    exact ⟨(passed, segment), Segment.mem_zip_inits.2 ⟨rest, split⟩, found⟩

namespace Token.Stands

variable {source : String} {before after : List Char} {token : Token}

theorem source_eq (stands : token.Stands source before after) :
    source.toList = before ++ token.literal.toList ++ after := by
  obtain ⟨passed, segment, rest, split, found, rfl, rfl⟩ := stands
  have whole := (Segment.division_scanOnto false source.toList).whole
  rw [← whole, ← Segment.scan, split]
  cases segment with
  | token kind run =>
      cases found
      simp [Segment.text]
  | newline | blank | comment => cases found

/-- What touches a token that is spelled like a keyword tells its kind. -/
theorem kind_eq (stands : token.Stands source before after) {keyword : TokenKind}
    (spelled : TokenKind.keyword? token.literal = some keyword) :
    token.kind = if Text.touched before after then .identifier else keyword := by
  obtain ⟨passed, segment, rest, split, found, rfl, rfl⟩ := stands
  obtain ⟨c, others, cut⟩ := Segment.scanOnto_split split
  cases segment with
  | token kind run =>
      cases found
      rw [Segment.first_keyword cut spelled, Text.touched]
      cases (passed.flatMap Segment.text).getLast? <;> rfl
  | newline | blank | comment => cases found

end Token.Stands

theorem stands_of_keyword {source : String} {token : Token} (member : token ∈ tokenize source)
    {keyword : TokenKind} (spelled : TokenKind.keyword? token.literal = some keyword) :
    ∃ before after, token.Stands source before after := by
  rcases mem_tokenize_iff.1 member with stands | rfl
  · exact stands
  · have none : TokenKind.keyword? "" = none := by decide
    cases none.symm.trans spelled

/-! ## Names in trees -/

/-- Every name that stands in a tree is of its lexicon. -/
theorem Node.Placed.mentioned {lexicon : Lexicon} {place : Place} {node : Node}
    (placed : node.Placed lexicon place) : ∀ name ∈ node.mentioned, lexicon.name name := by
  have all {nodes : List Node} (each : ∀ node ∈ nodes, ∀ name ∈ node.mentioned, lexicon.name name) :
      ∀ name ∈ Node.mentionedAll nodes, lexicon.name name := by
    intro name named
    rw [Node.mentionedAll_eq_flatMap] at named
    obtain ⟨node, member, named⟩ := List.mem_flatMap.1 named
    exact each node member name named
  induction placed with
  | program _ ih => exact all ih
  | block _ _ ih => exact all ih
  | blockStatement _ _ ih => exact ih
  | letStatement _ named _ ih => exact List.forall_mem_cons.2 ⟨named, ih⟩
  | returnStatement _ _ ih => exact ih
  | expressionStatement _ _ ih => exact ih
  | identifier _ named => exact List.forall_mem_singleton.2 named
  | integer | boolean => exact List.forall_mem_nil _
  | prefixed _ _ _ ih => exact ih
  | binary _ _ _ _ first second => exact List.forall_mem_append.2 ⟨first, second⟩
  | ifThen _ _ _ test first => exact List.forall_mem_append.2 ⟨test, first⟩
  | ifElse _ _ _ _ test first second =>
      exact List.forall_mem_append.2 ⟨test, List.forall_mem_append.2 ⟨first, second⟩⟩
  | function _ named _ ih =>
      refine List.forall_mem_append.2 ⟨fun name member => ?_, ih⟩
      obtain ⟨parameter, listed, rfl⟩ := List.mem_map.1 member
      exact (named parameter listed).2
  | call _ _ _ target each => exact List.forall_mem_append.2 ⟨target, all each⟩

/-- The text has the name somewhere as a name because a word character touches it. -/
def TouchedName (source name : String) : Prop :=
  ∃ before after, ∃ token : Token, token.Stands source before after ∧
    token.kind = .identifier ∧ token.literal = name ∧ Text.touched before after = true

/-- Names are not spelled like keywords, except for those that are touched in the text. -/
def Lexicon.touching (source : String) : Lexicon :=
  { any with
    name := fun text => ∀ keyword, TokenKind.keyword? text = some keyword →
      TouchedName source text }

theorem fits_touching {source : String} {token : Token} (member : token ∈ tokenize source) :
    token.Fits (.touching source) := by
  refine ⟨trivial, fun named keyword spelled => ?_, fun _ _ _ => trivial, fun _ => trivial,
    fun _ => trivial⟩
  obtain ⟨before, after, stands⟩ := stands_of_keyword member spelled
  refine ⟨before, after, token, stands, named, rfl, ?_⟩
  -- It is a name and no keyword, so the text must have touched it.
  have kind := stands.kind_eq spelled
  have listed := List.mem_of_find?_eq_some spelled
  have noName : TokenKind.identifier ∉ TokenKind.keywords := by decide
  by_contra apart
  rw [if_neg apart, named] at kind
  exact noName (kind ▸ listed)

/-- **Keywords, and names that are spelled like them.** A token that is spelled like a
keyword has a place in the text. At each of its places it is the keyword where no word
character touches it, and a name where one does. So under every nesting limit, on every
stack, the tree has no name that is spelled like a keyword, unless the text has that name
where a word character touches it. There is a tree, or else the limit cannot be written
and has broken the parse off. -/
theorem tokenize_keyword_kind (source : String) :
    (∀ token ∈ tokenize source, ∀ keyword,
      TokenKind.keyword? token.literal = some keyword →
        (∃ before after, token.Stands source before after) ∧
        ∀ before after, token.Stands source before after →
          source.toList = before ++ token.literal.toList ++ after ∧
          token.kind = if Text.touched before after then .identifier else keyword) ∧
    ∀ (limit : Int) (levels : Nat),
      (∃ program parser,
        parseProgram .standard limit levels (.ofSource source) = (.parsed program, parser) ∧
          ∀ name ∈ program.mentioned, ∀ keyword, TokenKind.keyword? name = some keyword →
            TouchedName source name) ∨
        ¬ Decimal.Writable limit ∧
          (parseProgram .standard limit levels (.ofSource source)).1 = .fault .tooLong := by
  refine ⟨fun token member keyword spelled => ⟨stands_of_keyword member spelled,
    fun before after stands => ⟨stands.source_eq, stands.kind_eq spelled⟩⟩, fun limit levels => ?_⟩
  have fits : (Window.ofTokens (tokenize source)).Fits (.touching source) := by
    rw [Window.Fits, Window.tokens_ofTokens (tokenize_ne_nil source)]
    exact fun token member => fits_touching member
  refine (parseProgram_outcome limit levels (.ofSource source)).imp_left ?_
  rintro ⟨statements, parser, parsed⟩
  exact ⟨_, _, parsed, (parseProgram_placed fits parsed).mentioned⟩

example : tokenize "leté let" = [⟨.identifier, "let", 1⟩, ⟨.illegal, "é", 1⟩,
    ⟨.letKeyword, "let", 1⟩, ⟨.eof, "", 1⟩] := by
  decide +kernel

/-- A keyword right behind a number is a name, for the lexer and in the tree. -/
theorem keyword_named_behind_number :
    (¬ ∀ (source : String), ∀ token ∈ tokenize source, ∀ keyword,
      TokenKind.keyword? token.literal = some keyword → token.kind = keyword) ∧
    ¬ ∀ (source : String) (limit : Int) (levels : Nat) parsed,
      parse limit levels source = .ok parsed →
        ∀ name ∈ parsed.program.mentioned, TokenKind.keyword? name = none := by
  refine ⟨fun claimed => ?_, fun claimed => ?_⟩
  · have kind := claimed "5let" ⟨.identifier, "let", 1⟩ (by decide +kernel) .letKeyword
      (by decide +kernel)
    cases kind
  · have mentioned : (parseDefault 50 "5let").program.mentioned = ["let"] := by decide +kernel
    have none := claimed "5let" defaultNesting 50 _ (parse_default 50 "5let") "let"
      (mentioned ▸ List.mem_singleton_self _)
    exact absurd none (by decide)

end ExprLang
