/-
# ExprLang.Proofs.Token.Layout — tokens written out

The converse of reading: tokens are written down one after the other, with some
layout before the first, between neighbours and after the last. Layout is made of
blanks, line feeds and comments, each comment with the line feed that ends it, and
what a comment says is free. As long as there is some layout between neighbours,
the text is read as the tokens that were written, each on the line where it was
written (`tokenize_writeOut`).

A layout is passed over whatever stands after it, and a token is read whatever
layout stands after it, so the tokens are read off one by one.
-/
import Mathlib.Data.List.Infix
import ExprLang.Proofs.Token.Joined

namespace ExprLang

set_option autoImplicit false

/-- What may stand between tokens: blanks, line feeds, and comments that a line
feed ends. -/
inductive Layout : List Char → Prop where
  | nil : Layout []
  | blank {c : Char} {rest : List Char} (white : c ∈ [' ', '\t', '\r', '\n'])
      (more : Layout rest) : Layout (c :: rest)
  | comment {text rest : List Char} (inline : '\n' ∉ text) (more : Layout rest) :
      Layout ('#' :: text ++ '\n' :: rest)

/-- A literal that a token of a kind can have: the one spelling of the kind, a name
for an identifier, digits for an integer. -/
inductive TokenKind.Spells : TokenKind → String → Prop where
  | fixed {kind : TokenKind} {literal : String} (spelled : kind.spelling? = some literal) :
      Spells kind literal
  | name {literal : String} (isName : IsName literal) : Spells .identifier literal
  | digits {literal : String} (run : Decimal.Run literal) : Spells .int literal

/-- A token that is written down, and the layout after it. -/
structure Inscription where
  kind : TokenKind
  literal : String
  layout : List Char

/-- The characters of a written token and of the layout after it. -/
def Inscription.text (item : Inscription) : List Char := item.literal.toList ++ item.layout

/-- The token as it is read after these characters. -/
def Inscription.token (item : Inscription) (before : List Char) : Token :=
  ⟨item.kind, item.literal, 1 + before.count '\n'⟩

/-- The text of written tokens, after the layout that it starts with. -/
def writeOut (start : List Char) (items : List Inscription) : String :=
  String.ofList (start ++ items.flatMap Inscription.text)

/-! ## Layout -/

/-- A line feed is passed over, and what follows is one line further down. -/
theorem tokensFrom_newline (afterWord : Bool) (rest : List Char) :
    tokensFrom afterWord ('\n' :: rest) = (tokensFrom false rest).map (.lower 1) := by
  have cut : Segment.first afterWord '\n' rest = (.newline, rest) := rfl
  have apart : Segment.endsInWord .newline = false := by decide +kernel
  unfold tokensFrom
  rw [Segment.scanOnto_cons, cut, apart, ← Token.ofSegmentsOnto_lower]
  rfl

/-- A comment is passed over with the line feed that ends it. -/
theorem tokensFrom_comment (afterWord : Bool) {text : List Char} (rest : List Char)
    (inline : '\n' ∉ text) :
    tokensFrom afterWord ('#' :: text ++ '\n' :: rest) =
      (tokensFrom false rest).map (.lower 1) := by
  have ends : ∀ c ∈ text, (c != '\n') = true := by
    intro c member
    simp only [bne_iff_ne, ne_eq]
    rintro rfl
    exact inline member
  have stops : ∀ c ∈ ('\n' :: rest).head?, (c != '\n') = false := by simp
  obtain ⟨taken, dropped⟩ := takeWhile_eq ends stops
  have cut : Segment.first afterWord '#' (text ++ '\n' :: rest) =
      (.comment ('#' :: text), '\n' :: rest) := by
    change (Segment.comment _, _) = _
    rw [taken, dropped]
  rw [← tokensFrom_newline (Segment.endsInWord (.comment ('#' :: text)))]
  unfold tokensFrom
  rw [List.cons_append, Segment.scanOnto_cons, cut]
  rfl

theorem tokensFrom_white {c : Char} (rest : List Char) (white : c ∈ [' ', '\t', '\r', '\n']) :
    tokensFrom false (c :: rest) = (tokensFrom false rest).map (.lower ([c].count '\n')) := by
  simp only [List.mem_cons, List.not_mem_nil, or_false] at white
  rcases white with rfl | rfl | rfl | rfl
  · rw [tokensFrom_blank_cons false rest rfl]
    exact (Token.map_lower_zero _).symm
  · rw [tokensFrom_blank_cons false rest rfl]
    exact (Token.map_lower_zero _).symm
  · rw [tokensFrom_blank_cons false rest rfl]
    exact (Token.map_lower_zero _).symm
  · exact tokensFrom_newline false rest

namespace Layout

variable {text rest : List Char}

/-- A layout is passed over, and what follows is as many lines further down as the
layout has line feeds. -/
theorem tokensFrom_append (layout : Layout text) :
    tokensFrom false (text ++ rest) =
      (tokensFrom false rest).map (.lower (text.count '\n')) := by
  induction layout with
  | nil => exact (Token.map_lower_zero _).symm
  | @blank c others white more ih =>
      have lines : (c :: others).count '\n' = others.count '\n' + [c].count '\n' := by
        rw [← List.singleton_append, List.count_append, Nat.add_comm]
      rw [List.cons_append, tokensFrom_white _ white, ih, Token.map_lower_lower, lines]
      rfl
  | @comment inside others inline more ih =>
      have lines : ('#' :: inside ++ '\n' :: others).count '\n' = others.count '\n' + 1 := by
        rw [List.count_append, List.count_eq_zero.2 (by simp [inline]), List.count_cons_self,
          Nat.zero_add]
      have split : '#' :: inside ++ '\n' :: others ++ rest =
          '#' :: inside ++ '\n' :: (others ++ rest) := List.append_assoc ..
      rw [split, tokensFrom_comment false _ inline, ih, Token.map_lower_lower, lines]
      rfl

/-- A word that stands before a layout ends there. -/
theorem edge_append (layout : Layout text) (some : text ≠ []) : Edge (text ++ rest) := by
  cases layout with
  | nil => exact absurd rfl some
  | blank white =>
      rw [List.cons_append, Edge.cons_iff]
      simp only [List.mem_cons, List.not_mem_nil, or_false] at white ⊢
      rcases white with rfl | rfl | rfl | rfl <;> simp
  | comment => simp

end Layout

/-! ## Tokens -/

namespace TokenKind.Spells

variable {kind : TokenKind} {literal : String}

/-- The one spelling of a kind is that of a symbol or of a keyword. -/
theorem listed_of_spelling (spelled : kind.spelling? = some literal) :
    kind ∈ TokenKind.symbols ∨ kind ∈ TokenKind.keywords := by
  have listed : ∀ kind ∈ TokenKind.all, kind.spelling?.isSome →
      kind ∈ TokenKind.symbols ∨ kind ∈ TokenKind.keywords := by decide
  exact listed kind kind.mem_all (Option.isSome_of_eq_some spelled)

/-- A token is read whatever layout comes after it. -/
theorem tokensFrom_append (spells : kind.Spells literal) {rest : List Char} (edge : Edge rest) :
    tokensFrom false (literal.toList ++ rest) = ⟨kind, literal, 1⟩ :: tokensFrom false rest := by
  cases spells with
  | name isName => exact tokensFrom_name isName edge
  | digits run => exact tokensFrom_digits run edge
  | fixed spelled =>
      have sign : Token.sign kind = ⟨kind, literal, 1⟩ := by rw [Token.sign, spelled]; rfl
      rw [← sign]
      have same : literal = (Token.sign kind).literal := (congrArg Token.literal sign).symm
      rw [same]
      rcases listed_of_spelling spelled with symbol | keyword
      · refine tokensFrom_sign false symbol fun equals => ?_
        exact absurd (edge '=' equals) (by decide)
      · exact tokensFrom_keyword kind keyword edge

/-- No token goes over a line end. -/
theorem newline_not_mem (spells : kind.Spells literal) : '\n' ∉ literal.toList := by
  cases spells with
  | name isName =>
      obtain ⟨⟨c, others, spelled, starts, all⟩, -⟩ := isName
      rw [spelled, List.mem_cons, not_or]
      refine ⟨?_, fun member => absurd (all _ member) (by decide)⟩
      rintro rfl
      exact absurd starts (by decide)
  | digits run => exact fun member => absurd (run.2 _ member) (by decide)
  | fixed spelled =>
      have none : ∀ kind ∈ TokenKind.all, ∀ spelling ∈ kind.spelling?, '\n' ∉ spelling.toList := by
        decide +kernel
      exact none kind kind.mem_all literal spelled

end TokenKind.Spells

/-- One token and its layout stand before the others. -/
theorem tokensFrom_inscription {start : List Char} {item : Inscription} {rest : List Char}
    (lead : Layout start) (spells : item.kind.Spells item.literal)
    (edge : Edge (item.layout ++ rest)) :
    tokensFrom false (start ++ (item.text ++ rest)) =
      item.token start ::
        (tokensFrom false (item.layout ++ rest)).map (.lower (start.count '\n')) := by
  rw [lead.tokensFrom_append, Inscription.text, List.append_assoc, spells.tokensFrom_append edge]
  rfl

/-- The tokens that are read after some characters are read as many lines further
down as those have line feeds. -/
theorem tokensFrom_items {start : List Char} {items : List Inscription} (lead : Layout start)
    (spelled : ∀ item ∈ items, item.kind.Spells item.literal)
    (laid : ∀ item ∈ items, Layout item.layout)
    (apart : ∀ item ∈ items.dropLast, item.layout ≠ []) :
    tokensFrom false (start ++ items.flatMap Inscription.text) =
      (items.inits.zip items).map (fun (earlier, item) =>
          item.token (start ++ earlier.flatMap Inscription.text)) ++
        [⟨.eof, "", 1 + (start ++ items.flatMap Inscription.text).count '\n'⟩] := by
  induction items generalizing start with
  | nil =>
      rw [lead.tokensFrom_append]
      simp [Token.lower]
  | cons item rest ih =>
      obtain ⟨spells, spelled⟩ := List.forall_mem_cons.1 spelled
      obtain ⟨layout, laid⟩ := List.forall_mem_cons.1 laid
      -- After the last token there may be no layout, but then there is nothing at all.
      have edge : Edge (item.layout ++ rest.flatMap Inscription.text) := by
        cases rest with
        | nil =>
            by_cases none : item.layout = []
            · simp [none, Edge]
            · exact layout.edge_append none
        | cons next others => exact layout.edge_append (apart item (by simp))
      have later := ih layout spelled laid fun other member => apart other (by
        cases rest with
        | nil => cases member
        | cons next others => exact List.mem_cons_of_mem item member)
      have lines (text : List Char) :
          (1 : Int) + (item.layout ++ text).count '\n' + start.count '\n' =
            1 + (start ++ (item.text ++ text)).count '\n' := by
        have solid := List.count_eq_zero.2 spells.newline_not_mem
        simp only [Inscription.text, List.count_append, solid]
        omega
      have lowered (pair : List Inscription × Inscription) :
          (pair.2.token (item.layout ++ pair.1.flatMap Inscription.text)).lower
              (start.count '\n') =
            pair.2.token (start ++ (item :: pair.1).flatMap Inscription.text) := by
        rw [List.flatMap_cons]
        exact congrArg (Token.mk _ _) (lines _)
      have ended (text : List Char) :
          Token.lower (start.count '\n') ⟨.eof, "", 1 + (item.layout ++ text).count '\n'⟩ =
            ⟨.eof, "", 1 + (start ++ (item.text ++ text)).count '\n'⟩ :=
        congrArg (Token.mk _ _) (lines text)
      rw [List.flatMap_cons, tokensFrom_inscription lead spells edge, later, List.inits_cons,
        List.zip_cons_cons, List.zip_map_left]
      simp only [List.map_cons, List.map_append, List.map_map, List.map_nil, List.cons_append,
        Function.comp_def, Prod.map, lowered, ended, id, List.flatMap_nil, List.append_nil]

/-- **Tokens written out are read back.** Tokens whose literals fit their kinds are
written down with layout around them, some of it between any two. The text is read
as these tokens, each on the line that the line feeds written before it make, and
the end of input on the line that all of them make. -/
theorem tokenize_writeOut {start : List Char} {items : List Inscription} (lead : Layout start)
    (spelled : ∀ item ∈ items, item.kind.Spells item.literal)
    (laid : ∀ item ∈ items, Layout item.layout)
    (apart : ∀ item ∈ items.dropLast, item.layout ≠ []) :
    tokenize (writeOut start items) =
      (items.inits.zip items).map (fun (earlier, item) =>
          ⟨item.kind, item.literal, 1 + (writeOut start earlier).toList.count '\n'⟩) ++
        [⟨.eof, "", 1 + (writeOut start items).toList.count '\n'⟩] := by
  simp only [tokenize_eq, writeOut, String.toList_ofList]
  exact tokensFrom_items lead spelled laid apart

/-- A comment with a quote and a hash in it, a name that starts like a keyword, a
comment right after it that looks like an operator, and a digit of another script. -/
def inscribed : List Inscription :=
  [⟨.letKeyword, "let", "\t ".toList⟩, ⟨.identifier, "letter", "#== 'fn\n\r".toList⟩,
    ⟨.assign, "=", [' ']⟩, ⟨.int, "7٣", []⟩]

theorem tokenize_writeOut_inscribed :
    tokenize "# \"x\" # let\n\nlet\t letter#== 'fn\n\r= 7٣" =
      [⟨.letKeyword, "let", 3⟩, ⟨.identifier, "letter", 3⟩, ⟨.assign, "=", 4⟩, ⟨.int, "7٣", 4⟩,
        ⟨.eof, "", 4⟩] := by
  have lead : Layout "# \"x\" # let\n\n".toList :=
    @Layout.comment " \"x\" # let".toList ['\n'] (by decide) (.blank (by decide) .nil)
  have letter : IsName "letter" :=
    ⟨⟨'l', "etter".toList, rfl, by decide, List.all_eq_true.1 (by decide)⟩, by decide +kernel⟩
  have digits : Decimal.Run "7٣" := ⟨by decide, List.all_eq_true.1 (by decide)⟩
  have comment : Layout "#== 'fn\n\r".toList :=
    @Layout.comment "== 'fn".toList ['\r'] (by decide) (.blank (by decide) .nil)
  have read := @tokenize_writeOut _ inscribed lead
    (by simpa [inscribed] using ⟨.fixed rfl, .name letter, .fixed rfl, .digits digits⟩)
    (by
      simp only [inscribed, List.forall_mem_cons]
      exact ⟨.blank (by decide) (.blank (by decide) .nil), comment, .blank (by decide) .nil, .nil,
        nofun⟩)
    (by decide)
  exact read.trans (by decide +kernel)

end ExprLang
