/-
# ExprLang.Proofs.Token.Lexed — what a token list from a text looks like

A list of tokens that was read from a text has one `eof` token, which is its
last, and each integer token in it is spelled with digits alone (`Lexed`).
-/
import ExprLang.Proofs.Decimal
import ExprLang.Token.Segment

namespace ExprLang

set_option autoImplicit false

/-- The tokens end with their only `eof`, and integers are runs of digits. -/
inductive Lexed : List Token → Prop where
  | eof {token : Token} (kind : token.kind = .eof) : Lexed [token]
  | more {token : Token} {rest : List Token} (kind : token.kind ≠ .eof)
      (digits : token.kind = .int → Decimal.Run token.literal) (later : Lexed rest) :
      Lexed (token :: rest)

namespace Lexed

variable {token next : Token} {rest : List Token}

theorem ne_nil {tokens : List Token} (lexed : Lexed tokens) : tokens ≠ [] := by
  cases lexed <;> nofun

/-- Behind a token that is not the end there are more. -/
theorem tail (lexed : Lexed (token :: rest)) (kind : token.kind ≠ .eof) : Lexed rest := by
  cases lexed with
  | eof ends => exact absurd ends kind
  | more _ _ later => exact later

theorem run (lexed : Lexed (token :: rest)) (kind : token.kind = .int) :
    Decimal.Run token.literal := by
  cases lexed with
  | eof ends =>
      rw [kind] at ends
      cases ends
  | more _ digits _ => exact digits kind

end Lexed

namespace Segment

/-- A segment that is a token may stand before the end of a token list. -/
def Proper : Segment → Prop
  | .token kind text => kind ≠ .eof ∧ (kind = .int → Decimal.Run (String.ofList text))
  | _ => True

theorem symbol?_plain {c : Char} {next : Option Char} {kind : TokenKind} {more : Nat}
    (found : symbol? c next = some (kind, more)) : kind ≠ .eof ∧ kind ≠ .int := by
  unfold symbol? at found
  grind

theorem wordKind_plain (afterWord : Bool) (run rest : List Char) :
    wordKind afterWord run rest ≠ .eof ∧ wordKind afterWord run rest ≠ .int := by
  have plain : ∀ kind ∈ TokenKind.keywords, kind ≠ .eof ∧ kind ≠ .int := by decide
  unfold wordKind
  split
  · exact ⟨nofun, nofun⟩
  · next keyword found =>
      split
      · exact ⟨nofun, nofun⟩
      · exact plain keyword (List.mem_of_find?_eq_some found)

theorem first_proper (afterWord : Bool) (c : Char) (others : List Char) :
    (first afterWord c others).1.Proper := by
  unfold first
  split
  · obtain ⟨noEnd, noInt⟩ := wordKind_plain afterWord (c :: others.takeWhile Text.isNameChar)
      (others.dropWhile Text.isNameChar)
    exact ⟨noEnd, fun same => absurd same noInt⟩
  split
  · trivial
  split
  · trivial
  split
  · trivial
  split
  · next kind more found =>
      obtain ⟨noEnd, noInt⟩ := symbol?_plain found
      exact ⟨noEnd, fun same => absurd same noInt⟩
  split
  · next digit =>
      refine ⟨nofun, fun _ => ⟨by simp, ?_⟩⟩
      intro other member
      rw [String.toList_ofList] at member
      rcases List.mem_cons.1 member with rfl | member
      · exact digit
      · exact List.all_eq_true.1 List.all_takeWhile other member
  · exact ⟨nofun, nofun⟩

theorem scanOnto_proper (done : List Segment) (afterWord : Bool) (source : List Char)
    (before : ∀ segment ∈ done, segment.Proper) :
    ∀ segment ∈ scanOnto done afterWord source, segment.Proper := by
  fun_induction scanOnto done afterWord source with
  | case1 done afterWord =>
      intro segment member
      exact before segment (List.mem_reverse.1 member)
  | case2 done afterWord c others cut ih =>
      refine ih fun segment member => ?_
      rcases List.mem_cons.1 member with rfl | member
      · exact first_proper afterWord c others
      · exact before segment member

end Segment

/-- The tokens gathered so far stay in front. -/
theorem Token.ofSegmentsOnto_eq (done : List Token) (line : Int) (segments : List Segment) :
    ofSegmentsOnto done line segments = done.reverse ++ ofSegmentsOnto [] line segments := by
  induction segments generalizing done line with
  | nil => simp [ofSegmentsOnto]
  | cons segment segments ih =>
      cases segment with
      | token kind text =>
          rw [ofSegmentsOnto, ih, ofSegmentsOnto, ih [_]]
          simp
      | newline | blank | comment =>
          rw [ofSegmentsOnto, ih, ofSegmentsOnto]

theorem lexed_ofSegmentsOnto (line : Int) (segments : List Segment)
    (proper : ∀ segment ∈ segments, segment.Proper) :
    Lexed (Token.ofSegmentsOnto [] line segments) := by
  induction segments generalizing line with
  | nil => exact .eof rfl
  | cons segment segments ih =>
      have later (line : Int) := ih line fun other member => proper other (by simp [member])
      have here := proper segment (by simp)
      cases segment with
      | token kind text =>
          rw [Token.ofSegmentsOnto, Token.ofSegmentsOnto_eq]
          obtain ⟨noEnd, digits⟩ := here
          exact .more noEnd digits (later line)
      | newline => exact later (line + 1)
      | blank => exact later line
      | comment => exact later line

/-- The tokens of a text are such a list. -/
theorem lexed_tokenize (source : String) : Lexed (tokenize source) :=
  lexed_ofSegmentsOnto 1 _ (Segment.scanOnto_proper [] false _ nofun)

end ExprLang
