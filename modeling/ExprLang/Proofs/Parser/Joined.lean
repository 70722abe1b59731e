/-
# ExprLang.Proofs.Parser.Joined — the program of two texts one below the other

A derivation looks past its phrase at one token only, and of that at the kind:
what follows may be exchanged for anything that starts with a token of the same
kind (`Derives.reframe`). A statement with a semicolon does not even look there.
So a list of statements that ends with a semicolon goes on with the statements of
another text (`Derives.join`), and what the second text gets is later lines, which
make no difference to a derivation (`Derives.lower`).

Hence two texts that are accepted, the first of them ending with a semicolon, are
accepted one below the other, and the program has the statements of both
(`parse_joined`).
-/
import ExprLang.Node.Alike
import ExprLang.Proofs.Parser.Accepted
import ExprLang.Proofs.Token.Joined

namespace ExprLang

set_option autoImplicit false

/-! ## What follows a phrase -/

/-- The token lists start with tokens of the same kind, or both are empty. -/
def StartsAlike (rest other : List Token) : Prop :=
  rest.head?.map Token.kind = other.head?.map Token.kind

theorem StartsAlike.cons {next : Token} {tail other : List Token}
    (alike : StartsAlike (next :: tail) other) :
    ∃ next' tail', other = next' :: tail' ∧ next'.kind = next.kind := by
  cases other with
  | nil => cases alike
  | cons next' tail' => exact ⟨next', tail', rfl, (Option.some.inj alike).symm⟩

theorem startsAlike_cons (next : Token) (tail other : List Token) :
    StartsAlike (next :: tail) (next :: other) := rfl

theorem startsAlike_append {tokens : List Token} (some : tokens ≠ []) (rest other : List Token) :
    StartsAlike (tokens ++ rest) (tokens ++ other) := by
  cases tokens with
  | nil => exact absurd rfl some
  | cons next tail => rfl

/-- The end of a statement looks at the next token only if it has no semicolon. -/
theorem Ends.reframe {ending : Option Token} {after rest other : List Token}
    (ends : Ends ending after rest) (alike : ending.isSome ∨ StartsAlike rest other) :
    StartsAlike after (ending.toList ++ other) ∧ Ends ending (ending.toList ++ other) other := by
  cases ends with
  | semicolon kind => exact ⟨rfl, .semicolon kind⟩
  | bare noSemicolon stops =>
      rcases alike with absent | alike
      · cases absent
      obtain ⟨next, tail, rfl, same⟩ := alike.cons
      exact ⟨alike, .bare (same ▸ noSemicolon) (same ▸ stops)⟩

namespace Derives

variable {phrase : Phrase} {tree : Derivation} {input rest : List Token}

/-- A phrase is its tokens. -/
theorem input_tokens (derives : Derives phrase tree input rest) : input = tree.tokens ++ rest := by
  induction derives with
  | letStatement _ _ _ _ ends ih | returnStatement _ _ ends ih | expressionStatement _ ends ih =>
      cases ends <;> simp [Derivation.tokens, ih]
  | _ => simp_all [Derivation.tokens]

theorem tokens_ne_nil (derives : Derives phrase tree input rest) : tree.tokens ≠ [] := by
  intro none
  have shorter := derives.length_lt
  have same := derives.input_tokens
  rw [none, List.nil_append] at same
  rw [same] at shorter
  exact Nat.lt_irrefl _ shorter

/-- What follows a phrase may be exchanged. -/
theorem reframe (derives : Derives phrase tree input rest) :
    ∀ other, StartsAlike rest other → Derives phrase tree (tree.tokens ++ other) other := by
  induction derives with
  | name fits kind => exact fun other _ => .name fits kind
  | integer fits kind run short => exact fun other _ => .integer fits kind run short
  | truth fits kind => exact fun other _ => .truth fits kind
  | group fits opens _ closes ih =>
      intro other _
      simpa [Derivation.tokens] using group fits opens (ih (_ :: other) rfl) closes
  | prefixed fits kind _ ih => exact fun other alike => .prefixed fits kind (ih other alike)
  | binary fits kind _ _ ih ih' =>
      intro other alike
      simpa [Derivation.tokens] using binary fits kind (ih _ (startsAlike_cons _ _ _)) (ih' other alike)
  | call fits _ opens _ ih ih' =>
      intro other alike
      simpa [Derivation.tokens] using call fits (ih _ (startsAlike_cons _ _ _)) opens (ih' other alike)
  | ifThen fits kind opens _ closes _ alone ih ih' =>
      intro other alike
      obtain ⟨next, tail, rfl, same⟩ := alike.cons
      have first := ih' (next :: tail) alike
      simpa [Derivation.tokens] using
        ifThen fits kind opens (ih _ (startsAlike_cons _ _ _)) closes first (same ▸ alone)
  | ifElse fits kind opens _ closes _ parts _ ih ih' ih'' =>
      intro other alike
      simpa [Derivation.tokens] using
        ifElse fits kind opens (ih _ (startsAlike_cons _ _ _)) closes
          (ih' _ (startsAlike_cons _ _ _)) parts (ih'' other alike)
  | function fits kind opens names within ih ih' =>
      intro other alike
      have start := ih (_ ++ other) (by
        rw [within.input_tokens]
        exact startsAlike_append within.tokens_ne_nil _ _)
      simpa [Derivation.tokens] using function fits kind opens start (ih' other alike)
  | noArguments closes => exact fun other _ => .noArguments closes
  | someArguments _ ih => exact fun other alike => .someArguments (ih other alike)
  | lastArgument _ closes ih =>
      intro other _
      simpa [Derivation.tokens] using lastArgument (ih (_ :: other) rfl) closes
  | argument _ separates _ ih ih' =>
      intro other alike
      simpa [Derivation.tokens] using argument (ih _ (startsAlike_cons _ _ _)) separates (ih' other alike)
  | noParameters closes => exact fun other _ => .noParameters closes
  | someParameters _ ih => exact fun other alike => .someParameters (ih other alike)
  | lastParameter kind closes => exact fun other _ => .lastParameter kind closes
  | parameter kind separates _ ih =>
      exact fun other alike => .parameter kind separates (ih other alike)
  | letStatement kind named assigns _ ends ih =>
      intro other alike
      obtain ⟨start, ends'⟩ := ends.reframe (.inr alike)
      simpa [Derivation.tokens] using letStatement kind named assigns (ih _ start) ends'
  | returnStatement kind _ ends ih =>
      intro other alike
      obtain ⟨start, ends'⟩ := ends.reframe (.inr alike)
      simpa [Derivation.tokens] using returnStatement kind (ih _ start) ends'
  | expressionStatement _ ends ih =>
      intro other alike
      obtain ⟨start, ends'⟩ := ends.reframe (.inr alike)
      simpa [Derivation.tokens] using expressionStatement (ih _ start) ends'
  | block opens _ ih => exact fun other alike => .block opens (ih other alike)
  | closed closes => exact fun other _ => .closed closes
  | followed here later ih ih' =>
      intro other alike
      have start := ih (_ ++ other) (by
        rw [later.input_tokens]
        exact startsAlike_append later.tokens_ne_nil _ _)
      simpa [Derivation.tokens] using followed start (ih' other alike)

end Derives

/-! ## The last token -/

/-- There is a last token, and its kind is good. -/
def LastKind (good : TokenKind → Prop) (tokens : List Token) : Prop :=
  ∃ front last, tokens = front ++ [last] ∧ good last.kind

namespace LastKind

variable {good : TokenKind → Prop} {tokens : List Token}

theorem single {last : Token} (here : good last.kind) : LastKind good [last] := ⟨[], last, rfl, here⟩

theorem append (before : List Token) (lasts : LastKind good tokens) :
    LastKind good (before ++ tokens) := by
  obtain ⟨front, last, rfl, here⟩ := lasts
  exact ⟨before ++ front, last, (List.append_assoc ..).symm, here⟩

theorem cons (first : Token) (lasts : LastKind good tokens) : LastKind good (first :: tokens) :=
  lasts.append [first]

theorem mono {wider : TokenKind → Prop} (lasts : LastKind good tokens)
    (wide : ∀ kind, good kind → wider kind) : LastKind wider tokens := by
  obtain ⟨front, last, same, here⟩ := lasts
  exact ⟨front, last, same, wide _ here⟩

end LastKind

/-- The semicolon of a statement. -/
def Derivation.ending : Derivation → Option Token
  | .letStatement _ _ _ _ ending | .returnStatement _ _ ending | .expressionStatement _ ending =>
      ending
  | _ => none

/-- What a phrase may end with: a semicolon ends a statement that has one, and
otherwise only a list that it closes. -/
def EndsWith : Phrase → Derivation → TokenKind → Prop
  | .statement, tree, kind => kind = .semicolon → tree.ending.isSome
  | .statements closer, _, kind => kind = closer
  | _, _, kind => kind ≠ .semicolon

namespace Derives

variable {phrase : Phrase} {tree : Derivation} {input rest : List Token}

theorem last_token (derives : Derives phrase tree input rest) :
    LastKind (EndsWith phrase tree) tree.tokens := by
  have value {tree : Derivation} {ending : Option Token}
      (within : LastKind (· ≠ .semicolon) tree.tokens) :
      LastKind (fun kind => kind = .semicolon → ending.isSome)
        (tree.tokens ++ ending.toList) := by
    cases ending with
    | some token => exact .append tree.tokens (.single fun _ => rfl)
    | none =>
        rw [Option.toList_none, List.append_nil]
        exact within.mono fun kind other ends => absurd ends other
  have other {kind wanted : TokenKind} (closes : kind = wanted) (apart : wanted ≠ .semicolon) :
      kind ≠ .semicolon := closes ▸ apart
  induction derives with
  | name _ kind | integer _ kind => exact .single (other kind (by decide))
  | truth _ kind =>
      rcases kind with kind | kind
      · exact .single (other kind (by decide))
      · exact .single (other kind (by decide))
  | group _ _ _ closes =>
      exact .cons _ (.append _ (.single (other closes (by decide))))
  | prefixed _ _ _ ih => exact .cons _ ih
  | binary _ _ _ _ _ ih' => exact .append _ (.cons _ ih')
  | call _ _ _ _ _ ih' => exact .append _ (.cons _ ih')
  | ifThen _ _ _ _ _ _ _ _ ih' => exact .cons _ (.cons _ (.append _ (.cons _ ih')))
  | ifElse _ _ _ _ _ _ _ _ _ _ ih'' =>
      exact .cons _ (.cons _ (.append _ (.cons _ (.append _ (.cons _ ih'')))))
  | function _ _ _ _ _ _ ih' => exact .cons _ (.cons _ (.append _ ih'))
  | noArguments closes | noParameters closes => exact .single (other closes (by decide))
  | someArguments _ ih | someParameters _ ih => exact ih
  | lastArgument _ closes => exact .append _ (.single (other closes (by decide)))
  | argument _ _ _ _ ih' => exact .append _ (.cons _ ih')
  | lastParameter _ closes => exact .cons _ (.single (other closes (by decide)))
  | parameter _ _ _ ih => exact .cons _ (.cons _ ih)
  | letStatement _ _ _ _ _ ih => exact .cons _ (.cons _ (.cons _ (value ih)))
  | returnStatement _ _ _ ih => exact .cons _ (value ih)
  | expressionStatement _ _ ih => exact value ih
  | block _ _ ih => exact .cons _ (ih.mono fun kind closes => other closes (by decide))
  | closed closes => exact .single closes
  | followed _ _ _ ih' => exact .append _ ih'

/-! ## Statements after statements -/

/-- A statement with a semicolon may be followed by anything. -/
theorem reframe_of_ending (derives : Derives .statement tree input rest)
    (ended : tree.ending.isSome) (other : List Token) :
    Derives .statement tree (tree.tokens ++ other) other := by
  cases derives with
  | letStatement kind named assigns within ends =>
      obtain ⟨start, ends'⟩ := ends.reframe (.inl ended)
      simpa [Derivation.tokens] using
        letStatement kind named assigns (within.reframe _ start) ends'
  | returnStatement kind within ends =>
      obtain ⟨start, ends'⟩ := ends.reframe (.inl ended)
      simpa [Derivation.tokens] using returnStatement kind (within.reframe _ start) ends'
  | expressionStatement within ends =>
      obtain ⟨start, ends'⟩ := ends.reframe (.inl ended)
      simpa [Derivation.tokens] using expressionStatement (within.reframe _ start) ends'

/-- Statements of which the last has a semicolon, if there is one, go on with other
statements in place of the end of the input. -/
theorem join {other : Derivation} {tokens : List Token} {closing : Token}
    (derives : Derives (.statements .eof) tree (tokens ++ [closing]) [])
    (ended : ∀ last, tokens.getLast? = some last → last.kind = .semicolon)
    (later : Derives (.statements .eof) other input []) :
    ∃ joined, Derives (.statements .eof) joined (tokens ++ input) [] ∧
      joined.nodes = tree.nodes ++ other.nodes ∧
      joined.nesting = max tree.nesting other.nesting := by
  induction tree generalizing tokens with
  | closed token =>
      have same : tokens ++ [closing] = [] ++ [token] := derives.input_tokens
      obtain ⟨rfl, -⟩ := List.append_inj' same rfl
      exact ⟨other, later, rfl, (Nat.zero_max _).symm⟩
  | followed first rest _ ih =>
      cases derives with
      | @followed _ _ _ _ middle _ here next =>
          have nonempty : middle ≠ [] := by
            rintro rfl
            exact absurd next.length_lt (Nat.not_lt_zero _)
          obtain ⟨left, final, rfl⟩ : ∃ left final, middle = left ++ [final] :=
            ⟨_, _, (List.dropLast_concat_getLast nonempty).symm⟩
          have same := here.input_tokens
          rw [← List.append_assoc] at same
          obtain ⟨rfl, ⟨⟩⟩ := List.append_inj' same rfl
          have ended' : ∀ last, left.getLast? = some last → last.kind = .semicolon := by
            intro last found
            exact ended last (by rw [List.getLast?_append, found]; rfl)
          obtain ⟨joined, derives', nodes, nesting⟩ := ih next ended'
          -- Between two statements of the first list the next token stays what it is.
          have here' : Derives .statement first (first.tokens ++ (left ++ input))
              (left ++ input) := by
            cases left with
            | cons token left => exact here.reframe _ (startsAlike_cons _ _ _)
            | nil =>
                obtain ⟨front, last, spelled, ends⟩ := here.last_token
                refine here.reframe_of_ending (ends (ended last ?_)) _
                rw [spelled, List.append_nil, List.getLast?_concat]
          refine ⟨.followed first joined, ?_, ?_, ?_⟩
          · rw [List.append_assoc]
            exact .followed here' derives'
          · rw [Derivation.nodes, Derivation.nodes, nodes]
            rfl
          · rw [Derivation.nesting, Derivation.nesting, nesting, Nat.max_assoc]
  | _ => cases derives

end Derives

/-! ## Later lines -/

namespace Derivation

/-- The derivation so many lines further down. -/
def lower (amount : Int) : Derivation → Derivation
  | .name token => .name (token.lower amount)
  | .integer token => .integer (token.lower amount)
  | .truth token => .truth (token.lower amount)
  | .group opening inner closing =>
      .group (opening.lower amount) (inner.lower amount) (closing.lower amount)
  | .prefixed operator operand => .prefixed (operator.lower amount) (operand.lower amount)
  | .binary left operator right =>
      .binary (left.lower amount) (operator.lower amount) (right.lower amount)
  | .call callee opening arguments =>
      .call (callee.lower amount) (opening.lower amount) (arguments.lower amount)
  | .ifThen keyword opening condition closing consequence =>
      .ifThen (keyword.lower amount) (opening.lower amount) (condition.lower amount)
        (closing.lower amount) (consequence.lower amount)
  | .ifElse keyword opening condition closing consequence otherwise alternative =>
      .ifElse (keyword.lower amount) (opening.lower amount) (condition.lower amount)
        (closing.lower amount) (consequence.lower amount) (otherwise.lower amount)
        (alternative.lower amount)
  | .function keyword opening parameters body =>
      .function (keyword.lower amount) (opening.lower amount) (parameters.lower amount)
        (body.lower amount)
  | .noArguments closing => .noArguments (closing.lower amount)
  | .lastArgument given closing => .lastArgument (given.lower amount) (closing.lower amount)
  | .argument given comma more =>
      .argument (given.lower amount) (comma.lower amount) (more.lower amount)
  | .noParameters closing => .noParameters (closing.lower amount)
  | .lastParameter word closing => .lastParameter (word.lower amount) (closing.lower amount)
  | .parameter word comma more =>
      .parameter (word.lower amount) (comma.lower amount) (more.lower amount)
  | .letStatement keyword word assign value ending =>
      .letStatement (keyword.lower amount) (word.lower amount) (assign.lower amount)
        (value.lower amount) (ending.map (.lower amount))
  | .returnStatement keyword value ending =>
      .returnStatement (keyword.lower amount) (value.lower amount) (ending.map (.lower amount))
  | .expressionStatement value ending =>
      .expressionStatement (value.lower amount) (ending.map (.lower amount))
  | .block opening body => .block (opening.lower amount) (body.lower amount)
  | .closed closing => .closed (closing.lower amount)
  | .followed first rest => .followed (first.lower amount) (rest.lower amount)

variable (amount : Int)

theorem nesting_lower (tree : Derivation) : (tree.lower amount).nesting = tree.nesting := by
  induction tree <;> simp_all [lower, nesting]

theorem names_lower (tree : Derivation) :
    (tree.lower amount).names.map Node.eraseName = tree.names.map Node.eraseName := by
  induction tree <;> simp_all [lower, names, Token.lower, Node.eraseName]

/-- Lines aside, later lines give the same trees. -/
theorem erase_lower (tree : Derivation) :
    (tree.lower amount).node.erase = tree.node.erase ∧
      Node.eraseAll (tree.lower amount).nodes = Node.eraseAll tree.nodes := by
  induction tree <;>
    simp_all [lower, node, nodes, Node.erase, Node.eraseAll, Node.eraseName, Token.lower,
      names_lower]

end Derivation

theorem Ends.lower (amount : Int) {ending : Option Token} {after rest : List Token}
    (ends : Ends ending after rest) :
    Ends (ending.map (.lower amount)) (after.map (.lower amount)) (rest.map (.lower amount)) := by
  cases ends with
  | semicolon kind => exact .semicolon kind
  | bare noSemicolon stops => exact .bare noSemicolon stops

/-- Lines make no difference to a derivation. -/
theorem Derives.lower (amount : Int) {phrase : Phrase} {tree : Derivation}
    {input rest : List Token} (derives : Derives phrase tree input rest) :
    Derives phrase (tree.lower amount) (input.map (.lower amount)) (rest.map (.lower amount)) := by
  induction derives with
  | name fits kind => exact .name fits kind
  | integer fits kind run short => exact .integer fits kind run short
  | truth fits kind => exact .truth fits kind
  | group fits opens _ closes ih => exact .group fits opens ih closes
  | prefixed fits kind _ ih => exact .prefixed fits kind ih
  | binary fits kind _ _ ih ih' => exact .binary fits kind ih ih'
  | call fits _ opens _ ih ih' => exact .call fits ih opens ih'
  | ifThen fits kind opens _ closes _ alone ih ih' =>
      exact .ifThen fits kind opens ih closes ih' alone
  | ifElse fits kind opens _ closes _ parts _ ih ih' ih'' =>
      exact .ifElse fits kind opens ih closes ih' parts ih''
  | function fits kind opens _ _ ih ih' => exact .function fits kind opens ih ih'
  | noArguments closes => exact .noArguments closes
  | someArguments _ ih => exact .someArguments ih
  | lastArgument _ closes ih => exact .lastArgument ih closes
  | argument _ separates _ ih ih' => exact .argument ih separates ih'
  | noParameters closes => exact .noParameters closes
  | someParameters _ ih => exact .someParameters ih
  | lastParameter kind closes => exact .lastParameter kind closes
  | parameter kind separates _ ih => exact .parameter kind separates ih
  | letStatement kind named assigns _ ends ih =>
      exact .letStatement kind named assigns ih (ends.lower amount)
  | returnStatement kind _ ends ih => exact .returnStatement kind ih (ends.lower amount)
  | expressionStatement _ ends ih => exact .expressionStatement ih (ends.lower amount)
  | block opens _ ih => exact .block opens ih
  | closed closes => exact .closed closes
  | followed _ _ ih ih' => exact .followed ih ih'

/-- **Two programs, one below the other.** -/
theorem parse_joined {limit : Int} {levels : Nat} {source below : String} {program other : Node}
    (clean : parse limit levels source = .ok ⟨program, []⟩)
    (ended : ∀ last, (tokenize source).dropLast.getLast? = some last → last.kind = .semicolon)
    (clean' : parse limit levels below = .ok ⟨other, []⟩) :
    ∃ statements others lowered, program = .program statements ∧ other = .program others ∧
      parse limit levels (source ++ "\n" ++ below) =
        .ok ⟨.program (statements ++ lowered), []⟩ ∧
      Node.eraseAll lowered = Node.eraseAll others := by
  obtain ⟨tree, derives, fits, rfl⟩ := parse_derives clean
  obtain ⟨other, derives', fits', rfl⟩ := parse_derives clean'
  have closed : (tokenize source).dropLast ++ [(tokenize source).getLast (tokenize_ne_nil source)] =
      tokenize source := List.dropLast_concat_getLast _
  rw [← closed] at derives
  obtain ⟨joined, derives'', nodes, nesting⟩ :=
    derives.join ended (derives'.lower (linesDown source))
  rw [← tokenize_joined] at derives''
  refine ⟨_, _, (other.lower (linesDown source)).nodes, rfl, rfl, ?_, (other.erase_lower _).2⟩
  rw [← nodes]
  refine derives''.parse_eq ⟨?_, ?_⟩
  · rw [nesting, other.nesting_lower]
    exact Nat.max_le.2 ⟨fits.limit, fits'.limit⟩
  · rw [nesting, other.nesting_lower]
    exact Nat.max_le.2 ⟨fits.stack, fits'.stack⟩

end ExprLang
