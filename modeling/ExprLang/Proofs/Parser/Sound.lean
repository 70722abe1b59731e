/-
# ExprLang.Proofs.Parser.Sound — what is read cleanly has a derivation

A clean run of a rule over tokens from a text has found a phrase: there is a
derivation of what lies between the first token and the one the parser stands on
afterwards, its tree is the result, and its nesting is within the levels there
were (`sound_nestedRoutines`, `parseProgram_sound`).

`Finds` states what a clean run of a step leaves behind, and has one lemma for
each way that steps are put together, so the rules are read off it as they are
written. Operators are the one place with an invariant of its own: while `climb`
takes in continuations, the tree so far is derived on its own level and the next
token binds no tighter than that (`Standing`).
-/
import ExprLang.Proofs.Parser.Honest
import ExprLang.Proofs.Token.Lexed

namespace ExprLang

set_option autoImplicit false

open Parse

/-! ## Clean runs over tokens -/

/-- A clean run of the step over the tokens stops before a rest, and what it has
read is as said. -/
def Finds {α : Type} (step : Parse α) (depth : Nat) (input : List Token)
    (reading : α → List Token → Prop) : Prop :=
  ∀ diagnostics result after, Clean step (.over input depth diagnostics) result after →
    ∃ last rest, after = .over (last :: rest) depth diagnostics ∧ Lexed rest ∧
      reading result rest

namespace Finds

variable {α β : Type} {step : Parse α} {next : α → Parse β} {depth : Nat}
  {input rest : List Token} {reading : α → List Token → Prop}
  {reading' : β → List Token → Prop}

theorem of_eq {other : Parse α} (finds : Finds other depth input reading)
    (same : ∀ diagnostics, step (.over input depth diagnostics) =
      other (.over input depth diagnostics)) : Finds step depth input reading := by
  intro diagnostics result after clean
  obtain ⟨ended, unchanged⟩ := clean
  exact finds diagnostics result after ⟨(same diagnostics).symm.trans ended, unchanged⟩

theorem mono {wider : α → List Token → Prop} (finds : Finds step depth input reading)
    (weaker : ∀ result rest, Lexed rest → reading result rest → wider result rest) :
    Finds step depth input wider := by
  intro diagnostics result after clean
  obtain ⟨last, rest, position, lexed, read⟩ := finds diagnostics result after clean
  exact ⟨last, rest, position, lexed, weaker result rest lexed read⟩

theorem bind [Honest step] [∀ result, Honest (next result)]
    (first : Finds step depth input reading)
    (second : ∀ result last rest, Lexed rest → reading result rest →
      Finds (next result) depth (last :: rest) reading') :
    Finds (step >>= next) depth input reading' := by
  intro diagnostics result after clean
  obtain ⟨value, middle, here, later⟩ := clean.bind
  obtain ⟨last, rest, rfl, lexed, read⟩ := first diagnostics value middle here
  exact second value last rest lexed read diagnostics result after later

theorem pure {result : α} {last : Token} (lexed : Lexed rest) (read : reading result rest) :
    Finds (pure result) depth (last :: rest) reading := by
  intro diagnostics final after clean
  obtain ⟨rfl, rfl⟩ := clean.pure
  exact ⟨last, rest, rfl, lexed, read⟩

theorem current {next : Token → Parse β} {token : Token}
    (later : Finds (next token) depth (token :: rest) reading') :
    Finds (Parse.current >>= next) depth (token :: rest) reading' :=
  later.of_eq fun _ => rfl

theorem advance {next : Unit → Parse β} {passed : Token} (lexed : Lexed rest)
    (later : Finds (next ()) depth rest reading') :
    Finds (Parse.advance >>= next) depth (passed :: rest) reading' := by
  obtain ⟨token, tail, rfl⟩ := List.exists_cons_of_ne_nil lexed.ne_nil
  exact later.of_eq fun _ => rfl

theorem expect {next : Unit → Parse β} [∀ result, Honest (next result)] {passed : Token}
    {kind : TokenKind} (lexed : Lexed rest)
    (later : ∀ token tail, rest = token :: tail → token.kind = kind →
      Finds (next ()) depth (token :: tail) reading') :
    Finds (Parse.expect kind >>= next) depth (passed :: rest) reading' := by
  obtain ⟨token, tail, rfl⟩ := List.exists_cons_of_ne_nil lexed.ne_nil
  intro diagnostics result after clean
  obtain ⟨⟨⟩, middle, here, behind⟩ := clean.bind
  obtain ⟨wanted, rfl⟩ := here.expect
  exact later token tail rfl wanted diagnostics result after behind

theorem nested {limit : Int}
    (inside : (depth : Int) < limit → Finds step (depth + 1) input reading) :
    Finds (Parse.nested limit step) depth input
      fun result rest => (depth : Int) < limit ∧ reading result rest := by
  intro diagnostics result after clean
  obtain ⟨room, inner, within, rfl⟩ := clean.nested
  obtain ⟨last, rest, rfl, lexed, read⟩ := inside room diagnostics result inner within
  exact ⟨last, rest, rfl, lexed, room, read⟩

/-- After a statement comes its semicolon, or a token that cannot go on with it. -/
theorem terminated
    (finds : Finds step depth input fun result after =>
      reading result after ∧ Follows Precedence.lowest after) :
    Finds (Parse.terminated step) depth input fun result rest =>
      ∃ ending after, reading result after ∧ Ends ending after rest := by
  intro diagnostics result after clean
  obtain ⟨middle, here, rfl⟩ := clean.terminated
  obtain ⟨last, rest, rfl, lexed, read, next, tail, rfl, loose⟩ :=
    finds diagnostics result middle here
  by_cases semicolon : next.kind = .semicolon
  · refine ⟨next, tail, if_pos semicolon, lexed.tail ?_, some next, _, read, .semicolon semicolon⟩
    rw [semicolon]
    nofun
  · refine ⟨last, next :: tail, if_neg semicolon, lexed, none, _, read, .bare semicolon ?_⟩
    rintro (opens | operator)
    · rw [opens] at loose
      exact absurd loose (by decide)
    · obtain ⟨own, found⟩ := Option.isSome_iff_exists.1 operator
      have bounds := TokenKind.binaryLevel?_bounds found
      rw [(TokenKind.of_binaryLevel? found).1] at loose
      exact absurd (Nat.le_trans bounds.1 loose) (by decide)

end Finds

/-! ## What is found -/

section Readings

variable (limit : Int) (levels depth : Nat)

/-- A phrase, as the value of its tree. -/
def Phrased {α : Type} (phrase : Phrase) (value : Derivation → α) (input : List Token)
    (result : α) (rest : List Token) : Prop :=
  ∃ tree, Derives phrase tree input rest ∧ value tree = result ∧
    Room limit levels depth tree.nesting

/-- An expression that may go on: the next token binds no tighter than its level,
which is above the floor or that of an operand. -/
def Standing (floor : Nat) (input : List Token) (node : Node) (rest : List Token) : Prop :=
  ∃ tree, Derives (.expression tree.level) tree input rest ∧ tree.node = node ∧
    Room limit levels depth tree.nesting ∧ Follows tree.level rest ∧
    min (floor + 1) Precedence.unary ≤ tree.level

/-- An expression that is complete: the next token binds no tighter than the floor. -/
def Completed (floor : Nat) (input : List Token) (node : Node) (rest : List Token) : Prop :=
  ∃ tree, Derives (.expression (min (floor + 1) Precedence.unary)) tree input rest ∧
    tree.node = node ∧ Room limit levels depth (tree.nesting + 1) ∧ Follows floor rest

/-- What the routines on a level of stack find. -/
structure SoundNested : Prop where
  expression : ∀ {depth floor : Nat} {input : List Token}, (depth : Int) ≤ limit →
    Precedence.lowest ≤ floor → floor ≤ Precedence.unary → Lexed input →
    Finds ((nestedRoutines .standard limit levels).expression (.level floor)) depth input
      (Completed limit levels depth floor input)
  block : ∀ {depth : Nat} {opening : Token} {input : List Token}, (depth : Int) ≤ limit →
    opening.kind = .leftBrace → Lexed input →
    Finds (nestedRoutines .standard limit levels).block depth (opening :: input)
      (Phrased limit levels depth .block Derivation.node (opening :: input))

end Readings

variable {limit : Int} {levels depth : Nat} {input rest : List Token}

theorem Lexed.follows (lexed : Lexed rest) : Follows Precedence.call rest := by
  obtain ⟨next, tail, rfl⟩ := List.exists_cons_of_ne_nil lexed.ne_nil
  exact ⟨next, tail, rfl, next.kind.precedence_le⟩

/-- What is no prefix or binary operation stands whatever comes next. -/
theorem standing_of_primary {tree : Derivation} {node : Node} (floor : Nat)
    (primary : tree.level = Precedence.call) (lexed : Lexed rest)
    (derives : Derives (.expression Precedence.call) tree input rest) (same : tree.node = node)
    (room : Room limit levels depth tree.nesting) :
    Standing limit levels depth floor input node rest := by
  have above : min (floor + 1) Precedence.unary ≤ Precedence.call :=
    Nat.le_trans (Nat.min_le_right _ _) (by decide)
  refine ⟨tree, ?_, same, room, ?_, ?_⟩ <;> rw [primary]
  · exact derives
  · exact lexed.follows
  · exact above

/-! ## Rules without an expression of their own -/

namespace Routine

/-- The closing parenthesis is all that is left. -/
theorem finds_closing {α : Type} (result : α) (last : Token) (lexed : Lexed rest) :
    Finds
      (do
        expect .rightParen
        return result)
      depth (last :: rest)
      fun found behind => ∃ closing, rest = closing :: behind ∧ closing.kind = .rightParen ∧
        found = result := by
  refine .expect lexed ?_
  rintro closing tail rfl closes
  exact .pure (lexed.tail (by rw [closes]; nofun)) ⟨closing, rfl, closes, rfl⟩

theorem finds_parameter (before : Token) (lexed : Lexed input) :
    Finds parameter depth (before :: input) fun name rest => ∃ token, input = token :: rest ∧
      token.kind = .identifier ∧ name = ⟨token.literal, token.line⟩ := by
  refine .expect lexed ?_
  rintro token tail rfl kind
  exact .current (.pure (lexed.tail (by rw [kind]; nofun)) ⟨token, rfl, kind, rfl⟩)

theorem finds_lastParameter {token : Token} (found : List Name) (last : Token)
    (kind : token.kind = .identifier) (lexed : Lexed rest) :
    Finds
      (do
        expect .rightParen
        return (⟨token.literal, token.line⟩ :: found).reverse)
      depth (last :: rest)
      fun names behind => ∃ tree, Derives .parameterList tree (token :: rest) behind ∧
        found.reverse ++ tree.names = names := by
  refine (finds_closing _ last lexed).mono ?_
  rintro names behind - ⟨closing, rfl, closes, rfl⟩
  exact ⟨.lastParameter token closing, .lastParameter kind closes, by simp [Derivation.names]⟩

/-- A name and, as long as commas follow, further ones. -/
theorem finds_parameterList (depth : Nat) (turns : List Token) (found : List Name) (before : Token)
    (lexed : Lexed input) :
    Finds
      (do
        let name ← parameter
        moreParameters turns (name :: found))
      depth (before :: input)
      fun names rest => ∃ tree, Derives .parameterList tree input rest ∧
        found.reverse ++ tree.names = names := by
  induction turns generalizing found before input with
  | nil =>
      refine .bind (finds_parameter before lexed) ?_
      rintro name last rest later ⟨token, rfl, kind, rfl⟩
      exact finds_lastParameter found last kind later
  | cons turn turns ih =>
      refine .bind (finds_parameter before lexed) ?_
      rintro name last rest later ⟨token, rfl, kind, rfl⟩
      obtain ⟨next, tail, rfl⟩ := List.exists_cons_of_ne_nil later.ne_nil
      by_cases separates : next.kind = .comma
      · refine .of_eq (.advance later ?_) fun _ => if_pos separates
        have others := ih (⟨token.literal, token.line⟩ :: found) next
          (later.tail (by rw [separates]; nofun))
        refine others.mono ?_
        rintro names behind - ⟨tree, derives, rfl⟩
        exact ⟨.parameter token next tree, .parameter kind separates derives,
          by simp [Derivation.names]⟩
      · exact (finds_lastParameter found last kind later).of_eq fun _ => if_neg separates

theorem finds_parameters (opening : Token) (lexed : Lexed input) :
    Finds parameters depth (opening :: input) fun names rest =>
      ∃ tree, Derives .parameters tree input rest ∧ tree.names = names := by
  obtain ⟨next, tail, rfl⟩ := List.exists_cons_of_ne_nil lexed.ne_nil
  by_cases closes : next.kind = .rightParen
  · have none : Finds (do
        Parse.advance
        return []) depth (opening :: next :: tail) fun names rest =>
          ∃ tree, Derives .parameters tree (next :: tail) rest ∧ tree.names = names :=
      .advance lexed (.pure (lexed.tail (by rw [closes]; nofun))
        ⟨.noParameters next, .noParameters closes, rfl⟩)
    exact none.of_eq fun _ => if_pos closes
  · have some_ := finds_parameterList depth (opening :: next :: tail) [] opening lexed
    refine Finds.of_eq (some_.mono ?_) fun _ => if_neg closes
    rintro names rest - ⟨tree, derives, rfl⟩
    exact ⟨tree, .someParameters derives, rfl⟩

theorem finds_integer {token : Token} (within : (depth : Int) ≤ limit) (floor : Nat)
    (kind : token.kind = .int) (run : Decimal.Run token.literal) (lexed : Lexed input) :
    Finds integer depth (token :: input)
      (Standing limit levels depth floor (token :: input)) := by
  refine .current ?_
  rw [Decimal.read?_of_run run]
  by_cases short : token.literal.length ≤ Decimal.digitLimit
  · rw [if_pos short]
    exact .pure lexed (standing_of_primary floor rfl lexed
      (.integer (Nat.le_refl _) kind run short) rfl (.zero within))
  · rw [if_neg short]
    intro diagnostics result after clean
    obtain ⟨ended, -⟩ := clean
    cases ended

theorem finds_lastArgument {tree : Derivation} (found : List Node) (last : Token)
    (derives : Derives (.expression Precedence.equality) tree input rest)
    (room : Room limit levels depth (tree.nesting + 1)) (lexed : Lexed rest) :
    Finds
      (do
        expect .rightParen
        return (tree.node :: found).reverse)
      depth (last :: rest)
      fun given behind => ∃ list, Derives .argumentList list input behind ∧
        found.reverse ++ list.nodes = given ∧ Room limit levels depth list.nesting := by
  refine (finds_closing _ last lexed).mono ?_
  rintro given behind - ⟨closing, rfl, closes, rfl⟩
  exact ⟨.lastArgument tree closing, .lastArgument derives closes, by simp [Derivation.nodes], room⟩

end Routine

namespace SoundNested

open Routine

variable (sound : SoundNested limit levels) (within : (depth : Int) ≤ limit)

include sound within

/-- The common case of an expression of any level. -/
theorem lowest (lexed : Lexed input) :
    Finds ((nestedRoutines .standard limit levels).expression .lowest) depth input
      (Completed limit levels depth Precedence.lowest input) :=
  sound.expression within (Nat.le_refl _) (by decide) lexed

/-! ### Operands -/

theorem finds_group {opening : Token} (floor : Nat) (opens : opening.kind = .leftParen)
    (lexed : Lexed input) :
    Finds (group (nestedRoutines .standard limit levels)) depth (opening :: input)
      (Standing limit levels depth floor (opening :: input)) := by
  refine .advance lexed (.bind (sound.lowest within lexed) ?_)
  rintro node last rest lexed ⟨tree, derives, rfl, room, -⟩
  refine .expect lexed ?_
  rintro closing tail rfl closes
  have lexed := lexed.tail (by rw [closes]; nofun)
  exact .pure lexed (standing_of_primary floor rfl lexed
    (.group (Nat.le_refl _) opens derives closes) rfl room)

theorem finds_prefixed {operator : Token} (floor : Nat)
    (kind : operator.kind = .bang ∨ operator.kind = .minus) (lexed : Lexed input) :
    Finds (prefixed (nestedRoutines .standard limit levels)) depth (operator :: input)
      (Standing limit levels depth floor (operator :: input)) := by
  have operand := sound.expression within (by decide) (Nat.le_refl Precedence.unary) lexed
  refine .current (.advance lexed (.bind operand ?_))
  rintro node last rest lexed ⟨tree, derives, rfl, room, follows⟩
  exact .pure lexed ⟨.prefixed operator tree, .prefixed (Nat.le_refl _) kind derives, rfl, room,
    follows, Nat.min_le_right _ _⟩

theorem finds_conditional {keyword : Token} (floor : Nat) (kind : keyword.kind = .ifKeyword)
    (lexed : Lexed input) :
    Finds (conditional (nestedRoutines .standard limit levels)) depth (keyword :: input)
      (Standing limit levels depth floor (keyword :: input)) := by
  refine .current (.expect lexed ?_)
  rintro opening input rfl opens
  have lexed := lexed.tail (by rw [opens]; nofun)
  refine .advance lexed (.bind (sound.lowest within lexed) ?_)
  rintro condition last rest lexed ⟨test, derives, rfl, room, -⟩
  refine .expect lexed ?_
  rintro closing middle rfl closes
  have lexed := lexed.tail (by rw [closes]; nofun)
  refine .expect lexed ?_
  rintro brace body rfl braced
  have lexed := lexed.tail (by rw [braced]; nofun)
  refine .bind (sound.block within braced lexed) ?_
  rintro consequence last rest lexed ⟨first, derives', rfl, room'⟩
  obtain ⟨next, tail, rfl⟩ := List.exists_cons_of_ne_nil lexed.ne_nil
  by_cases parts : next.kind = .elseKeyword
  · refine .of_eq (.advance lexed ?_) fun _ => if_pos parts
    have lexed := lexed.tail (by rw [parts]; nofun)
    refine .expect lexed ?_
    rintro brace' body' rfl braced'
    have lexed := lexed.tail (by rw [braced']; nofun)
    refine .bind (sound.block within braced' lexed) ?_
    rintro alternative last rest lexed ⟨second, derives'', rfl, room''⟩
    exact .pure lexed (standing_of_primary floor rfl lexed
      (.ifElse (Nat.le_refl _) kind opens derives closes derives' parts derives'') rfl
      (room.max (room'.max room'')))
  · refine .of_eq (.pure lexed (standing_of_primary floor rfl lexed
      (.ifThen (Nat.le_refl _) kind opens derives closes derives' parts) rfl (room.max room')))
      fun _ => if_neg parts

theorem finds_function {keyword : Token} (floor : Nat) (kind : keyword.kind = .functionKeyword)
    (lexed : Lexed input) :
    Finds (function (nestedRoutines .standard limit levels)) depth (keyword :: input)
      (Standing limit levels depth floor (keyword :: input)) := by
  refine .current (.expect lexed ?_)
  rintro opening input rfl opens
  have lexed := lexed.tail (by rw [opens]; nofun)
  refine .bind (finds_parameters opening lexed) ?_
  rintro names last rest lexed ⟨parameters, derives, rfl⟩
  refine .expect lexed ?_
  rintro brace body rfl braced
  have lexed := lexed.tail (by rw [braced]; nofun)
  refine .bind (sound.block within braced lexed) ?_
  rintro block last rest lexed ⟨tree, derives', rfl, room⟩
  exact .pure lexed (standing_of_primary floor rfl lexed
    (.function (Nat.le_refl _) kind opens derives derives') rfl room)

theorem finds_operand (floor : Nat) (lexed : Lexed input) :
    Finds (operand .standard limit (nestedRoutines .standard limit levels)) depth input
      (Standing limit levels depth floor input) := by
  obtain ⟨token, tail, rfl⟩ := List.exists_cons_of_ne_nil lexed.ne_nil
  cases found : Grammar.standard.operand token.kind with
  | none =>
      intro diagnostics result after clean
      obtain ⟨ended, -⟩ := clean
      have absent :
          Grammar.standard.operand (Parser.over (token :: tail) depth diagnostics).curr.kind =
            none := found
      rw [operand_of_none absent] at ended
      cases ended
  | some rule =>
      have later : Lexed tail := lexed.tail fun ends => by
        rw [ends] at found
        cases found
      have leaf : Room limit levels depth 0 := .zero within
      have finds : Finds (asOperand limit (nestedRoutines .standard limit levels) rule) depth
          (token :: tail) (Standing limit levels depth floor (token :: tail)) := by
        rcases Grammar.operand_standard found with
          ⟨kind, rfl⟩ | ⟨kind, rfl⟩ | ⟨kind, rfl⟩ | ⟨kind, rfl⟩ | ⟨kind, rfl⟩ | ⟨kind, rfl⟩ |
          ⟨kind, rfl⟩
        · exact .current (.pure later (standing_of_primary floor rfl later
            (.name (Nat.le_refl _) kind) rfl leaf))
        · exact finds_integer within floor kind (lexed.run kind) later
        · exact .current (.pure later (standing_of_primary floor rfl later
            (.truth (Nat.le_refl _) kind) rfl leaf))
        · exact sound.finds_group within floor kind later
        · exact sound.finds_prefixed within floor kind later
        · exact sound.finds_conditional within floor kind later
        · exact sound.finds_function within floor kind later
      exact finds.of_eq fun _ => operand_of_rule found

/-! ### Operators and calls -/

/-- An argument and, as long as commas follow, further ones. -/
theorem finds_argumentList (turns : List Token) (found : List Node) (before : Token)
    (lexed : Lexed input) :
    Finds
      (do
        Parse.advance
        let given ← (nestedRoutines .standard limit levels).expression .lowest
        moreArguments (nestedRoutines .standard limit levels) turns (given :: found))
      depth (before :: input)
      fun given rest => ∃ list, Derives .argumentList list input rest ∧
        found.reverse ++ list.nodes = given ∧ Room limit levels depth list.nesting := by
  induction turns generalizing found before input with
  | nil =>
      refine .advance lexed (.bind (sound.lowest within lexed) ?_)
      rintro node last rest later ⟨tree, derives, rfl, room, -⟩
      exact finds_lastArgument found last derives room later
  | cons turn turns ih =>
      refine .advance lexed (.bind (sound.lowest within lexed) ?_)
      rintro node last rest later ⟨tree, derives, rfl, room, -⟩
      obtain ⟨next, tail, rfl⟩ := List.exists_cons_of_ne_nil later.ne_nil
      by_cases separates : next.kind = .comma
      · refine .of_eq (.advance later ?_) fun _ => if_pos separates
        refine (ih (tree.node :: found) next (later.tail (by rw [separates]; nofun))).mono ?_
        rintro given behind - ⟨list, derives', rfl, room'⟩
        exact ⟨.argument tree next list, .argument derives separates derives',
          by simp [Derivation.nodes], room.max room'⟩
      · exact (finds_lastArgument found last derives room later).of_eq fun _ => if_neg separates

theorem finds_arguments (opening : Token) (lexed : Lexed input) :
    Finds (arguments (nestedRoutines .standard limit levels)) depth (opening :: input)
      (Phrased limit levels depth .arguments Derivation.nodes input) := by
  obtain ⟨next, tail, rfl⟩ := List.exists_cons_of_ne_nil lexed.ne_nil
  by_cases closes : next.kind = .rightParen
  · have none : Finds (do
        Parse.advance
        return []) depth (opening :: next :: tail)
          (Phrased limit levels depth .arguments Derivation.nodes (next :: tail)) :=
      .advance lexed (.pure (lexed.tail (by rw [closes]; nofun))
        ⟨.noArguments next, .noArguments closes, rfl, .zero within⟩)
    exact none.of_eq fun _ => if_pos closes
  · have some_ := sound.finds_argumentList within (opening :: next :: tail) [] opening lexed
    refine Finds.of_eq (some_.mono ?_) fun _ => if_neg closes
    rintro given rest - ⟨list, derives, rfl, room⟩
    exact ⟨list, .someArguments derives, rfl, room⟩

theorem finds_call {left : Node} {opening : Token} {floor : Nat}
    (standing : Standing limit levels depth floor input left (opening :: rest))
    (opens : opening.kind = .leftParen) (lexed : Lexed rest) :
    Finds (call (nestedRoutines .standard limit levels) left) depth (opening :: rest)
      fun node behind => Standing limit levels depth floor input node behind ∧
        behind.length < rest.length := by
  obtain ⟨tree, derives, rfl, room, ⟨_, _, ⟨⟩, loose⟩, above⟩ := standing
  rw [opens] at loose
  refine .current (.bind (sound.finds_arguments within opening lexed) ?_)
  rintro given last behind lexed ⟨list, derives', rfl, room'⟩
  exact .pure lexed ⟨standing_of_primary floor rfl lexed
    (.call (Nat.le_refl _) (derives.mono loose) opens derives') rfl (room.max room'),
    derives'.length_lt⟩

/-- The right operand takes in what binds tighter, so the operation stands. -/
theorem finds_binary {left : Node} {operator : Token} {floor own : Nat}
    (standing : Standing limit levels depth floor input left (operator :: rest))
    (kind : operator.kind.binaryLevel? = some own) (tight : floor < own) (lexed : Lexed rest) :
    Finds (binary (nestedRoutines .standard limit levels) left) depth (operator :: rest)
      fun node behind => Standing limit levels depth floor input node behind ∧
        behind.length < rest.length := by
  obtain ⟨low, high⟩ := TokenKind.binaryLevel?_bounds kind
  obtain ⟨precedence, -, -⟩ := TokenKind.of_binaryLevel? kind
  obtain ⟨tree, derives, rfl, room, ⟨_, _, ⟨⟩, loose⟩, above⟩ := standing
  rw [precedence] at loose
  have bounded : Precedence.lowest ≤ own := Nat.le_trans (by decide) low
  refine .current (.advance lexed ?_)
  rw [precedence]
  refine .bind (sound.expression within bounded (Nat.le_of_lt high) lexed) ?_
  rintro node last behind lexed ⟨right, derives', rfl, room', follows⟩
  rw [Nat.min_eq_left (Nat.succ_le_of_lt high)] at derives'
  have level : (Derivation.binary tree operator right).level = own := by
    simp [Derivation.level, kind]
  refine .pure lexed ⟨⟨.binary tree operator right, ?_, rfl, room.max room', ?_, ?_⟩,
    derives'.length_lt⟩ <;> rw [level]
  · exact .binary (Nat.le_refl _) kind (derives.mono loose) derives'
  · exact follows
  · exact Nat.le_trans (Nat.min_le_left _ _) tight

theorem finds_continuation {left : Node} {next : Token} {floor : Nat} {rule : Rule}
    (standing : Standing limit levels depth floor input left (next :: rest))
    (found : Grammar.standard.continuation next.kind = some rule)
    (tight : floor < next.kind.precedence) (lexed : Lexed rest) :
    Finds (asContinuation (nestedRoutines .standard limit levels) left rule) depth (next :: rest)
      fun node behind => Standing limit levels depth floor input node behind ∧
        behind.length < rest.length := by
  rcases Grammar.continuation_standard found with ⟨kind, rfl⟩ | ⟨kind, rfl⟩
  · exact sound.finds_binary within standing kind tight lexed
  · exact sound.finds_call within standing kind lexed

/-- Taking in continuations keeps the expression standing, up to a token that
binds no tighter than the floor. -/
theorem finds_climb {floor : Nat} (bounded : Precedence.lowest ≤ floor) (turns : List Token)
    {left : Node} (last : Token) (lexed : Lexed rest) (enough : rest.length < turns.length)
    (standing : Standing limit levels depth floor input left rest) :
    Finds (climb .standard (nestedRoutines .standard limit levels) (.level floor) turns left) depth
      (last :: rest)
      fun node rest => Standing limit levels depth floor input node rest ∧ Follows floor rest := by
  induction turns generalizing left last rest with
  | nil => simp at enough
  | cons turn turns ih =>
      obtain ⟨next, tail, rfl⟩ := List.exists_cons_of_ne_nil lexed.ne_nil
      simp only [List.length_cons, Nat.add_lt_add_iff_right] at enough
      rintro diagnostics result after ⟨ended, same⟩
      rcases climb_cases floor turn turns left (.over (last :: next :: tail) depth diagnostics) with
        ⟨stops, stopped⟩ | ⟨rule, tight, found, goes⟩
      · rw [stopped] at ended
        cases ended
        refine ⟨last, next :: tail, rfl, lexed, standing, next, tail, rfl, ?_⟩
        rcases stops with (semicolon : next.kind = .semicolon) | loose | absent
        · rw [semicolon]
          exact bounded
        · exact loose
        · exact Nat.le_trans (Nat.le_of_eq (TokenKind.precedence_of_continuation_none absent))
            bounded
      · change Grammar.standard.continuation next.kind = some rule at found
        have later : Lexed tail := lexed.tail fun ends => by
          rw [ends] at found
          cases found
        have honest := asContinuation_honest (nestedRoutines .standard limit levels) left found
        have finds : Finds
            (do
              Parse.advance
              let node ← asContinuation (nestedRoutines .standard limit levels) left rule
              climb .standard (nestedRoutines .standard limit levels) (.level floor) turns node)
            depth (last :: next :: tail) fun node rest =>
              Standing limit levels depth floor input node rest ∧ Follows floor rest := by
          refine .advance lexed (.bind (sound.finds_continuation within standing found tight later)
            ?_)
          rintro node last rest lexed ⟨standing, shorter⟩
          exact ih last lexed (by omega) standing
        exact finds diagnostics result after ⟨goes.symm.trans ended, same⟩

/-! ### Statements and blocks -/

/-- The expression of a statement and its end. -/
theorem finds_value (lexed : Lexed input) :
    Finds (Parse.terminated ((nestedRoutines .standard limit levels).expression .lowest)) depth
      input fun node rest => ∃ ending after,
        (∃ tree, Derives (.expression Precedence.equality) tree input after ∧ tree.node = node ∧
          Room limit levels depth (tree.nesting + 1)) ∧ Ends ending after rest := by
  refine Finds.terminated ((sound.lowest within lexed).mono ?_)
  rintro node after - ⟨tree, derives, same, room, follows⟩
  exact ⟨⟨tree, derives, same, room⟩, follows⟩

theorem finds_letStatement {keyword : Token} (kind : keyword.kind = .letKeyword)
    (lexed : Lexed input) :
    Finds (letStatement (nestedRoutines .standard limit levels)) depth (keyword :: input)
      (Phrased limit levels depth .statement Derivation.node (keyword :: input)) := by
  refine .current (.expect lexed ?_)
  rintro name tail rfl named
  have lexed := lexed.tail (by rw [named]; nofun)
  refine .current (.expect lexed ?_)
  rintro assign tail rfl assigns
  have lexed := lexed.tail (by rw [assigns]; nofun)
  refine .advance lexed (.bind (sound.finds_value within lexed) ?_)
  rintro node last rest lexed ⟨ending, after, ⟨tree, derives, rfl, room⟩, ends⟩
  exact .pure lexed ⟨.letStatement keyword name assign tree ending,
    .letStatement kind named assigns derives ends, rfl, room⟩

theorem finds_returnStatement {keyword : Token} (kind : keyword.kind = .returnKeyword)
    (lexed : Lexed input) :
    Finds (returnStatement (nestedRoutines .standard limit levels)) depth (keyword :: input)
      (Phrased limit levels depth .statement Derivation.node (keyword :: input)) := by
  refine .current (.advance lexed (.bind (sound.finds_value within lexed) ?_))
  rintro node last rest lexed ⟨ending, after, ⟨tree, derives, rfl, room⟩, ends⟩
  exact .pure lexed ⟨.returnStatement keyword tree ending, .returnStatement kind derives ends, rfl,
    room⟩

theorem finds_expressionStatement {token : Token} (lexed : Lexed (token :: input)) :
    Finds (expressionStatement (nestedRoutines .standard limit levels)) depth (token :: input)
      (Phrased limit levels depth .statement Derivation.node (token :: input)) := by
  refine .current (.bind (sound.finds_value within lexed) ?_)
  rintro node last rest lexed ⟨ending, after, ⟨tree, derives, rfl, room⟩, ends⟩
  obtain ⟨tail, same⟩ := derives.input_eq
  refine .pure lexed ⟨.expressionStatement tree ending, .expressionStatement derives ends, ?_, room⟩
  rw [List.cons.inj same |>.1]
  rfl

theorem finds_statement (lexed : Lexed input) :
    Finds (statement (nestedRoutines .standard limit levels)) depth input
      (Phrased limit levels depth .statement Derivation.node input) := by
  obtain ⟨token, tail, rfl⟩ := List.exists_cons_of_ne_nil lexed.ne_nil
  by_cases isLet : token.kind = .letKeyword
  · have later := lexed.tail (by rw [isLet]; nofun)
    exact (sound.finds_letStatement within isLet later).of_eq fun _ => statement_of_let isLet
  by_cases isReturn : token.kind = .returnKeyword
  · have later := lexed.tail (by rw [isReturn]; nofun)
    exact (sound.finds_returnStatement within isReturn later).of_eq fun _ =>
      statement_of_return isReturn
  exact (sound.finds_expressionStatement within lexed).of_eq fun _ =>
    statement_of_other isLet isReturn

/-- A failed statement leaves a diagnostic, so in a clean block there is none. -/
theorem finds_blockBody (turns : List Token) (found : List Node) (lexed : Lexed input) :
    Finds (blockBody (nestedRoutines .standard limit levels) turns found) depth input
      fun nodes rest => ∃ body, Derives (.statements .rightBrace) body input rest ∧
        found.reverse ++ body.nodes = nodes ∧ Room limit levels depth body.nesting := by
  induction turns generalizing found input with
  | nil =>
      rintro diagnostics result after ⟨ended, -⟩
      cases ended
  | cons turn turns ih =>
      obtain ⟨token, tail, rfl⟩ := List.exists_cons_of_ne_nil lexed.ne_nil
      intro diagnostics result after clean
      rcases clean_blockBody clean with ⟨closes, rfl, rfl⟩ | ⟨-, node, middle, here, later⟩
      · change token.kind = .rightBrace at closes
        exact ⟨token, tail, rfl, lexed.tail (by rw [closes]; nofun), .closed token, .closed closes,
          by simp [Derivation.nodes], .zero within⟩
      · obtain ⟨last, rest, rfl, lexed, tree, derives, rfl, room⟩ :=
          sound.finds_statement within lexed diagnostics node middle here
        obtain ⟨next, others, rfl⟩ := List.exists_cons_of_ne_nil lexed.ne_nil
        obtain ⟨last', rest', position, lexed', body, derives', rfl, room'⟩ :=
          ih (tree.node :: found) lexed diagnostics result after later
        exact ⟨last', rest', position, lexed', .followed tree body, .followed derives derives',
          by simp [Derivation.nodes], room.max room'⟩

theorem finds_programBody (turns : List Token) (found : List Node) (lexed : Lexed input)
    (enough : input.length ≤ turns.length) {diagnostics : List Diagnostic} {nodes : List Node}
    {after : Parser}
    (clean : Clean (programBody limit (nestedRoutines .standard limit levels) turns found)
      (.over input depth diagnostics) nodes after) :
    ∃ body, Derives (.statements .eof) body input [] ∧ found.reverse ++ body.nodes = nodes ∧
      Room limit levels depth body.nesting := by
  induction turns generalizing found input with
  | nil => exact absurd (List.eq_nil_of_length_eq_zero (Nat.le_zero.1 enough)) lexed.ne_nil
  | cons turn turns ih =>
      obtain ⟨token, tail, rfl⟩ := List.exists_cons_of_ne_nil lexed.ne_nil
      rcases clean_programBody clean with ⟨closes, rfl, -⟩ | ⟨-, node, middle, here, later⟩
      · change token.kind = .eof at closes
        cases lexed with
        | eof => exact ⟨.closed token, .closed closes, by simp [Derivation.nodes], .zero within⟩
        | more noEnd => exact absurd closes noEnd
      · obtain ⟨last, rest, rfl, lexed, tree, derives, rfl, room⟩ :=
          sound.finds_statement within lexed diagnostics node middle here
        have shorter := derives.length_lt
        obtain ⟨next, others, rfl⟩ := List.exists_cons_of_ne_nil lexed.ne_nil
        obtain ⟨body, derives', rfl, room'⟩ := ih (tree.node :: found) lexed
          (by simp only [List.length_cons] at *; omega) later
        exact ⟨.followed tree body, .followed derives derives', by simp [Derivation.nodes],
          room.max room'⟩

/-- An expression inside of its nesting guard. -/
theorem finds_unguarded {floor : Nat} (bounded : Precedence.lowest ≤ floor)
    (lexed : Lexed input) :
    Finds (unguarded limit (nestedRoutines .standard limit levels) floor) depth input
      fun node rest => Standing limit levels depth floor input node rest ∧ Follows floor rest := by
  refine .bind (sound.finds_operand within floor lexed) ?_
  intro left last rest lexed standing
  have climbs := sound.finds_climb within bounded (last :: rest) last lexed (by simp) standing
  exact climbs.of_eq fun _ => rfl

/-- A block inside of its nesting guard. -/
theorem finds_blockStatements (opening : Token) (opens : opening.kind = .leftBrace)
    (lexed : Lexed input) :
    Finds
      (do
        let token ← Parse.current
        Parse.advance
        let statements ← (fun parser => blockBody (nestedRoutines .standard limit levels)
          parser.tokens [] parser : Parse (List Node))
        return .block token.line statements)
      depth (opening :: input)
      fun node rest => ∃ body, Derives .block (.block opening body) (opening :: input) rest ∧
        (Derivation.block opening body).node = node ∧ Room limit levels depth body.nesting := by
  obtain ⟨first, tail, rfl⟩ := List.exists_cons_of_ne_nil lexed.ne_nil
  have body : Finds (fun parser => blockBody (nestedRoutines .standard limit levels)
      parser.tokens [] parser : Parse (List Node)) depth (first :: tail) _ :=
    (sound.finds_blockBody within (first :: tail) [] lexed).of_eq fun _ => rfl
  refine .current (.advance lexed (.bind body ?_))
  rintro nodes last rest lexed ⟨body, derives, rfl, room⟩
  exact .pure lexed ⟨body, .block opens derives, rfl, room⟩

omit within

/-- One more level of stack is sound when the levels below are. -/
theorem next : SoundNested limit (levels + 1) where
  expression := by
    intro depth floor input _ bounded _ lexed
    refine (Finds.nested fun below => sound.finds_unguarded (by omega) bounded lexed).mono ?_
    rintro node rest - ⟨below, ⟨tree, derives, same, room, -, above⟩, follows⟩
    exact ⟨tree, derives.mono above, same, .leave room, follows⟩
  block := by
    intro depth opening input _ opens lexed
    refine (Finds.nested fun below => sound.finds_blockStatements (by omega) opening opens
      lexed).mono ?_
    rintro node rest - ⟨below, body, derives, same, room⟩
    exact ⟨.block opening body, derives, same, .leave room⟩

end SoundNested

/-- On every level of stack the routines find what they read. -/
theorem sound_nestedRoutines (limit : Int) (levels : Nat) : SoundNested limit levels := by
  induction levels with
  | zero =>
      constructor
      · rintro depth floor input - - - - diagnostics result after ⟨ended, -⟩
        cases ended
      · rintro depth opening input - - - diagnostics result after ⟨ended, -⟩
        cases ended
  | succ levels ih => exact ih.next

/-- A program that is read without a diagnostic is the tree of a derivation within the
limit and the stack. -/
theorem parseProgram_sound {limit : Int} {levels : Nat} {tokens : List Token}
    (lexed : Lexed tokens) (within : 0 ≤ limit) {program : Node} {after : Parser}
    (clean : Clean (parseProgram .standard limit levels) (.ofTokens tokens) program after) :
    ∃ tree, Derives (.statements .eof) tree tokens [] ∧ Room limit levels 0 tree.nesting ∧
      program = .program tree.nodes := by
  obtain ⟨token, tail, rfl⟩ := List.exists_cons_of_ne_nil lexed.ne_nil
  obtain ⟨nodes, rfl, body⟩ := Routine.clean_program clean
  obtain ⟨tree, derives, rfl, room⟩ := (sound_nestedRoutines limit levels).finds_programBody within
    (token :: tail) [] lexed (Nat.le_refl _) body
  exact ⟨tree, derives, room, rfl⟩

end ExprLang
