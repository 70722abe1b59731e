/-
# ExprLang.Proofs.Session.Lines — layout carries no meaning

Sources with the same tokens may have them on other lines: blanks, line feeds and
comments stand where their writer wants them. The trees, and what is wrong with them,
then differ in lines only, for parsing does not look at them; and neither does
evaluation, be they lines of the program or of functions that earlier sources left
in the session. So the sources are told apart by no run (`Session.run_layout`).
-/
import ExprLang.Proofs.Node.Canonical
import ExprLang.Proofs.Parser.Lines
import ExprLang.Proofs.Session.Pieces

namespace ExprLang

set_option autoImplicit false

/-- Sources with the same tokens, lines aside, have the same tree and the same
problems, lines aside, or neither of them is parsed. -/
theorem parse_erase_eq (limit : Int) (levels : Nat) {source other : String}
    (same : (tokenize source).map Token.erase = (tokenize other).map Token.erase) :
    (parse limit levels source).map Parsed.erase = (parse limit levels other).map Parsed.erase := by
  unfold parse
  rw [← parseTokens_erase limit levels (tokenize_ne_nil source), same,
    parseTokens_erase limit levels (tokenize_ne_nil other)]

/-- What is the same, lines aside, comes from two parses or from two faults. -/
theorem parse_cases_of_erase_eq {limit : Int} {levels : Nat} {source other : String}
    (same : (parse limit levels source).map Parsed.erase =
      (parse limit levels other).map Parsed.erase) :
    (∃ parsed parsed', parse limit levels source = .ok parsed ∧
        parse limit levels other = .ok parsed' ∧ parsed.erase = parsed'.erase) ∨
      parse limit levels source = .error .tooLong ∧ parse limit levels other = .error .tooLong ∧
        ¬ Decimal.Writable limit := by
  rcases ended : parse limit levels source with fault | parsed
  · obtain ⟨rfl, long⟩ := parse_eq_error ended
    rcases ended' : parse limit levels other with fault | parsed'
    · obtain ⟨rfl, -⟩ := parse_eq_error ended'
      exact .inr ⟨rfl, rfl, long⟩
    · rw [ended, ended'] at same
      cases same
  · rcases ended' : parse limit levels other with fault | parsed'
    · rw [ended, ended'] at same
      cases same
    · rw [ended, ended'] at same
      exact .inl ⟨parsed, parsed', rfl, rfl, Except.ok.inj same⟩

namespace Session

variable {session session' : Session} {levels : Nat} {settings : Settings}
  {source other : String}

/-- Sources that are parsed to the same, lines aside, are run to the same in sessions
that are alike. -/
theorem run_alike (file : String)
    (same : (parse settings.maxNesting levels source).map Parsed.erase =
      (parse settings.maxNesting levels other).map Parsed.erase)
    (scope : session'.scope = session.scope) (alike : session.heap.Alike session'.heap) :
    (outcome (session.run levels settings file source)).map (Option.map Value.erase) =
        (outcome (session'.run levels settings file other)).map (Option.map Value.erase) ∧
      (session.run levels settings file source).2.heap.Alike
        (session'.run levels settings file other).2.heap := by
  rcases parse_cases_of_erase_eq same with
    ⟨parsed, parsed', ended, ended', erased⟩ | ⟨broken, broken', -⟩
  · have problems := congrArg Parsed.diagnostics erased
    by_cases clean : parsed.diagnostics = []
    · have clean' : parsed'.diagnostics = [] := by
        simpa [Parsed.erase, clean] using problems
      obtain ⟨statements, program⟩ := parse_program ended
      obtain ⟨others, program'⟩ := parse_program ended'
      rw [show parsed = ⟨.program statements, []⟩ by rw [← program, ← clean]] at ended erased
      rw [show parsed' = ⟨.program others, []⟩ by rw [← program', ← clean']] at ended' erased
      have trees : Node.eraseAll statements = Node.eraseAll others :=
        Node.program.inj (congrArg Parsed.program erased)
      obtain ⟨came, left⟩ := run_of_parsed session file ended
      obtain ⟨came', left'⟩ := run_of_parsed session' file ended'
      rw [came, came', left, left']
      exact evaluated_of_alike levels settings file scope alike trees
    · have problems' : parsed'.diagnostics ≠ [] := by
        intro none
        exact clean (by simpa [Parsed.erase, none] using problems)
      rw [run_of_problems session file ended clean, run_of_problems session' file ended' problems']
      exact ⟨rfl, alike⟩
  · rw [run_of_broken session file broken, run_of_broken session' file broken']
    exact ⟨rfl, alike⟩

/-- **Layout carries no meaning.** Two sources whose tokens are the same, lines aside,
have trees that are alike, with the same rendering, and the same diagnostic messages
in the same order, unless the nesting limit breaks both parses off because it cannot
be written. Run under the same settings, in sessions that are alike, lines aside, they
come to the same value or break off with the same fault and leave the same bindings in
every scope. Functions are the same, lines aside, if their parameters, their bodies and
their scopes are. -/
theorem run_layout (levels : Nat) (settings : Settings) (file : String)
    (same : (tokenize source).map Token.erase = (tokenize other).map Token.erase)
    (scope : session'.scope = session.scope) (alike : session.heap.Alike session'.heap) :
    let ended := session.run levels settings file source
    let ended' := session'.run levels settings file other
    ((∃ parsed parsed', parse settings.maxNesting levels source = .ok parsed ∧
          parse settings.maxNesting levels other = .ok parsed' ∧
          parsed.program.alike parsed'.program = true ∧
          (∀ stack, parsed.program.renderWithin stack = parsed'.program.renderWithin stack) ∧
          parsed.errors = parsed'.errors) ∨
        parse settings.maxNesting levels source = .error .tooLong ∧
          parse settings.maxNesting levels other = .error .tooLong ∧
          ¬ Decimal.Writable settings.maxNesting) ∧
      (outcome ended).map (Option.map Value.erase) =
        (outcome ended').map (Option.map Value.erase) ∧
      ended'.2.scope = ended.2.scope ∧ ended.2.heap.Alike ended'.2.heap := by
  have parses := parse_erase_eq settings.maxNesting levels same
  obtain ⟨came, left⟩ := run_alike file parses scope alike
  refine ⟨(parse_cases_of_erase_eq parses).imp_left ?_, came, scope, left⟩
  rintro ⟨parsed, parsed', read, read', erased⟩
  have trees : parsed.program.erase = parsed'.program.erase := congrArg Parsed.program erased
  refine ⟨parsed, parsed', read, read', (Node.alike_iff _ _).2 trees, fun stack => ?_, ?_⟩
  · rw [← Node.renderWithin_erase, trees, Node.renderWithin_erase]
  · rw [← Parsed.errors_erase, erased, Parsed.errors_erase]

/-- A function that divides by zero is bound and then called, once with everything on
one line and once spread over several, with comments. Both times the call comes to the
error of the division. -/
theorem run_layout_spread :
    let run (session : Session) (source : String) := session.run 50 .standard "<input>" source
    let shown (ended : Except RunFault Report × Session) : Option String :=
      (outcome ended).toOption.join.bind fun value => (value.display 50).toOption
    let plain := run start "let f = fn(x) \x7b x / 0 \x7d;"
    let spread := run start "let f = # divides\nfn(x) \x7b x\n/ 0 \x7d\n;"
    let ended := run plain.2 "let g = fn() \x7b f(2) \x7d; g()"
    let ended' := run spread.2 "let g =\n\nfn() \x7b f(2) # two\n\x7d; g()"
    plain.2.heap.Alike spread.2.heap ∧
      shown ended = some "ERROR: division by zero: 2 / 0" ∧
      shown ended' = some "ERROR: division by zero: 2 / 0" ∧
      (outcome ended).map (Option.map Value.erase) =
        (outcome ended').map (Option.map Value.erase) ∧
      ended.2.heap.Alike ended'.2.heap := by
  intro run shown plain spread ended ended'
  have stays (source : String) : (run start source).2.scope = start.scope := rfl
  obtain ⟨-, -, -, bound⟩ := @run_layout start start "let f = fn(x) \x7b x / 0 \x7d;"
    "let f = # divides\nfn(x) \x7b x\n/ 0 \x7d\n;" 50 .standard "<input>" (by decide +kernel) rfl
    (.refl start.heap)
  obtain ⟨-, came, -, left⟩ := @run_layout plain.2 spread.2 "let g = fn() \x7b f(2) \x7d; g()"
    "let g =\n\nfn() \x7b f(2) # two\n\x7d; g()" 50 .standard "<input>" (by decide +kernel)
    ((stays _).trans (stays _).symm) bound
  exact ⟨bound, by decide +kernel, by decide +kernel, came, left⟩

end Session

end ExprLang
