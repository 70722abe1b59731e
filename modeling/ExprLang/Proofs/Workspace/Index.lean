/-
# ExprLang.Proofs.Workspace.Index — the index is that of the latest texts

Documents are indexed in any order, each any number of times. What the index holds
afterwards is told by two things alone: the order in which the documents were first
seen (`firstSeen`), and the latest text of each (`latest?`). Earlier texts leave
nothing behind, and it does not matter how the updates of different documents were
mixed (`Workspace.updateAll_latest`).

That is so because the two tables are made in different ways. The symbols of a
document are put in its place and no other entry is touched (`Indexes.put`). The
table of names is made anew from all of them, so it never has to be mended: a name
has an entry exactly if some symbol has the name, and the entry is the list of all of
these in index order (`tabulate_gathers`).

A document has one symbol for each binding of its text, and the binding tells all that
the symbol says (`Symbol.Shows`). An update is lost only where the stack ends, on a
binding whose tree is too high to be shown; nothing else keeps the symbols of a text
from being collected (`Symbol.Shown.collected`).
-/
import Mathlib.Data.List.Forall2
import ExprLang.Proofs.Eval.Steps
import ExprLang.Proofs.Parser.Scanned
import ExprLang.Workspace

namespace ExprLang

set_option autoImplicit false

/-! ## The symbols of a text -/

/-- A statement of the text that parsed binds the name, at the top level. -/
def Defines (levels : Nat) (text name : String) : Prop :=
  ∃ statements line binding value, (parseDefault levels text).program = .program statements ∧
    Node.letStatement line binding value ∈ statements ∧ binding.text = name

theorem parseDefault_program (levels : Nat) (text : String) :
    ∃ statements, (parseDefault levels text).program = .program statements :=
  parse_program (parse_default levels text)

theorem parseDefault_placed (levels : Nat) (text : String) :
    (parseDefault levels text).program.Placed .scanned .program :=
  parse_placed (parse_default levels text)

namespace Symbol

variable {levels : Nat}

/-- The symbols of a document with this text. -/
def Collected (levels : Nat) (uri text : String) (symbols : List Symbol) : Prop :=
  ofProgram levels uri (parseDefault levels text).program = .ok symbols

/-- The stack is deep enough to show the symbols of a document with this text. -/
def Shown (levels : Nat) (uri text : String) : Prop :=
  ofProgram levels uri (parseDefault levels text).program ≠ .error .stackExhausted

instance (levels : Nat) (uri text : String) : Decidable (Shown levels uri text) :=
  inferInstanceAs (Decidable (_ ≠ _))

/-- All that a result can fail by is the stack. -/
def Bounded {α : Type} (result : Except RenderFault α) : Prop :=
  ∀ fault, result = .error fault → fault = .stackExhausted

theorem Bounded.bind {α β : Type} {result : Except RenderFault α}
    {next : α → Except RenderFault β} (first : Bounded result)
    (second : ∀ value, Bounded (next value)) : Bounded (result >>= next) := by
  intro fault failed
  cases result with
  | ok value => exact second value fault failed
  | error cause =>
      cases failed
      exact first fault rfl

theorem bounded_ok {α : Type} (value : α) : Bounded (.ok value) := nofun

theorem bounded_ofStatement? (uri : String) {statement : Node}
    (placed : statement.Placed .scanned .statement) :
    Bounded (ofStatement? levels uri statement) := by
  unfold ofStatement?
  split
  · exact bounded_ok _
  · next line name value _ =>
      have numbers (value : Int) (short : Lexicon.scanned.number value) :
          Lexicon.written.number value := short
      have rendered : (Node.letStatement line name value).renderWithin levels =
          if _ ≤ levels then .ok _ else .error .stackExhausted :=
        Node.renderWithin_placed numbers placed levels
      rw [rendered]
      split
      · exact bounded_ok _
      · exact fun fault failed => (Except.error.inj failed).symm
  · exact bounded_ok _

theorem bounded_ofStatements (uri : String) {statements : List Node}
    (placed : ∀ statement ∈ statements, statement.Placed .scanned .statement) :
    Bounded (ofStatements levels uri statements) := by
  induction statements with
  | nil => exact bounded_ok _
  | cons statement rest ih =>
      refine (bounded_ofStatement? uri (placed statement (by simp))).bind fun _ => ?_
      exact (ih fun other member => placed other (by simp [member])).bind fun _ => bounded_ok _

/-- What keeps the symbols of a text from being shown is the stack and nothing else. -/
theorem Shown.collected {uri text : String} (shown : Shown levels uri text) :
    ∃ symbols, Collected levels uri text symbols := by
  have bounded : Bounded (ofProgram levels uri (parseDefault levels text).program) := by
    have placed := parseDefault_placed levels text
    obtain ⟨statements, program⟩ := parseDefault_program levels text
    rw [program] at placed ⊢
    cases placed with
    | program each => exact bounded_ofStatements uri each
  unfold Shown at shown
  unfold Collected
  cases ended : ofProgram levels uri (parseDefault levels text).program with
  | ok symbols => exact ⟨symbols, rfl⟩
  | error fault =>
      rw [ended, bounded fault ended] at shown
      exact absurd rfl shown

/-- What was put together had its parts. -/
theorem ok_of_bind {α β : Type} {result : Except RenderFault α}
    {next : α → Except RenderFault β} {final : β} (ended : (result >>= next) = .ok final) :
    ∃ value, result = .ok value ∧ next value = .ok final := by
  cases result with
  | ok value => exact ⟨value, rfl, ended⟩
  | error fault => cases ended

/-- What is shown for a binding of a document: its name, and the line where it starts, as
editors count lines; for a function its parameters, for any other value the text of the
binding. -/
inductive Shows (levels : Nat) (uri : String) : Node → Symbol → Prop where
  | function {line inside : Int} {name : Name} {parameters : List Name} {body : Node} :
      Shows levels uri (.letStatement line name (.function inside parameters body))
        ⟨name.text, .function, uri, editorLine line,
          "let " ++ name.text ++ " = fn(" ++ Node.commaSeparated (parameters.map Name.text) ++ ")"⟩
  | value {line : Int} {name : Name} {value : Node} {detail : String}
      (plain : ∀ inside parameters body, value ≠ .function inside parameters body)
      (rendered : (Node.letStatement line name value).renderWithin levels = .ok detail) :
      Shows levels uri (.letStatement line name value)
        ⟨name.text, .value, uri, editorLine line, detail⟩

theorem Shows.bound? {uri : String} {statement : Node} {symbol : Symbol}
    (shows : Shows levels uri statement symbol) : statement.bound? = some symbol.name := by
  cases shows <;> rfl

/-- A statement has a symbol exactly if it is a binding. -/
theorem shows_ofStatement? {uri : String} {statement : Node} {found : Option Symbol}
    (ended : ofStatement? levels uri statement = .ok found) :
    List.Forall₂ (Shows levels uri) ([statement].filter (·.bound?.isSome)) found.toList := by
  unfold ofStatement? at ended
  split at ended
  · cases ended
    exact .cons .function .nil
  · next line name value other =>
      obtain ⟨detail, rendered, same⟩ := ok_of_bind ended
      cases same
      exact .cons (.value other rendered) .nil
  · next other =>
      cases ended
      cases statement with
      | letStatement line name value => exact absurd rfl (other line name value)
      | _ => exact .nil

/-- One symbol for each binding, in source order. -/
theorem shows_ofStatements {uri : String} {statements : List Node} {symbols : List Symbol}
    (ended : ofStatements levels uri statements = .ok symbols) :
    List.Forall₂ (Shows levels uri) (statements.filter (·.bound?.isSome)) symbols := by
  induction statements generalizing symbols with
  | nil =>
      cases ended
      exact .nil
  | cons statement rest ih =>
      obtain ⟨found, first, ended⟩ := ok_of_bind ended
      obtain ⟨more, others, same⟩ := ok_of_bind ended
      cases same
      rw [← List.singleton_append, List.filter_append]
      exact List.rel_append (shows_ofStatement? first) (ih others)

/-- The symbols have the names of the bindings. -/
theorem names_of_shows {uri : String} {statements : List Node} {symbols : List Symbol}
    (shows : List.Forall₂ (Shows levels uri) (statements.filter (·.bound?.isSome)) symbols) :
    symbols.map Symbol.name = statements.filterMap Node.bound? := by
  have names {bindings : List Node} {symbols : List Symbol}
      (shows : List.Forall₂ (Shows levels uri) bindings symbols) :
      symbols.map Symbol.name = bindings.filterMap Node.bound? := by
    induction shows with
    | nil => rfl
    | cons first _ ih => rw [List.filterMap_cons, first.bound?, List.map_cons, ih]
  rw [names shows, List.filterMap_filter]
  refine List.filterMap_congr fun statement _ => ?_
  cases statement.bound? <;> rfl

/-- The symbols of a text show its bindings. -/
theorem Collected.shows {uri text : String} {symbols : List Symbol}
    (collected : Collected levels uri text symbols) :
    ∃ statements, (parseDefault levels text).program = .program statements ∧
      List.Forall₂ (Shows levels uri) (statements.filter (·.bound?.isSome)) symbols := by
  obtain ⟨statements, program⟩ := parseDefault_program levels text
  unfold Collected at collected
  rw [program] at collected
  exact ⟨statements, program, shows_ofStatements collected⟩

/-- The names that have a symbol are those that the text defines. -/
theorem Collected.defines_iff {uri text : String} {symbols : List Symbol}
    (collected : Collected levels uri text symbols) (name : String) :
    Defines levels text name ↔ name ∈ symbols.map Symbol.name := by
  obtain ⟨statements, program, shows⟩ := collected.shows
  rw [names_of_shows shows, List.mem_filterMap, Defines, program]
  constructor
  · rintro ⟨_, line, binding, value, ⟨⟩, member, rfl⟩
    exact ⟨_, member, rfl⟩
  · rintro ⟨statement, member, bound⟩
    cases statement with
    | letStatement line binding value =>
        exact ⟨statements, line, binding, value, rfl, member, Option.some.inj bound⟩
    | _ => cases bound

end Symbol

/-- No text defines the empty name. -/
theorem not_defines_empty (levels : Nat) (text : String) : ¬ Defines levels text "" := by
  rintro ⟨statements, line, binding, value, program, member, empty⟩
  have placed := parseDefault_placed levels text
  rw [program] at placed
  cases placed with
  | program each =>
      cases each _ member with
      | letStatement _ named _ =>
          obtain ⟨c, others, spelled, -⟩ := named
          rw [empty] at spelled
          cases spelled
      | blockStatement admitted => exact admitted

/-! ## The table of names -/

/-- The symbols of a name, in order. -/
def Symbol.named (symbols : List Symbol) (name : String) : List Symbol :=
  symbols.filter (·.name == name)

theorem Symbol.named_ne_nil_iff (symbols : List Symbol) (name : String) :
    named symbols name ≠ [] ↔ name ∈ symbols.map Symbol.name := by
  simp [named]

namespace Workspace

/-- A table with an entry for each name that some symbol has: all symbols of that
name, in order. -/
structure Gathers (table : List (String × List Symbol)) (symbols : List Symbol) : Prop where
  unique : (table.map Prod.fst).Nodup
  entries : ∀ name found, table.lookup name = some found ↔
    found ≠ [] ∧ found = Symbol.named symbols name

theorem mem_keys_iff_isSome {α : Type} (table : List (String × α)) (key : String) :
    key ∈ table.map Prod.fst ↔ (table.lookup key).isSome := by
  simp only [List.lookup_isSome_iff, List.mem_map, beq_iff_eq]
  exact exists_congr fun entry => and_congr_right fun _ => eq_comm

/-- A key that is added only if it is new leaves the keys distinct. -/
theorem nodup_added {keys : List String} (unique : keys.Nodup) (key : String) :
    (if key ∈ keys then keys else keys ++ [key]).Nodup := by
  split
  · exact unique
  · next absent =>
      refine List.nodup_append.2 ⟨unique, by simp, ?_⟩
      rintro other member _ (_ | ⟨_, ⟨⟩⟩) rfl
      exact absent member

/-- Where keys are distinct, every entry is found. -/
theorem mem_iff_lookup {α : Type} {table : List (String × α)}
    (unique : (table.map Prod.fst).Nodup) {key : String} {entry : α} :
    (key, entry) ∈ table ↔ table.lookup key = some entry := by
  induction table with
  | nil => simp
  | cons first rest ih =>
      obtain ⟨other, held⟩ := first
      obtain ⟨absent, distinct⟩ := List.nodup_cons.1 unique
      by_cases same : key = other
      · subst same
        have elsewhere : (key, entry) ∉ rest := fun member =>
          absent (List.mem_map.2 ⟨_, member, rfl⟩)
        simp [elsewhere, eq_comm]
      · rw [lookup_cons, if_neg same, ← ih distinct]
        simp [same]

/-- Tables with the same distinct keys in the same order are told apart by an entry. -/
theorem eq_of_lookup {α : Type} {left right : List (String × α)}
    (unique : (left.map Prod.fst).Nodup) (keys : left.map Prod.fst = right.map Prod.fst)
    (same : ∀ key, left.lookup key = right.lookup key) : left = right := by
  induction left generalizing right with
  | nil => simpa using keys.symm
  | cons first rest ih =>
      obtain ⟨key, held⟩ := first
      cases right with
      | nil => cases keys
      | cons other others =>
          obtain ⟨key', held'⟩ := other
          simp only [List.map_cons, List.cons.injEq] at keys
          obtain ⟨rfl, keys⟩ := keys
          obtain ⟨absent, distinct⟩ := List.nodup_cons.1 unique
          have here := same key
          rw [lookup_cons, lookup_cons, if_pos rfl, if_pos rfl, Option.some.injEq] at here
          rw [here, ih distinct keys]
          intro other
          by_cases again : other = key
          · subst again
            have absent' : other ∉ others.map Prod.fst := keys ▸ absent
            simp only [mem_keys_iff_isSome, Option.not_isSome_iff_eq_none] at absent absent'
            rw [absent, absent']
          · have there := same other
            rwa [lookup_cons, lookup_cons, if_neg again, if_neg again] at there

namespace Gathers

variable {table : List (String × List Symbol)} {symbols : List Symbol}

theorem getD_lookup (gathers : Gathers table symbols) (name : String) :
    (table.lookup name).getD [] = Symbol.named symbols name := by
  cases entry : table.lookup name with
  | some found => exact ((gathers.entries name found).1 entry).2
  | none =>
      by_contra some_
      have found := (gathers.entries name _).2 ⟨Ne.symm some_, rfl⟩
      rw [entry] at found
      cases found

theorem mem_keys_iff (gathers : Gathers table symbols) (name : String) :
    name ∈ table.map Prod.fst ↔ name ∈ symbols.map Symbol.name := by
  rw [mem_keys_iff_isSome, Option.isSome_iff_exists, ← Symbol.named_ne_nil_iff]
  constructor
  · rintro ⟨found, entry⟩
    obtain ⟨some_, rfl⟩ := (gathers.entries name found).1 entry
    exact some_
  · intro some_
    exact ⟨_, (gathers.entries name _).2 ⟨some_, rfl⟩⟩

theorem enter (gathers : Gathers table symbols) (symbol : Symbol) :
    Gathers (enter table symbol) (symbols ++ [symbol]) := by
  constructor
  · unfold Workspace.enter
    rw [keys_put]
    exact nodup_added gathers.unique symbol.name
  · intro name found
    unfold Workspace.enter
    rw [lookup_put, gathers.getD_lookup]
    by_cases same : name = symbol.name
    · have longer : Symbol.named (symbols ++ [symbol]) name =
          Symbol.named symbols symbol.name ++ [symbol] := by
        simp [Symbol.named, same]
      rw [if_pos same, longer, Option.some.injEq]
      constructor
      · rintro rfl
        exact ⟨by simp, rfl⟩
      · rintro ⟨-, rfl⟩
        rfl
    · have other : Symbol.named (symbols ++ [symbol]) name = Symbol.named symbols name := by
        simp [Symbol.named, Ne.symm same]
      rw [if_neg same, other]
      exact gathers.entries name found

end Gathers

theorem foldl_enter_gathers {table : List (String × List Symbol)} {before : List Symbol}
    (gathers : Gathers table before) (symbols : List Symbol) :
    Gathers (symbols.foldl enter table) (before ++ symbols) := by
  induction symbols generalizing table before with
  | nil => simpa using gathers
  | cons symbol rest ih => simpa using ih (gathers.enter symbol)

/-- The table of names has the symbols of all documents. -/
theorem tabulate_gathers (indexed : List (String × List Symbol)) :
    Gathers (tabulate indexed) (indexed.flatMap Prod.snd) := by
  have none : Gathers [] [] := ⟨List.nodup_nil, by simp [Symbol.named]⟩
  have all := foldl_enter_gathers none (indexed.flatMap Prod.snd)
  rwa [List.foldl_flatMap] at all

/-! ## Documents that are indexed one after the other -/

variable {levels : Nat}

/-- Index texts under documents, one after the other. -/
def updateAll (levels : Nat) (updates : List (String × String)) : Workspace :=
  updates.foldl (fun workspace update => (workspace.update levels update.1 update.2).workspace)
    empty

/-- The documents in the order in which each was first seen. -/
def firstSeen (updates : List (String × String)) : List String := (updates.map Prod.fst).eraseDups

/-- The latest text of a document. -/
def latest? (updates : List (String × String)) (uri : String) : Option String :=
  updates.reverse.lookup uri

theorem firstSeen_concat (updates : List (String × String)) (uri text : String) :
    firstSeen (updates ++ [(uri, text)]) =
      if uri ∈ firstSeen updates then firstSeen updates else firstSeen updates ++ [uri] := by
  simp only [firstSeen, List.map_append, List.eraseDups_append, List.mem_eraseDups]
  split <;> simp_all [List.removeAll, List.eraseDups_cons]

theorem nodup_firstSeen (updates : List (String × String)) : (firstSeen updates).Nodup := by
  induction updates using List.reverseRecOn with
  | nil => exact List.nodup_nil
  | append_singleton before update ih =>
      rw [firstSeen_concat]
      exact nodup_added ih update.1

theorem latest?_isSome_iff (updates : List (String × String)) (uri : String) :
    (latest? updates uri).isSome ↔ uri ∈ firstSeen updates := by
  rw [latest?, ← mem_keys_iff_isSome, firstSeen, List.mem_eraseDups, List.map_reverse,
    List.mem_reverse]

theorem latest?_concat (updates : List (String × String)) (uri text : String) :
    latest? (updates ++ [(uri, text)]) =
      fun other => if other = uri then some text else latest? updates other := by
  funext other
  unfold latest?
  rw [List.reverse_append, List.reverse_singleton, List.singleton_append, lookup_cons]

theorem update_of_fault {uri text : String} {fault : RenderFault}
    (failed : Symbol.ofProgram levels uri (parseDefault levels text).program = .error fault)
    (workspace : Workspace) :
    workspace.update levels uri text =
      ⟨some ((parseDefault levels text).diagnostics.map Notice.ofDiagnostic), some fault,
        workspace⟩ := by
  simp only [update, failed]

theorem update_of_collected {uri text : String} {symbols : List Symbol}
    (collected : Symbol.Collected levels uri text symbols) (workspace : Workspace) :
    workspace.update levels uri text =
      ⟨some ((parseDefault levels text).diagnostics.map Notice.ofDiagnostic), none,
        { workspace with
          indexed := put uri symbols workspace.indexed
          names := tabulate (put uri symbols workspace.indexed) }⟩ := by
  unfold Symbol.Collected at collected
  simp only [update, collected]

/-- A table that has, for each document with a text, the symbols of this text. -/
def Indexes (levels : Nat) (table : List (String × List Symbol))
    (text? : String → Option String) : Prop :=
  ∀ uri found, table.lookup uri = some found ↔
    ∃ text, text? uri = some text ∧ Symbol.Collected levels uri text found

theorem Indexes.put {table : List (String × List Symbol)} {text? : String → Option String}
    (indexes : Indexes levels table text?) {uri text : String} {symbols : List Symbol}
    (collected : Symbol.Collected levels uri text symbols) :
    Indexes levels (put uri symbols table) fun other =>
      if other = uri then some text else text? other := by
  intro other found
  dsimp only
  rw [lookup_put]
  split
  · next same =>
      subst same
      constructor
      · rintro ⟨⟩
        exact ⟨text, rfl, collected⟩
      · rintro ⟨_, ⟨⟩, again⟩
        exact congrArg some (Except.ok.inj (collected.symm.trans again))
  · exact indexes other found

/-- What the index of a workspace holds when documents have been indexed so. -/
structure Current (levels : Nat) (updates : List (String × String)) (workspace : Workspace) :
    Prop where
  /-- An entry for each document that was seen, in the order of the first time. -/
  documents : workspace.indexed.map Prod.fst = firstSeen updates
  /-- The entry of a document are the symbols of its latest text. -/
  symbols : Indexes levels workspace.indexed (latest? updates)
  /-- The entry of a name are its symbols, document by document. -/
  names : Gathers workspace.names (workspace.indexed.flatMap Prod.snd)

/-- One more text takes the place of the earlier one of its document. -/
theorem Current.update {updates : List (String × String)} {workspace : Workspace}
    (current : workspace.Current levels updates) {uri text : String}
    (shown : Symbol.Shown levels uri text) :
    (workspace.update levels uri text).workspace.Current levels (updates ++ [(uri, text)]) := by
  obtain ⟨symbols, collected⟩ := shown.collected
  rw [update_of_collected collected]
  refine ⟨?_, ?_, tabulate_gathers _⟩
  · rw [firstSeen_concat, ← current.documents]
    exact keys_put uri symbols workspace.indexed
  · rw [latest?_concat]
    exact current.symbols.put collected

theorem updateAll_current {updates : List (String × String)}
    (shown : ∀ update ∈ updates, Symbol.Shown levels update.1 update.2) :
    (updateAll levels updates).Current levels updates := by
  induction updates using List.reverseRecOn with
  | nil =>
      have none : Indexes levels [] (latest? []) := by simp [Indexes, latest?]
      exact ⟨rfl, none, tabulate_gathers []⟩
  | append_singleton before update ih =>
      have current := ih fun earlier member => shown earlier (by simp [member])
      unfold updateAll
      rw [List.foldl_concat]
      exact current.update (shown update (by simp))

namespace Current

variable {updates : List (String × String)} {workspace : Workspace}

theorem unique (current : workspace.Current levels updates) :
    (workspace.indexed.map Prod.fst).Nodup := by
  rw [current.documents]
  exact nodup_firstSeen updates

/-- Every document that has a text has an entry. -/
theorem lookup_of_latest (current : workspace.Current levels updates) {uri text : String}
    (latest : latest? updates uri = some text) :
    ∃ found, workspace.indexed.lookup uri = some found := by
  have seen : uri ∈ firstSeen updates := by
    rw [← latest?_isSome_iff, latest]
    rfl
  rw [← current.documents, mem_keys_iff_isSome] at seen
  exact Option.isSome_iff_exists.1 seen

/-- The entry of a document shows the bindings of its latest text, one symbol for each
in source order. -/
theorem shows (current : workspace.Current levels updates) {uri : String} {found : List Symbol}
    (entry : workspace.indexed.lookup uri = some found) :
    ∃ text statements, latest? updates uri = some text ∧
      (parseDefault levels text).program = .program statements ∧
      List.Forall₂ (Symbol.Shows levels uri) (statements.filter (·.bound?.isSome)) found := by
  obtain ⟨text, latest, collected⟩ := (current.symbols uri found).1 entry
  obtain ⟨statements, program, shows⟩ := collected.shows
  exact ⟨text, statements, latest, program, shows⟩

theorem source_order (current : workspace.Current levels updates) {uri : String}
    {found : List Symbol} (entry : workspace.indexed.lookup uri = some found) :
    ∃ text statements, latest? updates uri = some text ∧
      (parseDefault levels text).program = .program statements ∧
      found.map Symbol.name = statements.filterMap Node.bound? := by
  obtain ⟨text, statements, latest, program, shows⟩ := current.shows entry
  exact ⟨text, statements, latest, program, Symbol.names_of_shows shows⟩

/-- A name is in the table exactly if the latest text of some document defines it. -/
theorem mem_names_iff (current : workspace.Current levels updates) (name : String) :
    name ∈ workspace.names.map Prod.fst ↔
      ∃ uri text, latest? updates uri = some text ∧ Defines levels text name := by
  rw [current.names.mem_keys_iff]
  constructor
  · intro member
    obtain ⟨symbol, held, rfl⟩ := List.mem_map.1 member
    obtain ⟨⟨uri, found⟩, entry, here⟩ := List.mem_flatMap.1 held
    have indexed := (mem_iff_lookup current.unique).1 entry
    obtain ⟨text, latest, collected⟩ := (current.symbols uri found).1 indexed
    exact ⟨uri, text, latest, (collected.defines_iff _).2 (List.mem_map_of_mem here)⟩
  · rintro ⟨uri, text, latest, defines⟩
    obtain ⟨found, entry⟩ := current.lookup_of_latest latest
    obtain ⟨_, latest', collected⟩ := (current.symbols uri found).1 entry
    cases latest.symm.trans latest'
    obtain ⟨symbol, here, rfl⟩ := List.mem_map.1 ((collected.defines_iff name).1 defines)
    exact List.mem_map_of_mem
      (List.mem_flatMap.2 ⟨(uri, found), (mem_iff_lookup current.unique).2 entry, here⟩)

/-- A word refers to the first symbol of its name. -/
theorem symbolNamed_eq (current : workspace.Current levels updates) (word : String) :
    workspace.symbolNamed word =
      (Symbol.named (workspace.indexed.flatMap Prod.snd) word).head? := by
  unfold symbolNamed
  rw [current.names.getD_lookup]
  split
  · next empty =>
      -- Nothing has the empty name, so the test for it makes no difference.
      have absent : Symbol.named (workspace.indexed.flatMap Prod.snd) word = [] := by
        by_contra some_
        rw [← Ne, Symbol.named_ne_nil_iff, ← current.names.mem_keys_iff,
          current.mem_names_iff, empty] at some_
        obtain ⟨_, text, _, defines⟩ := some_
        exact not_defines_empty levels text defines
      rw [absent]
      rfl
  · rfl

/-- A word refers to a symbol exactly if the latest text of some document defines it. -/
theorem isSome_symbolNamed_iff (current : workspace.Current levels updates) (word : String) :
    (workspace.symbolNamed word).isSome ↔
      ∃ uri text, latest? updates uri = some text ∧ Defines levels text word := by
  rw [current.symbolNamed_eq, List.isSome_head?, Symbol.named_ne_nil_iff,
    ← current.names.mem_keys_iff, current.mem_names_iff]

/-- The index is told by the order of the documents and their latest texts. -/
theorem indexed_eq {others : List (String × String)} {workspace' : Workspace}
    (current : workspace.Current levels updates) (current' : workspace'.Current levels others)
    (order : firstSeen others = firstSeen updates) (latest : latest? others = latest? updates) :
    workspace'.indexed = workspace.indexed := by
  refine eq_of_lookup current'.unique ?_ fun uri => ?_
  · rw [current'.documents, current.documents, order]
  · refine Option.ext fun found => ?_
    rw [current'.symbols uri found, current.symbols uri found, latest]

end Current

/-- The table of names is the one for the symbols of all documents. -/
theorem names_updateAll (levels : Nat) (updates : List (String × String)) :
    (updateAll levels updates).names = tabulate (updateAll levels updates).indexed := by
  induction updates using List.reverseRecOn with
  | nil => rfl
  | append_singleton before update ih =>
      unfold updateAll at ih ⊢
      rw [List.foldl_concat]
      cases ended : Symbol.ofProgram levels update.1 (parseDefault levels update.2).program with
      | error fault =>
          rw [update_of_fault ended]
          exact ih
      | ok symbols => rw [update_of_collected ended]

/-- **The index is never stale.** Whatever documents were indexed with whatever texts,
the index then holds the symbols of the latest texts and of nothing else, those of a
document in source order. A name is in the table exactly if one of these texts defines
it, and a word refers to the first symbol of its name. All this is the same for any
other updates that first saw the documents in the same order and left them with the
same texts. -/
theorem updateAll_latest {updates : List (String × String)}
    (shown : ∀ update ∈ updates, Symbol.Shown levels update.1 update.2) :
    (updateAll levels updates).Current levels updates ∧
    (∀ uri found, (updateAll levels updates).indexed.lookup uri = some found →
      ∃ text statements, latest? updates uri = some text ∧
        (parseDefault levels text).program = .program statements ∧
        found.map Symbol.name = statements.filterMap Node.bound?) ∧
    (∀ name, name ∈ (updateAll levels updates).names.map Prod.fst ↔
      ∃ uri text, latest? updates uri = some text ∧ Defines levels text name) ∧
    (∀ word, (updateAll levels updates).symbolNamed word =
        (Symbol.named ((updateAll levels updates).indexed.flatMap Prod.snd) word).head? ∧
      (((updateAll levels updates).symbolNamed word).isSome ↔
        ∃ uri text, latest? updates uri = some text ∧ Defines levels text word)) ∧
    ∀ others : List (String × String),
      (∀ update ∈ others, Symbol.Shown levels update.1 update.2) →
      firstSeen others = firstSeen updates → latest? others = latest? updates →
      (updateAll levels others).indexed = (updateAll levels updates).indexed ∧
        (updateAll levels others).names = (updateAll levels updates).names := by
  have current := updateAll_current shown
  refine ⟨current, fun uri found => current.source_order, current.mem_names_iff,
    fun word => ⟨current.symbolNamed_eq word, current.isSome_symbolNamed_iff word⟩,
    fun others shown' order latest => ?_⟩
  have indexed := current.indexed_eq (updateAll_current shown') order latest
  refine ⟨indexed, ?_⟩
  rw [names_updateAll, names_updateAll, indexed]

/-- Two documents, the first of them indexed again after the second. -/
def replaced : List (String × String) :=
  [("a", "let x = 1;"), ("b", "let y = 2;"), ("a", "let y = fn(z) \x7b z \x7d;")]

/-- The earlier binding of the first document is gone, and its later one still comes
before that of the second. -/
theorem updateAll_latest_replaced :
    (∀ update ∈ replaced, Symbol.Shown 50 update.1 update.2) ∧
    (updateAll 50 replaced).Current 50 replaced ∧ firstSeen replaced = ["a", "b"] ∧
    ¬ ((updateAll 50 replaced).symbolNamed "x").isSome ∧
    ((updateAll 50 replaced).symbolNamed "y").map Symbol.uri = some "a" := by
  have shown : ∀ update ∈ replaced, Symbol.Shown 50 update.1 update.2 := by decide +kernel
  exact ⟨shown, (updateAll_latest shown).1, by decide +kernel, by decide +kernel,
    by decide +kernel⟩

/-- **What the index shows.** A document has one symbol for each binding of its latest
text, in source order, and the symbol has the kind, the line and the detail that show
this binding. -/
theorem updateAll_shows {updates : List (String × String)}
    (shown : ∀ update ∈ updates, Symbol.Shown levels update.1 update.2) {uri text : String}
    (latest : latest? updates uri = some text) :
    ∃ statements, (parseDefault levels text).program = .program statements ∧
      List.Forall₂ (Symbol.Shows levels uri) (statements.filter (·.bound?.isSome))
        ((updateAll levels updates).symbolsOf uri) := by
  have current := updateAll_current shown
  obtain ⟨found, entry⟩ := current.lookup_of_latest latest
  obtain ⟨_, statements, latest', program, shows⟩ := current.shows entry
  cases latest.symm.trans latest'
  rw [symbolsOf, entry]
  exact ⟨statements, program, shows⟩

end Workspace

end ExprLang
