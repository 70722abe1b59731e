/-
# ExprLang.Workspace — documents under an editor

A workspace holds the documents that are open and an index of the symbols they
define: one for each binding at the top level of a document that parsed. When a
document is opened or changed its diagnostics are published, and then its symbols
take the place of the earlier ones; documents keep the order in which each was first
indexed. Closing a document forgets its text and keeps its symbols.

What a word refers to is looked up in a second table, from names to symbols. It
is made anew from the symbols of all documents each time a document is indexed.

A change event carries a list of full texts. The last one is the document's new
text; the first one is what is parsed and indexed.
-/
import ExprLang.Node.Render
import ExprLang.Parser.Routine
import ExprLang.Text.Lines

namespace ExprLang

set_option autoImplicit false

/-- What a symbol is bound to. -/
inductive SymbolKind where
  | function
  | value
  deriving DecidableEq, Repr

/-- The number of a kind in the protocol that editors speak. -/
def SymbolKind.code : SymbolKind → Nat
  | .function => 12
  | .value => 13

/-- A binding at the top level of a document. Lines count from zero here. -/
structure Symbol where
  name : String
  kind : SymbolKind
  uri : String
  line : Int
  detail : String
  deriving DecidableEq, Repr

/-- A span of text: start line and column, end line and column. -/
structure Span where
  startLine : Int
  startColumn : Nat
  endLine : Int
  endColumn : Nat
  deriving DecidableEq, Repr

/-- A line as editors count it, from zero. -/
def editorLine (line : Int) : Int := max (line - 1) 0

namespace Symbol

/-- The span a symbol is shown at: as many columns as its name has characters. -/
def span (symbol : Symbol) : Span := ⟨symbol.line, 0, symbol.line, symbol.name.length⟩

/-- The symbol that a statement defines. A function shows its parameters, any
other value its text, on a stack of so many levels. -/
def ofStatement? (levels : Nat) (uri : String) : Node → Except RenderFault (Option Symbol)
  | .letStatement line name (.function _ parameters _) =>
      .ok (some ⟨name.text, .function, uri, editorLine line,
        "let " ++ name.text ++ " = fn(" ++ Node.commaSeparated (parameters.map Name.text) ++ ")"⟩)
  | .letStatement line name value => do
      let detail ← (Node.letStatement line name value).renderWithin levels
      return some ⟨name.text, .value, uri, editorLine line, detail⟩
  | _ => .ok none

/-- The symbols that statements define, in order. -/
def ofStatements (levels : Nat) (uri : String) : List Node → Except RenderFault (List Symbol)
  | [] => .ok []
  | statement :: rest => do
      let first ← ofStatement? levels uri statement
      let others ← ofStatements levels uri rest
      return first.toList ++ others

/-- The symbols of a program. -/
def ofProgram (levels : Nat) (uri : String) : Node → Except RenderFault (List Symbol)
  | .program statements => ofStatements levels uri statements
  | _ => .ok []

end Symbol

/-- A diagnostic as it is published. -/
structure Notice where
  span : Span
  message : String
  deriving DecidableEq, Repr

/-- The whole line of a diagnostic. -/
def Notice.ofDiagnostic (diagnostic : Diagnostic) : Notice :=
  let line := editorLine diagnostic.line
  ⟨⟨line, 0, line + 1, 0⟩, diagnostic.message⟩

/-- Open documents, the symbols of each document and the symbols of each name. -/
structure Workspace where
  documents : List (String × String)
  indexed : List (String × List Symbol)
  names : List (String × List Symbol)
  deriving Repr

/-- What came of an event: what was published, the fault that ended it if one did, and
the workspace it left. -/
structure Handled where
  published : Option (List Notice)
  fault : Option RenderFault
  workspace : Workspace
  deriving Repr

namespace Workspace

def empty : Workspace := ⟨[], [], []⟩

/-- Set the entry of a key: in its place if it has one, at the end if not. -/
def put {α : Type} (key : String) (entry : α) : List (String × α) → List (String × α)
  | [] => [(key, entry)]
  | (other, held) :: rest =>
      if other = key then (key, entry) :: rest else (other, held) :: put key entry rest

section Put

variable {α : Type} (key : String) (entry : α) (table : List (String × α))

theorem lookup_cons (other : String) :
    ((key, entry) :: table).lookup other =
      if other = key then some entry else table.lookup other := by
  rw [List.lookup_cons]
  by_cases same : other = key
  · simp [same]
  · rw [beq_eq_false_iff_ne.2 same, if_neg same]

theorem lookup_put (other : String) :
    (put key entry table).lookup other =
      if other = key then some entry else table.lookup other := by
  fun_induction put key entry table with
  | case1 => rw [lookup_cons]
  | case2 held rest =>
      rw [lookup_cons, lookup_cons]
      split <;> rfl
  | case3 name held rest different ih =>
      rw [lookup_cons, lookup_cons, ih]
      by_cases same : other = name
      · rw [if_pos same, if_pos same, if_neg (same ▸ different)]
      · rw [if_neg same, if_neg same]

theorem keys_put :
    (put key entry table).map Prod.fst =
      if key ∈ table.map Prod.fst then table.map Prod.fst else table.map Prod.fst ++ [key] := by
  fun_induction put key entry table with
  | case1 => simp
  | case2 held rest => simp
  | case3 name held rest different ih =>
      rw [List.map_cons, ih]
      split <;> simp_all [Ne.symm different]

end Put

/-- Enter a symbol under its name, behind those that have it already. -/
def enter (table : List (String × List Symbol)) (symbol : Symbol) : List (String × List Symbol) :=
  put symbol.name ((table.lookup symbol.name).getD [] ++ [symbol]) table

/-- The table of names for the symbols of all documents. -/
def tabulate (indexed : List (String × List Symbol)) : List (String × List Symbol) :=
  indexed.foldl (fun table entry => entry.2.foldl enter table) []

/-- Parse a text, publish its diagnostics and index its symbols under a document. A
symbol that has no text leaves the index as it was; what was published stays. -/
def update (workspace : Workspace) (levels : Nat) (uri text : String) : Handled :=
  let parsed := parseDefault levels text
  let notices := parsed.diagnostics.map Notice.ofDiagnostic
  match Symbol.ofProgram levels uri parsed.program with
  | .error fault => ⟨some notices, some fault, workspace⟩
  | .ok symbols =>
      let indexed := put uri symbols workspace.indexed
      ⟨some notices, none, { workspace with indexed, names := tabulate indexed }⟩

/-- Set the text of a document. -/
def setText (workspace : Workspace) (uri text : String) : Workspace :=
  { workspace with documents := put uri text workspace.documents }

/-- A document is opened. -/
def openDocument (workspace : Workspace) (levels : Nat) (uri text : String) : Handled :=
  (workspace.setText uri text).update levels uri text

/-- A document is changed, by full texts in turn. Without any, nothing is
published. -/
def changeDocument (workspace : Workspace) (levels : Nat) (uri : String) (texts : List String) :
    Handled :=
  let edited := texts.foldl (fun held text => held.setText uri text) workspace
  match texts with
  | [] => ⟨none, none, edited⟩
  | first :: _ => edited.update levels uri first

/-- A document is closed. -/
def closeDocument (workspace : Workspace) (uri : String) : Workspace :=
  { workspace with documents := workspace.documents.filter (·.1 != uri) }

/-- The symbols of a document. -/
def symbolsOf (workspace : Workspace) (uri : String) : List Symbol :=
  (workspace.indexed.lookup uri).getD []

/-- The symbol that a word refers to: the first of its name. -/
def symbolNamed (workspace : Workspace) (word : String) : Option Symbol :=
  if word = "" then none else ((workspace.names.lookup word).getD []).head?

/-- Each name that is defined, with its symbols, in the order of the names. -/
def index (workspace : Workspace) : List (String × List Symbol) :=
  workspace.names.mergeSort fun left right => decide (left.1 ≤ right.1)

/-- The symbol that is named at a place of an open document. `none` if the
document is not open. -/
def symbolAt (workspace : Workspace) (uri : String) (line offset : Nat) :
    Option (Option Symbol) :=
  (workspace.documents.lookup uri).map fun text =>
    workspace.symbolNamed (Text.wordAt text line offset)

end Workspace

end ExprLang
