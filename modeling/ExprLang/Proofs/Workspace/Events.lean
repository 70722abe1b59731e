/-
# ExprLang.Proofs.Workspace.Events — which text a document is judged by

An editor reports that a document was opened with a text, or that full texts took
its place one after the other. The document's text is then the last of these
(`Event.current?`). What is published and indexed is told by the first
(`Event.heard?`), and a report without a text leaves all as it was. Where the symbols
of a text cannot be shown, what was published for it stays (`Desk.handleAll_reported`)
and the earlier symbols do (`Desk.handle_of_fault`).

So a workspace follows the editor exactly as long as these two texts, of the latest
report that has any, come to the same notices and the same symbols
(`Desk.follows_iff_heard`). With one text to a report they are one text. With more
they need not agree, and the workspace then keeps what a text had that is gone
(`change_list_not_followed`).
-/
import ExprLang.Proofs.Workspace.Index

namespace ExprLang

set_option autoImplicit false

/-- What an editor reports of a document. -/
inductive Event where
  | opened (uri text : String)
  | changed (uri : String) (texts : List String)
  deriving DecidableEq, Repr

namespace Event

/-- The document that is reported of. -/
def uri : Event → String
  | .opened uri _ | .changed uri _ => uri

/-- The texts that it is given, one after the other. -/
def texts : Event → List String
  | .opened _ text => [text]
  | .changed _ texts => texts

/-- The text that is picked from the latest report of a document that has any. -/
def picked? (pick : List String → Option String) (events : List Event) (uri : String) :
    Option String :=
  ((events.filter (·.uri = uri)).filterMap fun event => pick event.texts).getLast?

/-- The text of a document: the last one of the latest report. -/
def current? : List Event → String → Option String := picked? List.getLast?

/-- The first text of the latest report of a document. -/
def heard? : List Event → String → Option String := picked? List.head?

theorem picked?_concat (pick : List String → Option String) (events : List Event) (event : Event)
    (uri : String) :
    picked? pick (events ++ [event]) uri =
      if uri = event.uri then (pick event.texts).or (picked? pick events uri)
      else picked? pick events uri := by
  unfold picked?
  rw [List.filter_append, List.filterMap_append, List.getLast?_append]
  by_cases same : uri = event.uri
  · cases picked : pick event.texts <;> simp [same, picked]
  · simp [same, Ne.symm same]

/-- A document has no text exactly if no report of it has one. -/
theorem picked?_eq_none_iff {pick : List String → Option String}
    (fails : ∀ texts, pick texts = none ↔ texts = []) (events : List Event) (uri : String) :
    picked? pick events uri = none ↔ ∀ event ∈ events, event.uri = uri → event.texts = [] := by
  simp only [picked?, List.getLast?_eq_none_iff, List.filterMap_eq_nil_iff, List.mem_filter,
    decide_eq_true_eq, and_imp, fails]

/-- A document that has a first text has a last one. -/
theorem heard?_cases (events : List Event) (uri : String) :
    heard? events uri = none ∧ current? events uri = none ∨
      ∃ text text', heard? events uri = some text ∧ current? events uri = some text' := by
  have both : heard? events uri = none ↔ current? events uri = none :=
    (picked?_eq_none_iff (fun _ => List.head?_eq_none_iff) events uri).trans
      (picked?_eq_none_iff (fun _ => List.getLast?_eq_none_iff) events uri).symm
  cases first : heard? events uri with
  | none => exact .inl ⟨rfl, both.1 first⟩
  | some text =>
      cases last : current? events uri with
      | none => cases first.symm.trans (both.2 last)
      | some text' => exact .inr ⟨text, text', rfl, rfl⟩

/-- With one text to a report, the first is the last. -/
theorem heard?_eq_current? {events : List Event}
    (single : ∀ event ∈ events, event.texts.length ≤ 1) : heard? events = current? events := by
  funext uri
  unfold heard? current? picked?
  refine congrArg List.getLast? (List.filterMap_congr fun event member => ?_)
  have short := single event (List.mem_filter.1 member).1
  match event.texts, short with
  | [], _ => rfl
  | [text], _ => rfl

/-- A report with a text takes the place of the earlier ones. -/
theorem heard?_concat (events : List Event) {event : Event} {first : String}
    {more : List String} (some_ : event.texts = first :: more) :
    heard? (events ++ [event]) =
      fun uri => if uri = event.uri then some first else heard? events uri := by
  funext uri
  unfold heard?
  rw [picked?_concat, some_]
  rfl

end Event

/-- What is published for a text. -/
def noticesOf (levels : Nat) (text : String) : List Notice :=
  (parseDefault levels text).diagnostics.map Notice.ofDiagnostic

/-- What is published for a text is published whether or not its symbols can be shown. -/
theorem Workspace.update_reports (workspace : Workspace) (levels : Nat) (uri text : String) :
    (workspace.update levels uri text).published = some (noticesOf levels text) ∧
      (workspace.update levels uri text).workspace.documents = workspace.documents := by
  cases ended : Symbol.ofProgram levels uri (parseDefault levels text).program with
  | error fault =>
      rw [update_of_fault ended]
      exact ⟨rfl, rfl⟩
  | ok symbols =>
      rw [update_of_collected ended]
      exact ⟨rfl, rfl⟩

/-- A workspace and what was last published for each document. -/
structure Desk where
  workspace : Workspace
  published : List (String × List Notice)

namespace Desk

variable {levels : Nat}

/-- Before the first report. -/
def start : Desk := ⟨.empty, []⟩

/-- Keep what a report of a document came to: what is published for it takes the place
of what was published before. -/
def keep (desk : Desk) (uri : String) (handled : Handled) : Desk where
  workspace := handled.workspace
  published :=
    match handled.published with
    | some notices => Workspace.put uri notices desk.published
    | none => desk.published

/-- Take a report. -/
def handle (desk : Desk) (levels : Nat) : Event → Desk
  | .opened uri text => desk.keep uri (desk.workspace.openDocument levels uri text)
  | .changed uri texts => desk.keep uri (desk.workspace.changeDocument levels uri texts)

/-- Take reports one after the other. -/
def handleAll (levels : Nat) (events : List Event) : Desk :=
  events.foldl (fun desk event => desk.handle levels event) start

/-- To open a document is to change it by one text. -/
theorem handle_eq (desk : Desk) (event : Event) :
    desk.handle levels event =
      desk.keep event.uri (desk.workspace.changeDocument levels event.uri event.texts) := by
  cases event <;> rfl

theorem handle_of_no_text (desk : Desk) {event : Event} (none : event.texts = []) :
    desk.handle levels event = desk := by
  rw [handle_eq, none]
  rfl

theorem handle_of_text (desk : Desk) {event : Event} {first : String} {more : List String}
    (some_ : event.texts = first :: more) :
    let edited := event.texts.foldl (fun held text => held.setText event.uri text) desk.workspace
    desk.handle levels event =
      ⟨(edited.update levels event.uri first).workspace,
        Workspace.put event.uri (noticesOf levels first) desk.published⟩ := by
  rw [handle_eq, some_]
  unfold Workspace.changeDocument keep
  simp only [(Workspace.update_reports _ levels event.uri first).1]

/-- Texts that are set one after the other change nothing but the text of their
document, and the last one stays. -/
theorem setTexts (workspace : Workspace) (uri : String) (texts : List String) :
    let edited := texts.foldl (fun held text => held.setText uri text) workspace
    edited.indexed = workspace.indexed ∧
      ∀ other, edited.documents.lookup other =
        if other = uri then texts.getLast?.or (workspace.documents.lookup other)
        else workspace.documents.lookup other := by
  induction texts using List.reverseRecOn with
  | nil => simp
  | append_singleton before text ih =>
      obtain ⟨indexed, documents⟩ := ih
      dsimp only at documents ⊢
      rw [List.foldl_concat]
      refine ⟨indexed, fun other => ?_⟩
      refine (Workspace.lookup_put uri text _ other).trans ?_
      rw [documents]
      by_cases same : other = uri <;> simp [same]

/-- Symbols that cannot be shown leave those that were indexed before, and what was
published for their text stays. -/
theorem handle_of_fault (desk : Desk) {event : Event} {first : String} {more : List String}
    (some_ : event.texts = first :: more) {fault : RenderFault}
    (failed : Symbol.ofProgram levels event.uri (parseDefault levels first).program =
      .error fault) :
    (desk.handle levels event).published.lookup event.uri = some (noticesOf levels first) ∧
      (desk.handle levels event).workspace.indexed = desk.workspace.indexed := by
  rw [handle_of_text desk some_, Workspace.update_of_fault failed]
  exact ⟨by simp [Workspace.lookup_put], (setTexts desk.workspace event.uri event.texts).1⟩

/-- What a desk shows of the reports, whether or not symbols could be shown. -/
structure Reported (levels : Nat) (events : List Event) (desk : Desk) : Prop where
  /-- A document has its last text. -/
  documents : ∀ uri, desk.workspace.documents.lookup uri = Event.current? events uri
  /-- What was last published is for the first text of the latest report. -/
  published : ∀ uri, desk.published.lookup uri =
    (Event.heard? events uri).map (noticesOf levels)

/-- What a desk holds when it was reported to so. -/
structure Heard (levels : Nat) (events : List Event) (desk : Desk) : Prop
    extends Reported levels events desk where
  /-- The symbols are those of the first text of the latest report. -/
  symbols : Workspace.Indexes levels desk.workspace.indexed (Event.heard? events)

/-- A report without a text tells nothing. -/
theorem picked?_of_no_text {pick : List String → Option String} (none : pick [] = .none)
    (events : List Event) {event : Event} (empty : event.texts = []) :
    Event.picked? pick (events ++ [event]) = Event.picked? pick events := by
  funext uri
  rw [Event.picked?_concat, empty, none, Option.none_or, ite_self]

/-- One more report. -/
theorem Reported.handle {events : List Event} {desk : Desk} (reported : desk.Reported levels events)
    (event : Event) : (desk.handle levels event).Reported levels (events ++ [event]) := by
  cases texts : event.texts with
  | nil =>
      rw [handle_of_no_text desk texts]
      constructor
      · rw [Event.current?, picked?_of_no_text rfl events texts]
        exact reported.documents
      · rw [Event.heard?, picked?_of_no_text rfl events texts]
        exact reported.published
  | cons first more =>
      rw [handle_of_text desk texts]
      refine ⟨fun uri => ?_, fun uri => ?_⟩
      · obtain ⟨-, documents⟩ := setTexts desk.workspace event.uri event.texts
        rw [(Workspace.update_reports _ levels event.uri first).2, documents uri, Event.current?,
          Event.picked?_concat, reported.documents uri]
        rfl
      · rw [Event.heard?_concat events texts, Workspace.lookup_put, reported.published]
        dsimp only
        split <;> rfl

/-- One more report, of symbols that can be shown. -/
theorem Heard.handle {events : List Event} {desk : Desk} (heard : desk.Heard levels events)
    {event : Event} (shown : ∀ text ∈ event.texts, Symbol.Shown levels event.uri text) :
    (desk.handle levels event).Heard levels (events ++ [event]) := by
  refine ⟨heard.toReported.handle event, ?_⟩
  cases texts : event.texts with
  | nil =>
      rw [handle_of_no_text desk texts, Event.heard?, picked?_of_no_text rfl events texts]
      exact heard.symbols
  | cons first more =>
      obtain ⟨symbols, collected⟩ := (shown first (by simp [texts])).collected
      obtain ⟨indexed, -⟩ := setTexts desk.workspace event.uri event.texts
      rw [handle_of_text desk texts, Workspace.update_of_collected collected,
        Event.heard?_concat events texts]
      dsimp only
      rw [indexed]
      exact heard.symbols.put collected

/-- Whatever is reported, a document has its last text, and what was last published for
it is for the first text of its latest report. -/
theorem handleAll_reported (levels : Nat) (events : List Event) :
    (handleAll levels events).Reported levels events := by
  induction events using List.reverseRecOn with
  | nil => exact ⟨fun _ => rfl, fun _ => rfl⟩
  | append_singleton before event ih =>
      unfold handleAll
      rw [List.foldl_concat]
      exact ih.handle event

theorem handleAll_heard {events : List Event}
    (shown : ∀ event ∈ events, ∀ text ∈ event.texts, Symbol.Shown levels event.uri text) :
    (handleAll levels events).Heard levels events := by
  induction events using List.reverseRecOn with
  | nil =>
      have none : Workspace.Indexes levels [] (Event.heard? []) := by
        simp [Workspace.Indexes, Event.heard?, Event.picked?]
      exact ⟨handleAll_reported levels [], none⟩
  | append_singleton before event ih =>
      have heard := ih fun earlier member => shown earlier (by simp [member])
      unfold handleAll
      rw [List.foldl_concat]
      exact heard.handle (shown event (by simp))

/-- What was last published for each document, and what is indexed for it, is for its
current text. -/
structure Follows (levels : Nat) (events : List Event) (desk : Desk) : Prop where
  published : ∀ uri, desk.published.lookup uri =
    (Event.current? events uri).map (noticesOf levels)
  symbols : Workspace.Indexes levels desk.workspace.indexed (Event.current? events)

/-- Two texts that come to the same for a document. -/
def Interchangeable (levels : Nat) (uri text text' : String) : Prop :=
  noticesOf levels text = noticesOf levels text' ∧
    ∀ found, Symbol.Collected levels uri text found ↔ Symbol.Collected levels uri text' found

/-- A desk follows the editor exactly if the two texts of the latest report, the one it
heard and the one that stays, come to the same. -/
theorem Heard.follows_iff {events : List Event} {desk : Desk} (heard : desk.Heard levels events) :
    desk.Follows levels events ↔ ∀ uri text text', Event.heard? events uri = some text →
      Event.current? events uri = some text' → Interchangeable levels uri text text' := by
  constructor
  · intro follows uri text text' first last
    have published := (heard.published uri).symm.trans (follows.published uri)
    rw [first, last] at published
    refine ⟨Option.some.inj published, fun found => ?_⟩
    have symbols := (heard.symbols uri found).symm.trans (follows.symbols uri found)
    simpa [first, last] using symbols
  · intro agree
    constructor
    · intro uri
      rw [heard.published]
      rcases Event.heard?_cases events uri with ⟨first, last⟩ | ⟨text, text', first, last⟩
      · rw [first, last]
      · rw [first, last, Option.map_some, Option.map_some, (agree uri _ _ first last).1]
    · intro uri found
      rw [heard.symbols uri found]
      rcases Event.heard?_cases events uri with ⟨first, last⟩ | ⟨text, text', first, last⟩
      · simp [first, last]
      · simpa [first, last] using (agree uri _ _ first last).2 found

/-- **The first text of a report decides.** Whatever an editor reports, a document has
the last text it was given, and what is published and indexed for it is for the first
text of its latest report. So the workspace follows the editor exactly if these two
texts come to the same for every document, and in particular if no report has more
than one text. -/
theorem follows_iff_heard {events : List Event}
    (shown : ∀ event ∈ events, ∀ text ∈ event.texts, Symbol.Shown levels event.uri text) :
    (handleAll levels events).Heard levels events ∧
    ((handleAll levels events).Follows levels events ↔ ∀ uri text text',
      Event.heard? events uri = some text → Event.current? events uri = some text' →
      Interchangeable levels uri text text') ∧
    ((∀ event ∈ events, event.texts.length ≤ 1) →
      (handleAll levels events).Follows levels events) := by
  have heard := handleAll_heard shown
  refine ⟨heard, heard.follows_iff, fun single => heard.follows_iff.2 ?_⟩
  intro uri text text' first last
  rw [Event.heard?_eq_current? single] at first
  cases first.symm.trans last
  exact ⟨rfl, fun _ => Iff.rfl⟩

/-- A document is opened and then changed twice, one text at a time. -/
def retyped : List Event :=
  [.opened "a" "let x = 1;", .changed "a" ["let x = ;"], .changed "a" ["let x = 2;"]]

theorem follows_iff_heard_retyped :
    (∀ event ∈ retyped, ∀ text ∈ event.texts, Symbol.Shown 50 event.uri text) ∧
    (handleAll 50 retyped).Follows 50 retyped := by
  have shown : ∀ event ∈ retyped, ∀ text ∈ event.texts, Symbol.Shown 50 event.uri text := by
    decide +kernel
  exact ⟨shown, (follows_iff_heard shown).2.2 (by decide)⟩

/-- Two texts in one report: the second one mends the first, but what is published is
still for the first, and the binding of the second is not indexed. -/
theorem change_list_not_followed :
    ¬ ∀ (levels : Nat) (events : List Event),
      (∀ event ∈ events, ∀ text ∈ event.texts, Symbol.Shown levels event.uri text) →
      (handleAll levels events).Follows levels events := by
  intro claimed
  have shown : ∀ event ∈ [Event.opened "a" "let x = 1;", .changed "a" ["let y = ;", "let z = 3;"]],
      ∀ text ∈ event.texts, Symbol.Shown 50 event.uri text := by
    decide +kernel
  exact absurd ((claimed 50 _ shown).published "a") (by decide +kernel)

end Desk

end ExprLang
