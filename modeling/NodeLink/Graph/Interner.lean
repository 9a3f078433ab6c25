import NodeLink.Graph.Build
import NodeLink.Text.Characters

/-! # Interned identifiers

A process keeps one table of all identifiers that its compilations have met, with a key for each
of them, and knows the nodes of a graph by their keys.  The table only grows.  The declarations
of nodes add to it, while the ends of edges are only looked up in it: an identifier that the
table has from an earlier compilation has a key, but no node with that key
(`Graph.Keyed.resolve`).

What compilation asks of a table is `Interning`; `Interner.interning` is the table that runs.
`describeIdentifier` shows an identifier in a message for developers, where the empty one and those
with odd characters have to be told apart as well. -/

namespace NodeLink

open NodeLink.Source (Location)
open NodeLink.Random (Stream)

/-- An identifier as a message for developers shows it: marked as one, its text quoted. -/
def describeIdentifier (id : String) : String :=
  "NodeId(" ++ Text.quoted id ++ ")"

/-! ### Tables of texts -/

/-- Tables `σ` of texts with a key of `κ` for each of their texts. -/
structure Interning (σ κ : Type) where
  /-- The key of a text of the table. -/
  get? : σ → String → Option κ
  /-- The key of a text, which is added if it is not in the table. -/
  intern : σ → String → κ × σ
  /-- A text that was added has the key that was answered. -/
  get?_intern (table : σ) (text : String) :
    get? (intern table text).2 text = some (intern table text).1
  /-- A text of the table keeps its key, and nothing is added. -/
  intern_of_get? {table : σ} {text : String} {key : κ} (h : get? table text = some key) :
    intern table text = (key, table)
  /-- Adding a text changes nothing for the others. -/
  get?_intern_of_ne (table : σ) {text other : String} (h : other ≠ text) :
    get? (intern table text).2 other = get? table other
  /-- Different texts have different keys. -/
  eq_of_get? {table : σ} {text other : String} {key : κ} (h : get? table text = some key)
    (hother : get? table other = some key) : text = other

/-- The texts of a table; the key of a text is its index. -/
structure Interner where
  texts : Array String := #[]
  deriving DecidableEq, Repr, Inhabited

namespace Interner

/-- The key of a text of the table. -/
def get? (table : Interner) (text : String) : Option Nat :=
  table.texts.findIdx? fun known => known = text

/-- The key of a text, which is added at the end if it is not in the table. -/
def intern (table : Interner) (text : String) : Nat × Interner :=
  match table.get? text with
  | some key => (key, table)
  | none => (table.texts.size, { texts := table.texts.push text })

theorem get?_push (table : Interner) (text other : String) :
    get? { texts := table.texts.push text } other =
      (table.get? other).or (if text = other then some table.texts.size else none) := by
  unfold get?
  rw [Array.findIdx?_push]
  simp

theorem intern_of_get? {table : Interner} {text : String} {key : Nat}
    (h : table.get? text = some key) : table.intern text = (key, table) := by
  unfold intern
  rw [h]

theorem intern_of_get?_eq_none {table : Interner} {text : String} (h : table.get? text = none) :
    table.intern text = (table.texts.size, { texts := table.texts.push text }) := by
  unfold intern
  rw [h]

/-- The table of a process. -/
def interning : Interning Interner Nat where
  get? := get?
  intern := intern
  get?_intern table text := by
    cases h : table.get? text with
    | some key => rw [intern_of_get? h, h]
    | none => rw [intern_of_get?_eq_none h, get?_push, h, if_pos rfl, Option.none_or]
  intern_of_get? := intern_of_get?
  get?_intern_of_ne table text other hne := by
    cases h : table.get? text with
    | some key => rw [intern_of_get? h]
    | none => rw [intern_of_get?_eq_none h, get?_push, if_neg (Ne.symm hne), Option.or_none]
  eq_of_get? {table text other key} h hother := by
    obtain ⟨_, htext, -⟩ := Array.findIdx?_eq_some_iff_getElem.mp h
    obtain ⟨_, hother, -⟩ := Array.findIdx?_eq_some_iff_getElem.mp hother
    exact (of_decide_eq_true htext).symm.trans (of_decide_eq_true hother)

end Interner

/-! ### Graphs with keys -/

variable {α : Type} [Scalar α] {σ κ : Type} [DecidableEq κ]

/-- A graph under construction, with the keys of its nodes in their order. -/
structure Graph.Keyed (κ α : Type) where
  graph : Graph α
  keys : Array κ := #[]

namespace Graph.Keyed

/-- The index of the node with a key. -/
def indexOf? (keyed : Keyed κ α) (key : κ) : Option Nat :=
  keyed.keys.findIdx? fun known => known = key

/-- Adds the node of a declaration at a place, unless its key is known.  Its identifier is in the
table afterwards. -/
@[specialize] def declareNode (names : Interning σ κ) (state : Keyed κ α × σ)
    (declared : NodeDeclaration × Point α) : Keyed κ α × σ :=
  let (keyed, table) := state
  let (key, table) := names.intern table declared.1.identifier
  match keyed.indexOf? key with
  | some _ => (keyed, table)
  | none =>
    ({ graph := keyed.graph.declareNode declared, keys := keyed.keys.push key }, table)

/-- The index of the node that an end of an edge names.  The end is not added to the table. -/
def resolve (names : Interning σ κ) (table : σ) (keyed : Keyed κ α) (identifier : String)
    (location : Location) : Except CompileError Nat :=
  match (names.get? table identifier).bind keyed.indexOf? with
  | some index => .ok index
  | none => .error (.unknownNode identifier location)

/-- Adds the edge of a declaration, unless its ends are joined already. -/
def declareEdge (names : Interning σ κ) (table : σ) (keyed : Keyed κ α)
    (declared : EdgeDeclaration) : Except CompileError (Keyed κ α) := do
  let tail ← keyed.resolve names table declared.tail declared.tailLocation
  let head ← keyed.resolve names table declared.head declared.headLocation
  return { keyed with graph := keyed.graph.addDeclared tail head declared }

end Graph.Keyed

/-! ### Compilation with a table -/

/-- The graph of a document before its layout, and the table after it. -/
@[specialize] def Graph.buildIn (names : Interning σ κ) (table : σ) (document : Document)
    (parameters : Parameters α) (stream : Stream) : Except CompileError (Graph α) × σ :=
  let declarations := document.nodeDeclarations
  match drawPlaces parameters declarations.length stream with
  | .error error => (.error error, table)
  | .ok (points, stream) =>
    let keyed : Keyed κ α := { graph := Graph.empty document.graphName parameters stream }
    let (keyed, table) :=
      (declarations.zip points).foldl (Keyed.declareNode names) (keyed, table)
    let keyed := document.edgeDeclarations.foldlM (Keyed.declareEdge names table) keyed
    (keyed.map fun keyed => keyed.graph.recomputeBounds, table)

/-- The laid-out graph of a document, and the table after it; `fresh` are its random numbers if it
has no seed. -/
@[specialize] def analyzeIn (names : Interning σ κ) (table : σ) (document : Document)
    (options : CompileOptions α) (fresh : Stream) : Except CompileError (Graph α) × σ :=
  let (graph, table) := Graph.buildIn names table document
    (Parameters.resolve document options.parameters) (options.stream fresh)
  (graph.map Graph.layout, table)

/-- The laid-out graph of a source, and the table after it; `fresh` are its random numbers if it
has no seed. -/
@[specialize] def compileIn (names : Interning σ κ) (table : σ) (source : String)
    (options : CompileOptions α) (fresh : Stream) : Except CompileError (Graph α) × σ :=
  match parse source with
  | .error diagnostics => (.error (.invalid diagnostics), table)
  | .ok document => analyzeIn names table document options fresh

end NodeLink
