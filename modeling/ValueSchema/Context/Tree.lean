import ValueSchema.Context.Report

/-!
# Trees of contexts

A `ContextTree` is the record of a call that several contexts write to.  A context is
the number of a node.  It is opened below another one, at the same path or one segment
further, or *detached*, at the same path and below nothing.  Issues are raised on a
context, and a child may be discarded, after which it no longer belongs to its parent.

Marking a context invalid also marks the contexts above it as dirty, up to the first
one that is dirty already.

`ContextTree.report` is the view of a context: what was recorded on it and below.  The
queries are those of the report.
-/

namespace ValueSchema

/-- What a tree keeps of a context. -/
structure ContextNode where
  /-- The context above. -/
  parent : Option Nat
  /-- The place of the value. -/
  path : Path
  /-- Whether the context was marked invalid. -/
  invalid : Bool := false
  /-- Whether a context below was marked invalid. -/
  dirty : Bool := false
  /-- The contexts below, oldest first. -/
  children : List Nat := []
  /-- The issues raised on the context. -/
  issues : List Issue := []

/-- The contexts of a call, in the order in which they were opened. -/
structure ContextTree where
  /-- The nodes. -/
  nodes : List ContextNode

namespace ContextTree

/-- A tree with the context of the whole value, number 0. -/
def init : ContextTree := ⟨[{ parent := none, path := .root }]⟩

/-- The path of a context. -/
def pathOf (t : ContextTree) (c : Nat) : Path := (t.nodes[c]?.map ContextNode.path).getD .root

/-- The tree with the node of a context changed. -/
def update (t : ContextTree) (c : Nat) (f : ContextNode → ContextNode) : ContextTree :=
  ⟨t.nodes.modify c f⟩

/-- Opens a context at a path, below a context or below nothing. -/
def openAt (t : ContextTree) (parent : Option Nat) (path : Path) : Nat × ContextTree :=
  let c := t.nodes.length
  let t' : ContextTree := ⟨t.nodes ++ [{ parent := parent, path := path }]⟩
  (c, match parent with
    | some p => t'.update p fun n => { n with children := n.children ++ [c] }
    | none => t')

/-- Opens a context one segment further. -/
def child (t : ContextTree) (c : Nat) (s : Segment) : Nat × ContextTree :=
  t.openAt (some c) ((t.pathOf c).push s)

/-- Opens a context at the same path. -/
def branch (t : ContextTree) (c : Nat) : Nat × ContextTree := t.openAt (some c) (t.pathOf c)

/-- Opens a context at the same path that belongs to no other one. -/
def detached (t : ContextTree) (c : Nat) : Nat × ContextTree := t.openAt none (t.pathOf c)

/-- Marks the contexts above `c` dirty, from the nearest one up to the first that is
dirty already.  A context is opened after the one above it, so the numbers fall. -/
def markAbove (t : ContextTree) (c : Nat) : ContextTree :=
  match t.nodes[c]?.bind ContextNode.parent with
  | none => t
  | some p =>
      if p < c then
        if (t.nodes[p]?.map ContextNode.dirty).getD true then t
        else (t.update p fun n => { n with dirty := true }).markAbove p
      else t
termination_by c

/-- Marks a context invalid. -/
def setInvalid (t : ContextTree) (c : Nat) : ContextTree :=
  (t.update c fun n => { n with invalid := true }).markAbove c

/-- Raises an issue on a context, which marks it invalid. -/
def raise (t : ContextTree) (c : Nat) (i : Issue) : ContextTree :=
  (t.update c fun n => { n with issues := n.issues ++ [i] }).setInvalid c

/-- Takes a child away from a context.  It then belongs to nothing. -/
def discard (t : ContextTree) (c child : Nat) : ContextTree :=
  (t.update c fun n => { n with children := n.children.filter (· ≠ child) }).update child
    fun n => { n with parent := none }

/-- The report of a context, down to `depth` contexts below each other. -/
def reportWithin (t : ContextTree) : Nat → Nat → Report
  | depth, c =>
      match t.nodes[c]? with
      | none => { path := .root }
      | some n =>
          { path := n.path, invalid := n.invalid, dirty := n.dirty, issues := n.issues
            children := match depth with
              | 0 => []
              | depth + 1 => n.children.map (t.reportWithin depth) }
termination_by structural depth => depth

/-- What was recorded on a context and below it.  No chain of contexts is longer than
the tree has nodes. -/
def report (t : ContextTree) (c : Nat) : Report := t.reportWithin t.nodes.length c

/-- Whether a context, or one below it, was marked invalid, by the marks. -/
def isInvalid (t : ContextTree) (c : Nat) : Bool := (t.report c).isInvalid

/-- Whether neither a context nor one below it is marked invalid. -/
def isValid (t : ContextTree) (c : Nat) : Bool := (t.report c).isValid

/-- The issues of a context and of those below it, in descent order. -/
def issues (t : ContextTree) (c : Nat) : List Issue := (t.report c).allIssues

end ContextTree

end ValueSchema
