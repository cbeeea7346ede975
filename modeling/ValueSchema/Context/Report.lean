import ValueSchema.Issue.Message

/-!
# Reports

A `Report` is what parsing has recorded at one place of a value and below it: the issues
raised there, whether the place was marked invalid, and the reports of the contexts
below, in the order in which they were opened.

Validity is known in two ways.  `Report.isInvalid` reads marks that are kept up to date:
a place is *dirty* when a report below it is invalid.  `Report.isValid` looks through
all reports below again.  A report that is discarded leaves its mark behind.

`Report.allIssues` lists the issues in descent order, those of a place before those of
the places below it.
-/

namespace ValueSchema

/-- What parsing recorded at a place and below it. -/
structure Report where
  /-- The place. -/
  path : Path
  /-- Whether the place itself was marked invalid. -/
  invalid : Bool := false
  /-- Whether something below the place was marked invalid. -/
  dirty : Bool := false
  /-- The issues raised at the place. -/
  issues : List Issue := []
  /-- The reports below, oldest first. -/
  children : List Report := []

namespace Report

/-- Whether the place or something below it was marked invalid. -/
def isInvalid (r : Report) : Bool := r.invalid || r.dirty

mutual

/-- Whether neither the place nor anything still below it is marked invalid. -/
def isValid : Report → Bool
  | ⟨_, invalid, _, _, children⟩ => !invalid && allValid children

/-- Whether all reports are valid. -/
def allValid : List Report → Bool
  | [] => true
  | r :: rs => isValid r && allValid rs

end

mutual

/-- The issues of the place, then those below it. -/
def allIssues : Report → List Issue
  | ⟨_, _, _, issues, children⟩ => issues ++ issuesOfAll children

/-- The issues of several reports, one after another. -/
def issuesOfAll : List Report → List Issue
  | [] => []
  | r :: rs => allIssues r ++ issuesOfAll rs

end

/-- Raises an issue, which marks the place invalid. -/
def raise (r : Report) (i : Issue) : Report :=
  { r with issues := r.issues ++ [i], invalid := true }

/-- Keeps the mark of a report below. -/
def noteMark (r : Report) (below : Report) : Report := { r with dirty := r.dirty || below.isInvalid }

/-- Adds a report below, after the others. -/
def attach (r : Report) (below : Report) : Report :=
  { r.noteMark below with children := r.children ++ [below] }

theorem allIssues_raise (r : Report) (i : Issue) :
    (r.raise i).allIssues = r.issues ++ [i] ++ issuesOfAll r.children := by
  cases r
  rfl

theorem issuesOfAll_append (rs ss : List Report) :
    issuesOfAll (rs ++ ss) = issuesOfAll rs ++ issuesOfAll ss := by
  induction rs with
  | nil => rfl
  | cons r rs ih => rw [List.cons_append, issuesOfAll, issuesOfAll, ih, List.append_assoc]

theorem allIssues_attach (r below : Report) :
    (r.attach below).allIssues = r.allIssues ++ below.allIssues := by
  cases r
  simp [attach, noteMark, allIssues, issuesOfAll_append, issuesOfAll]

end Report

end ValueSchema
