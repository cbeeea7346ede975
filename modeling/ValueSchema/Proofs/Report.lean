import ValueSchema.Parse.Entry

/-!
# What a report lists

A parse leaves marks and issues in a tree of reports.  `Report.Clean` says that a report
and everything still below it hold neither, and `Report.Lists` that the marks of a
report say exactly what its issues say: it is marked invalid, by the marks as well as by
a new look at all reports below, just when it lists an issue.

`Report.Records` is the invariant behind both.  It tells the issues of the place itself
from the issues below it, because an issue that is raised later goes in front of the
issues below.  Each change of a report has one lemma: `Records.raise` and
`Records.attach`.  A discarded report leaves only its mark, which changes nothing once an
issue is listed below the place (`Records.noteMark`).
-/

namespace ValueSchema

namespace Report

/-! ## The contexts of a report -/

mutual

/-- A report and all reports below it, in descent order. -/
def contexts : Report → List Report
  | ⟨path, invalid, dirty, issues, children⟩ =>
      ⟨path, invalid, dirty, issues, children⟩ :: contextsOfAll children

/-- Several reports and all reports below them. -/
def contextsOfAll : List Report → List Report
  | [] => []
  | r :: rs => contexts r ++ contextsOfAll rs

end

/-- Neither a report nor any report below it has a mark or an issue. -/
def Clean (r : Report) : Prop :=
  ∀ c ∈ r.contexts, c.invalid = false ∧ c.dirty = false ∧ c.issues = []

theorem mem_contextsOfAll (c : Report) :
    ∀ rs : List Report, c ∈ contextsOfAll rs ↔ ∃ r ∈ rs, c ∈ r.contexts
  | [] => by simp [contextsOfAll]
  | r :: rs => by
      rw [contextsOfAll, List.mem_append, mem_contextsOfAll c rs]
      simp

/-- A report is clean when it has no mark and no issue and everything below it is clean. -/
theorem clean_iff (r : Report) :
    r.Clean ↔ r.invalid = false ∧ r.dirty = false ∧ r.issues = [] ∧ ∀ c ∈ r.children, c.Clean := by
  obtain ⟨path, invalid, dirty, issues, children⟩ := r
  unfold Clean
  rw [contexts]
  constructor
  · intro h
    obtain ⟨hi, hd, hs⟩ := h _ (List.mem_cons_self ..)
    refine ⟨hi, hd, hs, fun c hc d hd' => h d (List.mem_cons_of_mem _ ?_)⟩
    exact (mem_contextsOfAll d children).mpr ⟨c, hc, hd'⟩
  · rintro ⟨hi, hd, hs, hc⟩ d hd'
    cases List.mem_cons.mp hd' with
    | inl he => subst he; exact ⟨hi, hd, hs⟩
    | inr hm =>
        obtain ⟨c, hc', hcd⟩ := (mem_contextsOfAll d children).mp hm
        exact hc c hc' d hcd

/-- A report with nothing in it. -/
theorem clean_empty (path : Path) : Clean { path := path } :=
  (clean_iff _).mpr ⟨rfl, rfl, rfl, by simp⟩

theorem isInvalid_noteMark (r below : Report) :
    (r.noteMark below).isInvalid = (r.isInvalid || below.isInvalid) :=
  (Bool.or_assoc ..).symm

theorem isInvalid_attach (r below : Report) :
    (r.attach below).isInvalid = (r.isInvalid || below.isInvalid) :=
  isInvalid_noteMark r below

theorem allValid_append (rs ss : List Report) :
    allValid (rs ++ ss) = (allValid rs && allValid ss) := by
  induction rs with
  | nil => rfl
  | cons r rs ih => rw [List.cons_append, allValid, allValid, ih, Bool.and_assoc]

/-! ## Issues of the place and issues below it -/

/-- A report of a place: its own issues, the issues below it, and the marks that these
issues justify. -/
structure Records (r : Report) (path : Path) (own below : List Issue) : Prop where
  /-- The place. -/
  path_eq : r.path = path
  /-- The issues of the place. -/
  issues_eq : r.issues = own
  /-- The issues below it. -/
  below_eq : issuesOfAll r.children = below
  /-- The mark of the place. -/
  invalid_eq : r.invalid = !own.isEmpty
  /-- The mark of what is below it. -/
  dirty_eq : r.dirty = !below.isEmpty
  /-- The reports below, looked through again. -/
  valid_eq : allValid r.children = below.isEmpty
  /-- Without an issue below, everything below is clean. -/
  clean : below = [] → ∀ c ∈ r.children, c.Clean

/-- A report lists issues: these are all its issues, and its marks say whether there is
one. -/
def Lists (r : Report) (path : Path) (issues : List Issue) : Prop :=
  ∃ own below, r.Records path own below ∧ own ++ below = issues

namespace Records

variable {r c : Report} {path at' : Path} {own below is : List Issue}

theorem allIssues_eq (h : r.Records path own below) : r.allIssues = own ++ below := by
  obtain ⟨p, invalid, dirty, issues, children⟩ := r
  rw [allIssues, ← h.below_eq, ← h.issues_eq]

theorem isInvalid_eq (h : r.Records path own below) : r.isInvalid = !(own ++ below).isEmpty := by
  rw [isInvalid, h.invalid_eq, h.dirty_eq]
  cases own <;> cases below <;> rfl

theorem isValid_eq (h : r.Records path own below) : r.isValid = (own ++ below).isEmpty := by
  obtain ⟨p, invalid, dirty, issues, children⟩ := r
  have hi : invalid = !own.isEmpty := h.invalid_eq
  have hv : allValid children = below.isEmpty := h.valid_eq
  rw [isValid, hi, hv]
  cases own <;> cases below <;> rfl

/-- A report that records nothing is clean. -/
theorem clean_of_nil (h : r.Records path [] []) : r.Clean :=
  (clean_iff r).mpr ⟨h.invalid_eq, h.dirty_eq, h.issues_eq, h.clean rfl⟩

end Records

mutual

/-- A clean report has no issue. -/
theorem Clean.allIssues_eq : ∀ {r : Report}, r.Clean → r.allIssues = []
  | ⟨_, _, _, issues, children⟩, h => by
      obtain ⟨-, -, hs, hc⟩ := (clean_iff _).mp h
      have hs : issues = [] := hs
      rw [allIssues, hs, Clean.issuesOfAll_eq children hc, List.append_nil]

theorem Clean.issuesOfAll_eq : ∀ rs : List Report, (∀ r ∈ rs, r.Clean) → issuesOfAll rs = []
  | [], _ => rfl
  | r :: rs, h => by
      rw [issuesOfAll, Clean.allIssues_eq (h r (List.mem_cons_self ..)),
        Clean.issuesOfAll_eq rs fun s hs => h s (List.mem_cons_of_mem _ hs), List.append_nil]

end

mutual

/-- A clean report is valid on a new look. -/
theorem Clean.isValid_eq : ∀ {r : Report}, r.Clean → r.isValid = true
  | ⟨_, invalid, _, _, children⟩, h => by
      obtain ⟨hi, -, -, hc⟩ := (clean_iff _).mp h
      have hi : invalid = false := hi
      rw [isValid, hi, Clean.allValid_eq children hc]
      rfl

theorem Clean.allValid_eq : ∀ rs : List Report, (∀ r ∈ rs, r.Clean) → allValid rs = true
  | [], _ => rfl
  | r :: rs, h => by
      rw [allValid, Clean.isValid_eq (h r (List.mem_cons_self ..)),
        Clean.allValid_eq rs fun s hs => h s (List.mem_cons_of_mem _ hs)]
      rfl

end

/-- The clean reports are those that record nothing. -/
theorem Clean.records {r : Report} (h : r.Clean) : r.Records r.path [] [] := by
  obtain ⟨hi, hd, hs, hc⟩ := (clean_iff r).mp h
  exact ⟨rfl, hs, Clean.issuesOfAll_eq _ hc, hi, hd, Clean.allValid_eq _ hc, fun _ => hc⟩

/-! ## Changes of a report -/

namespace Records

variable {r c : Report} {path at' : Path} {own below is : List Issue}

/-- An issue raised at the place comes after the other issues of the place. -/
theorem raise (h : r.Records path own below) (i : Issue) :
    (r.raise i).Records path (own ++ [i]) below := by
  refine ⟨h.path_eq, ?_, h.below_eq, ?_, h.dirty_eq, h.valid_eq, h.clean⟩
  · rw [Report.raise, h.issues_eq]
  · simp [Report.raise]

/-- The issues of an attached report come after all issues below the place. -/
theorem attach (h : r.Records path own below) (hc : c.Lists at' is) :
    (r.attach c).Records path own (below ++ is) := by
  obtain ⟨cown, cbelow, hcr, rfl⟩ := hc
  have hall : issuesOfAll [c] = cown ++ cbelow := by
    rw [issuesOfAll, issuesOfAll, List.append_nil, hcr.allIssues_eq]
  have hval : allValid [c] = (cown ++ cbelow).isEmpty := by
    rw [allValid, allValid, Bool.and_true, hcr.isValid_eq]
  refine ⟨h.path_eq, h.issues_eq, ?_, h.invalid_eq, ?_, ?_, ?_⟩
  · show issuesOfAll (r.children ++ [c]) = _
    rw [issuesOfAll_append, h.below_eq, hall]
  · show (r.dirty || c.isInvalid) = _
    rw [h.dirty_eq, hcr.isInvalid_eq]
    cases below <;> rfl
  · show allValid (r.children ++ [c]) = _
    rw [allValid_append, h.valid_eq, hval]
    cases below <;> rfl
  · intro he d hd
    obtain ⟨hb, hn⟩ := List.append_eq_nil_iff.mp he
    obtain ⟨ho, hb'⟩ := List.append_eq_nil_iff.mp hn
    subst ho hb'
    cases List.mem_append.mp hd with
    | inl hm => exact h.clean hb d hm
    | inr hm => exact List.mem_singleton.mp hm ▸ hcr.clean_of_nil

/-- The mark of a discarded report says nothing new when an issue is listed below. -/
theorem noteMark (h : r.Records path own below) (hb : below ≠ []) (c : Report) :
    (r.noteMark c).Records path own below := by
  refine ⟨h.path_eq, h.issues_eq, h.below_eq, h.invalid_eq, ?_, h.valid_eq, h.clean⟩
  show (r.dirty || c.isInvalid) = _
  rw [h.dirty_eq]
  cases below with
  | nil => exact absurd rfl hb
  | cons i is => rfl

/-- What a report records it lists. -/
theorem lists (h : r.Records path own below) : r.Lists path (own ++ below) :=
  ⟨own, below, h, rfl⟩

end Records

namespace Lists

variable {r : Report} {path : Path} {is : List Issue}

theorem allIssues_eq (h : r.Lists path is) : r.allIssues = is := by
  obtain ⟨own, below, hr, rfl⟩ := h
  exact hr.allIssues_eq

theorem isInvalid_eq (h : r.Lists path is) : r.isInvalid = !is.isEmpty := by
  obtain ⟨own, below, hr, rfl⟩ := h
  exact hr.isInvalid_eq

theorem isValid_eq (h : r.Lists path is) : r.isValid = is.isEmpty := by
  obtain ⟨own, below, hr, rfl⟩ := h
  exact hr.isValid_eq

/-- Listing nothing is recording nothing. -/
theorem records (h : r.Lists path []) : r.Records path [] [] := by
  obtain ⟨own, below, hr, he⟩ := h
  obtain ⟨rfl, rfl⟩ := List.append_eq_nil_iff.mp he
  exact hr

end Lists

end Report

end ValueSchema
