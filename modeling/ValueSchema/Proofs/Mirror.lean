import Mathlib.Logic.Function.Basic
import Mathlib.Tactic.Tauto
import ValueSchema.Proofs.ContextActs

/-!
# Parts of a tree in another tree

Some contexts of a tree form a *territory*: with a context, its children belong to it.
The contexts above a territory are *shared*.  A second tree *mirrors* the territory under
a renumbering when it has the same nodes there, up to the numbers of contexts
(`ContextTree.Mirrors`).

What is seen from inside a territory is the same in both trees: the report of a context,
and which contexts are above it (`Mirrors.report_eq`, `Mirrors.above_eq`).  An act inside
the territory, performed in both trees, gets the same answer and leads to trees of which
the second mirrors the first again (`Mirrors.respond`), although a new context gets
different numbers in the two.
-/

namespace ValueSchema

/-- A node with the contexts it names renumbered. -/
def ContextNode.renumber (ρ : Nat → Nat) (n : ContextNode) : ContextNode :=
  { n with parent := n.parent.map ρ, children := n.children.map ρ }

theorem ContextNode.renumber_congr {ρ ρ' : Nat → Nat} {n : ContextNode}
    (hp : ∀ p, n.parent = some p → ρ p = ρ' p) (hc : ∀ c ∈ n.children, ρ c = ρ' c) :
    n.renumber ρ = n.renumber ρ' := by
  rw [renumber, renumber, List.map_congr_left hc]
  cases h : n.parent with
  | none => rfl
  | some p => rw [Option.map_some, Option.map_some, hp p h]

theorem ContextNode.renumber_eq_self {ρ : Nat → Nat} {n : ContextNode}
    (hp : ∀ p, n.parent = some p → ρ p = p) (hc : ∀ c ∈ n.children, ρ c = c) :
    n.renumber ρ = n := by
  have h : n.renumber ρ = n.renumber id := renumber_congr hp hc
  rw [h]
  simp [renumber]

theorem ContextNode.renumber_renumber (ρ σ : Nat → Nat) (n : ContextNode) :
    (n.renumber ρ).renumber σ = n.renumber (σ ∘ ρ) := by
  simp [renumber]

namespace ContextTree

variable {ρ : Nat → Nat} {own shared : Nat → Prop} {t u t' u' : ContextTree} {c d p : Nat}
  {raised : List Issue}

/-! ## Territories -/

/-- The own contexts are closed downwards, and above them stand only own and shared
ones. -/
structure Territory (own shared : Nat → Prop) (t : ContextTree) : Prop where
  /-- Own contexts exist. -/
  own_lt : ∀ {c}, own c → c < t.size
  /-- Shared contexts exist. -/
  shared_lt : ∀ {c}, shared c → c < t.size
  /-- What is below an own context is own. -/
  own_child : ∀ {c d}, own c → d ∈ (t.node c).children → own d
  /-- What is above an own context is own or shared. -/
  own_parent : ∀ {c p}, own c → (t.node c).parent = some p → own p ∨ shared p
  /-- What is above a shared context is shared. -/
  shared_parent : ∀ {c p}, shared c → (t.node c).parent = some p → shared p

namespace Territory

theorem known_lt (r : t.Territory own shared) (h : own c ∨ shared c) : c < t.size :=
  h.elim r.own_lt r.shared_lt

theorem known_parent (r : t.Territory own shared) (h : own c ∨ shared c)
    (hp : (t.node c).parent = some p) : own p ∨ shared p :=
  h.elim (fun h => r.own_parent h hp) fun h => .inr (r.shared_parent h hp)

theorem known_above (r : t.Territory own shared) (w : t.WellLinked) (h : own c ∨ shared c) :
    ∀ d ∈ t.above c, own d ∨ shared d := by
  revert h
  refine w.climb (motive := fun c => own c ∨ shared c → ∀ d ∈ t.above c, own d ∨ shared d)
    ?_ ?_ c
  · intro c hc _ d hd
    rw [above_of_parent_none hc] at hd
    cases hd
  · intro c p hc ih h d hd
    have hp := r.known_parent h hc
    rw [w.above_eq hc, List.mem_cons] at hd
    rcases hd with rfl | hd
    · exact hp
    · exact ih hp d hd

theorem markedAt (r : t.Territory own shared) (m : t.MarkedAt c raised t') :
    t'.Territory own shared where
  own_lt h := by rw [m.size_eq]; exact r.own_lt h
  shared_lt h := by rw [m.size_eq]; exact r.shared_lt h
  own_child h hd := r.own_child h (m.children_eq _ ▸ hd)
  own_parent h hp := r.own_parent h (m.parent_eq _ ▸ hp)
  shared_parent h hp := r.shared_parent h (m.parent_eq _ ▸ hp)

/-- A context that is opened below an own one, or below nothing, is own. -/
theorem openAt (r : t.Territory own shared) {parent : Option Nat}
    (h : ∀ p, parent = some p → own p) (path : Path) :
    (t.openAt parent path).2.Territory (fun x => own x ∨ x = t.size) shared := by
  have hlt : ∀ p, parent = some p → p < t.size := fun p hp => r.own_lt (h p hp)
  constructor
  · intro x hx
    rw [size_openAt]
    rcases hx with hx | rfl
    · exact Nat.lt_succ_of_lt (r.own_lt hx)
    · exact Nat.lt_succ_self _
  · intro x hx
    rw [size_openAt]
    exact Nat.lt_succ_of_lt (r.shared_lt hx)
  · intro x d hx hd
    rw [children_openAt hlt, List.mem_append] at hd
    rcases hd with hd | hd
    · rcases hx with hx | rfl
      · exact .inl (r.own_child hx hd)
      · rw [node_of_size_le (Nat.le_refl _)] at hd
        cases hd
    · split at hd
      · exact .inr (List.mem_singleton.mp hd)
      · cases hd
  · intro x p hx hp
    rw [parent_openAt hlt] at hp
    split at hp
    · exact .inl (.inl (h p hp))
    · next hne => exact (r.own_parent (hx.resolve_right hne) hp).imp .inl id
  · intro x p hx hp
    rw [parent_openAt hlt, if_neg (Nat.ne_of_lt (r.shared_lt hx))] at hp
    exact r.shared_parent hx hp

theorem discard (r : t.Territory own shared) (w : t.WellLinked) (h : d ∈ (t.node c).children) :
    (t.discard c d).Territory own shared := by
  have hparent : ∀ {x p}, ((t.discard c d).node x).parent = some p → (t.node x).parent = some p := by
    intro x p hp
    rw [w.parent_discard h] at hp
    split at hp
    · cases hp
    · exact hp
  constructor
  · intro x hx
    rw [size_discard]
    exact r.own_lt hx
  · intro x hx
    rw [size_discard]
    exact r.shared_lt hx
  · intro x y hx hy
    rw [w.children_discard h] at hy
    exact r.own_child hx (List.mem_filter.mp hy).1
  · intro x p hx hp
    exact r.own_parent hx (hparent hp)
  · intro x p hx hp
    exact r.shared_parent hx (hparent hp)

end Territory

/-! ## Mirrors -/

/-- The tree `u` has the territory of `t`, under the renumbering `ρ`. -/
structure Mirrors (ρ : Nat → Nat) (own shared : Nat → Prop) (t u : ContextTree) : Prop where
  /-- The territory. -/
  territory : t.Territory own shared
  /-- The nodes of own contexts. -/
  node_eq : ∀ {c}, own c → u.node (ρ c) = (t.node c).renumber ρ
  /-- Own contexts have their counterparts. -/
  image_lt : ∀ {c}, own c → ρ c < u.size
  /-- Shared contexts keep their numbers. -/
  shared_eq : ∀ {c}, shared c → ρ c = c
  /-- Shared contexts exist in both trees. -/
  shared_lt : ∀ {c}, shared c → c < u.size
  /-- Shared contexts stand at the same place. -/
  shared_parent : ∀ {c}, shared c → (u.node c).parent = (t.node c).parent
  /-- Different contexts have different counterparts. -/
  injective : ∀ {c d}, own c ∨ shared c → own d ∨ shared d → ρ c = ρ d → c = d

namespace Mirrors

theorem image_eq_iff (m : Mirrors ρ own shared t u) (hc : own c ∨ shared c)
    (hd : own d ∨ shared d) : ρ c = ρ d ↔ c = d :=
  ⟨m.injective hc hd, congrArg ρ⟩

/-- The context below which a counterpart is opened exists. -/
theorem map_parent_lt (m : Mirrors ρ own shared t u) {parent : Option Nat}
    (h : ∀ p, parent = some p → own p) : ∀ p, parent.map ρ = some p → p < u.size := by
  intro p hp
  obtain ⟨q, hq, rfl⟩ := Option.map_eq_some_iff.mp hp
  exact m.image_lt (h q hq)

theorem parent_eq (m : Mirrors ρ own shared t u) (h : own c ∨ shared c) :
    (u.node (ρ c)).parent = (t.node c).parent.map ρ := by
  rcases h with h | h
  · rw [m.node_eq h]
    rfl
  · rw [m.shared_eq h, m.shared_parent h]
    cases hp : (t.node c).parent with
    | none => rfl
    | some p => rw [Option.map_some, m.shared_eq (m.territory.shared_parent h hp)]

/-- The contexts above a context have their counterparts above its counterpart. -/
theorem above_eq (m : Mirrors ρ own shared t u) (wt : t.WellLinked) (wu : u.WellLinked)
    (h : own c ∨ shared c) : u.above (ρ c) = (t.above c).map ρ := by
  revert h
  refine wt.climb (motive := fun c => own c ∨ shared c → u.above (ρ c) = (t.above c).map ρ)
    ?_ ?_ c
  · intro c hc h
    have hu := m.parent_eq h
    rw [hc] at hu
    rw [above_of_parent_none hc, above_of_parent_none hu]
    rfl
  · intro c p hc ih h
    have hu := m.parent_eq h
    rw [hc] at hu
    rw [wt.above_eq hc, wu.above_eq hu, ih (m.territory.known_parent h hc)]
    rfl

theorem mem_map_iff (m : Mirrors ρ own shared t u) {l : List Nat}
    (hl : ∀ x ∈ l, own x ∨ shared x) (hd : own d ∨ shared d) : ρ d ∈ l.map ρ ↔ d ∈ l := by
  rw [List.mem_map]
  constructor
  · rintro ⟨x, hx, hxd⟩
    exact m.injective (hl x hx) hd hxd ▸ hx
  · intro h
    exact ⟨d, h, rfl⟩

theorem mem_above_iff (m : Mirrors ρ own shared t u) (wt : t.WellLinked) (wu : u.WellLinked)
    (hc : own c ∨ shared c) (hd : own d ∨ shared d) : ρ d ∈ u.above (ρ c) ↔ d ∈ t.above c := by
  rw [m.above_eq wt wu hc]
  exact m.mem_map_iff (m.territory.known_above wt hc) hd

theorem mem_children_iff (m : Mirrors ρ own shared t u) (hc : own c) (hd : own d) :
    ρ d ∈ (u.node (ρ c)).children ↔ d ∈ (t.node c).children := by
  rw [m.node_eq hc]
  exact m.mem_map_iff (fun x hx => .inl (m.territory.own_child hc hx)) (.inl hd)

/-- From inside the territory both trees look the same. -/
theorem report_eq (m : Mirrors ρ own shared t u) (wt : t.WellLinked) (wu : u.WellLinked)
    (h : own c) : u.report (ρ c) = t.report c := by
  revert h
  refine wt.descend (motive := fun c => own c → u.report (ρ c) = t.report c) ?_ c
  intro c ih h
  rw [wt.report_eq, wu.report_eq, m.node_eq h]
  show Report.mk _ _ _ _ (((t.node c).children.map ρ).map u.report) = _
  rw [List.map_map]
  congr 1
  exact List.map_congr_left fun d hd => ih d hd (m.territory.own_child h hd)

/-- A tree mirrors as before if nothing changes in the territory. -/
theorem frame (m : Mirrors ρ own shared t u) (hsize : u.size ≤ u'.size)
    (hown : ∀ c, own c → u'.node (ρ c) = u.node (ρ c))
    (hshared : ∀ c, shared c → (u'.node c).parent = (u.node c).parent) :
    Mirrors ρ own shared t u' where
  territory := m.territory
  node_eq h := (hown _ h).trans (m.node_eq h)
  image_lt h := Nat.lt_of_lt_of_le (m.image_lt h) hsize
  shared_eq := m.shared_eq
  shared_lt h := Nat.lt_of_lt_of_le (m.shared_lt h) hsize
  shared_parent h := (hshared _ h).trans (m.shared_parent h)
  injective := m.injective

theorem congr {own' : Nat → Prop} (m : Mirrors ρ own shared t u) (h : ∀ c, own' c ↔ own c) :
    Mirrors ρ own' shared t u := by
  obtain rfl : own' = own := funext fun c => propext (h c)
  exact m

/-! ## The same act in both trees -/

/-- An own context is marked. -/
theorem markedAt (m : Mirrors ρ own shared t u) (wt : t.WellLinked) (wu : u.WellLinked)
    (hc : own c) (mt : t.MarkedAt c raised t') (mu : u.MarkedAt (ρ c) raised u') :
    Mirrors ρ own shared t' u' where
  territory := m.territory.markedAt mt
  node_eq {d} hd := by
    have hself : ρ d = ρ c ↔ d = c := m.image_eq_iff (.inl hd) (.inl hc)
    rw [mu.node_eq, mt.node_eq, m.node_eq hd]
    simp only [ContextNode.renumber, hself, m.mem_above_iff wt wu (.inl hc) (.inl hd)]
  image_lt h := by rw [mu.size_eq]; exact m.image_lt h
  shared_eq := m.shared_eq
  shared_lt h := by rw [mu.size_eq]; exact m.shared_lt h
  shared_parent h := by rw [mu.parent_eq, mt.parent_eq]; exact m.shared_parent h
  injective := m.injective

/-- It does not matter what number the counterpart of the next context has. -/
theorem update (m : Mirrors ρ own shared t u) (wt : t.WellLinked) (n : Nat) :
    Mirrors (Function.update ρ t.size n) own shared t u := by
  have hold : ∀ {x}, x < t.size → Function.update ρ t.size n x = ρ x := fun hx =>
    Function.update_of_ne (Nat.ne_of_lt hx) ..
  refine ⟨m.territory, ?_, ?_, ?_, m.shared_lt, m.shared_parent, ?_⟩
  · intro c hc
    have hct := m.territory.own_lt hc
    rw [hold hct, m.node_eq hc]
    exact ContextNode.renumber_congr
      (fun p hp => (hold (Nat.lt_trans (wt.parent_lt hp) hct)).symm)
      (fun d hd => (hold (wt.mem_children_lt_size hd)).symm)
  · intro c hc
    rw [hold (m.territory.own_lt hc)]
    exact m.image_lt hc
  · intro c hc
    rw [hold (m.territory.shared_lt hc)]
    exact m.shared_eq hc
  · intro c d hc hd hcd
    rw [hold (m.territory.known_lt hc), hold (m.territory.known_lt hd)] at hcd
    exact m.injective hc hd hcd

theorem known_image_lt (m : Mirrors ρ own shared t u) (h : own c ∨ shared c) : ρ c < u.size := by
  rcases h with h | h
  · exact m.image_lt h
  · rw [m.shared_eq h]
    exact m.shared_lt h

/-- A context is opened, below an own one or below nothing.  Of the old contexts only the
one above has changed. -/
theorem node_openAt (m : Mirrors ρ own shared t u) (hnew : ρ t.size = u.size)
    {parent : Option Nat} (h : ∀ p, parent = some p → own p) (path : Path)
    (hc : own c ∨ c = t.size) :
    (u.openAt (parent.map ρ) path).2.node (ρ c) =
      ((t.openAt parent path).2.node c).renumber ρ := by
  have hlt : ∀ p, parent = some p → p < t.size := fun p hp => m.territory.own_lt (h p hp)
  rw [ContextTree.node_openAt (m.map_parent_lt h), ContextTree.node_openAt hlt]
  rcases hc with hc | rfl
  · have hparent : parent.map ρ = some (ρ c) ↔ parent = some c := by
      cases parent with
      | none => simp
      | some p =>
          rw [Option.map_some, Option.some_inj, Option.some_inj]
          exact m.image_eq_iff (.inl (h p rfl)) (.inl hc)
    rw [if_neg (Nat.ne_of_lt (m.image_lt hc)), if_neg (Nat.ne_of_lt (m.territory.own_lt hc)),
      m.node_eq hc]
    by_cases hp : parent = some c
    · rw [if_pos (hparent.mpr hp), if_pos hp]
      simp [ContextNode.renumber, hnew]
    · rw [if_neg (fun h => hp (hparent.mp h)), if_neg hp]
  · rw [if_pos hnew, if_pos rfl]
    simp [ContextNode.renumber]

/-- The next number of the second tree is larger than the number of every counterpart. -/
theorem injective_next (m : Mirrors ρ own shared t u) (hnew : ρ t.size = u.size)
    (hc : (own c ∨ shared c) ∨ c = t.size) (hd : (own d ∨ shared d) ∨ d = t.size)
    (h : ρ c = ρ d) : c = d := by
  rcases hc with hc | rfl <;> rcases hd with hd | rfl
  · exact m.injective hc hd h
  · have := m.known_image_lt hc
    omega
  · have := m.known_image_lt hd
    omega
  · rfl

/-- The new context is own. -/
theorem openAt (m : Mirrors ρ own shared t u) (hnew : ρ t.size = u.size) {parent : Option Nat}
    (h : ∀ p, parent = some p → own p) (path : Path) :
    Mirrors ρ (fun x => own x ∨ x = t.size) shared
      (t.openAt parent path).2 (u.openAt (parent.map ρ) path).2 := by
  have hlt : ∀ p, parent = some p → p < t.size := fun p hp => m.territory.own_lt (h p hp)
  refine ⟨m.territory.openAt h path, m.node_openAt hnew h path, ?_, m.shared_eq, ?_, ?_,
    fun hc hd => m.injective_next hnew (or_right_comm.mp hc) (or_right_comm.mp hd)⟩
  · rintro x (hx | rfl)
    · rw [size_openAt]
      exact Nat.lt_succ_of_lt (m.image_lt hx)
    · rw [size_openAt, hnew]
      exact Nat.lt_succ_self _
  · intro x hx
    rw [size_openAt]
    exact Nat.lt_succ_of_lt (m.shared_lt hx)
  · intro x hx
    rw [parent_openAt (m.map_parent_lt h), parent_openAt hlt,
      if_neg (Nat.ne_of_lt (m.shared_lt hx)), if_neg (Nat.ne_of_lt (m.territory.shared_lt hx))]
    exact m.shared_parent hx

/-- A child of an own context is discarded. -/
theorem discard (m : Mirrors ρ own shared t u) (wt : t.WellLinked) (wu : u.WellLinked)
    (hc : own c) (hd : d ∈ (t.node c).children) :
    Mirrors ρ own shared (t.discard c d) (u.discard (ρ c) (ρ d)) := by
  have hdo : own d := m.territory.own_child hc hd
  have hdu : ρ d ∈ (u.node (ρ c)).children := (m.mem_children_iff hc hdo).mpr hd
  refine ⟨m.territory.discard wt hd, ?_, ?_, m.shared_eq, ?_, ?_, m.injective⟩
  · intro x hx
    have hxd : ρ x = ρ d ↔ x = d := m.image_eq_iff (.inl hx) (.inl hdo)
    have hxc : ρ x = ρ c ↔ x = c := m.image_eq_iff (.inl hx) (.inl hc)
    have hkept : ((t.node x).children.map ρ).filter (· ≠ ρ d)
        = ((t.node x).children.filter (· ≠ d)).map ρ := by
      rw [List.filter_map]
      congr 1
      refine List.filter_congr fun y hy => ?_
      have hyd : ρ y = ρ d ↔ y = d :=
        m.image_eq_iff (.inl (m.territory.own_child hx hy)) (.inl hdo)
      simp [hyd]
    rw [wu.node_discard hdu, wt.node_discard hd, m.node_eq hx]
    by_cases h1 : x = d
    · rw [if_pos (hxd.mpr h1), if_pos h1]
      rfl
    · rw [if_neg (fun h => h1 (hxd.mp h)), if_neg h1]
      by_cases h2 : x = c
      · rw [if_pos (hxc.mpr h2), if_pos h2]
        exact congrArg (fun l => ({ (t.node x).renumber ρ with children := l } : ContextNode)) hkept
      · rw [if_neg (fun h => h2 (hxc.mp h)), if_neg h2]
  · intro x hx
    rw [size_discard]
    exact m.image_lt hx
  · intro x hx
    rw [size_discard]
    exact m.shared_lt hx
  · intro x hx
    have hxd : ρ x = ρ d ↔ x = d := m.image_eq_iff (.inr hx) (.inl hdo)
    rw [m.shared_eq hx] at hxd
    rw [wu.parent_discard hdu, wt.parent_discard hd]
    by_cases h : x = d
    · rw [if_pos (hxd.mpr h), if_pos h]
    · rw [if_neg (fun hx => h (hxd.mp hx)), if_neg h]
      exact m.shared_parent hx

end Mirrors

/-- What an act inside the territory does to both trees. -/
inductive Alongside (ρ : Nat → Nat) (own : Nat → Prop) (t u : ContextTree) :
    ContextTree → ContextTree → Prop where
  /-- Nothing. -/
  | unchanged : Alongside ρ own t u t u
  /-- A context is opened in both. -/
  | opened (parent : Option Nat) (path : Path) (h : ∀ p, parent = some p → own p) :
      Alongside ρ own t u (t.openAt parent path).2 (u.openAt (parent.map ρ) path).2
  /-- A context and its counterpart are marked. -/
  | marked (c : Nat) (hc : own c) (raised : List Issue) (t' u' : ContextTree)
      (mt : t.MarkedAt c raised t') (mu : u.MarkedAt (ρ c) raised u') :
      Alongside ρ own t u t' u'
  /-- A child and its counterpart are discarded. -/
  | discarded (c d : Nat) (hc : own c) (hd : d ∈ (t.node c).children) :
      Alongside ρ own t u (t.discard c d) (u.discard (ρ c) (ρ d))

namespace Mirrors

variable {op : ContextOp Nat}

/-- A context that is opened has the same path in both trees. -/
theorem answerOpened (m : Mirrors ρ own shared t u) {parent : Option Nat}
    (h : ∀ p, parent = some p → own p) (path : Path) :
    (ContextTree.answerOpened (t.openAt parent path)).1
        = (ContextTree.answerOpened (u.openAt (parent.map ρ) path)).1 ∧
      Alongside ρ own t u (ContextTree.answerOpened (t.openAt parent path)).2
        (ContextTree.answerOpened (u.openAt (parent.map ρ) path)).2 := by
  have hlt : ∀ p, parent = some p → p < t.size := fun p hp => m.territory.own_lt (h p hp)
  rw [answerOpened_openAt hlt, answerOpened_openAt (m.map_parent_lt h)]
  exact ⟨rfl, .opened parent path h⟩

/-- An operation inside the territory gets the same answer and does the same in both
trees. -/
theorem perform (m : Mirrors ρ own shared t u) (wt : t.WellLinked) (wu : u.WellLinked)
    (hnew : ρ t.size = u.size) (call : Call) (hc : own c)
    (hop : ∀ d ∈ op.named, own d ∨ d = t.size) :
    (t.perform call c op).1 = (u.perform call (ρ c) (op.map ρ)).1 ∧
      Alongside ρ own t u (t.perform call c op).2 (u.perform call (ρ c) (op.map ρ)).2 := by
  have hct := m.territory.own_lt hc
  have hcu := m.image_lt hc
  have hpath : u.pathOf (ρ c) = t.pathOf c := by
    rw [pathOf_eq, pathOf_eq, m.node_eq hc]
    rfl
  have hreport := m.report_eq wt wu hc
  have hbelow : ∀ p, some c = some p → own p := by
    rintro _ ⟨⟩
    exact hc
  cases op with
  | child s =>
      simp only [ContextTree.perform, ContextOp.map, ContextTree.child, hpath]
      exact m.answerOpened hbelow _
  | branch =>
      simp only [ContextTree.perform, ContextOp.map, ContextTree.branch, hpath]
      exact m.answerOpened hbelow _
  | detached =>
      simp only [ContextTree.perform, ContextOp.map, ContextTree.detached, hpath]
      have hnothing : ∀ p, (none : Option Nat) = some p → own p := by
        intro p h
        cases h
      exact m.answerOpened hnothing _
  | setInvalid =>
      exact ⟨rfl, .marked c hc [] _ _ (wt.markedAt_setInvalid hct) (wu.markedAt_setInvalid hcu)⟩
  | addIssue cause text data =>
      simp only [ContextTree.perform, ContextOp.map, hpath]
      exact ⟨trivial, .marked c hc [_] _ _ (wt.markedAt_raise hct _) (wu.markedAt_raise hcu _)⟩
  | discard d =>
      have hchild : ρ d ∈ (u.node (ρ c)).children ↔ d ∈ (t.node c).children := by
        rcases hop d (List.mem_singleton.mpr rfl) with hd | rfl
        · exact m.mem_children_iff hc hd
        · rw [hnew]
          exact iff_of_false (fun h => Nat.lt_irrefl _ (wu.mem_children_lt_size h))
            (fun h => Nat.lt_irrefl _ (wt.mem_children_lt_size h))
      simp only [ContextTree.perform, ContextOp.map]
      by_cases hd : d ∈ (t.node c).children
      · rw [if_pos hd, if_pos (hchild.mpr hd)]
        exact ⟨rfl, .discarded c d hc hd⟩
      · rw [if_neg hd, if_neg (fun h => hd (hchild.mp h))]
        exact ⟨rfl, .unchanged⟩
  | isInvalid =>
      simp only [ContextTree.perform, ContextOp.map, ContextTree.isInvalid, hreport]
      exact ⟨trivial, .unchanged⟩
  | isValid =>
      simp only [ContextTree.perform, ContextOp.map, ContextTree.isValid, hreport]
      exact ⟨trivial, .unchanged⟩
  | issues =>
      simp only [ContextTree.perform, ContextOp.map, ContextTree.issues, hreport]
      exact ⟨trivial, .unchanged⟩

/-- An act inside the territory gets the same answer and does the same in both trees. -/
theorem respond (m : Mirrors ρ own shared t u) (wt : t.WellLinked) (wu : u.WellLinked)
    (hnew : ρ t.size = u.size) (call : Call) {a : ContextAct Nat}
    (ha : ∀ c ∈ a.named, own c ∨ c = t.size) :
    (t.respond call a).1 = (u.respond call (a.map ρ)).1 ∧
      Alongside ρ own t u (t.respond call a).2 (u.respond call (a.map ρ)).2 := by
  rcases ha a.context (List.mem_cons_self ..) with hc | hc
  · have hct : a.context < t.size := m.territory.own_lt hc
    have hcu : (a.map ρ).context < u.size := m.image_lt hc
    rw [ContextTree.respond, ContextTree.respond, if_pos hct, if_pos hcu]
    exact m.perform wt wu hnew call hc fun d hd => ha d (List.mem_cons_of_mem _ hd)
  · have hct : ¬ a.context < t.size := by omega
    have hcu : ¬ (a.map ρ).context < u.size := by
      show ¬ ρ a.context < u.size
      rw [hc, hnew]
      exact Nat.lt_irrefl _
    rw [ContextTree.respond, ContextTree.respond, if_neg hct, if_neg hcu]
    exact ⟨rfl, .unchanged⟩

/-- The second tree mirrors the first again.  A context that was opened is own. -/
theorem alongside (m : Mirrors ρ own shared t u) (wt : t.WellLinked) (wu : u.WellLinked)
    (hnew : ρ t.size = u.size) (h : Alongside ρ own t u t' u') :
    (t'.size = t.size ∧ u'.size = u.size ∧ Mirrors ρ own shared t' u') ∨
      (t'.size = t.size + 1 ∧ u'.size = u.size + 1 ∧
        Mirrors ρ (fun x => own x ∨ x = t.size) shared t' u') := by
  cases h with
  | unchanged => exact .inl ⟨rfl, rfl, m⟩
  | opened parent path h =>
      exact .inr ⟨size_openAt .., size_openAt .., m.openAt hnew h path⟩
  | marked c hc raised _ _ mt mu =>
      exact .inl ⟨mt.size_eq, mu.size_eq, m.markedAt wt wu hc mt mu⟩
  | discarded c d hc hd =>
      exact .inl ⟨size_discard .., size_discard .., m.discard wt wu hc hd⟩

/-- A shared context of the second tree is dirtied just when it is dirty in the first. -/
theorem dirty_iff (m : Mirrors ρ own shared t u) (wt : t.WellLinked) (wu : u.WellLinked)
    (h : Alongside ρ own t u t' u') (hd : shared d)
    (hdirty : (t.node d).dirty = true → (u.node d).dirty = true) :
    (u'.node d).dirty = true ↔ (u.node d).dirty = true ∨ (t'.node d).dirty = true := by
  have hsame : (t'.node d).dirty = (t.node d).dirty → (u'.node d).dirty = (u.node d).dirty →
      ((u'.node d).dirty = true ↔ (u.node d).dirty = true ∨ (t'.node d).dirty = true) := by
    intro ht hu
    rw [ht, hu]
    exact ⟨.inl, fun h => h.elim id hdirty⟩
  cases h with
  | unchanged => exact hsame rfl rfl
  | opened parent path h =>
      have hlt : ∀ p, parent = some p → p < t.size := fun p hp => m.territory.own_lt (h p hp)
      have hltu := m.map_parent_lt h
      exact hsame (marks_openAt hlt path d).2 (marks_openAt hltu _ d).2
  | marked c hc raised _ _ mt mu =>
      have habove := m.mem_above_iff wt wu (.inl hc) (.inr hd)
      rw [m.shared_eq hd] at habove
      rw [mu.dirty_iff, mt.dirty_iff, habove]
      tauto
  | discarded c x hc hx =>
      have hxo := m.territory.own_child hc hx
      exact hsame (wt.marks_discard hx d).2
        (wu.marks_discard ((m.mem_children_iff hc hxo).mpr hx) d).2

end Mirrors

end ContextTree

end ValueSchema
