import ValueSchema.Context.Tree

/-!
# The nodes of a context tree

`ContextTree.node` reads a tree as a function of the number of a context, and each
operation of a tree has one lemma that says what it does to this function.  The lemmas
`node_openAt`, `node_discard` and `node_markAbove` are all that later modules use of the
operations.

Marking a context dirties the contexts above it, which `ContextTree.above` lists.  The
walk upwards stops at the first dirty context.  So it marks all of them only if whatever
is above a dirty context is dirty, which is the hypothesis of `node_markAbove`.
-/

namespace ValueSchema

/-- Whether a mark was left on the context or below it. -/
def ContextNode.marked (n : ContextNode) : Bool := n.invalid || n.dirty

namespace ContextTree

variable {t u : ContextTree} {c d p : Nat} {parent : Option Nat} {path : Path}

/-- The number of contexts. -/
def size (t : ContextTree) : Nat := t.nodes.length

/-- What a tree keeps of a context.  Nothing is recorded of a context that was not
opened. -/
def node (t : ContextTree) (c : Nat) : ContextNode :=
  t.nodes[c]?.getD { parent := none, path := .root }

theorem pathOf_eq (t : ContextTree) (c : Nat) : t.pathOf c = (t.node c).path := by
  unfold pathOf node
  cases t.nodes[c]? <;> rfl

theorem node_of_size_le (h : t.size ≤ c) : t.node c = { parent := none, path := .root } := by
  rw [node, List.getElem?_eq_none h]
  rfl

theorem lt_size_of_parent (h : (t.node c).parent = some p) : c < t.size := by
  refine Nat.lt_of_not_le fun hc => ?_
  rw [node_of_size_le hc] at h
  cases h

theorem lt_size_of_mem_children (h : d ∈ (t.node c).children) : c < t.size := by
  refine Nat.lt_of_not_le fun hc => ?_
  rw [node_of_size_le hc] at h
  cases h

/-! ## Elementary changes -/

@[simp] theorem size_update (t : ContextTree) (c : Nat) (f : ContextNode → ContextNode) :
    (t.update c f).size = t.size := by
  simp [size, update]

theorem node_update (h : c < t.size) (f : ContextNode → ContextNode) (d : Nat) :
    (t.update c f).node d = if d = c then f (t.node d) else t.node d := by
  unfold node update
  rw [List.getElem?_modify]
  by_cases hd : d = c
  · subst hd
    obtain ⟨n, hn⟩ : ∃ n, t.nodes[d]? = some n := ⟨_, List.getElem?_eq_getElem h⟩
    simp [hn]
  · simp [hd, Ne.symm hd]

theorem node_append (t : ContextTree) (n : ContextNode) (d : Nat) :
    node ⟨t.nodes ++ [n]⟩ d = if d = t.size then n else t.node d := by
  unfold node size
  rcases Nat.lt_trichotomy d t.nodes.length with h | rfl | h
  · rw [List.getElem?_append_left h, if_neg (Nat.ne_of_lt h)]
  · rw [List.getElem?_concat_length, if_pos rfl]
    rfl
  · rw [List.getElem?_eq_none (by simpa using Nat.succ_le_of_lt h),
      List.getElem?_eq_none (Nat.le_of_lt h), if_neg (Nat.ne_of_gt h)]

/-! ## Opening and discarding -/

@[simp] theorem fst_openAt (t : ContextTree) (parent : Option Nat) (path : Path) :
    (t.openAt parent path).1 = t.size := rfl

@[simp] theorem size_openAt (t : ContextTree) (parent : Option Nat) (path : Path) :
    (t.openAt parent path).2.size = t.size + 1 := by
  cases parent <;> simp [openAt, size, update]

/-- A context is opened with the next number, and joins the children of the one above. -/
theorem node_openAt (h : ∀ p, parent = some p → p < t.size) (path : Path) (d : Nat) :
    (t.openAt parent path).2.node d =
      if d = t.size then { parent := parent, path := path }
      else if parent = some d then
        { t.node d with children := (t.node d).children ++ [t.size] }
      else t.node d := by
  cases parent with
  | none => simpa [openAt] using node_append t { parent := none, path := path } d
  | some p =>
      have hp : p < t.size := h p rfl
      have hlt : p < size ⟨t.nodes ++ [{ parent := some p, path := path }]⟩ := by
        simp [size] at hp ⊢
        omega
      show (update ⟨t.nodes ++ [_]⟩ p _).node d = _
      rw [node_update hlt, node_append]
      by_cases hd : d = p
      · subst hd
        simp only [Nat.ne_of_lt hp, if_true, if_false]
        rfl
      · simp [hd, Ne.symm hd]

section

variable (h : ∀ p, parent = some p → p < t.size)

include h

theorem parent_openAt (path : Path) (d : Nat) :
    ((t.openAt parent path).2.node d).parent =
      if d = t.size then parent else (t.node d).parent := by
  rw [node_openAt h]
  split
  · rfl
  · split <;> rfl

theorem children_openAt (path : Path) (d : Nat) :
    ((t.openAt parent path).2.node d).children =
      (t.node d).children ++ if parent = some d then [t.size] else [] := by
  rw [node_openAt h]
  split
  · next hd =>
      subst hd
      have hne : parent ≠ some t.size := fun hp => Nat.lt_irrefl _ (h _ hp)
      simp [node_of_size_le, hne]
  · split <;> simp

/-- A new context carries no mark. -/
theorem marks_openAt (path : Path) (d : Nat) :
    ((t.openAt parent path).2.node d).invalid = (t.node d).invalid ∧
      ((t.openAt parent path).2.node d).dirty = (t.node d).dirty := by
  rw [node_openAt h]
  split
  · next hd => simp [hd, node_of_size_le]
  · split <;> exact ⟨rfl, rfl⟩

end

@[simp] theorem size_discard (t : ContextTree) (c d : Nat) : (t.discard c d).size = t.size := by
  simp [discard]

/-- The two links between a context and a child are cut. -/
theorem node_discard (hc : c < t.size) (hd : d < t.size) (hne : d ≠ c) (x : Nat) :
    (t.discard c d).node x =
      if x = d then { t.node x with parent := none }
      else if x = c then
        { t.node x with children := (t.node x).children.filter (· ≠ d) }
      else t.node x := by
  rw [discard, node_update (by simpa using hd), node_update hc]
  by_cases hx : x = d
  · subst hx
    simp [hne]
  · simp [hx]

/-! ## Marking -/

/-- The contexts above a context, nearest first. -/
def above (t : ContextTree) (c : Nat) : List Nat :=
  match (t.node c).parent with
  | none => []
  | some p => if p < c then p :: t.above p else []
termination_by c

theorem above_of_parent_none (h : (t.node c).parent = none) : t.above c = [] := by
  rw [above, h]

theorem above_of_parent (h : (t.node c).parent = some p) (hp : p < c) :
    t.above c = p :: t.above p := by
  rw [above, h]
  exact if_pos hp

theorem lt_of_mem_above (h : d ∈ t.above c) : d < c := by
  induction c using Nat.strongRecOn with
  | _ c ih =>
      rw [above] at h
      cases hp : (t.node c).parent with
      | none =>
          rw [hp] at h
          cases h
      | some p =>
          rw [hp] at h
          by_cases hlt : p < c
          · simp only [hlt, if_true, List.mem_cons] at h
            rcases h with rfl | h
            · exact hlt
            · exact Nat.lt_trans (ih p hlt h) hlt
          · simp [hlt] at h

/-- `d` is `c` or below it, by the links upwards. -/
def AtOrBelow (t : ContextTree) (d c : Nat) : Prop := d = c ∨ c ∈ t.above d

instance (t : ContextTree) (d c : Nat) : Decidable (t.AtOrBelow d c) :=
  inferInstanceAs (Decidable (d = c ∨ c ∈ t.above d))

theorem atOrBelow_self (t : ContextTree) (c : Nat) : t.AtOrBelow c c := .inl rfl

theorem AtOrBelow.le (h : t.AtOrBelow d c) : c ≤ d := by
  rcases h with rfl | h
  · exact Nat.le_refl _
  · exact Nat.le_of_lt (lt_of_mem_above h)

theorem AtOrBelow.lt_size (h : t.AtOrBelow d c) (hc : c < t.size) : d < t.size := by
  rcases h with rfl | h
  · exact hc
  · refine Nat.lt_of_not_le fun hd => ?_
    rw [above_of_parent_none (by rw [node_of_size_le hd])] at h
    cases h

/-- What is above a context depends only on the links of this context and of those above
it. -/
theorem above_congr (h : ∀ x, t.AtOrBelow c x → (u.node x).parent = (t.node x).parent) :
    u.above c = t.above c := by
  induction c using Nat.strongRecOn with
  | _ c ih =>
      rw [above, h c (t.atOrBelow_self c)]
      cases hp : (t.node c).parent with
      | none => rw [above_of_parent_none hp]
      | some p =>
          by_cases hpc : p < c
          · have hup : t.above c = p :: t.above p := above_of_parent hp hpc
            have hih : u.above p = t.above p := ih p hpc fun x hx => h x <| .inr <| by
              rw [hup, List.mem_cons]
              exact hx.imp Eq.symm id
            simp only [hpc, if_true, hup, hih]
          · rw [above, hp]
            simp [hpc]

theorem size_markAbove (t : ContextTree) (c : Nat) : (t.markAbove c).size = t.size := by
  induction c using Nat.strongRecOn generalizing t with
  | _ c ih =>
      rw [markAbove]
      split
      · rfl
      · split
        · split
          · rfl
          · rw [ih _ (by assumption), size_update]
        · rfl

theorem markAbove_of_parent_none (h : (t.node c).parent = none) : t.markAbove c = t := by
  have hbind : t.nodes[c]?.bind ContextNode.parent = none := by
    unfold node at h
    cases hc : t.nodes[c]? with
    | none => rfl
    | some n => simpa [hc] using h
  rw [markAbove, hbind]

/-- One step upwards. -/
theorem markAbove_of_parent (h : (t.node c).parent = some p) (hp : p < c) :
    t.markAbove c = if (t.node p).dirty then t
      else (t.update p fun n => { n with dirty := true }).markAbove p := by
  have hc : c < t.size := lt_size_of_parent h
  have hbind : t.nodes[c]?.bind ContextNode.parent = some p := by
    unfold node at h
    rw [List.getElem?_eq_getElem hc] at h ⊢
    exact h
  have hdirty : (t.nodes[p]?.map ContextNode.dirty).getD true = (t.node p).dirty := by
    unfold node
    rw [List.getElem?_eq_getElem (Nat.lt_trans hp hc)]
    rfl
  rw [markAbove, hbind]
  simp only [hp, if_true, hdirty]

/-- The walk upwards marks whatever is above a context, as far as what is above a dirty
context is dirty already. -/
theorem node_markAbove (hlt : ∀ x p, (t.node x).parent = some p → p < x)
    (hup : ∀ x ∈ t.above c, (t.node x).dirty = true → ∀ y ∈ t.above x, (t.node y).dirty = true)
    (d : Nat) :
    (t.markAbove c).node d =
      { t.node d with dirty := (t.node d).dirty || decide (d ∈ t.above c) } := by
  induction c using Nat.strongRecOn generalizing t with
  | _ c ih =>
      cases hp : (t.node c).parent with
      | none => simp [markAbove_of_parent_none hp, above_of_parent_none hp]
      | some p =>
          have hpc : p < c := hlt c p hp
          rw [above_of_parent hp hpc] at hup ⊢
          rw [markAbove_of_parent hp hpc]
          split
          · -- the walk stops, and everything from here on is dirty
            rename_i hd
            have hall : d ∈ p :: t.above p → (t.node d).dirty = true := by
              intro hm
              rcases List.mem_cons.mp hm with rfl | hm
              · exact hd
              · exact hup p (List.mem_cons_self ..) hd d hm
            cases hdd : (t.node d).dirty with
            | true => rw [Bool.true_or, ← hdd]
            | false =>
                have hm : d ∉ p :: t.above p := fun hm => by simp [hall hm] at hdd
                simp only [hm, decide_false, Bool.or_false]
                rw [← hdd]
          · -- the walk goes on from `p`, whose links are as before
            have hsize : p < t.size := Nat.lt_trans hpc (lt_size_of_parent hp)
            have hnode := node_update hsize fun n : ContextNode => { n with dirty := true }
            have hlinks : ∀ x, ((t.update p fun n => { n with dirty := true }).node x).parent
                = (t.node x).parent := by
              intro x
              rw [hnode]
              split <;> rfl
            have habove : ∀ x, (t.update p fun n => { n with dirty := true }).above x
                = t.above x := fun x => above_congr fun y _ => hlinks y
            rw [ih p hpc (fun x q hq => hlt x q (hlinks x ▸ hq)), habove, hnode]
            · by_cases hdp : d = p
              · simp [hdp]
              · simp [hdp]
            · intro x hx hxd y hy
              rw [habove] at hx hy
              have hxp : x < p := lt_of_mem_above hx
              have hyp : y < p := Nat.lt_trans (lt_of_mem_above hy) hxp
              rw [hnode, if_neg (Nat.ne_of_lt hxp)] at hxd
              rw [hnode, if_neg (Nat.ne_of_lt hyp)]
              exact hup x (List.mem_cons_of_mem _ hx) hxd y hy

end ContextTree

end ValueSchema
