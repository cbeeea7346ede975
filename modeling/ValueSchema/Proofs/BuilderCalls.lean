import ValueSchema.Proofs.NewDefinitions

/-!
# What a call of a builder does

A call either gives the node back, or makes definitions and gives the last of them.  Each
definition is a new node around others (`Schema.IsAround`) or a changed copy of the node
(`Schema.IsCopy`).  A copy keeps the form of the node, its registry is the one that
`Edit.recheck` says, and the call is none that the kind of the node refuses.

`Schema.apply_does` says so of every builder, and is the only place where the builders are told
apart.  All other facts about calls follow from it.
-/

namespace ValueSchema

/-! ## Calls -/

namespace Edit

/-- The schemas that a builder is given besides the one that it is called on. -/
def schemas : Edit → List Schema
  | .pipe output => [output]
  | .or other => [other]
  | .and other => [other]
  | .rest schema => [schema]
  | .field _ schema => [schema]
  | .optionalField _ schema => [schema]
  | .defaultField _ schema _ => [schema]
  | .unknownKeys policy => match policy with
    | .catchall schema => [schema]
    | _ => []
  | .extend other => [other]
  | .merge other => [other]
  | _ => []

/-- Whether a call changes the node itself, and does not put another node around it. -/
def keepsNode : Edit → Bool
  | .optional => false
  | .nullable => false
  | .nullish => false
  | .default _ => false
  | .brand _ => false
  | .pipe _ => false
  | .or _ => false
  | .and _ => false
  | .effect _ => false
  | _ => true

/-- The registry after a call that changes a node of the given kind. -/
def recheck (kind : Kind Schema) (cs : Checks) : Edit → Checks
  | .addCheck c => if kind.supports c.kind then cs.add ⟨c, none⟩ (c.kind = .custom) else cs
  | .withoutCheck k => (cs.remove k).2
  | .error message => cs.setLastMessage message
  | _ => cs

end Edit

namespace Kind

variable {α : Type}

/-- Whether a node declares keys. -/
def isObject : Kind α → Bool
  | .object .. => true
  | _ => false

/-- Whether a node declares places. -/
def isTuple : Kind α → Bool
  | .tuple .. => true
  | _ => false

/-- The keys that a node declares are distinct. -/
def DistinctKeys (kind : Kind α) : Prop :=
  ∀ shape unknown, kind = .object shape unknown → shape.keys.Nodup

end Kind

/-- Whether two nodes are of one form.  Objects may differ in their keys, and tuples in their
places. -/
def Kind.SameForm (kind kind' : Kind Schema) : Prop :=
  kind = kind' ∨ kind.isObject = true ∧ kind'.isObject = true ∨
    kind.isTuple = true ∧ kind'.isTuple = true

/-- Whether a kind does not support a call. -/
def Edit.isRefusedBy (kind : Kind Schema) : Edit → Bool
  | .addCheck c => !kind.supports c.kind
  | .withoutCheck k => !kind.supports k
  | .coerce => !kind.supportsCoercion
  | .cast => !kind.supportsCast
  | .rest _ => !kind.isTuple
  | .field .. => !kind.isObject
  | .optionalField .. => !kind.isObject
  | .defaultField .. => !kind.isObject
  | .unknownKeys _ => !kind.isObject
  | .extend other => !kind.isObject || !other.kind.isObject
  | .merge other => !kind.isObject || !other.kind.isObject
  | .pick _ => !kind.isObject
  | .omit _ => !kind.isObject
  | .partialFields => !kind.isObject
  | _ => false

/-- Every kind of node can be wrapped. -/
theorem Edit.isRefusedBy_of_wraps {e : Edit} (h : e.keepsNode = false) (kind : Kind Schema) :
    e.isRefusedBy kind = false := by
  cases e <;> first | rfl | cases h

namespace Kind.SameForm

variable {kind kind' kind'' : Kind Schema}

theorem trans (h : kind.SameForm kind') (h' : kind'.SameForm kind'') : kind.SameForm kind'' := by
  have hexclusive : ∀ k : Kind Schema, k.isObject = true → k.isTuple = true → False := by
    intro k hobject htuple
    cases k with
    | object => cases htuple
    | _ => cases hobject
  rcases h with rfl | ⟨h₁, h₂⟩ | ⟨h₁, h₂⟩
  · exact h'
  · rcases h' with rfl | ⟨-, h₃⟩ | ⟨h₃, -⟩
    · exact .inr (.inl ⟨h₁, h₂⟩)
    · exact .inr (.inl ⟨h₁, h₃⟩)
    · exact (hexclusive _ h₂ h₃).elim
  · rcases h' with rfl | ⟨h₃, -⟩ | ⟨-, h₃⟩
    · exact .inr (.inr ⟨h₁, h₂⟩)
    · exact (hexclusive _ h₃ h₂).elim
    · exact .inr (.inr ⟨h₁, h₃⟩)

/-- Nodes of one form support the same checks. -/
theorem supports_eq (h : kind.SameForm kind') : kind.supports = kind'.supports := by
  rcases h with rfl | ⟨h, h'⟩ | ⟨h, h'⟩
  · rfl
  · cases kind <;> cases h
    cases kind' <;> cases h'
    rfl
  · cases kind <;> cases h
    cases kind' <;> cases h'
    rfl

/-- Nodes of one form support the same calls. -/
theorem isRefusedBy_eq (h : kind.SameForm kind') (e : Edit) :
    e.isRefusedBy kind = e.isRefusedBy kind' := by
  rcases h with rfl | ⟨h, h'⟩ | ⟨h, h'⟩
  · rfl
  · cases kind <;> cases h
    cases kind' <;> cases h'
    cases e <;> rfl
  · cases kind <;> cases h
    cases kind' <;> cases h'
    cases e <;> rfl

end Kind.SameForm

/-! ## Keys -/

namespace Entries

variable {α : Type}

theorem nodup_insertAll {m : Entries α} (h : m.keys.Nodup) (l : List (String × α)) :
    (m.insertAll l).keys.Nodup := by
  induction l generalizing m with
  | nil => exact h
  | cons e l ih => exact ih (nodup_insert h e.1 e.2)

theorem mem_values_insert {m : Entries α} {k : String} {a b : α}
    (h : b ∈ (m.insert k a).values) : b = a ∨ b ∈ m.values := by
  obtain ⟨e, he, rfl⟩ := List.mem_map.mp h
  unfold insert at he
  split at he
  next =>
      obtain ⟨d, hd, rfl⟩ := List.mem_map.mp he
      split
      next => exact .inl rfl
      next => exact .inr (List.mem_map_of_mem hd)
  next =>
      rcases List.mem_append.mp he with hm | hm
      · exact .inr (List.mem_map_of_mem hm)
      · rw [List.mem_singleton.mp hm]
        exact .inl rfl

theorem mem_values_insertAll {b : α} :
    ∀ {l : List (String × α)} {m : Entries α}, b ∈ (m.insertAll l).values →
      b ∈ l.map Prod.snd ∨ b ∈ m.values
  | [], _, h => .inr h
  | (k, a) :: l, m, h => by
      rcases mem_values_insertAll (m := m.insert k a) h with hl | hm
      · exact .inl (List.mem_cons_of_mem _ hl)
      · rcases mem_values_insert hm with rfl | hm
        · exact .inl (List.mem_cons_self ..)
        · exact .inr hm

theorem keys_filter_sublist (m : Entries α) (test : String → α → Bool) :
    (m.filter test).keys.Sublist m.keys :=
  List.filter_sublist.map Prod.fst

theorem values_filter_sublist (m : Entries α) (test : String → α → Bool) :
    (m.filter test).values.Sublist m.values :=
  List.filter_sublist.map Prod.snd

end Entries

/-! ## Registries -/

namespace Checks

variable {cs : Checks}

/-- A registry without checks of a kind stays when these are removed. -/
theorem remove_of_not_hasKind {k : CheckKind} (h : cs.hasKind k = false) :
    (cs.remove k).2 = cs := by
  obtain ⟨entries⟩ := cs
  refine congrArg Checks.mk (List.filter_eq_self.mpr fun e he => ?_)
  simpa using List.any_eq_false.mp h e he

/-- An empty registry has no last check that could get a message. -/
theorem setLastMessage_of_isEmpty {message : String} (h : cs.isEmpty = true) :
    cs.setLastMessage message = cs := by
  obtain ⟨entries⟩ := cs
  obtain rfl : entries = [] := List.isEmpty_iff.mp h
  rfl

end Checks

/-! ## Definitions of a call -/

namespace Schema

/-- A new node around others.  It has no checks. -/
structure IsAround (d : Schema) : Prop where
  checks : d.checks = .empty
  not_lazy : ∀ id, d.kind ≠ .lazy id
  not_object : ∀ shape unknown, d.kind ≠ .object shape unknown

/-- A copy that a call makes of a node. -/
structure IsCopy (d s : Schema) (e : Edit) : Prop where
  keepsNode : e.keepsNode = true
  checks : d.checks = e.recheck s.kind s.checks
  sameForm : d.kind.SameForm s.kind
  distinctKeys : s.kind.DistinctKeys → d.kind.DistinctKeys
  not_refused : (∀ c ∈ s.checks.entries, s.kind.supports c.kind = true) →
    e.isRefusedBy s.kind = false

/-- What a call gives, if `made` are the definitions that it makes. -/
def Gives (s : Schema) (e : Edit) (made : List Schema) (t : Schema) : Prop :=
  t = s ∧ e.keepsNode = true ∧ s.checks = e.recheck s.kind s.checks ∨
    made.head? = some t ∧ (e.keepsNode = false ∧ t.IsAround ∨ t.IsCopy s e)

/-- A build does what a call does, when those of `before` were made before it. -/
def Does (s : Schema) (e : Edit) (x : Build Schema) (K : Schema → Prop) (before : List Schema) :
    Prop :=
  x.Defines (fun d => d.IsAround ∨ d.IsCopy s e) K fun t made => s.Gives e (made ++ before) t

variable {K : Schema → Prop} {s : Schema} {e : Edit} {before : List Schema}

/-! ### New nodes -/

section Around

variable (kind : Kind Schema) (hlazy : ∀ id, kind ≠ .lazy id)
  (hobject : ∀ shape unknown, kind ≠ .object shape unknown) (hK : ∀ t ∈ kind.children, K t)

include hlazy hobject hK

theorem make_defines {C : Schema → Prop} (hC : ∀ d : Schema, d.IsAround → C d) :
    (make kind).Defines C K fun t made => t.IsAround ∧ made = [t] := by
  intro n
  have haround : IsAround ⟨n, kind, .empty, {}⟩ := ⟨rfl, hlazy, hobject⟩
  exact ⟨[⟨n, kind, .empty, {}⟩], ⟨rfl, hC _ haround, fun t ht => .inl (hK t ht), trivial⟩, rfl,
    haround, rfl⟩

theorem make_does (he : e.keepsNode = false) : s.Does e (make kind) K before := by
  refine (make_defines kind hlazy hobject hK fun d => .inl).mono fun t made ht => ?_
  refine .inr ⟨?_, .inl ⟨he, ht.1⟩⟩
  rw [ht.2]
  rfl

/-- A new node, and what comes after it. -/
theorem make_then_does {f : Schema → Build Schema}
    (hf : ∀ t, s.Does e (f t) (knownWith K [t]) (t :: before)) :
    s.Does e (make kind >>= f) K before := by
  refine Build.defines_bind (make_defines kind hlazy hobject hK fun d => .inl) fun t made ht => ?_
  rw [ht.2]
  refine (hf t).mono fun u made' hu => ?_
  rwa [List.append_assoc]

end Around

/-! ### Copies -/

theorem keep_does (hkeeps : e.keepsNode = true) (hchecks : s.checks = e.recheck s.kind s.checks) :
    s.Does e (pure s) K before :=
  Build.defines_pure (.inl ⟨rfl, hkeeps, hchecks⟩)

theorem derive_does {patch : Schema → Schema} (hcopy : (patch s).IsCopy s e)
    (hK : ∀ t ∈ (patch s).kind.children, K t) : s.Does e (s.derive patch) K before := by
  intro n
  have hnew : IsCopy { patch s with id := n } s e :=
    ⟨hcopy.keepsNode, hcopy.checks, hcopy.sameForm, hcopy.distinctKeys, hcopy.not_refused⟩
  exact ⟨[{ patch s with id := n }], ⟨rfl, .inr hnew, fun t ht => .inl (hK t ht), trivial⟩, rfl,
    .inr ⟨rfl, .inr hnew⟩⟩

section Copies

variable (hinner : ∀ t ∈ s.kind.children, K t) (hkeeps : e.keepsNode = true)

include hinner hkeeps

/-- A copy of the same kind. -/
theorem deriveSame_does {patch : Schema → Schema} (hkind : (patch s).kind = s.kind)
    (hchecks : (patch s).checks = e.recheck s.kind s.checks)
    (hrefused : (∀ c ∈ s.checks.entries, s.kind.supports c.kind = true) →
      e.isRefusedBy s.kind = false) : s.Does e (s.derive patch) K before := by
  refine derive_does ⟨hkeeps, hchecks, .inl hkind, fun h => ?_, hrefused⟩ ?_
  · rw [hkind]
    exact h
  · rw [hkind]
    exact hinner

theorem deriveSettings_does (patch : Settings → Settings)
    (hchecks : s.checks = e.recheck s.kind s.checks) (hrefused : e.isRefusedBy s.kind = false) :
    s.Does e (s.deriveSettings patch) K before :=
  deriveSame_does hinner hkeeps rfl hchecks fun _ => hrefused

/-- A copy of an object with other keys. -/
theorem deriveObject_does
    {patch : Entries Schema → UnknownKeys Schema → Entries Schema × UnknownKeys Schema}
    (hchecks : s.checks = e.recheck s.kind s.checks)
    (hrefused : s.kind.isObject = true → e.isRefusedBy s.kind = false)
    (hkeys : ∀ shape unknown, shape.keys.Nodup → (patch shape unknown).1.keys.Nodup)
    (hK : ∀ shape unknown, (∀ t ∈ (Kind.object shape unknown).children, K t) →
      ∀ t ∈ (Kind.object (patch shape unknown).1 (patch shape unknown).2).children, K t) :
    s.Does e (s.deriveObject patch) K before := by
  unfold deriveObject
  split
  next shape unknown hk =>
      have hobject : s.kind.isObject = true := by rw [hk]; rfl
      refine derive_does ⟨hkeeps, hchecks, .inr (.inl ⟨rfl, hobject⟩), fun hdistinct => ?_,
        fun _ => hrefused hobject⟩ (hK shape unknown (hk ▸ hinner))
      rintro _ _ ⟨⟩
      exact hkeys shape unknown (hdistinct shape unknown hk)
  next => exact keep_does hkeeps hchecks

theorem addField_does {name : String} {t : Schema} (ht : K t)
    (hchecks : s.checks = e.recheck s.kind s.checks)
    (hrefused : s.kind.isObject = true → e.isRefusedBy s.kind = false) :
    s.Does e (s.addField name t) K before := by
  refine deriveObject_does hinner hkeeps hchecks hrefused
    (fun shape _ h => Entries.nodup_insert h name t) fun shape unknown hK u hu => ?_
  rcases List.mem_append.mp hu with hv | hc
  · rcases Entries.mem_values_insert hv with rfl | hv
    · exact ht
    · exact hK u (List.mem_append_left _ hv)
  · exact hK u (List.mem_append_right _ hc)

/-- A copy of an object without some keys. -/
theorem filterKeys_does (test : String → Bool) (hchecks : s.checks = e.recheck s.kind s.checks)
    (hrefused : s.kind.isObject = true → e.isRefusedBy s.kind = false) :
    s.Does e (s.deriveObject fun shape unknown => (shape.filter fun k _ => test k, unknown)) K
      before := by
  refine deriveObject_does hinner hkeeps hchecks hrefused
    (fun shape _ h => (shape.keys_filter_sublist _).nodup h) fun shape unknown hK u hu => ?_
  rcases List.mem_append.mp hu with hv | hc
  · exact hK u (List.mem_append_left _ ((shape.values_filter_sublist _).subset hv))
  · exact hK u (List.mem_append_right _ hc)

/-- A copy of an object with the keys of another one, under either policy. -/
theorem insertKeys_does {extra : Entries Schema} {policy : UnknownKeys Schema}
    (hextra : ∀ t ∈ (Kind.object extra policy).children, K t)
    (choose : UnknownKeys Schema → UnknownKeys Schema)
    (hchoose : ∀ unknown, choose unknown = unknown ∨ choose unknown = policy)
    (hchecks : s.checks = e.recheck s.kind s.checks)
    (hrefused : s.kind.isObject = true → e.isRefusedBy s.kind = false) :
    s.Does e (s.deriveObject fun shape unknown => (shape.insertAll extra.toList, choose unknown)) K
      before := by
  refine deriveObject_does hinner hkeeps hchecks hrefused
    (fun shape _ h => Entries.nodup_insertAll h extra.toList) fun shape unknown hK u hu => ?_
  rcases List.mem_append.mp hu with hv | hc
  · rcases Entries.mem_values_insertAll hv with hv | hv
    · exact hextra u (List.mem_append_left _ hv)
    · exact hK u (List.mem_append_left _ hv)
  · rcases hchoose unknown with h | h
    · exact hK u (List.mem_append_right _ (h ▸ hc))
    · exact hextra u (List.mem_append_right _ (h ▸ hc))

end Copies

/-! ### Single builders -/

section Single

variable (hinner : ∀ t ∈ s.kind.children, K t)

include hinner

theorem addCheck_does (c : Check) : s.Does (.addCheck c) (s.addCheck c) K before := by
  unfold addCheck
  split
  next hsupports =>
      refine deriveSame_does hinner rfl rfl ?_ fun _ => ?_
      · exact (if_pos hsupports).symm
      · exact Bool.not_eq_false' .. ▸ hsupports
  next hsupports => exact keep_does rfl (if_neg hsupports).symm

theorem withoutCheck_does (k : CheckKind) :
    s.Does (.withoutCheck k) (s.apply (.withoutCheck k)) K before := by
  dsimp only [apply]
  split
  next hk =>
      refine deriveSame_does hinner rfl rfl rfl fun hsupported => ?_
      obtain ⟨c, hc, hkind⟩ := List.any_eq_true.mp hk
      show (!s.kind.supports k) = false
      rw [← of_decide_eq_true hkind, hsupported c hc]
      rfl
  next hk => exact keep_does rfl (Checks.remove_of_not_hasKind (Bool.eq_false_iff.mpr hk)).symm

theorem setError_does (message : String) :
    s.Does (.error message) (s.setError message) K before := by
  unfold setError
  split
  next hempty =>
      exact deriveSettings_does hinner rfl _ (Checks.setLastMessage_of_isEmpty hempty).symm rfl
  next => exact deriveSame_does hinner rfl rfl rfl fun _ => rfl

theorem rest_does {t : Schema} (ht : K t) : s.Does (.rest t) (s.apply (.rest t)) K before := by
  dsimp only [apply]
  split
  next items rest hk =>
      have htuple : s.kind.isTuple = true := by rw [hk]; rfl
      refine derive_does ⟨rfl, rfl, .inr (.inr ⟨rfl, htuple⟩), fun _ => nofun, fun _ => ?_⟩ ?_
      · show (!s.kind.isTuple) = false
        rw [htuple]
        rfl
      · intro u hu
        rcases List.mem_append.mp hu with hm | hr
        · exact hinner u (by rw [hk]; exact List.mem_append_left _ hm)
        · exact List.mem_singleton.mp hr ▸ ht
  next => exact keep_does rfl rfl

theorem unknownKeys_does {policy : UnknownKeys Schema}
    (hpolicy : ∀ t ∈ (Edit.unknownKeys policy).schemas, K t) :
    s.Does (.unknownKeys policy) (s.apply (.unknownKeys policy)) K before := by
  refine deriveObject_does hinner rfl rfl (fun h => ?_) (fun _ _ h => h)
    fun shape unknown hK u hu => ?_
  · show (!s.kind.isObject) = false
    rw [h]
    rfl
  · rcases List.mem_append.mp hu with hv | hc
    · exact hK u (List.mem_append_left _ hv)
    · exact hpolicy u (by cases policy <;> exact hc)

omit hinner in
theorem orOptional_defines (hs : K s) {C : Schema → Prop} (hC : ∀ d : Schema, d.IsAround → C d) :
    s.orOptional.Defines C K fun t made => knownWith K made t := by
  have hone : ∀ t ∈ (Kind.optional s).children, K t := List.forall_mem_singleton.mpr hs
  unfold orOptional
  split
  · exact Build.defines_pure (.inl hs)
  · refine (make_defines (.optional s) nofun nofun hone hC).mono fun t made ht => ?_
    exact .inr (ht.2 ▸ List.mem_singleton_self t)

omit hinner in
/-- Fields with the same keys. -/
theorem keys_eq_of_forall₂ {α : Type} {R : α → α → Prop} {l r : List (String × α)}
    (h : List.Forall₂ (fun e d => d.1 = e.1 ∧ R e.2 d.2) l r) :
    r.map Prod.fst = l.map Prod.fst := by
  induction h with
  | nil => rfl
  | cons hd _ ih => rw [List.map_cons, List.map_cons, hd.1, ih]

/-- A copy of an object whose fields are known. -/
theorem deriveFields_does {shape : Entries Schema} {unknown : UnknownKeys Schema}
    (hk : s.kind = .object shape unknown) {fields : List (String × Schema)}
    (hfields : List.Forall₂ (fun f d => d.1 = f.1 ∧ K d.2) shape.toList fields) :
    s.Does .partialFields (s.derive fun s => { s with kind := .object ⟨fields⟩ unknown }) K
      before := by
  have hobject : s.kind.isObject = true := by rw [hk]; rfl
  have hkeys : fields.map Prod.fst = shape.keys := keys_eq_of_forall₂ (R := fun _ => K) hfields
  refine derive_does ⟨rfl, rfl, .inr (.inl ⟨rfl, hobject⟩), fun hdistinct => ?_, fun _ => ?_⟩ ?_
  · rintro _ _ ⟨⟩
    show (fields.map Prod.fst).Nodup
    rw [hkeys]
    exact hdistinct shape unknown hk
  · show (!s.kind.isObject) = false
    rw [hobject]
    rfl
  · intro t ht
    rcases List.mem_append.mp ht with hv | hc
    · obtain ⟨d, hd, rfl⟩ := List.mem_map.mp hv
      obtain ⟨i, hi, rfl⟩ := List.getElem_of_mem hd
      have hlen := hfields.length_eq
      exact (hfields.get (hlen ▸ hi) hi).2
    · exact hinner t (by rw [hk]; exact List.mem_append_right _ hc)

theorem partialFields_does : s.Does .partialFields (s.apply .partialFields) K [] := by
  dsimp only [apply]
  split
  next shape unknown hk =>
      have hfields : (shape.toList.mapM fun f => (do return (f.1, ← f.2.orOptional) :
          Build (String × Schema))).Defines (fun d => d.IsAround ∨ d.IsCopy s .partialFields) K
          fun fields made => List.Forall₂ (fun f d => d.1 = f.1 ∧ knownWith K made d.2)
            shape.toList fields := by
        refine Build.defines_mapM (R := fun (f d : String × Schema) K' => d.1 = f.1 ∧ K' d.2)
          (fun f d _ _ hK h => ⟨h.1, hK d.2 h.2⟩) fun f hf K' hK' => ?_
        have hfield : K' f.2 := by
          refine hK' f.2 (hinner f.2 ?_)
          rw [hk]
          exact List.mem_append_left _ (List.mem_map_of_mem hf)
        exact Build.defines_bind (orOptional_defines hfield fun d => .inl) fun t made ht =>
          Build.defines_pure ⟨rfl, ht⟩
      refine Build.defines_bind hfields fun fields made hmade => ?_
      have hcopy : s.Does .partialFields _ (knownWith K made) made :=
        deriveFields_does (fun u hu => .inl (hinner u hu)) hk hmade
      exact hcopy.mono fun t made' ht => by rwa [List.append_nil]
  next => exact keep_does rfl rfl

end Single

/-! ## All builders -/

/-- The members of a union without checks are joined by another one. -/
theorem or_does (hs : K s) (hinner : ∀ t ∈ s.kind.children, K t) {other : Schema} (ho : K other) :
    s.Does (.or other) (s.apply (.or other)) K before := by
  have hboth : ∀ t ∈ [s, other], K t :=
    List.forall_mem_cons.mpr ⟨hs, List.forall_mem_singleton.mpr ho⟩
  dsimp only [apply]
  split
  next members hk =>
      refine make_does _ nofun nofun ?_ rfl
      show ∀ t ∈ (if s.checks.isEmpty then members ++ [other] else [s, other]), _
      split
      · intro t ht
        rcases List.mem_append.mp ht with hm | hm
        · exact hinner t (by rwa [hk])
        · exact List.mem_singleton.mp hm ▸ ho
      · exact hboth
  next => exact make_does _ nofun nofun hboth rfl

/-- What every builder does with what is known: the node, its inner schemas and the schemas that
the builder is given. -/
theorem apply_does (hs : K s) (hinner : ∀ t ∈ s.kind.children, K t) (e : Edit)
    (he : ∀ t ∈ e.schemas, K t ∧ ∀ u ∈ t.kind.children, K u) : s.Does e (s.apply e) K [] := by
  have hone : ∀ t ∈ [s], K t := List.forall_mem_singleton.mpr hs
  have hgiven : ∀ t ∈ e.schemas, K t := fun t ht => (he t ht).1
  have hnot {b : Bool} (h : b = true) : (!b) = false := by rw [h]; rfl
  cases e with
  | optional => exact make_does _ nofun nofun hone rfl
  | nullable => exact make_does _ nofun nofun hone rfl
  | nullish =>
      exact make_then_does (.nullable s) nofun nofun hone fun t =>
        make_does _ nofun nofun (List.forall_mem_singleton.mpr (.inr (List.mem_singleton_self t))) rfl
  | default value => exact make_does _ nofun nofun hone rfl
  | brand name => exact make_does _ nofun nofun hone rfl
  | effect e => exact make_does _ nofun nofun hone rfl
  | pipe output => exact make_does _ nofun nofun (List.forall_mem_cons.mpr ⟨hs, hgiven⟩) rfl
  | and other => exact make_does _ nofun nofun (List.forall_mem_cons.mpr ⟨hs, hgiven⟩) rfl
  | or other => exact or_does hs hinner (hgiven other (List.mem_cons_self ..))
  | coerce =>
      dsimp only [apply]
      split
      next hsupports => exact deriveSettings_does hinner rfl _ rfl (hnot hsupports)
      next => exact keep_does rfl rfl
  | cast =>
      dsimp only [apply]
      split
      next hsupports => exact deriveSettings_does hinner rfl _ rfl (hnot hsupports)
      next => exact keep_does rfl rfl
  | abortEarly b => exact deriveSettings_does hinner rfl _ rfl rfl
  | discard => exact deriveSettings_does hinner rfl _ rfl rfl
  | requiredError message => exact deriveSettings_does hinner rfl _ rfl rfl
  | error message => exact setError_does hinner message
  | addCheck c => exact addCheck_does hinner c
  | withoutCheck k => exact withoutCheck_does hinner k
  | rest t => exact rest_does hinner (hgiven t (List.mem_cons_self ..))
  | field name t =>
      exact addField_does hinner rfl (hgiven t (List.mem_cons_self ..)) rfl hnot
  | optionalField name t =>
      exact make_then_does (.optional t) nofun nofun hgiven fun t =>
        addField_does (fun u hu => .inl (hinner u hu)) rfl (.inr (List.mem_singleton_self t)) rfl hnot
  | defaultField name t value =>
      exact make_then_does (.default t value) nofun nofun hgiven fun t =>
        addField_does (fun u hu => .inl (hinner u hu)) rfl (.inr (List.mem_singleton_self t)) rfl hnot
  | unknownKeys policy => exact unknownKeys_does hinner hgiven
  | extend other =>
      have ho := (he other (List.mem_cons_self ..)).2
      dsimp only [apply]
      split
      next extra policy hk =>
          have hrefused (h : s.kind.isObject = true) :
              (Edit.extend other).isRefusedBy s.kind = false := by
            rw [Edit.isRefusedBy, h, hk]
            rfl
          exact insertKeys_does hinner rfl (hk ▸ ho) (fun unknown => unknown) (fun _ => .inl rfl) rfl
            hrefused
      next => exact keep_does rfl rfl
  | merge other =>
      have ho := (he other (List.mem_cons_self ..)).2
      dsimp only [apply]
      split
      next extra policy hk =>
          have hrefused (h : s.kind.isObject = true) :
              (Edit.merge other).isRefusedBy s.kind = false := by
            rw [Edit.isRefusedBy, h, hk]
            rfl
          exact insertKeys_does hinner rfl (hk ▸ ho) (fun _ => policy) (fun _ => .inr rfl) rfl
            hrefused
      next => exact keep_does rfl rfl
  | pick names => exact filterKeys_does hinner rfl (fun k => k ∈ names) rfl hnot
  | «omit» names => exact filterKeys_does hinner rfl (fun k => k ∉ names) rfl hnot
  | partialFields => exact partialFields_does hinner

/-! ## What follows for the node that a call gives -/

/-- A call gives the very node, a new node around others or a changed copy. -/
theorem apply_cases (s : Schema) (e : Edit) :
    (s.apply e).Makes fun t =>
      t = s ∧ e.keepsNode = true ∧ s.checks = e.recheck s.kind s.checks ∨
        e.keepsNode = false ∧ t.IsAround ∨ t.IsCopy s e := by
  intro n
  obtain ⟨made, -, -, hgives⟩ := apply_does (K := fun _ => True) (s := s) trivial
    (fun _ _ => trivial) e (fun _ _ => ⟨trivial, fun _ _ => trivial⟩) n
  exact hgives.imp_right And.right

/-- The registry after a call.  A node that is wrapped starts over, without checks. -/
theorem apply_checks (s : Schema) (e : Edit) :
    (s.apply e).Makes fun t =>
      t.checks = if e.keepsNode then e.recheck s.kind s.checks else .empty := by
  intro n
  rcases s.apply_cases e n with ⟨ht, hkeeps, hchecks⟩ | ⟨hwraps, haround⟩ | hcopy
  · rw [ht, if_pos hkeeps]
    exact hchecks
  · rw [hwraps, haround.checks]
    rfl
  · rw [if_pos hcopy.keepsNode, hcopy.checks]

/-- A call that keeps a node keeps its form. -/
theorem apply_sameForm (he : e.keepsNode = true) :
    (s.apply e).Makes fun t => t.kind.SameForm s.kind := by
  intro n
  rcases s.apply_cases e n with ⟨ht, -, -⟩ | ⟨hwraps, -⟩ | hcopy
  · rw [ht]
    exact .inl rfl
  · cases he.symm.trans hwraps
  · exact hcopy.sameForm

/-- A call that the kind of a node does not support gives the node back. -/
theorem apply_refused (hs : ∀ d ∈ s.checks.entries, s.kind.supports d.kind = true)
    (he : e.isRefusedBy s.kind = true) : (s.apply e).Makes (· = s) := by
  intro n
  rcases s.apply_cases e n with ⟨ht, -, -⟩ | ⟨hwraps, -⟩ | hcopy
  · exact ht
  · cases he.symm.trans (Edit.isRefusedBy_of_wraps hwraps s.kind)
  · cases he.symm.trans (hcopy.not_refused hs)

end Schema

end ValueSchema
