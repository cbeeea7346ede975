import ValueSchema.Proofs.Kinds
import ValueSchema.Proofs.Translation

/-!
# Nodes in other words

When one call says what another one says, up to a translation (`Translation.Relates`), then so
does every step of a node: its checks, its refusals, the parts it descends into, and in the end
its plan (`Visit.plan_translates`).  Two things are left to the user of a translation, because
they depend on the definitions of the arena: which keys of an object may be absent, and what a
lazy node does (`Translation.Reads`).
-/

namespace ValueSchema

/-! ## Translated causes -/

/-- A cause with the issues that it carries mapped. -/
def Cause.mapIssues (f : Issue → Issue) : Cause Issue → Cause Issue
  | .invalidUnion issues => .invalidUnion (issues.map f)
  | c => c

namespace Kind

theorem checkCause_map {α β ι : Type} (f : α → β) (k : Kind α) (failure : CheckFailure) :
    ((k.map f).checkCause failure : Cause ι) = k.checkCause failure := by
  have hsubject : (k.map f).subject? = k.subject? := by
    cases k with
    | leaf l => cases l <;> rfl
    | _ => rfl
  rw [checkCause, checkCause, hsubject]

theorem mapIssues_checkCause {α : Type} (f : Issue → Issue) (k : Kind α) (failure : CheckFailure) :
    (k.checkCause failure).mapIssues f = k.checkCause failure := by
  rw [checkCause]
  cases k.subject? <;> rfl

end Kind

namespace Translation

/-! ## Translated calls -/

section Parts

variable (tr : Translation)

/-- A check with its message translated. -/
def entry (e : CheckEntry) : CheckEntry := { e with message := tr.message e.message }

/-- Settings with their messages translated. -/
def settings (s : Settings) : Settings :=
  { s with
    typeMessage := tr.message s.typeMessage
    requiredMessage := tr.message s.requiredMessage }

/-- A part with its schema translated. -/
def part (t : Part) : Part := { t with schema := tr.schema t.schema }

/-- A cause and a message for it, translated. -/
def refusal (r : Cause Issue × Option String) : Cause Issue × Option String :=
  (r.1.mapIssues tr.issue, tr.message r.2)

end Parts

/-- The second call says what the first one says, translated. -/
structure Relates (tr : Translation) (c d : Call) : Prop where
  mode : d.mode = c.mode
  abortEarly : d.options.abortEarly = c.options.abortEarly
  kind : ∀ s, (tr.schema s).kind = s.kind.map tr.schema
  checks : ∀ s, (tr.schema s).checks.entries = s.checks.entries.map tr.entry
  settings : ∀ s, (tr.schema s).settings = tr.settings s.settings
  push : ∀ path segment, (tr.path path).push segment = tr.path (path.push segment)
  /-- An issue whose message is taken from elsewhere. -/
  issue : ∀ cause path own data,
    d.issue (cause.mapIssues tr.issue) (tr.path path) own data =
      tr.issue (c.issue cause path own data)
  /-- An issue with a message of a node or of a check. -/
  ownIssue : ∀ cause path own data,
    d.issue (cause.mapIssues tr.issue) (tr.path path) (tr.message own) data =
      tr.issue (c.issue cause path own data)
  deferredEffect : ∀ name path,
    tr.misuse (.deferredEffect name path) = .deferredEffect name (tr.path path)

/-- The keys that are absent from an object may be so in both calls or in none. -/
def SameAbsence (tr : Translation) (c d : Call) (shape : Entries Schema) (input : Entries Value) :
    Prop :=
  ∀ e ∈ shape.toList, input.hasKey e.1 = false →
    (tr.schema e.2).acceptsUndefinedIn d.options.arena = e.2.acceptsUndefinedIn c.options.arena

variable {tr : Translation} {c d : Call}

/-- The issue of a cause that carries no issues. -/
theorem Relates.plainIssue (h : tr.Relates c d) {cause : Cause Issue}
    (hc : cause.mapIssues tr.issue = cause) (path : Path) (own : Option String) (data : Value) :
    d.issue cause (tr.path path) (tr.message own) data =
      tr.issue (c.issue cause path own data) := by
  have hissue := h.ownIssue cause path own data
  rwa [hc] at hissue

theorem Relates.abortsEarly (h : tr.Relates c d) (own : Option Bool) :
    d.abortsEarly own = c.abortsEarly own := by
  rw [Call.abortsEarly, Call.abortsEarly, h.abortEarly]

end Translation

/-! ## Leaves -/

section Refusals

variable {tr : Translation}

theorem Settings.typeRefusal_translated (s : Settings) (expected : ValueKind) (v : Value) :
    (tr.settings s).typeRefusal expected v = tr.refusal (s.typeRefusal expected v) := by
  simp only [typeRefusal]
  split <;> rfl

theorem Leaf.refusal?_translated (l : Leaf) (s : Settings) (v : Value) :
    l.refusal? (tr.settings s) v = (l.refusal? s v).map tr.refusal := by
  cases l with
  | never =>
      simp only [refusal?]
      split <;> rfl
  | literal w =>
      simp only [refusal?]
      split
      · rfl
      · split
        · exact congrArg some (s.typeRefusal_translated w.kind v)
        · rfl
  | enum ws =>
      simp only [refusal?]
      split
      · rfl
      · split <;> rfl
  | any => rfl
  | unknown => rfl
  | _ =>
      simp only [refusal?, expectedKind?]
      split
      · rfl
      · exact congrArg some (s.typeRefusal_translated _ v)

end Refusals

namespace Schema

variable {tr : Translation} {c d : Call} (h : tr.Relates c d) (node : Schema) (path : Path)

include h

theorem checkedBy_translated (stops : Bool) (es : List CheckEntry) :
    ∀ v, (tr.schema node).checkedBy d (tr.path path) stops (es.map tr.entry) v =
      ((node.checkedBy c path stops es v).1.map tr.issue, (node.checkedBy c path stops es v).2) := by
  induction es with
  | nil => exact fun _ => rfl
  | cons e es ih =>
      intro v
      rw [List.map_cons, checkedBy, checkedBy]
      have hcheck : (tr.entry e).check = e.check := rfl
      rw [hcheck]
      cases e.check.evaluate v with
      | pass => exact ih v
      | rewrite w => exact ih w
      | fail received =>
          have hkind : (tr.entry e).kind = e.kind := rfl
          have hissue := h.plainIssue
            (node.kind.mapIssues_checkCause tr.issue ⟨e.kind, e.check.expected, received⟩)
            path e.message v
          dsimp only
          rw [h.kind, Kind.checkCause_map, hkind, ih v]
          cases stops with
          | true => exact congrArg (fun i => ([i], v)) hissue
          | false => exact congrArg (fun i => (i :: _, _)) hissue

theorem stops_translated : (tr.schema node).stops d = node.stops c := by
  rw [stops, stops, h.settings, h.abortsEarly]
  rfl

theorem checked_translated (select : CheckKind → Bool) (v : Value) :
    (tr.schema node).checked d (tr.path path) select v =
      ((node.checked c path select v).1.map tr.issue, (node.checked c path select v).2) := by
  have hselected : ((tr.schema node).checks.entries.filter fun e => select e.kind) =
      (node.checks.entries.filter fun e => select e.kind).map tr.entry := by
    rw [h.checks, List.filter_map]
    rfl
  have hstops : d.abortsEarly (tr.schema node).settings.abortEarly =
      c.abortsEarly node.settings.abortEarly := stops_translated h node
  rw [checked, checked, hselected, hstops]
  exact checkedBy_translated h node path _ _ v

theorem finished_translated (select : CheckKind → Bool) (convert : Value → Value) (v : Value) :
    (tr.schema node).finished d (tr.path path) select convert v =
      tr.validation (node.finished c path select convert v) := by
  rw [finished, finished, checked_translated h, tr.validation_after]
  rfl

theorem leafValidation_translated (v : Value) (l : Leaf) :
    (tr.schema node).leafValidation d (tr.path path) v l =
      tr.validation (node.leafValidation c path v l) := by
  have hcoerces : (tr.settings node.settings).coerces = node.settings.coerces := rfl
  have hcasts : (tr.settings node.settings).casts = node.settings.casts := rfl
  unfold leafValidation
  rw [h.settings, hcoerces, hcasts]
  dsimp only
  generalize (if node.settings.coerces then l.coerce v else v) = w
  rw [l.refusal?_translated]
  cases l.refusal? node.settings w with
  | some r =>
      exact congrArg (fun i => Validation.failure ⟨i, []⟩) (h.ownIssue r.1 path r.2 w)
  | none => exact finished_translated h node path _ _ w

/-! ## Parts of containers -/

theorem containerInput_translated (v : Value) :
    (tr.schema node).containerInput v = node.containerInput v := by
  simp only [containerInput, h.kind, h.settings]
  cases node.kind <;> rfl

theorem slots_translated (items : List Schema) :
    slots (items.map tr.schema) = (slots items).map tr.schema := by
  rw [slots, slots, List.filter_map]
  refine congrArg (List.map tr.schema) (List.filter_congr fun s _ => ?_)
  show (!(tr.schema s).settings.discarded) = !s.settings.discarded
  rw [h.settings]
  rfl

theorem wrongArity?_translated (v : Value) :
    (tr.schema node).wrongArity? v = node.wrongArity? v := by
  simp only [wrongArity?, containerInput_translated h, h.kind]
  cases node.kind with
  | tuple items rest =>
      cases node.containerInput v with
      | array values => simp [Kind.map, slots_translated h]
      | _ => rfl
  | _ => rfl

theorem containerRefusal_translated (v : Value) :
    (tr.schema node).containerRefusal v = tr.refusal (node.containerRefusal v) := by
  rw [containerRefusal, containerRefusal, wrongArity?_translated h, containerInput_translated h,
    h.kind, h.settings]
  cases node.wrongArity? v with
  | some failure => rfl
  | none =>
      dsimp only
      rw [Settings.typeRefusal_translated]
      cases node.kind <;> rfl

omit h

theorem itemParts_translated (e : Schema) (items : List Value) :
    itemParts (tr.schema e) items = (itemParts e items).map tr.part := by
  simp [itemParts, Translation.part, List.mapIdx_eq_zipIdx_map]

theorem tupleParts_translated (rest : Option Schema) (values : List Value) :
    ∀ (i : Nat) (slots : List Schema),
      tupleParts (rest.map tr.schema) i (slots.map tr.schema) values =
        (tupleParts rest i slots values).map tr.part := by
  induction values with
  | nil =>
      intro i slots
      cases slots <;> rfl
  | cons v vs ih =>
      intro i slots
      cases slots with
      | cons s slots => exact congrArg (List.cons _) (ih (i + 1) slots)
      | nil =>
          cases rest with
          | none => rfl
          | some s => exact congrArg (List.cons _) (ih (i + 1) [])

theorem entryParts_translated (key value : Schema) (input : Entries Value) :
    entryParts (tr.schema key) (tr.schema value) input =
      (entryParts key value input).map tr.part := by
  simp [entryParts, Translation.part, List.map_flatMap]

theorem undeclaredEntries_translated (shape : Entries Schema) (input : Entries Value) :
    undeclaredEntries (shape.map tr.schema) input = undeclaredEntries shape input := by
  simp only [undeclaredEntries, Entries.hasKey_map]

/-! ## Fields that may be absent -/

section Absence

variable {shape : Entries Schema} {input : Entries Value} (ha : tr.SameAbsence c d shape input)

include ha

theorem fieldParts_translated :
    fieldParts d.options.arena (shape.map tr.schema) input =
      (fieldParts c.options.arena shape input).map tr.part := by
  rw [fieldParts, fieldParts, List.map_filterMap]
  refine (List.filterMap_map ..).trans (List.filterMap_congr fun e he => ?_)
  obtain ⟨k, s⟩ := e
  have hvalue : fieldValue? d.options.arena input k (tr.schema s) =
      fieldValue? c.options.arena input k s := by
    rw [fieldValue?, fieldValue?]
    cases hg : input.get? k with
    | some w => rfl
    | none =>
        have habsent : input.hasKey k = false := by
          rw [Entries.hasKey, hg]
          rfl
        rw [ha (k, s) he habsent]
  show (fieldValue? d.options.arena input k (tr.schema s)).map _ =
    ((fieldValue? c.options.arena input k s).map fun w => ⟨.field k, s, w⟩).map tr.part
  rw [hvalue]
  cases fieldValue? c.options.arena input k s <;> rfl

theorem absentKeys_translated :
    absentKeys d.options.arena (shape.map tr.schema) input =
      absentKeys c.options.arena shape input := by
  rw [absentKeys, absentKeys]
  show List.map Prod.fst (List.filter _ (shape.toList.map _)) = _
  rw [List.filter_map, List.map_map]
  refine congrArg (List.map Prod.fst) (List.filter_congr fun e he => ?_)
  show (!input.hasKey e.1 && !(tr.schema e.2).acceptsUndefinedIn d.options.arena) = _
  cases hk : input.hasKey e.1 with
  | true => rfl
  | false => rw [ha e he hk]

theorem keyCauses_translated (unknown : UnknownKeys Schema) :
    keyCauses d.options.arena (shape.map tr.schema) (unknown.map tr.schema) input =
      keyCauses c.options.arena shape unknown input := by
  simp only [keyCauses, absentKeys_translated ha, undeclaredEntries_translated]
  cases unknown <;> rfl

end Absence

theorem mapIssues_keyCauses {arena : Option Arena} {shape : Entries Schema}
    {unknown : UnknownKeys Schema} {input : Entries Value} (f : Issue → Issue) :
    ∀ cause ∈ keyCauses arena shape unknown input, cause.mapIssues f = cause := by
  intro cause hc
  cases List.mem_append.mp hc with
  | inl ha =>
      split at ha
      next => cases ha
      next => exact List.mem_singleton.mp ha ▸ rfl
  | inr he =>
      cases unknown with
      | strict =>
          dsimp only at he
          split at he
          next => cases he
          next => exact List.mem_singleton.mp he ▸ rfl
      | _ => cases he

theorem catchallParts_translated (tr : Translation) (shape : Entries Schema)
    (unknown : UnknownKeys Schema) (input : Entries Value) :
    catchallParts (shape.map tr.schema) (unknown.map tr.schema) input =
      (catchallParts shape unknown input).map tr.part := by
  cases unknown with
  | catchall s =>
      simp [catchallParts, UnknownKeys.map, Translation.part, undeclaredEntries_translated]
  | _ => rfl

/-! ## Outputs of containers -/

section Outputs

variable (h : tr.Relates c d) (node : Schema)

theorem keptEntries_translated (parts : List Part) (outputs : List Value) :
    keptEntries (parts.map tr.part) outputs = keptEntries parts outputs := by
  rw [keptEntries, List.zip_map_left, List.filterMap_map]
  rfl

include h

theorem assemble_translated (v : Value) (parts : List Part) (outputs : List Value) :
    (tr.schema node).assemble v (parts.map tr.part) outputs = node.assemble v parts outputs := by
  simp only [assemble]
  rw [h.kind, keptEntries_translated]
  cases node.kind with
  | object shape unknown =>
      rw [Kind.map_object]
      cases unknown with
      | passthrough =>
          cases v with
          | object input =>
              show Value.object (.insertAll _ (undeclaredEntries (shape.map tr.schema) input)) = _
              rw [undeclaredEntries_translated]
          | _ => rfl
      | _ => rfl
  | _ => rfl

theorem runsLater_translated : (tr.schema node).runsLater = node.runsLater := by
  funext k
  simp only [runsLater, h.kind]
  cases node.kind <;> rfl

theorem castOutput_translated : (tr.schema node).castOutput = node.castOutput := by
  funext w
  simp only [castOutput, h.kind, h.settings]
  cases node.kind <;> rfl

end Outputs

/-! ## Containers -/

theorem containerInput_object {shape : Entries Schema} {unknown : UnknownKeys Schema}
    {node : Schema} (hk : node.kind = .object shape unknown) (v : Value) :
    node.containerInput v = v := by
  simp only [containerInput, hk]

section Containers

variable {v : Value} (h : tr.Relates c d) (node : Schema) (path : Path)
  (ha : ∀ shape unknown input, node.kind = .object shape unknown → v = .object input →
    tr.SameAbsence c d shape input)

include h ha

theorem parts?_translated :
    (tr.schema node).parts? v d.options.arena =
      (node.parts? v c.options.arena).map (List.map tr.part) := by
  rw [parts?, parts?, containerInput_translated h, wrongArity?_translated h, h.kind]
  cases hk : node.kind with
  | array e =>
      cases node.containerInput v with
      | array items => exact congrArg some (itemParts_translated e items)
      | _ => rfl
  | set e =>
      cases node.containerInput v with
      | set items => exact congrArg some (itemParts_translated e items)
      | _ => rfl
  | tuple items rest =>
      cases node.containerInput v with
      | array values =>
          show (if (node.wrongArity? v).isSome then none
            else some (tupleParts (rest.map tr.schema) 0 (slots (items.map tr.schema)) values)) = _
          rw [slots_translated h, tupleParts_translated]
          dsimp only
          split <;> rfl
      | _ => rfl
  | object shape unknown =>
      rw [containerInput_object hk, Kind.map_object]
      cases v with
      | object input =>
          have hfields := fieldParts_translated (ha shape unknown input hk rfl)
          have hrest := catchallParts_translated tr shape unknown input
          dsimp only
          rw [hfields, hrest, ← List.map_append]
          rfl
      | _ => rfl
  | record key value =>
      cases node.containerInput v with
      | object input => exact congrArg some (entryParts_translated key value input)
      | _ => rfl
  | _ => rfl

theorem ownIssues_translated :
    (tr.schema node).ownIssues d (tr.path path) v =
      (node.ownIssues c path v).map tr.issue := by
  have hchecked (w : Value) : ((tr.schema node).checked d (tr.path path) CheckKind.isSize w).1 =
      (node.checked c path CheckKind.isSize w).1.map tr.issue := by
    rw [checked_translated h]
  rw [ownIssues, ownIssues, containerInput_translated h, stops_translated h, h.kind]
  cases hk : node.kind with
  | object shape unknown =>
      rw [containerInput_object hk, Kind.map_object]
      cases v with
      | object input =>
          have hissues : ((keyCauses c.options.arena shape unknown input).map fun cause =>
              d.issue cause (tr.path path) none (.object input)) =
              ((keyCauses c.options.arena shape unknown input).map fun cause =>
                c.issue cause path none (.object input)).map tr.issue := by
            rw [List.map_map]
            refine List.map_congr_left fun cause hc => ?_
            have hissue := h.issue cause path none (.object input)
            rwa [mapIssues_keyCauses tr.issue cause hc] at hissue
          dsimp only
          rw [keyCauses_translated (ha shape unknown input hk rfl), hissues]
          split
          · rw [List.map_take]
          · rfl
      | _ => exact hchecked _
  | tuple items rest => rfl
  | _ => exact hchecked _

theorem containerPlan_translates (hops : Nat) :
    Plan.Translates tr (node.containerPlan c path v hops)
      ((tr.schema node).containerPlan d (tr.path path) v (tr.hops hops)) := by
  rw [containerPlan, containerPlan, parts?_translated h node ha, containerRefusal_translated h,
    containerInput_translated h]
  cases node.parts? v c.options.arena with
  | none =>
      have hissue := h.ownIssue (node.containerRefusal v).1 path (node.containerRefusal v).2
        (node.containerInput v)
      show Plan.Translates tr (.done (.ok (.failure ⟨_, []⟩))) (.done (.ok (.failure ⟨_, []⟩)))
      exact hissue ▸ .done _
  | some parts =>
      have hvisits : (parts.map tr.part).map (Part.visit (tr.hops hops) (tr.path path)) =
          (parts.map (Part.visit hops path)).map tr.visit := by
        rw [List.map_map, List.map_map]
        refine List.map_congr_left fun t _ => ?_
        show Visit.mk _ _ ((tr.path path).push t.segment) _ = Visit.mk _ _ _ _
        rw [h.push]
        rfl
      dsimp only [Option.map_some]
      rw [ownIssues_translated h node path ha, stops_translated h, hvisits]
      refine .parts fun ws => ?_
      rw [assemble_translated h, runsLater_translated h, castOutput_translated h]
      exact finished_translated h node path _ _ _

end Containers

/-! ## Effects and intersections -/

section Others

variable (h : tr.Relates c d) (node : Schema) (path : Path) (v : Value)

include h

theorem effectValidation_translated (stops : Bool) (effect : Effect) :
    effectValidation d (tr.path path) v stops effect =
      tr.validation (effectValidation c path v stops effect) := by
  have hissue (payload : Option Value) (message : Option String) :
      d.issue (.custom payload) (tr.path path) message v =
        tr.issue (c.issue (.custom payload) path message v) :=
    h.issue (.custom payload) path message v
  simp only [effectValidation]
  cases effect with
  | preprocess flavour map => rfl
  | refine flavour accepts message =>
      dsimp only
      rw [hissue]
      split <;> rfl
  | rule findings =>
      dsimp only
      rw [tr.validation_after, List.map_map]
      simp only [hissue]
      rfl
  | transform flavour map =>
      simp only [hissue]
      cases map v <;> rfl

theorem effectPlan_translates (hops : Nat) (inner : Schema) (effect : Effect) :
    Plan.Translates tr (node.effectPlan c path v hops inner effect)
      ((tr.schema node).effectPlan d (tr.path path) v (tr.hops hops) (tr.schema inner) effect) := by
  simp only [effectPlan]
  rw [h.mode]
  split
  next => exact .misuse (h.deferredEffect effect.name path)
  next =>
      cases effect with
      | preprocess flavour map => exact .pass rfl
      | _ =>
          refine .andThen fun w => ?_
          rw [effectValidation_translated h, h.settings, h.settings, h.abortsEarly]
          exact .done (.ok _)

theorem mergeValidation_translated (outputs : List Value) :
    (tr.schema node).mergeValidation d (tr.path path) v outputs =
      tr.validation (node.mergeValidation c path v outputs) := by
  have hmessage : (tr.schema node).settings.typeMessage = tr.message node.settings.typeMessage := by
    rw [h.settings]
    rfl
  simp only [mergeValidation]
  cases outputs with
  | nil => rfl
  | cons w ws =>
      dsimp only
      cases mergeAll? w ws with
      | some merged => rfl
      | none =>
          dsimp only
          rw [hmessage, h.plainIssue rfl]
          rfl

end Others

end Schema

/-! ## All nodes -/

/-- What a visit asks the arena, it is told in both calls alike. -/
structure Translation.Reads (tr : Translation) (c d : Call) (t : Visit) : Prop where
  absence : ∀ shape unknown input, t.schema.kind = .object shape unknown →
    t.value = .object input → tr.SameAbsence c d shape input
  lazy : ∀ id, t.schema.kind = .lazy id →
    Plan.Translates tr (Schema.lazyPlan c t.path t.value t.hops id)
      (Schema.lazyPlan d (tr.path t.path) t.value (tr.hops t.hops) id)

/-- Lazy nodes are resolved as often in both calls, and the definitions of the second call are
those of the first one, translated. -/
structure Translation.Resolves (tr : Translation) (c d : Call) : Prop where
  hops : tr.hops = id
  depth : d.options.arena.map Arena.maxDepth = c.options.arena.map Arena.maxDepth
  get : ∀ i, d.options.arena.bind (·.get? i) = (c.options.arena.bind (·.get? i)).map tr.schema
  missingArena : ∀ i, tr.misuse (.missingArena i) = .missingArena i
  undefinedId : ∀ i, tr.misuse (.undefinedId i) = .undefinedId i
  depthExceeded : ∀ maxDepth path,
    tr.misuse (.depthExceeded maxDepth path) = .depthExceeded maxDepth (tr.path path)

/-- A lazy node does the same when its definition does. -/
theorem Translation.Resolves.lazyPlan_translates {tr : Translation} {c d : Call}
    (h : tr.Resolves c d) (path : Path) (v : Value) (hops : Nat) (i : SchemaId) :
    Plan.Translates tr (Schema.lazyPlan c path v hops i)
      (Schema.lazyPlan d (tr.path path) v (tr.hops hops) i) := by
  have hdepth := h.depth
  have hget := h.get i
  rw [Schema.lazyPlan, Schema.lazyPlan, h.hops]
  cases hc : c.options.arena with
  | none =>
      rw [hc] at hdepth
      rw [Option.map_eq_none_iff.mp hdepth]
      exact .misuse (h.missingArena i)
  | some a =>
      rw [hc] at hdepth hget
      obtain ⟨b, hb, hab⟩ := Option.map_eq_some_iff.mp hdepth
      rw [hb] at hget ⊢
      have hget : b.get? i = (a.get? i).map tr.schema := hget
      cases hops with
      | zero => exact .misuse ((h.depthExceeded a.maxDepth path).trans (by rw [hab]))
      | succ hops =>
          dsimp only [id]
          rw [hget]
          cases a.get? i with
          | none => exact .misuse (h.undefinedId i)
          | some s =>
              refine .pass ?_
              rw [Translation.visit, h.hops]
              rfl

namespace Visit

variable {tr : Translation} {c d : Call} {t : Visit}

/-- The plan of a visit, translated. -/
theorem plan_translates (h : tr.Relates c d) (ht : tr.Reads c d t) :
    Plan.Translates tr (t.plan c) ((tr.visit t).plan d) := by
  obtain ⟨hops, node, path, v⟩ := t
  have hcontainer := node.containerPlan_translates h path ht.absence hops
  have hvisits (members : List Schema) :
      (members.map tr.schema).map (fun s => Visit.mk (tr.hops hops) s (tr.path path) v) =
        (members.map fun s => Visit.mk hops s path v).map tr.visit := by
    rw [List.map_map, List.map_map]
    rfl
  have hmessage : (tr.schema node).settings.typeMessage = tr.message node.settings.typeMessage := by
    rw [h.settings]
    rfl
  show Plan.Translates tr (node.plan c path v hops)
    ((tr.schema node).plan d (tr.path path) v (tr.hops hops))
  rw [Schema.plan, Schema.plan, h.kind]
  cases hk : node.kind with
  | leaf l =>
      have hleaf := node.leafValidation_translated h path v l
      dsimp only [Kind.map]
      rw [hleaf]
      exact .done (.ok _)
  | union members =>
      dsimp only [Kind.map]
      rw [hvisits]
      refine .union fun is => ?_
      rw [hmessage]
      exact h.ownIssue (.invalidUnion is) path _ v
  | intersection members =>
      dsimp only [Kind.map]
      rw [hvisits, Schema.stops_translated h]
      exact .intersection fun ws => node.mergeValidation_translated h path v ws
  | optional inner =>
      dsimp only [Kind.map]
      split
      · exact .done (.ok (.success v))
      · exact .pass rfl
  | nullable inner =>
      dsimp only [Kind.map]
      split
      · exact .done (.ok (.success v))
      · exact .pass rfl
  | default inner value => exact .pass rfl
  | brand inner name => exact .pass rfl
  | effects inner effect => exact node.effectPlan_translates h path v hops inner effect
  | pipeline input output =>
      exact .andThen (t := ⟨hops, input, path, v⟩) fun w => .pass rfl
  | lazy id => exact ht.lazy id hk
  | object shape unknown =>
      rw [Kind.map_object]
      exact hcontainer
  | _ => exact hcontainer

/-- Outcomes are translated where the arena says the same to all visits that count. -/
theorem outcome_translated (h : tr.Relates c d) {P : Visit → Prop}
    (hreads : ∀ t, P t → tr.Reads c d t) (hheeds : ∀ t u, P t → t.Heeds c u → P u) :
    P t → (tr.visit t).outcome d = tr.outcome (t.outcome c) := by
  induction t using Visit.induction c with
  | h t ih =>
      intro ht
      rw [Visit.outcome_eq, Visit.outcome_eq, h.mode]
      refine (plan_translates h (hreads t ht)).outcome_eq fun u hu => ?_
      exact ih u (Plan.starts_of_heeded hu) (hheeds t u ht hu)

end Visit

end ValueSchema
