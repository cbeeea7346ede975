import ValueSchema.Proofs.Composition
import ValueSchema.Proofs.LeafChecks

/-!
# Leaves that convert

A leaf without checks answers by the type of the value alone: it gives the value that it looks at,
in the other form of its kind if it casts (`Schema.result_of_admits`), or raises one issue about that
value (`Schema.result_of_mistyped`).

`Schema.coercing` is such a leaf as builders make it, one that converts other forms of input.  If it
is a leaf of big integers, what can be converted is accepted with the big integer that comes out
(`Schema.Converts.bigint_result`), and any other input is refused as it is
(`Schema.Converts.bigint_refused`).  `Schema.Converts.bigint_result_iff` says both for inputs of
which it is known what they stand for.
-/

namespace ValueSchema

namespace Schema

/-! ## Leaves without checks -/

theorem leafValidation_of_refusal {s : Schema} {l : Leaf} {call : Call} {path : Path} {v : Value}
    {cause : Cause Issue} {own : Option String}
    (h : l.refusal? s.settings (s.leafInput l v) = some (cause, own)) :
    s.leafValidation call path v l =
      .failure ⟨call.issue cause path own (s.leafInput l v), []⟩ := by
  unfold leafValidation
  dsimp only
  split
  next hrefused =>
      obtain ⟨rfl, rfl⟩ := Prod.mk.inj (Option.some.inj (hrefused.symm.trans h))
      rfl
  next hadmitted => cases hadmitted.symm.trans h

/-- A value of another type, unless it is missing, is refused for its type. -/
theorem refusal_of_mistyped {l : Leaf} {settings : Settings} {k : ValueKind} {v : Value}
    (hl : l.expectedKind? = some k) (hv : v.kind ≠ k) (hmissing : v.isUndefined = false) :
    l.refusal? settings v = some (.invalidType k v.kind, settings.typeMessage) := by
  cases l with
  | any => cases hl
  | unknown => cases hl
  | never => cases hl
  | literal w => cases hl
  | enum ws => cases hl
  | _ =>
      obtain rfl := Option.some.inj hl
      simp [Leaf.refusal?, Leaf.expectedKind?, Settings.typeRefusal, hv, hmissing]

theorem leafOutput_of_plain {s : Schema} (h : s.settings.casts = false) (v : Value) :
    s.leafOutput v = v := by
  rw [leafOutput, h, if_neg Bool.false_ne_true]

section Bare

variable {s : Schema} {l : Leaf} {mode : Mode} {options : Options} {v : Value}

variable (hk : s.kind = .leaf l) (hcache : options.Truthful s mode v)

include hk hcache

theorem result_of_admits (hchecks : s.checks.entries = []) (hv : l.Admits (s.leafInput l v)) :
    (s.safeParse mode options v).result = .ok (.success (s.leafOutput (s.leafInput l v))) := by
  rw [safeParse_of_truthful hcache, rootVisit, outcome_of_leaf hk, leafValidation_of_admits _ hv,
    finished_of_nil hchecks]

theorem result_of_mistyped {k : ValueKind} (hl : l.expectedKind? = some k)
    (hv : (s.leafInput l v).kind ≠ k) (hmissing : (s.leafInput l v).isUndefined = false) :
    ∃ message, (s.safeParse mode options v).result =
      .ok (.failure ⟨⟨.invalidType k (s.leafInput l v).kind, .root, message, s.leafInput l v⟩, []⟩) := by
  rw [safeParse_of_truthful hcache, rootVisit, outcome_of_leaf hk,
    leafValidation_of_refusal (refusal_of_mistyped hl hv hmissing)]
  exact ⟨_, rfl⟩

end Bare

/-! ## Leaves that builders make -/

/-- A leaf that converts other forms of input. -/
def coercing (l : Leaf) : Build Schema := do (← leaf l).apply .coerce

/-- A leaf that converts other forms of input, and its output to the other form of its kind. -/
def coercingAndCasting (l : Leaf) : Build Schema := do (← coercing l).apply .cast

/-- A leaf without checks that converts other forms of input. -/
structure Converts (s : Schema) (l : Leaf) : Prop where
  kind : s.kind = .leaf l
  unchecked : s.checks.entries = []
  coerces : s.settings.coerces = true

theorem apply_coerce {s : Schema} (h : s.kind.supportsCoercion = true) :
    (s.apply .coerce).Makes fun t => t.kind = s.kind ∧ t.checks = s.checks ∧
      t.settings = { s.settings with coerces := true } := by
  rw [apply, if_pos h]
  exact fun _ => ⟨rfl, rfl, rfl⟩

theorem apply_cast {s : Schema} (h : s.kind.supportsCast = true) :
    (s.apply .cast).Makes fun t => t.kind = s.kind ∧ t.checks = s.checks ∧
      t.settings = { s.settings with casts := true } := by
  rw [apply, if_pos h]
  exact fun _ => ⟨rfl, rfl, rfl⟩

section Built

variable {l : Leaf}

theorem coercing_converts (h : (Kind.leaf l : Kind Schema).supportsCoercion = true) :
    (coercing l).Makes fun s => s.Converts l ∧ s.settings.casts = false := by
  have hleaf : (leaf l).Makes fun s => s.kind = .leaf l ∧ s.checks = .empty ∧ s.settings = {} :=
    fun _ => ⟨rfl, rfl, rfl⟩
  refine Build.makes_bind hleaf fun s hs n => ?_
  obtain ⟨hkind, hchecks, hsettings⟩ := hs
  obtain ⟨hkind', hchecks', hsettings'⟩ := apply_coerce (hkind ▸ h) n
  refine ⟨⟨hkind'.trans hkind, ?_, ?_⟩, ?_⟩
  · rw [hchecks', hchecks]
    rfl
  · rw [hsettings']
  · rw [hsettings', hsettings]

theorem coercingAndCasting_converts (h : (Kind.leaf l : Kind Schema).supportsCoercion = true)
    (h' : (Kind.leaf l : Kind Schema).supportsCast = true) :
    (coercingAndCasting l).Makes fun s => s.Converts l ∧ s.settings.casts = true := by
  refine Build.makes_bind (coercing_converts h) fun s hs n => ?_
  obtain ⟨⟨hkind, hchecks, hcoerces⟩, -⟩ := hs
  obtain ⟨hkind', hchecks', hsettings'⟩ := apply_cast (hkind ▸ h') n
  refine ⟨⟨hkind'.trans hkind, ?_, ?_⟩, ?_⟩
  · rw [hchecks', hchecks]
  · rw [hsettings']
    exact hcoerces
  · rw [hsettings']

end Built

/-! ## Big integers -/

section Converted

variable {s : Schema} {l : Leaf} {mode : Mode} {options : Options} {v : Value}

theorem coerce_bigint {n : Int128} (h : Coercion.toBigint? v = some n) :
    Leaf.bigint.coerce v = .bigint n := by
  cases v with
  | undefined => cases h
  | _ => simp [Leaf.coerce, Value.isUndefined, h]

theorem coerce_bigint_of_none (h : Coercion.toBigint? v = none) : Leaf.bigint.coerce v = v := by
  simp [Leaf.coerce, h]

namespace Converts

theorem leafInput_eq (hs : s.Converts l) (v : Value) : s.leafInput l v = l.coerce v := by
  rw [leafInput, hs.coerces, if_pos rfl]

/-- What is of the right type after the conversion is accepted. -/
theorem result (hs : s.Converts l) (hcache : options.Truthful s mode v)
    (hv : l.Admits (l.coerce v)) :
    (s.safeParse mode options v).result = .ok (.success (s.leafOutput (l.coerce v))) := by
  rw [← hs.leafInput_eq] at hv ⊢
  exact result_of_admits hs.kind hcache hs.unchecked hv

variable (hs : s.Converts .bigint) (hcache : options.Truthful s mode v)

include hs hcache

/-- What can be converted to a big integer is accepted with it. -/
theorem bigint_result {n : Int128} (h : Coercion.toBigint? v = some n) :
    (s.safeParse mode options v).result = .ok (.success (s.leafOutput (.bigint n))) := by
  have hn := coerce_bigint h
  rw [hs.result hcache ⟨n, hn⟩, hn]

/-- What cannot be converted is refused as it is. -/
theorem bigint_refused (h : Coercion.toBigint? v = none) (hv : v.kind ≠ .bigint)
    (hmissing : v.isUndefined = false) :
    ∃ message, (s.safeParse mode options v).result =
      .ok (.failure ⟨⟨.invalidType .bigint v.kind, .root, message, v⟩, []⟩) := by
  have hinput : s.leafInput .bigint v = v := (hs.leafInput_eq v).trans (coerce_bigint_of_none h)
  have hrefused := result_of_mistyped (l := .bigint) (k := .bigint) hs.kind hcache rfl
  rw [hinput] at hrefused
  exact hrefused hv hmissing

/-- An input of another type is accepted just when it can be converted. -/
theorem bigint_success_iff (hplain : s.settings.casts = false) (hv : v.kind ≠ .bigint)
    (hmissing : v.isUndefined = false) {w : Value} :
    (s.safeParse mode options v).result = .ok (.success w) ↔
      ∃ n, Coercion.toBigint? v = some n ∧ w = .bigint n := by
  cases h : Coercion.toBigint? v with
  | some n =>
      rw [hs.bigint_result hcache h, leafOutput_of_plain hplain]
      simp [eq_comm]
  | none =>
      obtain ⟨message, hrefused⟩ := hs.bigint_refused hcache h hv hmissing
      rw [hrefused]
      simp

/-- Where it is known which big integers an input stands for, these are what is made of it.  An input
that stands for none is refused as it is. -/
theorem bigint_result_iff (hplain : s.settings.casts = false) (hv : v.kind ≠ .bigint)
    (hmissing : v.isUndefined = false) {P : Int128 → Prop}
    (hP : ∀ n, Coercion.toBigint? v = some n ↔ P n) :
    (∀ w, (s.safeParse mode options v).result = .ok (.success w) ↔ ∃ n, P n ∧ w = .bigint n) ∧
      ((¬∃ n, P n) → ∃ message, (s.safeParse mode options v).result =
        .ok (.failure ⟨⟨.invalidType .bigint v.kind, .root, message, v⟩, []⟩)) := by
  simp only [← hP]
  refine ⟨fun w => hs.bigint_success_iff hcache hplain hv hmissing, fun hnone => ?_⟩
  refine hs.bigint_refused hcache (Option.eq_none_iff_forall_ne_some.mpr fun n hn => ?_) hv hmissing
  exact hnone ⟨n, hn⟩

end Converts

end Converted

end Schema

end ValueSchema
