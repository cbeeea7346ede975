import ValueSchema.Proofs.Conversions

/-!
# Laws of coercion

Coercion leaves what a leaf stands for as it is (`Leaf.coerce_of_admits`), and it makes something
that the leaf stands for or changes nothing (`Leaf.coerce_cases`).  The one exception is a text that
is read as no number.  So coercing twice is coercing once (`Leaf.coerce_coerce`).

A leaf that coerces therefore accepts all that the leaf accepts without it, whatever its checks are
(`Schema.coercion_projects`).
-/

namespace ValueSchema

namespace Leaf

variable {l : Leaf} {v : Value}

/-! ## What stays as it is -/

/-- A leaf does not convert what it stands for. -/
theorem coerce_of_admits (h : l.Admits v) : l.coerce v = v := by
  cases l with
  | string =>
      obtain ⟨s, rfl⟩ := h
      rfl
  | number =>
      obtain ⟨x, rfl, -⟩ := h
      rfl
  | bigint =>
      obtain ⟨n, rfl⟩ := h
      rfl
  | boolean =>
      obtain ⟨b, rfl⟩ := h
      rfl
  | date =>
      obtain ⟨t, rfl⟩ := h
      rfl
  | buffer =>
      obtain ⟨bytes, rfl⟩ := h
      rfl
  | _ => exact ite_self v

theorem coerce_of_nan (h : v.kind = .nan) : Leaf.number.coerce v = v := by
  cases v with
  | number x => rfl
  | _ => cases h

/-! ## What is made -/

/-- A conversion gives a value of its form, or leaves the value as it is. -/
theorem converted_or_same {α : Type} (form : α → Value) (x : Option α) (v : Value) :
    (∃ a, (x.map form).getD v = form a) ∨ (x.map form).getD v = v := by
  cases x with
  | none => exact .inr rfl
  | some a => exact .inl ⟨a, rfl⟩

/-- A leaf stands for what it converts a value to, or it is no number, or the value stays. -/
theorem coerce_cases (l : Leaf) (v : Value) :
    l.Admits (l.coerce v) ∨ l = .number ∧ (l.coerce v).kind = .nan ∨ l.coerce v = v := by
  unfold coerce
  split
  next => exact .inr (.inr rfl)
  next =>
      cases l with
      | string => exact (converted_or_same .string _ v).imp_right .inr
      | number =>
          rcases converted_or_same .number (Coercion.toNumber? v) v with ⟨x, hx⟩ | hsame
          · cases hnan : x.isNaN with
            | true => exact .inr (.inl ⟨rfl, by simp [hx, Value.kind, hnan]⟩)
            | false => exact .inl ⟨x, hx, hnan⟩
          · exact .inr (.inr hsame)
      | bigint => exact (converted_or_same .bigint _ v).imp_right .inr
      | boolean => exact .inl ⟨_, rfl⟩
      | date => exact (converted_or_same .date _ v).imp_right .inr
      | buffer => exact (converted_or_same .buffer _ v).imp_right .inr
      | _ => exact .inr (.inr rfl)

theorem coerce_coerce (l : Leaf) (v : Value) : l.coerce (l.coerce v) = l.coerce v := by
  rcases coerce_cases l v with hadmits | ⟨rfl, hnan⟩ | hsame
  · exact coerce_of_admits hadmits
  · exact coerce_of_nan hnan
  · rw [hsame, hsame]

end Leaf

/-! ## Leaves that coerce -/

namespace Schema

variable {s t : Schema} {l : Leaf} {v w : Value}

/-- What a leaf stands for is the converted input, whether the leaf coerces or not. -/
theorem leafInput_of_admits (h : l.Admits (s.leafInput l v)) : s.leafInput l v = l.coerce v := by
  unfold leafInput at h ⊢
  split at h
  next hcoerces => rw [if_pos hcoerces]
  next hkeeps => rw [if_neg hkeeps, Leaf.coerce_of_admits h]

/-- At any place, a leaf that coerces gives the output of the leaf that does not. -/
theorem success_of_coercing (hs : s.kind = .leaf l) (ht : t.kind = .leaf l)
    (hchecks : t.checks = s.checks) (hsettings : t.settings = { s.settings with coerces := true })
    {call : Call} {hops : Nat} {path : Path}
    (h : Visit.outcome call ⟨hops, s, path, v⟩ = .ok (.success w)) :
    Visit.outcome call ⟨hops, t, path, v⟩ = .ok (.success w) := by
  have hcoerces : t.settings.coerces = true := by rw [hsettings]
  have hcasts : t.settings.casts = s.settings.casts := by rw [hsettings]
  rw [outcome_of_leaf hs, Except.ok.injEq, leafValidation_success_iff,
    Leaf.refusal?_eq_none_iff] at h
  obtain ⟨hadmits, u, hu, hw⟩ := h
  have hinput := leafInput_of_admits hadmits
  unfold leafInput at hinput
  rw [hinput] at hadmits hu
  rw [outcome_of_leaf ht, Except.ok.injEq, leafValidation_success_iff, Leaf.refusal?_eq_none_iff,
    if_pos hcoerces, hchecks, hcasts]
  exact ⟨hadmits, u, hu, hw⟩

/-- Coercion is a projection onto the type of a leaf.  It leaves the missing value and every value of
the type as they are, coercing again changes nothing, and a value is converted to the type or stays
as it is, except that a text may be read as no number.  A leaf that coerces accepts what it accepts
without coercion, with the same output. -/
theorem coercion_projects (l : Leaf) (v : Value) :
    (v = .undefined ∨ l.Admits v ∨ l = .number ∧ v.kind = .nan → l.coerce v = v) ∧
    l.coerce (l.coerce v) = l.coerce v ∧
    (l.Admits (l.coerce v) ∨ l = .number ∧ (l.coerce v).kind = .nan ∨ l.coerce v = v) ∧
    ∀ s : Schema, s.kind = .leaf l → s.kind.supportsCoercion = true →
      (s.apply .coerce).Makes fun t =>
        t.leafInput l v = l.coerce v ∧
        ∀ mode options w, options.Truthful s mode v → options.Truthful t mode v →
          (s.safeParse mode options v).result = .ok (.success w) →
            (t.safeParse mode options v).result = .ok (.success w) := by
  refine ⟨?_, Leaf.coerce_coerce l v, Leaf.coerce_cases l v, fun s hs hsupports n => ?_⟩
  · rintro (rfl | hadmits | ⟨rfl, hnan⟩)
    · rfl
    · exact Leaf.coerce_of_admits hadmits
    · exact Leaf.coerce_of_nan hnan
  · obtain ⟨hkind, hchecks, hsettings⟩ := apply_coerce hsupports n
    generalize ((s.apply .coerce) n).1 = t at hkind hchecks hsettings
    refine ⟨?_, fun mode options w hcache hcache' hw => ?_⟩
    · rw [leafInput, hsettings, if_pos rfl]
    · rw [safeParse_of_truthful hcache, rootVisit] at hw
      rw [safeParse_of_truthful hcache', rootVisit]
      exact success_of_coercing hs (hkind.trans hs) hchecks hsettings hw

/-- Numbers from five on. -/
def fromFive : Schema := ⟨0, .leaf .number, ⟨[⟨.min (.ofNat 5) true, none⟩]⟩, {}⟩

/-- Seven is accepted with and without coercion, which leaves it as it is. -/
theorem seven_passes_fromFive :
    (fromFive.safeParse .immediate {} (.ofNat 7)).result = .ok (.success (.ofNat 7)) ∧
      Leaf.number.coerce (.ofNat 7) = .ofNat 7 ∧
      (fromFive.apply .coerce).Makes fun t =>
        (t.safeParse .immediate {} (.ofNat 7)).result = .ok (.success (.ofNat 7)) := by
  obtain ⟨hkeeps, -, -, haccepts⟩ := coercion_projects .number (.ofNat 7)
  have hplain : (fromFive.safeParse .immediate {} (.ofNat 7)).result =
    .ok (.success (.ofNat 7)) := rfl
  refine ⟨hplain, hkeeps (.inr (.inl ⟨_, rfl, by decide +kernel⟩)), fun n => ?_⟩
  exact (haccepts fromFive rfl rfl n).2 .immediate {} (.ofNat 7) nofun nofun hplain

end Schema

end ValueSchema
