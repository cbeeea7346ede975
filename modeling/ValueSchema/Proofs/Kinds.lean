import ValueSchema.Schema.Basic

/-!
# Kinds as containers of schemas

What `Kind.map` does to a kind is what it does to the schemas inside (`Kind.children`): mapping
twice is mapping once, and functions that agree on the schemas inside map alike.
-/

namespace ValueSchema

/-- What an object does with other keys, with the schema for them mapped. -/
def UnknownKeys.map {α β : Type} (f : α → β) : UnknownKeys α → UnknownKeys β
  | .strict => .strict
  | .strip => .strip
  | .passthrough => .passthrough
  | .catchall s => .catchall (f s)

namespace Kind

variable {α β γ : Type}

theorem map_object (f : α → β) (shape : Entries α) (unknown : UnknownKeys α) :
    (object shape unknown).map f = .object (shape.map f) (unknown.map f) := by
  cases unknown <;> rfl

@[simp] theorem map_id (k : Kind α) : k.map id = k := by
  cases k with
  | tuple items rest => simp [map]
  | object shape unknown => cases unknown <;> simp [map, Entries.map]
  | union members => simp [map]
  | intersection members => simp [map]
  | _ => rfl

@[simp] theorem map_map (f : α → β) (g : β → γ) (k : Kind α) :
    (k.map f).map g = k.map fun a => g (f a) := by
  cases k with
  | tuple items rest => simp [map, Function.comp_def]
  | object shape unknown => cases unknown <;> simp [map, Entries.map, Function.comp_def]
  | union members => simp [map, Function.comp_def]
  | intersection members => simp [map, Function.comp_def]
  | _ => rfl

@[simp] theorem children_map (f : α → β) (k : Kind α) : (k.map f).children = k.children.map f := by
  cases k with
  | tuple items rest => cases rest <;> simp [map, children]
  | object shape unknown =>
      cases unknown <;> simp [map, children, Entries.map, Entries.values, Function.comp_def]
  | _ => rfl

/-- Functions that agree on the schemas inside of a kind map it alike. -/
theorem map_congr {f g : α → β} {k : Kind α} (h : ∀ t ∈ k.children, f t = g t) :
    k.map f = k.map g := by
  cases k with
  | leaf l => rfl
  | tuple items rest =>
      have hitems : items.map f = items.map g :=
        List.map_congr_left fun t ht => h t (List.mem_append_left _ ht)
      have hrest : rest.map f = rest.map g :=
        Option.map_congr fun t ht => h t (List.mem_append_right _ (Option.mem_toList.mpr ht))
      rw [map, map, hitems, hrest]
  | object shape unknown =>
      have hshape : shape.map f = shape.map g :=
        congrArg Entries.mk (List.map_congr_left fun e he =>
          congrArg (Prod.mk e.1) (h e.2 (List.mem_append_left _ (List.mem_map_of_mem he))))
      cases unknown with
      | catchall s =>
          have hs : f s = g s := h s (List.mem_append_right _ (List.mem_cons_self ..))
          rw [map, map, hshape, hs]
      | _ => exact congrArg (object · _) hshape
  | union members => exact congrArg union (List.map_congr_left h)
  | intersection members => exact congrArg intersection (List.map_congr_left h)
  | lazy id => rfl
  | _ => simp_all [map, children]

end Kind

end ValueSchema
