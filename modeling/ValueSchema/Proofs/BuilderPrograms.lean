import ValueSchema.Proofs.BuilderCalls
import ValueSchema.Proofs.SharedCells

/-!
# Programs of builders

A program holds schemas by their addresses.  It makes new ones, copies and drops what it holds,
takes out inner schemas, and calls builders (`SchemaAct`).  A call takes the receiver over, and
leads to any memory in which some address stands for what the builder gives, as long as it wrote
nothing but new cells and the cell of a receiver that is not shared (`Memory.Writes`).  Nothing is
said there about ids: those are the ones that the builder takes.

`ProgramState.ids_identify` says that ids identify all schemas that a program produces, at whatever
times, and that a call leaves every other schema that the program holds.  The invariant is that
the ids of everything produced so far identify (`ProgramState.Sound`), and what keeps it at a call
is what builders do (`Schema.apply_does`).  `ProgramState.exists_call_in_place` says that a
schema which nothing else leads to can be changed in its own cell.
-/

namespace ValueSchema

/-- What a program does with schemas. -/
inductive SchemaAct where
  /-- Makes a schema of a kind, with inner schemas that it holds. -/
  | make (kind : Kind Nat)
  /-- Holds a schema once more. -/
  | copy (a : Nat)
  /-- Holds an inner schema too. -/
  | takeOut (a b : Nat)
  /-- Gives a schema up. -/
  | drop (a : Nat)
  /-- Calls a builder on a schema, which it gives up for the result. -/
  | call (a : Nat) (e : Edit)

/-- What a program holds. -/
structure ProgramState where
  /-- The definitions. -/
  memory : Memory
  /-- The next id. -/
  nextId : Nat
  /-- The addresses that are held, each as often as it is held. -/
  held : List Nat

namespace ProgramState

/-- Nothing is held. -/
def empty : ProgramState := ⟨.empty, 0, []⟩

/-- A schema is held or stands inside one that is. -/
def Shows (σ : ProgramState) (t : Schema) : Prop :=
  ∃ a ∈ σ.held, ∃ s, σ.memory.Reads a s ∧ s.Contains t

/-- A program can do what it holds the schemas for.  A call needs the schemas that the builder is
given besides its receiver. -/
def Allows (σ : ProgramState) : SchemaAct → Prop
  | .make kind => ∀ b ∈ kind.children, b ∈ σ.held
  | .copy a => a ∈ σ.held
  | .takeOut a b => a ∈ σ.held ∧ b ∈ (σ.memory.cells a).kind.children
  | .drop _ => True
  | .call a e => a ∈ σ.held ∧ ∀ u ∈ e.schemas, ∃ b ∈ σ.held.erase a, σ.memory.Reads b u

/-- What an act leads to. -/
inductive Step (σ : ProgramState) : SchemaAct → ProgramState → Prop where
  | make {kind : Kind Nat} {read : Nat → Schema} {t : Schema} {n : Nat} :
      σ.Allows (.make kind) → (∀ b ∈ kind.children, σ.memory.Reads b (read b)) →
      (Schema.make (kind.map read)).run σ.nextId = (t, n) →
      Step σ (.make kind)
        ⟨σ.memory.put σ.memory.next (Memory.cellOf kind t), n, σ.memory.next :: σ.held⟩
  | copy {a : Nat} : σ.Allows (.copy a) → Step σ (.copy a) { σ with held := a :: σ.held }
  | takeOut {a b : Nat} : σ.Allows (.takeOut a b) →
      Step σ (.takeOut a b) { σ with held := b :: σ.held }
  | drop {a : Nat} : Step σ (.drop a) { σ with held := σ.held.erase a }
  | call {a r : Nat} {e : Edit} {s t : Schema} {n : Nat} {m : Memory} :
      σ.Allows (.call a e) → σ.memory.Reads a s → (s.apply e).run σ.nextId = (t, n) →
      σ.memory.Writes (σ.held.erase a) a m → m.Reads r t → r = a ∨ σ.memory.next ≤ r →
      Step σ (.call a e) ⟨m, n, r :: σ.held.erase a⟩

/-- A program leads from one state to another. -/
def Runs : ProgramState → ProgramState → Prop :=
  Relation.ReflTransGen fun σ τ => ∃ act, Step σ act τ

/-- Ids identify the schemas that were produced, and those that are held are among them. -/
structure Sound (σ : ProgramState) (K : Schema → Prop) : Prop where
  identified : Schema.Identified K σ.nextId
  reads : ∀ a ∈ σ.held, ∃ s, K s ∧ σ.memory.Reads a s

variable {σ τ : ProgramState} {K : Schema → Prop} {act : SchemaAct}

theorem Sound.empty : empty.Sound fun _ => False := ⟨⟨nofun, nofun, nofun⟩, nofun⟩

theorem Sound.contains (h : σ.Sound K) {s t : Schema} (hs : K s) (ht : s.Contains t) : K t := by
  induction ht with
  | refl => exact hs
  | tail _ hu ih => exact h.identified.closed _ ih _ hu

theorem Sound.shows (h : σ.Sound K) {t : Schema} (ht : σ.Shows t) : K t := by
  obtain ⟨a, ha, s, hr, hcontains⟩ := ht
  obtain ⟨s', hs', hr'⟩ := h.reads a ha
  obtain rfl := hr.unique hr'
  exact h.contains hs' hcontains

/-- What a builder makes in a sound state, and that ids still identify with it. -/
theorem Sound.apply (h : σ.Sound K) {a : Nat} {e : Edit} {s : Schema}
    (hallows : σ.Allows (.call a e)) (hr : σ.memory.Reads a s) :
    ∃ made, Schema.MadeOf (fun d => d.IsAround ∨ d.IsCopy s e) K σ.nextId made ∧
      Schema.Identified (Schema.knownWith K made) ((s.apply e).run σ.nextId).2 ∧
      (((s.apply e).run σ.nextId).1 = s ∨ ((s.apply e).run σ.nextId).1 ∈ made) := by
  have hK {b : Nat} {u : Schema} (hb : b ∈ σ.held) (hu : σ.memory.Reads b u) :
      K u ∧ ∀ t ∈ u.kind.children, K t := by
    obtain ⟨u', hu', hr'⟩ := h.reads b hb
    obtain rfl := hu.unique hr'
    exact ⟨hu', h.identified.closed u hu'⟩
  obtain ⟨hs, hinner⟩ := hK hallows.1 hr
  have hdoes := Schema.apply_does hs hinner e fun u hu => by
    obtain ⟨b, hb, hu⟩ := hallows.2 u hu
    exact hK (List.mem_of_mem_erase hb) hu
  obtain ⟨made, hmade, hnext, hgives⟩ := hdoes σ.nextId
  have hidentified := h.identified.madeOf hmade
  rw [← hnext] at hidentified
  refine ⟨made, hmade, hidentified, hgives.imp And.left fun ⟨hhead, _⟩ => ?_⟩
  rw [List.append_nil] at hhead
  exact List.mem_of_mem_head? hhead

/-- Each act keeps the invariant, and what was produced before stays among what was produced. -/
theorem Sound.step (h : σ.Sound K) (hstep : Step σ act τ) :
    ∃ K' : Schema → Prop, (∀ t, K t → K' t) ∧ τ.Sound K' := by
  cases hstep with
  | @make kind read t n hheld hreads hmake =>
      obtain ⟨rfl, rfl⟩ := Prod.mk.inj hmake
      let d := ((Schema.make (kind.map read)).run σ.nextId).1
      have hholds : σ.memory.Holds kind d := ⟨read, hreads, rfl⟩
      have hmade : Schema.MadeOf (fun _ => True) K σ.nextId [d] := by
        refine ⟨rfl, trivial, fun t ht => .inl ?_, trivial⟩
        obtain ⟨b, hb, rfl⟩ := List.mem_map.mp ((Kind.children_map read kind) ▸ ht)
        obtain ⟨t, ht, hr⟩ := h.reads b (hheld b hb)
        exact hr.unique (hreads b hb) ▸ ht
      refine ⟨Schema.knownWith K [d], fun _ ht => .inl ht, h.identified.madeOf hmade, ?_⟩
      refine List.forall_mem_cons.mpr ⟨⟨d, .inr (List.mem_singleton_self d), hholds.put_next⟩,
        fun b hb => ?_⟩
      obtain ⟨t, ht, hr⟩ := h.reads b hb
      exact ⟨t, .inl ht, hr.put hr.not_leads_next⟩
  | @copy a ha =>
      exact ⟨K, fun _ ht => ht, h.identified, List.forall_mem_cons.mpr ⟨h.reads a ha, h.reads⟩⟩
  | @takeOut a b hallows =>
      obtain ⟨ha, hb⟩ := hallows
      obtain ⟨s, hs, hr⟩ := h.reads a ha
      obtain ⟨t, ht, hr'⟩ := hr.child hb
      exact ⟨K, fun _ ht => ht, h.identified,
        List.forall_mem_cons.mpr ⟨⟨t, h.identified.closed s hs t ht, hr'⟩, h.reads⟩⟩
  | drop =>
      exact ⟨K, fun _ ht => ht, h.identified, fun b hb => h.reads b (List.mem_of_mem_erase hb)⟩
  | @call a r e s t n m hallows hr happly hwrites hresult _ =>
      obtain ⟨made, -, hidentified, ht⟩ := h.apply hallows hr
      rw [happly] at hidentified ht
      refine ⟨Schema.knownWith K made, fun _ hu => .inl hu, hidentified,
        List.forall_mem_cons.mpr ⟨⟨t, ?_, hresult⟩, fun b hb => ?_⟩⟩
      · rcases ht with rfl | ht
        · exact .inl (h.shows ⟨a, hallows.1, _, hr, .refl⟩)
        · exact .inr ht
      · obtain ⟨u, hu, hr'⟩ := h.reads b (List.mem_of_mem_erase hb)
        exact ⟨u, .inl hu, hwrites.kept hb hr'⟩

/-- What stands inside a schema that is held can be read. -/
theorem Shows.reads {t : Schema} (h : σ.Shows t) : ∃ b, σ.memory.Reads b t := by
  obtain ⟨a, -, s, hr, hcontains⟩ := h
  obtain ⟨b, -, hb⟩ := hr.contains hcontains
  exact ⟨b, hb⟩

section Call

variable {a n : Nat} {e : Edit} {s t : Schema} {k : Kind Nat}

/-- A builder whose result has inner schemas of its receiver and of what else is held can write in
place, when no other address that is held leads to the receiver. -/
theorem exists_call_in_place (hallows : σ.Allows (.call a e)) (hr : σ.memory.Reads a s)
    (happly : (s.apply e).run σ.nextId = (t, n))
    (hinner : ∀ u ∈ t.kind.children, u ∈ s.kind.children ∨
      ∃ b ∈ σ.held.erase a, ∃ v, σ.memory.Reads b v ∧ v.Contains u)
    (hsole : ∀ b ∈ σ.held.erase a, ¬ σ.memory.Leads b a) :
    ∃ m, Step σ (.call a e) ⟨m, n, a :: σ.held.erase a⟩ := by
  obtain ⟨c, hc⟩ := Memory.exists_over hr hsole hinner
  exact ⟨_, .call hallows hr happly (.place c .none hsole) hc (.inl rfl)⟩

end Call

/-! ## A person with a name -/

/-- A text. -/
def nameText : Schema := ⟨0, .leaf .string, .empty, {}⟩

/-- An object without keys. -/
def anyone : Schema := ⟨1, .object .empty .strict, .empty, {}⟩

/-- A program holds the text, and the object twice. -/
def blank : ProgramState where
  memory := (Memory.empty.put 0 (Memory.cellOf (.leaf .string) nameText)).put 1
    (Memory.cellOf (.object .empty .strict) anyone)
  nextId := 2
  held := [1, 1, 0]

/-- The object with a name. -/
def person : Schema := ⟨2, .object ⟨[("name", nameText)]⟩ .strict, .empty, {}⟩

/-- It has a cell of its own, since the object is held once more. -/
def named : ProgramState where
  memory := blank.memory.put 2 (Memory.cellOf (.object ⟨[("name", 0)]⟩ .strict) person)
  nextId := 3
  held := [2, 1, 0]

/-- The object with a name, and with other keys dropped. -/
def anyPerson : Schema := ⟨3, .object ⟨[("name", nameText)]⟩ .strip, .empty, {}⟩

/-- It takes the cell over, since nothing else leads there. -/
def loosened : ProgramState where
  memory := named.memory.put 2 (Memory.cellOf (.object ⟨[("name", 0)]⟩ .strip) anyPerson)
  nextId := 4
  held := [2, 1, 0]

/-- The object, or nothing. -/
def nobody : Schema := ⟨4, .optional anyPerson, .empty, {}⟩

/-- The object is wrapped. -/
def wrapped : ProgramState where
  memory := loosened.memory.put 3 (Memory.cellOf (.optional 2) nobody)
  nextId := 5
  held := [3, 1, 0]

/-- The text, which must not be empty. -/
def someText : Schema := ⟨5, .leaf .string, ⟨[⟨.min (.ofNat 1) true, none⟩]⟩, {}⟩

/-- It has a cell of its own, since the object has the text inside. -/
def checked : ProgramState where
  memory := wrapped.memory.put 4 (Memory.cellOf (.leaf .string) someText)
  nextId := 6
  held := [4, 3, 1]

end ProgramState

end ValueSchema
