import Mathlib.Data.List.Forall2
import ValueSchema.Proofs.Rounding
import ValueSchema.Proofs.Throughout
import ValueSchema.Value.Order

/-!
# Laws of the order of values

The order compares a value with itself as equal, and with its sides exchanged it gives the
reverse (`Value.order_swap`).  It is transitive as long as numbers and big integers keep apart.
A number and a big integer are compared after rounding, two big integers exactly, so a number
may be equal to two big integers that are not equal to each other.  Three values where this
happens at one place are *blurred* (`Value.Blurred`), and of all others the order is transitive
(`Value.order_coherent`).  Up to `2 ^ 53` nothing is blurred.
-/

namespace ValueSchema

/-! ## Three answers -/

/-- Answers of an order for `a` and `b`, for `b` and `c`, and for `a` and `c`, that fit one
arrangement of the three values in a row. -/
structure Coherent (ab bc ac : Ordering) : Prop where
  /-- Equal values compare alike with a third one, on the left. -/
  of_eq_left : ab = .eq → ac = bc
  /-- Equal values compare alike with a third one, on the right. -/
  of_eq_right : bc = .eq → ac = ab
  /-- Two steps in one direction lead in that direction. -/
  of_same : ab = bc → ac = ab

namespace Coherent

variable {ab bc ac ab' bc' ac' : Ordering}

theorem of_transCmp {α : Type} (cmp : α → α → Ordering) [Std.TransCmp cmp] (a b c : α) :
    Coherent (cmp a b) (cmp b c) (cmp a c) where
  of_eq_left h := Std.TransCmp.congr_left h
  of_eq_right h := (Std.TransCmp.congr_right h).symm
  of_same h := by
    cases hab : cmp a b with
    | lt => exact Std.TransCmp.lt_trans hab (h.symm.trans hab)
    | eq => exact Std.TransCmp.eq_trans hab (h.symm.trans hab)
    | gt => exact Std.TransCmp.gt_trans hab (h.symm.trans hab)

/-- Answers that are refined by others where all three values are equal. -/
theorem andThen (h : Coherent ab bc ac)
    (h' : ab = .eq → bc = .eq → Coherent ab' bc' ac') :
    Coherent (ab.then ab') (bc.then bc') (ac.then ac') := by
  obtain ⟨hleft, hright, hsame⟩ := h
  cases ab <;> cases bc <;> cases ac <;> simp_all [Ordering.then] <;> constructor <;> simp_all

theorem ne_gt (h : Coherent ab bc ac) (hab : ab ≠ .gt) (hbc : bc ≠ .gt) : ac ≠ .gt := by
  cases hb : bc with
  | lt =>
      cases ha : ab with
      | lt => simp [h.of_same (ha.trans hb.symm), ha]
      | eq => simp [h.of_eq_left ha, hb]
      | gt => exact absurd ha hab
  | eq => rwa [h.of_eq_right hb]
  | gt => exact absurd hb hbc

theorem eq (h : Coherent ab bc ac) (hab : ab = .eq) (hbc : bc = .eq) : ac = .eq :=
  (h.of_eq_left hab).trans hbc

end Coherent

theorem Int128.eq_of_val_eq {m n : Int128} (h : m.val = n.val) : m = n := by
  cases m
  cases n
  simpa using h

namespace Value

/-! ## Exchanged sides -/

theorem order_eq_of_rank_ne : ∀ {a b : Value}, a.rank ≠ b.rank → a.order b = compare a.rank b.rank
  | a, b, h => by cases a <;> cases b <;> first | rfl | exact absurd rfl h

/-- The type decides first. -/
theorem order_eq_then (a b : Value) : a.order b = (compare a.rank b.rank).then (a.order b) := by
  by_cases h : a.rank = b.rank
  · rw [Nat.compare_eq_eq.mpr h]
    rfl
  · rw [order_eq_of_rank_ne h]
    cases compare a.rank b.rank <;> rfl

mutual

theorem order_swap (a b : Value) : b.order a = (a.order b).swap := by
  cases a with
  | array as =>
      cases b with
      | array bs => exact orderItems_swap as bs
      | _ => rfl
  | set as =>
      cases b with
      | set bs => exact orderItems_swap as bs
      | _ => rfl
  | date t =>
      cases b with
      | date u =>
          show u.order t = (t.order u).swap
          rw [Instant.order, Instant.order, Ordering.swap_then, ← Std.OrientedOrd.eq_swap,
            ← Std.OrientedOrd.eq_swap]
      | _ => rfl
  | _ => cases b <;> first | rfl | exact Std.OrientedOrd.eq_swap
termination_by structural a

theorem orderItems_swap (as bs : List Value) : orderItems bs as = (orderItems as bs).swap := by
  cases as with
  | nil => cases bs <;> rfl
  | cons a as =>
      cases bs with
      | nil => rfl
      | cons b bs =>
          rw [orderItems, orderItems, Ordering.swap_then, order_swap a b, orderItems_swap as bs]
termination_by structural as

end

theorem order_self (a : Value) : a.order a = .eq := by
  have h := order_swap a a
  cases ha : a.order a <;> simp [ha] at h ⊢

/-! ## Blurred values -/

/-- Whether two different big integers round to a number. -/
def Blurs (x : Double) (m n : Int128) : Prop :=
  m ≠ n ∧ x.order (.ofInt m.val) = .eq ∧ x.order (.ofInt n.val) = .eq

mutual

/-- Three values that hold, at one place, two different big integers and a number to which both
round.  What comes before the place in arrays and sets is equal. -/
inductive Blurred : Value → Value → Value → Prop where
  | first {x : Double} {m n : Int128} : Blurs x m n → Blurred (.number x) (.bigint m) (.bigint n)
  | second {x : Double} {m n : Int128} : Blurs x m n → Blurred (.bigint m) (.number x) (.bigint n)
  | third {x : Double} {m n : Int128} : Blurs x m n → Blurred (.bigint m) (.bigint n) (.number x)
  | array {as bs cs : List Value} : BlurredItems as bs cs →
      Blurred (.array as) (.array bs) (.array cs)
  | set {as bs cs : List Value} : BlurredItems as bs cs → Blurred (.set as) (.set bs) (.set cs)

/-- Three lists with blurred items at one position, behind equal ones. -/
inductive BlurredItems : List Value → List Value → List Value → Prop where
  | head {a b c : Value} {as bs cs : List Value} : Blurred a b c →
      BlurredItems (a :: as) (b :: bs) (c :: cs)
  | tail {a b c : Value} {as bs cs : List Value} : a.order b = .eq → b.order c = .eq →
      BlurredItems as bs cs → BlurredItems (a :: as) (b :: bs) (c :: cs)

end

/-! ## Transitivity -/

/-- The number that a number or a big integer is compared as, if it is compared with a number. -/
def approximation : Value → Int
  | .number x => x.key
  | .bigint n => (Double.ofInt n.val).key
  | _ => 0

/-- How big integers that round to one number compare. -/
def tie : Value → Value → Ordering
  | .bigint m, .bigint n => compare m.val n.val
  | _, _ => .eq

/-- A value of the rank of numbers is a number or a big integer. -/
theorem numeric_of_rank_eq {a : Value} (h : a.rank = 3) :
    (∃ x, a = .number x) ∨ ∃ n, a = .bigint n := by
  cases a <;> cases h
  · exact .inl ⟨_, rfl⟩
  · exact .inr ⟨_, rfl⟩

/-- Numbers compare as they round, and then exactly. -/
theorem order_eq_approximation_then {a b : Value} (ha : a.rank = 3) (hb : b.rank = 3) :
    a.order b = (compare a.approximation b.approximation).then (tie a b) := by
  obtain ⟨x, rfl⟩ | ⟨m, rfl⟩ := numeric_of_rank_eq ha <;>
    obtain ⟨y, rfl⟩ | ⟨n, rfl⟩ := numeric_of_rank_eq hb
  · exact (Ordering.then_eq ..).symm
  · exact (Ordering.then_eq ..).symm
  · exact (Ordering.then_eq ..).symm
  · -- Rounding respects the order, so it never reverses the exact answer.
    show compare m.val n.val =
      (compare (Double.ofInt m.val).key (Double.ofInt n.val).key).then (compare m.val n.val)
    rcases lt_trichotomy m.val n.val with h | h | h
    · have hkey := Double.key_ofInt_le h.le
      rcases hkey.lt_or_eq with hlt | heq
      · simp [compare_lt_iff_lt.mpr h, compare_lt_iff_lt.mpr hlt]
      · simp [heq]
    · simp [h]
    · have hkey := Double.key_ofInt_le h.le
      rcases hkey.lt_or_eq with hlt | heq
      · simp [compare_gt_iff_gt.mpr h, compare_gt_iff_gt.mpr hlt]
      · simp [heq]

/-- Ties of numbers that round alike are coherent, unless the numbers are blurred. -/
theorem tie_coherent {a b c : Value} (ha : a.rank = 3) (hb : b.rank = 3) (hc : c.rank = 3)
    (h : ¬ Blurred a b c) (hab : compare a.approximation b.approximation = .eq)
    (hbc : compare b.approximation c.approximation = .eq) :
    Coherent (tie a b) (tie b c) (tie a c) := by
  have hac := Std.TransCmp.eq_trans hab hbc
  have hba := Std.OrientedCmp.eq_symm hab
  have hca := Std.OrientedCmp.eq_symm hac
  have hcb := Std.OrientedCmp.eq_symm hbc
  have heq : Coherent .eq .eq .eq := ⟨fun _ => rfl, fun _ => rfl, fun _ => rfl⟩
  obtain ⟨x, rfl⟩ | ⟨k, rfl⟩ := numeric_of_rank_eq ha <;>
    obtain ⟨y, rfl⟩ | ⟨m, rfl⟩ := numeric_of_rank_eq hb <;>
    obtain ⟨z, rfl⟩ | ⟨n, rfl⟩ := numeric_of_rank_eq hc
  case inl.inl.inl => exact heq
  case inl.inl.inr => exact heq
  case inl.inr.inl => exact heq
  case inr.inl.inl => exact heq
  case inl.inr.inr =>
    have hmn : m = n := by
      by_contra hne
      exact h (.first ⟨hne, hab, hac⟩)
    simpa [tie, hmn] using heq
  case inr.inl.inr =>
    have hkn : k = n := by
      by_contra hne
      exact h (.second ⟨hne, hba, hbc⟩)
    simpa [tie, hkn] using heq
  case inr.inr.inl =>
    have hkm : k = m := by
      by_contra hne
      exact h (.third ⟨hne, hca, hcb⟩)
    simpa [tie, hkm] using heq
  case inr.inr.inr => exact Coherent.of_transCmp compare k.val m.val n.val

theorem numeric_coherent {a b c : Value} (ha : a.rank = 3) (hb : b.rank = 3) (hc : c.rank = 3)
    (h : ¬ Blurred a b c) : Coherent (a.order b) (b.order c) (a.order c) := by
  rw [order_eq_approximation_then ha hb, order_eq_approximation_then hb hc,
    order_eq_approximation_then ha hc]
  exact (Coherent.of_transCmp compare a.approximation b.approximation c.approximation).andThen
    (tie_coherent ha hb hc h)

theorem date_coherent (t u w : Instant) : Coherent (t.order u) (u.order w) (t.order w) :=
  (Coherent.of_transCmp compare t.seconds u.seconds w.seconds).andThen fun _ _ =>
    Coherent.of_transCmp compare t.nanos u.nanos w.nanos

mutual

/-- The order of three values fits one arrangement in a row, unless they are blurred. -/
theorem order_coherent (a b c : Value) (h : ¬ Blurred a b c) :
    Coherent (a.order b) (b.order c) (a.order c) := by
  rw [order_eq_then a b, order_eq_then b c, order_eq_then a c]
  refine (Coherent.of_transCmp compare a.rank b.rank c.rank).andThen fun hab hbc => ?_
  have hab := Nat.compare_eq_eq.mp hab
  have hbc := Nat.compare_eq_eq.mp hbc
  cases a with
  | number x => exact numeric_coherent rfl hab.symm (hab.trans hbc).symm h
  | bigint m => exact numeric_coherent rfl hab.symm (hab.trans hbc).symm h
  | array as =>
      cases b <;> cases hab
      cases c <;> cases hbc
      exact orderItems_coherent as _ _ fun hitems => h (.array hitems)
  | set as =>
      cases b <;> cases hab
      cases c <;> cases hbc
      exact orderItems_coherent as _ _ fun hitems => h (.set hitems)
  | bool p =>
      cases b <;> cases hab
      cases c <;> cases hbc
      exact Coherent.of_transCmp compare p.toNat _ _
  | string s =>
      cases b <;> cases hab
      cases c <;> cases hbc
      exact Coherent.of_transCmp compare s _ _
  | date t =>
      cases b <;> cases hab
      cases c <;> cases hbc
      exact date_coherent t _ _
  | buffer bytes =>
      cases b <;> cases hab
      cases c <;> cases hbc
      exact Coherent.of_transCmp compare (bytes.map UInt8.toNat) _ _
  | object as =>
      cases b <;> cases hab
      cases c <;> cases hbc
      exact Coherent.of_transCmp compare as.size _ _
  | _ =>
      cases b <;> cases hab
      cases c <;> cases hbc
      exact Coherent.of_transCmp compare (0 : Nat) 0 0
termination_by structural a

theorem orderItems_coherent (as bs cs : List Value) (h : ¬ BlurredItems as bs cs) :
    Coherent (orderItems as bs) (orderItems bs cs) (orderItems as cs) := by
  cases as with
  | nil => cases bs <;> cases cs <;> constructor <;> simp [orderItems]
  | cons a as =>
      cases bs with
      | nil => cases cs <;> constructor <;> simp [orderItems]
      | cons b bs =>
          cases cs with
          | nil => constructor <;> simp [orderItems, eq_comm]
          | cons c cs =>
              rw [orderItems, orderItems, orderItems]
              refine (order_coherent a b c fun hhead => h (.head hhead)).andThen fun hab hbc => ?_
              exact orderItems_coherent as bs cs fun htail => h (.tail hab hbc htail)
termination_by structural as

end

/-! ## Values without large integers -/

/-- No big integer in the value, at any depth, is so large that it may have to be rounded. -/
def IsExact (v : Value) : Prop :=
  v.Throughout fun u => ∀ n, u = .bigint n → n.val.natAbs ≤ 2 ^ 53

theorem Blurs.not_exact {x : Double} {m n : Int128} (h : Blurs x m n)
    (hm : (Value.bigint m).IsExact) (hn : (Value.bigint n).IsExact) : False := by
  obtain ⟨hne, hxm, hxn⟩ := h
  rw [Double.order, Std.LawfulEqOrd.compare_eq_iff_eq] at hxm hxn
  exact hne (Int128.eq_of_val_eq
    (Double.key_ofInt_injective (hm.here m rfl) (hn.here n rfl) (hxm.symm.trans hxn)))

mutual

theorem Blurred.not_exact {a b c : Value} (h : Blurred a b c) (ha : a.IsExact) (hb : b.IsExact)
    (hc : c.IsExact) : False := by
  cases h with
  | first hx => exact hx.not_exact hb hc
  | second hx => exact hx.not_exact ha hc
  | third hx => exact hx.not_exact ha hb
  | array hitems =>
      exact hitems.not_exact (fun _ => ha.of_mem_array) (fun _ => hb.of_mem_array)
        (fun _ => hc.of_mem_array)
  | set hitems =>
      exact hitems.not_exact (fun _ => ha.of_mem_set) (fun _ => hb.of_mem_set)
        (fun _ => hc.of_mem_set)

theorem BlurredItems.not_exact {as bs cs : List Value} (h : BlurredItems as bs cs)
    (ha : ∀ a ∈ as, a.IsExact) (hb : ∀ b ∈ bs, b.IsExact) (hc : ∀ c ∈ cs, c.IsExact) : False := by
  cases h with
  | head hhead => exact hhead.not_exact (ha _ (by simp)) (hb _ (by simp)) (hc _ (by simp))
  | tail _ _ htail =>
      obtain ⟨-, ha⟩ := List.forall_mem_cons.mp ha
      obtain ⟨-, hb⟩ := List.forall_mem_cons.mp hb
      obtain ⟨-, hc⟩ := List.forall_mem_cons.mp hc
      exact htail.not_exact ha hb hc

end

/-- Values whose big integers go up to `2 ^ 53` are sorted by a total preorder. -/
theorem order_trans_of_isExact {a b c : Value} (ha : a.IsExact) (hb : b.IsExact) (hc : c.IsExact)
    (hab : a.order b ≠ .gt) (hbc : b.order c ≠ .gt) : a.order c ≠ .gt :=
  (order_coherent a b c fun h => h.not_exact ha hb hc).ne_gt hab hbc

/-! ## The order as a preorder -/

/-- Comparing a value with itself gives that they are equal, and comparing with the sides
exchanged gives the reverse.  Values that are not blurred compare transitively, and two big
integers that round to one number never do: each is equal to the number and not to the other. -/
theorem order_preorder (a b c : Value) :
    a.order a = .eq ∧
    b.order a = (a.order b).swap ∧
    (¬ Blurred a b c →
      (a.order b ≠ .gt → b.order c ≠ .gt → a.order c ≠ .gt) ∧
      (a.order b = .eq → b.order c = .eq → a.order c = .eq)) ∧
    ∀ x m n, Blurs x m n →
      order (.bigint m) (.number x) = .eq ∧ order (.number x) (.bigint n) = .eq ∧
        order (.bigint m) (.bigint n) ≠ .eq := by
  refine ⟨order_self a, order_swap a b, fun h => ?_, fun x m n hx => ?_⟩
  · have hcoherent := order_coherent a b c h
    exact ⟨hcoherent.ne_gt, hcoherent.eq⟩
  · obtain ⟨hne, hxm, hxn⟩ := hx
    have hmx : (Double.ofInt m.val).order x = .eq := by
      rw [← Double.order_swap, hxm]
      rfl
    refine ⟨hmx, hxn, fun heq => hne ?_⟩
    exact Int128.eq_of_val_eq (Std.LawfulEqOrd.compare_eq_iff_eq.mp heq)

/-- A zero below a large integer, in a pair. -/
def pairWithInteger : Value := .array [.number (.zero true), .bigint (.clamp (1 <<< 60))]

/-- The other zero below the number that the large integer is. -/
def pairWithNumber : Value := .array [.number (.zero false), .number (.ofInt (1 <<< 60))]

/-- A third zero below infinity. -/
def pairWithInfinity : Value := .array [.bigint (.clamp 0), .number (.infinity false)]

theorem order_preorder_pairs :
    pairWithInteger.order pairWithNumber = .eq ∧ pairWithNumber.order pairWithInfinity = .lt ∧
      pairWithInteger.order pairWithInfinity ≠ .gt := by
  have hequal : pairWithInteger.order pairWithNumber = .eq := by decide +kernel
  have hless : pairWithNumber.order pairWithInfinity = .lt := by decide +kernel
  refine ⟨hequal, hless, ?_⟩
  have hlaws := order_preorder pairWithInteger pairWithNumber pairWithInfinity
  refine (hlaws.2.2.1 fun h => ?_).1 (by simp [hequal]) (by simp [hless])
  cases h with
  | array hitems =>
      cases hitems with
      | head hzeros => cases hzeros
      | tail _ _ hrest =>
          cases hrest with
          | head hlarge => cases hlarge
          | tail _ _ hnil => cases hnil

/-- Two neighbouring integers above `2 ^ 53` are equal to one number, and not to each other. -/
theorem order_not_transitive :
    ¬ ∀ a b c : Value, a.order b ≠ .gt → b.order c ≠ .gt → a.order c ≠ .gt := by
  intro hall
  have h := hall (.bigint (.clamp ((1 <<< 53) + 1))) (.number (.ofInt (1 <<< 53)))
    (.bigint (.clamp (1 <<< 53))) (by decide +kernel) (by decide +kernel)
  exact h (by decide +kernel)

end Value

end ValueSchema
