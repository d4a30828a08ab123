import Mathlib.Tactic.ByContra
import Mathlib.Tactic.Choose

/-! Comparators that are built from keys: lexicographic chains, directions, and keys that some
values do not have. A chain of transitive comparators is a strict weak ordering; a key that is missing for
some values is one only if all others agree on it.
-/

namespace Foundation.Comparators

open Std

variable {α κ : Type*}

/-- Compare by a key, as long as both have it; else they are tied. -/
def optional [Ord κ] (key : α → Option κ) (left right : α) : Ordering :=
  match key left, key right with
  | some here, some there => compare here there
  | _, _ => .eq

def directed (descending : Bool) (cmp : α → α → Ordering) (left right : α) : Ordering :=
  if descending then cmp right left else cmp left right

def chain : List (α → α → Ordering) → α → α → Ordering
  | [], _, _ => .eq
  | cmp :: rest, left, right => (cmp left right).then (chain rest left right)

def Settled (key : α → Option κ) : Prop :=
  (∀ a, key a ≠ none) ∨ ∀ a b, key a ≠ none → key b ≠ none → key a = key b

-- Transitive comparators

theorem transCmp_tied : TransCmp (fun _ _ : α => Ordering.eq) where
  eq_swap := rfl
  isLE_trans _ _ := rfl

theorem transCmp_directed {cmp : α → α → Ordering} (transitive : TransCmp cmp) (descending : Bool)
    : TransCmp (directed descending cmp) := by
  cases descending with
  | false => exact transitive
  | true => exact inferInstanceAs (TransCmp fun left right => cmp right left)

theorem transCmp_chain {cmps : List (α → α → Ordering)} (each : ∀ cmp ∈ cmps, TransCmp cmp)
    : TransCmp (chain cmps) := by
  induction cmps with
  | nil => exact transCmp_tied
  | cons cmp rest ih =>
      have first : TransCmp cmp := each cmp List.mem_cons_self
      have later : TransCmp (chain rest) :=
        ih (fun other member => each other (List.mem_cons_of_mem _ member))
      exact inferInstanceAs (TransCmp (compareLex cmp (chain rest)))

/-- Transitive comparators stay so on what a function reads of other values. -/
theorem transCmp_on {β : Type*} {cmp : α → α → Ordering} (transitive : TransCmp cmp) (f : β → α)
    : TransCmp (fun left right => cmp (f left) (f right)) where
  eq_swap := OrientedCmp.eq_swap
  isLE_trans first second := TransCmp.isLE_trans first second

theorem chain_on {β : Type*} (f : β → α) (cmps : List (α → α → Ordering)) (left right : β)
    : chain cmps (f left) (f right)
      = chain (cmps.map (fun cmp left right => cmp (f left) (f right))) left right := by
  induction cmps with
  | nil => rfl
  | cons cmp rest ih =>
      simp only [chain, List.map_cons]
      rw [ih]

/-- A key that is settled compares transitively. -/
theorem transCmp_optional [Ord κ] [TransOrd κ] {key : α → Option κ} (settled : Settled key)
    : TransCmp (optional key) := by
  rcases settled with total | agree
  · have found (a : α) : ∃ value, key a = some value := Option.ne_none_iff_exists'.mp (total a)
    choose value has using found
    have same : optional key = compareOn value := by
      funext a b
      unfold optional compareOn
      rw [has a, has b]
    rw [same]
    infer_instance
  · have same : optional key = fun _ _ => .eq := by
      funext a b
      unfold optional
      cases here : key a with
      | none => rfl
      | some x =>
          cases there : key b with
          | none => rfl
          | some y =>
              have equal := agree a b (by rw [here]; exact Option.some_ne_none x)
                (by rw [there]; exact Option.some_ne_none y)
              rw [here, there] at equal
              rw [Option.some.inj equal]
              exact ReflOrd.compare_self
    rw [same]
    exact transCmp_tied

-- Strict weak orderings

/-- What a transitive comparator puts before is a strict weak ordering. -/
theorem isStrictWeakOrder_of_transCmp {cmp : α → α → Ordering} (transitive : TransCmp cmp)
    : IsStrictWeakOrder α (fun left right => cmp left right = .lt) where
  irrefl a before := by
    have self : cmp a a = .eq := ReflCmp.compare_self
    rw [self] at before
    cases before
  trans _ _ _ first second := TransCmp.lt_trans first second
  incomp_trans a b c first second := by
    have tied {x y : α} (incomparable : ¬cmp x y = .lt ∧ ¬cmp y x = .lt) : cmp x y = .eq := by
      have swapped : cmp y x = (cmp x y).swap := OrientedCmp.eq_swap
      cases outcome : cmp x y with
      | lt => exact (incomparable.1 outcome).elim
      | eq => rfl
      | gt =>
          rw [outcome] at swapped
          exact (incomparable.2 swapped).elim
    have both : cmp a c = .eq := TransCmp.eq_trans (tied first) (tied second)
    have back : cmp c a = .eq := OrientedCmp.eq_symm both
    rw [both, back]
    exact ⟨by decide, by decide⟩

/-- A key whose comparison alone is a strict weak ordering is settled: a value without it is tied
with every other value.
-/
theorem settled_of_isStrictWeakOrder [Ord κ] [OrientedOrd κ] [LawfulEqOrd κ] {key : α → Option κ}
    {descending : Bool}
    (ordering : IsStrictWeakOrder α (fun left right =>
      directed descending (optional key) left right = .lt))
    : Settled key := by
  by_contra unsettled
  unfold Settled at unsettled
  push Not at unsettled
  obtain ⟨⟨b, missing⟩, a, c, hasA, hasC, differ⟩ := unsettled
  have tiedLeft (x : α) : directed descending (optional key) x b = .eq := by
    unfold directed optional
    rw [missing]
    cases descending <;> cases key x <;> rfl
  have tiedRight (x : α) : directed descending (optional key) b x = .eq := by
    unfold directed optional
    rw [missing]
    cases descending <;> cases key x <;> rfl
  have incomparable := ordering.incomp_trans a b c
    (by rw [tiedLeft, tiedRight]; decide) (by rw [tiedLeft, tiedRight]; decide)
  obtain ⟨x, isX⟩ := Option.ne_none_iff_exists'.mp hasA
  obtain ⟨y, isY⟩ := Option.ne_none_iff_exists'.mp hasC
  have forward : optional key a c = compare x y := by
    unfold optional
    rw [isX, isY]
  have backward : optional key c a = compare y x := by
    unfold optional
    rw [isX, isY]
  have neither : compare x y ≠ .lt ∧ compare y x ≠ .lt := by
    cases descending with
    | false =>
        unfold directed at incomparable
        rw [if_neg Bool.false_ne_true, if_neg Bool.false_ne_true, forward, backward] at incomparable
        exact incomparable
    | true =>
        unfold directed at incomparable
        rw [if_pos rfl, if_pos rfl, forward, backward] at incomparable
        exact incomparable.symm
  have swapped : compare y x = (compare x y).swap := OrientedCmp.eq_swap
  cases outcome : compare x y with
  | lt => exact neither.1 outcome
  | eq =>
      apply differ
      rw [isX, isY, LawfulEqCmp.eq_of_compare outcome]
  | gt =>
      rw [outcome] at swapped
      exact neither.2 swapped

end Foundation.Comparators
