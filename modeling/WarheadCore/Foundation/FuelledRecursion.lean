import Mathlib.Data.Set.Finite.List

/-! Recursive functions with a bound on the depth of the recursion. Such a function has a result
once the bound is high enough, and then the same for every higher bound, if its recursive calls go
down a well-founded relation. Nodes with at most one parent each are a case of this: following the
parents ends at a node without one or runs into a cycle.
-/

namespace Foundation

variable {α σ β : Type*}

def Extends (f g : α → σ → Option β) : Prop :=
  ∀ argument state result, f argument state = some result → g argument state = some result

def Returns (run : Nat → α → σ → Option β) (argument : α) : Prop :=
  ∃ enough, ∀ state, ∃ result, ∀ fuel ≥ enough, run fuel argument state = some result

/-- A function with a bound on its depth, and what it may call with the next smaller one. -/
structure Fuelled (run : Nat → α → σ → Option β) (calls : α → List α) : Prop where
  extends_ : ∀ fuel, Extends (run fuel) (run (fuel + 1))
  returns
    : ∀ fuel argument, (∀ called ∈ calls argument, ∀ state, (run fuel called state).isSome) →
        ∀ state, (run (fuel + 1) argument state).isSome

variable {run : Nat → α → σ → Option β} {calls : α → List α}

theorem Fuelled.extends_of_le (fuelled : Fuelled run calls) {fuel more : Nat} (le : fuel ≤ more)
    : Extends (run fuel) (run more) := by
  induction more, le using Nat.le_induction with
  | base => exact fun _ _ _ same => same
  | succ more _ ih =>
      intro argument state result same
      exact fuelled.extends_ more argument state result (ih argument state result same)

theorem Fuelled.isSome_of_le (fuelled : Fuelled run calls) {fuel more : Nat} (le : fuel ≤ more)
    {argument : α} {state : σ} (some_ : (run fuel argument state).isSome)
    : (run more argument state).isSome := by
  obtain ⟨result, same⟩ := Option.isSome_iff_exists.mp some_
  rw [fuelled.extends_of_le le argument state result same]
  rfl

/-- A bound that suffices for every state leaves the result the same from then on. -/
theorem Fuelled.returns_of_isSome (fuelled : Fuelled run calls) {enough : Nat} {argument : α}
    (some_ : ∀ state, (run enough argument state).isSome)
    : Returns run argument := by
  refine ⟨enough, fun state => ?_⟩
  obtain ⟨result, same⟩ := Option.isSome_iff_exists.mp (some_ state)
  exact ⟨result, fun fuel le => fuelled.extends_of_le le argument state result same⟩

/-- One bound suffices for all the arguments of a list, the largest of theirs. -/
theorem Fuelled.enough_of_all (fuelled : Fuelled run calls) {called : List α}
    (each : ∀ callee ∈ called, ∃ enough, ∀ state, (run enough callee state).isSome)
    : ∃ enough, ∀ fuel ≥ enough, ∀ callee ∈ called, ∀ state, (run fuel callee state).isSome := by
  induction called with
  | nil => exact ⟨0, by simp⟩
  | cons first rest ih =>
      obtain ⟨own, here⟩ := each first List.mem_cons_self
      obtain ⟨others, there⟩ :=
        ih (fun callee member => each callee (List.mem_cons_of_mem _ member))
      refine ⟨max own others, fun fuel le callee member state => ?_⟩
      rcases List.mem_cons.mp member with rfl | later
      · exact fuelled.isSome_of_le (le_trans (le_max_left _ _) le) (here state)
      · exact there fuel (le_trans (le_max_right _ _) le) callee later state

theorem Returns.isSome {argument : α} (returns : Returns run argument)
    : ∃ enough, ∀ state, (run enough argument state).isSome := by
  obtain ⟨enough, same⟩ := returns
  refine ⟨enough, fun state => ?_⟩
  obtain ⟨result, all⟩ := same state
  rw [all enough (le_refl _)]
  rfl

/-- A function returns where there is no infinite chain of calls.
Witness: induction along the calls; one bound is enough for all of them.
-/
theorem Fuelled.returns_of_acc (fuelled : Fuelled run calls) {argument : α}
    (acc : Acc (fun called caller => called ∈ calls caller) argument)
    : Returns run argument := by
  induction acc with
  | intro argument _ ih =>
      obtain ⟨enough, some_⟩ :=
        fuelled.enough_of_all (fun callee member => (ih callee member).isSome)
      exact fuelled.returns_of_isSome
        (fuelled.returns enough argument (some_ enough (le_refl _)))

/-- Among finitely many callees, calls without a circle go down only finitely often. -/
theorem acc_of_acyclic {r : α → α → Prop} {callees : List α}
    (finite : ∀ caller callee, r caller callee → callee ∈ callees)
    (acyclic : ∀ caller, ¬Relation.TransGen r caller caller) (caller : α)
    : Acc (fun callee caller => r caller callee) caller := by
  -- among the callees the transitive calls are a strict order on a finite type
  let below (later earlier : { callee // callee ∈ callees }) : Prop :=
    Relation.TransGen r earlier.1 later.1
  have : IsTrans { callee // callee ∈ callees } below :=
    ⟨fun _ _ _ first second => second.trans first⟩
  have : Std.Irrefl below := ⟨fun callee circle => acyclic callee.1 circle⟩
  have : Finite { callee // callee ∈ callees } := List.finite_toSet callees
  have wellFounded := Finite.wellFounded_of_trans_of_irrefl below
  have within : ∀ callee : { callee // callee ∈ callees },
      Acc (fun callee caller => r caller callee) callee.1 := by
    intro callee
    induction callee using wellFounded.induction with
    | _ callee ih =>
        refine ⟨_, fun later called => ?_⟩
        exact ih ⟨later, finite _ _ called⟩ (.single called)
  exact ⟨_, fun callee called => within ⟨callee, finite _ _ called⟩⟩

/-- It is enough that there is no circle among what a start leads to.
Witness: calls from elsewhere are left out, which are none of a call chain from the start.
-/
theorem acc_of_acyclicFrom {r : α → α → Prop} {callees : List α} {start : α}
    (finite : ∀ caller callee, r caller callee → callee ∈ callees)
    (acyclic : ∀ caller, Relation.ReflTransGen r start caller →
      ¬Relation.TransGen r caller caller)
    : Acc (fun callee caller => r caller callee) start := by
  let inner (caller callee : α) : Prop := Relation.ReflTransGen r start caller ∧ r caller callee
  have noCircle : ∀ caller, ¬Relation.TransGen inner caller caller := by
    intro caller circle
    obtain ⟨_, ⟨reached, _⟩, _⟩ := Relation.TransGen.head'_iff.mp circle
    exact acyclic caller reached (circle.lift id (fun _ _ call => call.2))
  have whole : ∀ caller, Acc (fun callee caller => inner caller callee) caller →
      Relation.ReflTransGen r start caller → Acc (fun callee caller => r caller callee) caller := by
    intro caller acc
    induction acc with
    | intro caller _ ih =>
        intro reached
        refine ⟨_, fun callee called => ?_⟩
        exact ih callee ⟨reached, called⟩ (reached.tail called)
  have inner_ : Acc (fun callee caller => inner caller callee) start :=
    acc_of_acyclic (fun caller callee call => finite caller callee call.2) noCircle start
  exact whole start inner_ .refl

-- Loops over the calls

variable {ι : Type*}

/-- A loop whose steps extend those of another extends it. -/
theorem foldlM_extends {f g : β → ι → Option β}
    (below : ∀ state item result, f state item = some result → g state item = some result)
    {items : List ι} {state result : β} (same : items.foldlM f state = some result)
    : items.foldlM g state = some result := by
  induction items generalizing state with
  | nil => exact same
  | cons item rest ih =>
      rw [List.foldlM_cons] at same ⊢
      obtain ⟨next, first, later⟩ := Option.bind_eq_some_iff.mp same
      exact Option.bind_eq_some_iff.mpr ⟨next, below _ _ _ first, ih later⟩

/-- What every step of a loop keeps, from its state to the next one, the loop keeps. -/
theorem foldlM_relates {f : β → ι → Option β} {r : β → β → Prop} (refl : ∀ state, r state state)
    (trans : ∀ {first second third}, r first second → r second third → r first third)
    {items : List ι}
    (step : ∀ item ∈ items, ∀ state next, f state item = some next → r state next)
    {state result : β} (same : items.foldlM f state = some result)
    : r state result := by
  induction items generalizing state with
  | nil =>
      cases same
      exact refl _
  | cons item rest ih =>
      rw [List.foldlM_cons] at same
      obtain ⟨next, first, later⟩ := Option.bind_eq_some_iff.mp same
      have rest := ih (fun other member => step other (List.mem_cons_of_mem _ member)) later
      exact trans (step item List.mem_cons_self state next first) rest

/-- A loop all of whose steps have results has one. -/
theorem foldlM_isSome {f : β → ι → Option β} {items : List ι}
    (some_ : ∀ item ∈ items, ∀ state, (f state item).isSome) (state : β)
    : (items.foldlM f state).isSome := by
  induction items generalizing state with
  | nil => rfl
  | cons item rest ih =>
      rw [List.foldlM_cons]
      obtain ⟨next, first⟩ := Option.isSome_iff_exists.mp (some_ item List.mem_cons_self state)
      rw [first]
      exact ih (fun other member => some_ other (List.mem_cons_of_mem _ member)) next

-- Nodes with at most one parent each

variable {ν : Type*}

/-- The parents of a node lead to one without a parent in this many steps. -/
inductive EndsIn (parent : ν → Option ν) : Nat → ν → Prop where
  | root {node} (none_ : parent node = none) : EndsIn parent 0 node
  | link {steps node mother} (linked : parent node = some mother)
    (later : EndsIn parent steps mother) : EndsIn parent (steps + 1) node

def Ends (parent : ν → Option ν) (node : ν) : Prop := ∃ steps, EndsIn parent steps node

def Linked (parent : ν → Option ν) (node mother : ν) : Prop := parent node = some mother

def Acyclic (parent : ν → Option ν) : Prop :=
  ∀ node, ¬Relation.TransGen (Linked parent) node node

variable {parent : ν → Option ν}

theorem EndsIn.unique {node : ν} {steps other : Nat} (h : EndsIn parent steps node)
    (h' : EndsIn parent other node)
    : steps = other := by
  induction h generalizing other with
  | root none_ =>
      cases h' with
      | root => rfl
      | link linked _ => rw [none_] at linked; cases linked
  | link linked _ ih =>
      cases h' with
      | root none_ => rw [none_] at linked; cases linked
      | link linked' later' =>
          rw [linked] at linked'
          cases linked'
          rw [ih later']

/-- A parent is one step nearer to the end. -/
theorem EndsIn.of_linked {node mother : ν} {steps : Nat} (h : EndsIn parent steps node)
    (linked : Linked parent node mother)
    : ∃ fewer, steps = fewer + 1 ∧ EndsIn parent fewer mother := by
  cases h with
  | root none_ => exact absurd (none_.symm.trans linked) (by simp)
  | @link fewer _ other linked' later =>
      obtain rfl : other = mother := Option.some.inj (linked'.symm.trans linked)
      exact ⟨fewer, rfl, later⟩

theorem EndsIn.of_transGen {node above : ν} {steps : Nat} (h : EndsIn parent steps node)
    (path : Relation.TransGen (Linked parent) node above)
    : ∃ fewer < steps, EndsIn parent fewer above := by
  induction path with
  | single linked =>
      obtain ⟨fewer, rfl, later⟩ := h.of_linked linked
      exact ⟨fewer, by omega, later⟩
  | tail _ linked ih =>
      obtain ⟨fewer, less, between⟩ := ih
      obtain ⟨last, rfl, later⟩ := between.of_linked linked
      exact ⟨last, by omega, later⟩

/-- Where all chains end there is no cycle. -/
theorem acyclic_of_ends (ends_ : ∀ node, Ends parent node) : Acyclic parent := by
  intro node cycle
  obtain ⟨steps, h⟩ := ends_ node
  obtain ⟨fewer, less, again⟩ := h.of_transGen cycle
  have := h.unique again
  omega

/-- Finitely many links without a cycle go down only finitely often. -/
theorem acc_children {links : List ν} (all : ∀ node, (parent node).isSome → node ∈ links)
    (acyclic : Acyclic parent) (node : ν)
    : Acc (fun child mother => Linked parent child mother) node := by
  have finite : ∀ mother child, Linked parent child mother → child ∈ links :=
    fun mother child linked => all child (Option.isSome_iff_exists.mpr ⟨mother, linked⟩)
  have noCircle : ∀ mother,
      ¬Relation.TransGen (fun mother child => Linked parent child mother) mother mother :=
    fun mother circle => acyclic mother (Relation.transGen_swap.mp circle)
  exact acc_of_acyclic finite noCircle node

-- Links that are cut

/-- A chain still ends when a link is cut, perhaps earlier. -/
theorem Ends.cut [DecidableEq ν] {cut : ν → Option ν} {child : ν} (gone : cut child = none)
    (kept : ∀ node, node ≠ child → cut node = parent node) {node : ν} (h : Ends parent node)
    : Ends cut node := by
  obtain ⟨steps, h⟩ := h
  induction h with
  | @root node none_ =>
      by_cases here : node = child
      · exact ⟨0, .root (here ▸ gone)⟩
      · exact ⟨0, .root ((kept node here).trans none_)⟩
  | @link steps node mother linked _ ih =>
      by_cases here : node = child
      · exact ⟨0, .root (here ▸ gone)⟩
      · obtain ⟨fewer, later⟩ := ih
        exact ⟨fewer + 1, .link ((kept node here).trans linked) later⟩

end Foundation
