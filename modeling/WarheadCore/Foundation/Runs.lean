import Mathlib.Algebra.BigOperators.Group.List.Basic
import Mathlib.Algebra.Order.Ring.Int

/-! Runs of a total step function over a finite list of inputs.
A handler that refuses a request returns its state unchanged, so a run never stops early;
the rules below turn one step's preservation into facts about whole runs.
-/

namespace Foundation.Runs

variable {σ ι : Type*} {step : σ → ι → σ}

def run (step : σ → ι → σ) (state : σ) (inputs : List ι) : σ :=
  inputs.foldl step state

/-- Every step of the run obeys `law`, a relation of the state before it and its input. -/
def EachStep (step : σ → ι → σ) (law : σ → ι → Prop) : σ → List ι → Prop
  | _, [] => True
  | state, input :: rest => law state input ∧ EachStep step law (step state input) rest

/-- Every state of the run satisfies `good`, the first and the last included. -/
def EachState (step : σ → ι → σ) (good : σ → Prop) : σ → List ι → Prop
  | state, [] => good state
  | state, input :: rest => good state ∧ EachState step good (step state input) rest

def total (step : σ → ι → σ) (contribution : σ → ι → Int) : σ → List ι → Int
  | _, [] => 0
  | state, input :: rest =>
      contribution state input + total step contribution (step state input) rest

@[simp] theorem run_nil (state : σ) : run step state [] = state := rfl

@[simp] theorem run_cons (state : σ) (input : ι) (rest : List ι)
    : run step state (input :: rest) = run step (step state input) rest := rfl

/-- A run splits at any point, by the same law of folds. -/
theorem run_append (state : σ) (first later : List ι)
    : run step state (first ++ later) = run step (run step state first) later :=
  List.foldl_append

/-- Two passes over one list are a run of both at once, when the second commutes with the first.
Witness: the second pass over the head moves in front of the first pass over the tail.
-/
theorem foldl_foldl_eq_run {κ : Type*} {first : σ → ι → σ} {second : σ → κ → σ} (key : ι → κ)
    (commute : ∀ state input other,
      second (first state input) other = first (second state other) input)
    (state : σ) (inputs : List ι)
    : (inputs.map key).foldl second (inputs.foldl first state)
      = run (fun state input => second (first state input) (key input)) state inputs := by
  have move (inputs : List ι) (state : σ) (other : κ)
      : second (inputs.foldl first state) other = inputs.foldl first (second state other) := by
    induction inputs generalizing state with
    | nil => rfl
    | cons input rest ih => rw [List.foldl_cons, List.foldl_cons, ih, commute]
  induction inputs generalizing state with
  | nil => rfl
  | cons input rest ih =>
      rw [List.map_cons, List.foldl_cons, List.foldl_cons, move, ih, run_cons]

/-- Every state of a run is good if and only if the first one is and every step obeys the law that
keeps a state good.
Witness: induction on the inputs; the law is applied at the state before the input.
-/
theorem eachState_iff_eachStep {good : σ → Prop} {law : σ → ι → Prop}
    (exact_ : ∀ state input, good state → (good (step state input) ↔ law state input))
    {state : σ} {inputs : List ι}
    : EachState step good state inputs ↔ good state ∧ EachStep step law state inputs := by
  induction inputs generalizing state with
  | nil => exact (and_iff_left trivial).symm
  | cons input rest ih =>
      unfold EachState EachStep
      rw [ih]
      exact and_congr_right (fun holds => and_congr_left (fun _ => exact_ state input holds))

section Rules

variable {inv : σ → Prop} {guard : σ → ι → Prop}
  (preserved : ∀ state input, inv state → guard state input → inv (step state input))

include preserved

/-- An invariant that guarded steps preserve holds in every state of a guarded run.
Witness: induction on the inputs, the invariant carried to the next state.
-/
theorem eachState_of_invariant {state : σ} {inputs : List ι}
    (initial : inv state) (guarded : EachStep step guard state inputs)
    : EachState step inv state inputs := by
  induction inputs generalizing state with
  | nil => exact initial
  | cons input rest ih =>
      exact ⟨initial, ih (preserved state input initial guarded.1) guarded.2⟩

/-- The last state of a guarded run satisfies the invariant. -/
theorem run_of_invariant {state : σ} {inputs : List ι}
    (initial : inv state) (guarded : EachStep step guard state inputs)
    : inv (run step state inputs) := by
  induction inputs generalizing state with
  | nil => exact initial
  | cons input rest ih =>
      exact ih (preserved state input initial guarded.1) guarded.2

/-- A law that guarded steps obey from invariant states holds at every step of the run. -/
theorem eachStep_of_invariant {law : σ → ι → Prop}
    (obeyed : ∀ state input, inv state → guard state input → law state input)
    {state : σ} {inputs : List ι}
    (initial : inv state) (guarded : EachStep step guard state inputs)
    : EachStep step law state inputs := by
  induction inputs generalizing state with
  | nil => trivial
  | cons input rest ih =>
      exact ⟨obeyed state input initial guarded.1,
        ih (preserved state input initial guarded.1) guarded.2⟩

/-- Two laws that agree from invariant states hold of the same guarded runs. -/
theorem eachStep_congr_of_invariant {law other : σ → ι → Prop}
    (agree : ∀ state input, inv state → guard state input → (law state input ↔ other state input))
    {state : σ} {inputs : List ι}
    (initial : inv state) (guarded : EachStep step guard state inputs)
    : EachStep step law state inputs ↔ EachStep step other state inputs := by
  induction inputs generalizing state with
  | nil => exact Iff.rfl
  | cons input rest ih =>
      exact and_congr (agree state input initial guarded.1)
        (ih (preserved state input initial guarded.1) guarded.2)

/-- A measure that every guarded step changes by its contribution changes by the total. -/
theorem measure_run_of_invariant {measure : σ → Int} {contribution : σ → ι → Int}
    (changed
      : ∀ state input, inv state → guard state input
          → measure (step state input) = measure state + contribution state input)
    {state : σ} {inputs : List ι}
    (initial : inv state) (guarded : EachStep step guard state inputs)
    : measure (run step state inputs) = measure state + total step contribution state inputs := by
  induction inputs generalizing state with
  | nil => simp [total]
  | cons input rest ih =>
      have next := ih (preserved state input initial guarded.1) guarded.2
      simp only [run_cons, total, next, changed state input initial guarded.1]
      omega

end Rules

/-- A law of all steps of a run is one of its first part and, from there on, of its last part. -/
theorem eachStep_append {law : σ → ι → Prop} {state : σ} {first later : List ι}
    : EachStep step law state (first ++ later)
      ↔ EachStep step law state first ∧ EachStep step law (run step state first) later := by
  induction first generalizing state with
  | nil => simp [EachStep]
  | cons input rest ih => simp only [List.cons_append, EachStep, ih, run_cons, and_assoc]

/-- A law of all steps, with what is known of the inputs themselves. -/
theorem EachStep.and_forall {law : σ → ι → Prop} {known : ι → Prop} {state : σ} {inputs : List ι}
    (h : EachStep step law state inputs) (each : ∀ input ∈ inputs, known input)
    : EachStep step (fun state input => law state input ∧ known input) state inputs := by
  induction inputs generalizing state with
  | nil => trivial
  | cons input rest ih =>
      exact ⟨⟨h.1, each input List.mem_cons_self⟩,
        ih h.2 (fun later member => each later (List.mem_cons_of_mem _ member))⟩

/-- Contributions that do not depend on the state add up as a list. -/
theorem total_eq_sum (contribution : ι → Int) (state : σ) (inputs : List ι)
    : total step (fun _ input => contribution input) state inputs
      = (inputs.map contribution).sum := by
  induction inputs generalizing state with
  | nil => rfl
  | cons input rest ih => rw [total, ih, List.map_cons, List.sum_cons]

/-- Weakening the law of every step. -/
theorem EachStep.imp {law weaker : σ → ι → Prop}
    (weaken : ∀ state input, law state input → weaker state input)
    {state : σ} {inputs : List ι} (h : EachStep step law state inputs)
    : EachStep step weaker state inputs := by
  induction inputs generalizing state with
  | nil => trivial
  | cons input rest ih => exact ⟨weaken state input h.1, ih h.2⟩

/-- A law of all steps holds at every step of every run. -/
theorem eachStep_of_forall {law : σ → ι → Prop} (h : ∀ state input, law state input)
    (state : σ) (inputs : List ι)
    : EachStep step law state inputs := by
  induction inputs generalizing state with
  | nil => trivial
  | cons input rest ih => exact ⟨h state input, ih _⟩

/-- An invariant that every step preserves holds in every state of every run. -/
theorem eachState_of_step {inv : σ → Prop}
    (preserved : ∀ state input, inv state → inv (step state input))
    {state : σ} (initial : inv state) (inputs : List ι)
    : EachState step inv state inputs :=
  @eachState_of_invariant _ _ step inv (fun _ _ => True)
    (fun state input holds _ => preserved state input holds) state inputs initial
    (eachStep_of_forall (fun _ _ => trivial) _ _)

/-- The last state of a run is one of its states. -/
theorem EachState.last {good : σ → Prop} {state : σ} {inputs : List ι}
    (h : EachState step good state inputs)
    : good (run step state inputs) := by
  induction inputs generalizing state with
  | nil => exact h
  | cons input rest ih => exact ih h.2

/-- Weakening the predicate of every state. -/
theorem EachState.imp {good weaker : σ → Prop} (weaken : ∀ state, good state → weaker state)
    {state : σ} {inputs : List ι} (h : EachState step good state inputs)
    : EachState step weaker state inputs := by
  induction inputs generalizing state with
  | nil => exact weaken state h
  | cons input rest ih => exact ⟨weaken state h.1, ih h.2⟩

section Outputs

variable {τ ω : Type*} {step' : τ → ι → τ} {output : σ → ι → ω} {output' : τ → ι → ω}

def outputs (step : σ → ι → σ) (output : σ → ι → ω) : σ → List ι → List ω
  | _, [] => []
  | state, input :: rest => output state input :: outputs step output (step state input) rest

/-- Two systems whose steps keep a relation, and give the same from related states, have runs that
give the same.
-/
theorem outputs_eq_of_simulation {rel : σ → τ → Prop} {guard : τ → ι → Prop}
    (simulated
      : ∀ state state' input, rel state state' → guard state' input →
          output state input = output' state' input ∧ rel (step state input) (step' state' input))
    {state : σ} {state' : τ} {inputs : List ι}
    (related : rel state state') (guarded : EachStep step' guard state' inputs)
    : outputs step output state inputs = outputs step' output' state' inputs := by
  induction inputs generalizing state state' with
  | nil => rfl
  | cons input rest ih =>
      obtain ⟨same, later⟩ := simulated state state' input related guarded.1
      rw [outputs, outputs, same, ih later guarded.2]

end Outputs

section Partial

variable {attempt : σ → ι → Option σ}

/-- Every step of a fold that may stop obeys `law`, as far as the fold comes. -/
def EachAttempt (attempt : σ → ι → Option σ) (law : σ → ι → Prop) : σ → List ι → Prop
  | _, [] => True
  | state, input :: rest =>
      law state input ∧ ∀ next, attempt state input = some next → EachAttempt attempt law next rest

/-- An invariant that lawful steps preserve is preserved by a lawful fold. -/
theorem foldlM_of_invariant {inv : σ → Prop} {law : σ → ι → Prop} {inputs : List ι}
    (preserved
      : ∀ state next input, input ∈ inputs → inv state → law state input
          → attempt state input = some next → inv next)
    {state last : σ} (initial : inv state) (lawful : EachAttempt attempt law state inputs)
    (done : inputs.foldlM attempt state = some last)
    : inv last := by
  induction inputs generalizing state with
  | nil =>
      obtain rfl := Option.some.inj done
      exact initial
  | cons input rest ih =>
      rw [List.foldlM_cons] at done
      obtain ⟨next, first, later⟩ := Option.bind_eq_some_iff.mp done
      have kept := preserved state next input List.mem_cons_self initial lawful.1 first
      exact ih (fun state next input member => preserved state next input
        (List.mem_cons_of_mem _ member)) kept (lawful.2 next first) later

/-- A law of all steps holds at every step of every fold. -/
theorem eachAttempt_of_forall {law : σ → ι → Prop} (h : ∀ state input, law state input)
    (state : σ) (inputs : List ι)
    : EachAttempt attempt law state inputs := by
  induction inputs generalizing state with
  | nil => trivial
  | cons input rest ih => exact ⟨h state input, fun next _ => ih next⟩

/-- An invariant that every step preserves is preserved by a fold. -/
theorem foldlM_keeps {inv : σ → Prop} {inputs : List ι}
    (preserved
      : ∀ {state next input}, inv state → attempt state input = some next → inv next)
    {state last : σ} (initial : inv state) (done : inputs.foldlM attempt state = some last)
    : inv last :=
  foldlM_of_invariant (fun _ _ _ _ kept _ step => preserved kept step) initial
    (eachAttempt_of_forall (fun _ _ => True.intro) state inputs) done

end Partial

end Foundation.Runs
