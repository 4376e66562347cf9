import Mathlib.Logic.Relation
import Mathlib.Order.Basic

/-!
# Labelled transitions: invariants, traps and descent

A system is a relation between a state, a label and the next state. Runs are the
reflexive transitive closure of its steps, possibly with labels restricted to an
allowed set. Three rules are used throughout: an invariant of the initial states
that every step keeps holds of every reachable state; a set of states that every
step keeps and that misses the goal is a trap; and a goal is reached from any
state where a measure can be lowered again and again. A simulation carries runs and
reachability from one system to another.
-/

namespace Transition

universe u v w x

/-- States, their first values, and labelled steps between them. -/
structure System (State : Type u) (Label : Type v) where
  initial : State → Prop
  step : State → Label → State → Prop

namespace System

variable {State : Type u} {Label : Type v} (system : System State Label)

/-- One step with an allowed label. -/
def Move (allowed : Label → Prop) (before after : State) : Prop :=
  ∃ label, allowed label ∧ system.step before label after

/-- A finite run whose labels are all allowed. -/
def Leads (allowed : Label → Prop) : State → State → Prop :=
  Relation.ReflTransGen (system.Move allowed)

/-- A finite run with any labels. -/
def Runs : State → State → Prop := system.Leads (fun _ => True)

/-- The end of a run from an initial state. -/
def Reachable (state : State) : Prop := ∃ first, system.initial first ∧ system.Runs first state

variable {system}

/-- Every state leads to itself, by no step. -/
theorem leads_refl (allowed : Label → Prop) (state : State) : system.Leads allowed state state :=
  Relation.ReflTransGen.refl

/-- A permitted step leads to the state behind it. -/
theorem leads_single {allowed : Label → Prop} {before after : State} (label : Label)
    (permitted : allowed label) (step : system.step before label after) :
    system.Leads allowed before after :=
  Relation.ReflTransGen.single ⟨label, permitted, step⟩

/-- Two runs of permitted steps make one. -/
theorem leads_trans {allowed : Label → Prop} {first second third : State}
    (front : system.Leads allowed first second) (back : system.Leads allowed second third) :
    system.Leads allowed first third :=
  Relation.ReflTransGen.trans front back

/-- Fewer labels are allowed in a run of fewer kinds of steps. -/
theorem leads_weaken {narrow wide : Label → Prop} {before after : State}
    (included : ∀ label, narrow label → wide label) (run : system.Leads narrow before after) :
    system.Leads wide before after := by
  induction run with
  | refl => exact leads_refl wide before
  | tail _ move extended =>
    obtain ⟨label, permitted, step⟩ := move
    exact leads_trans extended (leads_single label (included label permitted) step)

/-- Initial states are reachable. -/
theorem reachable_initial {state : State} (first : system.initial state) :
    system.Reachable state :=
  ⟨state, first, leads_refl _ state⟩

/-- A run from a reachable state ends in a reachable state. -/
theorem reachable_leads {allowed : Label → Prop} {before after : State}
    (reached : system.Reachable before) (run : system.Leads allowed before after) :
    system.Reachable after := by
  obtain ⟨first, start, earlier⟩ := reached
  exact ⟨first, start, leads_trans earlier (leads_weaken (fun _ _ => trivial) run)⟩

/-- One step from a reachable state leads to a reachable state. -/
theorem reachable_step {before after : State} {label : Label}
    (reached : system.Reachable before) (step : system.step before label after) :
    system.Reachable after := by
  have run : system.Runs before after := leads_single label trivial step
  exact reachable_leads reached run

/-- A property that steps keep is kept by every run. -/
theorem leads_invariant {allowed : Label → Prop} {property : State → Prop} {before after : State}
    (kept : ∀ one label other, allowed label → property one → system.step one label other →
      property other)
    (run : system.Leads allowed before after) (start : property before) : property after := by
  induction run with
  | refl => exact start
  | tail _ move held =>
    obtain ⟨label, permitted, step⟩ := move
    exact kept _ label _ permitted held step

/-- An inductive invariant holds of every reachable state. -/
theorem reachable_invariant {property : State → Prop} {state : State}
    (first : ∀ one, system.initial one → property one)
    (kept : ∀ one label other, property one → system.step one label other → property other)
    (reached : system.Reachable state) : property state := by
  obtain ⟨start, isInitial, run⟩ := reached
  exact leads_invariant (fun one label other _ held step => kept one label other held step) run
    (first start isInitial)

/-- A property that steps keep in reachable states is kept by every run from one of them. -/
theorem reachable_leads_invariant {allowed : Label → Prop} {property : State → Prop}
    {before after : State}
    (kept : ∀ one label other, allowed label → system.Reachable one → property one →
      system.step one label other → property other)
    (run : system.Leads allowed before after) (reached : system.Reachable before)
    (start : property before) : system.Reachable after ∧ property after := by
  induction run with
  | refl => exact ⟨reached, start⟩
  | tail _ move both =>
    obtain ⟨label, permitted, step⟩ := move
    obtain ⟨reachedOne, held⟩ := both
    exact ⟨reachable_step reachedOne step, kept _ label _ permitted reachedOne held step⟩

/-- A trap: steps stay inside, and no state inside is a goal. -/
theorem trap {allowed : Label → Prop} {inside goal : State → Prop} {before after : State}
    (stays : ∀ one label other, allowed label → inside one → system.step one label other →
      inside other)
    (misses : ∀ one, inside one → ¬ goal one) (start : inside before)
    (run : system.Leads allowed before after) : ¬ goal after :=
  misses after (leads_invariant stays run start)

/-- Descent: from every state of a set, some allowed run stays in the set and either
ends in the goal or lowers a measure. Then the goal can be reached. -/
theorem descent {allowed : Label → Prop} {inside goal : State → Prop} (measure : State → Nat)
    (progress : ∀ one, inside one → ∃ other, system.Leads allowed one other ∧
      (goal other ∨ (inside other ∧ measure other < measure one)))
    (state : State) (start : inside state) :
    ∃ last, system.Leads allowed state last ∧ goal last := by
  induction bound : measure state using Nat.strongRecOn generalizing state with
  | ind bound inductionHypothesis =>
    obtain ⟨other, run, reachedGoal | ⟨stays, lower⟩⟩ := progress state start
    · exact ⟨other, run, reachedGoal⟩
    · obtain ⟨last, rest, isGoal⟩ :=
        inductionHypothesis (measure other) (by omega) other stays rfl
      exact ⟨last, leads_trans run rest, isGoal⟩

/-- A system with more initial states and more steps reaches more states. -/
theorem reachable_widen {wide : System State Label} {state : State}
    (reached : system.Reachable state) (first : ∀ one, system.initial one → wide.initial one)
    (included : ∀ one label other, system.step one label other → wide.step one label other) :
    wide.Reachable state := by
  have kept : ∀ one label other, wide.Reachable one → system.step one label other →
      wide.Reachable other :=
    fun one label other held step => reachable_step held (included one label other step)
  exact reachable_invariant (fun one isInitial => reachable_initial (first one isInitial)) kept
    reached

/-! ## Simulation -/

variable {Image : Type w} {Mark : Type x} {images : System Image Mark}
  {related : State → Image → Prop}

/-- Where a step between related states is matched by a run, a run is matched by a run. -/
theorem leads_simulation {allowed : Label → Prop} {permitted : Mark → Prop} {before after : State}
    {image : Image}
    (matched : ∀ one label other image, allowed label → related one image →
      system.step one label other → ∃ later, images.Leads permitted image later ∧
        related other later)
    (run : system.Leads allowed before after) (start : related before image) :
    ∃ later, images.Leads permitted image later ∧ related after later := by
  induction run with
  | refl => exact ⟨image, leads_refl permitted image, start⟩
  | tail _ move inductionHypothesis =>
    obtain ⟨label, isAllowed, step⟩ := move
    obtain ⟨middle, front, held⟩ := inductionHypothesis
    obtain ⟨later, back, kept⟩ := matched _ label _ middle isAllowed held step
    exact ⟨later, leads_trans front back, kept⟩

/-- A simulation relates every reachable state to a reachable one. -/
theorem reachable_simulation {state : State}
    (first : ∀ one, system.initial one → ∃ image, images.initial image ∧ related one image)
    (matched : ∀ one label other image, images.Reachable image → related one image →
      system.step one label other → ∃ later, images.Runs image later ∧ related other later)
    (reached : system.Reachable state) : ∃ image, images.Reachable image ∧ related state image := by
  refine @reachable_invariant _ _ _ (fun one => ∃ image, images.Reachable image ∧
    related one image) state ?_ ?_ reached
  · intro one isInitial
    obtain ⟨image, start, held⟩ := first one isInitial
    exact ⟨image, reachable_initial start, held⟩
  · rintro one label other ⟨image, reachedImage, held⟩ step
    obtain ⟨later, run, kept⟩ := matched one label other image reachedImage held step
    exact ⟨later, reachable_leads reachedImage run, kept⟩

end System

end Transition
