import Mathlib.Logic.Basic

/-!
# Runs of a partial machine

A machine takes a state and an event to the next state, or refuses: an event
that is not enabled, or one whose effect is undefined, has no successor. Events
carry every choice of the environment, so a list of events fixes a run.

`Along` says that each step of a run satisfies a relation between the state
before it and its event. Two such relations that agree on the states of an
invariant hold along the same runs; this is how a condition on the steps is
exchanged for a property of them.

A property that a run violates only later, in events that can always follow, is
asked of the run and all its extensions by such events. A condition on the steps
is exact for it if every step that breaks the condition leads to states from
which some extension violates the property, whatever comes before it.
-/

namespace Evlpc.Library

universe u v w

/-- A deterministic partial transition function. -/
structure Machine (σ : Type u) (ε : Type v) where
  step : σ → ε → Option σ

namespace Machine

variable {σ : Type u} {ε : Type v}

/-- The state after a list of events, if every one of them has a successor. -/
def run (machine : Machine σ ε) (state : σ) : List ε → Option σ
  | [] => some state
  | event :: events => (machine.step state event).bind fun next => machine.run next events

variable (machine : Machine σ ε)

/-- A run is a first step and a run from there. -/
theorem run_cons_some {state final : σ} {event : ε} {events : List ε} :
    machine.run state (event :: events) = some final ↔
      ∃ next, machine.step state event = some next ∧ machine.run next events = some final := by
  simp [run, Option.bind_eq_some_iff]

/-- What every step preserves holds after every run. -/
theorem run_invariant (Invariant : σ → Prop)
    (preserved : ∀ state event next, Invariant state → machine.step state event = some next →
      Invariant next)
    (state final : σ) (events : List ε) (initial : Invariant state)
    (reached : machine.run state events = some final) : Invariant final := by
  induction events generalizing state with
  | nil => exact Option.some.inj reached ▸ initial
  | cons event events inductionHypothesis =>
    obtain ⟨next, moved, rest⟩ := (machine.run_cons_some).mp reached
    exact inductionHypothesis next (preserved state event next initial moved) rest

/-- Every step of the run relates its starting state to its event. -/
def Along (machine : Machine σ ε) (Relation : σ → ε → Prop) (state : σ) : List ε → Prop
  | [] => True
  | event :: events => Relation state event ∧
      ∀ next, machine.step state event = some next → machine.Along Relation next events

/-- What an invariant grants in every state is a property of every step. -/
theorem along_of_invariant (Invariant : σ → Prop) (Property : σ → ε → Prop)
    (granted : ∀ state event, Invariant state → Property state event)
    (preserved : ∀ state event next, Invariant state → machine.step state event = some next →
      Invariant next)
    (state : σ) (events : List ε) (initial : Invariant state) :
    machine.Along Property state events := by
  induction events generalizing state with
  | nil => trivial
  | cons event events inductionHypothesis =>
    refine ⟨granted state event initial, ?_⟩
    intro next moved
    exact inductionHypothesis next (preserved state event next initial moved)

/-- Two relations hold along a run together if each of them does. -/
theorem along_and (First Second : σ → ε → Prop) (state : σ) (events : List ε) :
    machine.Along (fun state event => First state event ∧ Second state event) state events ↔
      machine.Along First state events ∧ machine.Along Second state events := by
  induction events generalizing state with
  | nil => exact ⟨fun _ => ⟨trivial, trivial⟩, fun _ => trivial⟩
  | cons event events inductionHypothesis =>
    constructor
    · rintro ⟨⟨first, second⟩, later⟩
      exact ⟨⟨first, fun next moved => ((inductionHypothesis next).mp (later next moved)).1⟩,
        ⟨second, fun next moved => ((inductionHypothesis next).mp (later next moved)).2⟩⟩
    · rintro ⟨⟨first, firstLater⟩, ⟨second, secondLater⟩⟩
      exact ⟨⟨first, second⟩, fun next moved =>
        (inductionHypothesis next).mpr ⟨firstLater next moved, secondLater next moved⟩⟩

/-- A relation holds along a run if it holds along its first part and, from the
state this reaches, along the second. -/
theorem along_append (Relation : σ → ε → Prop) (state : σ) (first second : List ε) :
    machine.Along Relation state (first ++ second) ↔ machine.Along Relation state first ∧
      ∀ middle, machine.run state first = some middle → machine.Along Relation middle second := by
  induction first generalizing state with
  | nil =>
    constructor
    · intro along
      exact ⟨trivial, fun middle reached => Option.some.inj reached ▸ along⟩
    · exact fun along => along.2 state rfl
  | cons event first inductionHypothesis =>
    constructor
    · rintro ⟨here, later⟩
      refine ⟨⟨here, fun next moved => ((inductionHypothesis next).mp (later next moved)).1⟩, ?_⟩
      intro middle reached
      obtain ⟨next, moved, rest⟩ := (machine.run_cons_some).mp reached
      exact ((inductionHypothesis next).mp (later next moved)).2 middle rest
    · rintro ⟨⟨here, first⟩, second⟩
      refine ⟨here, fun next moved => (inductionHypothesis next).mpr ⟨first next moved, ?_⟩⟩
      intro middle rest
      exact second middle ((machine.run_cons_some).mpr ⟨next, moved, rest⟩)

/-- A guard that preserves an invariant, and under it grants a property of the
step, grants the property along every guarded run. -/
theorem along_of_guard (Invariant : σ → Prop) (Guard Property : σ → ε → Prop)
    (granted : ∀ state event, Invariant state → Guard state event → Property state event)
    (preserved : ∀ state event next, Invariant state → Guard state event →
      machine.step state event = some next → Invariant next)
    (state : σ) (events : List ε) (initial : Invariant state)
    (guarded : machine.Along Guard state events) : machine.Along Property state events := by
  induction events generalizing state with
  | nil => trivial
  | cons event events inductionHypothesis =>
    obtain ⟨here, later⟩ := guarded
    refine ⟨granted state event initial here, ?_⟩
    intro next moved
    exact inductionHypothesis next (preserved state event next initial here moved)
      (later next moved)

/-- A guard that under the invariant is equivalent to a property of the step
holds along exactly the runs along which the property does. -/
theorem along_iff_guard (Invariant : σ → Prop) (Guard Property : σ → ε → Prop)
    (equivalent : ∀ state event, Invariant state → (Guard state event ↔ Property state event))
    (preserved : ∀ state event next, Invariant state → Guard state event →
      machine.step state event = some next → Invariant next)
    (state : σ) (events : List ε) (initial : Invariant state) :
    machine.Along Property state events ↔ machine.Along Guard state events := by
  constructor
  · apply machine.along_of_guard Invariant Property Guard
    · intro state event holds here
      exact (equivalent state event holds).mpr here
    · intro state event next holds here moved
      exact preserved state event next holds ((equivalent state event holds).mpr here) moved
    · exact initial
  · apply machine.along_of_guard Invariant Guard Property
    · intro state event holds here
      exact (equivalent state event holds).mp here
    · exact preserved
    · exact initial

/-- An invariant preserved under a guard holds after every guarded run. -/
theorem guarded_invariant (Invariant : σ → Prop) (Guard : σ → ε → Prop)
    (preserved : ∀ state event next, Invariant state → Guard state event →
      machine.step state event = some next → Invariant next)
    (state final : σ) (events : List ε) (initial : Invariant state)
    (guarded : machine.Along Guard state events)
    (reached : machine.run state events = some final) : Invariant final := by
  induction events generalizing state with
  | nil => exact Option.some.inj reached ▸ initial
  | cons event events inductionHypothesis =>
    obtain ⟨next, moved, rest⟩ := (machine.run_cons_some).mp reached
    exact inductionHypothesis next (preserved state event next initial guarded.1 moved)
      (guarded.2 next moved) rest

/-- Relations that agree on every step taken hold along the same completed runs. -/
theorem along_congr_run (Invariant : σ → Prop) (Allowed : ε → Prop) (First Second : σ → ε → Prop)
    (agree : ∀ state event next, Invariant state → Allowed event →
      machine.step state event = some next →
      Invariant next ∧ (First state event ↔ Second state event))
    (state final : σ) (events : List ε) (initial : Invariant state)
    (allowed : ∀ event ∈ events, Allowed event) (reached : machine.run state events = some final) :
    machine.Along First state events ↔ machine.Along Second state events := by
  induction events generalizing state with
  | nil => exact Iff.rfl
  | cons event events inductionHypothesis =>
    obtain ⟨next, moved, rest⟩ := (machine.run_cons_some).mp reached
    obtain ⟨kept, here⟩ := agree state event next initial (allowed event (by simp)) moved
    have later := inductionHypothesis next kept
      (fun other member => allowed other (by simp [member])) rest
    have only : ∀ Relation : σ → ε → Prop,
        (∀ other, machine.step state event = some other → machine.Along Relation other events) ↔
          machine.Along Relation next events := by
      intro Relation
      constructor
      · exact fun along => along next moved
      · intro along other step
        exact Option.some.inj (moved.symm.trans step) ▸ along
    rw [Along, Along, here, only, only, later]

/-- If steps that meet a guard lead to good states, a completed run from a good state that
is guarded is one in good states. -/
theorem along_good_iff (Invariant Good : σ → Prop) (Allowed : ε → Prop) (Guard : σ → ε → Prop)
    (leads : ∀ state event next, Invariant state → Allowed event →
      machine.step state event = some next → Invariant next ∧ (Guard state event → Good next))
    (state final : σ) (events : List ε) (initial : Invariant state) (good : Good state)
    (allowed : ∀ event ∈ events, Allowed event) (reached : machine.run state events = some final) :
    (machine.Along (fun state event => Good state ∧ Guard state event) state events ∧ Good final) ↔
      machine.Along Guard state events := by
  rw [along_and]
  constructor
  · exact fun along => along.1.2
  · intro guarded
    have states : machine.Along (fun state _ => Good state) state events ∧ Good final := by
      induction events generalizing state with
      | nil => exact ⟨trivial, Option.some.inj reached ▸ good⟩
      | cons event events inductionHypothesis =>
        obtain ⟨next, moved, rest⟩ := (machine.run_cons_some).mp reached
        obtain ⟨kept, here⟩ := leads state event next initial (allowed event (by simp)) moved
        obtain ⟨later, last⟩ := inductionHypothesis next kept (here guarded.1)
          (fun other member => allowed other (by simp [member])) rest (guarded.2 next moved)
        refine ⟨⟨good, fun other step => ?_⟩, last⟩
        obtain rfl := Option.some.inj (moved.symm.trans step)
        exact later
    exact ⟨⟨states.1, guarded⟩, states.2⟩

section Extended

variable {τ : Type w} (extra : τ → ε)

/-- A guard that extra events always meet grants a property along the guarded run
and all its extensions by such events. -/
theorem along_extended (Invariant : σ → Prop) (Guard Property : σ → ε → Prop)
    (granted : ∀ state event, Invariant state → Guard state event → Property state event)
    (preserved : ∀ state event next, Invariant state → Guard state event →
      machine.step state event = some next → Invariant next)
    (always : ∀ state choice, Guard state (extra choice)) (state : σ) (events : List ε)
    (initial : Invariant state) (guarded : machine.Along Guard state events) (choices : List τ) :
    machine.Along Property state (events ++ choices.map extra) := by
  have extension : ∀ middle, machine.Along Guard middle (choices.map extra) := by
    induction choices with
    | nil => exact fun _ => trivial
    | cons choice choices inductionHypothesis =>
      exact fun middle => ⟨always middle choice, fun next _ => inductionHypothesis next⟩
  exact machine.along_of_guard Invariant Guard Property granted preserved state _ initial
    ((machine.along_append Guard state events _).mpr ⟨guarded, fun middle _ => extension middle⟩)

variable (Tracked Doomed : σ → Prop) (Guard Property : σ → ε → Prop)
  (tracks : ∀ state event next, Tracked state → machine.step state event = some next → Tracked next)
  (persists : ∀ state event next, Tracked state → Doomed state → Property state event →
    machine.step state event = some next → Doomed next)
  (betrayed : ∀ state, Tracked state → Doomed state →
    ¬ ∀ choices : List τ, machine.Along Property state (choices.map extra))
include tracks persists betrayed

/-- A run that keeps a property in all its extensions does not start doomed, if
doom lasts and some extension of a doomed state breaks the property. -/
theorem not_doomed (state final : σ) (events : List ε) (initial : Tracked state)
    (reached : machine.run state events = some final)
    (kept : ∀ choices : List τ, machine.Along Property state (events ++ choices.map extra)) :
    ¬ Doomed state := by
  intro doomed
  induction events generalizing state with
  | nil => exact betrayed state initial doomed kept
  | cons event events inductionHypothesis =>
    obtain ⟨next, moved, rest⟩ := (machine.run_cons_some).mp reached
    exact inductionHypothesis next (tracks state event next initial moved) rest
      (fun choices => (kept choices).2 next moved)
      (persists state event next initial doomed (kept []).1 moved)

/-- If steps that break a guard lead to doom, a run that keeps the property in all
its extensions is guarded. -/
theorem guard_of_extended
    (justified : ∀ state event next, Tracked state → machine.step state event = some next →
      ¬ Doomed next → Guard state event)
    (state final : σ) (events : List ε) (initial : Tracked state)
    (reached : machine.run state events = some final)
    (kept : ∀ choices : List τ, machine.Along Property state (events ++ choices.map extra)) :
    machine.Along Guard state events := by
  induction events generalizing state with
  | nil => trivial
  | cons event events inductionHypothesis =>
    obtain ⟨next, moved, rest⟩ := (machine.run_cons_some).mp reached
    have later := fun choices => (kept choices).2 next moved
    have trackedNext := tracks state event next initial moved
    have saved := machine.not_doomed extra Tracked Doomed Property tracks persists betrayed next
      final events trackedNext rest later
    refine ⟨justified state event next initial moved saved, fun other step => ?_⟩
    obtain rfl := Option.some.inj (moved.symm.trans step)
    exact inductionHypothesis next trackedNext rest later

end Extended

/-- If a relation can be decided, it can be decided whether it holds along a run. -/
instance decidableAlong (Relation : σ → ε → Prop)
    [∀ state event, Decidable (Relation state event)] (state : σ) :
    (events : List ε) → Decidable (machine.Along Relation state events)
  | [] => isTrue trivial
  | event :: events =>
    match moved : machine.step state event with
    | none => decidable_of_iff (Relation state event)
        ⟨fun here => ⟨here, fun next other => by rw [moved] at other; cases other⟩, And.left⟩
    | some next =>
      have := decidableAlong Relation next events
      decidable_of_iff (Relation state event ∧ machine.Along Relation next events)
        ⟨fun along =>
            ⟨along.1, fun other same => Option.some.inj (moved.symm.trans same) ▸ along.2⟩,
          fun along => ⟨along.1, along.2 next moved⟩⟩

/-- Two runs behind each other are a run. -/
theorem run_joined {state middle final : σ} {first second : List ε}
    (toMiddle : machine.run state first = some middle)
    (toFinal : machine.run middle second = some final) :
    machine.run state (first ++ second) = some final := by
  induction first generalizing state with
  | nil => rwa [Option.some.inj toMiddle]
  | cons event first inductionHypothesis =>
    obtain ⟨next, moved, rest⟩ := (machine.run_cons_some).mp toMiddle
    exact (machine.run_cons_some).mpr ⟨next, moved, inductionHypothesis rest⟩

section Simulated

universe x
variable {τ : Type w} {φ : Type x} (abstract : Machine τ φ) (Related : σ → τ → Prop)

/-- A machine that follows every guarded step of another by a run of its own follows
its guarded runs. -/
theorem guarded_simulated (Guard : σ → ε → Prop)
    (follows : ∀ state event next other, Related state other → Guard state event →
      machine.step state event = some next →
      ∃ events later, abstract.run other events = some later ∧ Related next later)
    (state final : σ) (other : τ) (events : List ε) (initial : Related state other)
    (guarded : machine.Along Guard state events) (reached : machine.run state events = some final) :
    ∃ events later, abstract.run other events = some later ∧ Related final later := by
  induction events generalizing state other with
  | nil => exact ⟨[], other, rfl, Option.some.inj reached ▸ initial⟩
  | cons event events inductionHypothesis =>
    obtain ⟨next, moved, rest⟩ := (machine.run_cons_some).mp reached
    obtain ⟨first, middle, toMiddle, related⟩ :=
      follows state event next other initial guarded.1 moved
    obtain ⟨second, later, toLater, final⟩ :=
      inductionHypothesis next middle related (guarded.2 next moved) rest
    exact ⟨first ++ second, later, abstract.run_joined toMiddle toLater, final⟩

end Simulated

end Machine

end Evlpc.Library
