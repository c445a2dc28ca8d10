import Mathlib

/-!
# Partial machines and their runs

A machine answers an event in a state or refuses it.  A run is a list of events, all of them
answered.  The run rules below carry a property of one step to every run whose steps all meet a
condition on the state before them, and a run of one machine to steps of an abstract relation.
-/

/-- A machine that answers an event with the next state, or refuses it. -/
structure Machine (σ ε : Type*) where
  /-- One step. -/
  step : σ → ε → Option σ

namespace Machine

variable {σ ε τ : Type*}

/-- The state after a list of events, when every one of them is answered. -/
def run (machine : Machine σ ε) : σ → List ε → Option σ
  | state, [] => some state
  | state, event :: events => (machine.step state event).bind (machine.run · events)

/-- Every step along the events meets a condition on the state before it and its event. -/
def Meets (machine : Machine σ ε) (ok : σ → ε → Prop) : σ → List ε → Prop
  | _, [] => True
  | state, event :: events =>
      ok state event ∧ ∀ next, machine.step state event = some next → machine.Meets ok next events

@[simp]
theorem run_nil (machine : Machine σ ε) (state : σ) : machine.run state [] = some state :=
  rfl

theorem run_cons (machine : Machine σ ε) (state : σ) (event : ε) (events : List ε) :
    machine.run state (event :: events) =
      (machine.step state event).bind (machine.run · events) :=
  rfl

/-- A run over two lists of events passes through the state after the first. -/
theorem run_append (machine : Machine σ ε) (state : σ) (first second : List ε) :
    machine.run state (first ++ second) =
      (machine.run state first).bind (machine.run · second) := by
  induction first generalizing state with
  | nil => rfl
  | cons event events ih =>
      simp only [List.cons_append, run_cons]
      cases machine.step state event with
      | none => rfl
      | some next => exact ih next

theorem run_append_eq_some {machine : Machine σ ε} {state finish : σ} {first second : List ε} :
    machine.run state (first ++ second) = some finish ↔
      ∃ middle, machine.run state first = some middle ∧
        machine.run middle second = some finish := by
  rw [run_append, Option.bind_eq_some_iff]

theorem run_cons_eq_some {machine : Machine σ ε} {state finish : σ} {event : ε}
    {events : List ε} :
    machine.run state (event :: events) = some finish ↔
      ∃ next, machine.step state event = some next ∧ machine.run next events = some finish := by
  rw [run_cons, Option.bind_eq_some_iff]

@[simp]
theorem meets_nil (machine : Machine σ ε) (ok : σ → ε → Prop) (state : σ) :
    machine.Meets ok state [] :=
  trivial

/-- Whether a condition is met along a run can be computed, when the condition can. -/
instance decidableMeets (machine : Machine σ ε) (ok : σ → ε → Prop)
    [∀ state event, Decidable (ok state event)] :
    ∀ (state : σ) (events : List ε), Decidable (machine.Meets ok state events)
  | _, [] => isTrue trivial
  | state, event :: events =>
      match stepped : machine.step state event with
      | none => decidable_of_iff (ok state event) (by simp [Meets, stepped])
      | some next =>
          have := decidableMeets machine ok next events
          decidable_of_iff (ok state event ∧ machine.Meets ok next events)
            (by simp [Meets, stepped])

/-- The condition along a run splits where the run does. -/
theorem meets_append {machine : Machine σ ε} {ok : σ → ε → Prop} {state middle : σ}
    {first second : List ε} (meets : machine.Meets ok state (first ++ second))
    (reached : machine.run state first = some middle) :
    machine.Meets ok state first ∧ machine.Meets ok middle second := by
  induction first generalizing state with
  | nil =>
      obtain rfl : state = middle := by simpa using reached
      exact ⟨trivial, meets⟩
  | cons event events ih =>
      obtain ⟨next, stepped, rest⟩ := run_cons_eq_some.mp reached
      obtain ⟨head, tail⟩ := meets
      have later := ih (tail next stepped) rest
      refine ⟨⟨head, fun other found => ?_⟩, later.2⟩
      obtain rfl : next = other := Option.some.inj (stepped.symm.trans found)
      exact later.1

/-- Along one run and then another a condition is met, where it is met along both. -/
theorem Meets.append {machine : Machine σ ε} {ok : σ → ε → Prop} {state middle : σ}
    {first second : List ε} (meets : machine.Meets ok state first)
    (reached : machine.run state first = some middle) (rest : machine.Meets ok middle second) :
    machine.Meets ok state (first ++ second) := by
  induction first generalizing state with
  | nil =>
      obtain rfl : state = middle := by simpa using reached
      exact rest
  | cons event events ih =>
      obtain ⟨next, stepped, remaining⟩ := run_cons_eq_some.mp reached
      refine ⟨meets.1, fun other found => ?_⟩
      obtain rfl : next = other := Option.some.inj (stepped.symm.trans found)
      exact ih (meets.2 next stepped) remaining

/-- A weaker condition is met along the same run. -/
theorem Meets.mono {machine : Machine σ ε} {ok weaker : σ → ε → Prop}
    (le : ∀ state event, ok state event → weaker state event) {state : σ} {events : List ε}
    (meets : machine.Meets ok state events) : machine.Meets weaker state events := by
  induction events generalizing state with
  | nil => trivial
  | cons event events ih =>
      exact ⟨le _ _ meets.1, fun next stepped => ih (meets.2 next stepped)⟩

/-- A condition is met along a run step by step. -/
theorem Meets.cons {machine : Machine σ ε} {ok : σ → ε → Prop} {state next : σ} {event : ε}
    {events : List ε} (here : ok state event) (stepped : machine.step state event = some next)
    (rest : machine.Meets ok next events) : machine.Meets ok state (event :: events) := by
  refine ⟨here, fun other isOther => ?_⟩
  obtain rfl := Option.some.inj (stepped.symm.trans isOther)
  exact rest

/-- Two conditions met along a run are met together. -/
theorem Meets.and {machine : Machine σ ε} {ok also : σ → ε → Prop} {state : σ} {events : List ε}
    (first : machine.Meets ok state events) (second : machine.Meets also state events) :
    machine.Meets (fun state event => ok state event ∧ also state event) state events := by
  induction events generalizing state with
  | nil => trivial
  | cons event events ih =>
      exact ⟨⟨first.1, second.1⟩, fun next stepped =>
        ih (first.2 next stepped) (second.2 next stepped)⟩

/-- What one step preserves under the condition, a run that meets the condition preserves. -/
theorem run_invariant {machine : Machine σ ε} {ok : σ → ε → Prop} {holds : σ → Prop}
    (preserved : ∀ state event next,
      holds state → ok state event → machine.step state event = some next → holds next)
    {state finish : σ} {events : List ε} (initial : holds state)
    (meets : machine.Meets ok state events) (reached : machine.run state events = some finish) :
    holds finish := by
  induction events generalizing state with
  | nil =>
      obtain rfl : state = finish := by simpa using reached
      exact initial
  | cons event events ih =>
      obtain ⟨next, stepped, rest⟩ := run_cons_eq_some.mp reached
      exact ih (preserved state event next initial meets.1 stepped) (meets.2 next stepped) rest

/-- What every step preserves, every run preserves. -/
theorem run_preserves {machine : Machine σ ε} {holds : σ → Prop}
    (preserved : ∀ state event next,
      holds state → machine.step state event = some next → holds next)
    {state finish : σ} {events : List ε} (initial : holds state)
    (reached : machine.run state events = some finish) : holds finish := by
  induction events generalizing state with
  | nil =>
      obtain rfl : state = finish := by simpa using reached
      exact initial
  | cons event events ih =>
      obtain ⟨next, stepped, rest⟩ := run_cons_eq_some.mp reached
      exact ih (preserved state event next initial stepped) rest

/-- Two conditions that mean the same wherever an invariant holds are met along the same runs. -/
theorem meets_congr {machine : Machine σ ε} {first second : σ → ε → Prop} {holds : σ → Prop}
    (preserved : ∀ state event next,
      holds state → machine.step state event = some next → holds next)
    (same : ∀ state event, holds state → (first state event ↔ second state event))
    {state : σ} (initial : holds state) (events : List ε) :
    machine.Meets first state events ↔ machine.Meets second state events := by
  induction events generalizing state with
  | nil => exact Iff.rfl
  | cons event events ih =>
      refine and_congr (same state event initial) (forall_congr' fun next => ?_)
      exact imp_congr_right fun stepped => ih (preserved state event next initial stepped)

/-! ## Watching a machine -/

/-- A machine that is watched: beside its state something is kept of each step. -/
def watched (machine : Machine σ ε) (keep : τ → σ → ε → σ → τ) : Machine (σ × τ) ε where
  step both event :=
    (machine.step both.1 event).map fun next => (next, keep both.2 both.1 event next)

/-- Watching a machine does not change its runs. -/
theorem meets_watched (machine : Machine σ ε) (keep : τ → σ → ε → σ → τ) (ok : σ → ε → Prop)
    (both : σ × τ) (events : List ε) :
    (machine.watched keep).Meets (fun both event => ok both.1 event) both events ↔
      machine.Meets ok both.1 events := by
  induction events generalizing both with
  | nil => exact Iff.rfl
  | cons event events ih =>
      refine and_congr_right fun _ => ⟨fun rest next stepped => ?_, fun rest next stepped => ?_⟩
      · have later : (machine.watched keep).step both event =
            some (next, keep both.2 both.1 event next) := by
          simp [watched, stepped]
        exact (ih _).mp (rest _ later)
      · obtain ⟨after, ran, rfl⟩ := Option.map_eq_some_iff.mp stepped
        exact (ih _).mpr (rest after ran)

/-- A run of the watched machine is one of the machine. -/
theorem run_of_watched {machine : Machine σ ε} {keep : τ → σ → ε → σ → τ} {both after : σ × τ}
    {events : List ε} (reached : (machine.watched keep).run both events = some after) :
    machine.run both.1 events = some after.1 := by
  induction events generalizing both with
  | nil =>
      cases reached
      rfl
  | cons event events ih =>
      obtain ⟨middle, stepped, rest⟩ := run_cons_eq_some.mp reached
      obtain ⟨next, ran, rfl⟩ := Option.map_eq_some_iff.mp stepped
      exact run_cons_eq_some.mpr ⟨next, ran, ih rest⟩

/-! ## Refinement -/

/-- A relation's invariant holds of every state its steps lead to. -/
theorem reaches_invariant {Step : τ → τ → Prop} {holds : τ → Prop}
    (preserved : ∀ before after, holds before → Step before after → holds after)
    {before after : τ} (initial : holds before) (reaches : Relation.ReflTransGen Step before after) :
    holds after := by
  induction reaches with
  | refl => exact initial
  | tail _ step ih => exact preserved _ _ ih step

end Machine
