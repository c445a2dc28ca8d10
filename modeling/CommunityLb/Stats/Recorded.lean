import CommunityLb.Stats.Hours
import CommunityLb.Stats.Report

/-!
# The service's rings are recorded

The rings of a service, whose ticks read the entries of the day, are rings of the recorder, whose
ticks read anything.  What holds of all that the recorder does holds of the service.
-/

namespace CommunityLb

/-- The hour an event closes. -/
def ServiceEvent.start? : ServiceEvent → Option Nat
  | tick start | stop start => some start
  | _ => none

namespace Service

/-- What an event does to the rings. -/
def recorded (state : Service) : ServiceEvent → List RecorderEvent
  | .tick start => [.tick start state.snapshot state.outcomes, .save]
  | .stop start => [.stop start state.snapshot state.outcomes, .save]
  | .restart => [.restart]
  | _ => []

/-- The recorder has the service's rings and its file. -/
structure Follows (recorder : Recorder) (state : Service) : Prop where
  stats : recorder.stats = state.stats
  file : recorder.file = state.file

/-- One event of the service is some of the recorder, which closes no other hour. -/
theorem Follows.step {recorder : Recorder} {state next : Service} {event : ServiceEvent}
    (follows : Follows recorder state) (inOrder : ∀ start ∈ event.start?, recorder.latest ≤ start)
    (stepped : state.step event = some next) :
    ∃ after, Recorder.machine.Meets Recorder.InOrder recorder (state.recorded event) ∧
      Recorder.machine.run recorder (state.recorded event) = some after ∧ Follows after next ∧
        after.latest = event.start?.getD recorder.latest := by
  obtain ⟨stats, closedFor, file, fileClosedFor, latest⟩ := recorder
  obtain ⟨sameStats, sameFile⟩ := follows
  simp only at sameStats sameFile inOrder
  subst sameStats sameFile
  have unordered : ∀ {recorder : Recorder} {event : RecorderEvent}, event.start? = none →
      Recorder.InOrder recorder event := by
    intro recorder event none start isStart
    rw [none] at isStart
    cases isStart
  cases event with
  | tick start =>
      cases stepped
      refine ⟨_, .cons inOrder rfl (.cons (unordered rfl) rfl trivial), rfl, ⟨rfl, rfl⟩, rfl⟩
  | stop start =>
      cases stepped
      refine ⟨_, .cons inOrder rfl (.cons (unordered rfl) rfl trivial), rfl, ⟨rfl, rfl⟩, rfl⟩
  | restart =>
      cases stepped
      exact ⟨_, .cons (unordered rfl) rfl trivial, rfl, ⟨rfl, rfl⟩, rfl⟩
  | join | leave | serve | miss | outcome =>
      cases stepped
      exact ⟨_, trivial, rfl, ⟨rfl, rfl⟩, rfl⟩

/-- A run of the service whose hours are closed in order is one of the recorder. -/
theorem Follows.run {recorder : Recorder} {state finish : Service} {events : List ServiceEvent}
    (follows : Follows recorder state)
    (inOrder : (recorder.latest :: events.filterMap ServiceEvent.start?).Pairwise (· ≤ ·))
    (reached : machine.run state events = some finish) :
    ∃ recorded after, Recorder.machine.Meets Recorder.InOrder recorder recorded ∧
      Recorder.machine.run recorder recorded = some after ∧ Follows after finish := by
  induction events generalizing recorder state with
  | nil =>
      cases reached
      exact ⟨[], recorder, trivial, rfl, follows⟩
  | cons event events ih =>
      obtain ⟨next, stepped, rest⟩ := Machine.run_cons_eq_some.mp reached
      have here : ∀ start ∈ event.start?, recorder.latest ≤ start := by
        intro start isStart
        refine (List.pairwise_cons.mp inOrder).1 start ?_
        exact List.mem_filterMap.mpr ⟨event, List.mem_cons_self, isStart⟩
      obtain ⟨middle, meets, ran, followsNext, latest⟩ := follows.step here stepped
      have later : (middle.latest :: events.filterMap ServiceEvent.start?).Pairwise (· ≤ ·) := by
        rw [latest]
        cases isStart : event.start? with
        | none => simpa [isStart] using inOrder
        | some start =>
            rw [List.filterMap_cons_some isStart] at inOrder
            exact (List.pairwise_cons.mp inOrder).2
      obtain ⟨recorded, after, meetsRest, ranRest, followsFinish⟩ := ih followsNext later rest
      exact ⟨state.recorded event ++ recorded, after, meets.append ran meetsRest,
        Machine.run_append_eq_some.mpr ⟨middle, ran, ranRest⟩, followsFinish⟩

/-- Whatever the service counts, and whoever joins and leaves, its report pairs hours that are the
same. -/
theorem report_pairs {state : Service} {events : List ServiceEvent}
    (inOrder : (events.filterMap ServiceEvent.start?).Pairwise (· ≤ ·))
    (reached : machine.run initial events = some state) :
    (∀ named ∈ state.stats.providers.values, named.2.Paired) ∧ state.stats.lb.Paired := by
  have follows : Follows Recorder.initial initial := ⟨rfl, rfl⟩
  have inOrder : (Recorder.initial.latest :: events.filterMap ServiceEvent.start?).Pairwise
      (· ≤ ·) := List.pairwise_cons.mpr ⟨fun _ _ => Nat.zero_le _, inOrder⟩
  obtain ⟨recorded, recorder, meets, ran, same, _⟩ := follows.run inOrder reached
  have preserved : ∀ (before : Recorder) (event : RecorderEvent) (after : Recorder),
      before.Sound → Recorder.InOrder before event →
        Recorder.machine.step before event = some after → after.Sound := fun _ _ _ => .step
  have sound := Machine.run_invariant preserved .initial meets ran
  rw [← same]
  refine ⟨fun named member => ?_, sound.stats.lb.paired⟩
  have kept := sound.stats.providers named.1
  rw [Stats.ringsOf, Keyed.get?_key member] at kept
  exact kept.paired

end Service

end CommunityLb
