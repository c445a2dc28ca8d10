import CommunityLb.Health.Entry
import CommunityLb.Lib.Machine

/-!
# A sweep over one provider, and the admission of its tunnel

The Monitor runs one sweep after another.  Over one provider a sweep goes through steps with waits
in between, and the admission of the provider's tunnel can come at any of them.
-/

namespace CommunityLb

/-- Where a sweep stands with one provider. -/
inductive SweepPhase where
  /-- Not looked at yet. -/
  | listed
  /-- Due. -/
  | due
  /-- Its chain check is on its way. -/
  | checking
  /-- Its probe is on its way. -/
  | probing
  /-- Its probe went unanswered. -/
  | unanswered
  | handled
  deriving DecidableEq, Repr

/-- One sweep, as far as it concerns the provider. -/
structure Sweep where
  /-- The instant every decision of the sweep is made at. -/
  began : Instant
  chainRound : Bool
  referenceHeight : Option Nat
  phase : SweepPhase
  /-- The tunnel was admitted since the sweep began. -/
  overtaken : Bool
  deriving DecidableEq, Repr

/-- A provider, the sweep that runs, and whether an admission of its tunnel is still owed a probe. -/
structure Monitored where
  now : Instant
  provider : Watched
  sweep : Option Sweep
  /-- No sweep begun since the latest admission has handled the provider. -/
  awaited : Bool
  /-- The chain check that the latest admission asked for was taken up and made. -/
  served : Bool

/-- What happens around one provider. -/
inductive SweepEvent where
  | pass (duration : Duration)
  | begin (chainRound : Bool) (referenceHeight : Option Nat)
  | readDue
  | takeCheck
  | checked (answer : Option Nat)
  | probed (height : Option Nat)
  | reschedule
  | finish
  /-- The tunnel is admitted: `schedule_probe_now`. -/
  | admitted

namespace Monitored

variable (config : Health)

/-- The sweep goes on to another step. -/
def proceed (state : Monitored) (sweep : Sweep) (provider : Watched) (phase : SweepPhase) :
    Monitored :=
  { state with
    provider := provider
    sweep := some { sweep with phase := phase } }

/-- The sweep is done with the provider. -/
def handle (state : Monitored) (sweep : Sweep) (provider : Watched) : Monitored :=
  { state.proceed sweep provider .handled with awaited := state.awaited && sweep.overtaken }

/-- The provider is probed once it is cleared. -/
def cleared (state : Monitored) (sweep : Sweep) (provider : Watched) : Monitored :=
  if provider.chainVerified then state.proceed sweep provider .probing
  else state.handle sweep provider

/-- The request for a chain check is taken; the check is made when it was there or in a chain
round. -/
def takeCheck (state : Monitored) (sweep : Sweep) : Monitored :=
  match config.chainId with
  | none => state.proceed sweep state.provider .probing
  | some _ =>
      let (asked, provider) := state.provider.takeChainCheckDue
      if sweep.chainRound || asked then state.proceed sweep provider .checking
      else state.cleared sweep provider

/-- The chain check was answered, or not. -/
def checked (state : Monitored) (sweep : Sweep) (answer : Option Nat) : Monitored :=
  match config.chainId with
  | none => state
  | some expected =>
      { state with served := state.served || !state.provider.chainCheckDue }.cleared sweep
        (state.provider.verifyChain expected answer)

/-- The probe was answered, or not. -/
def probed (state : Monitored) (sweep : Sweep) (height : Option Nat) : Monitored :=
  let (answered, provider) := state.provider.probe config sweep.referenceHeight height state.now
  if answered then state.handle sweep provider else state.proceed sweep provider .unanswered

/-- One event, where it can happen. -/
def step (state : Monitored) : SweepEvent → Option Monitored
  | .pass duration => some { state with now := state.now + duration }
  | .begin chainRound referenceHeight =>
      if state.sweep.isNone then
        some
          { state with
            sweep := some
              { began := state.now
                chainRound := chainRound
                referenceHeight := referenceHeight
                phase := .listed
                overtaken := false } }
      else none
  | .readDue =>
      (state.sweep.filter (·.phase = .listed)).map fun sweep =>
        if state.provider.nextProbe ≤ sweep.began then state.proceed sweep state.provider .due
        else state.handle sweep state.provider
  | .takeCheck =>
      (state.sweep.filter (·.phase = .due)).map fun sweep => state.takeCheck config sweep
  | .checked answer =>
      (state.sweep.filter (·.phase = .checking)).map fun sweep =>
        state.checked config sweep answer
  | .probed height =>
      (state.sweep.filter (·.phase = .probing)).map fun sweep => state.probed config sweep height
  | .reschedule =>
      (state.sweep.filter (·.phase = .unanswered)).map fun sweep =>
        state.handle sweep (state.provider.rescheduleUnanswered config sweep.began)
  | .finish => (state.sweep.filter (·.phase = .handled)).map fun _ => { state with sweep := none }
  | .admitted =>
      some
        { state with
          provider := state.provider.scheduleProbeNow state.now
          sweep := state.sweep.map fun sweep => { sweep with overtaken := true }
          awaited := true
          served := false }

/-- The Monitor over one provider. -/
def machine : Machine Monitored SweepEvent where
  step := step config

/-- A provider before its first sweep. -/
def joined (provider : Provider) (now : Instant) : Monitored where
  now := now
  provider := .born provider now
  sweep := none
  awaited := false
  served := false

/-- The provider is due, and its chain check is asked for, on its way, or made. -/
def Owed (state : Monitored) : Prop :=
  state.awaited = true →
    state.provider.nextProbe ≤ state.now ∧
      (state.provider.chainCheckDue = true ∨ state.served = true ∨
        state.sweep.any (·.phase = .checking) = true)

instance (state : Monitored) : Decidable state.Owed :=
  inferInstanceAs (Decidable (_ → _))

/-- A sweep that puts the next probe off has not been overtaken by an admission, or the wait is over
already. -/
def NotOvertaken (state : Monitored) : SweepEvent → Prop
  | .reschedule =>
      ∀ sweep ∈ state.sweep, sweep.overtaken = true →
        sweep.began + probeDelay config state.provider.unansweredProbeStreak ≤ state.now
  | _ => True

instance (state : Monitored) : (event : SweepEvent) → Decidable (NotOvertaken config state event)
  | .reschedule => by unfold NotOvertaken; infer_instance
  | .pass _ | .begin _ _ | .readDue | .takeCheck | .checked _ | .probed _ | .finish | .admitted =>
      isTrue trivial

variable {config} {state next : Monitored}

/-- What an admission asks for is there, and a sweep under way began in the past. -/
structure Kept (state : Monitored) : Prop where
  owed : state.Owed
  began : ∀ sweep ∈ state.sweep, sweep.began ≤ state.now
  /-- Until a sweep that an admission did not overtake has handled it, a provider stays due. -/
  fresh : ∀ sweep ∈ state.sweep, sweep.overtaken = false → state.awaited = true →
    state.provider.nextProbe ≤ sweep.began

/-- The sweep goes on, the provider as due as before. -/
theorem Kept.proceed (kept : state.Kept) {sweep : Sweep} {provider : Watched} {phase : SweepPhase}
    (runs : state.sweep = some sweep) (due : provider.nextProbe = state.provider.nextProbe)
    (check : state.provider.chainCheckDue = true ∨ state.served = true ∨
      sweep.phase = .checking → provider.chainCheckDue = true ∨ state.served = true ∨
        phase = .checking) : (state.proceed sweep provider phase).Kept where
  owed := by
    intro awaited
    obtain ⟨isDue, asked⟩ := kept.owed awaited
    refine ⟨due ▸ isDue, ?_⟩
    simpa [Monitored.proceed] using check (by simpa [runs] using asked)
  began := by
    rintro _ ⟨⟩
    exact kept.began sweep runs
  fresh := by
    rintro _ ⟨⟩ notOvertaken awaited
    exact due ▸ kept.fresh sweep runs notOvertaken awaited

/-- The sweep is done with the provider, which stays due where an admission overtook the sweep. -/
theorem Kept.handle (kept : state.Kept) {sweep : Sweep} {provider : Watched}
    (runs : state.sweep = some sweep)
    (due : sweep.overtaken = true → state.provider.nextProbe ≤ state.now →
      provider.nextProbe ≤ state.now)
    (check : state.provider.chainCheckDue = true ∨ state.served = true ∨
      sweep.phase = .checking → provider.chainCheckDue = true ∨ state.served = true) :
    (state.handle sweep provider).Kept where
  owed := by
    intro awaited
    obtain ⟨still, overtaken⟩ := Bool.and_eq_true_iff.mp awaited
    obtain ⟨isDue, asked⟩ := kept.owed still
    refine ⟨due overtaken isDue, ?_⟩
    exact (check (by simpa [runs] using asked)).imp_right .inl
  began := by
    rintro _ ⟨⟩
    exact kept.began sweep runs
  fresh := by
    rintro _ ⟨⟩ notOvertaken awaited
    obtain ⟨_, overtaken⟩ := Bool.and_eq_true_iff.mp awaited
    exact absurd (notOvertaken.symm.trans overtaken) Bool.false_ne_true

/-- A provider cleared or not is as due as before. -/
theorem Kept.cleared (kept : state.Kept) {sweep : Sweep} {provider : Watched}
    (runs : state.sweep = some sweep) (due : provider.nextProbe = state.provider.nextProbe)
    (check : state.provider.chainCheckDue = true ∨ state.served = true ∨
      sweep.phase = .checking → provider.chainCheckDue = true ∨ state.served = true) :
    (state.cleared sweep provider).Kept := by
  rw [Monitored.cleared]
  split
  · exact kept.proceed runs due fun asked => (check asked).imp_right .inl
  · exact kept.handle runs (fun _ isDue => due ▸ isDue) check

theorem verifyChain_kept (provider : Watched) (expected : Nat) (answer : Option Nat) :
    (provider.verifyChain expected answer).nextProbe = provider.nextProbe ∧
      (provider.verifyChain expected answer).chainCheckDue = provider.chainCheckDue := by
  cases answer with
  | none => exact ⟨rfl, rfl⟩
  | some actual =>
      simp only [Watched.verifyChain]
      split <;> exact ⟨rfl, rfl⟩

theorem recordHealth_kept (provider : Watched) (success : Bool) (flipAfter : Nat)
    (source : HealthSignal) :
    (provider.recordHealth success flipAfter source).nextProbe = provider.nextProbe ∧
      (provider.recordHealth success flipAfter source).chainCheckDue = provider.chainCheckDue := by
  simp only [Watched.recordHealth]
  split
  · exact ⟨rfl, rfl⟩
  · split <;> exact ⟨rfl, rfl⟩

theorem probe_kept (config : Health) (provider : Watched) (referenceHeight height : Option Nat)
    (now : Instant) :
    (provider.probe config referenceHeight height now).2.nextProbe = provider.nextProbe ∧
      (provider.probe config referenceHeight height now).2.chainCheckDue =
        provider.chainCheckDue := by
  cases height with
  | none => exact recordHealth_kept _ _ _ _
  | some height =>
      simp only [Watched.probe]
      split
      · exact recordHealth_kept _ _ _ _
      · exact recordHealth_kept _ _ _ _

/-- One step keeps what an admission asked for, when no probe that it overtook is put off. -/
theorem Kept.step {event : SweepEvent} (kept : state.Kept)
    (notOvertaken : state.NotOvertaken config event)
    (stepped : state.step config event = some next) : next.Kept := by
  have runs : ∀ {phase : SweepPhase} {sweep : Sweep},
      state.sweep.filter (·.phase = phase) = some sweep →
        state.sweep = some sweep ∧ sweep.phase = phase := by
    intro phase sweep found
    simpa [Option.filter_eq_some_iff] using found
  cases event with
  | pass duration =>
      cases stepped
      refine ⟨fun awaited => ?_, fun sweep member => ?_, kept.fresh⟩
      · obtain ⟨isDue, check⟩ := kept.owed awaited
        exact ⟨isDue.trans (Nat.le_add_right _ _), check⟩
      · exact (kept.began sweep member).trans (Nat.le_add_right _ _)
  | begin chainRound referenceHeight =>
      simp only [Monitored.step] at stepped
      split at stepped
      · next idle =>
          cases stepped
          have none : state.sweep = none := by simpa using idle
          refine ⟨fun awaited => ?_, ?_, ?_⟩
          · obtain ⟨isDue, check⟩ := kept.owed awaited
            refine ⟨isDue, check.imp_right fun served => ?_⟩
            exact served.imp_right fun checking => by simp [none] at checking
          · rintro _ ⟨⟩
            exact le_rfl
          · rintro _ ⟨⟩ _ awaited
            exact (kept.owed awaited).1
      · cases stepped
  | readDue =>
      obtain ⟨sweep, found, rfl⟩ := Option.map_eq_some_iff.mp stepped
      obtain ⟨isSweep, phase⟩ := runs found
      split
      · exact kept.proceed isSweep rfl fun asked => by simpa [phase] using asked
      · exact kept.handle isSweep (fun _ isDue => isDue) fun asked => by simpa [phase] using asked
  | takeCheck =>
      obtain ⟨sweep, found, rfl⟩ := Option.map_eq_some_iff.mp stepped
      obtain ⟨isSweep, phase⟩ := runs found
      simp only [Monitored.takeCheck]
      split
      · exact kept.proceed isSweep rfl fun asked => by simpa [phase] using asked
      · by_cases made : (sweep.chainRound || state.provider.takeChainCheckDue.1) = true
        · rw [if_pos made]
          exact kept.proceed isSweep rfl fun _ => .inr (.inr rfl)
        · rw [if_neg made]
          -- Nothing was asked for, so nothing is lost.
          have none : state.provider.chainCheckDue = false := by
            simp only [Bool.or_eq_true, not_or, Bool.not_eq_true] at made
            exact made.2
          exact kept.cleared isSweep rfl fun asked => .inr (by simpa [phase, none] using asked)
  | checked answer =>
      obtain ⟨sweep, found, rfl⟩ := Option.map_eq_some_iff.mp stepped
      obtain ⟨isSweep, phase⟩ := runs found
      simp only [Monitored.checked]
      split
      · exact kept
      · next expected _ =>
          obtain ⟨due, check⟩ := verifyChain_kept state.provider expected answer
          have made : ({ state with served := state.served || !state.provider.chainCheckDue } :
              Monitored).Kept := by
            refine ⟨fun awaited => ?_, kept.began, kept.fresh⟩
            obtain ⟨isDue, asked⟩ := kept.owed awaited
            exact ⟨isDue, asked.imp_right fun served => served.imp_left fun yes => by simp [yes]⟩
          refine made.cleared isSweep due fun _ => ?_
          rw [check]
          cases state.provider.chainCheckDue <;> simp
  | probed height =>
      obtain ⟨sweep, found, rfl⟩ := Option.map_eq_some_iff.mp stepped
      obtain ⟨isSweep, phase⟩ := runs found
      obtain ⟨due, check⟩ := probe_kept config state.provider sweep.referenceHeight
        height state.now
      simp only [Monitored.probed]
      split
      · exact kept.handle isSweep (fun _ isDue => due ▸ isDue) fun asked => by
          rw [check]
          simpa [phase] using asked
      · exact kept.proceed isSweep due fun asked => by
          rw [check]
          simpa [phase] using asked
  | reschedule =>
      obtain ⟨sweep, found, rfl⟩ := Option.map_eq_some_iff.mp stepped
      obtain ⟨isSweep, phase⟩ := runs found
      exact kept.handle isSweep (fun overtaken _ => notOvertaken sweep isSweep overtaken)
        fun asked => by simpa [phase, Watched.rescheduleUnanswered] using asked
  | finish =>
      obtain ⟨sweep, found, rfl⟩ := Option.map_eq_some_iff.mp stepped
      obtain ⟨isSweep, phase⟩ := runs found
      refine ⟨fun awaited => ?_, fun _ member => (nomatch member), fun _ member => (nomatch member)⟩
      obtain ⟨isDue, check⟩ := kept.owed awaited
      exact ⟨isDue, by simpa [isSweep, phase] using check⟩
  | admitted =>
      cases stepped
      refine ⟨fun _ => ⟨le_rfl, .inl rfl⟩, ?_, ?_⟩
      · intro sweep member
        obtain ⟨before, isSweep, rfl⟩ := Option.map_eq_some_iff.mp member
        exact kept.began before isSweep
      · intro sweep member notOver
        obtain ⟨before, isSweep, rfl⟩ := Option.map_eq_some_iff.mp member
        cases notOver

/-- Where no sweep puts off a probe that an admission overtook, an admitted tunnel's provider stays
due, and its chain check asked for, on its way or made, until a later sweep has handled it. -/
theorem owed_of_notOvertaken {provider : Provider} {now : Instant} {events : List SweepEvent}
    {state : Monitored}
    (meets : (machine config).Meets (NotOvertaken config) (joined provider now) events)
    (reached : (machine config).run (joined provider now) events = some state) : state.Owed := by
  have start : (joined provider now).Kept :=
    ⟨fun awaited => (nomatch awaited), fun _ member => (nomatch member),
      fun _ member => (nomatch member)⟩
  have preserved : ∀ (before : Monitored) (event : SweepEvent) (after : Monitored),
      before.Kept → before.NotOvertaken config event →
      (machine config).step before event = some after → after.Kept :=
    fun _ _ _ kept fine stepped => kept.step fine stepped
  exact (Machine.run_invariant preserved start meets reached).owed

/-- Probed every five seconds, at most five minutes apart. -/
def everyFive : Health where
  probeInterval := Duration.fromSecs 5
  probeTimeout := Duration.fromSecs 2
  flipAfter := 2
  maxProbeBackoff := Duration.fromSecs 300
  refHeightInterval := Duration.fromSecs 60
  chainidCheckInterval := Duration.fromSecs 300
  chainId := none
  lagToleranceBlocks := 30

/-- A probe fails and is put off, the tunnel is admitted after it, and the next sweep takes it up; that
one is overtaken by another admission, and puts the probe off when its wait is over already. -/
def putOffInTime : List SweepEvent :=
  [.begin false none, .readDue, .takeCheck, .probed none, .reschedule, .finish,
    .pass (Duration.fromSecs 1), .admitted, .begin false none, .readDue, .takeCheck, .admitted,
    .pass (Duration.fromSecs 5), .probed none, .reschedule, .finish]

theorem admitted_stays_due : ∃ state, (machine everyFive).run
    (joined (Provider.new "near" "http://near" .static) 0) putOffInTime = some state ∧
      state.awaited = true ∧ state.Owed :=
  ⟨_, rfl, rfl, @owed_of_notOvertaken everyFive (Provider.new "near" "http://near" .static) 0
    putOffInTime _ (by decide) rfl⟩

/-- A probe under way at the admission fails after it, and the provider is not due any more. -/
theorem overtaken_probe_puts_off : ∃ state, (machine everyFive).run
    (joined (Provider.new "near" "http://near" .static) 0)
    [.begin false none, .readDue, .takeCheck, .pass (Duration.fromSecs 1), .admitted, .probed none,
      .reschedule] = some state ∧ ¬state.Owed :=
  ⟨_, rfl, by decide⟩

end Monitored

end CommunityLb
