import CommunityLb.Health.Entry
import CommunityLb.Lib.Machine

/-!
# Who is in rotation

Probes, traffic, chain checks and integrity verdicts write one streak, two gates and one flag.  The
history of what they said, newest first, decides whether the provider is eligible.
-/

namespace CommunityLb

/-- What one signal said. -/
inductive Mark where
  | rightChain
  | wrongChain
  | success
  | failure
  | judged (verdict : Verdict)
  deriving DecidableEq, Repr

namespace Mark

/-- An answered chain check. -/
def ofChain : Mark → Bool
  | rightChain | wrongChain => true
  | _ => false

/-- A verdict that moves the gate. -/
def ofGate : Mark → Bool
  | judged .match_ | judged .divergence => true
  | _ => false

/-- It ends a run of successes. -/
def endsSuccesses : Mark → Bool
  | failure | wrongChain => true
  | _ => false

/-- It ends a run of failures. -/
def endsFailures : Mark → Bool
  | success | wrongChain => true
  | _ => false

end Mark

/-- The last answered chain check. -/
def lastChain (history : List Mark) : Option Mark :=
  history.find? Mark.ofChain

/-- The last verdict that moved the gate. -/
def lastVerdict (history : List Mark) : Option Mark :=
  history.find? Mark.ofGate

/-- A run of successes let the provider in, and nothing since took it out: no wrong chain, and no
run of failures. -/
def LetIn (flipAfter : Nat) (history : List Mark) : Prop :=
  ∃ since run before, history = since ++ run ++ before ∧
    flipAfter ≤ run.count .success ∧ (∀ mark ∈ run, mark.endsSuccesses = false) ∧
    .wrongChain ∉ since ∧
    ∀ later failures earlier, since = later ++ failures ++ earlier → .success ∉ failures →
      failures.count .failure < flipAfter

/-- The successes since the last failure or wrong chain. -/
def successes (history : List Mark) : Nat :=
  (history.takeWhile fun mark => !mark.endsSuccesses).count .success

/-- The failures since the last success or wrong chain. -/
def failures (history : List Mark) : Nat :=
  (history.takeWhile fun mark => !mark.endsFailures).count .failure

section History

variable {flipAfter : Nat} {history : List Mark}

theorem count_takeWhile_of_start {mark : Mark} {stops : Mark → Bool} {first rest : List Mark}
    (none : ∀ other ∈ first, stops other = false) :
    first.count mark ≤ ((first ++ rest).takeWhile fun other => !stops other).count mark := by
  rw [List.takeWhile_append_of_pos (by simpa using none), List.count_append]
  exact Nat.le_add_right _ _

/-- A success lets the provider in with the run it ends. -/
theorem letIn_success (positive : 0 < flipAfter) :
    LetIn flipAfter (.success :: history) ↔
      LetIn flipAfter history ∨ flipAfter ≤ successes history + 1 := by
  constructor
  · rintro ⟨since, run, before, same, enough, kept, right, few⟩
    cases since with
    | nil =>
        cases run with
        | nil => simp at enough; omega
        | cons mark run =>
            obtain ⟨rfl, rfl⟩ := List.cons.inj same
            refine .inr (enough.trans ?_)
            rw [List.count_cons_self]
            exact Nat.succ_le_succ (count_takeWhile_of_start fun other member =>
              kept other (List.mem_cons_of_mem _ member))
    | cons mark since =>
        obtain ⟨rfl, rfl⟩ := List.cons.inj same
        refine .inl ⟨since, run, before, rfl, enough, kept, ?_, ?_⟩
        · exact fun member => right (List.mem_cons_of_mem _ member)
        · rintro later failures earlier rfl
          exact few (.success :: later) failures earlier rfl
  · rintro (⟨since, run, before, rfl, enough, kept, right, few⟩ | enough)
    · refine ⟨.success :: since, run, before, rfl, enough, kept, ?_, ?_⟩
      · simpa using right
      · intro later failures earlier split unbroken
        cases later with
        | cons mark later =>
            obtain ⟨rfl, rfl⟩ := List.cons.inj split
            exact few later failures earlier rfl unbroken
        | nil =>
            cases failures with
            | nil => exact positive
            | cons mark failures =>
                obtain ⟨rfl, rfl⟩ := List.cons.inj split
                exact absurd List.mem_cons_self unbroken
    · refine ⟨[], .success :: history.takeWhile fun mark => !mark.endsSuccesses,
        history.dropWhile fun mark => !mark.endsSuccesses, by simp, ?_, ?_, by simp, ?_⟩
      · rw [List.count_cons_self]
        exact enough
      · intro mark member
        rcases List.mem_cons.mp member with rfl | inRun
        · rfl
        · simpa using List.mem_takeWhile_imp inRun
      · intro later failures earlier split _
        have empty : failures = [] := by simp_all
        simpa [empty] using positive

/-- A failure leaves the provider in while too few came in a row. -/
theorem letIn_failure (positive : 0 < flipAfter) :
    LetIn flipAfter (.failure :: history) ↔
      LetIn flipAfter history ∧ failures history + 1 < flipAfter := by
  constructor
  · rintro ⟨since, run, before, same, enough, kept, right, few⟩
    cases since with
    | nil =>
        cases run with
        | nil => simp at enough; omega
        | cons mark run =>
            obtain ⟨rfl, rfl⟩ := List.cons.inj same
            simpa [Mark.endsSuccesses] using kept .failure List.mem_cons_self
    | cons mark since =>
        simp only [List.cons_append, List.cons.injEq] at same
        obtain ⟨rfl, rfl⟩ := same
        refine ⟨⟨since, run, before, rfl, enough, kept, ?_, ?_⟩, ?_⟩
        · exact fun member => right (List.mem_cons_of_mem _ member)
        · rintro later failures earlier rfl
          exact few (.failure :: later) failures earlier rfl
        · -- The failures in a row end before the run, or in it, where there are none.
          have bound := few [] (.failure :: since.takeWhile fun mark => !mark.endsFailures)
            (since.dropWhile fun mark => !mark.endsFailures) (by simp) (by
              intro member
              rcases List.mem_cons.mp member with clash | inRow
              · cases clash
              · simpa [Mark.endsFailures] using List.mem_takeWhile_imp inRow)
          rw [List.count_cons_self] at bound
          refine lt_of_le_of_lt (Nat.succ_le_succ ?_) bound
          have noneInRun : ((run ++ before).takeWhile fun mark => !mark.endsFailures).count
              .failure = 0 := by
            refine List.count_eq_zero.mpr fun member => ?_
            have success : Mark.success ∈ run := List.count_pos_iff.mp (by omega)
            obtain ⟨first, rest, rfl⟩ := List.append_of_mem success
            have split : (first ++ Mark.success :: rest ++ before) =
                first ++ (.success :: (rest ++ before)) := by simp
            rw [split, List.takeWhile_append] at member
            split at member
            · simp only [List.takeWhile_cons, Mark.endsFailures, Bool.not_true, List.append_nil,
                Bool.false_eq_true, if_false] at member
              simpa [Mark.endsSuccesses] using kept .failure (List.mem_append_left _ member)
            · have inFirst := (List.takeWhile_prefix _).subset member
              simpa [Mark.endsSuccesses] using kept .failure (List.mem_append_left _ inFirst)
          rw [failures, List.append_assoc, List.takeWhile_append]
          split
          · next whole =>
              rw [List.count_append, noneInRun, Nat.add_zero]
              rw [(List.takeWhile_prefix _).eq_of_length whole]
          · exact le_rfl
  · rintro ⟨⟨since, run, before, rfl, enough, kept, right, few⟩, fewer⟩
    refine ⟨.failure :: since, run, before, rfl, enough, kept, by simpa using right, ?_⟩
    intro later row earlier split unbroken
    cases later with
    | cons mark later =>
        obtain ⟨rfl, rfl⟩ := List.cons.inj split
        exact few later row earlier rfl unbroken
    | nil =>
        cases row with
        | nil => exact positive
        | cons mark row =>
            simp only [List.nil_append, List.cons_append, List.cons.injEq] at split
            obtain ⟨rfl, rfl⟩ := split
            rw [List.count_cons_self]
            refine lt_of_le_of_lt (Nat.succ_le_succ ?_) fewer
            rw [failures, List.append_assoc, List.append_assoc]
            refine count_takeWhile_of_start fun other member => ?_
            cases other with
            | success => exact absurd (List.mem_cons_of_mem _ member) unbroken
            | wrongChain => exact absurd (List.mem_append_left _ member) right
            | _ => rfl

/-- The wrong chain takes the provider out. -/
theorem letIn_wrongChain (history : List Mark) (positive : 0 < flipAfter) :
    ¬LetIn flipAfter (.wrongChain :: history) := by
  rintro ⟨since, run, before, same, enough, kept, right, few⟩
  cases since with
  | nil =>
      cases run with
      | nil => simp at enough; omega
      | cons mark run =>
          obtain ⟨rfl, rfl⟩ := List.cons.inj same
          simpa [Mark.endsSuccesses] using kept .wrongChain List.mem_cons_self
  | cons mark since =>
      obtain ⟨rfl, rfl⟩ := List.cons.inj same
      exact right List.mem_cons_self

/-- Any other mark leaves the provider where it is. -/
theorem letIn_other {mark : Mark} (history : List Mark) (positive : 0 < flipAfter)
    (noSuccess : mark ≠ .success) (noFailure : mark ≠ .failure) (right : mark ≠ .wrongChain) :
    LetIn flipAfter (mark :: history) ↔ LetIn flipAfter history := by
  have passes : mark.endsSuccesses = false := by cases mark <;> simp_all [Mark.endsSuccesses]
  constructor
  · rintro ⟨since, run, before, same, enough, kept, right', few⟩
    cases since with
    | nil =>
        cases run with
        | nil => simp at enough; omega
        | cons other run =>
            obtain ⟨rfl, rfl⟩ := List.cons.inj same
            refine ⟨[], run, before, rfl, ?_, ?_, by simp, ?_⟩
            · rwa [List.count_cons_of_ne noSuccess] at enough
            · exact fun other member => kept other (List.mem_cons_of_mem _ member)
            · intro later failures earlier split _
              have empty : failures = [] := by simp_all
              simpa [empty] using positive
    | cons other since =>
        obtain ⟨rfl, rfl⟩ := List.cons.inj same
        refine ⟨since, run, before, rfl, enough, kept, ?_, ?_⟩
        · exact fun member => right' (List.mem_cons_of_mem _ member)
        · rintro later failures earlier rfl
          exact few (mark :: later) failures earlier rfl
  · rintro ⟨since, run, before, rfl, enough, kept, right', few⟩
    refine ⟨mark :: since, run, before, rfl, enough, kept, ?_, ?_⟩
    · simpa using ⟨Ne.symm right, right'⟩
    · intro later row earlier split unbroken
      cases later with
      | cons other later =>
          obtain ⟨rfl, rfl⟩ := List.cons.inj split
          exact few later row earlier rfl unbroken
      | nil =>
          cases row with
          | nil => exact positive
          | cons other row =>
              obtain ⟨rfl, rfl⟩ := List.cons.inj split
              rw [List.count_cons_of_ne noFailure]
              exact few [] row earlier rfl fun member => unbroken (List.mem_cons_of_mem _ member)

end History

/-! ## The entry under its signals -/

/-- What reaches one provider's entry. -/
inductive HealthEvent where
  | chainCleared (chainRound : Bool) (answer : Option Nat)
  /-- A probe, made once the provider is cleared. -/
  | probe (referenceHeight height : Option Nat) (now : Instant)
  | attempted (outcome : Outcome) (attemptStarted now : Instant)
  | recordIntegrity (verdict : Verdict) (height : Nat)
  | admitted (now : Instant)

/-- An entry, and what its signals said so far, newest first. -/
structure Watch where
  provider : Watched
  history : List Mark

namespace Watch

variable (config : Health) (expected : Nat)

/-- A check made of the chain says something when it is answered. -/
def chainMarks (provider : Watched) (chainRound : Bool) (answer : Option Nat) : List Mark :=
  if chainRound || provider.chainCheckDue then
    (answer.map fun actual => if actual = expected then Mark.rightChain else .wrongChain).toList
  else []

/-- A probe that is answered within the tolerance is a success. -/
def probeMark (referenceHeight height : Option Nat) : Mark :=
  match height with
  | none => .failure
  | some height =>
      if referenceHeight.any fun reference =>
          min (height + config.lagToleranceBlocks) U64_MAX < reference then .failure
      else .success

/-- An attempt without an answer is a failure, but for a slow provider's. -/
def attemptMarks (provider : Watched) (outcome : Outcome) (attemptStarted : Instant) : List Mark :=
  match outcome with
  | .answer | .tooLarge => []
  | .noAnswer => [.failure]
  | .timedOut => if provider.answeredSince attemptStarted then [] else [.failure]

/-- One signal. -/
def step (watch : Watch) : HealthEvent → Option Watch
  | .chainCleared chainRound answer =>
      some
        { provider := (watch.provider.chainCleared config chainRound answer).2
          history := chainMarks expected watch.provider chainRound answer ++ watch.history }
  | .probe referenceHeight height now =>
      if watch.provider.chainVerified then
        some
          { provider := (watch.provider.probe config referenceHeight height now).2
            history := probeMark config referenceHeight height :: watch.history }
      else none
  | .attempted outcome attemptStarted now =>
      some
        { provider := watch.provider.attempted config outcome attemptStarted now
          history := attemptMarks watch.provider outcome attemptStarted ++ watch.history }
  | .recordIntegrity verdict height =>
      some
        { provider := watch.provider.recordIntegrity verdict height
          history := .judged verdict :: watch.history }
  | .admitted now => some { watch with provider := watch.provider.scheduleProbeNow now }

/-- A provider under its signals. -/
def machine : Machine Watch HealthEvent where
  step := step config expected

/-- A provider that has just joined. -/
def joined (id url : String) (source : Source) (now : Instant) : Watch where
  provider := .born (Provider.new id url source) now
  history := []

end Watch

/-! ## The invariant -/

/-- The eligibility byte with each gate open or closed. -/
def gates (health integrity : Bool) : BitVec 8 :=
  (if health then Gate.health.bit else 0) ||| (if integrity then Gate.integrity.bit else 0)

theorem gates_eligible (health integrity : Bool) :
    gates health integrity = ALL_GATES ↔ health = true ∧ integrity = true := by
  cases health <;> cases integrity <;> decide

theorem setEligibility_health (provider : Provider) {health integrity : Bool} (value : Bool)
    (open_ : provider.eligibility = gates health integrity) :
    (provider.setEligibility .health value).eligibility = gates value integrity := by
  simp only [Provider.setEligibility, open_]
  cases health <;> cases integrity <;> cases value <;> decide

theorem setEligibility_integrity (provider : Provider) {health integrity : Bool} (value : Bool)
    (open_ : provider.eligibility = gates health integrity) :
    (provider.setEligibility .integrity value).eligibility = gates health value := by
  simp only [Provider.setEligibility, open_]
  cases health <;> cases integrity <;> cases value <;> decide

/-- A streak long enough moves the health gate, and none other does. -/
theorem recordHealth_eligibility (provider : Watched) {health integrity : Bool} (success : Bool)
    (flipAfter : Nat) (source : HealthSignal)
    (open_ : provider.eligibility = gates health integrity) :
    (provider.recordHealth success flipAfter source).eligibility =
      gates
        (if (flipAfter : Int) ≤ Watched.streakStep success provider.healthStreak then true
          else if Watched.streakStep success provider.healthStreak ≤ -(flipAfter : Int) then false
          else health) integrity := by
  simp only [Watched.recordHealth, ge_iff_le]
  split
  · exact setEligibility_health provider.toProvider true open_
  · split
    · exact setEligibility_health provider.toProvider false open_
    · exact open_

/-- The entry says what its history does. -/
structure Watch.Tracked (flipAfter : Nat) (watch : Watch) : Prop where
  gates : ∃ health integrity, watch.provider.eligibility = gates health integrity ∧
    (health = true ↔ LetIn flipAfter watch.history) ∧
    (integrity = true ↔ lastVerdict watch.history ≠ some (.judged .divergence))
  rising : max watch.provider.healthStreak 0 = min (successes watch.history : Int) I64_MAX
  falling : max (-watch.provider.healthStreak) 0 = min (failures watch.history : Int) (-I64_MIN)
  verified : watch.provider.chainVerified = true ↔ lastChain watch.history = some .rightChain
  cleared : LetIn flipAfter watch.history → watch.provider.chainVerified = true

namespace Watch.Tracked

variable {flipAfter : Nat} {watch : Watch}

/-- A signal that says nothing and writes none of what is tracked. -/
theorem unmarked (tracked : watch.Tracked flipAfter) {provider : Watched}
    (eligibility : provider.eligibility = watch.provider.eligibility)
    (streak : provider.healthStreak = watch.provider.healthStreak)
    (verified : provider.chainVerified = watch.provider.chainVerified) :
    ({ watch with provider := provider } : Watch).Tracked flipAfter where
  gates := by simpa only [eligibility] using tracked.gates
  rising := by simpa only [streak] using tracked.rising
  falling := by simpa only [streak] using tracked.falling
  verified := by simpa only [verified] using tracked.verified
  cleared := by simpa only [verified] using tracked.cleared

/-- The streak after a success. -/
theorem rising_success {streak : Int} {count : Nat}
    (rising : max streak 0 = min (count : Int) I64_MAX) :
    max (Watched.streakStep true streak) 0 = min ((count + 1 : Nat) : Int) I64_MAX ∧
      max (-Watched.streakStep true streak) 0 = 0 := by
  simp only [Watched.streakStep, if_true, I64_MAX] at *
  omega

/-- The streak after a failure. -/
theorem falling_failure {streak : Int} {count : Nat}
    (falling : max (-streak) 0 = min (count : Int) (-I64_MIN)) :
    max (-Watched.streakStep false streak) 0 = min ((count + 1 : Nat) : Int) (-I64_MIN) ∧
      max (Watched.streakStep false streak) 0 = 0 := by
  simp only [Watched.streakStep, Bool.false_eq_true, if_false, I64_MIN] at *
  omega

/-- One health result. -/
theorem recordHealth (tracked : watch.Tracked flipAfter) (positive : 0 < flipAfter)
    (narrow : flipAfter < 2 ^ 32) (success : Bool) (source : HealthSignal)
    (cleared : success = true → watch.provider.chainVerified = true) :
    ({ provider := watch.provider.recordHealth success flipAfter source
       history := (if success then .success else .failure) :: watch.history } : Watch).Tracked
      flipAfter := by
  obtain ⟨health, integrity, byte, letIn, verdict⟩ := tracked.gates
  cases success with
  | true =>
      obtain ⟨rising, falling⟩ := rising_success tracked.rising
      have more : successes (.success :: watch.history) = successes watch.history + 1 := by
        simp [successes, Mark.endsSuccesses]
      have noRow : failures (.success :: watch.history) = 0 := by
        simp [failures, Mark.endsFailures]
      have flips : (flipAfter : Int) ≤ Watched.streakStep true watch.provider.healthStreak ↔
          flipAfter ≤ successes watch.history + 1 := by
        simp only [I64_MAX] at rising
        omega
      have stays : ¬Watched.streakStep true watch.provider.healthStreak ≤ -(flipAfter : Int) := by
        omega
      refine ⟨⟨health || decide (flipAfter ≤ successes watch.history + 1), integrity, ?_, ?_, ?_⟩,
        ?_, ?_, ?_, fun _ => ?_⟩
      · rw [recordHealth_eligibility _ _ _ _ byte]
        simp only [flips, stays, if_false]
        split
        · next enough => simp [enough]
        · next few => simp [few]
      · simp only [if_true, letIn_success positive, Bool.or_eq_true, decide_eq_true_eq, letIn]
      · simpa [lastVerdict, Mark.ofGate] using verdict
      · simpa [more] using rising
      · simpa [noRow, I64_MIN] using falling
      · simpa [lastChain, Mark.ofChain] using tracked.verified
      · simpa using cleared rfl
  | false =>
      obtain ⟨falling, rising⟩ := falling_failure tracked.falling
      have more : failures (.failure :: watch.history) = failures watch.history + 1 := by
        simp [failures, Mark.endsFailures]
      have noRow : successes (.failure :: watch.history) = 0 := by
        simp [successes, Mark.endsSuccesses]
      have flips : Watched.streakStep false watch.provider.healthStreak ≤ -(flipAfter : Int) ↔
          ¬failures watch.history + 1 < flipAfter := by
        simp only [I64_MIN] at falling
        omega
      have stays : ¬(flipAfter : Int) ≤ Watched.streakStep false watch.provider.healthStreak := by
        omega
      refine ⟨⟨health && decide (failures watch.history + 1 < flipAfter), integrity, ?_, ?_, ?_⟩,
        ?_, ?_, ?_, fun entered => ?_⟩
      · rw [recordHealth_eligibility _ _ _ _ byte]
        simp only [flips, stays, if_false]
        split
        · next many => simp [many]
        · next few => simp [not_not.mp few]
      · simp only [Bool.false_eq_true, if_false, letIn_failure positive, Bool.and_eq_true,
          decide_eq_true_eq, letIn]
      · simpa [lastVerdict, Mark.ofGate] using verdict
      · simpa [noRow, I64_MAX] using rising
      · simpa [more] using falling
      · simpa [lastChain, Mark.ofChain] using tracked.verified
      · rw [if_neg Bool.false_ne_true, letIn_failure positive] at entered
        simpa using tracked.cleared entered.1

/-- A probe. -/
theorem probe {config : Health} (tracked : watch.Tracked config.flipAfter)
    (positive : 0 < config.flipAfter) (narrow : config.flipAfter < 2 ^ 32)
    (cleared : watch.provider.chainVerified = true) (referenceHeight height : Option Nat)
    (now : Instant) :
    ({ provider := (watch.provider.probe config referenceHeight height now).2
       history := Watch.probeMark config referenceHeight height :: watch.history } :
      Watch).Tracked config.flipAfter := by
  cases height with
  | none =>
      have counted : ({ watch with provider := watch.provider.recordUnansweredProbe } :
          Watch).Tracked config.flipAfter := tracked.unmarked rfl rfl rfl
      exact counted.recordHealth positive narrow false .probe fun success => nomatch success
  | some height =>
      have answered : ({ watch with
          provider := (watch.provider.recordAnsweredProbe now).recordHeight height } :
          Watch).Tracked config.flipAfter := tracked.unmarked rfl rfl rfl
      simp only [Watched.probe, Watch.probeMark]
      split
      · exact answered.recordHealth positive narrow false .lag fun success => nomatch success
      · exact answered.recordHealth positive narrow true .probe fun _ => cleared

/-- An answered chain check. -/
theorem verifyChain (tracked : watch.Tracked flipAfter) (positive : 0 < flipAfter)
    (expected : Nat) (answer : Option Nat) :
    ({ provider := watch.provider.verifyChain expected answer
       history := (answer.map fun actual =>
         if actual = expected then Mark.rightChain else .wrongChain).toList ++ watch.history } :
      Watch).Tracked flipAfter := by
  obtain ⟨health, integrity, byte, letIn, verdict⟩ := tracked.gates
  cases answer with
  | none => exact tracked
  | some actual =>
      by_cases right : actual = expected
      · simp only [Watched.verifyChain, right, if_true, Option.map_some, Option.toList_some,
          List.singleton_append]
        have same := letIn_other watch.history positive
          (show Mark.rightChain ≠ .success by decide) (by decide) (by decide)
        refine ⟨⟨health, integrity, byte, letIn.trans same.symm, ?_⟩, ?_, ?_, ?_, fun _ => rfl⟩
        · simpa [lastVerdict, Mark.ofGate] using verdict
        · simpa [successes, Mark.endsSuccesses] using tracked.rising
        · simpa [failures, Mark.endsFailures] using tracked.falling
        · simp [lastChain, Mark.ofChain]
      · simp only [Watched.verifyChain, right, if_false, Option.map_some, Option.toList_some,
          List.singleton_append]
        have out := letIn_wrongChain watch.history positive
        refine ⟨⟨false, integrity, ?_, ?_, ?_⟩, ?_, ?_, ?_, fun entered => absurd entered out⟩
        · exact setEligibility_health watch.provider.toProvider false byte
        · simp [out]
        · simpa [lastVerdict, Mark.ofGate] using verdict
        · simp [successes, Mark.endsSuccesses, Watched.quarantine, Watched.setGate, I64_MAX]
        · simp [failures, Mark.endsFailures, Watched.quarantine, Watched.setGate, I64_MIN]
        · simp [lastChain, Mark.ofChain, Watched.quarantine, Watched.setGate]

/-- A verdict. -/
theorem recordIntegrity (tracked : watch.Tracked flipAfter) (positive : 0 < flipAfter)
    (verdict : Verdict) (height : Nat) :
    ({ provider := watch.provider.recordIntegrity verdict height
       history := .judged verdict :: watch.history } : Watch).Tracked flipAfter := by
  obtain ⟨health, integrity, byte, letIn, found⟩ := tracked.gates
  have same := letIn_other watch.history positive (show Mark.judged verdict ≠ .success by simp)
    (by simp) (by simp)
  have rising : successes (.judged verdict :: watch.history) = successes watch.history := by
    simp [successes, Mark.endsSuccesses]
  have falling : failures (.judged verdict :: watch.history) = failures watch.history := by
    simp [failures, Mark.endsFailures]
  have chain : lastChain (.judged verdict :: watch.history) = lastChain watch.history := by
    simp [lastChain, Mark.ofChain]
  refine ⟨?_, ?_, ?_, ?_, fun entered => ?_⟩
  · cases verdict with
    | match_ =>
        refine ⟨health, true, ?_, letIn.trans same.symm, by simp [lastVerdict, Mark.ofGate]⟩
        exact setEligibility_integrity watch.provider.toProvider true byte
    | divergence =>
        refine ⟨health, false, ?_, letIn.trans same.symm, by simp [lastVerdict, Mark.ofGate]⟩
        exact setEligibility_integrity watch.provider.toProvider false byte
    | stale =>
        exact ⟨health, integrity, byte, letIn.trans same.symm, by
          simpa [lastVerdict, Mark.ofGate] using found⟩
    | unknown =>
        exact ⟨health, integrity, byte, letIn.trans same.symm, by
          simpa [lastVerdict, Mark.ofGate] using found⟩
  · rw [rising]
    cases verdict <;> exact tracked.rising
  · rw [falling]
    cases verdict <;> exact tracked.falling
  · rw [chain]
    cases verdict <;> exact tracked.verified
  · have verified := tracked.cleared (same.mp entered)
    cases verdict <;> exact verified

/-- One signal keeps the entry true to its history. -/
theorem step {config : Health} {expected : Nat} {next : Watch} {event : HealthEvent}
    (tracked : watch.Tracked config.flipAfter) (chain : config.chainId = some expected)
    (positive : 0 < config.flipAfter) (narrow : config.flipAfter < 2 ^ 32)
    (stepped : watch.step config expected event = some next) : next.Tracked config.flipAfter := by
  cases event with
  | chainCleared chainRound answer =>
      cases stepped
      have taken : ({ watch with provider := { watch.provider with chainCheckDue := false } } :
          Watch).Tracked config.flipAfter := tracked.unmarked rfl rfl rfl
      simp only [Watched.chainCleared, chain, Watched.takeChainCheckDue, Watch.chainMarks]
      by_cases made : (chainRound || watch.provider.chainCheckDue) = true
      · simp only [made, if_true]
        exact taken.verifyChain positive expected answer
      · simp only [made, Bool.false_eq_true, if_false]
        exact taken
  | probe referenceHeight height now =>
      simp only [Watch.step] at stepped
      split at stepped
      · next cleared =>
          cases stepped
          exact tracked.probe positive narrow cleared referenceHeight height now
      · cases stepped
  | attempted outcome attemptStarted now =>
      cases stepped
      have unanswered := tracked.recordHealth positive narrow false .traffic
        fun success => nomatch success
      cases outcome with
      | answer => exact tracked.unmarked rfl rfl rfl
      | tooLarge => exact tracked
      | noAnswer => exact unanswered.unmarked rfl rfl rfl
      | timedOut =>
          simp only [Watched.attempted, Watch.attemptMarks]
          by_cases slow : watch.provider.answeredSince attemptStarted = true
          · simp only [slow, if_true]
            exact tracked.unmarked rfl rfl rfl
          · simp only [slow, Bool.false_eq_true, if_false]
            exact unanswered.unmarked rfl rfl rfl
  | recordIntegrity verdict height =>
      cases stepped
      exact tracked.recordIntegrity positive verdict height
  | admitted now =>
      cases stepped
      exact tracked.unmarked rfl rfl rfl

/-- A provider joins with the health gate closed and nothing in its history. -/
theorem joined {flipAfter : Nat} (positive : 0 < flipAfter) (id url : String) (source : Source)
    (now : Instant) : (Watch.joined id url source now).Tracked flipAfter where
  gates := by
    refine ⟨false, true, rfl, ?_, by simp [Watch.joined, lastVerdict]⟩
    simp only [Bool.false_eq_true, false_iff]
    rintro ⟨since, run, before, same, enough, _⟩
    have none : run = [] := by simp_all [Watch.joined]
    simp only [none, List.count_nil] at enough
    omega
  rising := by simp [Watch.joined, Watched.born, successes, I64_MAX]
  falling := by simp [Watch.joined, Watched.born, failures, I64_MIN]
  verified := by simp [Watch.joined, Watched.born, lastChain]
  cleared := by
    rintro ⟨since, run, before, same, enough, _⟩
    have none : run = [] := by simp_all [Watch.joined]
    simp only [none, List.count_nil] at enough
    omega

end Watch.Tracked

/-- Whoever is eligible was let in by a run of successes that nothing took back, stands without a
divergence, and answered its last chain check right; and whoever was and does is eligible. -/
theorem eligible_iff_history {config : Health} {expected : Nat}
    (chain : config.chainId = some expected) (atLeastTwo : 2 ≤ config.flipAfter)
    (narrow : config.flipAfter < 2 ^ 32) {id url : String} {source : Source} {now : Instant}
    {events : List HealthEvent} {watch : Watch}
    (reached : (Watch.machine config expected).run (.joined id url source now) events =
      some watch) :
    (watch.provider.eligible = true ↔
      LetIn config.flipAfter watch.history ∧
        lastVerdict watch.history ≠ some (.judged .divergence)) ∧
    (watch.provider.eligible = true → lastChain watch.history = some .rightChain) := by
  have positive : 0 < config.flipAfter := by omega
  have preserved : ∀ (before : Watch) (event : HealthEvent) (after : Watch),
      before.Tracked config.flipAfter →
      (Watch.machine config expected).step before event = some after →
      after.Tracked config.flipAfter :=
    fun _ _ _ before stepped => before.step chain positive narrow stepped
  have tracked : watch.Tracked config.flipAfter :=
    Machine.run_preserves preserved (Watch.Tracked.joined positive id url source now) reached
  obtain ⟨health, integrity, byte, letIn, verdict⟩ := tracked.gates
  have eligible : watch.provider.eligible = true ↔ health = true ∧ integrity = true := by
    simp [Provider.eligible, byte, gates_eligible]
  refine ⟨eligible.trans (and_congr letIn verdict), fun isEligible => ?_⟩
  exact tracked.verified.mp (tracked.cleared (letIn.mp (eligible.mp isEligible).1))

/-- Cleared and probed twice, a provider is in. -/
theorem letIn_of_two_probes : LetIn 2 [.success, .success, .rightChain] :=
  ((@eligible_iff_history
    { probeInterval := 5
      probeTimeout := 2
      flipAfter := 2
      maxProbeBackoff := 60
      refHeightInterval := 60
      chainidCheckInterval := 300
      chainId := some 7
      lagToleranceBlocks := 30 }
    7 rfl (by decide) (by decide) "near" "http://near" .static 0
    [.chainCleared false (some 7), .probe none (some 40) 1, .probe none (some 41) 6] _ rfl).1.mp
      (by decide)).1

end CommunityLb
