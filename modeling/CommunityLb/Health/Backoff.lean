import CommunityLb.Health.Entry
import CommunityLb.Lib.Machine

/-!
# Probes that are put off

The wait doubles with the streak of unanswered probes, another counter than the streak that moves
the health gate.  Whatever happens in between, a wait longer than the interval finds the gate closed.
-/

namespace CommunityLb

/-! ## The wait -/

/-- The longest span of time: all the seconds of 64 bits, and the nanoseconds of one more but one. -/
def MAX_DURATION : Duration :=
  Duration.fromSecs U64_MAX + 999999999

/-- One shifted left, when fewer places than the word has. -/
def checkedShl (places : Nat) : Option (BitVec 32) :=
  if places < 32 then some (1#32 <<< places) else none

/-- A span of time taken a number of times, the longest one at most. -/
def saturatingMul (duration : Duration) (factor : BitVec 32) : Duration :=
  min (duration * factor.toNat) MAX_DURATION

/-- The wait as the machine words compute it. -/
def probeDelayWord (config : Health) (failures : BitVec 32) : Duration :=
  let excess := failures.toNat - config.flipAfter
  min (saturatingMul config.probeInterval ((checkedShl excess).getD (BitVec.allOnes 32)))
    config.maxProbeBackoff

/-- The factor of the wait. -/
def backoffFactor (config : Health) (failures : Nat) : Nat :=
  if failures - config.flipAfter < 32 then 2 ^ (failures - config.flipAfter) else 2 ^ 32 - 1

theorem probeDelay_eq (config : Health) (failures : Nat) :
    probeDelay config failures =
      min (config.probeInterval * backoffFactor config failures) config.maxProbeBackoff :=
  rfl

/-- No word overflows on the way: the wait is the product and the longest wait, the lesser. -/
theorem probeDelayWord_eq {config : Health} (fits : config.maxProbeBackoff ≤ MAX_DURATION)
    (failures : BitVec 32) : probeDelayWord config failures = probeDelay config failures.toNat := by
  have factor : ((checkedShl (failures.toNat - config.flipAfter)).getD
      (BitVec.allOnes 32)).toNat = backoffFactor config failures.toNat := by
    rw [checkedShl, backoffFactor]
    split
    · next few =>
        have bound : 2 ^ (failures.toNat - config.flipAfter) < 2 ^ 32 :=
          Nat.pow_lt_pow_right (by decide) few
        rw [Option.getD_some, BitVec.toNat_shiftLeft, Nat.shiftLeft_eq]
        have one : (1#32).toNat = 1 := rfl
        rw [one, Nat.one_mul, Nat.mod_eq_of_lt bound]
    · rfl
  rw [probeDelay_eq, probeDelayWord, saturatingMul, factor, min_assoc, min_eq_right fits]

theorem probeDelay_le (config : Health) (failures : Nat) :
    probeDelay config failures ≤ config.maxProbeBackoff :=
  Nat.min_le_right _ _

theorem backoffFactor_mono (config : Health) {first second : Nat} (le : first ≤ second) :
    backoffFactor config first ≤ backoffFactor config second := by
  have excess : first - config.flipAfter ≤ second - config.flipAfter := Nat.sub_le_sub_right le _
  rw [backoffFactor, backoffFactor]
  split
  · next few =>
      split
      · exact Nat.pow_le_pow_right (by decide) excess
      · have bound : 2 ^ (first - config.flipAfter) < 2 ^ 32 :=
          Nat.pow_lt_pow_right (by decide) few
        omega
  · next many =>
      rw [if_neg (by omega)]

/-- The wait never shrinks as the streak grows. -/
theorem probeDelay_mono (config : Health) {first second : Nat} (le : first ≤ second) :
    probeDelay config first ≤ probeDelay config second := by
  rw [probeDelay_eq, probeDelay_eq]
  exact min_le_min (Nat.mul_le_mul_left _ (backoffFactor_mono config le)) le_rfl

/-- As long as the streak is no longer than the gate takes to close, probes keep their interval. -/
theorem flipAfter_lt_of_delay {config : Health} {failures : Nat}
    (longer : config.probeInterval < probeDelay config failures) :
    config.flipAfter < failures := by
  by_contra short
  have none : failures - config.flipAfter = 0 := by omega
  rw [probeDelay_eq, backoffFactor, none, if_pos (by decide), Nat.pow_zero, Nat.mul_one] at longer
  exact absurd (min_le_left _ _) (not_le.mpr longer)

/-! ## The gate -/

namespace Watched

theorem healthy_setGate (provider : Watched) (value : Bool) :
    (provider.setGate .health value).healthy = value := by
  have set : ∀ byte : BitVec 8, (byte ||| Gate.health.bit) &&& Gate.health.bit ≠ 0 := by decide
  have cleared : ∀ byte : BitVec 8, (byte &&& ~~~Gate.health.bit) &&& Gate.health.bit = 0 := by
    decide
  cases value with
  | true => exact decide_eq_true (set provider.eligibility)
  | false => exact decide_eq_false (not_not.mpr (cleared provider.eligibility))

theorem healthy_setGate_integrity (provider : Watched) (value : Bool) :
    (provider.setGate .integrity value).healthy = provider.healthy := by
  have set : ∀ byte : BitVec 8,
      (byte ||| Gate.integrity.bit) &&& Gate.health.bit = byte &&& Gate.health.bit := by decide
  have cleared : ∀ byte : BitVec 8,
      (byte &&& ~~~Gate.integrity.bit) &&& Gate.health.bit = byte &&& Gate.health.bit := by decide
  have same : (provider.setGate .integrity value).eligibility &&& Gate.health.bit =
      provider.eligibility &&& Gate.health.bit := by
    cases value with
    | true => exact set provider.eligibility
    | false => exact cleared provider.eligibility
  rw [Provider.healthy, Provider.healthy, same]

/-- A failure opens no gate, and closes it once enough are in a row. -/
theorem healthy_recordHealth_false (provider : Watched) (flipAfter : Nat) (source : HealthSignal) :
    (provider.recordHealth false flipAfter source).healthy =
      (provider.healthy && decide (-(flipAfter : Int) < streakStep false provider.healthStreak)) := by
  have negative : streakStep false provider.healthStreak < flipAfter := by
    simp only [streakStep, Bool.false_eq_true, if_false, I64_MIN]
    omega
  rw [recordHealth, if_neg (not_le.mpr negative)]
  split
  · next enough => simpa [not_lt.mpr enough] using healthy_setGate _ false
  · next few =>
      have lt : -(flipAfter : Int) < streakStep false provider.healthStreak := not_le.mp few
      simp [lt, Provider.healthy]

theorem recordHealth_unanswered (provider : Watched) (success : Bool) (flipAfter : Nat)
    (source : HealthSignal) :
    (provider.recordHealth success flipAfter source).unansweredProbeStreak =
      provider.unansweredProbeStreak := by
  simp only [recordHealth]
  split
  · rfl
  · split <;> rfl

/-- The probes that went unanswered since the last answer are failures since then, while the health
gate is open. -/
structure InStep (flipAfter : Nat) (provider : Watched) : Prop where
  word : provider.unansweredProbeStreak < 2 ^ 32
  streak : provider.healthy = true → provider.unansweredProbeStreak = 0 ∨
    provider.healthStreak ≤ -(provider.unansweredProbeStreak : Int) ∧
      provider.unansweredProbeStreak < flipAfter

variable {flipAfter : Nat} {provider : Watched}

/-- One more failure, of whatever source. -/
theorem InStep.failure (inStep : provider.InStep flipAfter) (source : HealthSignal) :
    (provider.recordHealth false flipAfter source).InStep flipAfter := by
  have kept := recordHealth_unanswered provider false flipAfter source
  refine ⟨kept ▸ inStep.word, ?_⟩
  intro healthy
  rw [healthy_recordHealth_false, Bool.and_eq_true] at healthy
  rw [kept, recordHealth_healthStreak]
  rcases inStep.streak healthy.1 with answered | ⟨streak, few⟩
  · exact .inl answered
  · right
    have word := inStep.word
    simp only [streakStep, Bool.false_eq_true, if_false, I64_MIN]
    omega

/-- An unanswered probe is one more failure as well. -/
theorem InStep.unanswered (inStep : provider.InStep flipAfter) (source : HealthSignal) :
    (provider.recordUnansweredProbe.recordHealth false flipAfter source).InStep flipAfter := by
  have kept : (provider.recordUnansweredProbe.recordHealth false flipAfter
      source).unansweredProbeStreak = (provider.unansweredProbeStreak + 1) % 2 ^ 32 :=
    recordHealth_unanswered provider.recordUnansweredProbe false flipAfter source
  refine ⟨by rw [kept]; exact Nat.mod_lt _ (by decide), fun healthy => ?_⟩
  rw [healthy_recordHealth_false, Bool.and_eq_true, decide_eq_true_eq] at healthy
  obtain ⟨wasHealthy, few⟩ := healthy
  have streak := inStep.streak wasHealthy
  have word := inStep.word
  rw [kept, recordHealth_healthStreak]
  have same : provider.recordUnansweredProbe.healthStreak = provider.healthStreak := rfl
  rw [same] at few ⊢
  simp only [streakStep, Bool.false_eq_true, if_false, I64_MIN] at few ⊢
  omega

theorem InStep.of_answer (answered : provider.unansweredProbeStreak = 0) :
    provider.InStep flipAfter :=
  ⟨by rw [answered]; decide, fun _ => .inl answered⟩

theorem InStep.of_unhealthy (word : provider.unansweredProbeStreak < 2 ^ 32)
    (unhealthy : provider.healthy = false) : provider.InStep flipAfter :=
  ⟨word, fun healthy => absurd (unhealthy.symm.trans healthy) Bool.false_ne_true⟩

/-- What neither counter nor the health gate is touched by. -/
theorem InStep.congr {other : Watched} (inStep : provider.InStep flipAfter)
    (unanswered : other.unansweredProbeStreak = provider.unansweredProbeStreak)
    (streak : other.healthStreak = provider.healthStreak)
    (healthy : other.healthy = provider.healthy) : other.InStep flipAfter := by
  refine ⟨unanswered ▸ inStep.word, ?_⟩
  rw [healthy, unanswered, streak]
  exact inStep.streak

end Watched

/-! ## One provider over its probes -/

/-- A provider, and whether its last probe went unanswered and is not rescheduled yet. -/
structure Paced where
  provider : Watched
  unanswered : Bool

/-- What happens to a provider. -/
inductive PaceEvent where
  /-- A probe is answered, or not. -/
  | probe (referenceHeight height : Option Nat) (now : Instant)
  /-- The unanswered probe pushes the next one out, from its sweep's start. -/
  | reschedule (began : Instant)
  /-- An attempt to forward a request ends. -/
  | attempt (outcome : Outcome) (attemptStarted now : Instant)
  /-- A chain check is answered, or not. -/
  | chainCheck (chainRound : Bool) (answer : Option Nat)
  | quarantine (source : HealthSignal)
  | verdict (verdict : Verdict) (height : Nat)
  /-- The tunnel is admitted. -/
  | admitted (now : Instant)

namespace Paced

variable (config : Health)

/-- One event, where it can happen: the Monitor probes a provider again once it has rescheduled
it. -/
def step (state : Paced) : PaceEvent → Option Paced
  | .probe referenceHeight height now =>
      if state.unanswered then none
      else
        let (answered, provider) := state.provider.probe config referenceHeight height now
        some
          { provider := provider
            unanswered := !answered }
  | .reschedule began =>
      if state.unanswered then
        some
          { provider := state.provider.rescheduleUnanswered config began
            unanswered := false }
      else none
  | .attempt outcome attemptStarted now =>
      some { state with provider := state.provider.attempted config outcome attemptStarted now }
  | .chainCheck chainRound answer =>
      some { state with provider := (state.provider.chainCleared config chainRound answer).2 }
  | .quarantine source => some { state with provider := state.provider.quarantine source }
  | .verdict verdict height =>
      some { state with provider := state.provider.recordIntegrity verdict height }
  | .admitted now => some { state with provider := state.provider.scheduleProbeNow now }

/-- One provider in the pool. -/
def machine : Machine Paced PaceEvent where
  step := step config

/-- A provider as it joins. -/
def joined (provider : Provider) (now : Instant) : Paced where
  provider := .born provider now
  unanswered := false

variable {config}

theorem inStep_probe {provider : Watched} (inStep : provider.InStep config.flipAfter)
    (referenceHeight height : Option Nat) (now : Instant) :
    (provider.probe config referenceHeight height now).2.InStep config.flipAfter := by
  cases height with
  | none => exact inStep.unanswered .probe
  | some height =>
      refine .of_answer ?_
      simp only [Watched.probe]
      split
      · rw [Watched.recordHealth_unanswered]
        rfl
      · rw [Watched.recordHealth_unanswered]
        rfl

theorem inStep_quarantine {provider : Watched} (inStep : provider.InStep config.flipAfter)
    (source : HealthSignal) : (provider.quarantine source).InStep config.flipAfter :=
  .of_unhealthy inStep.word (Watched.healthy_setGate _ false)

theorem inStep_chainCleared {provider : Watched} (inStep : provider.InStep config.flipAfter)
    (chainRound : Bool) (answer : Option Nat) :
    (provider.chainCleared config chainRound answer).2.InStep config.flipAfter := by
  rw [Watched.chainCleared]
  split
  · exact inStep
  · have taken : provider.takeChainCheckDue.2.InStep config.flipAfter :=
      inStep.congr rfl rfl rfl
    simp only
    split
    · rw [Watched.verifyChain.eq_def]
      split
      · split
        · exact taken.congr rfl rfl rfl
        · have denied : ({ provider.takeChainCheckDue.2 with chainVerified := false } :
              Watched).InStep config.flipAfter := taken.congr rfl rfl rfl
          exact inStep_quarantine denied .chain
      · exact taken
    · exact taken

theorem inStep_attempted {provider : Watched} (inStep : provider.InStep config.flipAfter)
    (outcome : Outcome) (attemptStarted now : Instant) :
    (provider.attempted config outcome attemptStarted now).InStep config.flipAfter := by
  cases outcome with
  | answer => exact inStep.congr rfl rfl rfl
  | tooLarge => exact inStep
  | noAnswer => exact (inStep.failure .traffic).congr rfl rfl rfl
  | timedOut =>
      simp only [Watched.attempted]
      split
      · exact inStep.congr rfl rfl rfl
      · exact (inStep.failure .traffic).congr rfl rfl rfl

theorem inStep_recordIntegrity {provider : Watched} (inStep : provider.InStep config.flipAfter)
    (verdict : Verdict) (height : Nat) :
    (provider.recordIntegrity verdict height).InStep config.flipAfter := by
  cases verdict with
  | match_ => exact inStep.congr rfl rfl (Watched.healthy_setGate_integrity _ true)
  | divergence => exact inStep.congr rfl rfl (Watched.healthy_setGate_integrity _ false)
  | stale => exact inStep.congr rfl rfl rfl
  | unknown => exact inStep.congr rfl rfl rfl

/-- Every event keeps the two streaks in step. -/
theorem step_inStep {state next : Paced} {event : PaceEvent}
    (inStep : state.provider.InStep config.flipAfter)
    (stepped : state.step config event = some next) : next.provider.InStep config.flipAfter := by
  cases event with
  | probe referenceHeight height now =>
      simp only [step] at stepped
      split at stepped
      · cases stepped
      · cases stepped
        exact inStep_probe inStep referenceHeight height now
  | reschedule began =>
      simp only [step] at stepped
      split at stepped
      · cases stepped
        exact inStep.congr rfl rfl rfl
      · cases stepped
  | attempt outcome attemptStarted now =>
      cases stepped
      exact inStep_attempted inStep outcome attemptStarted now
  | chainCheck chainRound answer =>
      cases stepped
      exact inStep_chainCleared inStep chainRound answer
  | quarantine source =>
      cases stepped
      exact inStep_quarantine inStep source
  | verdict verdict height =>
      cases stepped
      exact inStep_recordIntegrity inStep verdict height
  | admitted now =>
      cases stepped
      exact inStep.congr rfl rfl rfl

/-- A probe that is pushed out by more than the interval is a provider's that is out of rotation for
its health, and no wait is longer than the longest, shrinks as the streak grows, or overflows. -/
theorem quarantine_never_slowed (config : Health)
    (fits : config.maxProbeBackoff ≤ MAX_DURATION) (provider : Provider) (now : Instant)
    (events : List PaceEvent) (state : Paced)
    (reached : (machine config).run (joined provider now) events = some state) :
    (∀ began next, state.step config (.reschedule began) = some next →
      config.probeInterval < next.provider.nextProbe - began →
        state.provider.healthy = false ∧ next.provider.healthy = false) ∧
      (∀ failures : BitVec 32, probeDelayWord config failures = probeDelay config failures.toNat ∧
        probeDelayWord config failures ≤ config.maxProbeBackoff) ∧
        ∀ first second : BitVec 32, first ≤ second →
          probeDelayWord config first ≤ probeDelayWord config second := by
  have inStep : state.provider.InStep config.flipAfter := by
    have preserved : ∀ (before : Paced) (event : PaceEvent) (after : Paced),
        before.provider.InStep config.flipAfter → (machine config).step before event = some after →
          after.provider.InStep config.flipAfter := fun _ _ _ => step_inStep
    exact Machine.run_preserves preserved (.of_answer rfl) reached
  refine ⟨fun began next stepped longer => ?_, fun failures => ?_, fun first second le => ?_⟩
  · simp only [step] at stepped
    split at stepped
    · cases stepped
      have delay : config.probeInterval < probeDelay config state.provider.unansweredProbeStreak := by
        simpa [Watched.rescheduleUnanswered] using longer
      have many := flipAfter_lt_of_delay delay
      have unhealthy : state.provider.healthy = false := by
        by_contra healthy
        have streak := inStep.streak (Bool.eq_true_of_not_eq_false healthy)
        omega
      exact ⟨unhealthy, unhealthy⟩
    · cases stepped
  · rw [probeDelayWord_eq fits]
    exact ⟨rfl, probeDelay_le config _⟩
  · rw [probeDelayWord_eq fits, probeDelayWord_eq fits]
    exact probeDelay_mono config le

/-- Probed every five seconds, at most a minute apart. -/
def minuteApart : Health where
  probeInterval := Duration.fromSecs 5
  probeTimeout := Duration.fromSecs 2
  flipAfter := 2
  maxProbeBackoff := Duration.fromSecs 60
  refHeightInterval := Duration.fromSecs 60
  chainidCheckInterval := Duration.fromSecs 300
  chainId := none
  lagToleranceBlocks := 30

/-- Three probes go unanswered, the last of them after a quarantine. -/
def threeUnanswered : List PaceEvent :=
  [.probe none (some 7) (Duration.fromSecs 1), .probe none (some 8) (Duration.fromSecs 6),
    .probe none none (Duration.fromSecs 11), .reschedule (Duration.fromSecs 10),
    .attempt .noAnswer (Duration.fromSecs 12) (Duration.fromSecs 13),
    .probe none none (Duration.fromSecs 16), .reschedule (Duration.fromSecs 15),
    .quarantine .chain, .probe none none (Duration.fromSecs 21)]

/-- The third unanswered probe is pushed out by more than the interval. -/
theorem quarantine_never_slowed_three : ∃ state,
    (machine minuteApart).run (joined (Provider.new "near" "http://near" .static) 0)
      threeUnanswered = some state ∧ state.provider.healthy = false :=
  ⟨_, rfl, ((quarantine_never_slowed minuteApart (by decide)
    (Provider.new "near" "http://near" .static) 0 threeUnanswered _ rfl).1 (Duration.fromSecs 20) _
      rfl (by decide)).1⟩

end Paced

end CommunityLb
