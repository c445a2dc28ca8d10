import CommunityLb.Pool

/-!
# What the probes and the integrity checks keep on an entry

The rest of a provider's entry: the streak of health results, the verdicts, the head its probes
reported, and when it is probed next.  Instants are in nanoseconds.
-/

namespace CommunityLb

/-- A point in time. -/
abbrev Instant := Nat

/-- One provider's verdict from one round. -/
inductive Verdict where
  | match_
  | stale
  | divergence
  | unknown
  deriving DecidableEq, Repr

/-- Where a health signal came from. -/
inductive HealthSignal where
  | probe
  | traffic
  | lag
  | chain
  | integrity
  deriving DecidableEq, Repr

/-- The largest signed number of 64 bits. -/
def I64_MAX : Int :=
  2 ^ 63 - 1

/-- The smallest. -/
def I64_MIN : Int :=
  -2 ^ 63

/-- The largest unsigned number of 64 bits. -/
def U64_MAX : Nat :=
  2 ^ 64 - 1

/-- A provider's entry with what the Monitor and the integrity checks write to it. -/
structure Watched extends Provider where
  /-- The last integrity verdict, and the height it was given at. -/
  verdict : Option (Verdict × Nat)
  /-- Positive: consecutive successes; negative: consecutive failures. -/
  healthStreak : Int
  /-- The last head height a probe returned. -/
  height : Option Nat
  chainVerified : Bool
  chainCheckDue : Bool
  nextProbe : Instant
  unansweredProbeStreak : Nat
  transportFailures : Nat
  /-- The source of the latest health signal. -/
  lastHealthSource : HealthSignal
  created : Instant
  /-- Milliseconds after `created` of the last answer. -/
  lastAnswerMs : Option Nat
  deriving DecidableEq, Repr

namespace Watched

/-- An entry as it is born. -/
def born (provider : Provider) (now : Instant) : Watched where
  toProvider := provider
  verdict := none
  healthStreak := 0
  height := none
  chainVerified := false
  chainCheckDue := true
  nextProbe := now
  unansweredProbeStreak := 0
  transportFailures := 0
  lastHealthSource := .probe
  created := now
  lastAnswerMs := none

/-- Makes the next probe due at once, and asks for a chain check. -/
def scheduleProbeNow (provider : Watched) (now : Instant) : Watched :=
  { provider with
    nextProbe := now
    chainCheckDue := true }

/-- Whether a chain check was asked for, and the entry with the request cleared. -/
def takeChainCheckDue (provider : Watched) : Bool × Watched :=
  (provider.chainCheckDue, { provider with chainCheckDue := false })

/-- The last answer is now. -/
def recordAnswer (provider : Watched) (now : Instant) : Watched :=
  { provider with lastAnswerMs := some ((now - provider.created) / 1000000) }

/-- Whether the provider answered anything at an instant or after. -/
def answeredSince (provider : Watched) (since : Instant) : Bool :=
  provider.lastAnswerMs.any ((since - provider.created) / 1000000 ≤ ·)

/-- One more probe gone unanswered; the counter has 32 bits and wraps. -/
def recordUnansweredProbe (provider : Watched) : Watched :=
  { provider with unansweredProbeStreak := (provider.unansweredProbeStreak + 1) % 2 ^ 32 }

/-- An answered probe ends the unanswered streak. -/
def recordAnsweredProbe (provider : Watched) (now : Instant) : Watched :=
  { provider with unansweredProbeStreak := 0 }.recordAnswer now

/-- One client-traffic attempt that produced no provider answer. -/
def recordTransportFailure (provider : Watched) : Watched :=
  { provider with transportFailures := provider.transportFailures + 1 }

/-- One completed forward. -/
def recordServed (provider : Watched) (now : Instant) : Watched :=
  { provider with toProvider := provider.toProvider.recordServed }.recordAnswer now

/-- A decoded head height; the largest number would read back as none. -/
def recordHeight (provider : Watched) (height : Nat) : Watched :=
  { provider with height := some (min height (U64_MAX - 1)) }

/-- The last head height a probe returned. -/
def lastHeight (provider : Watched) : Option Nat :=
  provider.height

/-- One gate's bit set to a value. -/
def setGate (provider : Watched) (gate : Gate) (value : Bool) : Watched :=
  { provider with toProvider := provider.toProvider.setEligibility gate value }

/-- Records one integrity verdict and the height it was given at. -/
def recordIntegrity (provider : Watched) (verdict : Verdict) (height : Nat) : Watched :=
  let provider := { provider with verdict := some (verdict, height) }
  match verdict with
  | .divergence => provider.setGate .integrity false
  | .match_ => provider.setGate .integrity true
  | .stale | .unknown => provider

theorem setGate_health_wrong (provider : Watched) (value : Bool) :
    (provider.setGate .health value).servingWrongData = provider.servingWrongData := by
  have byte : ∀ eligibility : BitVec 8, ∀ value : Bool,
      decide ((if value then eligibility ||| Gate.health.bit
        else eligibility &&& ~~~Gate.health.bit) &&& Gate.integrity.bit = 0) =
      decide (eligibility &&& Gate.integrity.bit = 0) := by
    decide +kernel
  exact byte provider.eligibility value

theorem setGate_integrity_wrong (provider : Watched) (value : Bool) :
    (provider.setGate .integrity value).servingWrongData = !value := by
  have byte : ∀ eligibility : BitVec 8, ∀ value : Bool,
      decide ((if value then eligibility ||| Gate.integrity.bit
        else eligibility &&& ~~~Gate.integrity.bit) &&& Gate.integrity.bit = 0) = !value := by
    decide +kernel
  exact byte provider.eligibility value

/-- Only a divergence closes the integrity gate, and only a match opens it. -/
theorem recordIntegrity_wrong (provider : Watched) (verdict : Verdict) (height : Nat) :
    (provider.recordIntegrity verdict height).servingWrongData =
      match verdict with
      | .divergence => true
      | .match_ => false
      | .stale | .unknown => provider.servingWrongData := by
  cases verdict with
  | divergence => exact setGate_integrity_wrong _ false
  | match_ => exact setGate_integrity_wrong _ true
  | stale => rfl
  | unknown => rfl

/-- The streak after one result. -/
def streakStep (success : Bool) (streak : Int) : Int :=
  if success then min (max streak 0 + 1) I64_MAX else max (min streak 0 - 1) I64_MIN

/-- Records one health signal, and flips the gate once `flipAfter` results in a row agree. -/
def recordHealth (provider : Watched) (success : Bool) (flipAfter : Nat) (source : HealthSignal) :
    Watched :=
  let streak := streakStep success provider.healthStreak
  let provider :=
    { provider with
      lastHealthSource := source
      healthStreak := streak }
  if streak ≥ flipAfter then provider.setGate .health true
  else if streak ≤ -flipAfter then provider.setGate .health false
  else provider

@[simp]
theorem recordHealth_healthStreak (provider : Watched) (success : Bool) (flipAfter : Nat)
    (source : HealthSignal) :
    (provider.recordHealth success flipAfter source).healthStreak =
      streakStep success provider.healthStreak := by
  simp only [recordHealth]
  split
  · rfl
  · split <;> rfl

@[simp]
theorem recordHealth_chainVerified (provider : Watched) (success : Bool) (flipAfter : Nat)
    (source : HealthSignal) :
    (provider.recordHealth success flipAfter source).chainVerified = provider.chainVerified := by
  simp only [recordHealth]
  split
  · rfl
  · split <;> rfl

/-- Takes the provider out at once; recovery starts from zero. -/
def quarantine (provider : Watched) (source : HealthSignal) : Watched :=
  { provider with
    healthStreak := 0
    lastHealthSource := source }.setGate .health false

end Watched

/-! ## The Monitor's steps over one provider -/

namespace Watched

/-- One chain check, as it was answered. -/
def verifyChain (provider : Watched) (expected : Nat) : Option Nat → Watched
  | some actual =>
      if actual = expected then { provider with chainVerified := true }
      else { provider with chainVerified := false }.quarantine .chain
  | none => provider

/-- Whether the provider may be probed, and the entry after the check, when one is made.  Without a
chain id everyone is cleared. -/
def chainCleared (config : Health) (provider : Watched) (chainRound : Bool)
    (answer : Option Nat) : Bool × Watched :=
  match config.chainId with
  | none => (true, provider)
  | some expected =>
      let (asked, provider) := provider.takeChainCheckDue
      let provider :=
        if chainRound || asked then provider.verifyChain expected answer else provider
      (provider.chainVerified, provider)

/-- One probe, as it was answered: whether it was, and the entry after it. -/
def probe (config : Health) (provider : Watched) (referenceHeight height : Option Nat)
    (now : Instant) : Bool × Watched :=
  match height with
  | none =>
      (false, provider.recordUnansweredProbe.recordHealth false config.flipAfter .probe)
  | some height =>
      let provider := (provider.recordAnsweredProbe now).recordHeight height
      let behind := referenceHeight.any fun reference =>
        min (height + config.lagToleranceBlocks) U64_MAX < reference
      (true,
        if behind then provider.recordHealth false config.flipAfter .lag
        else provider.recordHealth true config.flipAfter .probe)

end Watched

/-- The wait before a failing provider's next probe, its factor one of 32 bits. -/
def probeDelay (config : Health) (failures : Nat) : Duration :=
  let excess := failures - config.flipAfter
  min (config.probeInterval * (if excess < 32 then 2 ^ excess else 2 ^ 32 - 1))
    config.maxProbeBackoff

/-- An unanswered probe pushes the next one out, from the sweep's start. -/
def Watched.rescheduleUnanswered (config : Health) (provider : Watched) (now : Instant) :
    Watched :=
  { provider with nextProbe := now + probeDelay config provider.unansweredProbeStreak }

/-- How one attempt to forward a request ended. -/
inductive Outcome where
  | answer
  | tooLarge
  | noAnswer
  | timedOut
  deriving DecidableEq, Repr

/-- What an attempt writes to the entry of the provider it was made at. -/
def Watched.attempted (config : Health) (provider : Watched) (outcome : Outcome)
    (attemptStarted now : Instant) : Watched :=
  match outcome with
  | .answer => provider.recordServed now
  | .tooLarge => provider
  | .noAnswer => (provider.recordHealth false config.flipAfter .traffic).recordTransportFailure
  | .timedOut =>
      (if provider.answeredSince attemptStarted then provider
        else provider.recordHealth false config.flipAfter .traffic).recordTransportFailure

end CommunityLb
