import CommunityLb.Integrity.Judge
import CommunityLb.Lib.Machine

/-!
# Rounds and admission checks

A check asks its providers, looks again at those that differed after a wait, and then records a
verdict for each of them.  Several checks run at once, over the same entries.
-/

namespace CommunityLb

variable {ν : Type}

/-- One read of a provider: to be made, made at a moment and not judged yet, or judged. -/
inductive Look (ν : Type) where
  | waiting
  | answered (answers : Answers ν) (readAt : Nat)
  | judged (verdict : Verdict) (evidence : Option (Evidence ν)) (readAt : Nat)
  deriving DecidableEq

/-- One provider in a check: the first look, and the second where there is one. -/
structure Finding (ν : Type) where
  provider : Handle
  first : Look ν
  second : Option (Look ν)

namespace Finding

/-- The look that counts. -/
def look (finding : Finding ν) : Look ν :=
  finding.second.getD finding.first

/-- The look that counts is another. -/
def setLook (finding : Finding ν) (look : Look ν) : Finding ν :=
  match finding.second with
  | none => { finding with first := look }
  | some _ => { finding with second := some look }

/-- A provider to be asked. -/
def asked (provider : Handle) : Finding ν where
  provider := provider
  first := .waiting
  second := none

@[simp]
theorem setLook_provider (finding : Finding ν) (look : Look ν) :
    (finding.setLook look).provider = finding.provider := by
  unfold setLook
  split <;> rfl

@[simp]
theorem setLook_look (finding : Finding ν) (look : Look ν) : (finding.setLook look).look = look := by
  unfold setLook
  split
  · next once => simp [Finding.look, once]
  · rfl

/-- The verdict of the look that counts, once it is judged. -/
def verdict (finding : Finding ν) : Option Verdict :=
  match finding.look with
  | .judged verdict _ _ => some verdict
  | _ => none

end Finding

/-- Where a check stands. -/
inductive CheckPhase where
  | looking
  /-- Waiting before the second look. -/
  | sleeping
  | lookingAgain
  | recorded
  deriving DecidableEq, Repr

/-- One check: a round over the healthy providers, or the check of one at its admission. -/
structure Check (ν : Type) where
  expected : Expected ν
  findings : List (Finding ν)
  phase : CheckPhase

namespace Check

/-- Every provider's look is judged. -/
def allJudged (check : Check ν) : Bool :=
  check.findings.all (·.verdict.isSome)

/-- Some provider differed. -/
def doubtful (check : Check ν) : Bool :=
  check.findings.any (·.verdict = some .divergence)

/-- One provider's look changed. -/
def put (check : Check ν) (provider : Handle) (look : Look ν) : Check ν :=
  { check with
    findings := check.findings.map fun finding =>
      if finding.provider = provider then finding.setLook look else finding }

/-- No provider is asked twice. -/
def Distinct (check : Check ν) : Prop :=
  (check.findings.map (·.provider)).Nodup

/-- The one finding of a provider changes, and no other. -/
theorem mem_put {check : Check ν} (distinct : check.Distinct) {provider : Handle}
    {finding : Finding ν} (found : check.findings.find? (·.provider = provider) = some finding)
    {look : Look ν} {other : Finding ν} (member : other ∈ (check.put provider look).findings) :
    (other.provider = provider ∧ other = finding.setLook look) ∨
      (other.provider ≠ provider ∧ other ∈ check.findings) := by
  obtain ⟨old, inOld, rfl⟩ := List.mem_map.mp member
  by_cases same : old.provider = provider
  · left
    rw [if_pos same]
    have isFound : finding.provider = provider := by simpa using List.find?_some found
    have inCheck := List.mem_of_find?_eq_some found
    obtain rfl := List.inj_on_of_nodup_map distinct inOld inCheck (same.trans isFound.symm)
    exact ⟨by simpa using same, rfl⟩
  · right
    rw [if_neg same]
    exact ⟨same, inOld⟩

theorem put_providers (check : Check ν) (provider : Handle) (look : Look ν) :
    (check.put provider look).findings.map (·.provider) = check.findings.map (·.provider) := by
  simp only [put, List.map_map]
  refine List.map_congr_left fun finding _ => ?_
  simp only [Function.comp]
  split
  · exact finding.setLook_provider look
  · rfl

theorem put_distinct {check : Check ν} (distinct : check.Distinct) (provider : Handle)
    (look : Look ν) : (check.put provider look).Distinct := by
  rw [Distinct, put_providers]
  exact distinct

/-- The providers that differed are to be asked again. -/
def lookAgain (check : Check ν) : Check ν :=
  { check with
    findings := check.findings.map fun finding =>
      if finding.verdict = some .divergence then { finding with second := some .waiting }
      else finding
    phase := .lookingAgain }

theorem lookAgain_providers (check : Check ν) :
    check.lookAgain.findings.map (·.provider) = check.findings.map (·.provider) := by
  simp only [lookAgain, List.map_map]
  refine List.map_congr_left fun finding _ => ?_
  simp only [Function.comp]
  split <;> rfl

theorem lookAgain_distinct {check : Check ν} (distinct : check.Distinct) :
    check.lookAgain.Distinct := by
  rw [Distinct, lookAgain_providers]
  exact distinct

end Check

/-- A verdict as it was recorded, and when the provider was read for it. -/
structure Recorded where
  provider : Handle
  verdict : Verdict
  readAt : Nat
  deriving DecidableEq, Repr

/-- The record of a finding. -/
def Finding.recorded? (finding : Finding ν) : Option Recorded :=
  match finding.look with
  | .judged verdict _ readAt =>
      some
        { provider := finding.provider
          verdict := verdict
          readAt := readAt }
  | _ => none

/-- The entries, the checks started so far, and what is on its way. -/
structure Rounds (ν : Type) where
  /-- Every read of a provider has a moment of its own. -/
  clock : Nat
  entries : List Watched
  /-- The head each provider has. -/
  heads : List Nat
  /-- Heights that probes were answered and that are not recorded yet. -/
  probed : List (Handle × Nat)
  checks : List (Check ν)
  /-- The verdicts recorded so far, newest first. -/
  log : List Recorded

/-- What happens around the checks. -/
inductive RoundEvent (ν : Type) where
  /-- A provider joins the pool, with the head it has. -/
  | join (provider : Provider) (now : Instant) (head : Nat)
  /-- The timer's round over the healthy providers. -/
  | round (providers : List Handle) (expected : Expected ν)
  /-- The check of one provider at its admission. -/
  | check (provider : Handle) (expected : Expected ν)
  /-- A provider answers a check: the moment is its block's read, the rows are read after it. -/
  | answer (check : Nat) (provider : Handle) (answers : Answers ν)
  | judge (check : Nat) (provider : Handle)
  /-- Every look is judged: the wait begins, or the verdicts are recorded. -/
  | settle (check : Nat)
  /-- The wait is over. -/
  | wake (check : Nat)
  /-- A provider answers a probe. -/
  | probe (provider : Handle) (height : Nat)
  | recordHeight (provider : Handle) (height : Nat)
  /-- A provider's head moves on. -/
  | advance (provider : Handle) (blocks : Nat)
  /-- The health gate moves. -/
  | health (provider : Handle) (value : Bool)

namespace Rounds

/-- One entry changed. -/
def modify (state : Rounds ν) (provider : Handle) (change : Watched → Watched) : Rounds ν :=
  { state with entries := state.entries.modify provider change }

/-- One verdict onto its provider's entry. -/
def record (height : Nat) (state : Rounds ν) (recorded : Recorded) : Rounds ν :=
  { state.modify recorded.provider fun provider =>
      provider.recordIntegrity recorded.verdict height with
    log := recorded :: state.log }

/-- Every verdict of a check. -/
def recordAll (state : Rounds ν) (check : Check ν) : Rounds ν :=
  (check.findings.filterMap Finding.recorded?).foldl (record check.expected.finalized.number) state

/-- One check changed. -/
def setCheck (state : Rounds ν) (index : Nat) (check : Check ν) : Rounds ν :=
  { state with checks := state.checks.set index check }

/-- A check begins. -/
def start (state : Rounds ν) (providers : List Handle) (expected : Expected ν) : Rounds ν :=
  { state with
    checks := state.checks ++
      [{ expected := expected
         findings := providers.map Finding.asked
         phase := .looking }] }

variable [DecidableEq ν]

/-- One event, where it can happen. -/
def step (state : Rounds ν) : RoundEvent ν → Option (Rounds ν)
  | .join provider now head =>
      some
        { state with
          entries := state.entries ++ [Watched.born provider now]
          heads := state.heads ++ [head] }
  | .round providers expected =>
      if providers.Nodup ∧ providers.all fun provider =>
          state.entries[provider]?.any fun entry => entry.healthy then
        some (state.start providers expected)
      else none
  | .check provider expected =>
      if provider < state.entries.length then some (state.start [provider] expected) else none
  | .answer index provider answers => do
      let check ← state.checks[index]?
      let finding ← check.findings.find? (·.provider = provider)
      if (check.phase = .looking ∨ check.phase = .lookingAgain) ∧ finding.look = .waiting then
        some
          { state.setCheck index (check.put provider (.answered answers state.clock)) with
            clock := state.clock + 1 }
      else none
  | .judge index provider => do
      let check ← state.checks[index]?
      let finding ← check.findings.find? (·.provider = provider)
      match finding.look with
      | .answered answers readAt =>
          let lastHeight := state.entries[provider]?.bind Watched.lastHeight
          let (verdict, evidence) := judge lastHeight answers check.expected
          some (state.setCheck index (check.put provider (.judged verdict evidence readAt)))
      | _ => none
  | .settle index => do
      let check ← state.checks[index]?
      if !check.allJudged then none
      else
        match check.phase with
        | .looking =>
            if check.doubtful then some (state.setCheck index { check with phase := .sleeping })
            else some ((state.setCheck index { check with phase := .recorded }).recordAll check)
        | .lookingAgain =>
            some ((state.setCheck index { check with phase := .recorded }).recordAll check)
        | _ => none
  | .wake index => do
      let check ← state.checks[index]?
      if check.phase = .sleeping then some (state.setCheck index check.lookAgain) else none
  | .probe provider height => some { state with probed := (provider, height) :: state.probed }
  | .recordHeight provider height =>
      if (provider, height) ∈ state.probed then
        some
          { state.modify provider (·.recordHeight height) with
            probed := state.probed.erase (provider, height) }
      else none
  | .advance provider blocks =>
      some { state with heads := state.heads.modify provider (· + blocks) }
  | .health provider value => some (state.modify provider (·.setGate .health value))

/-- An answer is the look of a finding that waits, at the moment the clock shows. -/
theorem answer_cases {state next : Rounds ν} {index : Nat} {provider : Handle}
    {answers : Answers ν} (stepped : state.step (.answer index provider answers) = some next) :
    ∃ check finding, state.checks[index]? = some check ∧
      check.findings.find? (·.provider = provider) = some finding ∧
      (check.phase = .looking ∨ check.phase = .lookingAgain) ∧ finding.look = .waiting ∧
      next =
        { state.setCheck index (check.put provider (.answered answers state.clock)) with
          clock := state.clock + 1 } := by
  simp only [step, Option.bind_eq_bind, Option.bind_eq_some_iff] at stepped
  obtain ⟨check, isCheck, finding, found, stepped⟩ := stepped
  split at stepped
  · next waits =>
      cases stepped
      exact ⟨check, finding, isCheck, found, waits.1, waits.2, rfl⟩
  · cases stepped

/-- A judgement is of an answer, with the height the probes last reported. -/
theorem judge_cases {state next : Rounds ν} {index : Nat} {provider : Handle}
    (stepped : state.step (.judge index provider) = some next) :
    ∃ check finding answers readAt, state.checks[index]? = some check ∧
      check.findings.find? (·.provider = provider) = some finding ∧
      finding.look = .answered answers readAt ∧
      next = state.setCheck index (check.put provider
        (.judged
          (judge (state.entries[provider]?.bind Watched.lastHeight) answers check.expected).1
          (judge (state.entries[provider]?.bind Watched.lastHeight) answers check.expected).2
          readAt)) := by
  simp only [step, Option.bind_eq_bind, Option.bind_eq_some_iff] at stepped
  obtain ⟨check, isCheck, finding, found, stepped⟩ := stepped
  split at stepped
  · next answers readAt isAnswered =>
      cases stepped
      exact ⟨check, finding, answers, readAt, isCheck, found, isAnswered, rfl⟩
  · cases stepped

/-- With every look judged a check waits, where some provider differed at the first; or it records
its verdicts. -/
theorem settle_cases {state next : Rounds ν} {index : Nat}
    (stepped : state.step (.settle index) = some next) :
    ∃ check, state.checks[index]? = some check ∧ check.allJudged = true ∧
      ((check.phase = .looking ∧ check.doubtful = true ∧
          next = state.setCheck index { check with phase := .sleeping }) ∨
        ((check.phase = .lookingAgain ∨ check.phase = .looking ∧ check.doubtful = false) ∧
          next = (state.setCheck index { check with phase := .recorded }).recordAll check)) := by
  simp only [step, Option.bind_eq_bind, Option.bind_eq_some_iff] at stepped
  obtain ⟨check, isCheck, stepped⟩ := stepped
  refine ⟨check, isCheck, ?_⟩
  cases judged : check.allJudged with
  | false => simp [judged] at stepped
  | true =>
      refine ⟨rfl, ?_⟩
      simp only [judged, Bool.not_true, Bool.false_eq_true, if_false] at stepped
      split at stepped
      · next looking =>
          split at stepped
          · next doubtful =>
              cases stepped
              exact .inl ⟨looking, doubtful, rfl⟩
          · next clear =>
              cases stepped
              exact .inr ⟨.inr ⟨looking, by simpa using clear⟩, rfl⟩
      · next again =>
          cases stepped
          exact .inr ⟨.inl again, rfl⟩
      · cases stepped

/-- After the wait the providers that differed are to be asked again. -/
theorem wake_cases {state next : Rounds ν} {index : Nat}
    (stepped : state.step (.wake index) = some next) :
    ∃ check, state.checks[index]? = some check ∧ check.phase = .sleeping ∧
      next = state.setCheck index check.lookAgain := by
  simp only [step, Option.bind_eq_bind, Option.bind_eq_some_iff] at stepped
  obtain ⟨check, isCheck, stepped⟩ := stepped
  split at stepped
  · next sleeping =>
      cases stepped
      exact ⟨check, isCheck, sleeping, rfl⟩
  · cases stepped

/-- The checks over the entries. -/
def machine : Machine (Rounds ν) (RoundEvent ν) where
  step := step

/-- Before the first provider. -/
def initial : Rounds ν where
  clock := 0
  entries := []
  heads := []
  probed := []
  checks := []
  log := []

end Rounds

end CommunityLb
