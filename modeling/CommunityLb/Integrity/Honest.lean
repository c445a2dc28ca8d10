import CommunityLb.Integrity.Rounds

/-!
# An honest provider is never taken out

Of two looks the second comes after the probes reported the height, and so after the provider had
it: whatever it answers then is the chain's.
-/

namespace CommunityLb

variable {ν : Type} [DecidableEq ν]

namespace Rounds

/-- The head a provider has. -/
def headOf (state : Rounds ν) (provider : Handle) : Nat :=
  state.heads[provider]?.getD 0

/-- The head its probes last reported. -/
def heightOf (state : Rounds ν) (provider : Handle) : Option Nat :=
  state.entries[provider]?.bind Watched.lastHeight

/-- A provider serves the chain's data, from a head it truly reports, or fails. -/
def Honest (provider : Handle) (state : Rounds ν) : RoundEvent ν → Prop
  | .answer index asked answers =>
      asked = provider → ∀ check ∈ state.checks[index]?,
        HonestAnswer (state.headOf provider) answers check.expected
  | .probe asked height => asked = provider → height = state.headOf provider
  | _ => True

/-- What a check can have of an honest provider. -/
def Fair (head : Nat) (expected : Expected ν) (phase : CheckPhase) (finding : Finding ν) : Prop :=
  match finding.second, finding.first with
  | none, .waiting => phase = .looking
  | none, .answered answers _ =>
      phase = .looking ∧ ∃ then_ ≤ head, HonestAnswer then_ answers expected
  | none, .judged verdict _ _ =>
      verdict = .divergence → expected.finalized.number ≤ head ∧ phase ≠ .lookingAgain
  | some .waiting, _ => expected.finalized.number ≤ head
  | some (.answered answers _), _ =>
      ∃ then_ ≤ head, expected.finalized.number ≤ then_ ∧ HonestAnswer then_ answers expected
  | some (.judged verdict _ _), _ => verdict ≠ .divergence

/-- The probes never report more than the head, and no divergence is recorded. -/
structure Trusted (provider : Handle) (state : Rounds ν) : Prop where
  distinct : ∀ check ∈ state.checks, check.Distinct
  height : ∀ height ∈ state.heightOf provider, height ≤ state.headOf provider
  probed : ∀ height, (provider, height) ∈ state.probed → height ≤ state.headOf provider
  fair : ∀ check ∈ state.checks, ∀ finding ∈ check.findings, finding.provider = provider →
    Fair (state.headOf provider) check.expected check.phase finding
  log : ∀ recorded ∈ state.log, recorded.provider = provider → recorded.verdict ≠ .divergence

omit [DecidableEq ν] in
theorem Fair.mono {head later : Nat} {expected : Expected ν} {phase : CheckPhase}
    {finding : Finding ν} (fair : Fair head expected phase finding) (le : head ≤ later) :
    Fair later expected phase finding := by
  obtain ⟨provider, first, second⟩ := finding
  cases second with
  | none =>
      cases first with
      | waiting => exact fair
      | answered answers readAt =>
          obtain ⟨looking, then_, atMost, honest⟩ := fair
          exact ⟨looking, then_, atMost.trans le, honest⟩
      | judged verdict evidence readAt =>
          exact fun diverged => (fair diverged).imp_left (·.trans le)
  | some look =>
      cases look with
      | waiting => exact le_trans fair le
      | answered answers readAt =>
          obtain ⟨then_, atMost, reached, honest⟩ := fair
          exact ⟨then_, atMost.trans le, reached, honest⟩
      | judged verdict evidence readAt => exact fair

omit [DecidableEq ν] in
/-- A fair finding that counts is no divergence. -/
theorem Fair.verdict {head : Nat} {expected : Expected ν} {phase : CheckPhase}
    {finding : Finding ν} (fair : Fair head expected phase finding)
    (again : phase = .lookingAgain) : finding.verdict ≠ some .divergence := by
  obtain ⟨provider, first, second⟩ := finding
  cases second with
  | none =>
      cases first with
      | judged verdict evidence readAt =>
          intro diverged
          exact (fair (by simpa [Finding.verdict, Finding.look] using diverged)).2 again
      | _ => simp [Finding.verdict, Finding.look]
  | some look =>
      cases look with
      | judged verdict evidence readAt =>
          have differs : verdict ≠ .divergence := fair
          simpa [Finding.verdict, Finding.look] using differs
      | _ => simp [Finding.verdict, Finding.look]

omit [DecidableEq ν] in
/-- Asked, an honest provider answers fairly. -/
theorem Fair.answered {head : Nat} {expected : Expected ν} {phase : CheckPhase}
    {finding : Finding ν} (fair : Fair head expected phase finding)
    (waiting : finding.look = .waiting) {answers : Answers ν}
    (honest : HonestAnswer head answers expected) (readAt : Nat) :
    Fair head expected phase (finding.setLook (.answered answers readAt)) := by
  obtain ⟨provider, first, second⟩ := finding
  cases second with
  | none =>
      obtain rfl : first = .waiting := waiting
      exact ⟨fair, head, le_rfl, honest⟩
  | some look =>
      obtain rfl : look = .waiting := waiting
      exact ⟨head, le_rfl, fair, honest⟩

/-- Judged, a fair answer is a divergence at the first look only. -/
theorem Fair.judged {head : Nat} {expected : Expected ν} {phase : CheckPhase}
    {finding : Finding ν} {lastHeight : Option Nat} {answers : Answers ν} {readAt : Nat}
    (fair : Fair head expected phase finding) (answered : finding.look = .answered answers readAt)
    (reported : ∀ height ∈ lastHeight, height ≤ head) :
    Fair head expected phase (finding.setLook
      (.judged (judge lastHeight answers expected).1 (judge lastHeight answers expected).2
        readAt)) := by
  obtain ⟨provider, first, second⟩ := finding
  cases second with
  | none =>
      obtain rfl : first = .answered answers readAt := answered
      obtain ⟨looking, then_, _, honest⟩ := fair
      intro diverged
      obtain ⟨_, probed, isLast, past⟩ := judge_honest honest diverged
      refine ⟨past.trans (reported probed isLast), ?_⟩
      rw [looking]
      decide
  | some look =>
      obtain rfl : look = .answered answers readAt := answered
      obtain ⟨then_, _, reached, honest⟩ := fair
      intro diverged
      exact absurd (judge_honest honest diverged).1 (Nat.not_lt.mpr reached)

omit [DecidableEq ν] in
theorem heightOf_modify (state : Rounds ν) (changed provider : Handle)
    (change : Watched → Watched) (keeps : ∀ entry, (change entry).height = entry.height) :
    (state.modify changed change).heightOf provider = state.heightOf provider := by
  simp only [heightOf, modify, List.getElem?_modify]
  split
  · cases state.entries[provider]? with
    | none => rfl
    | some entry => exact keeps entry
  · cases state.entries[provider]? <;> rfl

theorem recordIntegrity_height (entry : Watched) (verdict : Verdict) (height : Nat) :
    (entry.recordIntegrity verdict height).height = entry.height := by
  cases verdict <;> rfl

omit [DecidableEq ν] in
/-- Verdicts are recorded, none of them a divergence of the provider. -/
theorem Trusted.recordAll {provider : Handle} {state : Rounds ν} (trusted : Trusted provider state)
    {height : Nat} {records : List Recorded}
    (fine : ∀ recorded ∈ records, recorded.provider = provider →
      recorded.verdict ≠ .divergence) :
    Trusted provider (records.foldl (record height) state) := by
  induction records generalizing state with
  | nil => exact trusted
  | cons recorded records ih =>
      refine ih ⟨trusted.distinct, ?_, trusted.probed, trusted.fair, ?_⟩
        fun other member => fine other (List.mem_cons_of_mem _ member)
      · have same := heightOf_modify state recorded.provider provider
          (fun entry => entry.recordIntegrity recorded.verdict height)
          fun entry => recordIntegrity_height entry _ _
        intro reported isReported
        exact trusted.height reported (same ▸ isReported)
      · intro other member
        rcases List.mem_cons.mp member with rfl | earlier
        · exact fine other List.mem_cons_self
        · exact trusted.log other earlier

omit [DecidableEq ν] in
/-- One check changes, and stays fair. -/
theorem Trusted.setCheck {provider : Handle} {state : Rounds ν} (trusted : Trusted provider state)
    (index : Nat) (check : Check ν) (distinct : check.Distinct)
    (fair : ∀ finding ∈ check.findings, finding.provider = provider →
      Fair (state.headOf provider) check.expected check.phase finding) :
    Trusted provider (state.setCheck index check) := by
  refine ⟨fun other member => ?_, trusted.height, trusted.probed, fun other member => ?_,
    trusted.log⟩
  · rcases List.mem_or_eq_of_mem_set member with old | rfl
    · exact trusted.distinct other old
    · exact distinct
  · rcases List.mem_or_eq_of_mem_set member with old | rfl
    · exact trusted.fair other old
    · exact fair

omit [DecidableEq ν] in
/-- A check begins with nobody asked. -/
theorem Trusted.start {provider : Handle} {state : Rounds ν} (trusted : Trusted provider state)
    {providers : List Handle} (nodup : providers.Nodup) (expected : Expected ν) :
    Trusted provider (state.start providers expected) := by
  refine ⟨fun check member => ?_, trusted.height, trusted.probed, fun check member => ?_,
    trusted.log⟩
  · rcases List.mem_append.mp member with old | isNew
    · exact trusted.distinct check old
    · obtain rfl := List.mem_singleton.mp isNew
      simpa [Check.Distinct, Finding.asked, Function.comp_def] using nodup
  · rcases List.mem_append.mp member with old | isNew
    · exact trusted.fair check old
    · obtain rfl := List.mem_singleton.mp isNew
      intro finding inCheck mine
      obtain ⟨asked, _, rfl⟩ := List.mem_map.mp inCheck
      exact rfl

omit [DecidableEq ν] in
/-- One provider's look changes, and the finding stays fair where it is the honest one's. -/
theorem Trusted.put {provider : Handle} {state : Rounds ν} (trusted : Trusted provider state)
    {index : Nat} {check : Check ν} (isCheck : state.checks[index]? = some check)
    {asked : Handle} {finding : Finding ν}
    (found : check.findings.find? (·.provider = asked) = some finding) (look : Look ν)
    (fair : asked = provider → Fair (state.headOf provider) check.expected check.phase finding →
      Fair (state.headOf provider) check.expected check.phase (finding.setLook look)) :
    Trusted provider (state.setCheck index (check.put asked look)) := by
  have known := List.mem_of_getElem? isCheck
  have distinct := trusted.distinct check known
  refine trusted.setCheck index _ (Check.put_distinct distinct asked look) fun other member mine => ?_
  rcases Check.mem_put distinct found member with ⟨same, rfl⟩ | ⟨_, old⟩
  · have isAsked : finding.provider = asked := by simpa using List.find?_some found
    have isMine : asked = provider := same.symm.trans mine
    exact fair isMine (trusted.fair check known finding (List.mem_of_find?_eq_some found)
      (isAsked.trans isMine))
  · exact trusted.fair check known other old mine

omit [DecidableEq ν] in
/-- Once every look is judged the wait leaves a fair finding fair. -/
theorem Fair.sleeping {head : Nat} {expected : Expected ν} {finding : Finding ν}
    (fair : Fair head expected .looking finding) (judged : finding.verdict.isSome = true) :
    Fair head expected .sleeping finding := by
  obtain ⟨provider, first, second⟩ := finding
  cases second with
  | none =>
      cases first with
      | judged verdict evidence readAt =>
          intro diverged
          exact ⟨(fair diverged).1, by decide⟩
      | _ => simp [Finding.verdict, Finding.look] at judged
  | some look => cases look <;> exact fair

omit [DecidableEq ν] in
/-- The verdicts are recorded, and with them the check is over. -/
theorem Fair.recorded {head : Nat} {expected : Expected ν} {phase : CheckPhase}
    {finding : Finding ν} (fair : Fair head expected phase finding)
    (judged : finding.verdict.isSome = true) (clear : finding.verdict ≠ some .divergence) :
    Fair head expected .recorded finding := by
  obtain ⟨provider, first, second⟩ := finding
  cases second with
  | none =>
      cases first with
      | judged verdict evidence readAt =>
          intro diverged
          exact absurd (by simp [Finding.verdict, Finding.look, diverged]) clear
      | _ => simp [Finding.verdict, Finding.look] at judged
  | some look => cases look <;> exact fair

omit [DecidableEq ν] in
/-- After the wait a provider that differed had the height when it is asked again. -/
theorem Fair.again {head : Nat} {expected : Expected ν} {finding : Finding ν}
    (fair : Fair head expected .sleeping finding) :
    Fair head expected .lookingAgain
      (if finding.verdict = some .divergence then { finding with second := some .waiting }
        else finding) := by
  obtain ⟨provider, first, second⟩ := finding
  cases second with
  | none =>
      cases first with
      | waiting => cases fair
      | answered answers readAt => cases fair.1
      | judged verdict evidence readAt =>
          by_cases diverged : verdict = .divergence
          · simp only [Finding.verdict, Finding.look, Option.getD_none, diverged, if_true]
            exact (fair diverged).1
          · simp only [Finding.verdict, Finding.look, Option.getD_none, Option.some.injEq, diverged,
              if_false]
            exact fun same => absurd same diverged
  | some look =>
      have clear : ({ provider, first, second := some look } : Finding ν).verdict ≠
          some .divergence := by
        cases look with
        | judged verdict evidence readAt =>
            have differs : verdict ≠ .divergence := fair
            simpa [Finding.verdict, Finding.look] using differs
        | _ => simp [Finding.verdict, Finding.look]
      rw [if_neg clear]
      cases look <;> exact fair

omit [DecidableEq ν] in
/-- What a finding is recorded as. -/
theorem recorded_of_mem {check : Check ν} {recorded : Recorded}
    (member : recorded ∈ check.findings.filterMap Finding.recorded?) :
    ∃ finding ∈ check.findings, finding.provider = recorded.provider ∧
      finding.verdict = some recorded.verdict := by
  obtain ⟨finding, inCheck, isRecorded⟩ := List.mem_filterMap.mp member
  refine ⟨finding, inCheck, ?_⟩
  simp only [Finding.recorded?] at isRecorded
  split at isRecorded
  · next verdict evidence readAt isJudged =>
      cases isRecorded
      exact ⟨rfl, by simp [Finding.verdict, isJudged]⟩
  · cases isRecorded

omit [DecidableEq ν] in
/-- A probe's height is never over the head the provider has by then. -/
theorem Trusted.recordHeight {provider : Handle} {state : Rounds ν}
    (trusted : Trusted provider state) {asked : Handle} {height : Nat}
    (isProbed : (asked, height) ∈ state.probed) :
    ∀ reported ∈ (state.modify asked (·.recordHeight height)).heightOf provider,
      reported ≤ state.headOf provider := by
  intro reported isReported
  by_cases same : asked = provider
  · subst same
    have atMost := trusted.probed height isProbed
    simp only [heightOf, modify, List.getElem?_modify, if_true] at isReported
    cases entry : state.entries[asked]? with
    | none => simp [entry] at isReported
    | some found =>
        have isHeight : min height (U64_MAX - 1) = reported := by
          simpa [entry, Watched.lastHeight, Watched.recordHeight] using isReported
        exact isHeight ▸ (Nat.min_le_left _ _).trans atMost
  · refine trusted.height reported ?_
    simpa [heightOf, modify, List.getElem?_modify, same] using isReported

omit [DecidableEq ν] in
/-- A provider that joins has no height on its entry, and is at no lower a head than before. -/
theorem Trusted.join {provider : Handle} {state : Rounds ν} (trusted : Trusted provider state)
    (joined : Provider) (now : Instant) (head : Nat) :
    Trusted provider
      { state with
        entries := state.entries ++ [Watched.born joined now]
        heads := state.heads ++ [head] } := by
  have later : state.headOf provider ≤ (state.heads ++ [head])[provider]?.getD 0 := by
    rw [headOf, List.getElem?_append]
    split
    · exact le_rfl
    · next absent => simp [List.getElem?_eq_none (Nat.le_of_not_lt absent)]
  refine ⟨trusted.distinct, fun height isHeight => ?_,
    fun height member => (trusted.probed height member).trans later,
    fun check member finding inCheck mine =>
      (trusted.fair check member finding inCheck mine).mono later, trusted.log⟩
  rw [heightOf, List.getElem?_append] at isHeight
  split at isHeight
  · exact (trusted.height height isHeight).trans later
  · obtain ⟨entry, isEntry, isLast⟩ := Option.bind_eq_some_iff.mp isHeight
    obtain rfl := List.mem_singleton.mp (List.mem_of_getElem? isEntry)
    cases isLast

/-- One event around an honest provider. -/
theorem Trusted.step {provider : Handle} {state next : Rounds ν} {event : RoundEvent ν}
    (trusted : Trusted provider state) (honest : Honest provider state event)
    (stepped : state.step event = some next) : Trusted provider next := by
  cases event with
  | join joined now head =>
      cases stepped
      exact trusted.join joined now head
  | round providers expected =>
      simp only [Rounds.step] at stepped
      split at stepped
      · next healthy =>
          cases stepped
          exact trusted.start healthy.1 expected
      · cases stepped
  | check asked expected =>
      simp only [Rounds.step] at stepped
      split at stepped
      · cases stepped
        exact trusted.start (List.nodup_singleton asked) expected
      · cases stepped
  | answer index asked answers =>
      obtain ⟨check, finding, isCheck, found, _, waits, rfl⟩ := answer_cases stepped
      have put := trusted.put isCheck found (.answered answers state.clock)
        fun mine fair => fair.answered waits (honest mine check isCheck) state.clock
      exact ⟨put.distinct, put.height, put.probed, put.fair, put.log⟩
  | judge index asked =>
      obtain ⟨check, finding, answers, readAt, isCheck, found, isAnswered, rfl⟩ :=
        judge_cases stepped
      refine trusted.put isCheck found _ fun mine fair => fair.judged isAnswered ?_
      subst mine
      exact trusted.height
  | settle index =>
      obtain ⟨check, isCheck, allJudged, outcome⟩ := settle_cases stepped
      have known := List.mem_of_getElem? isCheck
      have judged : ∀ finding ∈ check.findings, finding.verdict.isSome = true := by
        simpa [Check.allJudged] using allJudged
      rcases outcome with ⟨looking, _, rfl⟩ | ⟨final, rfl⟩
      · refine trusted.setCheck index _ (trusted.distinct check known) fun finding member mine => ?_
        have fair := trusted.fair check known finding member mine
        rw [looking] at fair
        exact fair.sleeping (judged finding member)
      · have clear : ∀ finding ∈ check.findings, finding.provider = provider →
            finding.verdict ≠ some .divergence := by
          intro finding member mine
          rcases final with again | ⟨_, agreed⟩
          · exact (trusted.fair check known finding member mine).verdict again
          · have none_ : ∀ other ∈ check.findings, other.verdict ≠ some .divergence := by
              simpa [Check.doubtful] using agreed
            exact none_ finding member
        have recording := trusted.setCheck index { check with phase := .recorded }
          (trusted.distinct check known) fun finding member mine => ?_
        · refine recording.recordAll fun recorded member mine => ?_
          obtain ⟨finding, inCheck, same, isVerdict⟩ := recorded_of_mem member
          intro diverged
          exact clear finding inCheck (same.trans mine) (diverged ▸ isVerdict)
        · exact (trusted.fair check known finding member mine).recorded (judged finding member)
            (clear finding member mine)
  | wake index =>
      obtain ⟨check, isCheck, sleeping, rfl⟩ := wake_cases stepped
      have known := List.mem_of_getElem? isCheck
      refine trusted.setCheck index _ (Check.lookAgain_distinct (trusted.distinct check known))
        fun finding member mine => ?_
      obtain ⟨old, inCheck, rfl⟩ := List.mem_map.mp member
      have isMine : old.provider = provider := by
        split at mine <;> exact mine
      have fair := trusted.fair check known old inCheck isMine
      rw [sleeping] at fair
      exact fair.again
  | probe asked height =>
      cases stepped
      refine ⟨trusted.distinct, trusted.height, fun reported member => ?_, trusted.fair,
        trusted.log⟩
      rcases List.mem_cons.mp member with same | earlier
      · cases same
        exact (honest rfl).le
      · exact trusted.probed reported earlier
  | recordHeight asked height =>
      simp only [Rounds.step] at stepped
      split at stepped
      · next isProbed =>
          cases stepped
          exact ⟨trusted.distinct, trusted.recordHeight isProbed,
            fun reported member => trusted.probed reported (List.mem_of_mem_erase member),
            trusted.fair, trusted.log⟩
      · cases stepped
  | advance moved blocks =>
      cases stepped
      have later : state.headOf provider ≤
          ({ state with heads := state.heads.modify moved (· + blocks) } :
            Rounds ν).headOf provider := by
        simp only [headOf, List.getElem?_modify]
        split
        · cases state.heads[provider]? <;> simp
        · cases state.heads[provider]? <;> simp
      exact ⟨trusted.distinct, fun height isHeight => (trusted.height height isHeight).trans later,
        fun height member => (trusted.probed height member).trans later,
        fun check member finding inCheck mine =>
          (trusted.fair check member finding inCheck mine).mono later, trusted.log⟩
  | health asked value =>
      cases stepped
      refine ⟨trusted.distinct, fun height isHeight => trusted.height height ?_, trusted.probed,
        trusted.fair, trusted.log⟩
      rwa [heightOf_modify state asked provider _ fun _ => by rfl] at isHeight

omit [DecidableEq ν] in
/-- Before the first provider nothing is held against anyone. -/
theorem Trusted.initial (provider : Handle) : Trusted provider (Rounds.initial : Rounds ν) where
  distinct := by simp [Rounds.initial]
  height := by simp [Rounds.initial, heightOf]
  probed := by simp [Rounds.initial]
  fair := by simp [Rounds.initial]
  log := by simp [Rounds.initial]

/-- A provider that serves the chain's data and truly reports its head is never recorded to have
diverged, whatever its answers wait for. -/
theorem never_diverges (provider : Handle) {events : List (RoundEvent ν)} {finish : Rounds ν}
    (honest : (machine : Machine (Rounds ν) _).Meets (Honest provider) initial events)
    (reached : machine.run initial events = some finish) :
    ∀ recorded ∈ finish.log, recorded.provider = provider → recorded.verdict ≠ .divergence := by
  have trusted : Trusted provider finish :=
    Machine.run_invariant (fun _ _ _ => Trusted.step) (Trusted.initial provider) honest reached
  exact trusted.log

/-- The reference's block, at height 5. -/
def fifth : BlockFields where
  number := 5
  hash := 0xb5
  parentHash := 0xb4
  stateRoot := 0x5a
  transactionsRoot := 0x5b
  receiptsRoot := 0x5c
  transactions := []

/-- A node behind the height is asked, reaches it, reports it, and is asked again. -/
def catchingUp : List (RoundEvent Nat) :=
  [.join (Provider.new "near" "http://near" .static) 0 4, .check 0 ⟨fifth, none⟩,
    .answer 0 0 ⟨.ok none, none⟩, .advance 0 2, .probe 0 6, .recordHeight 0 6, .judge 0 0,
    .settle 0, .wake 0, .answer 0 0 ⟨.ok (some fifth), none⟩, .judge 0 0, .settle 0]

theorem catching_up_matches : ∃ finish, machine.run initial catchingUp = some finish ∧
    finish.log.map (·.verdict) = [.match_] ∧
    ∀ recorded ∈ finish.log, recorded.provider = 0 → recorded.verdict ≠ .divergence := by
  refine ⟨_, rfl, rfl, @never_diverges Nat _ 0 catchingUp _ ?_ rfl⟩
  simp [catchingUp, Machine.Meets, machine, step, Honest, HonestAnswer, initial, headOf, start,
    setCheck, Check.put, Finding.asked, Finding.setLook, Check.allJudged, Finding.verdict,
    Finding.look, Check.doubtful, judge, Check.lookAgain, modify, Watched.lastHeight,
    Watched.recordHeight, Watched.born, U64_MAX, fifth]

end Rounds

end CommunityLb
