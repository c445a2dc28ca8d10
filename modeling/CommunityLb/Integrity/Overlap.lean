import CommunityLb.Integrity.Rounds

/-!
# Overlapping checks of one provider

A check records what it read up to a wait and a second look ago.  A match held by a check that still
waits for others is older than a divergence another check records meanwhile.
-/

namespace CommunityLb

variable {ν : Type} [DecidableEq ν]

/-- The moment of the read that counts. -/
def Finding.readAt? (finding : Finding ν) : Option Nat :=
  match finding.look with
  | .waiting => none
  | .answered _ readAt => some readAt
  | .judged _ _ readAt => some readAt

/-- The moment of the read that counts, when it is a match, judged or to be. -/
def Finding.matchedAt? (expected : Expected ν) (finding : Finding ν) : Option Nat :=
  match finding.look with
  | .waiting => none
  | .answered answers readAt =>
      if (judge none answers expected).1 = .match_ then some readAt else none
  | .judged verdict _ readAt => if verdict = .match_ then some readAt else none

theorem Finding.readAt_of_matchedAt {expected : Expected ν} {finding : Finding ν} {readAt : Nat}
    (matched : readAt ∈ finding.matchedAt? expected) : readAt ∈ finding.readAt? := by
  simp only [Finding.matchedAt?, Finding.readAt?] at matched ⊢
  split at matched
  · cases matched
  · split at matched
    · exact matched
    · cases matched
  · split at matched
    · exact matched
    · cases matched

namespace Watched

/-- Only a match lets in a provider that is out. -/
theorem recordIntegrity_reopens {provider : Watched} {verdict : Verdict} {height : Nat}
    (out : provider.servingWrongData = true)
    (back : (provider.recordIntegrity verdict height).servingWrongData = false) :
    verdict = .match_ := by
  rw [recordIntegrity_wrong] at back
  cases verdict with
  | match_ => rfl
  | divergence => cases back
  | stale => exact absurd (out.symm.trans back) (by decide)
  | unknown => exact absurd (out.symm.trans back) (by decide)

end Watched

namespace Rounds

/-- The provider is out for what it served. -/
def out (state : Rounds ν) (provider : Handle) : Bool :=
  state.entries[provider]?.any fun entry => entry.servingWrongData

/-- What a step recorded. -/
def recordedSince (state next : Rounds ν) : List Recorded :=
  next.log.take (next.log.length - state.log.length)

/-- Where the step lets a provider in, it is on a match read after every divergence recorded of it
so far. -/
def LetInLater (provider : Handle) (state next : Rounds ν) : Prop :=
  state.out provider = true → next.out provider = false →
    ∃ passed ∈ state.recordedSince next, passed.provider = provider ∧ passed.verdict = .match_ ∧
      ∀ found ∈ state.log, found.provider = provider → found.verdict = .divergence →
        found.readAt < passed.readAt

/-- A check that records a divergence, its second look judged, overtakes no unfinished check that
holds an older match of the provider. -/
def OvertakesNone (state : Rounds ν) (event : RoundEvent ν) : Prop :=
  match event with
  | .settle index => ∀ check ∈ state.checks[index]?, check.phase = .lookingAgain →
      ∀ finding ∈ check.findings, finding.verdict = some .divergence →
        ∀ readAt ∈ finding.readAt?, ∀ other ∈ state.checks, other.phase ≠ .recorded →
          ∀ held ∈ other.findings, held.provider = finding.provider →
            ∀ matchedAt ∈ held.matchedAt? other.expected, readAt < matchedAt
  | _ => True

instance (state : Rounds ν) (event : RoundEvent ν) : Decidable (OvertakesNone state event) := by
  cases event <;> unfold OvertakesNone <;> infer_instance

/-- Every match an unfinished check holds was read after every divergence recorded. -/
structure Ordered (state : Rounds ν) : Prop where
  distinct : ∀ check ∈ state.checks, check.Distinct
  reads : ∀ check ∈ state.checks, ∀ finding ∈ check.findings, ∀ readAt ∈ finding.readAt?,
    readAt < state.clock
  log : ∀ recorded ∈ state.log, recorded.readAt < state.clock
  fresh : ∀ check ∈ state.checks, check.phase ≠ .recorded → ∀ finding ∈ check.findings,
    ∀ readAt ∈ finding.matchedAt? check.expected, ∀ recorded ∈ state.log,
      recorded.provider = finding.provider → recorded.verdict = .divergence →
        recorded.readAt < readAt

theorem Ordered.initial : Ordered (Rounds.initial : Rounds ν) where
  distinct := by simp [Rounds.initial]
  reads := by simp [Rounds.initial]
  log := by simp [Rounds.initial]
  fresh := by simp [Rounds.initial]

/-- One check changes, and what it holds is still in order. -/
theorem Ordered.setCheck {state : Rounds ν} (ordered : Ordered state) (index : Nat)
    (check : Check ν) (distinct : check.Distinct)
    (reads : ∀ finding ∈ check.findings, ∀ readAt ∈ finding.readAt?, readAt < state.clock)
    (fresh : check.phase ≠ .recorded → ∀ finding ∈ check.findings,
      ∀ readAt ∈ finding.matchedAt? check.expected, ∀ recorded ∈ state.log,
        recorded.provider = finding.provider → recorded.verdict = .divergence →
          recorded.readAt < readAt) :
    Ordered (state.setCheck index check) := by
  refine ⟨fun other member => ?_, fun other member => ?_, ordered.log, fun other member => ?_⟩
  · rcases List.mem_or_eq_of_mem_set member with old | rfl
    · exact ordered.distinct other old
    · exact distinct
  · rcases List.mem_or_eq_of_mem_set member with old | rfl
    · exact ordered.reads other old
    · exact reads
  · rcases List.mem_or_eq_of_mem_set member with old | rfl
    · exact ordered.fresh other old
    · exact fresh

/-- A check begins with nobody read. -/
theorem Ordered.start {state : Rounds ν} (ordered : Ordered state) {providers : List Handle}
    (nodup : providers.Nodup) (expected : Expected ν) :
    Ordered (state.start providers expected) := by
  have unread : ∀ finding ∈ providers.map (Finding.asked (ν := ν)), finding.readAt? = none := by
    intro finding member
    obtain ⟨asked, _, rfl⟩ := List.mem_map.mp member
    rfl
  refine ⟨fun check member => ?_, fun check member => ?_, ordered.log, fun check member => ?_⟩
  · rcases List.mem_append.mp member with old | isNew
    · exact ordered.distinct check old
    · obtain rfl := List.mem_singleton.mp isNew
      simpa [Check.Distinct, Finding.asked, Function.comp_def] using nodup
  · rcases List.mem_append.mp member with old | isNew
    · exact ordered.reads check old
    · obtain rfl := List.mem_singleton.mp isNew
      intro finding inCheck readAt isRead
      rw [unread finding inCheck] at isRead
      cases isRead
  · rcases List.mem_append.mp member with old | isNew
    · exact ordered.fresh check old
    · obtain rfl := List.mem_singleton.mp isNew
      intro _ finding inCheck readAt matches_
      have isRead := Finding.readAt_of_matchedAt matches_
      rw [unread finding inCheck] at isRead
      cases isRead

/-- One provider's look changes, to one that is in order. -/
theorem Ordered.put {state : Rounds ν} (ordered : Ordered state) {index : Nat} {check : Check ν}
    (isCheck : state.checks[index]? = some check) {asked : Handle} {finding : Finding ν}
    (found : check.findings.find? (·.provider = asked) = some finding) (look : Look ν)
    (read : ∀ readAt ∈ (finding.setLook look).readAt?, readAt < state.clock)
    (fresh : check.phase ≠ .recorded →
      ∀ readAt ∈ (finding.setLook look).matchedAt? check.expected, ∀ recorded ∈ state.log,
        recorded.provider = finding.provider → recorded.verdict = .divergence →
          recorded.readAt < readAt) :
    Ordered (state.setCheck index (check.put asked look)) := by
  have known := List.mem_of_getElem? isCheck
  have distinct := ordered.distinct check known
  refine ordered.setCheck index _ (Check.put_distinct distinct asked look)
    (fun other member => ?_) fun unfinished other member => ?_
  · rcases Check.mem_put distinct found member with ⟨_, rfl⟩ | ⟨_, old⟩
    · exact read
    · exact ordered.reads check known other old
  · rcases Check.mem_put distinct found member with ⟨_, rfl⟩ | ⟨_, old⟩
    · intro readAt matches_ recorded isRecorded same
      exact fresh unfinished readAt matches_ recorded isRecorded
        (same.trans (finding.setLook_provider look))
    · exact ordered.fresh check known unfinished other old

/-- The clock moves on. -/
theorem Ordered.tick {state : Rounds ν} (ordered : Ordered state) :
    Ordered { state with clock := state.clock + 1 } where
  distinct := ordered.distinct
  reads := fun check member finding inCheck readAt isRead =>
    (ordered.reads check member finding inCheck readAt isRead).trans (Nat.lt_succ_self _)
  log := fun recorded member => (ordered.log recorded member).trans (Nat.lt_succ_self _)
  fresh := ordered.fresh

omit [DecidableEq ν] in
/-- Recording writes to the log and to entries. -/
theorem recordAll_eq (state : Rounds ν) (check : Check ν) :
    ∃ entries, state.recordAll check =
      { state with
        entries := entries
        log := (check.findings.filterMap Finding.recorded?).reverse ++ state.log } := by
  rw [recordAll]
  induction check.findings.filterMap Finding.recorded? generalizing state with
  | nil => exact ⟨state.entries, rfl⟩
  | cons recorded records ih =>
      obtain ⟨entries, isNext⟩ := ih (record check.expected.finalized.number state recorded)
      exact ⟨entries, by simpa [record, modify] using isNext⟩

omit [DecidableEq ν] in
/-- What is recorded comes from a finding of the check. -/
theorem finding_of_recorded {check : Check ν} {recorded : Recorded}
    (member : recorded ∈ check.findings.filterMap Finding.recorded?) :
    ∃ finding ∈ check.findings, ∃ evidence,
      finding.look = .judged recorded.verdict evidence recorded.readAt ∧
        finding.provider = recorded.provider := by
  obtain ⟨finding, inCheck, isRecorded⟩ := List.mem_filterMap.mp member
  refine ⟨finding, inCheck, ?_⟩
  simp only [Finding.recorded?] at isRecorded
  split at isRecorded
  · next verdict evidence readAt isJudged =>
      cases isRecorded
      exact ⟨evidence, isJudged, rfl⟩
  · cases isRecorded

/-- A check records its verdicts, and overtakes no older match. -/
theorem Ordered.recorded {state : Rounds ν} (ordered : Ordered state) {index : Nat}
    {check : Check ν} (isCheck : state.checks[index]? = some check)
    (final : check.phase = .lookingAgain ∨ check.phase = .looking ∧ check.doubtful = false)
    (overtakes : OvertakesNone state (.settle index)) :
    Ordered ((state.setCheck index { check with phase := .recorded }).recordAll check) := by
  have known := List.mem_of_getElem? isCheck
  have recording := ordered.setCheck index { check with phase := .recorded }
    (ordered.distinct check known) (ordered.reads check known)
    fun unfinished => absurd rfl unfinished
  obtain ⟨entries, isNext⟩ := recordAll_eq
    (state.setCheck index { check with phase := .recorded }) check
  rw [isNext]
  refine ⟨recording.distinct, recording.reads, fun recorded member => ?_,
    fun other inChecks unfinished held inOther matchedAt matches_ recorded member same
      diverged => ?_⟩
  · rcases List.mem_append.mp member with isNew | old
    · obtain ⟨finding, inCheck, evidence, isJudged, _⟩ :=
        finding_of_recorded (List.mem_reverse.mp isNew)
      exact ordered.reads check known finding inCheck recorded.readAt
        (by simp [Finding.readAt?, isJudged])
    · exact ordered.log recorded old
  · rcases List.mem_append.mp member with isNew | old
    · obtain ⟨finding, inCheck, evidence, isJudged, ofProvider⟩ :=
        finding_of_recorded (List.mem_reverse.mp isNew)
      have before : other ∈ state.checks := by
        rcases List.mem_or_eq_of_mem_set inChecks with old | rfl
        · exact old
        · exact absurd rfl unfinished
      have isDivergence : finding.verdict = some .divergence := by
        simp [Finding.verdict, isJudged, diverged]
      -- A check without doubts records no divergence.
      have again : check.phase = .lookingAgain := by
        rcases final with again | ⟨_, clear⟩
        · exact again
        · have doubtful : check.doubtful = true :=
            List.any_eq_true.mpr ⟨finding, inCheck, by simpa using isDivergence⟩
          rw [clear] at doubtful
          cases doubtful
      exact overtakes check isCheck again finding inCheck isDivergence recorded.readAt
        (by simp [Finding.readAt?, isJudged]) other before unfinished held inOther
        (same.symm.trans ofProvider.symm) matchedAt matches_
    · exact recording.fresh other inChecks unfinished held inOther matchedAt matches_ recorded old same
        diverged

/-- One event that overtakes nothing keeps the order. -/
theorem Ordered.step {state next : Rounds ν} {event : RoundEvent ν} (ordered : Ordered state)
    (overtakes : OvertakesNone state event) (stepped : state.step event = some next) :
    Ordered next := by
  cases event with
  | join joined now head =>
      cases stepped
      exact ⟨ordered.distinct, ordered.reads, ordered.log, ordered.fresh⟩
  | round providers expected =>
      simp only [Rounds.step] at stepped
      split at stepped
      · next healthy =>
          cases stepped
          exact ordered.start healthy.1 expected
      · cases stepped
  | check asked expected =>
      simp only [Rounds.step] at stepped
      split at stepped
      · cases stepped
        exact ordered.start (List.nodup_singleton asked) expected
      · cases stepped
  | answer index asked answers =>
      obtain ⟨check, finding, isCheck, found, _, _, rfl⟩ := answer_cases stepped
      refine ordered.tick.put isCheck found (.answered answers state.clock)
        (fun readAt isRead => ?_) fun _ readAt matches_ recorded member _ _ => ?_
      · obtain rfl : state.clock = readAt := by simpa [Finding.readAt?] using isRead
        exact Nat.lt_succ_self _
      · obtain rfl : state.clock = readAt := by
          simpa [Finding.readAt?] using Finding.readAt_of_matchedAt matches_
        exact ordered.log recorded member
  | judge index asked =>
      obtain ⟨check, finding, answers, readAt, isCheck, found, isAnswered, rfl⟩ :=
        judge_cases stepped
      have known := List.mem_of_getElem? isCheck
      have inCheck := List.mem_of_find?_eq_some found
      refine ordered.put isCheck found _ (fun moment isRead => ?_) fun unfinished moment matches_ => ?_
      · obtain rfl : readAt = moment := by simpa [Finding.readAt?] using isRead
        exact ordered.reads check known finding inCheck readAt
          (by simp [Finding.readAt?, isAnswered])
      · refine ordered.fresh check known unfinished finding inCheck moment ?_
        simp only [Finding.matchedAt?, Finding.setLook_look] at matches_
        split at matches_
        · next isMatch =>
            simp only [Finding.matchedAt?, isAnswered]
            rw [if_pos (judge_match isMatch)]
            exact matches_
        · cases matches_
  | settle index =>
      obtain ⟨check, isCheck, _, outcome⟩ := settle_cases stepped
      have known := List.mem_of_getElem? isCheck
      rcases outcome with ⟨looking, _, rfl⟩ | ⟨final, rfl⟩
      · exact ordered.setCheck index _ (ordered.distinct check known) (ordered.reads check known)
          fun _ => ordered.fresh check known (by simp [looking])
      · exact ordered.recorded isCheck final overtakes
  | wake index =>
      obtain ⟨check, isCheck, sleeping, rfl⟩ := wake_cases stepped
      have known := List.mem_of_getElem? isCheck
      refine ordered.setCheck index _ (Check.lookAgain_distinct (ordered.distinct check known))
        (fun finding member readAt isRead => ?_) fun _ finding member readAt matches_ => ?_
      · obtain ⟨old, inCheck, rfl⟩ := List.mem_map.mp member
        split at isRead
        · cases isRead
        · exact ordered.reads check known old inCheck readAt isRead
      · obtain ⟨old, inCheck, rfl⟩ := List.mem_map.mp member
        split at matches_
        · cases matches_
        · next agreed =>
            rw [if_neg agreed]
            exact ordered.fresh check known (by simp [sleeping]) old inCheck readAt matches_
  | probe asked height =>
      cases stepped
      exact ⟨ordered.distinct, ordered.reads, ordered.log, ordered.fresh⟩
  | recordHeight asked height =>
      simp only [Rounds.step] at stepped
      split at stepped
      · cases stepped
        exact ⟨ordered.distinct, ordered.reads, ordered.log, ordered.fresh⟩
      · cases stepped
  | advance moved blocks =>
      cases stepped
      exact ⟨ordered.distinct, ordered.reads, ordered.log, ordered.fresh⟩
  | health asked value =>
      cases stepped
      exact ⟨ordered.distinct, ordered.reads, ordered.log, ordered.fresh⟩

omit [DecidableEq ν] in
/-- A change that keeps the gate keeps who is out. -/
theorem out_modify (state : Rounds ν) (changed provider : Handle) {change : Watched → Watched}
    (keeps : ∀ entry, (change entry).servingWrongData = entry.servingWrongData) :
    (state.modify changed change).out provider = state.out provider := by
  simp only [out, modify, List.getElem?_modify]
  split
  · cases state.entries[provider]? with
    | none => rfl
    | some entry => exact keeps entry
  · cases state.entries[provider]? <;> rfl

omit [DecidableEq ν] in
/-- Recorded verdicts let a provider in only with a match. -/
theorem match_of_letIn {provider : Handle} {height : Nat} {records : List Recorded}
    (state : Rounds ν) (out : state.out provider = true)
    (back : (records.foldl (record height) state).out provider = false) :
    ∃ passed ∈ records, passed.provider = provider ∧ passed.verdict = .match_ := by
  induction records generalizing state with
  | nil => exact absurd (out.symm.trans back) (by decide)
  | cons recorded records ih =>
      cases still : (record height state recorded).out provider with
      | true =>
          obtain ⟨passed, member, found⟩ := ih _ still back
          exact ⟨passed, List.mem_cons_of_mem _ member, found⟩
      | false =>
          refine ⟨recorded, List.mem_cons_self, ?_⟩
          by_cases same : recorded.provider = provider
          · refine ⟨same, ?_⟩
            simp only [Rounds.out, record, modify, List.getElem?_modify, same, if_true] at still
            cases entry : state.entries[provider]? with
            | none => simp [Rounds.out, entry] at out
            | some found =>
                simp only [Rounds.out, entry, Option.any_some] at out
                simp only [entry, Option.map_eq_map, Option.map_some, Option.any_some] at still
                exact Watched.recordIntegrity_reopens out still
          · simp only [Rounds.out, record, modify, List.getElem?_modify, same, if_false] at still
            rw [Rounds.out] at out
            simp [out] at still

/-- In order, a step lets a provider in on a later match only. -/
theorem Ordered.letInLater {state next : Rounds ν} {event : RoundEvent ν} (ordered : Ordered state)
    (stepped : state.step event = some next) (provider : Handle) :
    LetInLater provider state next := by
  have kept : next.out provider = state.out provider → LetInLater provider state next :=
    fun same out back => absurd (out.symm.trans (same.symm.trans back)) (by decide)
  cases event with
  | join joined now head =>
      cases stepped
      intro out back
      have known : provider < state.entries.length := by
        by_contra absent
        simp [Rounds.out, List.getElem?_eq_none (Nat.le_of_not_lt absent)] at out
      rw [Rounds.out] at out back
      simp only [List.getElem?_append_left known, out] at back
      cases back
  | round providers expected =>
      simp only [Rounds.step] at stepped
      split at stepped
      · cases stepped
        exact kept rfl
      · cases stepped
  | check asked expected =>
      simp only [Rounds.step] at stepped
      split at stepped
      · cases stepped
        exact kept rfl
      · cases stepped
  | answer index asked answers =>
      obtain ⟨check, finding, _, _, _, _, rfl⟩ := answer_cases stepped
      exact kept rfl
  | judge index asked =>
      obtain ⟨check, finding, answers, readAt, _, _, _, rfl⟩ := judge_cases stepped
      exact kept rfl
  | settle index =>
      obtain ⟨check, isCheck, _, outcome⟩ := settle_cases stepped
      have known := List.mem_of_getElem? isCheck
      rcases outcome with ⟨_, _, rfl⟩ | ⟨final, rfl⟩
      · exact kept rfl
      · intro out back
        obtain ⟨passed, member, same, isMatch⟩ := match_of_letIn
          (state.setCheck index { check with phase := .recorded }) out back
        obtain ⟨entries, isNext⟩ := recordAll_eq
          (state.setCheck index { check with phase := .recorded }) check
        refine ⟨passed, ?_, same, isMatch, fun found inLog ofProvider diverged => ?_⟩
        · rw [recordedSince, isNext]
          simpa [Rounds.setCheck] using member
        · obtain ⟨finding, inCheck, evidence, isJudged, isMine⟩ := finding_of_recorded member
          rw [isMatch] at isJudged
          have unfinished : check.phase ≠ .recorded := by
            rcases final with again | ⟨looking, _⟩
            · simp [again]
            · simp [looking]
          exact ordered.fresh check known unfinished finding inCheck passed.readAt
            (by simp [Finding.matchedAt?, isJudged]) found inLog
            (ofProvider.trans (same.symm.trans isMine.symm)) diverged
  | wake index =>
      obtain ⟨check, _, _, rfl⟩ := wake_cases stepped
      exact kept rfl
  | probe asked height =>
      cases stepped
      exact kept rfl
  | recordHeight asked height =>
      simp only [Rounds.step] at stepped
      split at stepped
      · cases stepped
        exact kept (out_modify state asked provider fun _ => rfl)
      · cases stepped
  | advance moved blocks =>
      cases stepped
      exact kept rfl
  | health asked value =>
      cases stepped
      exact kept (out_modify state asked provider fun entry => entry.setGate_health_wrong value)

/-- Where no check that records a divergence overtakes an unfinished one holding an older match of
the provider, a provider found to have diverged is let in only on a match read after that. -/
theorem letInLater_of_overtakesNone {events : List (RoundEvent ν)} {event : RoundEvent ν}
    {state next : Rounds ν} (provider : Handle)
    (meets : (machine : Machine (Rounds ν) _).Meets OvertakesNone initial events)
    (reached : machine.run initial events = some state)
    (stepped : machine.step state event = some next) : LetInLater provider state next := by
  have ordered : Ordered state :=
    Machine.run_invariant (fun _ _ _ => Ordered.step) Ordered.initial meets reached
  exact ordered.letInLater stepped provider

/-- The reference's block, at height 9. -/
def ninth : BlockFields where
  number := 9
  hash := 0xb9
  parentHash := 0xb8
  stateRoot := 0x9a
  transactionsRoot := 0x9b
  receiptsRoot := 0x9c
  transactions := []

/-- Another block of that height. -/
def forked : BlockFields :=
  { ninth with hash := 0xf9 }

/-- A look at a provider: it answers, and the answer is judged. -/
def lookAt (check : Nat) (provider : Handle) (block : BlockFields) : List (RoundEvent Nat) :=
  [.answer check provider ⟨.ok (some block), none⟩, .judge check provider]

/-- Two providers in rotation. -/
def twoHealthy : List (RoundEvent Nat) :=
  [.join (Provider.new "near" "http://near" .static) 0 12,
    .join (Provider.new "far" "http://far" .static) 0 12, .health 0 true, .health 1 true]

/-- A round records a match between the two looks that find its provider to differ; the round after
lets it in, with the chain's block. -/
def servesAgain : List (RoundEvent Nat) :=
  twoHealthy ++ [.round [0] ⟨ninth, none⟩] ++ lookAt 0 0 ninth ++ [.check 0 ⟨ninth, none⟩] ++
    lookAt 1 0 forked ++ [.settle 1, .settle 0, .wake 1] ++ lookAt 1 0 forked ++
    [.settle 1, .round [0] ⟨ninth, none⟩] ++ lookAt 2 0 ninth

theorem serves_again_is_let_in : ∃ state next, machine.run initial servesAgain = some state ∧
    machine.step state (.settle 2) = some next ∧ state.out 0 = true ∧ next.out 0 = false ∧
      LetInLater 0 state next :=
  ⟨_, _, rfl, rfl, rfl, rfl, @letInLater_of_overtakesNone Nat _ servesAgain (.settle 2) _ _ 0
    (by decide) rfl rfl⟩

/-- A round reads the provider's match and waits for another one, which is slow to answer again; the
provider's own check finds twice that it differs; the round then records its match. -/
def overtaken : List (RoundEvent Nat) :=
  twoHealthy ++ [.round [0, 1] ⟨ninth, none⟩] ++ lookAt 0 0 ninth ++ lookAt 0 1 forked ++
    [.settle 0, .check 0 ⟨ninth, none⟩] ++ lookAt 1 0 forked ++ [.settle 1, .wake 0, .wake 1] ++
    lookAt 1 0 forked ++ [.settle 1] ++ lookAt 0 1 ninth

theorem overtaken_match_lets_in : ∃ state next, machine.run initial overtaken = some state ∧
    machine.step state (.settle 0) = some next ∧ ¬LetInLater 0 state next :=
  ⟨_, _, rfl, rfl, by
    simp only [LetInLater]
    decide⟩

end Rounds

end CommunityLb
