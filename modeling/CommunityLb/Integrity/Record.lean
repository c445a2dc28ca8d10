import CommunityLb.Integrity.Entities
import CommunityLb.Lib.Machine

/-!
# What a round records

A round reads the reference, looks at every provider at once, looks again at those that differed, and
records a verdict for each.  Rounds follow one another here; the probes, the traffic and the
membership go on beside them.
-/

namespace CommunityLb

variable {ν : Type}

/-- What the reference answers a round. -/
structure Reference (ν : Type) where
  finalized : Option BlockFields
  /-- A key that is alive at that height, when the page has one. -/
  key : Option EntityKey
  rows : Option (List (ArkivEntity ν))

/-- What the providers' answers are compared with; nothing when nobody can be judged. -/
def Reference.expected (reference : Reference ν) (entityCheck : Bool) : Option (Expected ν) :=
  match reference.finalized with
  | none => none
  | some finalized =>
      if entityCheck then
        reference.key.map fun key =>
          { finalized := finalized
            entity :=
              some
                { key := key
                  rows := reference.rows } }
      else
        some
          { finalized := finalized
            entity := none }

/-- One look at a provider: its answers, the height its probes reported as they were judged, and the
verdict. -/
structure Glance (ν : Type) where
  provider : Handle
  answers : Answers ν
  lastHeight : Option Nat
  verdict : Verdict

/-- The providers that differed. -/
def doubtful (seen : List (Glance ν)) : List Handle :=
  (seen.filter (·.verdict = .divergence)).map (·.provider)

/-- The second look takes the place of the first one at the same provider. -/
def putSecond : List (Glance ν) → Glance ν → List (Glance ν)
  | [], _ => []
  | first :: rest, second =>
      if first.provider = second.provider then second :: rest else first :: putSecond rest second

/-- Where a round stands, with the looks in the order they came in. -/
inductive Stage (ν : Type) where
  | first (seen : List (Glance ν))
  /-- Waiting before the second look. -/
  | sleeping (seen : List (Glance ν))
  | second (seen again : List (Glance ν))

/-- A round over some providers. -/
structure Round (ν : Type) where
  expected : Expected ν
  providers : List Handle
  stage : Stage ν

/-- A round that recorded, with both its looks. -/
structure Report (ν : Type) where
  expected : Expected ν
  providers : List Handle
  seen : List (Glance ν)
  again : List (Glance ν)

/-- The looks whose verdicts are recorded. -/
def Report.recorded (report : Report ν) : List (Glance ν) :=
  report.again.foldl putSecond report.seen

/-- A verdict as it is recorded of a provider, with the height it is given at. -/
structure Told where
  provider : Handle
  verdict : Verdict
  height : Nat

/-- What a look is recorded as. -/
def Glance.told (height : Nat) (glance : Glance ν) : Told where
  provider := glance.provider
  verdict := glance.verdict
  height := height

/-- What a round records, one provider after another. -/
def Report.told (report : Report ν) : List Told :=
  report.recorded.map (Glance.told report.expected.finalized.number)

/-- The providers, the round under way, and the rounds that recorded, oldest first. -/
structure Fleet (ν : Type) where
  entries : List Watched
  members : List Handle
  round : Option (Round ν)
  reports : List (Report ν)

/-- What happens to the providers and the rounds. -/
inductive FleetEvent (ν : Type) where
  | join (id url : String) (source : Source) (now : Instant)
  | leave (id : String)
  | probe (provider : Handle) (referenceHeight height : Option Nat) (now : Instant)
  | reschedule (provider : Handle) (began : Instant)
  | chainCheck (provider : Handle) (chainRound : Bool) (answer : Option Nat)
  | attempt (provider : Handle) (outcome : Outcome) (attemptStarted now : Instant)
  /-- The timer's round, over the healthy members. -/
  | round (reference : Reference ν)
  /-- The round over one provider, at its admission. -/
  | newcomer (provider : Handle) (reference : Reference ν)
  | look (provider : Handle) (answers : Answers ν)
  /-- Every look is in: the wait begins, or the verdicts are recorded. -/
  | settle
  | wake

namespace Fleet

/-- The member's probes pass. -/
def healthyAt (state : Fleet ν) (provider : Handle) : Bool :=
  state.entries[provider]?.any (·.healthy)

/-- One entry changed. -/
def modify (state : Fleet ν) (provider : Handle) (change : Watched → Watched) : Fleet ν :=
  { state with entries := state.entries.modify provider change }

/-- A round begins, unless there is nobody to check, or nothing to compare with. -/
def roundOver (state : Fleet ν) (entityCheck : Bool) (providers : List Handle)
    (reference : Reference ν) : Fleet ν :=
  match providers, reference.expected entityCheck with
  | [], _ | _, none => state
  | _, some expected =>
      { state with
        round :=
          some
            { expected := expected
              providers := providers
              stage := .first [] } }

/-- The stage of the round under way. -/
def setStage (state : Fleet ν) (round : Round ν) (stage : Stage ν) : Fleet ν :=
  { state with round := some { round with stage := stage } }

/-- One verdict onto its provider's entry. -/
def recordOne (height : Nat) (entries : List Watched) (glance : Glance ν) : List Watched :=
  entries.modify glance.provider (·.recordIntegrity glance.verdict height)

/-- Every verdict of a round. -/
def record (state : Fleet ν) (report : Report ν) : Fleet ν :=
  { state with
    entries := report.recorded.foldl (recordOne report.expected.finalized.number) state.entries
    round := none
    reports := state.reports ++ [report] }

variable [DecidableEq ν]

/-- A provider's look, as it is judged. -/
def glance (state : Fleet ν) (expected : Expected ν) (provider : Handle) (answers : Answers ν) :
    Glance ν :=
  let lastHeight := state.entries[provider]?.bind Watched.lastHeight
  { provider := provider
    answers := answers
    lastHeight := lastHeight
    verdict := (judge lastHeight answers expected).1 }

/-- A provider is looked at, once a look, and its rows are read when the reference's are. -/
def look (state : Fleet ν) (round : Round ν) (provider : Handle) (answers : Answers ν) :
    Option (Fleet ν) :=
  let glance := state.glance round.expected provider answers
  if answers.rows.isSome ≠ round.expected.entity.isSome then none
  else
    match round.stage with
    | .first seen =>
        if provider ∈ round.providers ∧ provider ∉ seen.map (·.provider) then
          some (state.setStage round (.first (seen ++ [glance])))
        else none
    | .sleeping _ => none
    | .second seen again =>
        if provider ∈ doubtful seen ∧ provider ∉ again.map (·.provider) then
          some (state.setStage round (.second seen (again ++ [glance])))
        else none

omit [DecidableEq ν] in
/-- Every look is in. -/
def settle (state : Fleet ν) (round : Round ν) : Option (Fleet ν) :=
  match round.stage with
  | .first seen =>
      if seen.length = round.providers.length then
        if doubtful seen = [] then
          some (state.record
            { expected := round.expected
              providers := round.providers
              seen := seen
              again := [] })
        else some (state.setStage round (.sleeping seen))
      else none
  | .sleeping _ => none
  | .second seen again =>
      if again.length = (doubtful seen).length then
        some (state.record
          { expected := round.expected
            providers := round.providers
            seen := seen
            again := again })
      else none

/-- One event, where it can happen. -/
def step (health : Health) (entityCheck : Bool) (state : Fleet ν) :
    FleetEvent ν → Option (Fleet ν)
  | .join id url source now =>
      some
        { state with
          entries := state.entries ++ [Watched.born (Provider.new id url source) now]
          members := state.members ++ [state.entries.length] }
  | .leave id =>
      some
        { state with
          members := state.members.eraseP fun handle => state.entries[handle]?.any (·.id = id) }
  | .probe provider referenceHeight height now =>
      some (state.modify provider fun entry => (entry.probe health referenceHeight height now).2)
  | .reschedule provider began =>
      some (state.modify provider (·.rescheduleUnanswered health began))
  | .chainCheck provider chainRound answer =>
      some (state.modify provider fun entry => (entry.chainCleared health chainRound answer).2)
  | .attempt provider outcome attemptStarted now =>
      some (state.modify provider (·.attempted health outcome attemptStarted now))
  | .round reference =>
      match state.round with
      | none =>
          some (state.roundOver entityCheck (state.members.filter state.healthyAt) reference)
      | some _ => none
  | .newcomer provider reference =>
      match state.round with
      | none =>
          if provider < state.entries.length then
            some (state.roundOver entityCheck [provider] reference)
          else none
      | some _ => none
  | .look provider answers => state.round.bind fun round => state.look round provider answers
  | .settle => state.round.bind state.settle
  | .wake =>
      state.round.bind fun round =>
        match round.stage with
        | .sleeping seen => some (state.setStage round (.second seen []))
        | _ => none

/-- The fleet, checked by one round after another. -/
def machine (health : Health) (entityCheck : Bool) : Machine (Fleet ν) (FleetEvent ν) where
  step := step health entityCheck

omit [DecidableEq ν] in
/-- Before the first provider. -/
def initial : Fleet ν where
  entries := []
  members := []
  round := none
  reports := []

end Fleet

/-! ## One look after another -/

/-- Looks at different providers, each judged from its own answers. -/
structure Looks [DecidableEq ν] (expected : Expected ν) (allowed : List Handle)
    (seen : List (Glance ν)) : Prop where
  distinct : (seen.map (·.provider)).Nodup
  allowed : ∀ glance ∈ seen, glance.provider ∈ allowed
  judged : ∀ glance ∈ seen, glance.verdict = (judge glance.lastHeight glance.answers expected).1
  rows : ∀ glance ∈ seen, glance.answers.rows.isSome = expected.entity.isSome

section Looks

variable {seen again : List (Glance ν)} {second glance : Glance ν}

theorem putSecond_providers (seen : List (Glance ν)) (second : Glance ν) :
    (putSecond seen second).map (·.provider) = seen.map (·.provider) := by
  induction seen with
  | nil => rfl
  | cons first rest ih =>
      rw [putSecond]
      split
      · next same => rw [List.map_cons, List.map_cons, same]
      · rw [List.map_cons, List.map_cons, ih]

/-- The second look is found by its provider, and the others stay. -/
theorem mem_putSecond (distinct : (seen.map (·.provider)).Nodup)
    (known : second.provider ∈ seen.map (·.provider)) :
    glance ∈ putSecond seen second ↔
      glance = second ∨ (glance ∈ seen ∧ glance.provider ≠ second.provider) := by
  induction seen with
  | nil => cases known
  | cons first rest ih =>
      rw [List.map_cons, List.nodup_cons] at distinct
      rw [putSecond]
      split
      · next same =>
          have others : ∀ other ∈ rest, other.provider ≠ second.provider := by
            intro other member isSecond
            exact distinct.1 (List.mem_map.mpr ⟨other, member, isSecond.trans same.symm⟩)
          rw [List.mem_cons, List.mem_cons]
          constructor
          · rintro (rfl | member)
            · exact .inl rfl
            · exact .inr ⟨.inr member, others glance member⟩
          · rintro (rfl | ⟨rfl | member, apart⟩)
            · exact .inl rfl
            · exact absurd same apart
            · exact .inr member
      · next apart =>
          have later : second.provider ∈ rest.map (·.provider) :=
            (List.mem_cons.mp known).resolve_left fun same => apart same.symm
          rw [List.mem_cons, List.mem_cons, ih distinct.2 later]
          constructor
          · rintro (rfl | rfl | ⟨member, other⟩)
            · exact .inr ⟨.inl rfl, apart⟩
            · exact .inl rfl
            · exact .inr ⟨.inr member, other⟩
          · rintro (rfl | ⟨rfl | member, other⟩)
            · exact .inr (.inl rfl)
            · exact .inl rfl
            · exact .inr (.inr ⟨member, other⟩)

theorem foldl_putSecond_providers (seen again : List (Glance ν)) :
    (again.foldl putSecond seen).map (·.provider) = seen.map (·.provider) := by
  induction again generalizing seen with
  | nil => rfl
  | cons second rest ih => rw [List.foldl_cons, ih, putSecond_providers]

/-- A provider that was looked at twice has its second look recorded, any other its first. -/
theorem mem_foldl_putSecond (distinct : (seen.map (·.provider)).Nodup)
    (distinct' : (again.map (·.provider)).Nodup)
    (known : ∀ second ∈ again, second.provider ∈ seen.map (·.provider)) :
    glance ∈ again.foldl putSecond seen ↔
      glance ∈ again ∨ (glance ∈ seen ∧ glance.provider ∉ again.map (·.provider)) := by
  induction again generalizing seen with
  | nil => simp
  | cons second rest ih =>
      rw [List.map_cons, List.nodup_cons] at distinct'
      have isKnown := known second List.mem_cons_self
      have same := putSecond_providers seen second
      have later : ∀ other ∈ rest, other.provider ∈ (putSecond seen second).map (·.provider) :=
        fun other member => same ▸ known other (List.mem_cons_of_mem _ member)
      rw [List.foldl_cons, ih (same ▸ distinct) distinct'.2 later, mem_putSecond distinct isKnown,
        List.mem_cons, List.map_cons, List.mem_cons]
      constructor
      · rintro (member | ⟨rfl | ⟨member, apart⟩, once⟩)
        · exact .inl (.inr member)
        · exact .inl (.inl rfl)
        · exact .inr ⟨member, not_or.mpr ⟨apart, once⟩⟩
      · rintro (⟨rfl | member⟩ | ⟨member, once⟩)
        · exact .inr ⟨.inl rfl, distinct'.1⟩
        · exact .inl ‹_›
        · exact .inr ⟨.inr ⟨member, (not_or.mp once).1⟩, (not_or.mp once).2⟩

theorem mem_doubtful {provider : Handle} :
    provider ∈ doubtful seen ↔
      ∃ glance ∈ seen, glance.verdict = .divergence ∧ glance.provider = provider := by
  simp [doubtful, and_assoc]

variable [DecidableEq ν] {expected : Expected ν} {allowed : List Handle}

theorem Looks.none (expected : Expected ν) (allowed : List Handle) :
    Looks expected allowed ([] : List (Glance ν)) where
  distinct := List.nodup_nil
  allowed _ member := absurd member List.not_mem_nil
  judged _ member := absurd member List.not_mem_nil
  rows _ member := absurd member List.not_mem_nil

/-- One look more. -/
theorem Looks.snoc (looks : Looks expected allowed seen)
    (isAllowed : glance.provider ∈ allowed) (unseen : glance.provider ∉ seen.map (·.provider))
    (judged : glance.verdict = (judge glance.lastHeight glance.answers expected).1)
    (rows : glance.answers.rows.isSome = expected.entity.isSome) :
    Looks expected allowed (seen ++ [glance]) := by
  have either : ∀ {holds : Glance ν → Prop}, (∀ other ∈ seen, holds other) → holds glance →
      ∀ other ∈ seen ++ [glance], holds other := by
    intro holds old new other member
    rcases List.mem_append.mp member with earlier | isLast
    · exact old other earlier
    · exact List.mem_singleton.mp isLast ▸ new
  refine ⟨?_, either looks.allowed isAllowed, either looks.judged judged, either looks.rows rows⟩
  rw [List.map_append, List.map_singleton, List.nodup_append]
  refine ⟨looks.distinct, List.nodup_singleton _, ?_⟩
  rintro _ old _ new rfl
  exact unseen (List.mem_singleton.mp new ▸ old)

/-- As many looks as there are providers to look at: none is missing. -/
theorem Looks.all (looks : Looks expected allowed seen)
    (length : seen.length = allowed.length) : ∀ provider ∈ allowed,
      provider ∈ seen.map (·.provider) := by
  have subset : seen.map (·.provider) ⊆ allowed := by
    intro provider member
    obtain ⟨glance, isSeen, rfl⟩ := List.mem_map.mp member
    exact looks.allowed glance isSeen
  have sub := looks.distinct.subperm subset
  have perm := sub.perm_of_length_le (by rw [List.length_map, length])
  exact fun provider member => perm.mem_iff.mpr member

/-- Equal by the comparison, the rows differ in the order of attributes at most. -/
theorem rearranged_of_sameEntities {rows reference : List (ArkivEntity ν)}
    (same : sameEntities rows reference = true) :
    List.Forall₂ ArkivEntity.Rearranged rows reference := by
  rw [sameEntities_iff_sorted, sortedRows_eq, sortedRows_eq] at same
  induction rows generalizing reference with
  | nil =>
      rw [List.map_nil, eq_comm, List.map_eq_nil_iff] at same
      subst same
      exact .nil
  | cons row rows ih =>
      cases reference with
      | nil => cases same
      | cons first reference =>
          rw [List.map_cons, List.map_cons, List.cons.injEq] at same
          refine .cons ⟨first.attributes, ?_, ?_⟩ (ih same.2)
          · have sorted := congrArg ArkivEntity.attributes same.1
            exact (sortBy_perm _ _).symm.trans
              ((List.Perm.of_eq sorted).trans (sortBy_perm _ _))
          · have key := congrArg ArkivEntity.key same.1
            have creator := congrArg ArkivEntity.creator same.1
            have createdAt := congrArg ArkivEntity.createdAt same.1
            have updatedAt := congrArg ArkivEntity.updatedAt same.1
            have expiresAt := congrArg ArkivEntity.expiresAt same.1
            simp only [sortedRow] at key creator createdAt updatedAt expiresAt
            rw [key, creator, createdAt, updatedAt, expiresAt]

/-- What a match was judged from: the reference's block, and with the entity check on the
reference's rows. -/
theorem judge_match_means {lastHeight : Option Nat} {answers : Answers ν}
    (isMatch : (judge lastHeight answers expected).1 = .match_) :
    answers.block = .ok (some expected.finalized) ∧
      ∀ entity, expected.entity = some entity → answers.rows.isSome →
        ∃ rows reference, answers.rows = some (.ok rows) ∧ entity.rows = some reference ∧
          List.Forall₂ ArkivEntity.Rearranged rows reference := by
  cases block : answers.block with
  | error failure =>
      cases failure <;> simp [judge, block] at isMatch
  | ok served =>
      cases served with
      | none =>
          simp only [judge, block] at isMatch
          split at isMatch
          · split at isMatch <;> cases isMatch
          · cases isMatch
      | some served =>
          simp only [judge, block] at isMatch
          split at isMatch
          · cases isMatch
          · next same =>
              refine ⟨by rw [not_ne_iff.mp same], fun entity isEntity isRows => ?_⟩
              obtain ⟨read, isRead⟩ := Option.isSome_iff_exists.mp isRows
              simp only [isEntity, isRead] at isMatch
              split at isMatch
              · cases isMatch
              · cases isMatch
              · next rows =>
                  split at isMatch
                  · cases isMatch
                  · next reference isReference =>
                      split at isMatch
                      · next equal =>
                          exact ⟨rows, reference, isRead, isReference,
                            rearranged_of_sameEntities equal⟩
                      · cases isMatch

end Looks

/-! ## What a report says -/

/-- A report of a round: every provider was looked at, and those that differed, and no others, were
looked at again. -/
structure Report.Sound [DecidableEq ν] (entityCheck : Bool) (report : Report ν) : Prop where
  entity : report.expected.entity.isSome = entityCheck
  seen : Looks report.expected report.providers report.seen
  all : ∀ provider ∈ report.providers, provider ∈ report.seen.map (·.provider)
  again : Looks report.expected (doubtful report.seen) report.again
  whole : ∀ provider ∈ doubtful report.seen, provider ∈ report.again.map (·.provider)

namespace Report.Sound

variable [DecidableEq ν] {entityCheck : Bool} {report : Report ν} {glance : Glance ν}

theorem mem_recorded (sound : report.Sound entityCheck) :
    glance ∈ report.recorded ↔ glance ∈ report.again ∨
      (glance ∈ report.seen ∧ glance.provider ∉ report.again.map (·.provider)) := by
  apply mem_foldl_putSecond sound.seen.distinct sound.again.distinct
  intro second member
  obtain ⟨first, isFirst, -, same⟩ := mem_doubtful.mp (sound.again.allowed second member)
  exact List.mem_map.mpr ⟨first, isFirst, same⟩

/-- One verdict a provider. -/
theorem recorded_distinct (sound : report.Sound entityCheck) :
    (report.recorded.map (·.provider)).Nodup := by
  rw [recorded, foldl_putSecond_providers]
  exact sound.seen.distinct

/-- Every provider of the round gets one, and nobody else does. -/
theorem mem_recorded_providers (sound : report.Sound entityCheck) {provider : Handle} :
    provider ∈ report.recorded.map (·.provider) ↔ provider ∈ report.providers := by
  rw [recorded, foldl_putSecond_providers]
  constructor
  · intro looked
    obtain ⟨glance, isSeen, rfl⟩ := List.mem_map.mp looked
    exact sound.seen.allowed glance isSeen
  · exact sound.all provider

/-- The look that is recorded: the second one where the first one differed. -/
theorem first_of_recorded (sound : report.Sound entityCheck) (member : glance ∈ report.recorded) :
    ∃ first ∈ report.seen, first.provider = glance.provider ∧
      if first.verdict = .divergence then glance ∈ report.again else glance = first := by
  rcases sound.mem_recorded.mp member with second | ⟨isFirst, once⟩
  · obtain ⟨first, isFirst, differs, same⟩ :=
      mem_doubtful.mp (sound.again.allowed glance second)
    exact ⟨first, isFirst, same, by rwa [if_pos differs]⟩
  · refine ⟨glance, isFirst, rfl, ?_⟩
    have agrees : glance.verdict ≠ .divergence := fun differs =>
      once (sound.whole _ (mem_doubtful.mpr ⟨glance, isFirst, differs, rfl⟩))
    rw [if_neg agrees]

/-- A recorded look was judged from its own answers. -/
theorem judged (sound : report.Sound entityCheck) (member : glance ∈ report.recorded) :
    glance.verdict = (judge glance.lastHeight glance.answers report.expected).1 ∧
      glance.answers.rows.isSome = entityCheck := by
  have seen := sound.seen
  rw [← sound.entity]
  rcases sound.mem_recorded.mp member with second | ⟨isFirst, -⟩
  · exact ⟨sound.again.judged glance second, sound.again.rows glance second⟩
  · exact ⟨seen.judged glance isFirst, seen.rows glance isFirst⟩

/-- The look of every provider that was looked at is recorded: the second one where the first one
differed. -/
theorem recorded_of_first (sound : report.Sound entityCheck) {first : Glance ν}
    (isFirst : first ∈ report.seen) :
    ∃ glance ∈ report.recorded, glance.provider = first.provider ∧
      if first.verdict = .divergence then glance ∈ report.again else glance = first := by
  have asked : first.provider ∈ report.recorded.map (·.provider) := by
    rw [recorded, foldl_putSecond_providers]
    exact List.mem_map_of_mem isFirst
  obtain ⟨glance, member, same⟩ := List.mem_map.mp asked
  obtain ⟨other, isOther, known, looked⟩ := sound.first_of_recorded member
  obtain rfl := List.inj_on_of_nodup_map sound.seen.distinct isOther isFirst (known.trans same)
  exact ⟨glance, member, same, looked⟩

/-- A provider whose looks both differed has a divergence recorded. -/
theorem divergence_recorded (sound : report.Sound entityCheck) {second : Glance ν}
    (isSecond : second ∈ report.again) (differs : second.verdict = .divergence) :
    ∃ glance ∈ report.recorded, glance.provider = second.provider ∧
      glance.verdict = .divergence :=
  ⟨second, sound.mem_recorded.mpr (.inl isSecond), rfl, differs⟩

/-- A divergence is recorded exactly when both looks differed. -/
theorem divergence_iff (sound : report.Sound entityCheck) (member : glance ∈ report.recorded) :
    glance.verdict = .divergence ↔
      (∃ first ∈ report.seen, first.provider = glance.provider ∧ first.verdict = .divergence) ∧
        ∃ second ∈ report.again, second.provider = glance.provider ∧
          second.verdict = .divergence := by
  constructor
  · intro differs
    obtain ⟨first, isFirst, same, looked⟩ := sound.first_of_recorded member
    split at looked
    · next differed => exact ⟨⟨first, isFirst, same, differed⟩, glance, looked, rfl, differs⟩
    · next agreed => exact absurd (looked ▸ differs) agreed
  · rintro ⟨-, second, isSecond, same, differs⟩
    rcases sound.mem_recorded.mp member with again | ⟨-, once⟩
    · obtain rfl := List.inj_on_of_nodup_map sound.again.distinct isSecond again same
      exact differs
    · exact absurd (List.mem_map.mpr ⟨second, isSecond, same⟩) once

end Report.Sound

/-! ## The gate -/

/-- The last verdict recorded of a provider, with its height. -/
def lastTold (provider : Handle) (told : List Told) : Option (Verdict × Nat) :=
  ((told.filter (·.provider = provider)).getLast?).map fun last => (last.verdict, last.height)

/-- The last verdict recorded of a provider that says something about its data. -/
def lastTelling (provider : Handle) (told : List Told) : Option Verdict :=
  ((told.filter fun one => one.provider = provider ∧
    (one.verdict = .match_ ∨ one.verdict = .divergence)).getLast?).map (·.verdict)

section Told

variable {provider : Handle} {told : List Told} {last : Told}

theorem lastTold_other (apart : last.provider ≠ provider) :
    lastTold provider (told ++ [last]) = lastTold provider told := by
  rw [lastTold, List.filter_append, List.filter_cons_of_neg (by simpa using apart),
    List.filter_nil, List.append_nil, lastTold]

theorem lastTold_own (told : List Told) (last : Told) :
    lastTold last.provider (told ++ [last]) = some (last.verdict, last.height) := by
  rw [lastTold, List.filter_append, List.filter_cons_of_pos (by simp), List.filter_nil,
    List.getLast?_concat, Option.map_some]

theorem lastTelling_other (silent : ¬ (last.provider = provider ∧
      (last.verdict = .match_ ∨ last.verdict = .divergence))) :
    lastTelling provider (told ++ [last]) = lastTelling provider told := by
  rw [lastTelling, List.filter_append, List.filter_cons_of_neg (by simpa using silent),
    List.filter_nil, List.append_nil, lastTelling]

theorem lastTelling_own (tells : last.verdict = .match_ ∨ last.verdict = .divergence) :
    lastTelling last.provider (told ++ [last]) = some last.verdict := by
  rw [lastTelling, List.filter_append, List.filter_cons_of_pos (by simpa using tells),
    List.filter_nil, List.getLast?_concat, Option.map_some]

theorem last_none (unknown : ∀ one ∈ told, one.provider ≠ provider) :
    lastTold provider told = none ∧ lastTelling provider told = none := by
  have nothing : told.filter (·.provider = provider) = [] :=
    List.filter_eq_nil_iff.mpr fun one member => by simp [unknown one member]
  have silent : (told.filter fun one => one.provider = provider ∧
      (one.verdict = .match_ ∨ one.verdict = .divergence)) = [] :=
    List.filter_eq_nil_iff.mpr fun one member => by simp [unknown one member]
  constructor
  · rw [lastTold, nothing, List.getLast?_nil, Option.map_none]
  · rw [lastTelling, silent, List.getLast?_nil, Option.map_none]

end Told

/-- What the integrity checks write to an entry. -/
def Watched.checked (entry : Watched) : Bool × Option (Verdict × Nat) :=
  (entry.servingWrongData, entry.verdict)

/-- A verdict is stored with its height. -/
theorem Watched.recordIntegrity_verdict (entry : Watched) (verdict : Verdict) (height : Nat) :
    (entry.recordIntegrity verdict height).verdict = some (verdict, height) := by
  cases verdict <;> rfl

/-- Every entry keeps the last verdict recorded of it, and its integrity gate is closed exactly when
its last telling verdict is a divergence. -/
def Gated (entries : List Watched) (told : List Told) : Prop :=
  ∀ provider entry, entries[provider]? = some entry →
    (entry.servingWrongData = true ↔ lastTelling provider told = some .divergence) ∧
      entry.verdict = lastTold provider told

/-- What the integrity checks did not write keeps the gates. -/
theorem Gated.modify {entries : List Watched} {told : List Told} (gated : Gated entries told)
    (handle : Handle) {change : Watched → Watched}
    (same : ∀ entry, (change entry).checked = entry.checked) :
    Gated (entries.modify handle change) told := by
  intro provider entry isEntry
  rw [List.getElem?_modify] at isEntry
  obtain ⟨old, isOld, rfl⟩ := Option.map_eq_some_iff.mp isEntry
  obtain ⟨gate, verdict⟩ := gated provider old isOld
  rw [← gate, ← verdict]
  split
  · obtain ⟨wrong, last⟩ := Prod.ext_iff.mp (same old)
    exact ⟨iff_of_eq (congrArg (· = true) wrong), last⟩
  · exact ⟨Iff.rfl, rfl⟩

/-- A verdict that is recorded is the last of its provider. -/
theorem Gated.recordOne {entries : List Watched} {told : List Told} (gated : Gated entries told)
    (height : Nat) (glance : Glance ν) :
    Gated (Fleet.recordOne height entries glance) (told ++ [glance.told height]) := by
  intro provider entry isEntry
  rw [Fleet.recordOne, List.getElem?_modify] at isEntry
  obtain ⟨old, isOld, rfl⟩ := Option.map_eq_some_iff.mp isEntry
  have before := (gated provider old isOld).1
  split
  · next same =>
      subst same
      refine ⟨?_, (Watched.recordIntegrity_verdict ..).trans
        (lastTold_own told (glance.told height)).symm⟩
      have own := @lastTelling_own told (glance.told height)
      have other := @lastTelling_other glance.provider told (glance.told height)
      rw [Watched.recordIntegrity_wrong]
      cases verdict : glance.verdict with
      | match_ =>
          have tells : lastTelling glance.provider (told ++ [glance.told height]) = some .match_ :=
            (own (.inl verdict)).trans (congrArg some verdict)
          simp [tells]
      | divergence =>
          have tells : lastTelling glance.provider (told ++ [glance.told height]) =
              some .divergence := (own (.inr verdict)).trans (congrArg some verdict)
          simp [tells]
      | stale =>
          rw [other (by simp [Glance.told, verdict])]
          exact before
      | unknown =>
          rw [other (by simp [Glance.told, verdict])]
          exact before
  · next apart =>
      rw [lastTelling_other (fun tells => apart tells.1), lastTold_other apart]
      exact gated provider old isOld

/-- Every verdict of a round is recorded, one after another. -/
theorem Gated.record {entries : List Watched} {told : List Told} (gated : Gated entries told)
    (height : Nat) (findings : List (Glance ν)) :
    Gated (findings.foldl (Fleet.recordOne height) entries)
      (told ++ findings.map (Glance.told height)) := by
  induction findings generalizing entries told with
  | nil => rwa [List.map_nil, List.append_nil]
  | cons finding rest ih =>
      rw [List.map_cons, List.append_cons]
      exact ih (gated.recordOne height finding)

theorem length_foldl_recordOne (height : Nat) (entries : List Watched)
    (findings : List (Glance ν)) :
    (findings.foldl (Fleet.recordOne height) entries).length = entries.length := by
  induction findings generalizing entries with
  | nil => rfl
  | cons finding rest ih => rw [List.foldl_cons, ih, Fleet.recordOne, List.length_modify]

namespace Watched

variable (entry : Watched)

theorem setGate_health_checked (value : Bool) :
    (entry.setGate .health value).checked = entry.checked :=
  congrArg (·, entry.verdict) (setGate_health_wrong entry value)

theorem recordHealth_checked (success : Bool) (flipAfter : Nat) (source : HealthSignal) :
    (entry.recordHealth success flipAfter source).checked = entry.checked := by
  simp only [recordHealth]
  split
  · exact setGate_health_checked _ true
  · split
    · exact setGate_health_checked _ false
    · rfl

theorem probe_checked (config : Health) (referenceHeight height : Option Nat) (now : Instant) :
    (entry.probe config referenceHeight height now).2.checked = entry.checked := by
  cases height with
  | none => exact recordHealth_checked _ false config.flipAfter .probe
  | some height =>
      simp only [probe]
      split
      · exact recordHealth_checked _ false config.flipAfter .lag
      · exact recordHealth_checked _ true config.flipAfter .probe

theorem chainCleared_checked (config : Health) (chainRound : Bool) (answer : Option Nat) :
    (entry.chainCleared config chainRound answer).2.checked = entry.checked := by
  rw [chainCleared]
  split
  · rfl
  · simp only
    split
    · cases answer with
      | none => rfl
      | some actual =>
          rw [verifyChain]
          split
          · rfl
          · exact setGate_health_checked _ false
    · rfl

theorem attempted_checked (config : Health) (outcome : Outcome) (attemptStarted now : Instant) :
    (entry.attempted config outcome attemptStarted now).checked = entry.checked := by
  cases outcome with
  | answer => rfl
  | tooLarge => rfl
  | noAnswer => exact recordHealth_checked _ false config.flipAfter .traffic
  | timedOut =>
      simp only [attempted]
      split
      · rfl
      · exact recordHealth_checked _ false config.flipAfter .traffic

end Watched

/-! ## One round after another -/

/-- A round under way looks at different entries, each look at one it has to look at. -/
structure Round.Sound [DecidableEq ν] (entityCheck : Bool) (count : Nat) (round : Round ν) :
    Prop where
  distinct : round.providers.Nodup
  inside : ∀ provider ∈ round.providers, provider < count
  entity : round.expected.entity.isSome = entityCheck
  looks :
    match round.stage with
    | .first seen => Looks round.expected round.providers seen
    | .sleeping seen => Looks round.expected round.providers seen ∧
        ∀ provider ∈ round.providers, provider ∈ seen.map (·.provider)
    | .second seen again => (Looks round.expected round.providers seen ∧
        ∀ provider ∈ round.providers, provider ∈ seen.map (·.provider)) ∧
          Looks round.expected (doubtful seen) again

namespace Fleet

/-- Everything that was recorded, in order. -/
def told (state : Fleet ν) : List Told :=
  state.reports.flatMap Report.told

/-- The rounds of a state are sound, and its gates say what they recorded. -/
structure Sound [DecidableEq ν] (entityCheck : Bool) (state : Fleet ν) : Prop where
  distinct : state.members.Nodup
  inside : ∀ provider ∈ state.members, provider < state.entries.length
  round : ∀ round ∈ state.round, round.Sound entityCheck state.entries.length
  reports : ∀ report ∈ state.reports, report.Sound entityCheck
  known : ∀ one ∈ state.told, one.provider < state.entries.length
  gated : Gated state.entries state.told

variable [DecidableEq ν] {health : Health} {entityCheck : Bool} {state next : Fleet ν}

theorem Sound.initial : (initial : Fleet ν).Sound entityCheck where
  distinct := List.nodup_nil
  inside _ member := absurd member List.not_mem_nil
  round _ member := absurd member (Option.not_mem_none _)
  reports _ member := absurd member List.not_mem_nil
  known _ member := absurd member List.not_mem_nil
  gated _ _ isEntry := absurd isEntry (by simp [Fleet.initial])

/-- What touches neither the integrity gate nor the rounds. -/
theorem Sound.modify (sound : state.Sound entityCheck) (handle : Handle)
    {change : Watched → Watched}
    (same : ∀ entry, (change entry).checked = entry.checked) :
    (state.modify handle change).Sound entityCheck := by
  have length : (state.modify handle change).entries.length = state.entries.length :=
    List.length_modify ..
  exact ⟨sound.distinct, length ▸ sound.inside, length ▸ sound.round, sound.reports,
    length ▸ sound.known, sound.gated.modify handle same⟩

theorem Sound.join (sound : state.Sound entityCheck) (id url : String) (source : Source)
    (now : Instant) :
    ({ state with
      entries := state.entries ++ [Watched.born (Provider.new id url source) now]
      members := state.members ++ [state.entries.length] } : Fleet ν).Sound entityCheck := by
  have longer : ∀ {provider : Handle}, provider < state.entries.length →
      provider < (state.entries ++ [Watched.born (Provider.new id url source) now]).length := by
    intro provider inside
    rw [List.length_append]
    exact Nat.lt_add_right _ inside
  refine ⟨?_, ?_, fun round isRound => ?_, sound.reports, fun one member =>
    longer (sound.known one member), ?_⟩
  · refine List.nodup_append.mpr ⟨sound.distinct, List.nodup_singleton _, ?_⟩
    rintro old isOld _ new rfl
    exact absurd (sound.inside old isOld) (List.mem_singleton.mp new ▸ Nat.lt_irrefl _)
  · intro provider member
    rcases List.mem_append.mp member with old | new
    · exact longer (sound.inside provider old)
    · rw [List.mem_singleton.mp new, List.length_append]
      exact Nat.lt_succ_self _
  · have known := sound.round round isRound
    exact ⟨known.distinct, fun provider member => longer (known.inside provider member),
      known.entity, known.looks⟩
  · intro provider entry isEntry
    rcases Nat.lt_or_ge provider state.entries.length with old | new
    · rw [List.getElem?_append_left old] at isEntry
      exact sound.gated provider entry isEntry
    · -- A new entry is let in, and no round has looked at it.
      have unknown : ∀ one ∈ state.told, one.provider ≠ provider :=
        fun one member same => absurd (sound.known one member) (same ▸ Nat.not_lt.mpr new)
      rw [List.getElem?_append_right new] at isEntry
      have isNew := List.mem_singleton.mp (List.mem_of_getElem? isEntry)
      subst isNew
      obtain ⟨unjudged, untold⟩ := last_none unknown
      refine ⟨?_, unjudged.symm⟩
      constructor
      · intro wrong
        have isOpen : (Watched.born (Provider.new id url source) now).servingWrongData = false :=
          decide_eq_false (by decide : ¬ Gate.integrity.bit &&& Gate.integrity.bit = 0)
        cases isOpen.symm.trans wrong
      · intro diverged
        cases untold.symm.trans diverged

/-- A round begins over different entries, or none does. -/
theorem Sound.roundOver (sound : state.Sound entityCheck) {providers : List Handle}
    (distinct : providers.Nodup) (inside : ∀ provider ∈ providers, provider < state.entries.length)
    (reference : Reference ν) :
    (state.roundOver entityCheck providers reference).Sound entityCheck := by
  have entity : ∀ expected, reference.expected entityCheck = some expected →
      expected.entity.isSome = entityCheck := by
    intro expected isExpected
    simp only [Reference.expected] at isExpected
    split at isExpected
    · cases isExpected
    · split at isExpected
      · next on =>
          obtain ⟨key, -, rfl⟩ := Option.map_eq_some_iff.mp isExpected
          exact on.symm
      · next off =>
          cases isExpected
          exact (Bool.eq_false_of_not_eq_true off).symm
  cases providers with
  | nil => exact sound
  | cons first rest =>
      cases isExpected : reference.expected entityCheck with
      | none =>
          simp only [Fleet.roundOver, isExpected]
          exact sound
      | some expected =>
          simp only [Fleet.roundOver, isExpected]
          refine ⟨sound.distinct, sound.inside, ?_, sound.reports, sound.known, sound.gated⟩
          rintro round isRound
          cases isRound
          exact ⟨distinct, inside, entity expected isExpected, .none expected (first :: rest)⟩

/-- The round under way goes on. -/
theorem Sound.setStage (sound : state.Sound entityCheck) {round : Round ν} {stage : Stage ν}
    (isSound : Round.Sound entityCheck state.entries.length { round with stage := stage }) :
    (state.setStage round stage).Sound entityCheck := by
  refine ⟨sound.distinct, sound.inside, ?_, sound.reports, sound.known, sound.gated⟩
  rintro other isOther
  cases isOther
  exact isSound

/-- A round records its report. -/
theorem Sound.record (sound : state.Sound entityCheck) {report : Report ν}
    (isSound : report.Sound entityCheck)
    (inside : ∀ glance ∈ report.recorded, glance.provider < state.entries.length) :
    (state.record report).Sound entityCheck := by
  have length : (state.record report).entries.length = state.entries.length :=
    length_foldl_recordOne ..
  have longer : (state.record report).told = state.told ++ report.told := by
    simp [Fleet.told, Fleet.record]
  refine ⟨sound.distinct, length ▸ sound.inside, ?_, ?_, ?_, ?_⟩
  · rintro round isRound
    cases isRound
  · intro other member
    rcases List.mem_append.mp member with old | new
    · exact sound.reports other old
    · exact List.mem_singleton.mp new ▸ isSound
  · intro one member
    rw [longer] at member
    rw [length]
    rcases List.mem_append.mp member with old | new
    · exact sound.known one old
    · obtain ⟨glance, recorded, rfl⟩ := List.mem_map.mp new
      exact inside glance recorded
  · rw [longer]
    exact sound.gated.record _ _

/-- A look joins the looks of its round. -/
theorem Sound.look (sound : state.Sound entityCheck) {round : Round ν}
    (isRound : state.round = some round) {provider : Handle} {answers : Answers ν}
    (looked : state.look round provider answers = some next) : next.Sound entityCheck := by
  obtain ⟨distinct, inside, entity, looks⟩ := sound.round round isRound
  simp only [Fleet.look] at looked
  split at looked
  · cases looked
  · next rows =>
      have rows := not_ne_iff.mp rows
      split at looked
      · next seen isFirst =>
          simp only [isFirst] at looks
          split at looked
          · next isNew =>
              cases looked
              exact sound.setStage ⟨distinct, inside, entity,
                looks.snoc isNew.1 isNew.2 rfl rows⟩
          · cases looked
      · cases looked
      · next seen again isSecond =>
          simp only [isSecond] at looks
          split at looked
          · next isNew =>
              cases looked
              exact sound.setStage ⟨distinct, inside, entity, looks.1,
                looks.2.snoc isNew.1 isNew.2 rfl rows⟩
          · cases looked

/-- With every look in, the round waits for the second one or records its report. -/
theorem Sound.settle (sound : state.Sound entityCheck) {round : Round ν}
    (isRound : state.round = some round) (settled : state.settle round = some next) :
    next.Sound entityCheck := by
  obtain ⟨distinct, inside, entity, looks⟩ := sound.round round isRound
  have within : ∀ {seen : List (Glance ν)} {report : Report ν},
      Looks round.expected round.providers seen → report.seen = seen →
        ∀ glance ∈ report.recorded, glance.provider < state.entries.length := by
    intro seen report looks isSeen glance member
    have asked : glance.provider ∈ report.recorded.map (·.provider) := List.mem_map_of_mem member
    rw [Report.recorded, foldl_putSecond_providers, isSeen] at asked
    obtain ⟨first, isFirst, same⟩ := List.mem_map.mp asked
    exact same ▸ inside _ (looks.allowed first isFirst)
  simp only [Fleet.settle] at settled
  split at settled
  · next seen isFirst =>
      simp only [isFirst] at looks
      split at settled
      · next all =>
        split at settled
        · next nobody =>
            cases settled
            refine sound.record ⟨entity, looks, looks.all all, .none _ _, ?_⟩ (within looks rfl)
            intro provider differs
            rw [nobody] at differs
            cases differs
        · cases settled
          exact sound.setStage ⟨distinct, inside, entity, looks, looks.all all⟩
      · cases settled
  · cases settled
  · next seen again isSecond =>
      simp only [isSecond] at looks
      obtain ⟨⟨first, whole⟩, second⟩ := looks
      split at settled
      · next all =>
          cases settled
          exact sound.record ⟨entity, first, whole, second, second.all all⟩ (within first rfl)
      · cases settled

theorem Sound.step {event : FleetEvent ν} (sound : state.Sound entityCheck)
    (stepped : state.step health entityCheck event = some next) : next.Sound entityCheck := by
  cases event with
  | join id url source now =>
      cases stepped
      exact sound.join id url source now
  | leave id =>
      cases stepped
      exact ⟨sound.distinct.sublist List.eraseP_sublist,
        fun provider member => sound.inside provider (List.mem_of_mem_eraseP member),
        sound.round, sound.reports, sound.known, sound.gated⟩
  | probe provider referenceHeight height now =>
      cases stepped
      exact sound.modify provider fun entry => entry.probe_checked health referenceHeight height now
  | reschedule provider began =>
      cases stepped
      exact sound.modify provider fun _ => rfl
  | chainCheck provider chainRound answer =>
      cases stepped
      exact sound.modify provider fun entry => entry.chainCleared_checked health chainRound answer
  | attempt provider outcome attemptStarted now =>
      cases stepped
      exact sound.modify provider fun entry =>
        entry.attempted_checked health outcome attemptStarted now
  | round reference =>
      simp only [Fleet.step] at stepped
      split at stepped
      · cases stepped
        exact sound.roundOver (sound.distinct.filter _)
          (fun provider member => sound.inside provider (List.mem_of_mem_filter member)) reference
      · cases stepped
  | newcomer provider reference =>
      simp only [Fleet.step] at stepped
      split at stepped
      · split at stepped
        · next inside =>
            cases stepped
            refine sound.roundOver (List.nodup_singleton _) ?_ reference
            intro other member
            exact List.mem_singleton.mp member ▸ inside
        · cases stepped
      · cases stepped
  | look provider answers =>
      obtain ⟨round, isRound, looked⟩ := Option.bind_eq_some_iff.mp stepped
      exact sound.look isRound looked
  | settle =>
      obtain ⟨round, isRound, settled⟩ := Option.bind_eq_some_iff.mp stepped
      exact sound.settle isRound settled
  | wake =>
      obtain ⟨round, isRound, woken⟩ := Option.bind_eq_some_iff.mp stepped
      obtain ⟨distinct, inside, entity, looks⟩ := sound.round round isRound
      split at woken
      · next seen isSleeping =>
          cases woken
          simp only [isSleeping] at looks
          exact sound.setStage ⟨distinct, inside, entity, looks, .none _ _⟩
      · cases woken

/-- A round whose reference cannot be read judges nobody. -/
theorem unread_reference {event : FleetEvent ν} {reference : Reference ν}
    (isRound : event = .round reference ∨ ∃ provider, event = .newcomer provider reference)
    (unread : reference.finalized = none)
    (stepped : state.step health entityCheck event = some next) : next = state := by
  have same : ∀ providers, state.roundOver entityCheck providers reference = state := by
    intro providers
    have nothing : reference.expected entityCheck = none := by rw [Reference.expected, unread]
    cases providers with
    | nil => rfl
    | cons first rest => simp only [Fleet.roundOver, nothing]
  rcases isRound with rfl | ⟨provider, rfl⟩
  · simp only [Fleet.step, same] at stepped
    split at stepped
    · exact (Option.some.inj stepped).symm
    · cases stepped
  · simp only [Fleet.step, same] at stepped
    split at stepped
    · split at stepped
      · exact (Option.some.inj stepped).symm
      · cases stepped
    · cases stepped

/-- A round is over once it recorded its report, and not before. -/
theorem ends_recorded {event : FleetEvent ν} {round : Round ν} (isRound : state.round = some round)
    (stepped : state.step health entityCheck event = some next) (ended : next.round = none) :
    ∃ report, next.reports = state.reports ++ [report] ∧ report.expected = round.expected ∧
      report.providers = round.providers := by
  have stays : next.round = state.round → ∃ report, next.reports = state.reports ++ [report] ∧
      report.expected = round.expected ∧ report.providers = round.providers := by
    intro same
    rw [ended, isRound] at same
    cases same
  cases event with
  | settle =>
      simp only [Fleet.step, isRound, Option.bind_some, Fleet.settle] at stepped
      split at stepped
      · split at stepped
        · split at stepped
          · cases stepped
            exact ⟨_, rfl, rfl, rfl⟩
          · cases stepped
            cases ended
        · cases stepped
      · cases stepped
      · split at stepped
        · cases stepped
          exact ⟨_, rfl, rfl, rfl⟩
        · cases stepped
  | look provider answers =>
      simp only [Fleet.step, isRound, Option.bind_some, Fleet.look] at stepped
      split at stepped
      · cases stepped
      · split at stepped
        · split at stepped
          · cases stepped
            cases ended
          · cases stepped
        · cases stepped
        · split at stepped
          · cases stepped
            cases ended
          · cases stepped
  | wake =>
      simp only [Fleet.step, isRound, Option.bind_some] at stepped
      split at stepped
      · cases stepped
        cases ended
      · cases stepped
  | round reference => simp [Fleet.step, isRound] at stepped
  | newcomer provider reference => simp [Fleet.step, isRound] at stepped
  | _ =>
      cases stepped
      exact stays rfl

/-- Whatever the reference and the providers answer, a round records one verdict for each of its
providers, that of its last look; none when the reference's finalized block cannot be read; a
divergence exactly when both looks differed; a match only of the reference's data.  And over all
rounds an entry keeps the last verdict recorded of it, its integrity gate closed exactly when its
last telling verdict is a divergence. -/
theorem records_what_was_said {events : List (FleetEvent ν)} {state : Fleet ν}
    (reached : (machine health entityCheck).run initial events = some state) :
    (∀ report ∈ state.reports,
      (report.recorded.map (·.provider)).Nodup ∧
      (∀ provider, provider ∈ report.recorded.map (·.provider) ↔ provider ∈ report.providers) ∧
      (∀ first ∈ report.seen, ∃ glance ∈ report.recorded, glance.provider = first.provider ∧
        if first.verdict = .divergence then glance ∈ report.again else glance = first) ∧
      (∀ second ∈ report.again, second.verdict = .divergence →
        ∃ glance ∈ report.recorded, glance.provider = second.provider ∧
          glance.verdict = .divergence) ∧
      ∀ glance ∈ report.recorded,
        glance.verdict = (judge glance.lastHeight glance.answers report.expected).1 ∧
        (∃ first ∈ report.seen, first.provider = glance.provider ∧
          if first.verdict = .divergence then glance ∈ report.again else glance = first) ∧
        (glance.verdict = .divergence ↔
          (∃ first ∈ report.seen, first.provider = glance.provider ∧
            first.verdict = .divergence) ∧
          ∃ second ∈ report.again, second.provider = glance.provider ∧
            second.verdict = .divergence) ∧
        (glance.verdict = .match_ →
          glance.answers.block = .ok (some report.expected.finalized) ∧
          (entityCheck = true → ∃ entity rows reference, report.expected.entity = some entity ∧
            glance.answers.rows = some (.ok rows) ∧ entity.rows = some reference ∧
            List.Forall₂ ArkivEntity.Rearranged rows reference))) ∧
    (∀ event reference next,
      (event = .round reference ∨ ∃ provider, event = .newcomer provider reference) →
        reference.finalized = none → state.step health entityCheck event = some next →
          next = state) ∧
    (∀ event round next, state.round = some round →
      state.step health entityCheck event = some next → next.round = none →
        ∃ report, next.reports = state.reports ++ [report] ∧ report.expected = round.expected ∧
          report.providers = round.providers) ∧
    ∀ provider entry, state.entries[provider]? = some entry →
      (entry.servingWrongData = true ↔ lastTelling provider state.told = some .divergence) ∧
        entry.verdict = lastTold provider state.told := by
  have preserved : ∀ (before : Fleet ν) event after, Sound entityCheck before →
      (machine health entityCheck).step before event = some after → Sound entityCheck after :=
    fun _ _ _ sound stepped => sound.step stepped
  have sound : state.Sound entityCheck := Machine.run_preserves preserved Sound.initial reached
  refine ⟨?_, fun event reference next isRound unread => unread_reference isRound unread,
    fun event round next isRound => ends_recorded isRound, sound.gated⟩
  intro report member
  have isSound := sound.reports report member
  refine ⟨isSound.recorded_distinct, fun provider => isSound.mem_recorded_providers,
    fun first => isSound.recorded_of_first, fun second => isSound.divergence_recorded,
    fun glance recorded => ?_⟩
  obtain ⟨judged, rows⟩ := isSound.judged recorded
  refine ⟨judged, isSound.first_of_recorded recorded, isSound.divergence_iff recorded, ?_⟩
  intro isMatch
  obtain ⟨block, equal⟩ := judge_match_means (judged.symm.trans isMatch)
  refine ⟨block, fun on => ?_⟩
  obtain ⟨entity, isEntity⟩ := Option.isSome_iff_exists.mp (isSound.entity.trans on)
  obtain ⟨served, reference, isServed, isReference, same⟩ :=
    equal entity isEntity (rows.trans on)
  exact ⟨entity, served, reference, isEntity, isServed, isReference, same⟩

/-- The reference's block at height seven. -/
def seventh : BlockFields where
  number := 7
  hash := 70
  parentHash := 60
  stateRoot := 1
  transactionsRoot := 2
  receiptsRoot := 3
  transactions := []

/-- A reference that is read, the entity check off. -/
def atSeven : Reference Nat where
  finalized := some seventh
  key := none
  rows := none

/-- Another block at that height. -/
def another : Answers Nat where
  block := .ok (some { seventh with hash := 71 })
  rows := none

/-- The reference's block, and no rows. -/
def agreeing : Answers Nat where
  block := .ok (some seventh)
  rows := none

/-- Two providers come to pass their probes, and a round looks at both: one answers with the
reference's block, the other with another block at both looks. -/
def caught : List (FleetEvent Nat) :=
  [.join "near" "http://near" .static 0, .join "far" "http://far" .static 0,
    .probe 0 none (some 9) 1, .probe 0 none (some 9) 2, .probe 1 none (some 9) 1,
    .probe 1 none (some 9) 2, .round atSeven, .look 1 agreeing, .look 0 another, .settle, .wake,
    .look 0 another, .settle]

/-- Some health section. -/
def plainHealth : Health where
  probeInterval := Duration.fromSecs 5
  probeTimeout := Duration.fromSecs 2
  flipAfter := 2
  maxProbeBackoff := Duration.fromSecs 60
  refHeightInterval := Duration.fromSecs 60
  chainidCheckInterval := Duration.fromSecs 300
  chainId := none
  lagToleranceBlocks := 30

/-- Found out twice, it is taken out, and the verdict is kept with its height. -/
theorem records_what_was_said_caught : ∃ state,
    (machine plainHealth false).run initial caught = some state ∧
      ∀ entry, state.entries[0]? = some entry →
        entry.servingWrongData = true ∧ entry.verdict = some (.divergence, 7) := by
  refine ⟨_, rfl, fun entry isEntry => ?_⟩
  have reached : (machine plainHealth false).run initial caught = some _ := rfl
  obtain ⟨gate, verdict⟩ := (records_what_was_said reached).2.2.2 0 entry isEntry
  exact ⟨gate.mpr (by decide), verdict.trans (by decide)⟩

end Fleet

end CommunityLb
