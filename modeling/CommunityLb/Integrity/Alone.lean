import CommunityLb.Integrity.Record
import CommunityLb.Integrity.Rounds

/-!
# Rounds one at a time

Rounds that follow one another are checks that may overlap and do not.  What probes, traffic and
membership do to the entries beside them is, to the checks, a height and a health gate.
-/

namespace CommunityLb

variable {ν : Type}

/-! ## What the checks see of an entry -/

namespace Watched

/-- The height the probes report, whether they pass, and what the checks write. -/
def shown (entry : Watched) : Option Nat × Bool × Bool × Option (Verdict × Nat) :=
  (entry.lastHeight, entry.healthy, entry.checked)

theorem setGate_health_healthy (entry : Watched) (value : Bool) :
    (entry.setGate .health value).healthy = value := by
  have byte : ∀ eligibility : BitVec 8, ∀ value : Bool,
      decide ((if value then eligibility ||| Gate.health.bit
        else eligibility &&& ~~~Gate.health.bit) &&& Gate.health.bit ≠ 0) = value := by
    decide +kernel
  exact byte entry.eligibility value

theorem setGate_integrity_healthy (entry : Watched) (value : Bool) :
    (entry.setGate .integrity value).healthy = entry.healthy := by
  have byte : ∀ eligibility : BitVec 8, ∀ value : Bool,
      decide ((if value then eligibility ||| Gate.integrity.bit
        else eligibility &&& ~~~Gate.integrity.bit) &&& Gate.health.bit ≠ 0) =
      decide (eligibility &&& Gate.health.bit ≠ 0) := by
    decide +kernel
  exact byte entry.eligibility value

theorem setGate_health_shown (entry : Watched) (value : Bool) :
    (entry.setGate .health value).shown = (entry.lastHeight, value, entry.checked) := by
  rw [shown, setGate_health_healthy, setGate_health_checked]
  rfl

/-- A verdict is recorded alike on entries that show the same. -/
theorem recordIntegrity_shown {entry other : Watched} (same : entry.shown = other.shown)
    (verdict : Verdict) (height : Nat) :
    (entry.recordIntegrity verdict height).shown =
      (other.recordIntegrity verdict height).shown := by
  have healthy : ∀ entry : Watched,
      (entry.recordIntegrity verdict height).healthy = entry.healthy := by
    intro entry
    cases verdict with
    | match_ => exact setGate_integrity_healthy _ true
    | divergence => exact setGate_integrity_healthy _ false
    | stale | unknown => rfl
  have lastHeight : ∀ entry : Watched,
      (entry.recordIntegrity verdict height).lastHeight = entry.lastHeight := by
    intro entry
    cases verdict <;> rfl
  simp only [shown, checked, Prod.mk.injEq] at same ⊢
  obtain ⟨sameHeight, sameHealth, sameGate, _⟩ := same
  refine ⟨?_, ?_, ?_, ?_⟩
  · rw [lastHeight, lastHeight, sameHeight]
  · rw [healthy, healthy, sameHealth]
  · rw [recordIntegrity_wrong, recordIntegrity_wrong, sameGate]
  · rw [recordIntegrity_verdict, recordIntegrity_verdict]

theorem recordHealth_lastHeight (entry : Watched) (success : Bool) (flipAfter : Nat)
    (source : HealthSignal) :
    (entry.recordHealth success flipAfter source).lastHeight = entry.lastHeight := by
  simp only [recordHealth]
  split
  · rfl
  · split <;> rfl

theorem probe_lastHeight (entry : Watched) (config : Health) (referenceHeight : Option Nat)
    (height : Nat) (now : Instant) :
    (entry.probe config referenceHeight (some height) now).2.lastHeight =
      (entry.recordHeight height).lastHeight := by
  simp only [probe]
  split <;> exact recordHealth_lastHeight _ _ _ _

theorem chainCleared_lastHeight (entry : Watched) (config : Health) (chainRound : Bool)
    (answer : Option Nat) :
    (entry.chainCleared config chainRound answer).2.lastHeight = entry.lastHeight := by
  rw [chainCleared]
  split
  · rfl
  · simp only
    split
    · cases answer with
      | none => rfl
      | some actual =>
          rw [verifyChain]
          split <;> rfl
    · rfl

theorem attempted_lastHeight (entry : Watched) (config : Health) (outcome : Outcome)
    (attemptStarted now : Instant) :
    (entry.attempted config outcome attemptStarted now).lastHeight = entry.lastHeight := by
  cases outcome with
  | answer => rfl
  | tooLarge => rfl
  | noAnswer => exact recordHealth_lastHeight _ false config.flipAfter .traffic
  | timedOut =>
      simp only [attempted]
      split
      · rfl
      · exact recordHealth_lastHeight _ false config.flipAfter .traffic

end Watched

/-- Entries that show the checks the same. -/
def Alike (entries others : List Watched) : Prop :=
  ∀ handle : Handle, entries[handle]?.map Watched.shown = others[handle]?.map Watched.shown

namespace Alike

variable {entries others : List Watched}

theorem length (alike : Alike entries others) : entries.length = others.length := by
  have same : entries.map Watched.shown = others.map Watched.shown :=
    List.ext_getElem? fun handle => by simpa using alike handle
  simpa using congrArg List.length same

theorem modify (alike : Alike entries others) (handle : Handle) {change also : Watched → Watched}
    (same : ∀ entry ∈ entries[handle]?, ∀ other ∈ others[handle]?, entry.shown = other.shown →
      (change entry).shown = (also other).shown) :
    Alike (entries.modify handle change) (others.modify handle also) := by
  intro place
  have here := alike place
  rw [List.getElem?_modify, List.getElem?_modify]
  by_cases isHere : handle = place
  · subst isHere
    cases found : entries[handle]? with
    | none =>
        rw [found] at here
        rw [Option.map_eq_none_iff.mp here.symm]
        rfl
    | some entry =>
        rw [found] at here
        obtain ⟨other, isOther, shown⟩ := Option.map_eq_some_iff.mp here.symm
        rw [isOther]
        simpa using same entry found other isOther shown.symm
  · simpa [isHere] using here

theorem append (alike : Alike entries others) (entry : Watched) :
    Alike (entries ++ [entry]) (others ++ [entry]) := by
  intro place
  have lengths := alike.length
  by_cases inside : place < entries.length
  · rw [List.getElem?_append_left inside, List.getElem?_append_left (lengths ▸ inside)]
    exact alike place
  · rw [List.getElem?_append_right (Nat.not_lt.mp inside),
      List.getElem?_append_right (lengths ▸ Nat.not_lt.mp inside), lengths]

/-- A provider judged by one list is judged by the other. -/
theorem lastHeight (alike : Alike entries others) (handle : Handle) :
    entries[handle]?.bind Watched.lastHeight = others[handle]?.bind Watched.lastHeight := by
  have here := alike handle
  cases found : entries[handle]? with
  | none =>
      rw [found] at here
      rw [Option.map_eq_none_iff.mp here.symm]
  | some entry =>
      rw [found] at here
      obtain ⟨other, isOther, shown⟩ := Option.map_eq_some_iff.mp here.symm
      rw [isOther]
      exact (congrArg Prod.fst shown).symm

theorem healthy (alike : Alike entries others) (handle : Handle) :
    entries[handle]?.any (·.healthy) = others[handle]?.any (·.healthy) := by
  have here := alike handle
  cases found : entries[handle]? with
  | none =>
      rw [found] at here
      rw [Option.map_eq_none_iff.mp here.symm]
  | some entry =>
      rw [found] at here
      obtain ⟨other, isOther, shown⟩ := Option.map_eq_some_iff.mp here.symm
      rw [isOther]
      exact (congrArg (·.2.1) shown).symm

end Alike

/-- Verdicts onto the entries of their providers. -/
def recordPairs (height : Nat) (entries : List Watched) (pairs : List (Handle × Verdict)) :
    List Watched :=
  pairs.foldl (fun entries pair => entries.modify pair.1 (·.recordIntegrity pair.2 height)) entries

theorem Alike.recordPairs {entries others : List Watched} (alike : Alike entries others)
    (height : Nat) (pairs : List (Handle × Verdict)) :
    Alike (recordPairs height entries pairs) (recordPairs height others pairs) := by
  induction pairs generalizing entries others with
  | nil => exact alike
  | cons pair pairs ih =>
      exact ih (alike.modify pair.1 fun _ _ _ _ same => Watched.recordIntegrity_shown same _ _)

/-- Verdicts of different providers may come in any order. -/
theorem recordPairs_perm (height : Nat) (entries : List Watched)
    {pairs others : List (Handle × Verdict)} (distinct : (pairs.map Prod.fst).Nodup)
    (perm : pairs.Perm others) :
    recordPairs height entries pairs = recordPairs height entries others := by
  refine perm.foldl_eq' (fun first inFirst second inSecond entries => ?_) entries
  by_cases same : first.1 = second.1
  · rw [List.inj_on_of_nodup_map distinct inFirst inSecond same]
  · exact List.modify_modify_ne _ _ entries same

/-! ## What a check tells -/

/-- A look tells what a list of glances tells of its provider. -/
def Look.Tells (seen : List (Glance ν)) (provider : Handle) : Look ν → Prop
  | .waiting => provider ∉ seen.map (·.provider)
  | .answered _ _ => False
  | .judged verdict _ _ => ∃ glance ∈ seen, glance.provider = provider ∧ glance.verdict = verdict

section Tells

variable {seen again : List (Glance ν)} {provider : Handle} {look : Look ν} {glance : Glance ν}

theorem Look.Tells.of_unseen (tells : look.Tells seen provider)
    (unseen : provider ∉ seen.map (·.provider)) : look = .waiting := by
  cases look with
  | waiting => rfl
  | answered answers readAt => exact tells.elim
  | judged verdict evidence readAt =>
      obtain ⟨glance, isSeen, same, _⟩ := tells
      exact absurd (List.mem_map.mpr ⟨glance, isSeen, same⟩) unseen

theorem Look.Tells.of_seen (tells : look.Tells seen provider)
    (isSeen : provider ∈ seen.map (·.provider)) :
    ∃ glance ∈ seen, glance.provider = provider ∧
      ∃ evidence readAt, look = .judged glance.verdict evidence readAt := by
  cases look with
  | waiting => exact absurd isSeen tells
  | answered answers readAt => exact tells.elim
  | judged verdict evidence readAt =>
      obtain ⟨glance, member, same, rfl⟩ := tells
      exact ⟨glance, member, same, evidence, readAt, rfl⟩

/-- A glance at another provider tells nothing of this one. -/
theorem Look.Tells.snoc (tells : look.Tells seen provider) (apart : provider ≠ glance.provider) :
    look.Tells (seen ++ [glance]) provider := by
  cases look with
  | waiting =>
      intro member
      rw [List.map_append, List.mem_append] at member
      rcases member with old | new
      · exact tells old
      · exact apart (List.mem_singleton.mp new)
  | answered answers readAt => exact tells
  | judged verdict evidence readAt =>
      obtain ⟨other, member, same⟩ := tells
      exact ⟨other, List.mem_append_left _ member, same⟩

end Tells

/-- A finding tells what a stage of a round tells of its provider. -/
def Finding.Tells (finding : Finding ν) : Stage ν → Prop
  | .first seen | .sleeping seen =>
      finding.second = none ∧ finding.first.Tells seen finding.provider
  | .second seen again =>
      finding.first.Tells seen finding.provider ∧
        match finding.second with
        | none => finding.provider ∉ doubtful seen
        | some look => finding.provider ∈ doubtful seen ∧ look.Tells again finding.provider

/-- The phase of a check that stands where a round does. -/
def Stage.phase : Stage ν → CheckPhase
  | .first _ => .looking
  | .sleeping _ => .sleeping
  | .second _ _ => .lookingAgain

/-- A check that stands where a round does. -/
structure Check.Follows (check : Check ν) (round : Round ν) : Prop where
  expected : check.expected = round.expected
  providers : check.findings.map (·.provider) = round.providers
  phase : check.phase = round.stage.phase
  findings : ∀ finding ∈ check.findings, finding.Tells round.stage

namespace Check

variable {check : Check ν} {provider : Handle} {finding : Finding ν}

/-- What a check records of its providers. -/
def pairs (check : Check ν) : List (Handle × Verdict) :=
  check.findings.filterMap fun finding => finding.verdict.map (finding.provider, ·)

theorem find?_put (found : check.findings.find? (·.provider = provider) = some finding)
    (look : Look ν) :
    (check.put provider look).findings.find? (·.provider = provider) =
      some (finding.setLook look) := by
  have same : (fun finding : Finding ν => decide (finding.provider = provider)) ∘
      (fun finding => if finding.provider = provider then finding.setLook look else finding) =
        fun finding => decide (finding.provider = provider) := by
    funext finding
    simp only [Function.comp]
    split
    · rw [Finding.setLook_provider]
    · rfl
  have isProvider : finding.provider = provider := by simpa using List.find?_some found
  rw [put, List.find?_map, same, found, Option.map_some, if_pos isProvider]

theorem put_put (first second : Look ν) :
    (check.put provider first).put provider second = check.put provider second := by
  simp only [put, List.map_map]
  refine congrArg (fun findings => { check with findings := findings })
    (List.map_congr_left fun finding _ => ?_)
  simp only [Function.comp]
  by_cases same : finding.provider = provider
  · rw [if_pos same, if_pos same, Finding.setLook_provider, if_pos same]
    cases isSecond : finding.second <;> simp [Finding.setLook, isSecond]
  · rw [if_neg same, if_neg same]

theorem allJudged_of {glances : List (Glance ν)}
    (tells : ∀ finding ∈ check.findings, ∃ glance ∈ glances,
      glance.provider = finding.provider ∧ finding.verdict = some glance.verdict) :
    check.allJudged = true := by
  refine List.all_eq_true.mpr fun finding member => ?_
  obtain ⟨glance, _, _, isVerdict⟩ := tells finding member
  rw [isVerdict]
  rfl

/-- The verdicts of a check are those of a report over the same providers. -/
theorem pairs_perm [DecidableEq ν] {entityCheck : Bool} {report : Report ν}
    (sound : report.Sound entityCheck) (distinct : report.providers.Nodup)
    (providers : check.findings.map (·.provider) = report.providers)
    (tells : ∀ finding ∈ check.findings, ∃ glance ∈ report.recorded,
      glance.provider = finding.provider ∧ finding.verdict = some glance.verdict) :
    check.pairs.Perm (report.recorded.map fun glance => (glance.provider, glance.verdict)) ∧
      (check.pairs.map Prod.fst).Nodup := by
  have isMap : check.pairs =
      check.findings.map fun finding => (finding.provider, finding.verdict.getD .unknown) := by
    rw [pairs, ← List.filterMap_eq_map]
    refine List.filterMap_congr fun finding member => ?_
    obtain ⟨glance, _, _, isVerdict⟩ := tells finding member
    simp [isVerdict]
  have nodup : (check.pairs.map Prod.fst).Nodup := by
    rw [isMap, List.map_map]
    exact providers ▸ distinct
  refine ⟨(List.perm_ext_iff_of_nodup nodup.of_map ?_).mpr fun pair => ?_, nodup⟩
  · refine List.Nodup.of_map Prod.fst ?_
    rw [List.map_map]
    exact sound.recorded_distinct
  · rw [isMap, List.mem_map, List.mem_map]
    constructor
    · rintro ⟨finding, member, rfl⟩
      obtain ⟨glance, recorded, same, isVerdict⟩ := tells finding member
      exact ⟨glance, recorded, by rw [same, isVerdict]; rfl⟩
    · rintro ⟨glance, recorded, rfl⟩
      have asked : glance.provider ∈ check.findings.map (·.provider) := by
        rw [providers, ← sound.mem_recorded_providers]
        exact List.mem_map_of_mem recorded
      obtain ⟨finding, member, same⟩ := List.mem_map.mp asked
      obtain ⟨other, isOther, sameOther, isVerdict⟩ := tells finding member
      obtain rfl := List.inj_on_of_nodup_map sound.recorded_distinct isOther recorded
        (sameOther.trans same)
      exact ⟨finding, member, by rw [same, isVerdict]; rfl⟩

end Check

namespace Rounds

variable {state : Rounds ν} {earlier : List (Check ν)} {check : Check ν}

/-- Recording a check writes its verdicts, and no check. -/
theorem recordAll_writes (state : Rounds ν) (check : Check ν) :
    (state.recordAll check).entries =
        recordPairs check.expected.finalized.number state.entries check.pairs ∧
      (state.recordAll check).checks = state.checks := by
  have isPairs : check.pairs = (check.findings.filterMap Finding.recorded?).map fun recorded =>
      (recorded.provider, recorded.verdict) := by
    rw [Check.pairs, List.map_filterMap]
    refine List.filterMap_congr fun finding _ => ?_
    simp only [Finding.verdict, Finding.recorded?]
    cases finding.look <;> rfl
  rw [isPairs, recordAll]
  induction check.findings.filterMap Finding.recorded? generalizing state with
  | nil => exact ⟨rfl, rfl⟩
  | cons recorded records ih => exact ih (record check.expected.finalized.number state recorded)

theorem setCheck_last (isChecks : state.checks = earlier ++ [check]) (other : Check ν) :
    state.setCheck earlier.length other = { state with checks := earlier ++ [other] } := by
  rw [setCheck, isChecks, List.set_append_right _ _ le_rfl, Nat.sub_self]
  rfl

theorem getElem?_last (isChecks : state.checks = earlier ++ [check]) :
    state.checks[earlier.length]? = some check := by
  simp [isChecks]

variable [DecidableEq ν]

/-- The last check's look at a provider: it answers, and is judged at once. -/
theorem look_runs (isChecks : state.checks = earlier ++ [check]) {provider : Handle}
    {finding : Finding ν} (found : check.findings.find? (·.provider = provider) = some finding)
    (phase : check.phase = .looking ∨ check.phase = .lookingAgain)
    (waits : finding.look = .waiting) (answers : Answers ν) :
    machine.run state [.answer earlier.length provider answers, .judge earlier.length provider] =
      some
        { state with
          clock := state.clock + 1
          checks := earlier ++ [check.put provider (.judged
            (judge (state.entries[provider]?.bind Watched.lastHeight) answers check.expected).1
            (judge (state.entries[provider]?.bind Watched.lastHeight) answers check.expected).2
            state.clock)] } := by
  have answered : machine.step state (.answer earlier.length provider answers) =
      some
        { state with
          clock := state.clock + 1
          checks := earlier ++ [check.put provider (.answered answers state.clock)] } := by
    simp only [machine, step, getElem?_last isChecks, Option.bind_eq_bind, Option.bind_some, found,
      if_pos (And.intro phase waits), setCheck_last isChecks]
  refine Machine.run_cons_eq_some.mpr ⟨_, answered, ?_⟩
  have foundNow := Check.find?_put found (.answered answers state.clock)
  simp only [Machine.run, machine, step, List.getElem?_concat_length, Option.bind_eq_bind,
    Option.bind_some, foundNow, Finding.setLook_look]
  rw [setCheck_last rfl, Check.put_put]
  rfl

end Rounds

/-! ## Checks that follow the rounds -/

/-- The checks see of the entries what the rounds do, and the last of them stands where the round
under way does. -/
structure Rounds.Follows (state : Rounds ν) (fleet : Fleet ν) : Prop where
  entries : Alike state.entries fleet.entries
  round : ∀ round ∈ fleet.round,
    ∃ earlier check, state.checks = earlier ++ [check] ∧ check.Follows round

/-- A finding that was looked at once has the verdict of the glance at its provider. -/
theorem Finding.verdict_once {finding : Finding ν} {seen : List (Glance ν)}
    (once : finding.second = none) (tells : finding.first.Tells seen finding.provider)
    (isSeen : finding.provider ∈ seen.map (·.provider)) :
    ∃ glance ∈ seen, glance.provider = finding.provider ∧
      finding.verdict = some glance.verdict := by
  obtain ⟨glance, member, same, evidence, readAt, isJudged⟩ := tells.of_seen isSeen
  exact ⟨glance, member, same, by simp [Finding.verdict, Finding.look, once, isJudged]⟩

/-- A finding that was looked at again has the verdict of the second glance. -/
theorem Finding.verdict_again {finding : Finding ν} {again : List (Glance ν)} {look : Look ν}
    (twice : finding.second = some look) (tells : look.Tells again finding.provider)
    (isSeen : finding.provider ∈ again.map (·.provider)) :
    ∃ glance ∈ again, glance.provider = finding.provider ∧
      finding.verdict = some glance.verdict := by
  obtain ⟨glance, member, same, evidence, readAt, isJudged⟩ := tells.of_seen isSeen
  exact ⟨glance, member, same, by simp [Finding.verdict, Finding.look, twice, isJudged]⟩

namespace Rounds.Follows

variable [DecidableEq ν] {state : Rounds ν} {fleet next : Fleet ν} {entityCheck : Bool}
  {round : Round ν}

/-- Whatever else changes an entry, to the checks it moves the health gate. -/
theorem gate (follows : state.Follows fleet) (middle : Rounds ν)
    (checks : middle.checks = state.checks) (handle : Handle) {before change : Watched → Watched}
    (entries : middle.entries = state.entries.modify handle before)
    (lastHeight : ∀ entry other : Watched, entry.shown = other.shown →
      (before entry).lastHeight = (change other).lastHeight)
    (checked : ∀ entry other : Watched, entry.shown = other.shown →
      (before entry).checked = (change other).checked) :
    ∃ event after, machine.step middle event = some after ∧
      after.Follows (fleet.modify handle change) := by
  let value := fleet.entries[handle]?.any fun entry => (change entry).healthy
  refine ⟨.health handle value, middle.modify handle (·.setGate .health value), rfl, ?_, ?_⟩
  · rw [modify, entries, List.modify_modify_eq]
    refine follows.entries.modify handle fun entry _ other isOther same => ?_
    have isValue : value = (change other).healthy := by
      simp [value, Option.mem_def.mp isOther]
    rw [Function.comp, Watched.setGate_health_shown, isValue, lastHeight entry other same,
      checked entry other same]
    rfl
  · intro round isRound
    exact checks ▸ follows.round round isRound

/-- What leaves the height and the verdict moves the health gate alone. -/
theorem health (follows : state.Follows fleet) (handle : Handle) {change : Watched → Watched}
    (lastHeight : ∀ entry : Watched, (change entry).lastHeight = entry.lastHeight)
    (checked : ∀ entry : Watched, (change entry).checked = entry.checked) :
    ∃ events after, machine.run state events = some after ∧
      after.Follows (fleet.modify handle change) := by
  obtain ⟨event, after, stepped, later⟩ := follows.gate state rfl handle (List.modify_id _ _).symm
    (fun entry other same => (congrArg Prod.fst same).trans (lastHeight other).symm)
    (fun entry other same => (congrArg (·.2.2) same).trans (checked other).symm)
  exact ⟨[event], after, Machine.run_cons_eq_some.mpr ⟨after, stepped, rfl⟩, later⟩

/-- A probe that is answered reports a height, and moves the health gate. -/
theorem probed (follows : state.Follows fleet) (handle : Handle) (height : Nat)
    {change : Watched → Watched}
    (lastHeight : ∀ entry : Watched,
      (change entry).lastHeight = (entry.recordHeight height).lastHeight)
    (checked : ∀ entry : Watched, (change entry).checked = entry.checked) :
    ∃ events after, machine.run state events = some after ∧
      after.Follows (fleet.modify handle change) := by
  let middle : Rounds ν :=
    { state.modify handle (·.recordHeight height) with
      probed := ((handle, height) :: state.probed).erase (handle, height) }
  have recorded : machine.step { state with probed := (handle, height) :: state.probed }
      (.recordHeight handle height) = some middle := if_pos List.mem_cons_self
  obtain ⟨event, after, stepped, later⟩ := follows.gate middle rfl handle rfl
    (fun entry other _ => (lastHeight other).symm)
    (fun entry other same => (congrArg (·.2.2) same).trans (checked other).symm)
  refine ⟨[.probe handle height, .recordHeight handle height, event], after, ?_, later⟩
  exact Machine.run_cons_eq_some.mpr ⟨_, rfl, Machine.run_cons_eq_some.mpr
    ⟨middle, recorded, Machine.run_cons_eq_some.mpr ⟨after, stepped, rfl⟩⟩⟩

/-- A round begins where a check can. -/
theorem roundOver (follows : state.Follows fleet) {providers : List Handle}
    (starts : ∀ expected, ∃ event, machine.step state event = some (state.start providers expected))
    (reference : Reference ν) :
    ∃ events after, machine.run state events = some after ∧
      after.Follows (fleet.roundOver entityCheck providers reference) := by
  simp only [Fleet.roundOver]
  split
  · exact ⟨[], state, rfl, follows⟩
  · exact ⟨[], state, rfl, follows⟩
  · next expected _ _ =>
      obtain ⟨event, stepped⟩ := starts expected
      refine ⟨[event], _, Machine.run_cons_eq_some.mpr ⟨_, stepped, rfl⟩, follows.entries, ?_⟩
      intro round isRound
      cases isRound
      refine ⟨state.checks, _, rfl, rfl, ?_, rfl, fun finding member => ?_⟩
      · rw [List.map_map]
        exact List.map_id _
      · obtain ⟨provider, _, rfl⟩ := List.mem_map.mp member
        exact ⟨rfl, List.not_mem_nil⟩

/-- A look of the round is an answer that the check judges at once. -/
theorem look (follows : state.Follows fleet) (sound : fleet.Sound entityCheck)
    (isRound : fleet.round = some round) {provider : Handle} {answers : Answers ν}
    (looked : fleet.look round provider answers = some next) :
    ∃ events after, machine.run state events = some after ∧ after.Follows next := by
  obtain ⟨earlier, check, isChecks, stands⟩ := follows.round round isRound
  obtain ⟨distinct, _, _, looks⟩ := sound.round round isRound
  have checkDistinct : check.Distinct := by
    rw [Check.Distinct, stands.providers]
    exact distinct
  have asked : provider ∈ round.providers →
      ∃ finding, check.findings.find? (·.provider = provider) = some finding := by
    intro member
    rw [← stands.providers] at member
    obtain ⟨finding, inCheck, same⟩ := List.mem_map.mp member
    exact Option.isSome_iff_exists.mp
      (List.find?_isSome.mpr ⟨finding, inCheck, by simpa using same⟩)
  have verdict : (fleet.glance round.expected provider answers).verdict =
      (judge (state.entries[provider]?.bind Watched.lastHeight) answers check.expected).1 := by
    rw [follows.entries.lastHeight, stands.expected]
    rfl
  simp only [Fleet.look] at looked
  split at looked
  · cases looked
  · split at looked
    · next seen isFirst =>
        split at looked
        · next isNew =>
            cases looked
            obtain ⟨finding, found⟩ := asked isNew.1
            have isProvider : finding.provider = provider := by simpa using List.find?_some found
            have tells := stands.findings finding (List.mem_of_find?_eq_some found)
            rw [isFirst] at tells
            obtain ⟨once, tells⟩ := tells
            have waits := tells.of_unseen (isProvider ▸ isNew.2)
            have phase : check.phase = .looking := by rw [stands.phase, isFirst]; rfl
            have ran := look_runs isChecks found (.inl phase)
              (by rw [Finding.look, once]; exact waits) answers
            refine ⟨_, _, ran, follows.entries, fun other isOther => ?_⟩
            cases isOther
            refine ⟨earlier, _, rfl, stands.expected, ?_, phase, fun other member => ?_⟩
            · rw [Check.put_providers, stands.providers]
            · rcases Check.mem_put checkDistinct found member with ⟨same, rfl⟩ | ⟨apart, old⟩
              · rw [Finding.setLook, once]
                exact ⟨rfl, _, List.mem_append_right _ (List.mem_singleton_self _),
                  isProvider.symm, verdict⟩
              · have tells := stands.findings other old
                rw [isFirst] at tells
                exact ⟨tells.1, tells.2.snoc apart⟩
        · cases looked
    · cases looked
    · next seen again isSecond =>
        simp only [isSecond] at looks
        split at looked
        · next isNew =>
            cases looked
            obtain ⟨first, isFirst, _, sameFirst⟩ := mem_doubtful.mp isNew.1
            obtain ⟨finding, found⟩ := asked (sameFirst ▸ looks.1.1.allowed first isFirst)
            have isProvider : finding.provider = provider := by simpa using List.find?_some found
            have tells := stands.findings finding (List.mem_of_find?_eq_some found)
            rw [isSecond] at tells
            obtain ⟨tellsFirst, tells⟩ := tells
            cases twice : finding.second with
            | none =>
                rw [twice] at tells
                exact absurd (isProvider ▸ isNew.1) tells
            | some look =>
                rw [twice] at tells
                have waits := tells.2.of_unseen (isProvider ▸ isNew.2)
                have phase : check.phase = .lookingAgain := by rw [stands.phase, isSecond]; rfl
                have ran := look_runs isChecks found (.inr phase)
                  (by rw [Finding.look, twice]; exact waits) answers
                refine ⟨_, _, ran, follows.entries, fun other isOther => ?_⟩
                cases isOther
                refine ⟨earlier, _, rfl, stands.expected, ?_, phase, fun other member => ?_⟩
                · rw [Check.put_providers, stands.providers]
                · rcases Check.mem_put checkDistinct found member with ⟨same, rfl⟩ | ⟨apart, old⟩
                  · rw [Finding.setLook, twice]
                    exact ⟨tellsFirst, tells.1, _,
                      List.mem_append_right _ (List.mem_singleton_self _), isProvider.symm, verdict⟩
                  · have tells := stands.findings other old
                    rw [isSecond] at tells
                    obtain ⟨tellsFirst, tells⟩ := tells
                    refine ⟨tellsFirst, ?_⟩
                    cases isLook : other.second with
                    | none =>
                        rw [isLook] at tells
                        exact tells
                    | some look =>
                        rw [isLook] at tells
                        exact ⟨tells.1, tells.2.snoc apart⟩
        · cases looked

/-- The verdicts of a round are recorded by its check. -/
theorem records (follows : state.Follows fleet) {earlier : List (Check ν)} {check : Check ν}
    (isChecks : state.checks = earlier ++ [check]) {report : Report ν}
    (sound : report.Sound entityCheck) (distinct : report.providers.Nodup)
    (expected : check.expected = report.expected)
    (providers : check.findings.map (·.provider) = report.providers)
    (tells : ∀ finding ∈ check.findings, ∃ glance ∈ report.recorded,
      glance.provider = finding.provider ∧ finding.verdict = some glance.verdict)
    (final : check.phase = .lookingAgain ∨ check.phase = .looking ∧ check.doubtful = false) :
    ∃ events after, machine.run state events = some after ∧
      after.Follows (fleet.record report) := by
  have judged := Check.allJudged_of tells
  let done := state.setCheck earlier.length { check with phase := .recorded }
  have stepped : machine.step state (.settle earlier.length) = some (done.recordAll check) := by
    simp only [machine, step, getElem?_last isChecks, Option.bind_eq_bind, Option.bind_some,
      judged, Bool.not_true, Bool.false_eq_true, if_false]
    rcases final with again | ⟨looking, clear⟩
    · rw [again]
    · rw [looking]
      simp only [clear, Bool.false_eq_true, if_false]
      rfl
  refine ⟨[.settle earlier.length], _, Machine.run_cons_eq_some.mpr ⟨_, stepped, rfl⟩, ?_,
    fun round isRound => ?_⟩
  · obtain ⟨perm, nodup⟩ := Check.pairs_perm sound distinct providers tells
    have recorded : (fleet.record report).entries = recordPairs report.expected.finalized.number
        fleet.entries (report.recorded.map fun glance => (glance.provider, glance.verdict)) := by
      rw [recordPairs, List.foldl_map]
      rfl
    rw [(recordAll_writes done check).1, recorded, expected, recordPairs_perm _ _ nodup perm]
    exact follows.entries.recordPairs _ _
  · cases isRound

/-- Some provider differed, and the check waits before it looks again. -/
theorem sleeps (follows : state.Follows fleet) {earlier : List (Check ν)} {check : Check ν}
    (isChecks : state.checks = earlier ++ [check]) (stands : check.Follows round)
    {seen : List (Glance ν)} (isFirst : round.stage = .first seen)
    (looks : Looks round.expected round.providers seen)
    (tells : ∀ finding ∈ check.findings, ∃ glance ∈ seen,
      glance.provider = finding.provider ∧ finding.verdict = some glance.verdict)
    (somebody : doubtful seen ≠ []) :
    ∃ events after, machine.run state events = some after ∧
      after.Follows (fleet.setStage round (.sleeping seen)) := by
  have phase : check.phase = .looking := by rw [stands.phase, isFirst]; rfl
  obtain ⟨provider, listed⟩ := List.exists_mem_of_ne_nil _ somebody
  obtain ⟨glance, isSeen, differs, rfl⟩ := mem_doubtful.mp listed
  have member := looks.allowed glance isSeen
  rw [← stands.providers] at member
  obtain ⟨finding, inCheck, same⟩ := List.mem_map.mp member
  obtain ⟨other, isOther, sameOther, isVerdict⟩ := tells finding inCheck
  obtain rfl := List.inj_on_of_nodup_map looks.distinct isOther isSeen (sameOther.trans same)
  have doubts : check.doubtful = true :=
    List.any_eq_true.mpr ⟨finding, inCheck, by simp [isVerdict, differs]⟩
  have stepped : machine.step state (.settle earlier.length) =
      some { state with checks := earlier ++ [{ check with phase := .sleeping }] } := by
    simp only [machine, step, getElem?_last isChecks, Option.bind_eq_bind, Option.bind_some,
      Check.allJudged_of tells, Bool.not_true, Bool.false_eq_true, if_false, phase, doubts,
      if_true, setCheck_last isChecks]
  refine ⟨[.settle earlier.length], _, Machine.run_cons_eq_some.mpr ⟨_, stepped, rfl⟩,
    follows.entries, fun again isAgain => ?_⟩
  cases isAgain
  refine ⟨earlier, _, rfl, stands.expected, stands.providers, rfl, ?_⟩
  have findings := stands.findings
  rwa [isFirst] at findings

/-- With every look in, the check waits, or records its verdicts. -/
theorem settle (follows : state.Follows fleet) (sound : fleet.Sound entityCheck)
    (isRound : fleet.round = some round) (settled : fleet.settle round = some next) :
    ∃ events after, machine.run state events = some after ∧ after.Follows next := by
  obtain ⟨earlier, check, isChecks, stands⟩ := follows.round round isRound
  obtain ⟨distinct, _, _, looks⟩ := sound.round round isRound
  have later := sound.settle isRound settled
  have findings := stands.findings
  have asked : ∀ finding ∈ check.findings, finding.provider ∈ round.providers :=
    fun finding member => stands.providers ▸ List.mem_map_of_mem member
  simp only [Fleet.settle] at settled
  split at settled
  · next seen isFirst =>
      simp only [isFirst] at looks findings
      have phase : check.phase = .looking := by rw [stands.phase, isFirst]; rfl
      split at settled
      · next all =>
          have tells : ∀ finding ∈ check.findings, ∃ glance ∈ seen,
              glance.provider = finding.provider ∧ finding.verdict = some glance.verdict :=
            fun finding member => finding.verdict_once (findings finding member).1
              (findings finding member).2 (looks.all all _ (asked finding member))
          split at settled
          · next nobody =>
              cases settled
              refine follows.records isChecks (later.reports _ (List.mem_append_right _
                (List.mem_singleton_self _))) distinct stands.expected stands.providers tells
                (.inr ⟨phase, List.any_eq_false.mpr fun finding member differs => ?_⟩)
              obtain ⟨glance, isSeen, same, isVerdict⟩ := tells finding member
              rw [isVerdict, decide_eq_true_eq, Option.some.injEq] at differs
              have listed := mem_doubtful.mpr ⟨glance, isSeen, differs, rfl⟩
              rw [nobody] at listed
              cases listed
          · next somebody =>
              cases settled
              exact follows.sleeps isChecks stands isFirst looks tells somebody
      · cases settled
  · cases settled
  · next seen again isSecond =>
      simp only [isSecond] at looks findings
      obtain ⟨⟨first, whole⟩, second⟩ := looks
      split at settled
      · next all =>
          cases settled
          have reported := later.reports _ (List.mem_append_right _ (List.mem_singleton_self _))
          refine follows.records isChecks reported distinct stands.expected stands.providers
            (fun finding member => ?_) (.inl (by rw [stands.phase, isSecond]; rfl))
          obtain ⟨tellsFirst, tells⟩ := findings finding member
          cases twice : finding.second with
          | none =>
              rw [twice] at tells
              obtain ⟨glance, isSeen, same, isVerdict⟩ :=
                finding.verdict_once twice tellsFirst (whole _ (asked finding member))
              refine ⟨glance, reported.mem_recorded.mpr (.inr ⟨isSeen, fun looked => ?_⟩), same,
                isVerdict⟩
              obtain ⟨other, isOther, sameOther⟩ := List.mem_map.mp looked
              exact tells (same ▸ sameOther ▸ second.allowed other isOther)
          | some look =>
              rw [twice] at tells
              obtain ⟨glance, isAgain, same, isVerdict⟩ :=
                finding.verdict_again twice tells.2 (second.all all _ tells.1)
              exact ⟨glance, reported.mem_recorded.mpr (.inl isAgain), same, isVerdict⟩
      · cases settled

/-- After the wait the check looks again at the providers that differed. -/
theorem wake (follows : state.Follows fleet) (sound : fleet.Sound entityCheck)
    (isRound : fleet.round = some round) {seen : List (Glance ν)}
    (sleeps : round.stage = .sleeping seen) :
    ∃ events after, machine.run state events = some after ∧
      after.Follows (fleet.setStage round (.second seen [])) := by
  obtain ⟨earlier, check, isChecks, stands⟩ := follows.round round isRound
  obtain ⟨distinct, _, _, looks⟩ := sound.round round isRound
  simp only [sleeps] at looks
  have phase : check.phase = .sleeping := by rw [stands.phase, sleeps]; rfl
  have stepped : machine.step state (.wake earlier.length) =
      some { state with checks := earlier ++ [check.lookAgain] } := by
    simp only [machine, step, getElem?_last isChecks, Option.bind_eq_bind, Option.bind_some,
      if_pos phase, setCheck_last isChecks]
  refine ⟨[.wake earlier.length], _, Machine.run_cons_eq_some.mpr ⟨_, stepped, rfl⟩,
    follows.entries, fun other isOther => ?_⟩
  cases isOther
  refine ⟨earlier, _, rfl, stands.expected, ?_, rfl, fun finding member => ?_⟩
  · rw [Check.lookAgain_providers, stands.providers]
  · obtain ⟨old, inOld, rfl⟩ := List.mem_map.mp member
    have tells := stands.findings old inOld
    rw [sleeps] at tells
    have isSeen := looks.2 old.provider (stands.providers ▸ List.mem_map_of_mem inOld)
    obtain ⟨glance, isGlance, same, isVerdict⟩ := old.verdict_once tells.1 tells.2 isSeen
    split
    · next differs =>
        rw [isVerdict, Option.some.injEq] at differs
        exact ⟨tells.2, mem_doubtful.mpr ⟨glance, isGlance, differs, same⟩, List.not_mem_nil⟩
    · next agrees =>
        refine ⟨tells.2, ?_⟩
        rw [tells.1]
        intro listed
        obtain ⟨other, isOther, differs, sameOther⟩ := mem_doubtful.mp listed
        obtain rfl := List.inj_on_of_nodup_map looks.1.distinct isOther isGlance
          (sameOther.trans same.symm)
        exact agrees (isVerdict.trans (congrArg some differs))

/-- One event of a fleet is some events of the checks. -/
theorem step {config : Health} (follows : state.Follows fleet) (sound : fleet.Sound entityCheck)
    {event : FleetEvent ν} (stepped : fleet.step config entityCheck event = some next) :
    ∃ events after, machine.run state events = some after ∧ after.Follows next := by
  cases event with
  | join id url source now =>
      cases stepped
      exact ⟨[.join (Provider.new id url source) now 0], _, rfl, follows.entries.append _,
        follows.round⟩
  | leave id =>
      cases stepped
      exact ⟨[], state, rfl, follows.entries, follows.round⟩
  | probe provider referenceHeight height now =>
      cases stepped
      cases height with
      | none =>
          exact follows.health provider
            (fun entry => Watched.recordHealth_lastHeight _ false config.flipAfter .probe)
            fun entry => entry.probe_checked config referenceHeight none now
      | some height =>
          exact follows.probed provider height
            (fun entry => entry.probe_lastHeight config referenceHeight height now)
            fun entry => entry.probe_checked config referenceHeight (some height) now
  | reschedule provider began =>
      cases stepped
      exact follows.health provider (fun _ => rfl) fun _ => rfl
  | chainCheck provider chainRound answer =>
      cases stepped
      exact follows.health provider
        (fun entry => entry.chainCleared_lastHeight config chainRound answer)
        fun entry => entry.chainCleared_checked config chainRound answer
  | attempt provider outcome attemptStarted now =>
      cases stepped
      exact follows.health provider
        (fun entry => entry.attempted_lastHeight config outcome attemptStarted now)
        fun entry => entry.attempted_checked config outcome attemptStarted now
  | round reference =>
      simp only [Fleet.step] at stepped
      split at stepped
      · cases stepped
        refine follows.roundOver (fun expected => ⟨.round _ expected, if_pos ⟨?_, ?_⟩⟩) reference
        · exact sound.distinct.filter _
        · refine List.all_eq_true.mpr fun provider member => ?_
          rw [follows.entries.healthy]
          exact (List.mem_filter.mp member).2
      · cases stepped
  | newcomer provider reference =>
      simp only [Fleet.step] at stepped
      split at stepped
      · split at stepped
        · next inside =>
            cases stepped
            have inside : provider < state.entries.length := follows.entries.length ▸ inside
            exact follows.roundOver (fun expected => ⟨.check provider expected, if_pos inside⟩)
              reference
        · cases stepped
      · cases stepped
  | look provider answers =>
      obtain ⟨round, isRound, looked⟩ := Option.bind_eq_some_iff.mp stepped
      exact follows.look sound isRound looked
  | settle =>
      obtain ⟨round, isRound, settled⟩ := Option.bind_eq_some_iff.mp stepped
      exact follows.settle sound isRound settled
  | wake =>
      obtain ⟨round, isRound, wakes⟩ := Option.bind_eq_some_iff.mp stepped
      split at wakes
      · next seen sleeps =>
          cases wakes
          exact follows.wake sound isRound sleeps
      · cases wakes

end Rounds.Follows

namespace Fleet

variable [DecidableEq ν] {config : Health} {entityCheck : Bool}

/-- Some run of the checks goes with the fleet. -/
structure Followed (entityCheck : Bool) (fleet : Fleet ν) : Prop where
  sound : fleet.Sound entityCheck
  follows : ∃ (checks : List (RoundEvent ν)) (state : Rounds ν),
    Rounds.machine.run Rounds.initial checks = some state ∧ state.Follows fleet

theorem Followed.initial : (initial : Fleet ν).Followed entityCheck where
  sound := .initial
  follows := by
    refine ⟨[], Rounds.initial, rfl, fun _ => rfl, fun round isRound => ?_⟩
    cases isRound

theorem Followed.step {fleet next : Fleet ν} {event : FleetEvent ν}
    (followed : fleet.Followed entityCheck)
    (stepped : fleet.step config entityCheck event = some next) : next.Followed entityCheck := by
  obtain ⟨sound, checks, state, ran, follows⟩ := followed
  obtain ⟨more, after, ranMore, later⟩ := follows.step sound stepped
  exact ⟨sound.step stepped, checks ++ more, after,
    Machine.run_append_eq_some.mpr ⟨state, ran, ranMore⟩, later⟩

/-- Rounds one after another are a run of checks that may overlap: it leaves the entries with the
same verdicts, the same heights and the same gates. -/
theorem runs_as_checks {events : List (FleetEvent ν)} {fleet : Fleet ν}
    (reached : (machine config entityCheck).run initial events = some fleet) :
    ∃ (checks : List (RoundEvent ν)) (state : Rounds ν),
      Rounds.machine.run Rounds.initial checks = some state ∧
        Alike state.entries fleet.entries := by
  have preserved : ∀ (before : Fleet ν) (event : FleetEvent ν) (after : Fleet ν),
      before.Followed entityCheck → (machine config entityCheck).step before event = some after →
        after.Followed entityCheck := fun _ _ _ => .step
  obtain ⟨_, checks, state, ran, follows⟩ := Machine.run_preserves preserved .initial reached
  exact ⟨checks, state, ran, follows.entries⟩

end Fleet

end CommunityLb
