import CommunityLb.Stats.Ring
import CommunityLb.Lib.Machine
import Mathlib.Data.Finset.Sort

/-!
# The rings stay aligned

The report pairs the buckets of separate rings by their place.  Over ticks, stops and restarts, with
whatever members a tick finds, the rings it pairs have the same hours.
-/

namespace CommunityLb

/-! ## The report -/

/-- The completed buckets from an hour on, oldest first. -/
def Ring.since (ring : Ring) (since : Nat) : List Bucket :=
  ring.buckets.filter (since ≤ ·.start)

/-- A provider's hour in the report. -/
structure ProviderRow where
  hour : String
  served : Nat
  transportFailures : Nat
  isPartial : Bool
  deriving DecidableEq, Repr

/-- An hour of the LB's own answers in the report. -/
structure LbRow where
  hour : String
  noHealthyProvider : Nat
  timedOut : Nat
  noProviderAnswered : Nat
  isPartial : Bool
  deriving DecidableEq, Repr

/-- A provider's hours in the report, each under its hour's text. -/
def ProviderRings.report (iso : Nat → String) (rings : ProviderRings) (since : Nat) :
    List ProviderRow :=
  ((rings.served.since since).zip (rings.transportFailures.since since)).map
    fun (served, failures) =>
      { hour := iso served.start
        served := served.count
        transportFailures := failures.count
        isPartial := served.isPartial }

/-- The LB's own hours in the report. -/
def LbRings.report (iso : Nat → String) (rings : LbRings) (since : Nat) : List LbRow :=
  (((rings.noHealthyProvider.since since).zip (rings.timedOut.since since)).zip
    (rings.noProviderAnswered.since since)).map
    fun ((noHealthy, timedOut), unanswered) =>
      { hour := iso noHealthy.start
        noHealthyProvider := noHealthy.count
        timedOut := timedOut.count
        noProviderAnswered := unanswered.count
        isPartial := noHealthy.isPartial }

/-! ## One ring -/

/-- The hours of a ring's buckets, and whether each is partial. -/
def Ring.shape (ring : Ring) : List (Nat × Bool) :=
  ring.buckets.map fun bucket => (bucket.start, bucket.isPartial)

/-- A ring with no more buckets than it holds, in order of their hours: the newest of the hours it
was closed for. -/
structure Ring.Holds (ring : Ring) (hours : Finset Nat) : Prop where
  bounded : ring.buckets.length ≤ HOURS
  increasing : (ring.buckets.map Bucket.start).Pairwise (· < ·)
  newest : ring.buckets.map Bucket.start = hours.sort.drop (hours.card - HOURS)

/-- The newest hour comes last. -/
theorem sort_insert_newest {hours : Finset Nat} {start : Nat}
    (newest : ∀ hour ∈ hours, hour < start) :
    (insert start hours).sort = hours.sort ++ [start] := by
  have absent : start ∉ hours := fun member => Nat.lt_irrefl start (newest start member)
  have distinct : (hours.sort ++ [start]).Nodup := by
    rw [List.nodup_append]
    refine ⟨hours.sort_nodup _, List.nodup_singleton start, fun hour member other isStart => ?_⟩
    rw [Finset.mem_sort] at member
    rw [List.mem_singleton.mp isStart]
    exact (newest hour member).ne
  have same : (hours.sort ++ [start]).toFinset = insert start hours := by
    ext hour
    simp
  rw [← same, List.toFinset_sort _ distinct, List.pairwise_append]
  refine ⟨hours.pairwise_sort _, List.pairwise_singleton _ _, fun hour member other isStart => ?_⟩
  rw [Finset.mem_sort] at member
  rw [List.mem_singleton.mp isStart]
  exact (newest hour member).le

/-- The newest hours alone make the ring. -/
theorem Ring.Holds.of_newest {ring : Ring} {hours : Finset Nat}
    (newest : ring.buckets.map Bucket.start = hours.sort.drop (hours.card - HOURS)) :
    ring.Holds hours := by
  refine ⟨?_, ?_, newest⟩
  · have length := congrArg List.length newest
    rw [List.length_map, List.length_drop, Finset.length_sort] at length
    omega
  · rw [newest]
    exact (hours.sortedLT_sort.pairwise).sublist (List.drop_sublist _ _)

theorem Ring.Holds.empty : Ring.empty.Holds ∅ :=
  .of_newest (by simp [Ring.empty])

/-- The newest bucket is of the newest hour. -/
theorem Ring.Holds.newest_is {ring : Ring} {hours : Finset Nat} (holds : ring.Holds hours) :
    (ring.newest = none ↔ hours = ∅) ∧
      ∀ newest ∈ ring.newest, newest ∈ hours ∧ ∀ hour ∈ hours, hour ≤ newest := by
  have isLast : ring.newest = hours.sort.getLast? := by
    rw [Ring.newest, ← List.getLast?_map, holds.newest, List.getLast?_drop, Finset.length_sort]
    split
    · next few =>
        have none : hours.card = 0 := by
          rw [HOURS] at few
          omega
        rw [Finset.card_eq_zero.mp none, Finset.sort_empty, List.getLast?_nil]
    · rfl
  rw [isLast]
  refine ⟨?_, fun newest isNewest => ?_⟩
  · rw [List.getLast?_eq_none_iff, ← List.length_eq_zero_iff, Finset.length_sort,
      Finset.card_eq_zero]
  · obtain ⟨rest, parts⟩ := List.getLast?_eq_some_iff.mp isNewest
    have member : newest ∈ hours.sort := by simp [parts]
    refine ⟨(Finset.mem_sort _).mp member, fun hour isHour => ?_⟩
    have sorted := hours.pairwise_sort (· ≤ ·)
    rw [parts, List.pairwise_append] at sorted
    have here := (Finset.mem_sort (· ≤ ·)).mpr isHour
    rw [parts] at here
    rcases List.mem_append.mp here with earlier | last
    · exact sorted.2.2 hour earlier newest List.mem_cons_self
    · exact (List.mem_singleton.mp last).le

/-- The newest hour of all has its bucket. -/
theorem Ring.Holds.has_newest {ring : Ring} {hours : Finset Nat} (holds : ring.Holds hours)
    {start : Nat} (member : start ∈ hours) (latest : ∀ hour ∈ hours, hour ≤ start) :
    ∃ bucket ∈ ring.buckets, bucket.start = start := by
  obtain ⟨some, isNewest⟩ := holds.newest_is
  cases newest : ring.newest with
  | none => exact absurd member (by simp [some.mp newest])
  | some hour =>
      obtain ⟨isHour, past⟩ := isNewest hour newest
      obtain ⟨bucket, isLast, isStart⟩ := Option.map_eq_some_iff.mp newest
      exact ⟨bucket, List.mem_of_getLast? isLast,
        isStart.trans (Nat.le_antisymm (latest hour isHour) (past start member))⟩

/-- The hour that is closed is the newest. -/
theorem Ring.Holds.close {ring : Ring} {hours : Finset Nat} {start : Nat} (holds : ring.Holds hours)
    (latest : ∀ hour ∈ hours, hour ≤ start) (reading : Nat) (stopping : Bool) :
    (ring.close start reading stopping).Holds (insert start hours) := by
  have older : ∀ hour ∈ hours.erase start, hour < start := by
    intro hour member
    obtain ⟨differs, isHour⟩ := Finset.mem_erase.mp member
    exact lt_of_le_of_ne (latest hour isHour) differs
  have sorted := sort_insert_newest older
  refine .of_newest ?_
  have newest := holds.newest
  by_cases again : start ∈ hours
  · rw [Finset.insert_eq_self.mpr again]
    rw [Finset.insert_erase again] at sorted
    have card : hours.card = (hours.erase start).card + 1 :=
      (Finset.card_erase_add_one again).symm
    have isLast : (ring.buckets.map Bucket.start).getLast? = some start := by
      rw [newest, sorted, List.drop_append_of_le_length]
      · exact List.getLast?_concat
      · rw [Finset.length_sort, card, HOURS]
        omega
    rw [← newest, Ring.close, closeHour]
    rw [List.getLast?_map, Option.map_eq_some_iff] at isLast
    obtain ⟨bucket, isBucket, isStart⟩ := isLast
    obtain ⟨rest, split⟩ := List.getLast?_eq_some_iff.mp isBucket
    simp [isStart, split]
  · rw [Finset.erase_eq_of_notMem again] at sorted
    have card : (insert start hours).card = hours.card + 1 := Finset.card_insert_of_notMem again
    have pushed : ∀ bucket ∈ ring.buckets.getLast?, bucket.start ≠ start := by
      intro bucket isBucket isStart
      have member : start ∈ ring.buckets.map Bucket.start :=
        List.mem_map.mpr ⟨bucket, List.mem_of_getLast? isBucket, isStart⟩
      rw [newest] at member
      exact again ((Finset.mem_sort _).mp (List.mem_of_mem_drop member))
    have length : ring.buckets.length = hours.card - (hours.card - HOURS) := by
      have length := congrArg List.length newest
      rwa [List.length_map, List.length_drop, Finset.length_sort] at length
    have starts : (ring.close start reading stopping).buckets.map Bucket.start =
        (if ring.buckets.length = HOURS then (ring.buckets.map Bucket.start).tail
          else ring.buckets.map Bucket.start) ++ [start] := by
      rw [Ring.close, closeHour]
      cases isLast : ring.buckets.getLast? with
      | none =>
          simp only
          split <;> simp
      | some bucket =>
          simp only [if_neg (pushed bucket isLast)]
          split <;> simp
    have positive : 0 < HOURS := by decide
    rw [starts, sorted, card, List.drop_append_of_le_length (by rw [Finset.length_sort]; omega)]
    split
    · next full =>
        have amount : hours.card - HOURS + 1 = hours.card + 1 - HOURS := by omega
        rw [newest, List.tail_drop, amount]
    · next room =>
        have amount : hours.card - HOURS = hours.card + 1 - HOURS := by omega
        rw [newest, amount]

/-! ## Rings that are closed together -/

/-- Two rings with the same hours, cut short alike, and with a reading both or neither. -/
structure Ring.Alike (first second : Ring) : Prop where
  shape : first.shape = second.shape
  last : first.last.isSome = second.last.isSome

/-- What closing an hour does to a ring's hours. -/
def closeShape (shape : List (Nat × Bool)) (start : Nat) (isPartial : Bool) : List (Nat × Bool) :=
  let pushed := (if shape.length = HOURS then shape.tail else shape) ++ [(start, isPartial)]
  match shape.getLast? with
  | some newest => if newest.1 = start then shape.dropLast ++ [(newest.1, true)] else pushed
  | none => pushed

theorem Ring.shape_close (ring : Ring) (start reading : Nat) (stopping : Bool) :
    (ring.close start reading stopping).shape =
      closeShape ring.shape start (stopping || ring.last.isNone) := by
  simp only [Ring.shape, Ring.close, closeHour, closeShape, List.getLast?_map, List.length_map]
  cases ring.buckets.getLast? with
  | none =>
      simp only [Option.map_none, List.map_append, List.map_cons, List.map_nil]
      split <;> simp
  | some newest =>
      simp only [Option.map_some]
      split
      · simp [List.map_dropLast]
      · split <;> simp

/-- Closed for the same hour, rings stay alike whatever they count. -/
theorem Ring.Alike.close {first second : Ring} (alike : first.Alike second)
    (start reading other : Nat) (stopping : Bool) :
    (first.close start reading stopping).Alike (second.close start other stopping) where
  shape := by
    rw [shape_close, shape_close, alike.shape, ← Option.not_isSome, ← Option.not_isSome,
      alike.last]
  last := rfl

theorem Ring.Alike.refl (ring : Ring) : ring.Alike ring :=
  ⟨rfl, rfl⟩

theorem Ring.since_shape (ring : Ring) (since : Nat) :
    (ring.since since).map (fun bucket => (bucket.start, bucket.isPartial)) =
      ring.shape.filter (since ≤ ·.1) := by
  rw [Ring.since, Ring.shape, List.filter_map]
  rfl

/-- Buckets of one place in rings that are alike are of one hour. -/
theorem Ring.Alike.since {first second : Ring} (alike : first.Alike second) (since : Nat) :
    (first.since since).length = (second.since since).length ∧
      ∀ (index : Nat) (bucket other : Bucket), (first.since since)[index]? = some bucket →
        (second.since since)[index]? = some other →
          bucket.start = other.start ∧ bucket.isPartial = other.isPartial := by
  have shapes := (first.since_shape since).trans
    (alike.shape ▸ (second.since_shape since).symm)
  constructor
  · simpa using congrArg List.length shapes
  · intro index bucket other isBucket isOther
    have here := congrArg (·[index]?) shapes
    simp only [List.getElem?_map, isBucket, isOther, Option.map_some, Option.some.injEq,
      Prod.mk.injEq] at here
    exact here

/-- A provider's rings, closed for these hours. -/
structure ProviderRings.Kept (rings : ProviderRings) (hours : Finset Nat) : Prop where
  served : rings.served.Holds hours
  transportFailures : rings.transportFailures.Holds hours
  alike : rings.served.Alike rings.transportFailures

/-- The LB's rings, closed for these hours. -/
structure LbRings.Kept (rings : LbRings) (hours : Finset Nat) : Prop where
  noHealthyProvider : rings.noHealthyProvider.Holds hours
  timedOut : rings.timedOut.Holds hours
  noProviderAnswered : rings.noProviderAnswered.Holds hours
  alike : rings.noHealthyProvider.Alike rings.timedOut
  alike' : rings.noHealthyProvider.Alike rings.noProviderAnswered

/-- The report has one line for each hour of either ring from an hour on, with the counts both rings
have for that hour. -/
def ProviderRings.Paired (rings : ProviderRings) : Prop :=
  ∀ (iso : Nat → String) (since : Nat),
    (rings.report iso since).length = (rings.served.since since).length ∧
      (rings.report iso since).length = (rings.transportFailures.since since).length ∧
        ∀ (index : Nat) (row : ProviderRow), (rings.report iso since)[index]? = some row →
          ∃ served failures, (rings.served.since since)[index]? = some served ∧
            (rings.transportFailures.since since)[index]? = some failures ∧
              served.start = failures.start ∧ served.isPartial = failures.isPartial ∧
                row =
                  { hour := iso served.start
                    served := served.count
                    transportFailures := failures.count
                    isPartial := served.isPartial }

/-- The same of the LB's own hours. -/
def LbRings.Paired (rings : LbRings) : Prop :=
  ∀ (iso : Nat → String) (since : Nat),
    (rings.report iso since).length = (rings.noHealthyProvider.since since).length ∧
      (rings.report iso since).length = (rings.timedOut.since since).length ∧
        (rings.report iso since).length = (rings.noProviderAnswered.since since).length ∧
          ∀ (index : Nat) (row : LbRow), (rings.report iso since)[index]? = some row →
            ∃ noHealthy timedOut unanswered,
              (rings.noHealthyProvider.since since)[index]? = some noHealthy ∧
                (rings.timedOut.since since)[index]? = some timedOut ∧
                  (rings.noProviderAnswered.since since)[index]? = some unanswered ∧
                    noHealthy.start = timedOut.start ∧ noHealthy.start = unanswered.start ∧
                      noHealthy.isPartial = timedOut.isPartial ∧
                        noHealthy.isPartial = unanswered.isPartial ∧
                          row =
                            { hour := iso noHealthy.start
                              noHealthyProvider := noHealthy.count
                              timedOut := timedOut.count
                              noProviderAnswered := unanswered.count
                              isPartial := noHealthy.isPartial }

theorem ProviderRings.Kept.paired {rings : ProviderRings} {hours : Finset Nat}
    (kept : rings.Kept hours) : rings.Paired := by
  intro iso since
  obtain ⟨length, same⟩ := kept.alike.since since
  refine ⟨by simp [ProviderRings.report, length], by simp [ProviderRings.report, length], ?_⟩
  intro index row isRow
  rw [ProviderRings.report, List.getElem?_map, Option.map_eq_some_iff] at isRow
  obtain ⟨⟨served, failures⟩, isPair, rfl⟩ := isRow
  obtain ⟨isServed, isFailures⟩ := List.getElem?_zip_eq_some.mp isPair
  obtain ⟨start, isPartial⟩ := same index served failures isServed isFailures
  exact ⟨served, failures, isServed, isFailures, start, isPartial, rfl⟩

theorem LbRings.Kept.paired {rings : LbRings} {hours : Finset Nat} (kept : rings.Kept hours) :
    rings.Paired := by
  intro iso since
  obtain ⟨length, same⟩ := kept.alike.since since
  obtain ⟨length', same'⟩ := kept.alike'.since since
  refine ⟨by simp [LbRings.report, ← length, ← length'],
    by simp [LbRings.report, ← length, ← length'],
    by simp [LbRings.report, ← length, ← length'], ?_⟩
  intro index row isRow
  rw [LbRings.report, List.getElem?_map, Option.map_eq_some_iff] at isRow
  obtain ⟨⟨⟨noHealthy, timedOut⟩, unanswered⟩, isPair, rfl⟩ := isRow
  obtain ⟨isFirst, isUnanswered⟩ := List.getElem?_zip_eq_some.mp isPair
  obtain ⟨isNoHealthy, isTimedOut⟩ := List.getElem?_zip_eq_some.mp isFirst
  obtain ⟨start, isPartial⟩ := same index noHealthy timedOut isNoHealthy isTimedOut
  obtain ⟨start', isPartial'⟩ := same' index noHealthy unanswered isNoHealthy isUnanswered
  exact ⟨noHealthy, timedOut, unanswered, isNoHealthy, isTimedOut, isUnanswered, start, start',
    isPartial, isPartial', rfl⟩

theorem ProviderRings.Kept.empty : ProviderRings.empty.Kept ∅ :=
  ⟨.empty, .empty, .refl _⟩

theorem ProviderRings.Kept.close {rings : ProviderRings} {hours : Finset Nat} {start : Nat}
    (kept : rings.Kept hours) (latest : ∀ hour ∈ hours, hour ≤ start) (stopping : Bool)
    (entry : Watched) : (rings.close start stopping entry).Kept (insert start hours) where
  served := kept.served.close latest _ _
  transportFailures := kept.transportFailures.close latest _ _
  alike := kept.alike.close _ _ _ _

theorem Ring.Holds.saved {ring : Ring} {hours : Finset Nat} (holds : ring.Holds hours) :
    ring.saved.Holds hours :=
  ⟨holds.bounded, holds.increasing, holds.newest⟩

theorem Ring.Alike.saved {first second : Ring} (alike : first.Alike second) :
    first.saved.Alike second.saved :=
  ⟨alike.shape, rfl⟩

/-! ## Ticks, stops and restarts -/

/-- The hours each ring was closed for, a provider's since the ring under its id was made. -/
structure ClosedFor where
  providers : String → Finset Nat
  lb : Finset Nat

/-- The rings and the file they are saved to, with the hours each was closed for. -/
structure Recorder where
  stats : Stats
  closedFor : ClosedFor
  file : Stats
  fileClosedFor : ClosedFor
  /-- The last hour that was closed. -/
  latest : Nat

/-- What happens to the rings. -/
inductive RecorderEvent where
  /-- The hour that starts here is over; the members' entries and the LB's own answers are read. -/
  | tick (start : Nat) (snapshot : List Watched) (outcomes : LbOutcomes)
  /-- The process stops in the hour that starts here. -/
  | stop (start : Nat) (snapshot : List Watched) (outcomes : LbOutcomes)
  /-- The rings are written to the file; a write that fails leaves the file as it is. -/
  | save
  /-- The file is lost, or no longer parses. -/
  | lose
  /-- The next process starts from the file. -/
  | restart

/-- The hour an event closes. -/
def RecorderEvent.start? : RecorderEvent → Option Nat
  | tick start _ _ | stop start _ _ => some start
  | save | lose | restart => none

/-- The members whose rings an event closes. -/
def RecorderEvent.snapshot : RecorderEvent → List Watched
  | tick _ snapshot _ | stop _ snapshot _ => snapshot
  | save | lose | restart => []

/-- No ring was closed yet. -/
def ClosedFor.empty : ClosedFor where
  providers _ := ∅
  lb := ∅

/-- The hours after the members' rings were closed for one more. -/
def ClosedFor.close (closedFor : ClosedFor) (start : Nat) (snapshot : List Watched) :
    ClosedFor where
  providers id :=
    if id ∈ snapshot.map (·.id) then insert start (closedFor.providers id)
    else closedFor.providers id
  lb := insert start closedFor.lb

/-- The hours of a provider that was not closed for one from the oldest on are forgotten. -/
def ClosedFor.forget (closedFor : ClosedFor) (oldest : Nat) : ClosedFor where
  providers id :=
    if ∃ hour ∈ closedFor.providers id, oldest ≤ hour then closedFor.providers id else ∅
  lb := closedFor.lb

theorem ClosedFor.mem_close {closedFor : ClosedFor} {start hour : Nat} {snapshot : List Watched}
    {id : String} : hour ∈ (closedFor.close start snapshot).providers id ↔
      (hour = start ∧ id ∈ snapshot.map (·.id)) ∨ hour ∈ closedFor.providers id := by
  simp only [ClosedFor.close]
  split
  · next listed => simp [listed]
  · next unlisted => simp [unlisted]

theorem ClosedFor.mem_forget {closedFor : ClosedFor} {oldest hour : Nat} {id : String} :
    hour ∈ (closedFor.forget oldest).providers id ↔
      hour ∈ closedFor.providers id ∧ ∃ other ∈ closedFor.providers id, oldest ≤ other := by
  simp only [ClosedFor.forget]
  split
  · next recent => simp [recent]
  · next old => simp [old]

namespace Recorder

/-- One event. -/
def step (state : Recorder) : RecorderEvent → Option Recorder
  | .tick start snapshot outcomes =>
      some
        { state with
          stats := state.stats.tick start snapshot outcomes
          closedFor := (state.closedFor.close start snapshot).forget (start - HOURS * HOUR)
          latest := start }
  | .stop start snapshot outcomes =>
      some
        { state with
          stats := state.stats.stop start snapshot outcomes
          closedFor := state.closedFor.close start snapshot
          latest := start }
  | .save =>
      some
        { state with
          file := state.stats.saved
          fileClosedFor := state.closedFor }
  | .lose =>
      some
        { state with
          file := .empty
          fileClosedFor := .empty }
  | .restart =>
      some
        { state with
          stats := state.file
          closedFor := state.fileClosedFor }

/-- The ticks of a process after another. -/
def machine : Machine Recorder RecorderEvent where
  step := step

/-- Before the first start. -/
def initial : Recorder where
  stats := .empty
  closedFor := .empty
  file := .empty
  fileClosedFor := .empty
  latest := 0

/-- An hour is not closed after a later one. -/
def InOrder (state : Recorder) (event : RecorderEvent) : Prop :=
  ∀ start ∈ event.start?, state.latest ≤ start

instance (state : Recorder) (event : RecorderEvent) : Decidable (InOrder state event) := by
  unfold InOrder
  infer_instance

end Recorder

/-- Rings closed for these hours, none of them after the latest, and no others. -/
structure Stats.Tells (stats : Stats) (closedFor : ClosedFor) (latest : Nat) : Prop where
  providers : ∀ id, (stats.ringsOf id).Kept (closedFor.providers id)
  known : ∀ id, stats.providers.get? id = none ↔ closedFor.providers id = ∅
  lb : stats.lb.Kept closedFor.lb
  providersPast : ∀ id, ∀ hour ∈ closedFor.providers id, hour ≤ latest
  lbPast : ∀ hour ∈ closedFor.lb, hour ≤ latest

namespace Stats

variable {stats : Stats} {closedFor : ClosedFor} {latest : Nat}

theorem Tells.empty (latest : Nat) : Stats.empty.Tells .empty latest where
  providers _ := .empty
  known _ := ⟨fun _ => rfl, fun _ => rfl⟩
  lb := ⟨.empty, .empty, .empty, .refl _, .refl _⟩
  providersPast _ _ member := by simp [ClosedFor.empty] at member
  lbPast _ member := by simp [ClosedFor.empty] at member

theorem Tells.saved (tells : stats.Tells closedFor latest) :
    stats.saved.Tells closedFor latest where
  providers id := by
    have kept := tells.providers id
    rw [ringsOf] at kept ⊢
    rw [Stats.saved, Keyed.get?_update]
    cases found : stats.providers.get? id with
    | none => simpa [found] using kept
    | some rings =>
        rw [found] at kept
        exact ⟨kept.served.saved, kept.transportFailures.saved, kept.alike.saved⟩
  known id := by
    rw [← tells.known id, Stats.saved, Keyed.get?_update, Option.map_eq_none_iff]
  lb := ⟨tells.lb.noHealthyProvider.saved, tells.lb.timedOut.saved,
    tells.lb.noProviderAnswered.saved, tells.lb.alike.saved, tells.lb.alike'.saved⟩
  providersPast := tells.providersPast
  lbPast := tells.lbPast

theorem Tells.mono {later : Nat} (tells : stats.Tells closedFor latest) (le : latest ≤ later) :
    stats.Tells closedFor later where
  providers := tells.providers
  known := tells.known
  lb := tells.lb
  providersPast id hour member := (tells.providersPast id hour member).trans le
  lbPast hour member := (tells.lbPast hour member).trans le

/-- The rings of one id after each member's hour is closed. -/
theorem ringsOf_foldl_kept {hours : Finset Nat} {id : String} {start : Nat}
    (snapshot : List Watched) (stopping : Bool) (kept : (stats.ringsOf id).Kept hours)
    (latest : ∀ hour ∈ hours, hour ≤ start) :
    ((snapshot.foldl (closeEntry start stopping) stats).ringsOf id).Kept
      (if id ∈ snapshot.map (·.id) then insert start hours else hours) := by
  induction snapshot generalizing stats hours with
  | nil => simpa using kept
  | cons entry rest ih =>
      have once : ((stats.closeEntry start stopping entry).ringsOf id).Kept
          (if id = entry.id then insert start hours else hours) := by
        rw [ringsOf_closeEntry]
        split
        · exact kept.close latest stopping entry
        · exact kept
      have past : ∀ hour ∈ (if id = entry.id then insert start hours else hours), hour ≤ start := by
        split
        · intro hour member
          rcases Finset.mem_insert.mp member with rfl | old
          · exact le_rfl
          · exact latest hour old
        · exact latest
      have later := ih once past
      rw [List.foldl_cons]
      by_cases here : id = entry.id
      · simpa [here] using later
      · simpa [here] using later

/-- A closed hour makes the members' rings, and leaves the others. -/
theorem get?_foldl_none (snapshot : List Watched) (start : Nat) (stopping : Bool) (stats : Stats)
    (id : String) :
    (snapshot.foldl (closeEntry start stopping) stats).providers.get? id = none ↔
      id ∉ snapshot.map (·.id) ∧ stats.providers.get? id = none := by
  induction snapshot generalizing stats with
  | nil => simp
  | cons entry rest ih =>
      rw [List.foldl_cons, ih, closeEntry, Keyed.get?_insert, List.map_cons, List.mem_cons]
      by_cases same : id = entry.id
      · simp [same]
      · simp [same]

/-- Closing an hour that is not before the latest. -/
theorem Tells.close {start : Nat} (tells : stats.Tells closedFor latest)
    (inOrder : latest ≤ start) (snapshot : List Watched) (outcomes : LbOutcomes)
    (stopping : Bool) :
    (stats.close start snapshot outcomes stopping).Tells (closedFor.close start snapshot)
      start where
  providers id := by
    have past : ∀ hour ∈ closedFor.providers id, hour ≤ start := fun hour member =>
      (tells.providersPast id hour member).trans inOrder
    exact ringsOf_foldl_kept snapshot stopping (tells.providers id) past
  known id := by
    simp only [ClosedFor.close, Stats.close, get?_foldl_none, tells.known id]
    split
    · next member => simp [member]
    · next absent => simp [absent]
  lb := by
    have past : ∀ hour ∈ closedFor.lb, hour ≤ start := fun hour member =>
      (tells.lbPast hour member).trans inOrder
    exact ⟨tells.lb.noHealthyProvider.close past _ _, tells.lb.timedOut.close past _ _,
      tells.lb.noProviderAnswered.close past _ _, tells.lb.alike.close _ _ _ _,
      tells.lb.alike'.close _ _ _ _⟩
  providersPast id hour member := by
    rcases ClosedFor.mem_close.mp member with ⟨rfl, -⟩ | old
    · exact le_rfl
    · exact (tells.providersPast id hour old).trans inOrder
  lbPast hour member := by
    rcases Finset.mem_insert.mp member with rfl | old
    · exact le_rfl
    · exact (tells.lbPast hour old).trans inOrder

/-- A ring's newest bucket is recent exactly when it was closed for a recent hour. -/
theorem Tells.recent_iff (tells : stats.Tells closedFor latest) (oldest : Nat) (id : String) :
    (stats.ringsOf id).served.newest.any (oldest ≤ ·) = true ↔
      ∃ hour ∈ closedFor.providers id, oldest ≤ hour := by
  obtain ⟨-, newest⟩ := (tells.providers id).served.newest_is
  obtain ⟨none, -⟩ := (tells.providers id).served.newest_is
  cases isNewest : (stats.ringsOf id).served.newest with
  | none => simp [none.mp isNewest]
  | some hour =>
      obtain ⟨member, past⟩ := newest hour isNewest
      rw [Option.any_some, decide_eq_true_eq]
      exact ⟨fun recent => ⟨hour, member, recent⟩, fun recent => by
        obtain ⟨other, isOther, recent⟩ := recent
        exact recent.trans (past other isOther)⟩

/-- Rings without a recent hour are dropped. -/
theorem Tells.forget (tells : stats.Tells closedFor latest) (oldest : Nat) :
    ({ stats with
      providers := stats.providers.filter fun rings =>
        rings.2.served.newest.any (oldest ≤ ·) } : Stats).Tells (closedFor.forget oldest)
      latest where
  providers id := by
    have recent := tells.recent_iff oldest id
    have kept := tells.providers id
    simp only [ringsOf, ClosedFor.forget, Keyed.get?_filter] at recent kept ⊢
    cases found : stats.providers.get? id with
    | none =>
        have unknown := (tells.known id).mp found
        simpa [unknown] using ProviderRings.Kept.empty
    | some rings =>
        simp only [found, Option.map_some, Option.getD_some] at recent kept
        rw [Option.filter_some]
        by_cases isRecent : rings.2.served.newest.any (oldest ≤ ·) = true
        · rw [if_pos isRecent, if_pos (recent.mp isRecent)]
          exact kept
        · rw [if_neg isRecent, if_neg (mt recent.mpr isRecent)]
          exact .empty
  known id := by
    have recent := tells.recent_iff oldest id
    simp only [ringsOf, ClosedFor.forget, Keyed.get?_filter] at recent ⊢
    cases found : stats.providers.get? id with
    | none =>
        have unknown := (tells.known id).mp found
        simp [unknown]
    | some rings =>
        simp only [found, Option.map_some, Option.getD_some] at recent
        rw [Option.filter_some]
        by_cases isRecent : rings.2.served.newest.any (oldest ≤ ·) = true
        · rw [if_pos isRecent, if_pos (recent.mp isRecent), ← tells.known id, found]
        · rw [if_neg isRecent, if_neg (mt recent.mpr isRecent)]
          simp
  lb := tells.lb
  providersPast id hour member :=
    tells.providersPast id hour (ClosedFor.mem_forget.mp member).1
  lbPast := tells.lbPast

theorem Tells.stop {start : Nat} (tells : stats.Tells closedFor latest) (inOrder : latest ≤ start)
    (snapshot : List Watched) (outcomes : LbOutcomes) :
    (stats.stop start snapshot outcomes).Tells (closedFor.close start snapshot) start :=
  tells.close inOrder snapshot outcomes true

theorem Tells.tick {start : Nat} (tells : stats.Tells closedFor latest) (inOrder : latest ≤ start)
    (snapshot : List Watched) (outcomes : LbOutcomes) :
    (stats.tick start snapshot outcomes).Tells
      ((closedFor.close start snapshot).forget (start - HOURS * HOUR)) start :=
  (tells.close inOrder snapshot outcomes false).forget _

/-- The rings under an id that was closed for some hour. -/
theorem Tells.rings_exist (tells : stats.Tells closedFor latest) {id : String} {hour : Nat}
    (member : hour ∈ closedFor.providers id) :
    ∃ named ∈ stats.providers.values, named.1 = id ∧ named.2 = stats.ringsOf id := by
  cases found : stats.providers.get? id with
  | none =>
      have nothing := (tells.known id).mp found
      simp [nothing] at member
  | some named =>
      obtain ⟨isNamed, same⟩ := Keyed.get?_eq_some.mp found
      exact ⟨named, isNamed, same, by simp [ringsOf, found]⟩

end Stats

namespace Recorder

/-- The rings and the file tell the hours they were closed for. -/
structure Sound (state : Recorder) : Prop where
  stats : state.stats.Tells state.closedFor state.latest
  file : state.file.Tells state.fileClosedFor state.latest

theorem Sound.step {state next : Recorder} {event : RecorderEvent} (sound : state.Sound)
    (inOrder : InOrder state event) (stepped : state.step event = some next) : next.Sound := by
  cases event with
  | tick start snapshot outcomes =>
      cases stepped
      have le := inOrder start rfl
      exact ⟨sound.stats.tick le snapshot outcomes, sound.file.mono le⟩
  | stop start snapshot outcomes =>
      cases stepped
      have le := inOrder start rfl
      exact ⟨sound.stats.stop le snapshot outcomes, sound.file.mono le⟩
  | save =>
      cases stepped
      exact ⟨sound.stats, sound.stats.saved⟩
  | lose =>
      cases stepped
      exact ⟨sound.stats, .empty _⟩
  | restart =>
      cases stepped
      exact ⟨sound.file, sound.file⟩

theorem Sound.initial : initial.Sound :=
  ⟨.empty _, .empty _⟩

/-- Rings are there for the ids that were closed for some hour, and for no others. -/
theorem Sound.rings_iff {state : Recorder} (sound : state.Sound) (id : String) :
    (∃ named ∈ state.stats.providers.values, named.1 = id) ↔
      (state.closedFor.providers id).Nonempty := by
  have known := not_congr (sound.stats.known id)
  rw [Keyed.get?_eq_none] at known
  push Not at known
  exact known

/-- The members' hours are there once they are closed. -/
theorem Sound.closed_members {state next : Recorder} {event : RecorderEvent} (sound : state.Sound)
    (inOrder : InOrder state event) (stepped : state.step event = some next) {start : Nat}
    (isStart : event.start? = some start) {entry : Watched} (member : entry ∈ event.snapshot) :
    ∃ named ∈ next.stats.providers.values, named.1 = entry.id ∧
      (∃ bucket ∈ named.2.served.buckets, bucket.start = start) ∧
      ∃ bucket ∈ named.2.transportFailures.buckets, bucket.start = start := by
  have later := sound.step inOrder stepped
  have listed : entry.id ∈ event.snapshot.map (·.id) := List.mem_map_of_mem member
  obtain ⟨isLatest, isClosed⟩ :
      next.latest = start ∧ start ∈ next.closedFor.providers entry.id := by
    cases event with
    | tick here snapshot outcomes =>
        cases stepped
        cases isStart
        have isNew : start ∈ (state.closedFor.close start snapshot).providers entry.id :=
          ClosedFor.mem_close.mpr (.inl ⟨rfl, listed⟩)
        exact ⟨rfl, ClosedFor.mem_forget.mpr ⟨isNew, start, isNew, Nat.sub_le _ _⟩⟩
    | stop here snapshot outcomes =>
        cases stepped
        cases isStart
        exact ⟨rfl, ClosedFor.mem_close.mpr (.inl ⟨rfl, listed⟩)⟩
    | save => cases isStart
    | lose => cases isStart
    | restart => cases isStart
  obtain ⟨named, isNamed, same, rings⟩ := later.stats.rings_exist isClosed
  have kept := later.stats.providers entry.id
  have past := later.stats.providersPast entry.id
  rw [isLatest] at past
  rw [← rings] at kept
  exact ⟨named, isNamed, same, kept.served.has_newest isClosed past,
    kept.transportFailures.has_newest isClosed past⟩

/-- A ring goes with a tick when all its hours are too old, and otherwise only with a restart from a
file that has none. -/
theorem Sound.dropped {state next : Recorder} {event : RecorderEvent} (sound : state.Sound)
    (inOrder : InOrder state event) (stepped : state.step event = some next)
    {named : String × ProviderRings} (member : named ∈ state.stats.providers.values)
    (gone : ∀ other ∈ next.stats.providers.values, other.1 ≠ named.1) :
    (event = .restart ∧ ∀ other ∈ state.file.providers.values, other.1 ≠ named.1) ∨
      ∃ start snapshot outcomes, event = .tick start snapshot outcomes ∧
        ∀ bucket ∈ named.2.served.buckets, bucket.start < start - HOURS * HOUR := by
  have later := sound.step inOrder stepped
  have nothing := (later.stats.known named.1).mp (Keyed.get?_eq_none.mpr gone)
  obtain ⟨hour, isHour⟩ := (sound.rings_iff named.1).mp ⟨named, member, rfl⟩
  have kept := sound.stats.providers named.1
  rw [Stats.ringsOf, Keyed.get?_key member] at kept
  change named.2.Kept _ at kept
  have empty : ∀ hour, hour ∉ next.closedFor.providers named.1 := by simp [nothing]
  cases event with
  | tick start snapshot outcomes =>
      cases stepped
      refine .inr ⟨start, snapshot, outcomes, rfl, fun bucket isBucket => ?_⟩
      have starts : bucket.start ∈ named.2.served.buckets.map Bucket.start :=
        List.mem_map_of_mem isBucket
      rw [kept.served.newest] at starts
      have isClosed := (Finset.mem_sort _).mp (List.mem_of_mem_drop starts)
      by_contra recent
      have remembered : bucket.start ∈ (state.closedFor.close start snapshot).providers named.1 :=
        ClosedFor.mem_close.mpr (.inr isClosed)
      exact empty bucket.start
        (ClosedFor.mem_forget.mpr ⟨remembered, _, remembered, Nat.le_of_not_lt recent⟩)
  | stop start snapshot outcomes =>
      cases stepped
      exact absurd (ClosedFor.mem_close.mpr (.inr isHour)) (empty hour)
  | save =>
      cases stepped
      exact absurd rfl (gone named member)
  | lose =>
      cases stepped
      exact absurd rfl (gone named member)
  | restart =>
      cases stepped
      exact .inl ⟨rfl, gone⟩

/-- Hours closed in order leave every ring with the newest of its hours, the rings of one provider
and the LB's own alike, and a report that pairs their counts and drops none.  A provider that was
closed for an hour has rings until none of its hours is recent, or a restart from a file without
it. -/
theorem rings_stay_paired {state : Recorder} {events : List RecorderEvent}
    (inOrder : machine.Meets InOrder initial events)
    (reached : machine.run initial events = some state) :
    (∀ named ∈ state.stats.providers.values,
      named.2.Kept (state.closedFor.providers named.1) ∧ named.2.Paired) ∧
      state.stats.lb.Kept state.closedFor.lb ∧ state.stats.lb.Paired ∧
      (∀ id, (∃ named ∈ state.stats.providers.values, named.1 = id) ↔
        (state.closedFor.providers id).Nonempty) ∧
      ∀ event next, InOrder state event → state.step event = some next →
        (∀ start ∈ event.start?, ∀ entry ∈ event.snapshot,
          ∃ named ∈ next.stats.providers.values, named.1 = entry.id ∧
            (∃ bucket ∈ named.2.served.buckets, bucket.start = start) ∧
            ∃ bucket ∈ named.2.transportFailures.buckets, bucket.start = start) ∧
        ∀ named ∈ state.stats.providers.values,
          (∀ other ∈ next.stats.providers.values, other.1 ≠ named.1) →
            (event = .restart ∧ ∀ other ∈ state.file.providers.values, other.1 ≠ named.1) ∨
              ∃ start snapshot outcomes, event = .tick start snapshot outcomes ∧
                ∀ bucket ∈ named.2.served.buckets, bucket.start < start - HOURS * HOUR := by
  have preserved : ∀ (before : Recorder) (event : RecorderEvent) (after : Recorder),
      before.Sound → InOrder before event → machine.step before event = some after →
        after.Sound := fun _ _ _ => Sound.step
  have sound := Machine.run_invariant preserved Sound.initial inOrder reached
  refine ⟨fun named member => ?_, sound.stats.lb, sound.stats.lb.paired, sound.rings_iff, ?_⟩
  · have kept := sound.stats.providers named.1
    rw [Stats.ringsOf, Keyed.get?_key member] at kept
    exact ⟨kept, kept.paired⟩
  · intro event next inOrder stepped
    exact ⟨fun start isStart entry => sound.closed_members inOrder stepped isStart,
      fun named => sound.dropped inOrder stepped⟩

/-- A provider served three requests, and two more over a restart inside the hour. -/
def twoStarts : List RecorderEvent :=
  let entry := Watched.born (.new "0xab" "http://127.0.0.1:1" .static) 0
  let outcomes : LbOutcomes :=
    { noHealthyProvider := 1
      timedOut := 0
      noProviderAnswered := 0 }
  [.tick 3600 [{ entry with toProvider := { entry.toProvider with servedTotal := 3 } }] outcomes,
    .stop 7200 [{ entry with toProvider := { entry.toProvider with servedTotal := 5 } }] outcomes,
    .save, .restart, .tick 7200 [entry] outcomes]

theorem rings_stay_paired_twoStarts :
    ∃ state, machine.run initial twoStarts = some state ∧
      (∃ named ∈ state.stats.providers.values, named.1 = "0xab") ∧
      (∀ named ∈ state.stats.providers.values,
        named.2.Kept (state.closedFor.providers named.1) ∧ named.2.Paired) ∧
        state.stats.lb.Kept state.closedFor.lb ∧ state.stats.lb.Paired := by
  have inOrder : machine.Meets InOrder initial twoStarts := by decide +kernel
  obtain ⟨rings, lb, paired, known, -⟩ := rings_stay_paired inOrder rfl
  exact ⟨_, rfl, (known "0xab").mpr ⟨3600, by decide +kernel⟩, rings, lb, paired⟩

end Recorder

end CommunityLb
