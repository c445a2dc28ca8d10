import CommunityLb.Health.Entry
import CommunityLb.Lib.Keyed

/-!
# Hourly buckets

One ring of buckets per counter, closed by the tick and at a stop from the counters' readings.
Hours are named by their start, in unix seconds.
-/

namespace CommunityLb

/-- How many hours a ring holds: 31 days. -/
def HOURS : Nat :=
  31 * 24

/-- Seconds in an hour. -/
def HOUR : Nat :=
  3600

/-- One hour of one counter. -/
structure Bucket where
  start : Nat
  count : Nat
  /-- Not a whole hour: cut by a start or a stop. -/
  isPartial : Bool
  deriving DecidableEq, Repr

/-- The ring of one counter, the latest hour last, and the reading the next bucket is a difference
from; none before the first tick after a start. -/
structure Ring where
  buckets : List Bucket
  last : Option Nat
  deriving DecidableEq, Repr

/-- An hour's count joins the newest bucket, when it is the same hour, or comes after it; the oldest
bucket of a full ring makes room. -/
def closeHour (buckets : List Bucket) (start count : Nat) (isPartial : Bool) : List Bucket :=
  let pushed :=
    (if buckets.length = HOURS then buckets.tail else buckets) ++
      [{ start := start
         count := count
         isPartial := isPartial }]
  match buckets.getLast? with
  | some newest =>
      if newest.start = start then
        buckets.dropLast ++
          [{ newest with
             count := newest.count + count
             isPartial := true }]
      else pushed
  | none => pushed

/-- What the buckets counted. -/
def bucketTotal (buckets : List Bucket) : Nat :=
  (buckets.map (·.count)).sum

namespace Ring

/-- No hour and no reading. -/
def empty : Ring where
  buckets := []
  last := none

/-- A tick or, with `stopping`, a stop. -/
def close (ring : Ring) (start reading : Nat) (stopping : Bool) : Ring where
  buckets := closeHour ring.buckets start (reading - ring.last.getD 0)
    (stopping || ring.last.isNone)
  last := some reading

/-- The start of the newest completed hour, if any. -/
def newest (ring : Ring) : Option Nat :=
  ring.buckets.getLast?.map (·.start)

/-- As the file has it, without the reading. -/
def saved (ring : Ring) : Ring :=
  { ring with last := none }

end Ring

/-- The newest bucket is the hour that was closed. -/
theorem getLast?_closeHour (buckets : List Bucket) (start count : Nat) (isPartial : Bool) :
    ∃ newest, (closeHour buckets start count isPartial).getLast? = some newest ∧
      newest.start = start ∧ (isPartial = true → newest.isPartial = true) := by
  simp only [closeHour]
  split
  · next newest isLast =>
      split
      · next same => exact ⟨_, List.getLast?_concat, same, fun _ => rfl⟩
      · exact ⟨_, List.getLast?_concat, rfl, id⟩
  · exact ⟨_, List.getLast?_concat, rfl, id⟩

/-- A ring with room counts what it is given. -/
theorem bucketTotal_closeHour {buckets : List Bucket} {start : Nat} (count : Nat) (isPartial : Bool)
    (room : buckets.length = HOURS → ∀ newest ∈ buckets.getLast?, newest.start = start) :
    bucketTotal (closeHour buckets start count isPartial) = bucketTotal buckets + count := by
  simp only [closeHour]
  split
  · next newest isLast =>
      obtain ⟨older, rfl⟩ := List.getLast?_eq_some_iff.mp isLast
      split
      · simp [bucketTotal]
        omega
      · next differs =>
          have fits : ¬(older ++ [newest]).length = HOURS := fun full =>
            differs (room full newest isLast)
          rw [if_neg fits]
          simp [bucketTotal]
          omega
  · next isEmpty =>
      obtain rfl : buckets = [] := List.getLast?_eq_none_iff.mp isEmpty
      rw [if_neg (by decide)]
      simp [bucketTotal]

/-- One provider's rings, with its agreement, so that one that left the pool is still named. -/
structure ProviderRings where
  agreementId : Option EntityKey
  served : Ring
  transportFailures : Ring
  deriving DecidableEq, Repr

/-- Rings as they are made. -/
def ProviderRings.empty : ProviderRings where
  agreementId := none
  served := .empty
  transportFailures := .empty

/-- The LB's own rings, for the answers it gave itself. -/
structure LbRings where
  noHealthyProvider : Ring
  timedOut : Ring
  noProviderAnswered : Ring
  deriving DecidableEq, Repr

/-- The answers the LB gave itself. -/
structure LbOutcomes where
  noHealthyProvider : Nat
  timedOut : Nat
  noProviderAnswered : Nat
  deriving DecidableEq, Repr

/-- How a request ended that the LB answered by itself. -/
inductive LbOutcome where
  | noHealthyProvider
  | timedOut
  | noProviderAnswered
  deriving DecidableEq, Repr

/-- One more of them. -/
def LbOutcomes.record (outcomes : LbOutcomes) : LbOutcome → LbOutcomes
  | .noHealthyProvider => { outcomes with noHealthyProvider := outcomes.noHealthyProvider + 1 }
  | .timedOut => { outcomes with timedOut := outcomes.timedOut + 1 }
  | .noProviderAnswered => { outcomes with noProviderAnswered := outcomes.noProviderAnswered + 1 }

/-- Every ring the LB keeps, the providers' by pool id. -/
structure Stats where
  providers : Keyed (Prod.fst : String × ProviderRings → String)
  lb : LbRings
  deriving DecidableEq

/-- The hour closed from one entry's counters. -/
def ProviderRings.close (rings : ProviderRings) (start : Nat) (stopping : Bool) (entry : Watched) :
    ProviderRings where
  agreementId := entry.agreementId
  served := rings.served.close start entry.servedTotal stopping
  transportFailures := rings.transportFailures.close start entry.transportFailures stopping

namespace Stats

/-- No history. -/
def empty : Stats where
  providers := .empty
  lb :=
    { noHealthyProvider := .empty
      timedOut := .empty
      noProviderAnswered := .empty }

/-- The rings under an id, made where there are none. -/
def ringsOf (stats : Stats) (id : String) : ProviderRings :=
  ((stats.providers.get? id).map (·.2)).getD .empty

/-- One member's hour. -/
def closeEntry (start : Nat) (stopping : Bool) (stats : Stats) (entry : Watched) : Stats :=
  { stats with
    providers :=
      stats.providers.insert (entry.id, (stats.ringsOf entry.id).close start stopping entry) }

/-- The hour closed for every counter. -/
def close (stats : Stats) (start : Nat) (snapshot : List Watched) (outcomes : LbOutcomes)
    (stopping : Bool) : Stats :=
  { snapshot.foldl (closeEntry start stopping) stats with
    lb :=
      { noHealthyProvider :=
          stats.lb.noHealthyProvider.close start outcomes.noHealthyProvider stopping
        timedOut := stats.lb.timedOut.close start outcomes.timedOut stopping
        noProviderAnswered :=
          stats.lb.noProviderAnswered.close start outcomes.noProviderAnswered stopping } }

/-- Closes an hour; a provider gone for longer than a ring holds has nothing left to show. -/
def tick (stats : Stats) (start : Nat) (snapshot : List Watched) (outcomes : LbOutcomes) : Stats :=
  let closed := stats.close start snapshot outcomes false
  { closed with
    providers := closed.providers.filter fun rings =>
      rings.2.served.newest.any (start - HOURS * HOUR ≤ ·) }

/-- Closes the hour in progress. -/
def stop (stats : Stats) (start : Nat) (snapshot : List Watched) (outcomes : LbOutcomes) : Stats :=
  stats.close start snapshot outcomes true

/-- As the file has them. -/
def saved (stats : Stats) : Stats where
  providers := stats.providers.update
    (fun rings =>
      (rings.1,
        { rings.2 with
          served := rings.2.served.saved
          transportFailures := rings.2.transportFailures.saved }))
    fun _ => rfl
  lb :=
    { noHealthyProvider := stats.lb.noHealthyProvider.saved
      timedOut := stats.lb.timedOut.saved
      noProviderAnswered := stats.lb.noProviderAnswered.saved }

theorem ringsOf_closeEntry (start : Nat) (stopping : Bool) (stats : Stats) (entry : Watched)
    (id : String) :
    (stats.closeEntry start stopping entry).ringsOf id =
      if id = entry.id then (stats.ringsOf id).close start stopping entry else stats.ringsOf id := by
  by_cases same : id = entry.id
  · subst same
    simp [ringsOf, closeEntry, Keyed.get?_insert]
  · simp [ringsOf, closeEntry, Keyed.get?_insert, same]

/-- A member's rings take its readings, once, when no other member has its id. -/
theorem ringsOf_foldl {snapshot : List Watched} (distinct : (snapshot.map (·.id)).Nodup)
    (start : Nat) (stopping : Bool) (stats : Stats) :
    (∀ entry ∈ snapshot, (snapshot.foldl (closeEntry start stopping) stats).ringsOf entry.id =
      (stats.ringsOf entry.id).close start stopping entry) ∧
    ∀ id, (∀ entry ∈ snapshot, entry.id ≠ id) →
      (snapshot.foldl (closeEntry start stopping) stats).ringsOf id = stats.ringsOf id := by
  induction snapshot generalizing stats with
  | nil => exact ⟨fun _ member => (nomatch member), fun _ _ => rfl⟩
  | cons first rest ih =>
      obtain ⟨unlike, distinct⟩ := List.nodup_cons.mp distinct
      obtain ⟨listed, unlisted⟩ := ih distinct (closeEntry start stopping stats first)
      have apart : ∀ entry ∈ rest, entry.id ≠ first.id := fun entry member same =>
        unlike (List.mem_map.mpr ⟨entry, member, same⟩)
      refine ⟨fun entry member => ?_, fun id absent => ?_⟩
      · rcases List.mem_cons.mp member with rfl | later
        · rw [List.foldl_cons, unlisted entry.id apart, ringsOf_closeEntry, if_pos rfl]
        · rw [List.foldl_cons, listed entry later, ringsOf_closeEntry,
            if_neg (apart entry later)]
      · rw [List.foldl_cons,
          unlisted id fun entry later => absent entry (List.mem_cons_of_mem _ later),
          ringsOf_closeEntry, if_neg (Ne.symm (absent first List.mem_cons_self))]

theorem ringsOf_saved (stats : Stats) (id : String) :
    (stats.saved.ringsOf id).served = (stats.ringsOf id).served.saved := by
  simp only [ringsOf, saved, Keyed.get?_update]
  cases stats.providers.get? id <;> rfl

/-- What a tick keeps of an id is all of it, or nothing when its newest hour is too old. -/
theorem ringsOf_tick (stats : Stats) (start : Nat) (snapshot : List Watched)
    (outcomes : LbOutcomes) (id : String) :
    (stats.tick start snapshot outcomes).ringsOf id =
        (snapshot.foldl (closeEntry start false) stats).ringsOf id ∨
      (stats.tick start snapshot outcomes).ringsOf id = .empty ∧
        ∀ newest ∈ ((snapshot.foldl (closeEntry start false) stats).ringsOf id).served.newest,
          newest < start - HOURS * HOUR := by
  simp only [tick, close, ringsOf, Keyed.get?_filter]
  cases (snapshot.foldl (closeEntry start false) stats).providers.get? id with
  | none => exact .inl rfl
  | some rings =>
      by_cases recent : rings.2.served.newest.any (start - HOURS * HOUR ≤ ·) = true
      · left
        rw [Option.filter_some, if_pos recent]
      · right
        rw [Option.filter_some, if_neg recent]
        refine ⟨rfl, fun newest isNewest => ?_⟩
        have isNewest : rings.2.served.newest = some newest := isNewest
        rw [isNewest, Option.any_some, decide_eq_true_eq] at recent
        exact Nat.lt_of_not_le recent

end Stats

end CommunityLb
