import CommunityLb.Marketplace.Account

/-!
# Counts that never go down
-/

namespace CommunityLb

namespace Account

/-- The counts of one record: on the chain, in flight, and about to be sent, in that order. -/
def carried (key : EntityKey) (account : Account) : List Nat :=
  countsOn account.rows key ++
    (account.sent ++ account.desk.queue).filterMap (CounterWrite.countFor key)

/-- What the next write to the record read will carry at least: the entry's count once memory took
the record, or a stray's own count at a flush. -/
def due (flushing : Bool) (row : Entry) : Option Held → Option Nat
  | some held => some (take (some row) none held).served
  | none => if flushing then some row.record.count else none

/-- A reading that does not fall behind: unless memory counts into the oldest record read already,
no count that record has on the chain or on its way exceeds what will be written to it next. -/
def Level : Label → Account → Prop
  | .page flushing shown, account =>
      ∀ row, IsOldest shown (some row) → account.held.bind (·.counter) ≠ some row.key →
        ∀ count ∈ due flushing row account.held,
          ∀ other ∈ account.carried row.key, other ≤ count
  | _, _ => True

/-! ## One record's counts -/

/-- The counts of one record never go down on their way, and nothing the task will write to it
falls behind them. -/
structure Rising (key : EntityKey) (account : Account) : Prop where
  sorted : (account.carried key).Pairwise (· ≤ ·)
  /-- Memory counts into the record, and its entry is at the top. -/
  held : ∀ held, account.held = some held → held.counter = some key →
    ∀ count ∈ account.carried key, count ≤ held.served
  /-- The record was read for an agreement to count into, or as a stray. -/
  shown : ∀ flushing row duplicates missing found,
    account.desk = .shown flushing (some row) duplicates missing found → row.key = key →
      missing = none ∧ found = none ∧ ∀ top ∈ due flushing row account.held,
        ∀ count ∈ account.carried key, count ≤ top
  /-- Memory took the record, or a flush found it a stray. -/
  matched : ∀ flushing row duplicates,
    account.desk = .matched flushing (some row) duplicates → row.key = key →
      (∀ held, account.held = some held → held.counter = some key) ∧
        (account.held = none → flushing → ∀ count ∈ account.carried key, count ≤ row.record.count)

theorem carried_unused {key : EntityKey} {account : Account} (unused : key ∉ account.mentions) :
    account.carried key = [] := by
  have noRow : countsOn account.rows key = [] := by
    refine List.map_eq_nil_iff.mpr (List.filter_eq_nil_iff.mpr fun row member same => ?_)
    exact unused (by simpa using of_decide_eq_true same ▸ row_mentioned member)
  have noWrite : account.outstanding.filterMap (CounterWrite.countFor key) = [] := by
    refine List.filterMap_eq_nil_iff.mpr fun write member => ?_
    cases carries : write.countFor key with
    | none => rfl
    | some count => exact absurd (target_mentioned member (CounterWrite.countFor_target carries)) unused
  rw [carried, noRow, List.nil_append]
  exact noWrite

/-- Landing, a write takes the counts still on their way one step on. -/
theorem land_sorted {key fresh : EntityKey} {block : Nat} {write : CounterWrite}
    {rows landed : List Entry} (later : List CounterWrite)
    (other : ∀ record, write = .opening record → fresh ≠ key)
    (lands : write.land block fresh rows = some landed) :
    let before := countsOn rows key ++ (write :: later).filterMap (CounterWrite.countFor key)
    let after := countsOn landed key ++ later.filterMap (CounterWrite.countFor key)
    (before.Pairwise (· ≤ ·) → after.Pairwise (· ≤ ·)) ∧ ∀ count ∈ after, count ∈ before := by
  intro before after
  rcases land_countsOn other lands with ⟨count, carries, counts⟩ | kept
  · have from_before : before =
        countsOn rows key ++ count :: later.filterMap (CounterWrite.countFor key) := by
      simp [before, carries]
    have to_after : after = List.replicate (countsOn rows key).length count ++
        later.filterMap (CounterWrite.countFor key) := by
      simp [after, counts]
    rw [from_before, to_after]
    constructor
    · intro sorted
      have tail := List.pairwise_cons.mp (List.pairwise_append.mp sorted).2.1
      refine List.pairwise_append.mpr ⟨?_, tail.2, ?_⟩
      · exact List.pairwise_replicate.mpr (.inr le_rfl)
      · intro first inFirst second inSecond
        rw [(List.mem_replicate.mp inFirst).2]
        exact tail.1 second inSecond
    · intro other inAfter
      rcases List.mem_append.mp inAfter with inFirst | inLater
      · rw [(List.mem_replicate.mp inFirst).2]
        simp
      · exact List.mem_append_right _ (List.mem_cons_of_mem _ inLater)
  · have part : after.Sublist before := by
      rcases kept with ⟨carries, counts⟩ | ⟨rfl, counts⟩
      · simp [before, after, carries, counts]
      · simp [before, after, counts, List.filterMap_cons]
    exact ⟨fun sorted => sorted.sublist part, fun count inAfter => part.subset inAfter⟩

/-- A record's key is not used, and a write lands: at most the record itself is new. -/
theorem land_unused {key : EntityKey} {account : Account} {write : CounterWrite}
    {rest : List CounterWrite} {block : Nat} {fresh : EntityKey} {rows : List Entry}
    (unused : key ∉ account.mentions)
    (queued : account.sent ++ account.desk.queue = write :: rest)
    (lands : write.land block fresh account.rows = some rows) :
    (countsOn rows key ++ rest.filterMap (CounterWrite.countFor key)).Pairwise (· ≤ ·) := by
  have empty := carried_unused unused
  simp only [carried, queued, List.append_eq_nil_iff] at empty
  obtain ⟨noRow, noWrite⟩ := empty
  have noRest : rest.filterMap (CounterWrite.countFor key) = [] := by
    refine List.filterMap_eq_nil_iff.mpr fun other member => ?_
    exact List.filterMap_eq_nil_iff.mp noWrite other (List.mem_cons_of_mem _ member)
  rw [noRest, List.append_nil]
  by_cases fits : ∀ record, write = .opening record → fresh ≠ key
  · have sorted := (land_sorted rest fits lands).1
    simp only [noRow, noWrite, noRest, List.append_nil] at sorted
    exact sorted .nil
  · push Not at fits
    obtain ⟨record, rfl, rfl⟩ := fits
    cases lands
    simp only [countsOn, List.filter_append, List.map_append] at noRow ⊢
    rw [noRow]
    simp

/-- An agreement's last write carries what its entry served, to the record memory held. -/
theorem final_counts (key : EntityKey) (head openedBlock : Nat) (wei : Wei) (held : Held) :
    (final head openedBlock wei held).filterMap (CounterWrite.countFor key) =
      if held.counter = some key ∧ held.served ≠ 0 then [held.served] else [] := by
  cases counter : held.counter with
  | none => simp [final, counter]
  | some target =>
      by_cases zero : held.served = 0
      · simp [final, counter, zero, List.filterMap_cons]
      · by_cases same : target = key <;>
          simp [final, counter, zero, same, CounterWrite.countFor]

/-- What a flush owes carries the entry's count, or a stray's own, to the record read. -/
theorem owed_counts (key : EntityKey) (flush : Flush) (head period : Nat)
    (opening : CounterRecord) (row : Option Entry) (held : Option Held) :
    ((owed flush head period opening row held).1.filterMap (CounterWrite.countFor key) = []) ∨
    ∃ found, row = some found ∧ found.key = key ∧
      ((∃ live, held = some live ∧
        (owed flush head period opening row held).1.filterMap (CounterWrite.countFor key) =
          [live.served]) ∨
      (held = none ∧
        (owed flush head period opening row held).1.filterMap (CounterWrite.countFor key) =
          [found.record.count])) := by
  cases row with
  | none => cases held <;> cases flush <;> simp [owed, List.filterMap_cons]
  | some found =>
      by_cases same : found.key = key
      · cases held with
        | some live =>
            simp only [owed]
            split
            · simp [CounterWrite.countFor, same, closed, CounterRecord.payload]
            · split <;> simp [CounterWrite.countFor, same]
        | none =>
            cases flush with
            | stop => simp [owed]
            | scheduled =>
                simp only [owed]
                split <;> simp [CounterWrite.countFor, same, closed, CounterRecord.payload]
      · refine .inl ?_
        cases held <;> cases flush <;> simp only [owed] <;> repeat' split
        all_goals simp [List.filterMap_cons, CounterWrite.countFor, same]

namespace Rising

variable {key : EntityKey} {before after : Account}

/-- Nothing new on its way, the entry no lower, the same at hand. -/
theorem shrink (rising : Rising key before)
    (sorted : (after.carried key).Pairwise (· ≤ ·))
    (part : ∀ count ∈ after.carried key, count ∈ before.carried key)
    (desk : after.desk = before.desk) (held : after.held = before.held) : Rising key after where
  sorted := sorted
  held := by
    rw [held]
    exact fun held live counts count member => rising.held held live counts count (part count member)
  shown := by
    rw [desk, held]
    intro flushing row duplicates missing found at_hand same
    obtain ⟨looked, notFound, level⟩ :=
      rising.shown flushing row duplicates missing found at_hand same
    exact ⟨looked, notFound, fun top due count member => level top due count (part count member)⟩
  matched := by
    rw [desk, held]
    intro flushing row duplicates at_hand same
    obtain ⟨counts, stray⟩ := rising.matched flushing row duplicates at_hand same
    exact ⟨counts, fun absent flush count member => stray absent flush count (part count member)⟩

/-- A record nothing mentioned is not what memory or the task holds. -/
theorem of_unused (unused : key ∉ before.mentions)
    (sorted : (after.carried key).Pairwise (· ≤ ·)) (desk : after.desk = before.desk)
    (held : after.held = before.held) : Rising key after where
  sorted := sorted
  held := by
    rw [held]
    intro held live counts
    exact absurd (List.mem_append_right _ (by simp [live, counts])) unused
  shown := by
    rw [desk]
    intro flushing row duplicates missing found at_hand same
    refine absurd (List.mem_append_left _ (List.mem_append_right _ ?_)) unused
    simp [at_hand, Desk.mentions, same]
  matched := by
    rw [desk]
    intro flushing row duplicates at_hand same
    refine absurd (List.mem_append_left _ (List.mem_append_right _ ?_)) unused
    simp [at_hand, Desk.mentions, same]

/-- Nothing read at hand. -/
theorem of_not_reading (desk : after.desk.reading = false)
    (sorted : (after.carried key).Pairwise (· ≤ ·))
    (held : ∀ held, after.held = some held → held.counter = some key →
      ∀ count ∈ after.carried key, count ≤ held.served) : Rising key after where
  sorted := sorted
  held := held
  shown := by
    intro flushing row duplicates missing found at_hand
    simp [at_hand, Desk.reading] at desk
  matched := by
    intro flushing row duplicates at_hand
    simp [at_hand, Desk.reading] at desk

/-- What was at hand is let go. -/
theorem clear (rising : Rising key before) (rows : after.rows = before.rows)
    (sent : after.sent = before.sent) (desk : after.desk = .clear)
    (held : ∀ held, after.held = some held → before.held = some held) : Rising key after := by
  have part : (after.carried key).Sublist (before.carried key) := by
    simp only [carried, rows, sent, desk, Desk.queue_writing, List.append_nil]
    exact ((List.sublist_append_left _ _).filterMap _).append_left _
  refine .of_not_reading (by simp [desk, Desk.reading]) (rising.sorted.sublist part) ?_
  intro now live counts count member
  exact rising.held now (held now live) counts count (part.subset member)

/-- One more request served. -/
theorem serve (rising : Rising key before) {held : Held} (live : before.held = some held)
    (kept : after.carried key = before.carried key) (desk : after.desk = before.desk)
    (more : after.held =
      some { held with served := held.served + 1, total := held.total + 1 }) :
    Rising key after where
  sorted := kept ▸ rising.sorted
  held := by
    rw [more, kept]
    rintro _ ⟨⟩ counts count member
    exact Nat.le_succ_of_le (rising.held held live counts count member)
  shown := by
    rw [desk, more, kept]
    intro flushing row duplicates missing found at_hand same
    obtain ⟨looked, notFound, level⟩ :=
      rising.shown flushing row duplicates missing found at_hand same
    refine ⟨looked, notFound, ?_⟩
    rw [live] at level
    rintro _ ⟨⟩ count member
    have bound := level _ rfl count member
    simp only [take] at bound ⊢
    split at bound <;> simp_all <;> omega
  matched := by
    rw [desk, more, kept]
    intro flushing row duplicates at_hand same
    obtain ⟨counts, _⟩ := rising.matched flushing row duplicates at_hand same
    refine ⟨?_, fun absent => by cases absent⟩
    rintro _ ⟨⟩
    exact counts held live

end Rising

/-- Every step keeps a record's counts rising, when every reading is level. -/
theorem Rising.step {key : EntityKey} {before after : Account} (rising : Rising key before)
    (step : Step Level before after) : Rising key after := by
  cases step with
  | advance count keep later stays =>
      have part : (before.rows.filter keep |> (countsOn · key)).Sublist (countsOn before.rows key) :=
        (List.filter_sublist.filter _).map _
      have whole := part.append_right
        ((before.sent ++ before.desk.queue).filterMap (CounterWrite.countFor key))
      exact rising.shrink (rising.sorted.sublist whole) (fun count member => whole.subset member)
        rfl rfl
  | trail => exact rising.shrink rising.sorted (fun _ member => member) rfl rfl
  | settle => exact rising.shrink rising.sorted (fun _ member => member) rfl rfl
  | die => exact rising.shrink rising.sorted (fun _ member => member) rfl rfl
  | catchUp count => exact rising.shrink rising.sorted (fun _ member => member) rfl rfl
  | serveLate => exact rising.shrink rising.sorted (fun _ member => member) rfl rfl
  | @land write rest fresh rows sent mining unused lands =>
      have queued : before.sent ++ before.desk.queue =
          write :: (rest ++ before.desk.queue) := by rw [sent, List.cons_append]
      by_cases mentioned : key ∈ before.mentions
      · have fits : ∀ record, write = .opening record → fresh ≠ key :=
          fun record opens same => unused record opens (same ▸ mentioned)
        obtain ⟨sorts, keeps⟩ := land_sorted (rest ++ before.desk.queue) fits lands
        simp only [← queued] at sorts keeps
        exact rising.shrink (sorts rising.sorted) keeps rfl rfl
      · exact Rising.of_unused mentioned (land_unused mentioned queued lands) rfl rfl
  | @drop write rest sent =>
      have part : (rest ++ before.desk.queue).Sublist (before.sent ++ before.desk.queue) := by
        rw [sent]
        exact (List.sublist_cons_self write rest).append_right _
      have whole := (part.filterMap (CounterWrite.countFor key)).append_left
        (countsOn before.rows key)
      exact rising.shrink (rising.sorted.sublist whole) (fun count member => whole.subset member)
        rfl rfl
  | serve live allowed => exact rising.serve live rfl rfl rfl
  | adopt absent desk alive allowed =>
      refine .of_not_reading (by simp [desk, Desk.reading]) rising.sorted ?_
      rintro _ ⟨⟩ counts
      cases counts
  | accept absent desk empty unseen unsent fresh zero opened allowed =>
      refine .of_not_reading rfl ?_ ?_
      · simp [carried, countsOn, empty, unsent, List.filterMap_cons]
      · rintro _ ⟨⟩ counts
        cases counts
  | @accepted record held fresh desk live unsent mining unused zero opened =>
      have queued : before.sent ++ before.desk.queue = [.opening record] := by
        rw [unsent, desk]
        rfl
      have lands : (CounterWrite.opening record).land before.head fresh before.rows =
          some (before.rows ++ [⟨fresh, before.head, record⟩]) := rfl
      have after_carried : carried key
          { before with
            rows := before.rows ++ [⟨fresh, before.head, record⟩]
            held := some { held with counter := some fresh }
            desk := .clear
            mining := false } =
          countsOn (before.rows ++ [⟨fresh, before.head, record⟩]) key := by
        simp [carried, unsent]
      by_cases mentioned : key ∈ before.mentions
      · have different : fresh ≠ key := fun same => unused (same ▸ mentioned)
        have fits : ∀ made, CounterWrite.opening record = .opening made → fresh ≠ key :=
          fun _ _ => different
        obtain ⟨sorts, keeps⟩ := land_sorted [] fits lands
        simp only [← queued, List.filterMap_nil, List.append_nil] at sorts keeps
        refine .of_not_reading rfl (after_carried ▸ sorts rising.sorted) ?_
        rintro _ ⟨⟩ counts
        exact absurd (Option.some.inj counts) different
      · have sorted := land_unused mentioned queued lands
        rw [List.filterMap_nil, List.append_nil] at sorted
        refine .of_not_reading rfl (after_carried ▸ sorted) ?_
        rintro _ ⟨⟩ counts count member
        rw [after_carried] at member
        have nothing := carried_unused mentioned
        simp only [carried, List.append_eq_nil_iff] at nothing
        simp only [countsOn, List.filter_append, List.map_append] at member nothing
        rw [nothing.1] at member
        obtain rfl : count = 0 := by simp_all
        exact Nat.zero_le _
  | @acceptFailed record held lost desk live allowed =>
      have kept : (if lost then before.sent ++ [.opening record] else before.sent).filterMap
          (CounterWrite.countFor key) = before.sent.filterMap (CounterWrite.countFor key) := by
        cases lost <;> simp [List.filterMap_append, List.filterMap_cons]
      have part := rising.sorted.sublist
        ((List.filterMap_append ▸ List.sublist_append_left _ _ :
          (before.sent.filterMap (CounterWrite.countFor key)).Sublist
            ((before.sent ++ before.desk.queue).filterMap (CounterWrite.countFor key))).append_left
          (countsOn before.rows key))
      refine .of_not_reading rfl ?_ ?_
      · simpa [carried, kept] using part
      · rintro _ ⟨⟩ counts
        cases counts
  | @pastLife held head openedBlock wei live desk allowed =>
      have before_carried : before.carried key =
          countsOn before.rows key ++ before.sent.filterMap (CounterWrite.countFor key) := by
        simp [carried, desk]
      have after_carried : carried key
          { before with
            held := none
            desk := .writing (final head openedBlock wei held) none } =
          before.carried key ++
            (final head openedBlock wei held).filterMap (CounterWrite.countFor key) := by
        simp [carried, desk, List.filterMap_append]
      refine .of_not_reading rfl ?_ (fun _ absent => by cases absent)
      rw [after_carried, final_counts]
      split
      · next counts =>
          refine List.pairwise_append.mpr ⟨rising.sorted, List.pairwise_singleton _ _, ?_⟩
          intro count member last inFinal
          rw [List.mem_singleton.mp inFinal]
          exact rising.held held live counts.1 count member
      · simpa using rising.sorted
  | quit allowed => exact rising.clear rfl rfl rfl (fun _ absent => by cases absent)
  | giveUp allowed => exact rising.clear rfl rfl rfl (fun _ live => live)
  | leave desk => exact rising.clear rfl rfl rfl (fun _ live => live)
  | finish desk unlanded => exact rising.clear rfl rfl rfl (fun _ live => live)
  | @page flushing shown row duplicates desk settled inView oldest younger allowed =>
      have kept : carried key
          { before with
            desk := .shown flushing row duplicates
              (if row = none then before.held.bind (·.counter) else none) none } =
          before.carried key := by
        simp [carried, desk]
      refine ⟨kept ▸ rising.sorted, ?_, ?_, fun _ _ _ at_hand => by cases at_hand⟩
      · rw [kept]
        exact rising.held
      · rw [kept]
        rintro _ read _ _ _ ⟨⟩ same
        refine ⟨rfl, rfl, fun top level count member => ?_⟩
        by_cases counts : before.held.bind (·.counter) = some read.key
        · obtain ⟨live, holds, counter⟩ := Option.bind_eq_some_iff.mp counts
          simp only [holds, due, take, counter] at level
          obtain rfl : live.served = top := by simpa using level
          exact rising.held live holds (counter.trans (congrArg some same)) count member
        · subst same
          exact allowed read oldest counts top level count member
  | @lookup flushing row duplicates target desk allowed =>
      have kept : carried key
          { before with
            desk := .shown flushing row duplicates none (closedCount before.rows target) } =
          before.carried key := by
        simp [carried, desk]
      refine ⟨kept ▸ rising.sorted, by rw [kept]; exact rising.held, ?_, by rintro _ _ _ ⟨⟩⟩
      rintro _ read _ _ _ ⟨⟩ same
      -- A record read leaves nothing missing.
      have missing := (rising.shown _ _ _ _ _ desk same).1
      cases missing
  | @match_ flushing row duplicates found desk =>
      have kept : carried key
          { before with
            held := before.held.map (take row found)
            desk := .matched flushing row duplicates } = before.carried key := by
        simp [carried, desk]
      refine ⟨kept ▸ rising.sorted, ?_, by rintro _ _ _ _ _ ⟨⟩, ?_⟩
      · rw [kept]
        intro taken holds counter count member
        obtain ⟨live, was, rfl⟩ := Option.map_eq_some_iff.mp holds
        obtain ⟨read, rfl, same⟩ := Option.map_eq_some_iff.mp counter
        obtain ⟨_, rfl, level⟩ := rising.shown _ _ _ _ _ desk same
        exact level _ (by rw [was]; rfl) count member
      · rw [kept]
        rintro _ read _ ⟨⟩ same
        obtain ⟨_, rfl, level⟩ := rising.shown _ _ _ _ _ desk same
        constructor
        · intro taken holds
          obtain ⟨live, was, rfl⟩ := Option.map_eq_some_iff.mp holds
          exact congrArg some same
        · intro absent flush count member
          have nobody : before.held = none := Option.map_eq_none_iff.mp absent
          exact level _ (by simp [due, nobody, flush]) count member
  | @counts row duplicates opening flush head period desk zero opened =>
      have before_carried : before.carried key =
          countsOn before.rows key ++ before.sent.filterMap (CounterWrite.countFor key) := by
        simp [carried, desk]
      have leftovers : (if flush = .scheduled then
          duplicates.map CounterWrite.delete else []).filterMap
            (CounterWrite.countFor key) = [] := by
        refine List.filterMap_eq_nil_iff.mpr fun write member => ?_
        split at member
        · obtain ⟨target, _, rfl⟩ := List.mem_map.mp member
          rfl
        · cases member
      have after_carried : carried key
          { before with
            desk := .writing
              ((if flush = .scheduled then duplicates.map .delete else []) ++
                (owed flush head period opening row before.held).1)
              (owed flush head period opening row before.held).2 } =
          before.carried key ++ (owed flush head period opening row before.held).1.filterMap
            (CounterWrite.countFor key) := by
        simp [carried, desk, List.filterMap_append, leftovers]
      have tops : ∀ last ∈ (owed flush head period opening row before.held).1.filterMap
          (CounterWrite.countFor key),
          (∀ count ∈ before.carried key, count ≤ last) ∧
            ∀ live, before.held = some live → last = live.served := by
        intro last inOwed
        rcases owed_counts key flush head period opening row before.held with
          nothing | ⟨read, rfl, same, ⟨live, holds, one⟩ | ⟨absent, one⟩⟩
        · rw [nothing] at inOwed
          cases inOwed
        · obtain rfl : last = live.served := by simpa [one] using inOwed
          have counter := (rising.matched _ _ _ desk same).1 live holds
          exact ⟨rising.held live holds counter, by simp [holds]⟩
        · obtain rfl : last = read.record.count := by simpa [one] using inOwed
          exact ⟨(rising.matched _ _ _ desk same).2 absent rfl, by simp [absent]⟩
      have single : ((owed flush head period opening row before.held).1.filterMap
          (CounterWrite.countFor key)).Pairwise (· ≤ ·) := by
        rcases owed_counts key flush head period opening row before.held with
          nothing | ⟨_, _, _, ⟨_, _, one⟩ | ⟨_, one⟩⟩
        · simp [nothing]
        · simp [one]
        · simp [one]
      refine .of_not_reading rfl ?_ ?_
      · rw [after_carried]
        exact List.pairwise_append.mpr ⟨rising.sorted, single,
          fun count member last inOwed => (tops last inOwed).1 count member⟩
      · rw [after_carried]
        intro live holds counter count member
        rcases List.mem_append.mp member with earlier | inOwed
        · exact rising.held live holds counter count earlier
        · exact ((tops count inOwed).2 live holds).le
  | @send write queue close fresh rows desk unsent mining unused lands =>
      have queued : before.sent ++ before.desk.queue = write :: queue := by
        rw [unsent, desk]
        rfl
      have after_carried : carried key
          { before with
            rows := rows
            desk := .writing queue (close.map (Close.answered write)) } =
          countsOn rows key ++ queue.filterMap (CounterWrite.countFor key) := by
        simp [carried, unsent]
      by_cases mentioned : key ∈ before.mentions
      · have fits : ∀ record, write = .opening record → fresh ≠ key :=
          fun record opens same => unused record opens (same ▸ mentioned)
        obtain ⟨sorts, keeps⟩ := land_sorted queue fits lands
        simp only [← queued] at sorts keeps
        refine .of_not_reading rfl (after_carried ▸ sorts rising.sorted) ?_
        rw [after_carried]
        exact fun live holds counter count member =>
          rising.held live holds counter count (keeps count member)
      · refine .of_not_reading rfl (after_carried ▸ land_unused mentioned queued lands) ?_
        intro live holds counter
        refine absurd (List.mem_append_right _ ?_) mentioned
        simp only at holds
        simp [holds, counter]
  | @sendFailed write queue close lost desk allowed =>
      have part : ((if lost then before.sent ++ [write] else before.sent) ++ queue).Sublist
          (before.sent ++ before.desk.queue) := by
        rw [desk]
        cases lost
        · exact (List.sublist_cons_self write queue).append_left before.sent
        · simp [Desk.queue]
      have whole := (part.filterMap (CounterWrite.countFor key)).append_left
        (countsOn before.rows key)
      refine .of_not_reading rfl (rising.sorted.sublist whole) ?_
      exact fun live holds counter count member =>
        rising.held live holds counter count (whole.subset member)
  | @successor close held opening desk landed live zero opened =>
      have kept : carried key
          { before with
            held := some { held with counter := none, served := held.served - close.count }
            desk := .writing [.opening opening] none } = before.carried key := by
        simp [carried, desk, List.filterMap_cons]
      refine .of_not_reading rfl (kept ▸ rising.sorted) ?_
      rintro _ ⟨⟩ counts
      cases counts

end Account

end CommunityLb
