import CommunityLb.Marketplace.Effect

/-!
# One flush from its page to its last batch

A scheduled flush reads the open counter records, writes what memory counted and ends what no
agreement counts into, and opens a successor for each record it closed.
-/

namespace CommunityLb

/-! ## Open records -/

/-- A counter record that is open on the chain. -/
structure Chain.Opens (me : Address) (chain : Chain) (stored : Stored CounterRecord) : Prop where
  found : chain.entities.get? stored.key = some stored.row
  lives : chain.head < stored.expiresAt
  present : stored.key ∉ chain.gone
  creator : stored.creator = me
  state : stored.record.state = .opened

/-- Any record of an agreement is the one it counts into, or a duplicate. -/
theorem oldestPerAgreement_all {records : List (Stored CounterRecord)}
    {stored : Stored CounterRecord} (member : stored ∈ records) :
    (oldestPerAgreement records).1.get? stored.record.agreement = some stored ∨
      stored.key ∈ (oldestPerAgreement records).2 := by
  have inSorted := mem_oldestFirst.mpr member
  rw [oldestPerAgreement]
  generalize oldestFirst records = rows at inSorted
  induction rows using List.reverseRecOn with
  | nil => cases inSorted
  | append_singleton rest last ih =>
      rw [List.foldl_append, List.foldl_cons, List.foldl_nil]
      rcases List.mem_append.mp inSorted with earlier | isLast
      · rcases ih earlier with first | younger
        · refine .inl ?_
          rw [placeRecord_get?, first]
          rfl
        · refine .inr ?_
          rw [placeRecord]
          split
          · exact younger
          · exact List.mem_append_left _ younger
      · obtain rfl := List.mem_singleton.mp isLast
        rw [placeRecord]
        split
        · refine .inl ?_
          rw [Keyed.get?_insert]
          exact if_pos rfl
        · exact .inr (List.mem_append_right _ List.mem_cons_self)

/-- A counter record as a batch opens it. -/
structure Chain.OpenedRow (chain : Chain) (me : Address) (next : Chain) (record : CounterRecord)
    (seconds : Nat) (stored : Stored CounterRecord) : Prop where
  found : next.entities.get? stored.key = some stored.row
  lives : chain.head + blocksOf seconds ≤ stored.expiresAt
  present : stored.key ∉ next.gone
  creator : stored.creator = me
  record : stored.record = record

theorem Lands.opens {me : Address} {chain next : Chain} {batch : Batch}
    {patched : List EntityKey} {record : CounterRecord} {seconds : Nat}
    (lands : Lands me chain batch next patched) (kept : chain.Kept)
    (targets : ∀ operation ∈ batch, ∀ key, operation.target = some key →
      (chain.entities.get? key).isSome)
    (member : .create (.counter record) seconds ∈ batch) :
    ∃ stored, chain.OpenedRow me next record seconds stored := by
  obtain ⟨row, created⟩ := lands.creates targets member
  obtain ⟨key, creator, createdAt, expiresAt, rowRecord⟩ := row
  obtain rfl : rowRecord = .counter record := created.record
  have unknown : (chain.entities.get? key).isSome → False := by
    intro known
    have free : chain.entities.get? key = none := created.free
    rw [free] at known
    cases known
  refine ⟨⟨key, creator, createdAt, expiresAt, record⟩, created.found, created.expiresAt, ?_,
    created.creator, rfl⟩
  intro gone
  rcases lands.gone.mp gone with before | deleted
  · exact unknown (kept key before)
  · exact unknown (targets _ deleted key rfl)

theorem Agent.get?_live {agent : Agent} {live : Live} (member : live ∈ agent.agreements.values) :
    agent.agreements.get? live.key = some live :=
  Keyed.get?_key member

/-- An agreement memory has. -/
def Agent.has (agent : Agent) (agreement : EntityKey) : Bool :=
  (agent.agreements.get? agreement).isSome

theorem Agent.Retains.has {before after : Agent} (retains : before.Retains after)
    (agreement : EntityKey) : after.has agreement = before.has agreement := by
  have same := congrArg Option.isSome (retains.stands agreement)
  rwa [Agent.stands, Agent.stands, Option.isSome_map, Option.isSome_map] at same

/-! ## A flush -/

/-- The open counter records are read: the page, the lookups of the records memory misses, and
memory as it is matched to them. -/
structure CounterRead (chain : Chain) (agent : Agent) where
  /-- The head, read before the page is. -/
  head : Nat
  earlier : head ≤ chain.head
  shown : List EntityKey
  rows : List (Stored Record)
  page : chain.page (agent.countersQuery head) shown = some rows
  fits : chain.count (agent.countersQuery head) ≤ PAGE_LIMIT
  order : List EntityKey
  /-- Memory as the reads find it; requests are served meanwhile. -/
  base : Agent
  retained : agent.Retains base
  closed : List (EntityKey × Nat)
  looked : ∀ found ∈ closed, found.1 ∈ (base.missingCounters
    ((oldestPerAgreement (rows.filterMap (Stored.decode Record.asCounter))).1.reorder
      order)).map Prod.fst

namespace CounterRead

variable {chain : Chain} {agent : Agent} (read : CounterRead chain agent)

/-- The open records. -/
def records : List (Stored CounterRecord) :=
  read.rows.filterMap (Stored.decode Record.asCounter)

/-- The record each agreement counts into. -/
def opened : CountersByAgreement :=
  (oldestPerAgreement read.records).1.reorder read.order

/-- The records no agreement counts into, a younger one each. -/
def duplicates : List EntityKey :=
  (oldestPerAgreement read.records).2

/-- Memory after the reconcile. -/
def matched : Agent :=
  (read.base.forgetClosedCounters read.closed).matchToAgreements read.opened

/-- What the reconcile tells the flush. -/
def counters : Counters :=
  read.matched.countersRead read.opened read.duplicates

end CounterRead

/-- One scheduled flush of an agent, every batch of it answered as landed. -/
structure FlushRun (chain : Chain) (agent : Agent) extends CounterRead chain agent where
  /-- Memory as the counts are read. -/
  counting : Agent
  counted : toCounterRead.matched.Retains counting
  middle : Chain
  patched : List EntityKey
  counts : Lands agent.identity.address chain
    (counting.countsBatch toCounterRead.counters head .scheduled).1 middle patched
  /-- Memory as the first batch is answered. -/
  answered : Agent
  answers : counting.Retains answered
  next : Chain
  named : List EntityKey
  successors : Lands agent.identity.address middle
    (answered.endPeriods (counting.countsBatch toCounterRead.counters head .scheduled).2
      patched head).2 next named

namespace CounterRead

variable {chain : Chain} {agent : Agent} (read : CounterRead chain agent)

/-- The flush reads exactly the records that are open. -/
theorem mem_records {stored : Stored CounterRecord} :
    stored ∈ read.records ↔ chain.Opens agent.identity.address stored := by
  have admits : ∀ stored : Stored CounterRecord,
      (agent.countersQuery read.head).admits stored.row = true ↔
        stored.creator = agent.identity.address ∧ stored.record.state = .opened ∧
          read.head < stored.expiresAt := by
    intro stored
    simp only [Query.admits, Agent.countersQuery, Stored.row, Record.kind, Record.isOpen]
    simp only [decide_true, Option.all_some, Option.all_none, Bool.true_and, Bool.and_true,
      Bool.not_true, Bool.false_or, Bool.and_eq_true, and_assoc]
    exact and_congr decide_eq_true_iff (and_congr decide_eq_true_iff decide_eq_true_iff)
  constructor
  · intro member
    obtain ⟨row, inRows, decoded⟩ := List.mem_filterMap.mp member
    obtain rfl := Stored.decode_counter.mp decoded
    obtain ⟨inChain, alive, admitted⟩ := Chain.page_mem read.page inRows
    obtain ⟨creator, state, _⟩ := (admits stored).mp admitted
    obtain ⟨lives, present⟩ := of_decide_eq_true alive
    exact ⟨Keyed.get?_key inChain, lives, present, creator, state⟩
  · intro opens
    have inChain := (Keyed.get?_eq_some.mp opens.found).1
    have inRows := Chain.page_whole read.page read.fits inChain
      (decide_eq_true ⟨opens.lives, opens.present⟩)
      ((admits stored).mpr ⟨opens.creator, opens.state, read.earlier.trans_lt opens.lives⟩)
    exact List.mem_filterMap.mpr ⟨stored.row, inRows, Stored.decode_counter.mpr rfl⟩

/-- A record that is read is told by its key. -/
theorem records_distinct : (read.records.map Stored.key).Nodup := by
  have distinct := Chain.page_distinct read.page
  have part : (read.records.map Stored.key).Sublist (read.rows.map Stored.key) := by
    rw [records]
    induction read.rows with
    | nil => exact .slnil
    | cons row rows ih =>
        rw [List.filterMap_cons]
        split
        · exact ih.cons _
        · next stored decoded =>
            rw [Stored.decode_counter.mp decoded]
            exact ih.cons_cons _
  exact distinct.sublist part

theorem records_eq {first second : Stored CounterRecord} (inFirst : first ∈ read.records)
    (inSecond : second ∈ read.records) (same : first.key = second.key) : first = second :=
  List.inj_on_of_nodup_map read.records_distinct inFirst inSecond same

theorem opened_get? (agreement : EntityKey) :
    read.opened.get? agreement = (oldestPerAgreement read.records).1.get? agreement :=
  Keyed.get?_reorder _ _ _

theorem opened_mem {agreement : EntityKey} {stored : Stored CounterRecord}
    (found : read.opened.get? agreement = some stored) :
    stored ∈ read.records ∧ stored.record.agreement = agreement := by
  rw [read.opened_get?] at found
  obtain ⟨member, same, _⟩ := oldestPerAgreement_some found
  exact ⟨member, same⟩

/-- An agreement that has open records counts into one of them. -/
theorem opened_exists {stored : Stored CounterRecord} (member : stored ∈ read.records) :
    ∃ first, read.opened.get? stored.record.agreement = some first := by
  rw [read.opened_get?, ← Option.ne_none_iff_exists']
  intro none
  exact oldestPerAgreement_none.mp none stored member rfl

/-- A record is the one its agreement counts into, or a younger duplicate. -/
theorem mem_duplicates {stored : Stored CounterRecord} (member : stored ∈ read.records) :
    stored.key ∈ read.duplicates ↔ read.opened.get? stored.record.agreement ≠ some stored := by
  rw [read.opened_get?]
  constructor
  · intro younger
    obtain ⟨other, inOther, same, differs⟩ :=
      oldestPerAgreement_younger read.records_distinct younger
    rwa [read.records_eq inOther member same] at differs
  · intro differs
    exact (oldestPerAgreement_all member).resolve_left differs

theorem matched_retains : agent.Retains read.matched :=
  (read.retained.trans (read.base.forgetClosedCounters_retains read.closed)).trans
    (Agent.matchToAgreements_retains _ read.opened)

/-- A record that counts for an agreement in memory. -/
theorem counters_opened (agreement : EntityKey) :
    read.counters.opened.get? agreement =
      if agent.has agreement then read.opened.get? agreement else none := by
  have known := read.matched_retains.has agreement
  have filtered := Keyed.get?_filter read.opened
    (fun stored => (read.matched.agreements.get? stored.record.agreement).isSome) agreement
  refine filtered.trans ?_
  cases found : read.opened.get? agreement with
  | none => simp
  | some stored =>
      rw [(Option.filter_some), (read.opened_mem found).2]
      rw [Agent.has] at known
      rw [known]

/-- A record of no agreement in memory. -/
theorem mem_strays {stored : Stored CounterRecord} :
    stored ∈ read.counters.strays ↔
      read.opened.get? stored.record.agreement = some stored ∧
        agent.has stored.record.agreement = false := by
  have known := read.matched_retains.has stored.record.agreement
  rw [Agent.has] at known
  constructor
  · intro member
    obtain ⟨inOpened, stray⟩ := List.mem_filter.mp member
    refine ⟨Keyed.get?_key inOpened, ?_⟩
    rw [← known]
    simpa using stray
  · rintro ⟨found, stray⟩
    rw [← known] at stray
    exact List.mem_filter.mpr ⟨(Keyed.get?_eq_some.mp found).1, by simpa using stray⟩

end CounterRead

/-! ## The first batch -/

namespace FlushRun

variable {chain : Chain} {agent : Agent} (run : FlushRun chain agent)

/-- The first batch. -/
def batch : Batch :=
  (run.counting.countsBatch run.counters run.head .scheduled).1

/-- The closes the first batch asks for. -/
def closing : List Closing :=
  (run.counting.countsBatch run.counters run.head .scheduled).2

/-- The second batch. -/
def second : Batch :=
  (run.answered.endPeriods run.closing run.patched run.head).2

/-- Memory after the flush. -/
def after : Agent :=
  (run.answered.endPeriods run.closing run.patched run.head).1

/-- The agreement's period is over, and it served something in it. -/
def IsOver (live : Live) (stored : Stored CounterRecord) : Prop :=
  run.counting.pool.served live.provider > 0 ∧
    run.head ≥ stored.record.openedBlock + blocks run.counting.config.settlementPeriod

instance (live : Live) (stored : Stored CounterRecord) : Decidable (run.IsOver live stored) :=
  inferInstanceAs (Decidable (_ ∧ _))

/-- What the first batch makes of the record an agreement counts into. -/
def rewritten (live : Live) (stored : Stored CounterRecord) : CounterRecord :=
  let served := run.counting.pool.served live.provider
  if run.IsOver live stored then CommunityLb.closed stored.record served run.head
  else CommunityLb.counted stored served

theorem counting_retains : agent.Retains run.counting :=
  run.matched_retains.trans run.counted

theorem answered_retains : agent.Retains run.answered :=
  run.counting_retains.trans run.answers

/-- An agreement in memory, as the counts are read. -/
theorem counting_live {agreement : EntityKey} (known : agent.has agreement = true) :
    ∃ live ∈ run.counting.agreements.values, live.key = agreement := by
  rw [← run.counting_retains.has agreement, Agent.has, Option.isSome_iff_exists] at known
  obtain ⟨live, found⟩ := known
  exact ⟨live, Keyed.get?_eq_some.mp found⟩

theorem counting_has {live : Live} (member : live ∈ run.counting.agreements.values) :
    agent.has live.key = true := by
  rw [← run.counting_retains.has live.key, Agent.has, Agent.get?_live member]
  rfl

theorem counting_eq {first second : Live} (inFirst : first ∈ run.counting.agreements.values)
    (inSecond : second ∈ run.counting.agreements.values) (same : first.key = second.key) :
    first = second :=
  Keyed.eq_of_mem inFirst inSecond same

theorem mem_batch {operation : Operation} :
    operation ∈ run.batch ↔
      (∃ key ∈ run.duplicates, operation = .delete key) ∨
        (∃ stray ∈ run.counters.strays, operation = Agent.strayWrite run.head stray) ∨
          ∃ live ∈ run.counting.agreements.values,
            (run.counting.countsOf run.counters run.head .scheduled live).1 = some operation := by
  simp [batch, Agent.countsBatch, CounterRead.counters, Agent.countersRead, eq_comm]

theorem mem_closing {close : Closing} :
    close ∈ run.closing ↔ ∃ live ∈ run.counting.agreements.values,
      (run.counting.countsOf run.counters run.head .scheduled live).2 = some close := by
  simp [closing, Agent.countsBatch]

/-- What the flush does about an agreement that has a record. -/
theorem countsOf_some {live : Live} {stored : Stored CounterRecord}
    (member : live ∈ run.counting.agreements.values)
    (found : run.opened.get? live.key = some stored) :
    run.counting.countsOf run.counters run.head .scheduled live =
      if run.IsOver live stored then
        (some (patchRecord stored.key (run.rewritten live stored)),
          some { agreement := live.key, counter := stored.key,
                 count := run.counting.pool.served live.provider })
      else if stored.record.count = run.counting.pool.served live.provider then (none, none)
      else (some (patchRecord stored.key (run.rewritten live stored)), none) := by
  have isCounter : run.counters.opened.get? live.key = some stored := by
    rw [run.counters_opened, if_pos (run.counting_has member), found]
  rw [Agent.countsOf, isCounter]
  by_cases isOver : run.IsOver live stored
  · simp only [rewritten, if_pos isOver, true_and]
    exact if_pos isOver
  · simp only [rewritten, if_neg isOver, true_and]
    exact if_neg isOver

/-- An agreement without a record gets one. -/
theorem countsOf_none {live : Live}
    (found : run.opened.get? live.key = none) :
    run.counting.countsOf run.counters run.head .scheduled live =
      (some (.create
        (.counter (freshCounter live.key live.agreement.record live.agreement.record.weiPerCall
          run.head)) run.counting.config.counterRecordLife.asSecs), none) := by
  have isCounter : run.counters.opened.get? live.key = none := by
    rw [run.counters_opened, found]
    exact ite_self _
  rw [Agent.countsOf, isCounter]

/-- An operation that names a row names one that was read, and is the one its place calls for. -/
theorem batch_target {operation : Operation} {key : EntityKey} (member : operation ∈ run.batch)
    (names : operation.target = some key) :
    ∃ stored ∈ run.records, stored.key = key ∧
      ((key ∈ run.duplicates ∧ operation = .delete key) ∨
        (stored ∈ run.counters.strays ∧ operation = Agent.strayWrite run.head stored) ∨
          ∃ live ∈ run.counting.agreements.values,
            run.opened.get? live.key = some stored ∧
              operation = patchRecord key (run.rewritten live stored)) := by
  rcases run.mem_batch.mp member with ⟨other, younger, rfl⟩ | ⟨stray, isStray, rfl⟩ | ⟨live, inLive,
    counts⟩
  · obtain rfl : other = key := Option.some.inj names
    obtain ⟨stored, inStored, same, _⟩ := oldestPerAgreement_younger run.records_distinct younger
    exact ⟨stored, inStored, same, .inl ⟨younger, rfl⟩⟩
  · have same : stray.key = key := by
      rw [Agent.strayWrite] at names
      split at names <;> exact Option.some.inj names
    exact ⟨stray, (run.opened_mem (run.mem_strays.mp isStray).1).1, same, .inr (.inl ⟨isStray, rfl⟩)⟩
  · cases found : run.opened.get? live.key with
    | none =>
        rw [run.countsOf_none found] at counts
        cases counts
        cases names
    | some stored =>
        rw [run.countsOf_some inLive found] at counts
        have isPatch : operation = patchRecord stored.key (run.rewritten live stored) := by
          split at counts
          · exact (Option.some.inj counts).symm
          · split at counts
            · cases counts
            · exact (Option.some.inj counts).symm
        rw [isPatch] at names
        have same : stored.key = key := Option.some.inj names
        exact ⟨stored, (run.opened_mem found).1, same,
          .inr (.inr ⟨live, inLive, found, same ▸ isPatch⟩)⟩

theorem batch_lands : Lands agent.identity.address chain run.batch run.middle run.patched :=
  run.counts

theorem second_lands : Lands agent.identity.address run.middle run.second run.next run.named :=
  run.successors

theorem batch_targets (operation : Operation) (member : operation ∈ run.batch) (key : EntityKey)
    (names : operation.target = some key) : (chain.entities.get? key).isSome := by
  obtain ⟨stored, inStored, rfl, _⟩ := run.batch_target member names
  rw [(run.mem_records.mp inStored).found]
  rfl

/-! ### What it leaves of the rows -/

/-- The first batch deletes the younger duplicates and the strays that counted nothing. -/
theorem middle_gone {key : EntityKey} :
    key ∈ run.middle.gone ↔ key ∈ chain.gone ∨ key ∈ run.duplicates ∨
      ∃ stray ∈ run.counters.strays, stray.key = key ∧ stray.record.count = 0 := by
  rw [run.batch_lands.gone]
  refine or_congr Iff.rfl ?_
  constructor
  · intro member
    obtain ⟨stored, _, same, ⟨younger, _⟩ | ⟨isStray, isWrite⟩ | ⟨_, _, _, isPatch⟩⟩ :=
      run.batch_target member rfl
    · exact .inl younger
    · refine .inr ⟨stored, isStray, same, ?_⟩
      rw [Agent.strayWrite] at isWrite
      split at isWrite
      · assumption
      · cases isWrite
    · cases isPatch
  · rintro (younger | ⟨stray, isStray, rfl, zero⟩)
    · exact run.mem_batch.mpr (.inl ⟨key, younger, rfl⟩)
    · refine run.mem_batch.mpr (.inr (.inl ⟨stray, isStray, ?_⟩))
      rw [Agent.strayWrite, if_pos zero]

/-- A record an agreement counts into is neither a duplicate nor a stray. -/
theorem counted_place {live : Live} {stored : Stored CounterRecord}
    (member : live ∈ run.counting.agreements.values)
    (found : run.opened.get? live.key = some stored) :
    stored.key ∉ run.duplicates ∧ stored ∉ run.counters.strays := by
  obtain ⟨inRecords, same⟩ := run.opened_mem found
  constructor
  · intro younger
    exact (run.mem_duplicates inRecords).mp younger (same ▸ found)
  · intro isStray
    have unknown := (run.mem_strays.mp isStray).2
    rw [same, run.counting_has member] at unknown
    cases unknown

theorem set_rewritten (live : Live) {stored : Stored CounterRecord}
    (isOpen : stored.record.state = .opened) :
    (Record.counter stored.record).set (.counter (run.rewritten live stored).payload
      (if (run.rewritten live stored).state = .closed then some .closed else none)) =
        .counter (run.rewritten live stored) := by
  rw [rewritten]
  split
  · rfl
  · simp [CommunityLb.counted, isOpen, Record.set, CounterRecord.payload]

/-- The record an agreement counts into, after the first batch. -/
theorem middle_counted {live : Live} {stored : Stored CounterRecord}
    (member : live ∈ run.counting.agreements.values)
    (found : run.opened.get? live.key = some stored) :
    run.middle.entities.get? stored.key =
      some { stored.row with record := .counter (run.rewritten live stored) } := by
  obtain ⟨inRecords, same⟩ := run.opened_mem found
  obtain ⟨notYounger, notStray⟩ := run.counted_place member found
  have opens := run.mem_records.mp inRecords
  have only : ∀ operation ∈ run.batch, operation.target = some stored.key →
      operation = patchRecord stored.key (run.rewritten live stored) := by
    intro operation inBatch names
    obtain ⟨other, inOther, isKey, place⟩ := run.batch_target inBatch names
    obtain rfl := run.records_eq inOther inRecords isKey
    rcases place with ⟨younger, _⟩ | ⟨isStray, _⟩ | ⟨second, inSecond, isOpened, isPatch⟩
    · exact absurd younger notYounger
    · exact absurd isStray notStray
    · have sameKey : second.key = live.key := (run.opened_mem isOpened).2.symm.trans same
      rw [isPatch, run.counting_eq inSecond member sameKey]
  by_cases named : patchRecord stored.key (run.rewritten live stored) ∈ run.batch
  · have patched := run.batch_lands.patches opens.found only named
    rw [patched]
    exact congrArg (fun record => some { stored.row with record := record })
      (run.set_rewritten live opens.state)
  · have others : ∀ operation ∈ run.batch, operation.target ≠ some stored.key := by
      intro operation inBatch names
      exact named (only operation inBatch names ▸ inBatch)
    rw [run.batch_lands.other opens.found others]
    have counts := run.countsOf_some member found
    have unchanged : run.rewritten live stored = stored.record := by
      by_cases isOver : run.IsOver live stored
      · rw [if_pos isOver] at counts
        exact absurd (run.mem_batch.mpr (.inr (.inr ⟨live, member, by rw [counts]⟩))) named
      · rw [if_neg isOver] at counts
        by_cases equal : stored.record.count = run.counting.pool.served live.provider
        · simp [rewritten, isOver, CommunityLb.counted, ← equal]
        · rw [if_neg equal] at counts
          exact absurd (run.mem_batch.mpr (.inr (.inr ⟨live, member, by rw [counts]⟩))) named
    rw [unchanged]
    rfl

/-- A stray that counted something is closed with what it counted. -/
theorem middle_stray {stray : Stored CounterRecord} (isStray : stray ∈ run.counters.strays)
    (counted : stray.record.count ≠ 0) :
    run.middle.entities.get? stray.key =
      some { stray.row with
        record := .counter (CommunityLb.closed stray.record stray.record.count run.head) } := by
  obtain ⟨isOpened, unknown⟩ := run.mem_strays.mp isStray
  obtain ⟨inRecords, _⟩ := run.opened_mem isOpened
  have opens := run.mem_records.mp inRecords
  have isPatch : Agent.strayWrite run.head stray =
      patchRecord stray.key (CommunityLb.closed stray.record stray.record.count run.head) := by
    rw [Agent.strayWrite, if_neg counted]
  have only : ∀ operation ∈ run.batch, operation.target = some stray.key →
      operation = patchRecord stray.key
        (CommunityLb.closed stray.record stray.record.count run.head) := by
    intro operation inBatch names
    obtain ⟨other, inOther, isKey, place⟩ := run.batch_target inBatch names
    obtain rfl := run.records_eq inOther inRecords isKey
    rcases place with ⟨younger, _⟩ | ⟨_, isWrite⟩ | ⟨live, inLive, isCounted, _⟩
    · exact absurd isOpened ((run.mem_duplicates inRecords).mp younger)
    · exact isWrite.trans isPatch
    · exact absurd isStray (run.counted_place inLive isCounted).2
  have named := run.mem_batch.mpr (.inr (.inl ⟨stray, isStray, isPatch.symm⟩))
  exact run.batch_lands.patches opens.found only named

/-! ## The second batch -/

end FlushRun

namespace Agent

/-- What opens after a close that landed. -/
def successor (agent : Agent) (head : Nat) (close : Closing) : Option Operation :=
  (agent.stands close.agreement).map fun kept =>
    .create (.counter (freshCounter close.agreement kept.1.record kept.1.record.weiPerCall head))
      agent.config.counterRecordLife.asSecs

theorem Retains.successor {before after : Agent} (retains : before.Retains after) (head : Nat)
    (close : Closing) : after.successor head close = before.successor head close := by
  rw [Agent.successor, Agent.successor, retains.stands, retains.config]

theorem endPeriod_batch (head : Nat) (ended : Agent × Batch) (close : Closing) :
    (endPeriod head ended close).2 = ended.2 ++ (ended.1.successor head close).toList := by
  rw [endPeriod, successor, stands]
  cases found : ended.1.agreements.get? close.agreement with
  | none => simp
  | some live => rfl

theorem endPeriods_batch (agent : Agent) (closing : List Closing) (patched : List EntityKey)
    (head : Nat) :
    (agent.endPeriods closing patched head).2 =
      (closing.filter (·.counter ∈ patched)).filterMap (agent.successor head) := by
  rw [endPeriods]
  suffices ∀ (closes : List Closing) (ended : Agent × Batch),
      (closes.foldl (endPeriod head) ended).2 =
        ended.2 ++ closes.filterMap (ended.1.successor head) by
    simpa using this (closing.filter (·.counter ∈ patched)) (agent, [])
  intro closes
  induction closes with
  | nil => simp
  | cons close closes ih =>
      intro ended
      have same : (endPeriod head ended close).1.successor head = ended.1.successor head :=
        funext ((endPeriod_retains head ended close).successor head)
      rw [List.foldl_cons, ih, endPeriod_batch, same, List.append_assoc]
      cases found : ended.1.successor head close <;> simp [found]

end Agent

/-- What a list gives is told apart by what it is read from. -/
theorem nodup_filterMap {α β : Type} {list : List α} {name : α → β} {read : α → Option β}
    (distinct : (list.map name).Nodup)
    (keeps : ∀ value ∈ list, ∀ given, read value = some given → name value = given) :
    (list.filterMap read).Nodup := by
  rw [List.Nodup, List.pairwise_filterMap]
  rw [List.Nodup, List.pairwise_map] at distinct
  refine distinct.imp_of_mem fun {first second} inFirst inSecond differs => ?_
  intro one isOne two isTwo same
  apply differs
  rw [keeps first inFirst one isOne, keeps second inSecond two isTwo, same]

namespace FlushRun

variable {chain : Chain} {agent : Agent} (run : FlushRun chain agent)

theorem mem_closing_iff {close : Closing} :
    close ∈ run.closing ↔ ∃ live ∈ run.counting.agreements.values, ∃ stored,
      run.opened.get? live.key = some stored ∧ run.IsOver live stored ∧
        close = { agreement := live.key, counter := stored.key,
                  count := run.counting.pool.served live.provider } := by
  rw [run.mem_closing]
  constructor
  · rintro ⟨live, member, closes⟩
    cases found : run.opened.get? live.key with
    | none =>
        rw [run.countsOf_none found] at closes
        cases closes
    | some stored =>
        rw [run.countsOf_some member found] at closes
        split at closes
        · next isOver => exact ⟨live, member, stored, found, isOver, (Option.some.inj closes).symm⟩
        · split at closes <;> cases closes
  · rintro ⟨live, member, stored, found, isOver, rfl⟩
    refine ⟨live, member, ?_⟩
    rw [run.countsOf_some member found, if_pos isOver]

/-- A close is asked for once per agreement. -/
theorem closing_distinct : (run.closing.map Closing.agreement).Nodup := by
  have isMap : run.closing.map Closing.agreement = run.counting.agreements.values.filterMap
      fun live => ((run.counting.countsOf run.counters run.head .scheduled live).2).map
        Closing.agreement := by
    simp [closing, Agent.countsBatch, List.map_filterMap]
  rw [isMap]
  apply nodup_filterMap run.counting.agreements.distinct
  intro live member agreement isSome
  obtain ⟨close, closes, rfl⟩ := Option.map_eq_some_iff.mp isSome
  cases found : run.opened.get? live.key with
  | none =>
      rw [run.countsOf_none found] at closes
      cases closes
  | some stored =>
      rw [run.countsOf_some member found] at closes
      split at closes
      · rw [← Option.some.inj closes]
      · split at closes <;> cases closes

/-- Every close the first batch asked for landed. -/
theorem closing_patched {close : Closing} (member : close ∈ run.closing) :
    close.counter ∈ run.patched := by
  obtain ⟨live, inLive, stored, found, isOver, rfl⟩ := run.mem_closing_iff.mp member
  have counts := run.countsOf_some inLive found
  rw [if_pos isOver] at counts
  exact run.batch_lands.mem_patched.mpr
    ⟨_, run.mem_batch.mpr (.inr (.inr ⟨live, inLive, by rw [counts]; rfl⟩))⟩

/-- The record that opens for an agreement. -/
def opening (live : Live) : Operation :=
  .create
    (.counter (freshCounter live.key live.agreement.record live.agreement.record.weiPerCall
      run.head))
    agent.config.counterRecordLife.asSecs

theorem second_eq : run.second = run.closing.filterMap (run.answered.successor run.head) := by
  have all : run.closing.filter (·.counter ∈ run.patched) = run.closing :=
    List.filter_eq_self.mpr fun close member => decide_eq_true (run.closing_patched member)
  rw [second, Agent.endPeriods_batch, all]

theorem successor_eq {live : Live} (member : live ∈ run.counting.agreements.values)
    (counter : EntityKey) (count : Nat) :
    run.answered.successor run.head
      { agreement := live.key, counter := counter, count := count } = some (run.opening live) := by
  have stands : run.answered.stands live.key = some (live.agreement, live.provider) := by
    rw [run.answers.stands]
    exact Agent.stands_eq_some.mpr ⟨live, member, rfl, rfl, rfl⟩
  rw [Agent.successor, stands, run.answered_retains.config]
  rfl

/-- The second batch opens a record for each one that was closed. -/
theorem mem_second {operation : Operation} :
    operation ∈ run.second ↔ ∃ live ∈ run.counting.agreements.values, ∃ stored,
      run.opened.get? live.key = some stored ∧ run.IsOver live stored ∧
        operation = run.opening live := by
  rw [run.second_eq, List.mem_filterMap]
  constructor
  · rintro ⟨close, member, opens⟩
    obtain ⟨live, inLive, stored, found, isOver, rfl⟩ := run.mem_closing_iff.mp member
    rw [run.successor_eq inLive] at opens
    exact ⟨live, inLive, stored, found, isOver, (Option.some.inj opens).symm⟩
  · rintro ⟨live, inLive, stored, found, isOver, rfl⟩
    exact ⟨_, run.mem_closing_iff.mpr ⟨live, inLive, stored, found, isOver, rfl⟩,
      run.successor_eq inLive _ _⟩

theorem second_target {operation : Operation} (member : operation ∈ run.second) :
    operation.target = none := by
  obtain ⟨live, _, _, _, _, rfl⟩ := run.mem_second.mp member
  rfl

theorem second_others (key : EntityKey) (operation : Operation) (member : operation ∈ run.second) :
    operation.target ≠ some key := by
  rw [run.second_target member]
  exact (Option.some_ne_none key).symm

theorem second_targets (operation : Operation) (member : operation ∈ run.second) (key : EntityKey)
    (names : operation.target = some key) : (run.middle.entities.get? key).isSome :=
  absurd names (run.second_others key operation member)

/-- The second batch opens one record per agreement. -/
theorem second_counts : (run.second.filterMap Operation.counts).Nodup := by
  rw [run.second_eq, List.filterMap_filterMap]
  apply nodup_filterMap run.closing_distinct
  intro close member agreement counts
  obtain ⟨live, inLive, stored, found, isOver, rfl⟩ := run.mem_closing_iff.mp member
  rw [run.successor_eq inLive] at counts
  exact Option.some.inj counts

/-- The first batch opens one record per agreement. -/
theorem batch_counts : (run.batch.filterMap Operation.counts).Nodup := by
  have isMap : run.batch.filterMap Operation.counts = run.counting.agreements.values.filterMap
      fun live => ((run.counting.countsOf run.counters run.head .scheduled live).1).bind
        Operation.counts := by
    have deletes : (run.counters.duplicates.map Operation.delete).filterMap Operation.counts =
        [] := by
      rw [List.filterMap_map]
      exact List.filterMap_eq_nil_iff.mpr fun _ _ => rfl
    have strays : (run.counters.strays.map (Agent.strayWrite run.head)).filterMap
        Operation.counts = [] := by
      rw [List.filterMap_map]
      refine List.filterMap_eq_nil_iff.mpr fun stray _ => ?_
      rw [Function.comp, Agent.strayWrite]
      split <;> rfl
    simp [batch, Agent.countsBatch, List.filterMap_append, deletes, strays,
      List.filterMap_filterMap]
  rw [isMap]
  apply nodup_filterMap run.counting.agreements.distinct
  intro live member agreement isSome
  obtain ⟨operation, counts, opens⟩ := Option.bind_eq_some_iff.mp isSome
  cases found : run.opened.get? live.key with
  | none =>
      rw [run.countsOf_none found] at counts
      cases counts
      exact Option.some.inj opens
  | some stored =>
      rw [run.countsOf_some member found] at counts
      split at counts
      · cases counts
        cases opens
      · split at counts
        · cases counts
        · cases counts
          cases opens

/-! ### What stands open after it -/

/-- A row the second batch finds stays as it is. -/
theorem next_row {key : EntityKey} {row : Stored Record}
    (found : run.middle.entities.get? key = some row) : run.next.entities.get? key = some row :=
  run.second_lands.other found (run.second_others key)

/-- The second batch deletes nothing. -/
theorem next_gone {key : EntityKey} : key ∈ run.next.gone ↔ key ∈ run.middle.gone := by
  rw [run.second_lands.gone]
  refine or_iff_left fun member => ?_
  exact run.second_others key _ member rfl

theorem head_le : chain.head ≤ run.middle.head ∧ run.middle.head ≤ run.next.head :=
  ⟨run.batch_lands.head, run.second_lands.head⟩

/-- What is read is a duplicate, a stray, or what an agreement in memory counts into. -/
theorem place {stored : Stored CounterRecord} (member : stored ∈ run.records) :
    stored.key ∈ run.duplicates ∨ stored ∈ run.counters.strays ∨
      ∃ live ∈ run.counting.agreements.values, run.opened.get? live.key = some stored := by
  by_cases younger : stored.key ∈ run.duplicates
  · exact .inl younger
  · rw [run.mem_duplicates member, not_not] at younger
    cases known : agent.has stored.record.agreement with
    | false => exact .inr (.inl (run.mem_strays.mpr ⟨younger, known⟩))
    | true =>
        obtain ⟨live, inLive, isKey⟩ := run.counting_live known
        exact .inr (.inr ⟨live, inLive, isKey ▸ younger⟩)

/-- A record that is open after the first batch, of the ones the flush read, is what an agreement
counts into whose period goes on. -/
theorem middle_place {stored now : Stored CounterRecord} (member : stored ∈ run.records)
    (same : now.key = stored.key)
    (found : run.middle.entities.get? now.key = some now.row) (present : now.key ∉ run.middle.gone)
    (isOpen : now.record.state = .opened) :
    ∃ live ∈ run.counting.agreements.values, run.opened.get? live.key = some stored ∧
      ¬run.IsOver live stored ∧ now.record.agreement = live.key := by
  rw [same] at found present
  rw [run.middle_gone, not_or, not_or] at present
  obtain ⟨_, notYounger, notZero⟩ := present
  rcases run.place member with younger | isStray | ⟨live, inLive, isOpened⟩
  · exact absurd younger notYounger
  · have counted : stored.record.count ≠ 0 :=
      fun zero => notZero ⟨stored, isStray, rfl, zero⟩
    rw [run.middle_stray isStray counted] at found
    have isRecord : CommunityLb.closed stored.record stored.record.count run.head = now.record :=
      Record.counter.inj (congrArg Stored.record (Option.some.inj found))
    rw [← isRecord] at isOpen
    cases isOpen
  · rw [run.middle_counted inLive isOpened] at found
    have isRecord : run.rewritten live stored = now.record :=
      Record.counter.inj (congrArg Stored.record (Option.some.inj found))
    refine ⟨live, inLive, isOpened, fun isOver => ?_, ?_⟩
    · rw [← isRecord, rewritten, if_pos isOver] at isOpen
      cases isOpen
    · rw [← isRecord, rewritten, ← (run.opened_mem isOpened).2]
      split <;> rfl

/-- A record that is open after a flush: one an agreement counts into whose period goes on, the
first of an agreement that had none, or the successor of one whose period is over. -/
inductive Origin (stored : Stored CounterRecord) (live : Live) : Prop where
  | counts (first : Stored CounterRecord) (found : run.opened.get? live.key = some first)
      (goes : ¬run.IsOver live first) (same : stored.key = first.key)
  | begins (missing : run.opened.get? live.key = none)
      (found : run.middle.entities.get? stored.key = some stored.row)
      (free : chain.entities.get? stored.key = none)
  | succeeds (first : Stored CounterRecord) (found : run.opened.get? live.key = some first)
      (ended : run.IsOver live first) (free : run.middle.entities.get? stored.key = none)

theorem next_origin {stored : Stored CounterRecord}
    (opens : run.next.Opens agent.identity.address stored) :
    ∃ live ∈ run.counting.agreements.values, live.key = stored.record.agreement ∧
      run.Origin stored live := by
  cases isMiddle : run.middle.entities.get? stored.key with
  | none =>
      rcases run.second_lands.origin run.second_targets opens.found with old | ⟨record, seconds,
        member, isRecord⟩
      · rw [isMiddle] at old
        cases old
      · obtain ⟨live, inLive, first, found, isOver, isOpening⟩ := run.mem_second.mp member
        rw [opening, Operation.create.injEq] at isOpening
        have same := Record.counter.inj (isRecord.trans isOpening.1)
        exact ⟨live, inLive, by rw [same]; rfl, .succeeds first found isOver isMiddle⟩
  | some row =>
      have found : run.middle.entities.get? stored.key = some stored.row := by
        rw [← opens.found, run.next_row isMiddle, isMiddle]
      have present : stored.key ∉ run.middle.gone := run.next_gone.not.mp opens.present
      cases isChain : chain.entities.get? stored.key with
      | none =>
          rcases run.batch_lands.origin run.batch_targets found with old | ⟨record, seconds,
            member, isRecord⟩
          · rw [isChain] at old
            cases old
          · rcases run.mem_batch.mp member with ⟨_, _, isDelete⟩ | ⟨stray, _, isWrite⟩ | ⟨live,
              inLive, counts⟩
            · cases isDelete
            · rw [Agent.strayWrite] at isWrite
              split at isWrite <;> cases isWrite
            · cases isOpened : run.opened.get? live.key with
              | none =>
                  rw [run.countsOf_none isOpened] at counts
                  have isOpening := Operation.create.inj (Option.some.inj counts)
                  have same := Record.counter.inj (isRecord.trans isOpening.1.symm)
                  exact ⟨live, inLive, by rw [same]; rfl, .begins isOpened found isChain⟩
              | some first =>
                  rw [run.countsOf_some inLive isOpened] at counts
                  split at counts
                  · cases counts
                  · split at counts <;> cases counts
      | some before =>
          have read : ∃ first ∈ run.records, stored.key = first.key := by
            by_cases named : ∃ operation ∈ run.batch, operation.target = some stored.key
            · obtain ⟨operation, member, names⟩ := named
              obtain ⟨first, inRecords, same, _⟩ := run.batch_target member names
              exact ⟨first, inRecords, same.symm⟩
            · have others : ∀ operation ∈ run.batch, operation.target ≠ some stored.key :=
                fun operation member names => named ⟨operation, member, names⟩
              have still := run.batch_lands.other isChain others
              rw [found, ← isChain] at still
              have late := (run.head_le.1.trans run.head_le.2).trans_lt opens.lives
              have kept : stored.key ∉ chain.gone :=
                fun gone => present (run.middle_gone.mpr (.inl gone))
              exact ⟨stored, run.mem_records.mpr
                ⟨still.symm, late, kept, opens.creator, opens.state⟩, rfl⟩
          obtain ⟨first, inRecords, same⟩ := read
          obtain ⟨live, inLive, isOpened, goes, isKey⟩ :=
            run.middle_place inRecords same found present opens.state
          exact ⟨live, inLive, isKey.symm, .counts first isOpened goes same⟩

/-- No open record belongs to an agreement memory does not have. -/
theorem next_known {stored : Stored CounterRecord}
    (opens : run.next.Opens agent.identity.address stored) :
    agent.has stored.record.agreement = true := by
  obtain ⟨live, inLive, isKey, _⟩ := run.next_origin opens
  exact isKey ▸ run.counting_has inLive

/-- An agreement has one open record at most. -/
theorem next_unique {first second : Stored CounterRecord}
    (opensFirst : run.next.Opens agent.identity.address first)
    (opensSecond : run.next.Opens agent.identity.address second)
    (same : first.record.agreement = second.record.agreement) : first = second := by
  have byKey : first.key = second.key → first = second := by
    intro sameKey
    have found := opensFirst.found
    rw [sameKey, opensSecond.found] at found
    obtain ⟨key, creator, createdAt, expiresAt, record⟩ := first
    cases second
    simpa [Stored.row, eq_comm] using found
  obtain ⟨live, inLive, isFirst, originFirst⟩ := run.next_origin opensFirst
  obtain ⟨other, inOther, isSecond, originSecond⟩ := run.next_origin opensSecond
  obtain rfl := run.counting_eq inLive inOther (isFirst.trans (same.trans isSecond.symm))
  apply byKey
  cases originFirst with
  | counts one found goes sameOne =>
      cases originSecond with
      | counts two foundTwo _ sameTwo =>
          rw [sameOne, sameTwo, Option.some.inj (found.symm.trans foundTwo)]
      | begins missing => cases found.symm.trans missing
      | succeeds two foundTwo ended =>
          rw [Option.some.inj (found.symm.trans foundTwo)] at goes
          exact absurd ended goes
  | begins missing foundOne freeOne =>
      cases originSecond with
      | counts two foundTwo => cases missing.symm.trans foundTwo
      | begins _ foundTwo freeTwo =>
          exact run.batch_lands.created_unique run.batch_targets run.batch_counts foundOne foundTwo
            freeOne freeTwo same
      | succeeds two foundTwo => cases missing.symm.trans foundTwo
  | succeeds one found ended freeOne =>
      cases originSecond with
      | counts two foundTwo goes =>
          rw [← Option.some.inj (found.symm.trans foundTwo)] at goes
          exact absurd ended goes
      | begins missing => cases found.symm.trans missing
      | succeeds two foundTwo _ freeTwo =>
          exact run.second_lands.created_unique run.second_targets run.second_counts
            opensFirst.found opensSecond.found freeOne freeTwo same

/-- The record an agreement counts into is as open after the flush as before it. -/
theorem next_counts {live : Live} {first : Stored CounterRecord}
    (lasts : run.next.head < first.expiresAt) (inLive : live ∈ run.counting.agreements.values)
    (isOpened : run.opened.get? live.key = some first) (goes : ¬run.IsOver live first) :
    run.next.Opens agent.identity.address
      { first with
        record := CommunityLb.counted first (run.counting.pool.served live.provider) } := by
  obtain ⟨inRecords, same⟩ := run.opened_mem isOpened
  obtain ⟨notYounger, notStray⟩ := run.counted_place inLive isOpened
  have opens := run.mem_records.mp inRecords
  have kept : first.key ∉ run.middle.gone := by
    rw [run.middle_gone, not_or, not_or]
    refine ⟨opens.present, notYounger, ?_⟩
    rintro ⟨stray, isStray, sameKey, _⟩
    have inStray := (run.opened_mem (run.mem_strays.mp isStray).1).1
    rw [run.records_eq inStray inRecords sameKey] at isStray
    exact notStray isStray
  have found := run.next_row (run.middle_counted inLive isOpened)
  rw [rewritten, if_neg goes] at found
  exact ⟨found, lasts, run.next_gone.not.mpr kept, opens.creator, opens.state⟩

/-- The records agreements count into outlive the flush. -/
def Outlived : Prop :=
  ∀ agreement stored, agent.has agreement = true → run.opened.get? agreement = some stored →
    run.next.head < stored.expiresAt

/-- No record a flush leaves open expires before its last batch lands: neither the one an agreement
counts into nor one it opens. -/
structure Lasts : Prop where
  counts : run.Outlived
  opens : run.next.head < chain.head + blocksOf agent.config.counterRecordLife.asSecs

/-- An agreement in memory has an open record. -/
theorem next_opened (kept : chain.Kept) (lasts : run.Lasts) {agreement : EntityKey}
    (known : agent.has agreement = true) :
    ∃ stored, run.next.Opens agent.identity.address stored ∧
      stored.record.agreement = agreement := by
  obtain ⟨live, inLive, rfl⟩ := run.counting_live known
  cases isOpened : run.opened.get? live.key with
  | none =>
      have counts := run.countsOf_none isOpened
      have member := run.mem_batch.mpr (.inr (.inr ⟨live, inLive, by rw [counts]⟩))
      obtain ⟨stored, opened⟩ := run.batch_lands.opens kept run.batch_targets member
      rw [run.counting_retains.config] at opened
      exact ⟨stored,
        { found := run.next_row opened.found
          lives := lasts.opens.trans_le opened.lives
          present := run.next_gone.not.mpr opened.present
          creator := opened.creator
          state := by rw [opened.record]; rfl }, by rw [opened.record]; rfl⟩
  | some first =>
      by_cases isOver : run.IsOver live first
      · have member := run.mem_second.mpr ⟨live, inLive, first, isOpened, isOver, rfl⟩
        obtain ⟨stored, opened⟩ := run.second_lands.opens
          (run.batch_lands.kept kept) run.second_targets member
        have later := Nat.add_le_add_right run.head_le.1
          (blocksOf agent.config.counterRecordLife.asSecs)
        exact ⟨stored,
          { found := opened.found
            lives := lasts.opens.trans_le (later.trans opened.lives)
            present := opened.present
            creator := opened.creator
            state := by rw [opened.record]; rfl }, by rw [opened.record]; rfl⟩
      · exact ⟨_, run.next_counts (lasts.counts live.key first known isOpened) inLive isOpened isOver,
          (run.opened_mem isOpened).2⟩

end FlushRun

end CommunityLb
