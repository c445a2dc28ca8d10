import CommunityLb.Marketplace.Flushing

/-!
# Flushes while nothing is served

A flush leaves every agreement one open record, and a second one what each of them counted.  From
there on a flush has nothing to write, as long as nothing is served and no period or record ends.
-/

namespace CommunityLb

/-- Memory that counts as before: nothing was served, and each agreement has its counter record. -/
structure Agent.Idles (before after : Agent) : Prop where
  retains : before.Retains after
  served : ∀ handle, after.pool.served handle = before.pool.served handle
  counters : ∀ key,
    (after.agreements.get? key).map Live.counter = (before.agreements.get? key).map Live.counter

namespace Agent

variable {before middle after : Agent}

theorem Idles.trans (first : before.Idles middle) (second : middle.Idles after) :
    before.Idles after where
  retains := first.retains.trans second.retains
  served handle := (second.served handle).trans (first.served handle)
  counters key := (second.counters key).trans (first.counters key)

/-- An agreement of the memory after was in the memory before, at its entry. -/
theorem Retains.was (retains : before.Retains after) {live : Live}
    (member : live ∈ after.agreements.values) :
    ∃ was ∈ before.agreements.values, was.key = live.key ∧ was.provider = live.provider := by
  have stands := retains.stands live.key
  rw [stands_eq_some.mpr ⟨live, member, rfl, rfl, rfl⟩] at stands
  obtain ⟨was, inBefore, isKey, _, isProvider⟩ := stands_eq_some.mp stands.symm
  exact ⟨was, inBefore, isKey, isProvider⟩

/-- It counts into the same record. -/
theorem Idles.was (idles : before.Idles after) {live : Live}
    (member : live ∈ after.agreements.values) :
    ∃ was ∈ before.agreements.values, was.key = live.key ∧ was.provider = live.provider ∧
      was.counter = live.counter := by
  obtain ⟨was, inBefore, isKey, isProvider⟩ := idles.retains.was member
  have counters := idles.counters live.key
  rw [Agent.get?_live member, ← isKey,
    Agent.get?_live inBefore] at counters
  exact ⟨was, inBefore, isKey, isProvider, (Option.some.inj counters).symm⟩

/-- Entries count on only where memory held no record. -/
theorem matchToAgreements_pool {agent : Agent} (records : CountersByAgreement)
    (counts : ∀ live ∈ agent.agreements.values, live.counter.isSome) :
    (agent.matchToAgreements records).pool = agent.pool := by
  suffices ∀ (lives : List Live) (pool : Pool), (∀ live ∈ lives, live.counter.isSome) →
      lives.foldl (seedEntry records) pool = pool from this _ _ counts
  intro lives pool counts
  induction lives with
  | nil => rfl
  | cons live lives ih =>
      have same : seedEntry records pool live = pool := by
        have isSome := counts live List.mem_cons_self
        obtain ⟨counter, isCounter⟩ := Option.isSome_iff_exists.mp isSome
        rw [seedEntry, isCounter]
      rw [List.foldl_cons, same]
      exact ih fun other member => counts other (List.mem_cons_of_mem _ member)

end Agent

/-- Each agreement in memory has one open record, and there is no other. -/
structure Chain.Matched (chain : Chain) (agent : Agent) : Prop where
  known : ∀ stored, chain.Opens agent.identity.address stored →
    agent.has stored.record.agreement = true
  unique : ∀ first second, chain.Opens agent.identity.address first →
    chain.Opens agent.identity.address second →
      first.record.agreement = second.record.agreement → first = second
  opened : ∀ agreement, agent.has agreement = true →
    ∃ stored, chain.Opens agent.identity.address stored ∧ stored.record.agreement = agreement

/-- The records have counted what the entries served, and memory knows them. -/
structure Chain.Settled (chain : Chain) (agent : Agent) : Prop extends chain.Matched agent where
  counted : ∀ live ∈ agent.agreements.values, live.counter.isSome ∧
    ∀ stored, chain.Opens agent.identity.address stored → stored.record.agreement = live.key →
      stored.record.count = agent.pool.served live.provider

namespace FlushRun

variable {chain : Chain} {agent : Agent} (run : FlushRun chain agent)

/-- A flush while nothing is served, in which no period and no record ends. -/
structure Quiet : Prop where
  reads : agent.Idles run.base
  counts : run.matched.Idles run.counting
  answers : run.counting.Idles run.answered
  goes : ∀ agreement stored, agent.has agreement = true → run.opened.get? agreement = some stored →
    run.head < stored.record.openedBlock + blocks agent.config.settlementPeriod
  lasts : run.Outlived

variable {run}

/-- A record of an agreement in memory is the one it counts into. -/
theorem opened_matched (matched : chain.Matched agent) {stored : Stored CounterRecord}
    (opens : chain.Opens agent.identity.address stored) :
    run.opened.get? stored.record.agreement = some stored := by
  obtain ⟨first, isFirst⟩ := run.opened_exists (run.mem_records.mpr opens)
  obtain ⟨inRecords, same⟩ := run.opened_mem isFirst
  rw [isFirst, matched.unique first stored (run.mem_records.mp inRecords) opens same]

theorem opened_has (run : FlushRun chain agent) (matched : chain.Matched agent) {agreement : EntityKey}
    (known : agent.has agreement = true) :
    ∃ stored, chain.Opens agent.identity.address stored ∧ stored.record.agreement = agreement ∧
      run.opened.get? agreement = some stored := by
  obtain ⟨stored, opens, rfl⟩ := matched.opened agreement known
  exact ⟨stored, opens, rfl, opened_matched matched opens⟩

theorem base_has {live : Live} (member : live ∈ run.base.agreements.values) :
    agent.has live.key = true := by
  rw [← run.retained.has live.key, Agent.has, Agent.get?_live member]
  rfl

/-- No record is found missing, so none is looked up. -/
theorem closed_nil (matched : chain.Matched agent) : run.closed = [] := by
  have none : run.base.missingCounters run.opened = [] := by
    rw [Agent.missingCounters]
    refine List.filterMap_eq_nil_iff.mpr fun live member => ?_
    obtain ⟨inBase, missing⟩ := List.mem_filter.mp member
    obtain ⟨stored, _, _, found⟩ := opened_has run matched (base_has inBase)
    rw [found] at missing
    cases missing
  refine List.eq_nil_iff_forall_not_mem.mpr fun found member => ?_
  have looked := run.looked found member
  have isNil : (run.base.missingCounters run.opened).map Prod.fst = [] := by rw [none]; rfl
  exact List.not_mem_nil (isNil ▸ looked)

theorem matched_eq (matched : chain.Matched agent) :
    run.matched = run.base.matchToAgreements run.opened := by
  rw [CounterRead.matched, closed_nil matched]
  rfl

/-- Memory knows the record of each of its agreements. -/
theorem matched_counter (matched : chain.Matched agent) {live : Live}
    (member : live ∈ run.matched.agreements.values) : live.counter.isSome := by
  have isLive := Agent.get?_live member
  rw [matched_eq matched] at isLive
  have taken := (Keyed.get?_update run.base.agreements
    (fun live => { live with counter := (run.opened.get? live.key).map openCounter })
    (fun _ => rfl) live.key).symm.trans isLive
  obtain ⟨was, isWas, isLive⟩ := Option.map_eq_some_iff.mp taken
  obtain ⟨stored, _, _, found⟩ :=
    opened_has run matched (base_has (Keyed.get?_eq_some.mp isWas).1)
  rw [← isLive]
  simp only [found, Option.map_some, Option.isSome_some]

theorem not_over (quiet : run.Quiet) {live : Live} {stored : Stored CounterRecord}
    (inLive : live ∈ run.counting.agreements.values)
    (found : run.opened.get? live.key = some stored) : ¬run.IsOver live stored := by
  rintro ⟨_, isOver⟩
  have goes := quiet.goes live.key stored (run.counting_has inLive) found
  rw [run.counting_retains.config] at isOver
  exact absurd isOver (Nat.not_le_of_lt goes)

theorem closing_nil (quiet : run.Quiet) : run.closing = [] := by
  refine List.eq_nil_iff_forall_not_mem.mpr fun close member => ?_
  obtain ⟨live, inLive, stored, found, isOver, _⟩ := run.mem_closing_iff.mp member
  exact not_over quiet inLive found isOver

/-- Nothing is closed, so nothing succeeds it. -/
theorem second_nil (quiet : run.Quiet) : run.second = [] := by
  rw [run.second_eq, closing_nil quiet]
  rfl

theorem after_eq (quiet : run.Quiet) : run.after = run.answered := by
  rw [after, closing_nil quiet]
  rfl

theorem after_retains (run : FlushRun chain agent) : agent.Retains run.after :=
  run.answered_retains.trans (Agent.endPeriods_retains _ _ _ _)

/-- A flush leaves each agreement in memory one open record, and no other. -/
theorem next_matched (kept : chain.Kept) (lasts : run.Lasts) : run.next.Matched run.after where
  known stored opens := by
    rw [run.after_retains.identity] at opens
    rw [run.after_retains.has]
    exact run.next_known opens
  unique first second opensFirst opensSecond same := by
    rw [run.after_retains.identity] at opensFirst opensSecond
    exact run.next_unique opensFirst opensSecond same
  opened agreement known := by
    rw [run.after_retains.has] at known
    rw [run.after_retains.identity]
    exact run.next_opened kept lasts known

/-- The record of an agreement counts what its entry served. -/
theorem next_counted (matched : chain.Matched agent) (quiet : run.Quiet) {live : Live}
    (inLive : live ∈ run.counting.agreements.values) :
    ∃ stored, run.next.Opens agent.identity.address stored ∧
      stored.record.agreement = live.key ∧
        stored.record.count = run.counting.pool.served live.provider := by
  obtain ⟨first, _, same, found⟩ := opened_has run matched (run.counting_has inLive)
  have lasts := quiet.lasts live.key first (run.counting_has inLive) found
  exact ⟨_, run.next_counts lasts inLive found (not_over quiet inLive found), same, rfl⟩

/-- A second flush has the records count what their entries served. -/
theorem next_settled (matched : chain.Matched agent) (quiet : run.Quiet) :
    run.next.Settled run.after := by
  have address := run.after_retains.identity
  constructor
  · constructor
    · intro stored opens
      rw [run.after_retains.has]
      exact run.next_known (address ▸ opens)
    · intro first second opensFirst opensSecond
      exact run.next_unique (address ▸ opensFirst) (address ▸ opensSecond)
    · intro agreement known
      rw [run.after_retains.has] at known
      obtain ⟨live, inLive, rfl⟩ := run.counting_live known
      obtain ⟨stored, opens, same, _⟩ := next_counted matched quiet inLive
      exact ⟨stored, address.symm ▸ opens, same⟩
  · intro live member
    rw [after_eq quiet] at member ⊢
    obtain ⟨was, inCounting, isKey, isProvider, isCounter⟩ := quiet.answers.was member
    constructor
    · obtain ⟨earlier, inMatched, _, _, sameCounter⟩ := quiet.counts.was inCounting
      rw [← isCounter, ← sameCounter]
      exact matched_counter matched inMatched
    · intro stored opens same
      obtain ⟨first, opensFirst, sameFirst, counted⟩ := next_counted matched quiet inCounting
      have isFirst := run.next_unique (run.answered_retains.identity ▸ opens) opensFirst
        (same.trans (isKey.symm.trans sameFirst.symm))
      rw [isFirst, counted, quiet.answers.served, isProvider]

/-- Where records count what their entries served, a flush counts the same. -/
theorem counting_served (settled : chain.Settled agent) (quiet : run.Quiet) (handle : Handle) :
    run.counting.pool.served handle = agent.pool.served handle := by
  have known : ∀ live ∈ run.base.agreements.values, live.counter.isSome := by
    intro live member
    obtain ⟨was, inAgent, _, _, sameCounter⟩ := quiet.reads.was member
    rw [← sameCounter]
    exact (settled.counted was inAgent).1
  rw [quiet.counts.served, matched_eq settled.toMatched, Agent.matchToAgreements_pool _ known,
    quiet.reads.served]

/-- A flush has nothing to write. -/
theorem batch_nil (settled : chain.Settled agent) (quiet : run.Quiet) : run.batch = [] := by
  refine List.eq_nil_iff_forall_not_mem.mpr fun operation member => ?_
  rcases run.mem_batch.mp member with ⟨key, younger, _⟩ | ⟨stray, isStray, _⟩ | ⟨live, inLive,
    counts⟩
  · obtain ⟨stored, inRecords, _, differs⟩ :=
      oldestPerAgreement_younger run.records_distinct younger
    rw [← run.opened_get?] at differs
    exact differs (opened_matched settled.toMatched (run.mem_records.mp inRecords))
  · obtain ⟨isOpened, unknown⟩ := run.mem_strays.mp isStray
    have opens := run.mem_records.mp (run.opened_mem isOpened).1
    rw [settled.known stray opens] at unknown
    cases unknown
  · obtain ⟨stored, opens, same, found⟩ :=
      opened_has run settled.toMatched (run.counting_has inLive)
    obtain ⟨was, inAgent, isKey, isProvider⟩ := run.counting_retains.was inLive
    have count : stored.record.count = run.counting.pool.served live.provider := by
      rw [counting_served settled quiet, ← isProvider]
      exact (settled.counted was inAgent).2 stored opens (same.trans isKey.symm)
    rw [run.countsOf_some inLive found, if_neg (not_over quiet inLive found), if_pos count] at counts
    cases counts

end FlushRun

/-! ## Any number of flushes -/

theorem Chain.opens_advance {me : Address} {chain : Chain} {count : Nat}
    {stored : Stored CounterRecord} (opens : (chain.advance count).Opens me stored) :
    chain.Opens me stored :=
  { opens with lives := (Nat.le_add_right chain.head count).trans_lt opens.lives }

/-- Blocks pass, nothing is served, and no open record expires. -/
structure Chain.Waits (chain : Chain) (agent : Agent) (count : Nat) (later : Agent) : Prop where
  idles : agent.Idles later
  lasts : ∀ stored, chain.Opens agent.identity.address stored →
    chain.head + count < stored.expiresAt

theorem Chain.Matched.waits {chain : Chain} {agent later : Agent} {count : Nat}
    (matched : chain.Matched agent) (retains : agent.Retains later)
    (lasts : ∀ stored, chain.Opens agent.identity.address stored →
      chain.head + count < stored.expiresAt) : (chain.advance count).Matched later where
  known stored opens := by
    rw [retains.identity] at opens
    rw [retains.has]
    exact matched.known stored (Chain.opens_advance opens)
  unique first second opensFirst opensSecond same := by
    rw [retains.identity] at opensFirst opensSecond
    exact matched.unique first second (Chain.opens_advance opensFirst)
      (Chain.opens_advance opensSecond) same
  opened agreement known := by
    rw [retains.has] at known
    rw [retains.identity]
    obtain ⟨stored, opens, same⟩ := matched.opened agreement known
    exact ⟨stored, { opens with lives := lasts stored opens }, same⟩

theorem Chain.Settled.waits {chain : Chain} {agent later : Agent} {count : Nat}
    (settled : chain.Settled agent) (waits : chain.Waits agent count later) :
    (chain.advance count).Settled later where
  toMatched := settled.toMatched.waits waits.idles.retains waits.lasts
  counted live member := by
    obtain ⟨was, inAgent, isKey, isProvider, isCounter⟩ := waits.idles.was member
    obtain ⟨known, counts⟩ := settled.counted was inAgent
    refine ⟨isCounter ▸ known, fun stored opens same => ?_⟩
    rw [waits.idles.retains.identity] at opens
    rw [counts stored (Chain.opens_advance opens) (same.trans isKey.symm), waits.idles.served,
      isProvider]

/-- A chain and a memory that time and flushes lead to, while nothing is served and no period or
record ends. -/
inductive Rests (chain : Chain) (agent : Agent) : Chain → Agent → Prop
  | here : Rests chain agent chain agent
  | wait {later : Chain} {memory after : Agent} {count : Nat} (rests : Rests chain agent later memory)
      (waits : later.Waits memory count after) : Rests chain agent (later.advance count) after
  | flush {later : Chain} {memory : Agent} (rests : Rests chain agent later memory)
      (run : FlushRun later memory) (quiet : run.Quiet) : Rests chain agent run.next run.after

theorem Chain.Settled.rests {chain later : Chain} {agent memory : Agent}
    (settled : chain.Settled agent) (rests : Rests chain agent later memory) :
    later.Settled memory := by
  induction rests with
  | here => exact settled
  | wait rests waits ih => exact ih.waits waits
  | flush rests run quiet ih => exact FlushRun.next_settled ih.toMatched quiet

/-! ## What one flush and any later one do -/

/-- A younger open record of an agreement that has an older one. -/
def Chain.Younger (me : Address) (chain : Chain) (stored : Stored CounterRecord) : Prop :=
  ∃ first, chain.Opens me first ∧ first.record.agreement = stored.record.agreement ∧
    first ≠ stored ∧ first.Older stored

/-- What a flush leaves: no open record but those of agreements in memory, strays ended with what they
counted, and, where no record it leaves open expires under it, one for each agreement in memory and
nothing to write after one more flush. -/
structure FlushRun.LeavesOne {chain : Chain} {agent : Agent} (run : FlushRun chain agent) :
    Prop where
  one : run.Lasts → ∀ agreement, agent.has agreement = true → ∃! stored,
    run.next.Opens agent.identity.address stored ∧ stored.record.agreement = agreement
  known : ∀ stored, run.next.Opens agent.identity.address stored →
    agent.has stored.record.agreement = true
  deleted : ∀ key ∈ run.next.gone, key ∉ chain.gone → ∃ stored, stored.key = key ∧
    chain.Opens agent.identity.address stored ∧
      (chain.Younger agent.identity.address stored ∨
        (agent.has stored.record.agreement = false ∧ stored.record.count = 0))
  closed : ∀ stray, chain.Opens agent.identity.address stray →
    agent.has stray.record.agreement = false → ¬chain.Younger agent.identity.address stray →
      stray.record.count ≠ 0 →
        run.next.entities.get? stray.key = some { stray.row with
          record := .counter (CommunityLb.closed stray.record stray.record.count run.head) } ∧
        stray.key ∉ run.next.gone
  rests : run.Lasts → ∀ (count : Nat) (memory : Agent), run.next.Waits run.after count memory →
    ∀ second : FlushRun (run.next.advance count) memory, second.Quiet →
      ∀ (later : Chain) (still : Agent), Rests second.next second.after later still →
        ∀ third : FlushRun later still, third.Quiet → third.batch = [] ∧ third.second = []

namespace FlushRun

variable {chain : Chain} {agent : Agent} (run : FlushRun chain agent)

/-- A duplicate is younger than the record its agreement counts into. -/
theorem younger_of_duplicate {key : EntityKey} (duplicate : key ∈ run.duplicates) :
    ∃ stored ∈ run.records, stored.key = key ∧ chain.Younger agent.identity.address stored := by
  obtain ⟨stored, inRecords, same, differs⟩ :=
    oldestPerAgreement_younger run.records_distinct duplicate
  obtain ⟨first, isFirst⟩ := run.opened_exists inRecords
  rw [← run.opened_get?, isFirst] at differs
  have among := isFirst
  rw [run.opened_get?] at among
  obtain ⟨inFirst, sameAgreement, older⟩ := oldestPerAgreement_some among
  exact ⟨stored, inRecords, same, first, run.mem_records.mp inFirst, sameAgreement,
    fun eq => differs (congrArg some eq), older stored inRecords rfl⟩

/-- The oldest open record of an agreement is the one it counts into. -/
theorem opened_of_oldest {stored : Stored CounterRecord}
    (opens : chain.Opens agent.identity.address stored)
    (oldest : ¬chain.Younger agent.identity.address stored) :
    run.opened.get? stored.record.agreement = some stored := by
  have inRecords := run.mem_records.mpr opens
  by_contra differs
  have duplicate := (run.mem_duplicates inRecords).mpr differs
  obtain ⟨other, inOther, same, younger⟩ := run.younger_of_duplicate duplicate
  rw [run.records_eq inOther inRecords same] at younger
  exact oldest younger

/-- What a flush deletes is a younger duplicate, or a stray that counted nothing. -/
theorem next_deleted {key : EntityKey} (gone : key ∈ run.next.gone) (kept : key ∉ chain.gone) :
    ∃ stored, stored.key = key ∧ chain.Opens agent.identity.address stored ∧
      (chain.Younger agent.identity.address stored ∨
        (agent.has stored.record.agreement = false ∧ stored.record.count = 0)) := by
  rw [run.next_gone, run.middle_gone] at gone
  rcases gone.resolve_left kept with duplicate | ⟨stray, isStray, same, zero⟩
  · obtain ⟨stored, inRecords, same, younger⟩ := run.younger_of_duplicate duplicate
    exact ⟨stored, same, run.mem_records.mp inRecords, .inl younger⟩
  · obtain ⟨isOpened, unknown⟩ := run.mem_strays.mp isStray
    exact ⟨stray, same, run.mem_records.mp (run.opened_mem isOpened).1, .inr ⟨unknown, zero⟩⟩

/-- A stray that counted something is closed with what it counted, and stays. -/
theorem next_closed {stray : Stored CounterRecord}
    (opens : chain.Opens agent.identity.address stray)
    (unknown : agent.has stray.record.agreement = false)
    (oldest : ¬chain.Younger agent.identity.address stray) (counted : stray.record.count ≠ 0) :
    run.next.entities.get? stray.key = some { stray.row with
      record := .counter (CommunityLb.closed stray.record stray.record.count run.head) } ∧
    stray.key ∉ run.next.gone := by
  have isOpened := run.opened_of_oldest opens oldest
  have isStray := run.mem_strays.mpr ⟨isOpened, unknown⟩
  have inRecords := run.mem_records.mpr opens
  refine ⟨run.next_row (run.middle_stray isStray counted), ?_⟩
  rw [run.next_gone, run.middle_gone, not_or, not_or]
  refine ⟨opens.present, fun duplicate => ?_, ?_⟩
  · exact (run.mem_duplicates inRecords).mp duplicate isOpened
  · rintro ⟨other, isOther, same, zero⟩
    have inOther := (run.opened_mem (run.mem_strays.mp isOther).1).1
    rw [run.records_eq inOther inRecords same] at zero
    exact counted zero

/-- After a flush every agreement in memory has one open record and there is no other, and a second
one leaves the later ones nothing to write. -/
theorem leaves_one (kept : chain.Kept) : run.LeavesOne where
  one lasts agreement known := by
    obtain ⟨stored, opens, same⟩ := run.next_opened kept lasts known
    refine ⟨stored, ⟨opens, same⟩, ?_⟩
    rintro other ⟨opensOther, sameOther⟩
    exact run.next_unique opensOther opens (sameOther.trans same.symm)
  known _ opens := run.next_known opens
  deleted _ gone present := run.next_deleted gone present
  closed _ opens unknown oldest counted := run.next_closed opens unknown oldest counted
  rests lasts count memory waits second quiet later still rests third quietThird := by
    have matched := (next_matched kept lasts).waits waits.idles.retains waits.lasts
    have settled := (next_settled matched quiet).rests rests
    exact ⟨batch_nil settled quietThird, second_nil quietThird⟩

end FlushRun

/-! ## A record that expires under a flush -/

/-- A counter record of an agreement, opened in the block it was created in. -/
def openRecord (key agreement : EntityKey) (provider : Address) (createdAt expiresAt count : Nat) :
    Stored Record where
  key := key
  creator := 1
  createdAt := createdAt
  expiresAt := expiresAt
  record := .counter
    { agreement := agreement
      provider := provider
      state := .opened
      count := count
      weiPerCall := 7
      openedBlock := createdAt
      closedBlock := none }

/-- An agreement in memory with an entry of its own, its counter record unknown. -/
def heldAgreement (key : EntityKey) (provider : Address) (handle : Handle) : Live where
  agreement :=
    { key := key
      creator := 1
      createdAt := 2
      expiresAt := 1000
      record :=
        { provider := provider
          offer := 50
          weiPerCall := 7
          remotePort := 20000 } }
  provider := handle
  counter := none

/-- An agreement whose record expires with the next block, and a stray that counted nothing. -/
def pairChain : Chain where
  head := 10
  entities := (Keyed.empty.insert (openRecord 300 200 33 2 11 0)).insert
    (openRecord 301 201 34 3 1000 0)
  gone := []

/-- Memory with the one agreement, which served nothing. -/
def pairAgent : Agent where
  config := smallSection
  identity := smallSidecar
  pool := (Pool.new []).add (Provider.fromMarketplace 33 200 20000)
  agreements := Keyed.empty.insert (heldAgreement 200 33 0)
  listingKey := 100
  listingExpiresAt := 1000
  admissions := []

/-- The chain after the stray is deleted, in the block after. -/
def pairNext : Chain :=
  { pairChain with
    head := 11
    gone := [301] }

/-- A flush of the two. -/
def pairRun : FlushRun pairChain pairAgent where
  head := 10
  earlier := le_rfl
  shown := [300, 301]
  rows := pairChain.entities.values
  page := by rfl
  fits := by decide
  order := []
  base := pairAgent
  retained := .refl pairAgent
  closed := []
  looked := by simp
  counting := _
  counted := .refl _
  middle := pairNext
  patched := []
  counts := ⟨1, [500], rfl, rfl⟩
  answered := _
  answers := .refl _
  next := pairNext
  named := []
  successors := ⟨0, [], rfl, rfl⟩

theorem pairChain_kept : pairChain.Kept := by
  intro key gone
  cases gone

/-- A record that expires in the block a flush lands in leaves its agreement with none. -/
theorem expiring_leaves_none :
    ¬ ∀ (chain : Chain) (agent : Agent) (run : FlushRun chain agent), chain.Kept →
      ∀ agreement, agent.has agreement = true → ∃! stored,
        run.next.Opens agent.identity.address stored ∧ stored.record.agreement = agreement := by
  intro claim
  obtain ⟨stored, ⟨opens, same⟩, _⟩ :=
    claim pairChain pairAgent pairRun pairChain_kept 200 (by decide)
  have none : ∀ row ∈ pairNext.entities.values,
      ¬(pairNext.head < row.expiresAt ∧ row.key ∉ pairNext.gone) := by
    decide
  exact none stored.row (Keyed.get?_eq_some.mp opens.found).1 ⟨opens.lives, opens.present⟩

/-! ## A flush with something of everything -/

/-- Two records of one agreement, the older with a count, a stray with a count and one without. -/
def crowdChain : Chain where
  head := 10
  entities := (((Keyed.empty.insert (openRecord 300 200 33 2 1000 1)).insert
    (openRecord 301 200 33 3 1000 0)).insert (openRecord 302 201 34 4 1000 4)).insert
    (openRecord 303 202 35 5 1000 0)
  gone := []

/-- Memory with that agreement and one that has no record. -/
def crowdAgent : Agent :=
  { pairAgent with
    pool := pairAgent.pool.add (Provider.fromMarketplace 36 203 20001)
    agreements := pairAgent.agreements.insert (heldAgreement 203 36 1) }

/-- A row with its record closed at the flush's head. -/
def closedRow (row : Stored Record) : Stored Record :=
  { row with
    record :=
      match row.record with
      | .counter record => .counter (closed record record.count 10)
      | other => other }

/-- After the first batch the older record and the stray with a count are closed, the younger record
and the empty stray are gone, and the agreement without a record has one. -/
def crowdMiddle : Chain where
  head := 11
  entities := ((((Keyed.empty.insert (closedRow (openRecord 300 200 33 2 1000 1))).insert
    (openRecord 301 200 33 3 1000 0)).insert (closedRow (openRecord 302 201 34 4 1000 4))).insert
    (openRecord 303 202 35 5 1000 0)).insert
    { openRecord 504 203 36 10 10011 0 with createdAt := 11 }
  gone := [303, 301]

/-- After the second one the agreement whose record was closed has another. -/
def crowdNext : Chain :=
  { crowdMiddle with
    head := 12
    entities := crowdMiddle.entities.insert
      { openRecord 505 200 33 10 10012 0 with createdAt := 12 } }

/-- The flush. -/
def crowdRun : FlushRun crowdChain crowdAgent where
  head := 10
  earlier := le_rfl
  shown := [300, 301, 302, 303]
  rows := crowdChain.entities.values
  page := by rfl
  fits := by decide
  order := []
  base := crowdAgent
  retained := .refl crowdAgent
  closed := []
  looked := by simp
  counting := _
  counted := .refl _
  middle := crowdMiddle
  patched := [302, 300]
  counts := ⟨1, [500, 501, 502, 503, 504], rfl, rfl⟩
  answered := _
  answers := .refl _
  next := crowdNext
  named := []
  successors := ⟨1, [505], rfl, by decide +kernel⟩

theorem crowdChain_kept : crowdChain.Kept := by
  intro key gone
  cases gone

/-- It outlives no record. -/
theorem crowdRun_lasts : crowdRun.Lasts where
  counts agreement stored _ found := by
    have later : ∀ row ∈ crowdChain.entities.values, crowdRun.next.head < row.expiresAt := by
      decide
    have opens := crowdRun.mem_records.mp (crowdRun.opened_mem found).1
    exact later stored.row (Keyed.get?_eq_some.mp opens.found).1
  opens := by decide

/-- One open record is left for each of the two agreements. -/
theorem leaves_one_crowd : crowdRun.Lasts ∧ crowdRun.LeavesOne ∧
    (crowdNext.entities.values.filter fun row =>
      row.record.isOpen ∧ crowdNext.head < row.expiresAt ∧ row.key ∉ crowdNext.gone).map
        Stored.key = [504, 505] :=
  ⟨crowdRun_lasts, crowdRun.leaves_one crowdChain_kept, by decide +kernel⟩

end CommunityLb
