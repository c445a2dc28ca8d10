import CommunityLb.Marketplace.Expiry
import CommunityLb.Marketplace.Landing

/-!
# The listing from one start to the next

Offers point at the listing by its key.  A start takes the oldest listing that the chain shows it, or
creates one; the first start that succeeds decides the key every later one has to find again.
-/

namespace CommunityLb

/-! ## The eldest listing on the chain -/

namespace Chain

variable {me : Address} {chain next : Chain} {fresh : EntityKey} {operation : Operation}

theorem asListing_set (record : Record) (set : SetAttributes) :
    (record.set set).asListing.isSome = record.asListing.isSome := by
  cases record <;> cases set <;> rfl

/-- A row after an operation is one from before, or it was created in this block. -/
theorem operate_origin (operated : chain.operate me fresh operation = some next) {key : EntityKey}
    {now : Stored Record} (found : next.entities.get? key = some now) :
    (∃ was, chain.entities.get? key = some was ∧ was.key = now.key ∧ was.creator = now.creator ∧
      was.createdAt = now.createdAt ∧
      was.record.asListing.isSome = now.record.asListing.isSome ∧
      (next.alive now = true → chain.alive was = true)) ∨ now.createdAt = chain.head := by
  cases operation with
  | create record seconds =>
      simp only [operate] at operated
      split at operated
      · cases operated
        rw [Keyed.get?_insert] at found
        split at found
        · cases found
          exact .inr rfl
        · exact .inl ⟨now, found, rfl, rfl, rfl, rfl, id⟩
      · cases operated
  | patch target set =>
      simp only [operate] at operated
      split at operated
      · cases operated
        rw [Keyed.get?_adjust] at found
        split at found
        · obtain ⟨was, isWas, rfl⟩ := Option.map_eq_some_iff.mp found
          exact .inl ⟨was, isWas, rfl, rfl, rfl, (asListing_set was.record set).symm, id⟩
        · exact .inl ⟨now, found, rfl, rfl, rfl, rfl, id⟩
      · cases operated
  | delete target =>
      simp only [operate] at operated
      split at operated
      · cases operated
        refine .inl ⟨now, found, rfl, rfl, rfl, rfl, fun alive => ?_⟩
        simp only [Chain.alive, List.mem_cons, not_or, decide_eq_true_eq] at alive ⊢
        exact ⟨alive.1, alive.2.2⟩
      · cases operated
  | extend target seconds =>
      simp only [operate] at operated
      split at operated
      · next moves =>
          cases operated
          rw [Keyed.get?_adjust] at found
          split at found
          · next same =>
              obtain ⟨was, isWas, rfl⟩ := Option.map_eq_some_iff.mp found
              refine .inl ⟨was, isWas, rfl, rfl, rfl, rfl, fun _ => ?_⟩
              obtain ⟨row, isLive, _⟩ := (Option.any_eq_true _ _).mp moves
              obtain ⟨isThere, alive⟩ := Option.filter_eq_some_iff.mp isLive
              rw [← same, isWas] at isThere
              cases isThere
              exact alive
          · exact .inl ⟨now, found, rfl, rfl, rfl, rfl, id⟩
      · cases operated

/-- A row goes on through an operation, its record as it was or patched. -/
theorem operate_record (operated : chain.operate me fresh operation = some next) {key : EntityKey}
    {row : Stored Record} (found : chain.entities.get? key = some row) :
    ∃ now, next.entities.get? key = some now ∧ now.key = row.key ∧ now.creator = row.creator ∧
      now.createdAt = row.createdAt ∧
      (now.record = row.record ∨
        ∃ set, operation = .patch key set ∧ now.record = row.record.set set) := by
  cases operation with
  | create record seconds =>
      have free := operate_fresh operated
      simp only [operate] at operated
      split at operated
      · cases operated
        have differs : key ≠ fresh := by
          rintro rfl
          simp [free] at found
        exact ⟨row, by simp [Keyed.get?_insert, differs, found], rfl, rfl, rfl, .inl rfl⟩
      · cases operated
  | patch target set =>
      simp only [operate] at operated
      split at operated
      · cases operated
        by_cases same : key = target
        · subst same
          exact ⟨{ row with record := row.record.set set }, by simp [Keyed.get?_adjust, found], rfl,
            rfl, rfl, .inr ⟨set, rfl, rfl⟩⟩
        · exact ⟨row, by simp [Keyed.get?_adjust, same, found], rfl, rfl, rfl, .inl rfl⟩
      · cases operated
  | delete target =>
      simp only [operate] at operated
      split at operated
      · cases operated
        exact ⟨row, found, rfl, rfl, rfl, .inl rfl⟩
      · cases operated
  | extend target seconds =>
      simp only [operate] at operated
      split at operated
      · cases operated
        by_cases same : key = target
        · subst same
          exact ⟨{ row with expiresAt := chain.head + blocksOf seconds },
            by simp [Keyed.get?_adjust, found], rfl, rfl, rfl, .inl rfl⟩
        · exact ⟨row, by simp [Keyed.get?_adjust, same, found], rfl, rfl, rfl, .inl rfl⟩
      · cases operated

/-- A listing that the LB has on the chain. -/
def LiveListing (me : Address) (chain : Chain) (row : Stored Record) : Prop :=
  chain.entities.get? row.key = some row ∧ chain.alive row = true ∧ row.creator = me ∧
    row.record.asListing.isSome = true

/-- A row of the LB that no listing it has on the chain is older than. -/
structure Eldest (me : Address) (shape : Record → Prop) (chain : Chain) (row : Stored Record) :
    Prop where
  found : chain.entities.get? row.key = some row
  creator : row.creator = me
  shape : shape row.record
  first : ∀ other, chain.LiveListing me other → row.Older other

/-- The eldest row has a key, and is from before a block. -/
def EldestAt (me : Address) (shape : Record → Prop) (key : EntityKey) (before : Nat)
    (chain : Chain) : Prop :=
  ∃ row, row.key = key ∧ row.createdAt < before ∧ chain.Eldest me shape row

variable {shape : Record → Prop} {key : EntityKey}

theorem EldestAt.operate {fits : Operation → Prop}
    (keeps : ∀ set, fits (.patch key set) → ∀ record, shape record → shape (record.set set))
    (eldest : chain.EldestAt me shape key chain.head) (fit : fits operation)
    (operated : chain.operate me fresh operation = some next) :
    next.EldestAt me shape key next.head := by
  obtain ⟨row, rfl, earlier, eldest⟩ := eldest
  obtain ⟨now, found, sameKey, creator, createdAt, record⟩ := operate_record operated eldest.found
  refine ⟨now, sameKey, ?_, ?_⟩
  · rw [operate_head operated, createdAt]
    exact earlier
  · refine ⟨sameKey ▸ found, creator.trans eldest.creator, ?_, fun other listed => ?_⟩
    · rcases record with same | ⟨set, rfl, same⟩
      · exact same ▸ eldest.shape
      · exact same ▸ keeps set fit row.record eldest.shape
    · obtain ⟨isThere, alive, mine, listing⟩ := listed
      rcases operate_origin operated isThere with
        ⟨was, isWas, wasKey, wasCreator, wasAt, wasListing, wasAlive⟩ | isNew
      · have older := eldest.first was ⟨wasKey ▸ isWas, wasAlive alive, wasCreator.trans mine,
          wasListing.trans listing⟩
        rw [Stored.Older, createdAt, sameKey]
        rw [Stored.Older, wasAt, wasKey] at older
        exact older
      · refine .inl ?_
        rw [createdAt, isNew]
        exact earlier

/-- That a row is the LB's eldest is a law of the chain, for operations that keep its record. -/
theorem eldest_law {fits : Operation → Prop}
    (keeps : ∀ set, fits (.patch key set) → ∀ record, shape record → shape (record.set set)) :
    Law me fits (fun chain => chain.EldestAt me shape key (chain.head + 1))
      (fun chain => chain.EldestAt me shape key chain.head) where
  opens chain count holds := by
    obtain ⟨row, sameKey, earlier, eldest⟩ := holds
    refine ⟨row, sameKey, ?_, eldest.found, eldest.creator, eldest.shape, fun other listed => ?_⟩
    · simp only [advance]
      omega
    · obtain ⟨found, alive, mine, listing⟩ := listed
      refine eldest.first other ⟨found, ?_, mine, listing⟩
      have alive : chain.head + (count + 1) < other.expiresAt ∧ other.key ∉ chain.gone :=
        of_decide_eq_true alive
      exact decide_eq_true ⟨by omega, alive.2⟩
  operates chain next fresh operation landing fit operated := landing.operate keeps fit operated
  closes chain landing := by
    obtain ⟨row, sameKey, earlier, eldest⟩ := landing
    exact ⟨row, sameKey, by omega, eldest⟩
  posts chain posted holds free theirs _ := by
    obtain ⟨row, sameKey, earlier, eldest⟩ := holds
    have differs : row.key ≠ posted.key := by
      intro same
      rw [← same, eldest.found] at free
      cases free
    refine ⟨row, sameKey, earlier, ?_, eldest.creator, eldest.shape, fun other listed => ?_⟩
    · simpa [Keyed.get?_insert, differs] using eldest.found
    · obtain ⟨found, alive, mine, listing⟩ := listed
      rw [Keyed.get?_insert] at found
      split at found
      · cases found
        exact absurd mine theirs
      · exact eldest.first other ⟨found, alive, mine, listing⟩
  withdraws chain gone row' holds found theirs := by
    obtain ⟨row, sameKey, earlier, eldest⟩ := holds
    refine ⟨row, sameKey, earlier, eldest.found, eldest.creator, eldest.shape,
      fun other listed => ?_⟩
    obtain ⟨found, alive, mine, listing⟩ := listed
    refine eldest.first other ⟨found, ?_, mine, listing⟩
    simp only [Chain.alive, List.mem_cons, not_or, decide_eq_true_eq] at alive ⊢
    exact ⟨alive.1, alive.2.2⟩

end Chain

/-! ## How far a start has come -/

/-- A start reads, then writes its listing where it has to, and is over or was refused. -/
inductive Phase where
  | reads
  | lists
  | refused
  | runs
  deriving DecidableEq, Repr

/-- The phase of a process at some work. -/
def Work.phase : Work → Phase
  | .start => .reads
  | .poll | .flush _ => .runs

/-- The phase of a process at a task. -/
def Task.phase : Task → Phase
  | .identity | .startHead | .listings _ => .reads
  | .agreementsHead work | .agreementsCount work _ | .agreementsPage work _ | .closeEnded work _ _
  | .countersCount work _ | .countersPage work _ | .closedCount work _ _ _ _ _ => work.phase
  | .createListing | .patchListing _ _ => .lists
  | .refused _ => .refused
  | _ => .runs

theorem Work.phase_ne_lists (work : Work) : work.phase ≠ .lists := by
  cases work <;> simp [phase]

theorem Task.lists_cases {task : Task} (lists : task.phase = .lists) :
    task = .createListing ∨ ∃ key expiresAt, task = .patchListing key expiresAt := by
  cases task with
  | createListing => exact .inl rfl
  | patchListing key expiresAt => exact .inr ⟨key, expiresAt, rfl⟩
  | agreementsHead work | agreementsCount work _ | agreementsPage work _ | closeEnded work _ _
  | countersCount work _ | countersPage work _ | closedCount work _ _ _ _ _ =>
      exact absurd lists work.phase_ne_lists
  | _ => cases lists

/-- A task goes on in its phase, unless a start is refused. -/
def Task.Stays (before after : Task) : Prop :=
  after = before ∨ before.phase ≠ .lists ∧ after.phase = before.phase ∨ after.phase = .refused

theorem Task.Stays.at {before after : Task} {phase : Phase} (was : before.phase = phase)
    (differs : phase ≠ .lists) (now : after.phase = phase) : before.Stays after :=
  .inr (.inl ⟨was ▸ differs, now.trans was.symm⟩)

theorem Task.Stays.runs {before after : Task} (was : before.phase = .runs)
    (now : after.phase = .runs) : before.Stays after :=
  .at was (by decide) now

theorem Task.Stays.reads {before after : Task} (was : before.phase = .reads)
    (now : after.phase = .reads) : before.Stays after :=
  .at was (by decide) now

@[simp]
theorem Task.phase_afterFlush (kind : Flush) : (Task.afterFlush kind).phase = .runs := by
  cases kind <;> rfl

theorem Task.phase_afterAgreementsError (work : Work) (error : ReconcileError) :
    (Task.afterAgreementsError work error).phase = .refused ∨
      (Task.afterAgreementsError work error).phase = work.phase := by
  rcases work with _ | _ | kind <;> cases error
  case start.chain => exact .inl rfl
  case start.tooMany => exact .inl rfl
  case poll.chain => exact .inr rfl
  case poll.tooMany => exact .inr rfl
  case flush.chain => exact .inr (Task.phase_afterFlush kind)
  case flush.tooMany => exact .inr (Task.phase_afterFlush kind)

theorem Task.phase_afterCountersError (work : Work) (head : Nat) (error : ReconcileError) :
    (Task.afterCountersError work head error).phase = .refused ∨
      (Task.afterCountersError work head error).phase = work.phase := by
  rcases work with _ | _ | kind <;> cases error
  case start.chain => exact .inl rfl
  case start.tooMany => exact .inl rfl
  case poll.chain => exact .inr rfl
  case poll.tooMany => exact .inr rfl
  case flush.chain => exact .inr (Task.phase_afterFlush kind)
  case flush.tooMany => exact .inr (Task.phase_afterFlush kind)

@[simp]
theorem Task.phase_afterCounters (work : Work) (head : Nat) (counters : Counters) :
    (Task.afterCounters work head counters).phase = work.phase := by
  cases work <;> rfl

@[simp]
theorem Task.phase_afterEnded (work : Work) (head : Nat) (queue : List Batch) :
    (Task.afterEnded work head queue).phase = work.phase := by
  rw [Task.afterEnded]
  split <;> rfl

@[simp]
theorem Task.phase_afterSuccessors (kind : Flush) (queue : List Batch) :
    (Task.afterSuccessors kind queue).phase = .runs := by
  rw [Task.afterSuccessors]
  split
  · exact Task.phase_afterFlush kind
  · rfl

@[simp]
theorem Task.phase_afterRefresh (queue : List Batch) :
    (Task.afterRefresh queue).phase = .runs := by
  rw [Task.afterRefresh]
  split <;> rfl

/-- What the agent has from its start: whose it is, how it is configured, and its listing. -/
structure Agent.SameStart (before after : Agent) : Prop where
  config : after.config = before.config
  identity : after.identity = before.identity
  listingKey : after.listingKey = before.listingKey

namespace Agent

variable {agent before middle after : Agent}

theorem SameStart.refl (agent : Agent) : agent.SameStart agent :=
  ⟨rfl, rfl, rfl⟩

theorem SameStart.trans (first : before.SameStart middle) (second : middle.SameStart after) :
    before.SameStart after :=
  ⟨second.config.trans first.config, second.identity.trans first.identity,
    second.listingKey.trans first.listingKey⟩

/-- What the agent has from its start is kept, and so are the agreements it runs admissions for. -/
structure Works (before after : Agent) : Prop where
  start : before.SameStart after
  admissions : after.admissions.map Admission.agreement =
    before.admissions.map Admission.agreement

theorem Works.refl (agent : Agent) : agent.Works agent :=
  ⟨.refl agent, rfl⟩

theorem Works.trans (first : before.Works middle) (second : middle.Works after) :
    before.Works after :=
  ⟨first.start.trans second.start, second.admissions.trans first.admissions⟩

theorem Works.foldl {α : Type} {change : Agent → α → Agent}
    (each : ∀ (agent : Agent) item, agent.Works (change agent item)) (items : List α)
    (agent : Agent) : agent.Works (items.foldl change agent) := by
  induction items generalizing agent with
  | nil => exact .refl agent
  | cons item items ih => exact (each agent item).trans (ih (change agent item))

/-- An agreement that ends leaves its admission to run on. -/
theorem endAgreement_works (agent : Agent) (ending : Live) :
    agent.Works (agent.endAgreement ending) := by
  refine ⟨⟨rfl, rfl, rfl⟩, ?_⟩
  simp only [endAgreement, List.map_map]
  apply List.map_congr_left
  intro task _
  rw [Function.comp_apply]
  split <;> rfl

theorem forgetCounter_works (agent : Agent) (agreement : EntityKey) (count : Nat) :
    agent.Works (agent.forgetCounter agreement count) := by
  rw [forgetCounter]
  split <;> exact ⟨⟨rfl, rfl, rfl⟩, rfl⟩

theorem adoptAgreement_works (agent : Agent) (stored : Stored Agreement) :
    agent.Works (agent.adoptAgreement stored) := by
  rw [adoptAgreement]
  split
  · exact ⟨⟨rfl, rfl, rfl⟩, rfl⟩
  · split <;> exact ⟨⟨rfl, rfl, rfl⟩, rfl⟩

theorem endPeriods_works (agent : Agent) (closing : List Closing) (patched : List EntityKey)
    (head : Nat) : agent.Works (agent.endPeriods closing patched head).1 := by
  rw [endPeriods]
  generalize closing.filter (·.counter ∈ patched) = ended
  suffices ∀ start : Agent × Batch, start.1.Works (ended.foldl (endPeriod head) start).1 from
    this (agent, [])
  induction ended with
  | nil => exact fun start => .refl start.1
  | cons close ended ih =>
      intro start
      rw [List.foldl_cons]
      refine Works.trans ?_ (ih _)
      rw [endPeriod]
      split
      · exact .refl start.1
      · exact forgetCounter_works _ _ _

theorem admitted_sameStart (agent : Agent) (agreement : EntityKey) :
    agent.SameStart (agent.admitted agreement) := by
  rw [admitted]
  split
  · exact .refl agent
  · split <;> exact ⟨rfl, rfl, rfl⟩

theorem admitted_agreements (agent : Agent) (agreement : EntityKey) :
    (agent.admitted agreement).agreements = agent.agreements := by
  rw [admitted]
  split
  · rfl
  · split <;> rfl

end Agent

namespace Process

variable {process before after : Process} {sidecar : Identity} {state : State} {event : Event}

theorem reconcileAgreements_works (process : Process) (work : Work) (head : Nat)
    (rows : List (Stored Record)) :
    process.agent.Works (process.reconcileAgreements work head rows).agent := by
  refine Agent.Works.trans ?_ (Agent.Works.foldl Agent.adoptAgreement_works _ _)
  exact Agent.Works.foldl Agent.endAgreement_works _ process.agent

theorem reconciled_works (process : Process) (work : Work) (head : Nat)
    (opened : CountersByAgreement) (duplicates : List EntityKey)
    (closed : List (EntityKey × Nat)) :
    process.agent.Works (process.reconciled work head opened duplicates closed).agent :=
  (Agent.Works.foldl (fun agent found => agent.forgetCounter_works found.1 found.2) closed
    process.agent).trans ⟨⟨rfl, rfl, rfl⟩, rfl⟩

theorem afterOffer_works (process : Process) (discovery : Discovery) :
    process.agent.Works (process.afterOffer discovery).agent := by
  rw [afterOffer_agent]
  exact .refl _

theorem afterCounts_works (process : Process) (kind : Flush) (head : Nat)
    (closing : List Closing) (queue : List Batch) (patched : List EntityKey) :
    process.agent.Works (process.afterCounts kind head closing queue patched).agent := by
  simp only [afterCounts]
  split
  · exact process.agent.endPeriods_works closing patched head
  · exact .refl _

/-- A read leaves what the agent has from its start and its admissions, but for the one that finds the
listing. -/
theorem read_works (process : Process) (order : List EntityKey) (reply : Reply) :
    (∃ head rows, process.task = .listings head ∧ reply = .rows rows) ∨
      process.agent.Works (process.read order reply).agent := by
  unfold read
  split
  case h_14 head rows task => exact .inl ⟨head, rows, task, rfl⟩
  all_goals refine .inr ?_
  case h_3 => split <;> exact .refl _
  case h_4 work head rows _ => exact process.reconcileAgreements_works work head rows
  case h_7 => split <;> exact .refl _
  case h_8 work head rows _ =>
    simp only [openCountersRead]
    split
    · exact process.reconciled_works _ _ _ _ _
    · exact .refl _
  case h_9 =>
    split
    · exact process.reconciled_works _ _ _ _ _
    · exact .refl _
  case h_10 => exact process.afterOffer_works _
  all_goals exact .refl _

theorem unread_works (process : Process) : process.agent.Works process.unread.agent := by
  unfold unread
  split <;> exact .refl _

theorem written_works (process : Process) (result : Except WriteError BatchResult) :
    process.task.phase = .lists ∨ process.agent.Works (process.written result).agent := by
  unfold written
  split
  case h_2 => split <;> exact .inr (process.afterCounts_works _ _ _ _ _)
  case h_5 =>
    unfold agreementWritten
    split
    · split
      · exact .inr ⟨⟨rfl, rfl, rfl⟩, rfl⟩
      · exact .inr (process.afterOffer_works _)
    · exact .inr (process.afterOffer_works _)
    · exact .inr (process.afterOffer_works _)
  case h_6 =>
    simp only [counterWritten, afterOffer_agent]
    exact .inr ⟨⟨rfl, rfl, rfl⟩, rfl⟩
  case h_7 task => exact .inl (by rw [task]; rfl)
  case h_8 task => exact .inl (by rw [task]; rfl)
  all_goals exact .inr (.refl _)

/-- A read leaves what the agent has from its start, but for the one that finds the listing. -/
theorem read_sameStart (process : Process) (order : List EntityKey) (reply : Reply) :
    (∃ head rows, process.task = .listings head ∧ reply = .rows rows) ∨
      process.agent.SameStart (process.read order reply).agent :=
  (process.read_works order reply).imp_right Agent.Works.start

theorem written_sameStart (process : Process) (result : Except WriteError BatchResult) :
    process.task.phase = .lists ∨ process.agent.SameStart (process.written result).agent :=
  (process.written_works result).imp_right Agent.Works.start

/-- A start's listing leaves its admissions. -/
theorem ensureListing_admissions (process : Process) (rows : List (Stored Record)) :
    (process.ensureListing rows).agent.admissions = process.agent.admissions := by
  rw [ensureListing]
  split
  · rfl
  · split <;> rfl

/-- A write that is answered leaves the admissions. -/
theorem written_admissions (process : Process) (result : Except WriteError BatchResult) :
    (process.written result).agent.admissions.map Admission.agreement =
      process.agent.admissions.map Admission.agreement := by
  rcases process.written_works result with lists | works
  · rcases Task.lists_cases lists with task | ⟨key, expiresAt, task⟩
    · simp only [written, task]
      split
      · split <;> rfl
      · rfl
    · simp only [written, task]
      split <;> rfl
  · exact works.admissions

@[simp]
theorem phase_afterOffer (process : Process) (discovery : Discovery) :
    (process.afterOffer discovery).task.phase = .runs := by
  rw [afterOffer]
  split <;> rfl

@[simp]
theorem phase_afterCounts (process : Process) (kind : Flush) (head : Nat)
    (closing : List Closing) (queue : List Batch) (patched : List EntityKey) :
    (process.afterCounts kind head closing queue patched).task.phase = .runs := by
  simp only [afterCounts]
  split
  · simp
  · rfl

/-- A read keeps the phase, but for the one that finds the listing. -/
theorem read_phase (process : Process) (order : List EntityKey) (reply : Reply) :
    (∃ head rows, process.task = .listings head ∧ reply = .rows rows) ∨
      process.task.Stays (process.read order reply).task := by
  unfold read
  split
  case h_14 head rows task => exact .inl ⟨head, rows, task, rfl⟩
  all_goals refine .inr ?_
  case h_1 task => exact .reads (by rw [task]; rfl) rfl
  case h_2 work head task => exact .at (by rw [task]; rfl) work.phase_ne_lists rfl
  case h_3 work head count task =>
    split
    · rcases Task.phase_afterAgreementsError work (.tooMany .agreement count) with refused | same
      · exact .inr (.inr refused)
      · exact .at (by rw [task]; rfl) work.phase_ne_lists same
    · exact .at (by rw [task]; rfl) work.phase_ne_lists rfl
  case h_4 work head rows task =>
    exact .at (by rw [task]; rfl) work.phase_ne_lists (Task.phase_afterEnded work head _)
  case h_5 task => exact .runs (by rw [task]; rfl) rfl
  case h_6 task => exact .runs (by rw [task]; rfl) rfl
  case h_7 work head count task =>
    split
    · rcases Task.phase_afterCountersError work head (.tooMany .counter count) with refused | same
      · exact .inr (.inr refused)
      · exact .at (by rw [task]; rfl) work.phase_ne_lists same
    · exact .at (by rw [task]; rfl) work.phase_ne_lists rfl
  case h_8 work head rows task =>
    simp only [openCountersRead]
    split
    · exact .at (by rw [task]; rfl) work.phase_ne_lists (Task.phase_afterCounters work head _)
    · exact .at (by rw [task]; rfl) work.phase_ne_lists rfl
  case h_9 work head opened duplicates agreement counter missing closed rows task =>
    split
    · exact .at (by rw [task]; rfl) work.phase_ne_lists (Task.phase_afterCounters work head _)
    · exact .at (by rw [task]; rfl) work.phase_ne_lists rfl
  case h_10 task => exact .runs (by rw [task]; rfl) (process.phase_afterOffer _)
  case h_11 task => exact .runs (by rw [task]; rfl) rfl
  case h_12 task => exact .runs (by rw [task]; rfl) (Task.phase_afterRefresh _)
  case h_13 task => exact .reads (by rw [task]; rfl) rfl
  case h_15 => exact .inl rfl

theorem unread_phase (process : Process) : process.task.Stays process.unread.task := by
  unfold unread
  split
  case h_1 => exact .inr (.inr rfl)
  case h_13 => exact .inr (.inr rfl)
  case h_14 => exact .inr (.inr rfl)
  case h_15 => exact .inl rfl
  case h_2 work task =>
    rcases Task.phase_afterAgreementsError work .chain with refused | same
    · exact .inr (.inr refused)
    · exact .at (by rw [task]; rfl) work.phase_ne_lists same
  case h_3 work _ task =>
    rcases Task.phase_afterAgreementsError work .chain with refused | same
    · exact .inr (.inr refused)
    · exact .at (by rw [task]; rfl) work.phase_ne_lists same
  case h_4 work _ task =>
    rcases Task.phase_afterAgreementsError work .chain with refused | same
    · exact .inr (.inr refused)
    · exact .at (by rw [task]; rfl) work.phase_ne_lists same
  case h_7 work head task =>
    rcases Task.phase_afterCountersError work head .chain with refused | same
    · exact .inr (.inr refused)
    · exact .at (by rw [task]; rfl) work.phase_ne_lists same
  case h_8 work head task =>
    rcases Task.phase_afterCountersError work head .chain with refused | same
    · exact .inr (.inr refused)
    · exact .at (by rw [task]; rfl) work.phase_ne_lists same
  case h_9 work head _ _ _ _ task =>
    rcases Task.phase_afterCountersError work head .chain with refused | same
    · exact .inr (.inr refused)
    · exact .at (by rw [task]; rfl) work.phase_ne_lists same
  case h_6 kind task =>
    exact .runs (by rw [task]; rfl) (Task.phase_afterFlush kind)
  case h_12 task =>
    exact .runs (by rw [task]; rfl)
      (Task.phase_afterRefresh (asQueue (process.agent.refreshBatch none)))
  case h_5 task => exact .runs (by rw [task]; rfl) rfl
  case h_10 task => exact .runs (by rw [task]; rfl) rfl
  case h_11 task => exact .runs (by rw [task]; rfl) rfl

theorem written_phase (process : Process) (result : Except WriteError BatchResult) :
    process.task.phase = .lists ∨ process.task.Stays (process.written result).task := by
  unfold written
  split
  case h_7 task => exact .inl (by rw [task]; rfl)
  case h_8 task => exact .inl (by rw [task]; rfl)
  all_goals refine .inr ?_
  case h_1 work head batch rest task =>
    exact .at (by rw [task]; rfl) work.phase_ne_lists (Task.phase_afterEnded work head _)
  case h_2 task =>
    split <;> exact .runs (by rw [task]; rfl) (process.phase_afterCounts _ _ _ _ _)
  case h_3 task => exact .runs (by rw [task]; rfl) (Task.phase_afterSuccessors _ _)
  case h_4 task => exact .runs (by rw [task]; rfl) (Task.phase_afterRefresh _)
  case h_5 task =>
    unfold agreementWritten
    split
    · split
      · exact .runs (by rw [task]; rfl) rfl
      · exact .runs (by rw [task]; rfl) (process.phase_afterOffer _)
    · exact .runs (by rw [task]; rfl) (process.phase_afterOffer _)
    · exact .runs (by rw [task]; rfl) (process.phase_afterOffer _)
  case h_6 task =>
    simp only [counterWritten]
    exact .runs (by rw [task]; rfl) (phase_afterOffer _ _)
  case h_9 => exact .inl rfl

end Process

/-! ## Before anything is taken over -/

/-- A start that has taken no agreement over yet. -/
def Task.blank : Task → Bool
  | .identity | .agreementsHead .start | .agreementsCount .start _ | .agreementsPage .start _ => true
  | _ => false

/-- A start that has taken no agreement over yet, or that has final writes to make. -/
def Task.early : Task → Bool
  | .closeEnded .start _ _ => true
  | task => task.blank

/-- A start remembers nothing, and so has nothing to write before its listing. -/
structure Process.Blank (process : Process) : Prop where
  memory : process.task.blank = true → process.agent.agreements.values = []
  owes : ∀ head queue, process.task ≠ .closeEnded .start head queue

@[simp]
theorem Task.early_afterFlush (kind : Flush) : (Task.afterFlush kind).early = false := by
  cases kind <;> rfl

@[simp]
theorem Task.early_afterAgreementsError (work : Work) (error : ReconcileError) :
    (Task.afterAgreementsError work error).early = false := by
  rcases work with _ | _ | kind <;> cases error <;> first | rfl | exact Task.early_afterFlush kind

@[simp]
theorem Task.early_afterCountersError (work : Work) (head : Nat) (error : ReconcileError) :
    (Task.afterCountersError work head error).early = false := by
  rcases work with _ | _ | kind <;> cases error <;> first | rfl | exact Task.early_afterFlush kind

@[simp]
theorem Task.early_afterCounters (work : Work) (head : Nat) (counters : Counters) :
    (Task.afterCounters work head counters).early = false := by
  cases work <;> rfl

@[simp]
theorem Task.early_afterSuccessors (kind : Flush) (queue : List Batch) :
    (Task.afterSuccessors kind queue).early = false := by
  rw [Task.afterSuccessors]
  split
  · exact Task.early_afterFlush kind
  · rfl

@[simp]
theorem Task.early_afterRefresh (queue : List Batch) : (Task.afterRefresh queue).early = false := by
  rw [Task.afterRefresh]
  split <;> rfl

namespace Process

variable {process after : Process}

theorem Blank.of_late (late : process.task.early = false) : process.Blank := by
  refine ⟨fun blank => ?_, fun head queue task => ?_⟩
  · cases task : process.task <;> rw [task] at late blank <;>
      simp_all [Task.early, Task.blank]
  · rw [task] at late
    cases late

/-- A start with nothing in memory ends nothing when it reads its agreements. -/
theorem Blank.reconcileAgreements (blank : process.Blank) {work : Work} {head : Nat}
    {rows : List (Stored Record)} (task : process.task = .agreementsPage work head) :
    (process.reconcileAgreements work head rows).Blank := by
  cases work with
  | start =>
      have nothing := blank.memory (by rw [task]; rfl)
      refine .of_late ?_
      simp [Process.reconcileAgreements, Agent.endAgreements, nothing, asQueue, Task.afterEnded,
        Task.early, Task.blank]
  | poll =>
      refine .of_late ?_
      simp only [Process.reconcileAgreements, Task.afterEnded]
      split <;> rfl
  | flush kind =>
      refine .of_late ?_
      simp only [Process.reconcileAgreements, Task.afterEnded]
      split <;> rfl

theorem afterOffer_late (process : Process) (discovery : Discovery) :
    (process.afterOffer discovery).task.early = false := by
  rw [afterOffer]
  split <;> rfl

theorem afterCounts_late (process : Process) (kind : Flush) (head : Nat)
    (closing : List Closing) (queue : List Batch) (patched : List EntityKey) :
    (process.afterCounts kind head closing queue patched).task.early = false := by
  simp only [afterCounts]
  split
  · simp
  · rfl

theorem Blank.read (blank : process.Blank) (order : List EntityKey) (reply : Reply) :
    (process.read order reply).Blank := by
  unfold Process.read
  split
  case h_1 task => exact ⟨fun _ => blank.memory (by rw [task]; rfl), nofun⟩
  case h_2 work head task =>
    cases work with
    | start => exact ⟨fun _ => blank.memory (by rw [task]; rfl), nofun⟩
    | poll | flush kind => exact .of_late rfl
  case h_3 work head count task =>
    split
    · exact .of_late (Task.early_afterAgreementsError _ _)
    · cases work with
      | start => exact ⟨fun _ => blank.memory (by rw [task]; rfl), nofun⟩
      | poll | flush kind => exact .of_late rfl
  case h_4 work head rows task => exact blank.reconcileAgreements task
  case h_7 =>
    split
    · exact .of_late (Task.early_afterCountersError _ _ _)
    · exact .of_late rfl
  case h_8 =>
    simp only [openCountersRead]
    split
    · exact .of_late (Task.early_afterCounters _ _ _)
    · exact .of_late rfl
  case h_9 =>
    split
    · exact .of_late (Task.early_afterCounters _ _ _)
    · exact .of_late rfl
  case h_10 => exact .of_late (process.afterOffer_late _)
  case h_12 => exact .of_late (Task.early_afterRefresh _)
  case h_14 =>
    rw [ensureListing]
    split
    · exact .of_late rfl
    · split <;> exact .of_late rfl
  case h_15 => exact blank
  all_goals exact .of_late rfl

theorem Blank.unread (blank : process.Blank) : process.unread.Blank := by
  unfold Process.unread
  split
  case h_15 => exact blank
  case h_12 => exact .of_late (Task.early_afterRefresh (asQueue (process.agent.refreshBatch none)))
  all_goals first | exact .of_late rfl | exact .of_late (by simp)

theorem Blank.written (blank : process.Blank) (result : Except WriteError BatchResult) :
    (process.written result).Blank := by
  unfold Process.written
  split
  case h_1 work head batch rest task =>
    cases work with
    | start => exact absurd task (blank.owes _ _)
    | poll | flush kind =>
        refine .of_late ?_
        simp only [Task.afterEnded]
        split <;> rfl
  case h_2 => split <;> exact .of_late (process.afterCounts_late _ _ _ _ _)
  case h_3 => exact .of_late (Task.early_afterSuccessors _ _)
  case h_4 => exact .of_late (Task.early_afterRefresh _)
  case h_5 =>
    unfold agreementWritten
    split
    · split
      · exact .of_late rfl
      · exact .of_late (process.afterOffer_late _)
    · exact .of_late (process.afterOffer_late _)
    · exact .of_late (process.afterOffer_late _)
  case h_6 =>
    simp only [counterWritten]
    exact .of_late (afterOffer_late _ _)
  case h_7 =>
    split
    · split <;> exact .of_late rfl
    · exact .of_late rfl
  case h_8 => split <;> exact .of_late rfl
  case h_9 => exact blank

/-- Nothing is sent before the listing is written. -/
theorem Blank.sending (blank : process.Blank) (reads : process.task.phase ≠ .runs)
    (unlisted : process.task.phase ≠ .lists) : process.sending = none := by
  unfold Process.sending
  split
  case h_1 work head batch rest task =>
    cases work with
    | start => exact absurd task (blank.owes _ _)
    | poll | flush kind => exact absurd (by rw [task]; rfl) reads
  case h_2 task | h_3 task | h_4 task | h_5 task | h_6 task =>
    rw [task] at reads
    exact absurd rfl reads
  case h_7 task | h_8 task =>
    rw [task] at unlisted
    exact absurd rfl unlisted
  case h_9 => rfl

/-- Memory that has no agreement has none after it learns an expiry, or after a reorder. -/
theorem Blank.learn (blank : process.Blank) (agreement : EntityKey) (expiresAt index : Nat) :
    ({ process with
      agent := (process.agent.learnExpiry agreement expiresAt).endAdmission index } :
      Process).Blank := by
  refine ⟨fun isBlank => ?_, blank.owes⟩
  have nothing := blank.memory isBlank
  exact List.map_eq_nil_iff.mpr nothing

theorem Blank.reorder (blank : process.Blank) (order : List EntityKey) :
    ({ process with
      agent := { process.agent with agreements := process.agent.agreements.reorder order } } :
      Process).Blank := by
  refine ⟨fun isBlank => ?_, blank.owes⟩
  have same := (process.agent.agreements.reorder_perm order).length_eq
  rw [blank.memory isBlank] at same
  exact List.length_eq_zero_iff.mp same

end Process

end CommunityLb
