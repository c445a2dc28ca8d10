import CommunityLb.Marketplace.Quiet

/-!
# How long a closed record still lives

A counter record lives from its creation and is never extended.  How long it still lives when a
flush closes it is decided by when that flush comes.
-/

namespace CommunityLb

/-! ## What is written between the flushes -/

/-- The counter record a row is. -/
def Chain.counterAt (chain : Chain) (key : EntityKey) : Option CounterRecord :=
  (chain.entities.get? key).bind (·.record.asCounter)

/-- What is sent elsewhere than in a scheduled flush: a counter record opens with its whole life, at
a head that was read before; a patch closes a record, or leaves its opening as it is. -/
def Operation.Elsewhere (config : Marketplace) (chain : Chain) : Operation → Prop
  | .create (.counter record) seconds =>
      record.openedBlock ≤ chain.head ∧ seconds = config.counterRecordLife.asSecs
  | .patch key (.counter payload state) =>
      state = some .closed ∨ state = none ∧
        (chain.counterAt key).map CounterRecord.openedBlock = some payload.openedBlock
  | _ => True

/-! ## The age of the open records -/

/-- Every open record lives long enough: it has its life from its opening, and its period went on at
the last flush or its life began since. -/
structure Chain.Timely (me : Address) (config : Marketplace) (last : Nat) (chain : Chain) :
    Prop where
  later : last ≤ chain.head
  life : ∀ stored, chain.Opens me stored →
    stored.record.openedBlock + blocks config.counterRecordLife ≤ stored.expiresAt
  goes : ∀ stored, chain.Opens me stored →
    last < stored.record.openedBlock + blocks config.settlementPeriod ∨
      last + blocks config.counterRecordLife ≤ stored.expiresAt

namespace Chain

variable {me : Address} {chain next : Chain} {fresh : EntityKey}

/-- An open record was open before the operation, as early and not longer, or the operation opened
it, or a patch that does not close it named it. -/
inductive OpenedBy (me : Address) (chain : Chain) (operation : Operation)
    (stored : Stored CounterRecord) : Prop where
  | was (before : Stored CounterRecord) (opens : chain.Opens me before)
      (key : before.key = stored.key) (expires : before.expiresAt ≤ stored.expiresAt)
      (opened : stored.record.openedBlock = before.record.openedBlock)
  | created (free : chain.entities.get? stored.key = none) (seconds : Nat)
      (isCreate : operation = .create (.counter stored.record) seconds)
      (expires : stored.expiresAt = chain.head + blocksOf seconds)
  | patched (before : Stored CounterRecord) (opens : chain.Opens me before)
      (key : before.key = stored.key) (expires : before.expiresAt = stored.expiresAt)
      (payload : CounterPayload) (isPatch : operation = .patch stored.key (.counter payload none))
      (opened : stored.record.openedBlock = payload.openedBlock)
  | reopened (payload : CounterPayload)
      (isPatch : operation = .patch stored.key (.counter payload (some .opened)))

theorem Record.set_counter {record : Record} {set : SetAttributes} {after : CounterRecord}
    (isCounter : record.set set = .counter after) : ∃ before, record = .counter before ∧
      ((∃ payload state, set = .counter payload state ∧ after.openedBlock = payload.openedBlock ∧
          after.state = state.getD before.state) ∨ after = before) := by
  cases record with
  | counter before =>
      refine ⟨before, rfl, ?_⟩
      cases set with
      | counter payload state =>
          obtain rfl := Record.counter.inj isCounter
          exact .inl ⟨payload, state, rfl, rfl, rfl⟩
      | listing other => exact .inr (Record.counter.inj isCounter).symm
  | listing record => cases set <;> cases isCounter
  | offer record => cases set <;> cases isCounter
  | agreement record => cases set <;> cases isCounter
  | unreadable kind state => cases set <;> cases isCounter

theorem operate_opened {operation : Operation} {stored : Stored CounterRecord}
    (operated : chain.operate me fresh operation = some next) (opens : next.Opens me stored) :
    OpenedBy me chain operation stored := by
  have head := operate_head operated
  have found := opens.found
  have present : stored.key ∉ chain.gone := by
    have alone : chain.execute me [(operation, fresh)] = some next :=
      Option.bind_eq_some_iff.mpr ⟨next, operated, rfl⟩
    exact fun gone => opens.present ((execute_gone alone).mpr (.inl gone))
  cases was : chain.entities.get? stored.key with
  | none =>
      rcases operate_known operated (by rw [found]; rfl) with old | ⟨rfl, record, seconds, rfl⟩
      · rw [was] at old
        cases old
      · have created := (operate_created operated).symm.trans found
        have same := Option.some.inj created
        have isRecord : record = .counter stored.record := congrArg Stored.record same
        have expires : chain.head + blocksOf seconds = stored.expiresAt :=
          congrArg Stored.expiresAt same
        exact .created was seconds (isRecord ▸ rfl) expires.symm
  | some row =>
      by_cases names : operation.target = some stored.key
      · cases operation with
        | create record seconds => cases names
        | delete key =>
            obtain rfl : key = stored.key := Option.some.inj names
            refine absurd ?_ opens.present
            rw [(operate_delete operated).2]
            exact List.mem_cons_self
        | patch key set =>
            obtain rfl : key = stored.key := Option.some.inj names
            obtain ⟨patched, gone⟩ := operate_patch operated was
            have same := Option.some.inj (patched.symm.trans found)
            obtain ⟨before, isBefore, change⟩ :=
              Record.set_counter (congrArg Stored.record same)
            have isRow : row = { stored with record := before }.row := by
              cases row
              simp_all [Stored.row]
            have opensBefore : before.state = .opened →
                chain.Opens me { stored with record := before } := fun isOpen =>
              ⟨isRow ▸ was, head ▸ opens.lives, present, opens.creator, isOpen⟩
            rcases change with ⟨payload, state, rfl, opened, isState⟩ | unchanged
            · rw [opens.state] at isState
              cases state with
              | none => exact .patched _ (opensBefore isState.symm) rfl rfl payload rfl opened
              | some state =>
                  obtain rfl : .opened = state := isState
                  exact .reopened payload rfl
            · exact .was _ (opensBefore (unchanged ▸ opens.state)) rfl le_rfl
                (congrArg CounterRecord.openedBlock unchanged)
        | extend key seconds =>
            obtain rfl : key = stored.key := Option.some.inj names
            simp only [operate] at operated
            split at operated
            · next longer =>
                cases operated
                obtain ⟨live, isLive, shorter⟩ := (Option.any_eq_true _ _).mp longer
                obtain ⟨isRow, alive⟩ := Option.filter_eq_some_iff.mp isLive
                obtain rfl := Option.some.inj (was.symm.trans isRow)
                rw [Keyed.get?_adjust, was] at found
                simp only [if_true, Option.map_some, Option.some.injEq] at found
                obtain ⟨lives, _⟩ := of_decide_eq_true alive
                have isRow : row = { stored with expiresAt := row.expiresAt }.row := by
                  cases row
                  simp_all [Stored.row]
                have longer : row.expiresAt ≤ stored.expiresAt := by
                  have sets := congrArg Stored.expiresAt found
                  have shorter := of_decide_eq_true shorter
                  exact (shorter.trans_eq sets).le
                have isThere : chain.entities.get? stored.key =
                    some ({ stored with expiresAt := row.expiresAt } : Stored CounterRecord).row := by
                  rw [← isRow]
                  exact was
                exact .was { stored with expiresAt := row.expiresAt }
                  ⟨isThere, lives, present, opens.creator, opens.state⟩ rfl longer rfl
            · cases operated
      · have still := (operate_other operated was names).1
        rw [found] at still
        obtain rfl := Option.some.inj still
        exact .was stored ⟨was, head ▸ opens.lives, present, opens.creator, opens.state⟩ rfl le_rfl
          rfl

/-- What the operations of a batch keep of the chain it was made for. -/
structure Keeps (me : Address) (config : Marketplace) (last : Nat) (start chain : Chain) : Prop where
  timely : chain.Timely me config last
  head : start.head ≤ chain.head
  known : ∀ key, (start.entities.get? key).isSome → (chain.entities.get? key).isSome
  openings : ∀ stored, chain.Opens me stored → ∀ record, start.counterAt stored.key = some record →
    stored.record.openedBlock = record.openedBlock

variable {config : Marketplace} {last : Nat} {start : Chain}

theorem Keeps.operate (keeps : Keeps me config last start chain) {operation : Operation}
    (elsewhere : operation.Elsewhere config start)
    (operated : chain.operate me fresh operation = some next) : Keeps me config last start next := by
  have head := operate_head operated
  have of : ∀ stored, next.Opens me stored →
      stored.record.openedBlock + blocks config.counterRecordLife ≤ stored.expiresAt ∧
      (last < stored.record.openedBlock + blocks config.settlementPeriod ∨
        last + blocks config.counterRecordLife ≤ stored.expiresAt) ∧
      ∀ record, start.counterAt stored.key = some record →
        stored.record.openedBlock = record.openedBlock := by
    intro stored opens
    cases operate_opened operated opens with
    | was before opensBefore key expires opened =>
        have life := keeps.timely.life before opensBefore
        rw [opened]
        refine ⟨life.trans expires, ?_, key ▸ keeps.openings before opensBefore⟩
        exact (keeps.timely.goes before opensBefore).imp_right fun long => long.trans expires
    | created free seconds isCreate expires =>
        rw [isCreate] at elsewhere
        obtain ⟨opened, rfl⟩ := elsewhere
        have early := opened.trans keeps.head
        rw [expires]
        refine ⟨Nat.add_le_add_right early _, .inr (Nat.add_le_add_right keeps.timely.later _), ?_⟩
        intro record isRecord
        obtain ⟨row, found, _⟩ := Option.bind_eq_some_iff.mp isRecord
        have still := keeps.known stored.key (by rw [found]; rfl)
        rw [free] at still
        cases still
    | patched before opensBefore key expires payload isPatch opened =>
        rw [isPatch] at elsewhere
        obtain ⟨_, sameOpening⟩ := elsewhere.resolve_left (fun closes => by cases closes)
        obtain ⟨record, isRecord, sameBlock⟩ := Option.map_eq_some_iff.mp sameOpening
        have was := keeps.openings before opensBefore record (key ▸ isRecord)
        have same : stored.record.openedBlock = before.record.openedBlock := by
          rw [opened, was, sameBlock]
        rw [same, ← expires, ← key]
        exact ⟨keeps.timely.life before opensBefore, keeps.timely.goes before opensBefore,
          keeps.openings before opensBefore⟩
    | reopened payload isPatch =>
        rw [isPatch] at elsewhere
        rcases elsewhere with closes | ⟨none, _⟩
        · cases closes
        · cases none
  have alone : chain.execute me [(operation, fresh)] = some next :=
    Option.bind_eq_some_iff.mpr ⟨next, operated, rfl⟩
  exact
    { timely :=
        { later := head ▸ keeps.timely.later
          life := fun stored opens => (of stored opens).1
          goes := fun stored opens => (of stored opens).2.1 }
      head := head ▸ keeps.head
      known := fun key known => execute_known alone (keeps.known key known)
      openings := fun stored opens => (of stored opens).2.2 }

theorem Keeps.execute {batch : List (Operation × EntityKey)}
    (keeps : Keeps me config last start chain)
    (elsewhere : ∀ pair ∈ batch, pair.1.Elsewhere config start)
    (executed : chain.execute me batch = some next) : Keeps me config last start next := by
  induction batch generalizing chain with
  | nil =>
      cases executed
      exact keeps
  | cons pair batch ih =>
      obtain ⟨middle, operated, rest⟩ := Option.bind_eq_some_iff.mp executed
      exact ih (keeps.operate (elsewhere pair List.mem_cons_self) operated)
        (fun other member => elsewhere other (List.mem_cons_of_mem _ member)) rest

theorem opens_later {count : Nat} {stored : Stored CounterRecord}
    (opens : (chain.advance count).Opens me stored) : chain.Opens me stored :=
  { opens with lives := (Nat.le_add_right chain.head count).trans_lt opens.lives }

theorem Timely.advance (timely : chain.Timely me config last) (count : Nat) :
    (chain.advance count).Timely me config last where
  later := timely.later.trans (Nat.le_add_right _ _)
  life stored opens := timely.life stored (opens_later opens)
  goes stored opens := timely.goes stored (opens_later opens)

/-- Rows of others do not count. -/
theorem Timely.insert (timely : chain.Timely me config last) {row : Stored Record}
    (other : row.creator ≠ me) :
    Timely me config last { chain with entities := chain.entities.insert row } := by
  have of : ∀ stored, Opens me { chain with entities := chain.entities.insert row } stored →
      chain.Opens me stored := by
    intro stored opens
    have found := opens.found
    rw [Keyed.get?_insert] at found
    split at found
    · cases found
      exact absurd opens.creator other
    · exact { opens with found := found }
  exact
    { later := timely.later
      life := fun stored opens => timely.life stored (of stored opens)
      goes := fun stored opens => timely.goes stored (of stored opens) }

theorem Timely.withdraw (timely : chain.Timely me config last) (key : EntityKey) :
    Timely me config last { chain with gone := key :: chain.gone } := by
  have of : ∀ stored, Opens me { chain with gone := key :: chain.gone } stored →
      chain.Opens me stored := by
    intro stored opens
    exact { opens with present := fun gone => opens.present (List.mem_cons_of_mem _ gone) }
  exact
    { later := timely.later
      life := fun stored opens => timely.life stored (of stored opens)
      goes := fun stored opens => timely.goes stored (of stored opens) }

end Chain

/-- A batch sent elsewhere keeps the open records young enough. -/
theorem Lands.timely {me : Address} {config : Marketplace} {last : Nat} {chain next : Chain}
    {batch : Batch} {patched : List EntityKey} (lands : Lands me chain batch next patched)
    (timely : chain.Timely me config last)
    (elsewhere : ∀ operation ∈ batch, operation.Elsewhere config chain) :
    next.Timely me config last := by
  obtain ⟨count, pairs, all, executed, _⟩ := lands.executed
  have keeps : Chain.Keeps me config last chain (chain.advance count) :=
    { timely := timely.advance count
      head := Nat.le_add_right _ _
      known := fun _ known => known
      openings := fun stored opens record isRecord => by
        have found : chain.entities.get? stored.key = some stored.row := opens.found
        rw [Chain.counterAt, found] at isRecord
        rw [← Option.some.inj isRecord] }
  exact (keeps.execute (fun pair member =>
    elsewhere pair.1 ((mem_of_pairs all).mpr ⟨pair, member, rfl⟩)) executed).timely

/-- A row that a batch leaves and the chain did not have is one of its creates. -/
theorem Lands.created_row {me : Address} {chain next : Chain} {batch : Batch}
    {patched : List EntityKey} (lands : Lands me chain batch next patched)
    (targets : ∀ operation ∈ batch, ∀ key, operation.target = some key →
      (chain.entities.get? key).isSome) {key : EntityKey} {row : Stored Record}
    (free : chain.entities.get? key = none) (found : next.entities.get? key = some row) :
    ∃ seconds, .create row.record seconds ∈ batch ∧ chain.head ≤ row.createdAt ∧
      row.expiresAt = row.createdAt + blocksOf seconds := by
  obtain ⟨count, pairs, all, executed, _⟩ := lands.executed
  rcases Chain.execute_origin executed (by rw [found]; rfl) with old | ⟨record, seconds, inPairs⟩
  · have old : (chain.entities.get? key).isSome := old
    rw [free] at old
    cases old
  · have others : ∀ pair ∈ pairs, pair.1.target ≠ some key := by
      intro pair inOther names
      have known := targets pair.1 ((mem_of_pairs all).mpr ⟨pair, inOther, rfl⟩) key names
      rw [free] at known
      cases known
    have now := (Chain.execute_creates executed inPairs others).2
    rw [found] at now
    obtain rfl := Option.some.inj now
    exact ⟨seconds, (mem_of_pairs all).mpr ⟨_, inPairs, rfl⟩, Nat.le_add_right _ _, rfl⟩

/-! ## Flushes on time -/

namespace FlushRun

variable {chain : Chain} {agent : Agent} (run : FlushRun chain agent)

/-- Every agreement whose period is over served something in it. -/
def Serves : Prop :=
  ∀ live ∈ run.counting.agreements.values, ∀ stored, run.opened.get? live.key = some stored →
    stored.record.openedBlock + blocks agent.config.settlementPeriod ≤ run.head →
      0 < run.counting.pool.served live.provider

/-- A record that was open before the flush and is closed after it, at a period's end or as a stray,
still lives for its life less the period and the flush interval, and less what the flush and its batch
are late. -/
def LeavesTime (late : Nat) : Prop :=
  ∀ before after : Stored CounterRecord, chain.Opens agent.identity.address before →
    after.key = before.key → run.next.entities.get? after.key = some after.row →
      after.key ∉ run.next.gone → after.record.state = .closed →
        blocks agent.config.counterRecordLife ≤ after.expiresAt - run.middle.head +
          (blocks agent.config.settlementPeriod + blocks agent.config.flushInterval) +
            (late + (run.middle.head - run.head))

/-- A record as a flush opens it: at the flush's head, with its whole life. -/
structure Fresh (stored : Stored CounterRecord) : Prop where
  opened : stored.record.openedBlock = run.head
  created : run.head ≤ stored.createdAt
  lives : stored.expiresAt = stored.createdAt + blocks agent.config.counterRecordLife

/-- A create of the first batch opens a record. -/
theorem batch_create {record : Record} {seconds : Nat}
    (member : .create record seconds ∈ run.batch) :
    ∃ live, Operation.create record seconds = run.opening live := by
  rcases run.mem_batch.mp member with ⟨_, _, isDelete⟩ | ⟨stray, _, isWrite⟩ | ⟨live, inLive, counts⟩
  · cases isDelete
  · rw [Agent.strayWrite] at isWrite
    split at isWrite <;> cases isWrite
  · refine ⟨live, ?_⟩
    cases isOpened : run.opened.get? live.key with
    | none =>
        rw [run.countsOf_none isOpened] at counts
        rw [opening, ← Option.some.inj counts, run.counting_retains.config]
    | some first =>
        rw [run.countsOf_some inLive isOpened] at counts
        split at counts
        · cases counts
        · split at counts <;> cases counts

theorem fresh_of_opening {stored : Stored CounterRecord} {live : Live} {seconds : Nat}
    (isOpening : Operation.create (.counter stored.record) seconds = run.opening live)
    (created : run.head ≤ stored.createdAt)
    (lives : stored.expiresAt = stored.createdAt + blocksOf seconds) : run.Fresh stored := by
  obtain ⟨isRecord, rfl⟩ := Operation.create.inj isOpening
  refine ⟨?_, created, lives⟩
  rw [Record.counter.inj isRecord]
  rfl

variable {run} {last : Nat}

theorem next_timely (timely : chain.Timely agent.identity.address agent.config last)
    (serves : run.Serves) :
    run.next.Timely agent.identity.address agent.config run.head := by
  have later : run.head ≤ run.next.head :=
    run.earlier.trans (run.head_le.1.trans run.head_le.2)
  have of : ∀ stored, run.next.Opens agent.identity.address stored →
      stored.record.openedBlock + blocks agent.config.counterRecordLife ≤ stored.expiresAt ∧
      (run.head < stored.record.openedBlock + blocks agent.config.settlementPeriod ∨
        run.head + blocks agent.config.counterRecordLife ≤ stored.expiresAt) := by
    intro stored opens
    have ofFresh : run.Fresh stored →
        stored.record.openedBlock + blocks agent.config.counterRecordLife ≤ stored.expiresAt ∧
        (run.head < stored.record.openedBlock + blocks agent.config.settlementPeriod ∨
          run.head + blocks agent.config.counterRecordLife ≤ stored.expiresAt) := by
      intro fresh
      have long : run.head + blocks agent.config.counterRecordLife ≤ stored.expiresAt :=
        (Nat.add_le_add_right fresh.created _).trans fresh.lives.ge
      exact ⟨by rw [fresh.opened]; exact long, .inr long⟩
    obtain ⟨live, inLive, isKey, origin⟩ := run.next_origin opens
    cases origin with
    | begins missing found free =>
        obtain ⟨seconds, member, created, lives⟩ :=
          run.batch_lands.created_row run.batch_targets free found
        obtain ⟨other, isOpening⟩ := run.batch_create member
        exact ofFresh (run.fresh_of_opening isOpening (run.earlier.trans created) lives)
    | succeeds first found ended free =>
        obtain ⟨seconds, member, created, lives⟩ :=
          run.second_lands.created_row run.second_targets free opens.found
        obtain ⟨other, _, _, _, _, isOpening⟩ := run.mem_second.mp member
        have later := (run.earlier.trans run.head_le.1).trans created
        exact ofFresh (run.fresh_of_opening isOpening later lives)
    | counts first found goes same =>
        have opensFirst := run.mem_records.mp (run.opened_mem found).1
        have now := run.next_row (run.middle_counted inLive found)
        rw [← same, opens.found] at now
        have sameRow := Option.some.inj now
        have expires : stored.expiresAt = first.expiresAt :=
          congrArg (fun row : Stored Record => row.expiresAt) sameRow
        have record : stored.record = run.rewritten live first :=
          Record.counter.inj (congrArg (fun row : Stored Record => row.record) sameRow)
        have opened : stored.record.openedBlock = first.record.openedBlock := by
          rw [record, rewritten]
          split <;> rfl
        rw [expires, opened]
        refine ⟨timely.life first opensFirst, .inl ?_⟩
        by_contra over_
        have ended := Nat.le_of_not_lt over_
        refine goes ⟨serves live inLive first found ended, ?_⟩
        rw [run.counting_retains.config]
        exact ended
  exact
    { later := later
      life := fun stored opens => (of stored opens).1
      goes := fun stored opens => (of stored opens).2 }

/-- A flush on time closes records that still live long enough. -/
theorem closes_in_time {late : Nat} (timely : chain.Timely agent.identity.address agent.config last)
    (onTime : run.head ≤ last + blocks agent.config.flushInterval + late) :
    run.LeavesTime late := by
  intro before after opens same found present _
  have inRecords := run.mem_records.mpr opens
  rw [same, run.next_gone, run.middle_gone, not_or, not_or] at present
  obtain ⟨_, notYounger, notEmpty⟩ := present
  -- Whichever way it is closed, its row keeps its expiry.
  have expires : after.expiresAt = before.expiresAt := by
    have of : ∀ row : Stored Record, run.middle.entities.get? before.key = some row →
        row.expiresAt = before.expiresAt → after.expiresAt = before.expiresAt := by
      intro row isMiddle keeps
      have now := run.next_row isMiddle
      rw [← same, found] at now
      exact (congrArg Stored.expiresAt (Option.some.inj now)).trans keeps
    rcases run.place inRecords with younger | isStray | ⟨live, inLive, isOpened⟩
    · exact absurd younger notYounger
    · have counted : before.record.count ≠ 0 :=
        fun zero => notEmpty ⟨before, isStray, rfl, zero⟩
      exact of _ (run.middle_stray isStray counted) rfl
    · exact of _ (run.middle_counted inLive isOpened) rfl
  have life := timely.life before opens
  have goes := timely.goes before opens
  have earlier := run.earlier.trans run.head_le.1
  rw [expires]
  omega

end FlushRun

/-- The chains that a day's work leads to, with the head of the last scheduled flush: blocks, other
people's rows, what the LB writes elsewhere, and scheduled flushes on time that land. -/
inductive Days (me : Address) (config : Marketplace) (late : Nat)
    (ok : ∀ (chain : Chain) (agent : Agent), FlushRun chain agent → Prop) : Chain → Nat → Prop
  | begins {chain : Chain} (none : ∀ stored, ¬chain.Opens me stored) :
      Days me config late ok chain chain.head
  | seals {chain : Chain} {last : Nat} (days : Days me config late ok chain last) (count : Nat) :
      Days me config late ok (chain.advance count) last
  | posts {chain : Chain} {last : Nat} (days : Days me config late ok chain last)
      (row : Stored Record) (other : row.creator ≠ me) :
      Days me config late ok { chain with entities := chain.entities.insert row } last
  | withdraws {chain : Chain} {last : Nat} (days : Days me config late ok chain last)
      (key : EntityKey) : Days me config late ok { chain with gone := key :: chain.gone } last
  | writes {chain next : Chain} {last : Nat} (days : Days me config late ok chain last)
      (batch : Batch) (patched : List EntityKey) (lands : Lands me chain batch next patched)
      (elsewhere : ∀ operation ∈ batch, operation.Elsewhere config chain) :
      Days me config late ok next last
  | flush {chain : Chain} {agent : Agent} {last : Nat} (days : Days me config late ok chain last)
      (run : FlushRun chain agent) (isMe : agent.identity.address = me)
      (isConfig : agent.config = config)
      (onTime : run.head ≤ last + blocks config.flushInterval + late)
      (meets : ok chain agent run) : Days me config late ok run.next run.head

theorem Days.timely {me : Address} {config : Marketplace} {late last : Nat} {chain : Chain}
    (days : Days me config late (fun _ _ run => run.Serves) chain last) :
    chain.Timely me config last := by
  induction days with
  | begins none =>
      exact ⟨le_rfl, fun stored opens => absurd opens (none stored),
        fun stored opens => absurd opens (none stored)⟩
  | seals days count ih => exact ih.advance count
  | posts days row other ih => exact ih.insert other
  | withdraws days key ih => exact ih.withdraw key
  | writes days batch patched lands elsewhere ih => exact lands.timely ih elsewhere
  | flush days run isMe isConfig onTime meets ih =>
      subst isMe isConfig
      exact FlushRun.next_timely ih meets

/-- Where every period that is over at a flush has served something, every record a flush on time
closes still lives for its life less the period and the flush interval. -/
theorem Days.leavesTime {me : Address} {config : Marketplace} {late last : Nat} {chain : Chain}
    (days : Days me config late (fun _ _ run => run.Serves) chain last) {agent : Agent}
    (run : FlushRun chain agent) (isMe : agent.identity.address = me)
    (isConfig : agent.config = config)
    (onTime : run.head ≤ last + blocks config.flushInterval + late) : run.LeavesTime late := by
  subst isMe isConfig
  exact FlushRun.closes_in_time days.timely onTime

/-! ## An agreement that serves at once -/

/-- A chain with nothing of the LB's. -/
def bareChain : Chain where
  head := 0
  entities := .empty
  gone := []

/-- The record the first flush opens for the agreement. -/
def firstRecord : Stored CounterRecord where
  key := 300
  creator := 1
  createdAt := 0
  expiresAt := 10000
  record :=
    { agreement := 200
      provider := 33
      state := .opened
      count := 0
      weiPerCall := 7
      openedBlock := 0
      closedBlock := none }

def firstChain : Chain :=
  { bareChain with entities := Keyed.empty.insert firstRecord.row }

/-- The first flush opens the record. -/
def openingRun : FlushRun bareChain pairAgent where
  head := 0
  earlier := le_rfl
  shown := []
  rows := []
  page := by rfl
  fits := by decide
  order := []
  base := pairAgent
  retained := .refl pairAgent
  closed := []
  looked := by simp
  counting := _
  counted := .refl _
  middle := firstChain
  patched := []
  counts := ⟨0, [300], rfl, rfl⟩
  answered := _
  answers := .refl _
  next := firstChain
  named := []
  successors := ⟨0, [], rfl, rfl⟩

/-- Memory once the agreement served a request. -/
def servedAgent : Agent :=
  { pairAgent with pool := pairAgent.pool.modify 0 Provider.recordServed }

def closedChain : Chain :=
  { firstChain.advance 1 with
    entities := Keyed.empty.insert
      { firstRecord.row with record := .counter (closed firstRecord.record 1 1) } }

/-- The next flush closes it. -/
def closingRun : FlushRun (firstChain.advance 1) servedAgent where
  head := 1
  earlier := le_rfl
  shown := [300]
  rows := [firstRecord.row]
  page := by rfl
  fits := by decide
  order := []
  base := servedAgent
  retained := .refl servedAgent
  closed := []
  looked := by simp
  counting := _
  counted := .refl _
  middle := closedChain
  patched := [300]
  counts := ⟨0, [301], rfl, rfl⟩
  answered := _
  answers := .refl _
  next :=
    { closedChain with
      entities := closedChain.entities.insert
        { firstRecord.row with
          key := 302
          createdAt := 1
          expiresAt := 10001
          record := .counter { firstRecord.record with openedBlock := 1 } } }
  named := []
  successors := ⟨0, [302], rfl, rfl⟩

theorem leavesTime_small : closingRun.LeavesTime 0 := by
  have begins : Days 1 smallSection 0 (fun _ _ run => run.Serves) bareChain 0 := by
    refine .begins fun stored opens => ?_
    have found : bareChain.entities.get? stored.key = none := rfl
    rw [opens.found] at found
    cases found
  have serves : openingRun.Serves := by
    intro live _ stored found
    have missing : openingRun.opened.get? live.key = none := rfl
    rw [missing] at found
    cases found
  have opened := begins.flush openingRun rfl rfl (by decide) serves
  exact (opened.seals 1).leavesTime closingRun rfl rfl (by decide)

end CommunityLb
