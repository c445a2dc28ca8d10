import CommunityLb.Marketplace.Ground

/-!
# The account of an agreement

What a state of the world holds of one agreement, and how a batch that lands shows there.
-/

namespace CommunityLb

/-- The writes of some batches to an agreement's counter records, in order. -/
def writesOf (me : Address) (chain : Chain) (agreement : EntityKey) (queue : List Batch) :
    List CounterWrite :=
  queue.flatten.filterMap (Operation.writeFor me chain agreement)

/-- The reconcile is a flush's. -/
def Work.flushing : Work → Bool
  | flush _ => true
  | _ => false

/-- What a task has at hand of an agreement. -/
def Task.desk (me : Address) (chain : Chain) (agreement : EntityKey) (agent : Agent) : Task → Desk
  | .closeEnded _ _ queue | .flushSuccessors _ queue | .refreshWrites queue =>
      .writing (writesOf me chain agreement queue) none
  | .closedCount work _ opened duplicates missing closed =>
      .shown work.flushing ((opened.get? agreement).map Entry.ofStored)
        (duplicates.filter (chain.owner me · = some agreement))
        (missing.lookup agreement) (closed.lookup agreement)
  | .countsBatch _ _ counters =>
      .matched true
        (((counters.opened.get? agreement).or
          (counters.strays.find? (·.record.agreement = agreement))).map Entry.ofStored)
        (counters.duplicates.filter (chain.owner me · = some agreement))
  | .flushCounts _ _ closing queue patched =>
      .writing (writesOf me chain agreement queue)
        ((closing.find? (·.agreement = agreement)).map fun close =>
          { counter := close.counter
            count := close.count
            landed := close.counter ∈ patched })
  | .acceptCounter discovery offer port accepted =>
      if accepted = agreement then
        .accepting (freshCounter agreement (agent.acceptedRecord offer port)
          agent.config.weiPerCall discovery.head)
      else .clear
  | _ => .clear

/-- What memory holds of an agreement. -/
def Agent.held (agent : Agent) (agreement : EntityKey) : Option Held :=
  (agent.agreements.get? agreement).map fun live =>
    { counter := live.counter.map (·.key)
      served := agent.pool.served live.provider
      total := agent.pool.servedTotal live.provider }

namespace State

/-- What the task has at hand of an agreement, when a process runs. -/
def desk (me : Address) (agreement : EntityKey) (state : State) : Desk :=
  match state.process with
  | none => .clear
  | some process => process.task.desk me state.chain agreement process.agent

/-- What memory holds of an agreement, when a process runs. -/
def held (agreement : EntityKey) (state : State) : Option Held :=
  state.process.bind (·.agent.held agreement)

/-- The account of an agreement with a given desk and memory. -/
def accountWith (me : Address) (agreement : EntityKey) (state : State) (desk : Desk)
    (held : Option Held) : Account where
  head := state.chain.head
  rows := state.chain.counters me agreement
  seen := state.behind.map (·.counters me agreement)
  sent := writesOf me state.chain agreement state.pending
  desk := desk
  held := held
  dead := state.chain.lost agreement
  mining := false
  log := state.served.count agreement

/-- The account of an agreement. -/
def account (me : Address) (agreement : EntityKey) (state : State) : Account :=
  state.accountWith me agreement (state.desk me agreement) (state.held agreement)

end State

/-! ## What an account mentions -/

/-- Every key that an account mentions is of an entity. -/
structure Account.Known (chain : Chain) (account : Account) : Prop where
  rows : ∀ row ∈ account.rows, (chain.entities.get? row.key).isSome
  seen : ∀ rows ∈ account.seen, ∀ row ∈ rows, (chain.entities.get? row.key).isSome
  sent : ∀ write ∈ account.sent, ∀ key ∈ write.target, (chain.entities.get? key).isSome
  desk : ∀ key ∈ account.desk.mentions, (chain.entities.get? key).isSome
  held : ∀ key ∈ account.held.bind (·.counter), (chain.entities.get? key).isSome

namespace Account

variable {me : Address} {agreement fresh : EntityKey} {start chain next : Chain}
  {account : Account} {ok : Label → Account → Prop}

theorem Known.mentions (known : account.Known chain) {key : EntityKey}
    (mentioned : key ∈ account.mentions) : (chain.entities.get? key).isSome := by
  simp only [Account.mentions, List.mem_append] at mentioned
  rcases mentioned with (((inRows | inSeen) | inSent) | onDesk) | inMemory
  · obtain ⟨row, member, rfl⟩ := List.mem_map.mp inRows
    exact known.rows row member
  · obtain ⟨rows, isSeen, inRows⟩ := List.mem_flatMap.mp inSeen
    obtain ⟨row, member, rfl⟩ := List.mem_map.mp inRows
    exact known.seen rows isSeen row member
  · obtain ⟨write, member, target⟩ := List.mem_filterMap.mp inSent
    exact known.sent write member key target
  · exact known.desk key onDesk
  · exact known.held key (by simpa using inMemory)

theorem Known.mono (known : account.Known chain) (grows : chain.Grows me next) :
    account.Known next where
  rows row member := grows.known _ (known.rows row member)
  seen rows isSeen row member := grows.known _ (known.seen rows isSeen row member)
  sent write member key target := grows.known _ (known.sent write member key target)
  desk key member := grows.known _ (known.desk key member)
  held key member := grows.known _ (known.held key member)

/-! ## What lands -/

/-- A write that opens a record is its create. -/
theorem writeFor_opening {operation : Operation} {record : CounterRecord}
    (writes : operation.writeFor me chain agreement = some (.opening record)) :
    ∃ seconds, operation = .create (.counter record) seconds := by
  cases operation with
  | create created seconds =>
      cases created with
      | counter counter =>
          simp only [Operation.writeFor, Option.ite_none_right_eq_some, Option.some.injEq,
            CounterWrite.opening.injEq] at writes
          exact ⟨seconds, by rw [writes.2]⟩
      | listing record => cases writes
      | offer record => cases writes
      | agreement record => cases writes
      | unreadable kind state => cases writes
  | patch key set =>
      cases set with
      | listing record => cases writes
      | counter payload state => simp [Operation.writeFor] at writes
  | delete key => simp [Operation.writeFor] at writes
  | extend key seconds => cases writes

/-- The next write on its way lands on some rows. -/
structure Lands (ok : Label → Account → Prop) (rows : List Entry) (write : CounterWrite)
    (before after : Account) : Prop where
  step : Step ok before after
  onto : before.rows = rows
  queued : before.outstanding = write :: after.outstanding
  lands : ∃ fresh, write.land before.head fresh rows = some after.rows

/-- The steps from one account to another, with the operations that land in between, each with the
chain it lands on. -/
structure Passes (me : Address) (agreement : EntityKey) (ok : Label → Account → Prop)
    (before after : Account) (landings : List (Chain × Operation)) : Prop where
  steps : Relation.ReflTransGen (Step ok) before after
  lands : ∀ landing ∈ landings, ∀ write,
    landing.2.writeFor me landing.1 agreement = some write →
      ∃ start finish, Relation.ReflTransGen (Step ok) before start ∧
        Lands ok (landing.1.counters me agreement) write start finish ∧
        Relation.ReflTransGen (Step ok) finish after

namespace Passes

variable {before middle after : Account} {first second : List (Chain × Operation)}

theorem of_steps (steps : Relation.ReflTransGen (Step ok) before after) :
    Passes me agreement ok before after [] :=
  ⟨steps, fun _ member => nomatch member⟩

theorem refl (account : Account) : Passes me agreement ok account account [] :=
  of_steps .refl

theorem trans (passes : Passes me agreement ok before middle first)
    (later : Passes me agreement ok middle after second) :
    Passes me agreement ok before after (first ++ second) where
  steps := passes.steps.trans later.steps
  lands := by
    intro landing member write writes
    rcases List.mem_append.mp member with inFirst | inSecond
    · obtain ⟨start, finish, steps, lands, rest⟩ := passes.lands landing inFirst write writes
      exact ⟨start, finish, steps, lands, rest.trans later.steps⟩
    · obtain ⟨start, finish, steps, lands, rest⟩ := later.lands landing inSecond write writes
      exact ⟨start, finish, passes.steps.trans steps, lands, rest⟩

/-- Steps first, in which nothing lands. -/
theorem after_steps (steps : Relation.ReflTransGen (Step ok) before middle)
    (later : Passes me agreement ok middle after second) :
    Passes me agreement ok before after second :=
  (of_steps steps).trans later

end Passes

end Account

/-- The operations of a batch that lands, each with the chain it lands on. -/
def Chain.landings (creator : Address) :
    Chain → List (Operation × EntityKey) → List (Chain × Operation)
  | _, [] => []
  | chain, (operation, fresh) :: rest =>
      (chain, operation) ::
        match chain.operate creator fresh operation with
        | none => []
        | some next => landings creator next rest

/-- The operations that land as the first writes in flight land or drop. -/
def Chain.settleLandings (creator : Address) :
    Chain → List Batch → List (Option (List EntityKey)) → List (Chain × Operation)
  | chain, _ :: pending, none :: fates => settleLandings creator chain pending fates
  | chain, batch :: pending, some keys :: fates =>
      chain.landings creator (batch.zip keys) ++
        match chain.land creator batch keys with
        | none => []
        | some next => settleLandings creator next pending fates
  | _, _, _ => []

namespace Account

variable {me : Address} {agreement fresh : EntityKey} {start chain next : Chain}
  {account : Account} {ok : Label → Account → Prop}

theorem counters_known {row : Entry} (member : row ∈ chain.counters me agreement) :
    (chain.entities.get? row.key).isSome := by
  obtain ⟨stored, inChain, _, _, same, _⟩ := Chain.mem_counters.mp member
  rw [← same, Keyed.get?_key inChain]
  rfl

/-- Accounts that differ in the writes to land, in the rows, and in a note of what has landed. -/
structure Landing (ok : Label → Account → Prop) (me : Address) (agreement : EntityKey)
    (start : Chain) (whole : List CounterWrite) {γ : Type} (note : CounterWrite → γ → γ)
    (at_ : γ → List CounterWrite → List Entry → Account) : Prop where
  rows : ∀ noted writes rows, (at_ noted writes rows).rows = rows
  known : ∀ noted writes later, writes <:+ whole → start.Grows me later →
    (at_ noted writes (later.counters me agreement)).Known later
  lands : ∀ noted write writes rows fresh landed,
    (∀ record, write = .opening record → fresh ∉ (at_ noted (write :: writes) rows).mentions) →
      write.land start.head fresh rows = some landed →
        Lands ok rows write (at_ noted (write :: writes) rows)
          (at_ (note write noted) writes landed)

/-- A batch that lands: its writes take the records on, one after the other. -/
theorem Landing.executes {whole rest : List CounterWrite} {γ : Type}
    {note : CounterWrite → γ → γ} {at_ : γ → List CounterWrite → List Entry → Account}
    (landing : Landing ok me agreement start whole note at_) {batch : List (Operation × EntityKey)}
    (follows : start.Follows me chain) (head : chain.head = start.head)
    (sane : ∀ pair ∈ batch, pair.1.Sane me start)
    (executed : chain.execute me batch = some next) (noted : γ)
    (part : (batch.map Prod.fst).filterMap (Operation.writeFor me start agreement) ++ rest <:+
      whole) :
    Passes me agreement ok
      (at_ noted ((batch.map Prod.fst).filterMap (Operation.writeFor me start agreement) ++ rest)
        (chain.counters me agreement))
      (at_ (((batch.map Prod.fst).filterMap (Operation.writeFor me start agreement)).foldl
        (fun noted write => note write noted) noted) rest (next.counters me agreement))
      (chain.landings me batch) := by
  induction batch generalizing chain noted with
  | nil =>
      cases executed
      exact .refl _
  | cons pair batch ih =>
      obtain ⟨operation, fresh⟩ := pair
      obtain ⟨middle, operated, remaining⟩ := Option.bind_eq_some_iff.mp executed
      have isSane := sane (operation, fresh) List.mem_cons_self
      have sane' := fun other member => sane other (List.mem_cons_of_mem _ member)
      have follows' := follows.operate isSane operated
      have head' := (Chain.operate_head operated).trans head
      have same : operation.writeFor me chain agreement = operation.writeFor me start agreement :=
        follows.grows.writeFor isSane
      have records : Chain.landFor chain.head fresh (chain.counters me agreement)
          (operation.writeFor me chain agreement) = some (middle.counters me agreement) :=
        Chain.operate_counters (follows.grows.sane isSane) follows.rooted.gone operated
      rw [same, head] at records
      simp only [List.map_cons, List.filterMap_cons, Chain.landings, operated] at part ⊢
      cases writes : operation.writeFor me start agreement with
      | none =>
          simp only [writes] at records part ⊢
          have kept : chain.counters me agreement = middle.counters me agreement :=
            Option.some.inj records
          have later := ih follows' head' sane' remaining noted part
          rw [kept]
          refine ⟨later.steps, fun landing member write isWrite => ?_⟩
          rcases List.mem_cons.mp member with rfl | inLater
          · rw [same, writes] at isWrite
            cases isWrite
          · exact later.lands landing inLater write isWrite
      | some write =>
          simp only [writes, List.cons_append] at records part ⊢
          have unused : ∀ record, write = .opening record →
              fresh ∉ (at_ noted (write :: ((batch.map Prod.fst).filterMap
                (Operation.writeFor me start agreement) ++ rest))
                (chain.counters me agreement)).mentions := by
            rintro record rfl mentioned
            obtain ⟨seconds, rfl⟩ := writeFor_opening writes
            have isKnown := (landing.known noted _ chain part follows.grows).mentions mentioned
            simp [Chain.operate_fresh operated] at isKnown
          have lands := landing.lands noted write _ _ fresh _ unused records
          have later := ih follows' head' sane' remaining (note write noted)
            ((List.suffix_cons _ _).trans part)
          refine ⟨.head lands.step later.steps, fun landed member other isWrite => ?_⟩
          rcases List.mem_cons.mp member with rfl | inLater
          · obtain rfl : write = other := Option.some.inj ((same.trans writes).symm.trans isWrite)
            exact ⟨_, _, .refl, lands, later.steps⟩
          · obtain ⟨before, after, steps, onto, remains⟩ := later.lands landed inLater other isWrite
            exact ⟨before, after, .head lands.step steps, onto, remains⟩

/-! ### Writes in flight -/

/-- The account with other records, and other writes in flight. -/
def inFlight (account : Account) (_ : Unit) (sent : List CounterWrite) (rows : List Entry) :
    Account :=
  { account with
    rows := rows
    sent := sent }

theorem Known.inFlight (known : account.Known start) (grows : start.Grows me next)
    {sent : List CounterWrite} (part : sent <:+ account.sent) :
    (account.inFlight () sent (next.counters me agreement)).Known next where
  rows _ member := counters_known member
  seen := (known.mono grows).seen
  sent write member := (known.mono grows).sent write (part.subset member)
  desk := (known.mono grows).desk
  held := (known.mono grows).held

theorem landing_inFlight (known : account.Known start) (mining : account.mining = true)
    (head : account.head = start.head) :
    Landing ok me agreement start account.sent (fun _ _ => ()) account.inFlight where
  rows _ _ _ := rfl
  known _ _ _ part grows := known.inFlight grows part
  lands _ write writes rows fresh landed unused lands :=
    { step := @Step.land ok (account.inFlight () (write :: writes) rows) write writes fresh landed
        rfl mining unused (by rw [← head] at lands; exact lands)
      onto := rfl
      queued := rfl
      lands := ⟨fresh, by rw [← head] at lands; exact lands⟩ }

theorem drops (account : Account) (dropped rest : List CounterWrite) (rows : List Entry) :
    Relation.ReflTransGen (Step ok) (account.inFlight () (dropped ++ rest) rows)
      (account.inFlight () rest rows) := by
  induction dropped with
  | nil => exact .refl
  | cons write dropped ih =>
      exact .head (@Step.drop ok (account.inFlight () (write :: dropped ++ rest) rows) _ _ rfl) ih

theorem writesOf_cons (me : Address) (chain : Chain) (agreement : EntityKey) (batch : Batch)
    (queue : List Batch) :
    writesOf me chain agreement (batch :: queue) =
      batch.filterMap (Operation.writeFor me chain agreement) ++
        writesOf me chain agreement queue := by
  simp [writesOf]

theorem writesOf_append (me : Address) (chain : Chain) (agreement : EntityKey)
    (first second : List Batch) :
    writesOf me chain agreement (first ++ second) =
      writesOf me chain agreement first ++ writesOf me chain agreement second := by
  simp [writesOf]

/-- The first writes in flight land or drop. -/
theorem settles (known : account.Known start) (mining : account.mining = true)
    (head : account.head = start.head) {pending rest : List Batch}
    {fates : List (Option (List EntityKey))} (follows : start.Follows me chain)
    (sameHead : chain.head = start.head) (sane : SaneQueue me start pending)
    (part : writesOf me start agreement pending <:+ account.sent)
    (settled : chain.settle me pending fates = some (next, rest)) :
    Passes me agreement ok
      (account.inFlight () (writesOf me start agreement pending) (chain.counters me agreement))
      (account.inFlight () (writesOf me start agreement rest) (next.counters me agreement))
      (chain.settleLandings me pending fates) := by
  induction fates generalizing chain pending with
  | nil =>
      obtain ⟨rfl, rfl⟩ := Chain.settle_nil.mp settled
      cases pending <;> exact .refl _
  | cons fate fates ih =>
      obtain ⟨batch, others, rfl, remaining⟩ := Chain.settle_cons.mp settled
      have sane' : SaneQueue me start others :=
        fun other member => sane other (List.mem_cons_of_mem _ member)
      have here := sane batch List.mem_cons_self
      rw [writesOf_cons] at part ⊢
      have part' := (List.suffix_append _ _).trans part
      cases fate with
      | none => exact .after_steps (drops _ _ _ _) (ih follows sameHead sane' part' remaining)
      | some keys =>
          obtain ⟨middle, landed, remaining⟩ := remaining
          obtain ⟨length, executed⟩ := Chain.land_eq_some.mp landed
          have operations : (batch.zip keys).map Prod.fst = batch := List.map_fst_zip length.ge
          have landing : Landing ok me agreement start account.sent (fun _ _ => ())
              account.inFlight := landing_inFlight known mining head
          have whole : ((batch.zip keys).map Prod.fst).filterMap
              (Operation.writeFor me start agreement) ++ writesOf me start agreement others <:+
                account.sent := operations.symm ▸ part
          have lands := landing.executes follows sameHead
            (fun pair member => here pair.1 (List.of_mem_zip member).1) executed () whole
          rw [operations] at lands
          have later := ih (follows.land here landed) ((Chain.land_head landed).trans sameHead) sane'
            part' remaining
          simpa only [Chain.settleLandings, landed] using lands.trans later

/-! ### Writes at hand -/

/-- A write is a patch of the record to close. -/
def answers (close : Option Close) (write : CounterWrite) : Bool :=
  close.any fun close => write.patched = some close.counter

/-- The account with other records, and other writes at hand. -/
def atHand (account : Account) (close : Option Close) (landed : Bool) (queue : List CounterWrite)
    (rows : List Entry) : Account :=
  { account with
    rows := rows
    desk := .writing queue (close.map fun close => { close with landed := landed }) }

theorem Close.answered_eq (write : CounterWrite) (close : Close) (landed : Bool) :
    Close.answered write { close with landed := landed } =
      { close with landed := answers (some close) write || landed } := by
  cases write with
  | opening record => simp [Close.answered, answers, CounterWrite.patched]
  | delete key => simp [Close.answered, answers, CounterWrite.patched]
  | patch key payload closing =>
      simp [Close.answered, answers, CounterWrite.patched, Bool.or_comm]

theorem landing_atHand {queue : List CounterWrite} {close : Option Close}
    (known : account.Known start) (mining : account.mining = true)
    (head : account.head = start.head) (unsent : account.sent = [])
    (desk : account.desk = .writing queue close) :
    Landing ok me agreement start queue (fun write landed => answers close write || landed)
      (account.atHand close) where
  rows _ _ _ := rfl
  known landed writes later part grows :=
    { rows := fun _ member => counters_known member
      seen := (known.mono grows).seen
      sent := (known.mono grows).sent
      desk := by
        intro key member
        refine (known.mono grows).desk key ?_
        rw [desk]
        simp only [atHand, Desk.mentions, List.mem_append] at member ⊢
        refine member.imp (fun target => ?_) fun close => by simpa using close
        obtain ⟨write, inQueue, target⟩ := List.mem_filterMap.mp target
        exact List.mem_filterMap.mpr ⟨write, part.subset inQueue, target⟩
      held := (known.mono grows).held }
  lands landed write writes rows fresh after unused lands := by
    have lands' : write.land account.head fresh rows = some after := by rwa [head]
    refine ⟨?_, rfl, ?_, fresh, lands'⟩
    · have step := @Step.send ok (account.atHand close landed (write :: writes) rows) _ _ _ _ _
        rfl unsent mining unused lands'
      have noted : (close.map fun close => { close with landed := landed }).map
          (Close.answered write) =
            close.map fun made => { made with landed := answers close write || landed } := by
        cases close with
        | none => rfl
        | some close => simp [Close.answered_eq]
      rw [noted] at step
      exact step
    · simp [outstanding, atHand, unsent]

/-- The agreement's record may have gone, and the block is done. -/
theorem blockDone (account : Account) (dead : Bool) (stays : account.dead = true → dead = true) :
    Relation.ReflTransGen (Step ok) account
      { account with
        dead := dead
        mining := false } := by
  cases dead with
  | true => exact .head .die (.single .settle)
  | false =>
      have alive : account.dead = false := by simpa using stays
      have done : Step ok account { account with mining := false } := .settle
      rw [alive] at done
      exact .single done

end Account

/-! ## What a task has at hand -/

section Desk

variable {me : Address} {agreement : EntityKey} {chain next : Chain}

/-- A write to a record is to one of the agreement's. -/
theorem writeFor_target {operation : Operation} {write : CounterWrite} {key : EntityKey}
    (writes : operation.writeFor me chain agreement = some write)
    (target : write.target = some key) : chain.owner me key = some agreement := by
  cases operation with
  | create record seconds =>
      cases record with
      | counter record =>
          obtain rfl := (Option.some.inj (Option.ite_none_right_eq_some.mp writes).2)
          cases target
      | listing record => cases writes
      | offer record => cases writes
      | agreement record => cases writes
      | unreadable kind state => cases writes
  | patch patched set =>
      cases set with
      | listing record => cases writes
      | counter payload state =>
          obtain ⟨owned, same⟩ := Option.ite_none_right_eq_some.mp writes
          obtain rfl := Option.some.inj same
          obtain rfl := Option.some.inj target
          exact owned
  | delete deleted =>
      obtain ⟨owned, same⟩ := Option.ite_none_right_eq_some.mp writes
      obtain rfl := Option.some.inj same
      obtain rfl := Option.some.inj target
      exact owned
  | extend key seconds => cases writes

theorem mem_writesOf {queue : List Batch} {write : CounterWrite} :
    write ∈ writesOf me chain agreement queue ↔
      ∃ batch ∈ queue, ∃ operation ∈ batch,
        operation.writeFor me chain agreement = some write := by
  simp only [writesOf, List.mem_filterMap, List.mem_flatten]
  constructor
  · rintro ⟨operation, ⟨batch, inQueue, inBatch⟩, writes⟩
    exact ⟨batch, inQueue, operation, inBatch, writes⟩
  · rintro ⟨batch, inQueue, operation, inBatch, writes⟩
    exact ⟨operation, ⟨batch, inQueue, inBatch⟩, writes⟩

theorem writesOf_known {queue : List Batch} {write : CounterWrite} {key : EntityKey}
    (member : write ∈ writesOf me chain agreement queue) (target : key ∈ write.target) :
    (chain.entities.get? key).isSome := by
  obtain ⟨_, _, operation, _, writes⟩ := mem_writesOf.mp member
  exact Chain.known_of_owner (Option.isSome_of_mem (writeFor_target writes target))

theorem writesOf_grows {queue : List Batch} (sane : SaneQueue me chain queue)
    (grows : chain.Grows me next) :
    writesOf me next agreement queue = writesOf me chain agreement queue := by
  refine List.filterMap_congr fun operation member => ?_
  obtain ⟨batch, inQueue, inBatch⟩ := List.mem_flatten.mp member
  exact grows.writeFor (sane batch inQueue operation inBatch)

/-- What is at hand stays so as the chain goes on. -/
theorem Task.desk_grows {task : Task} {agent : Agent} {agreements : KnownAgreements}
    (grounded : task.Grounded me chain agreements) (grows : chain.Grows me next) :
    task.desk me next agreement agent = task.desk me chain agreement agent := by
  have younger : ∀ keys : List EntityKey, (∀ key ∈ keys, (chain.owner me key).isSome) →
      keys.filter (next.owner me · = some agreement) =
        keys.filter (chain.owner me · = some agreement) := by
    refine fun keys owned => List.filter_congr fun key member => ?_
    rw [grows.owner key (Chain.known_of_owner (owned key member))]
  cases task with
  | closeEnded work head queue => simp only [desk, writesOf_grows grounded grows]
  | flushSuccessors kind queue => simp only [desk, writesOf_grows grounded grows]
  | refreshWrites queue => simp only [desk, writesOf_grows grounded grows]
  | closedCount work head opened duplicates missing closed =>
      simp only [desk, younger _ (LookupGrounded.younger grounded)]
  | countsBatch kind head counters =>
      simp only [desk, younger _ (Counters.Grounded.duplicates grounded)]
  | flushCounts kind head closing queue patched =>
      simp only [desk, writesOf_grows grounded.1 grows]
  | _ => rfl

theorem mem_of_lookup {α : Type} {pairs : List (EntityKey × α)} {key : EntityKey} {value : α}
    (found : pairs.lookup key = some value) : (key, value) ∈ pairs := by
  induction pairs with
  | nil => cases found
  | cons pair pairs ih =>
      rw [List.lookup_cons] at found
      split at found
      · next same =>
          rw [eq_of_beq same, ← Option.some.inj found]
          exact List.mem_cons_self
      · exact List.mem_cons_of_mem _ (ih found)

/-- What is at hand is of entities. -/
theorem Task.desk_known {task : Task} {agent : Agent} {agreements : KnownAgreements}
    (grounded : task.Grounded me chain agreements) {key : EntityKey}
    (mentioned : key ∈ (task.desk me chain agreement agent).mentions) :
    (chain.entities.get? key).isSome := by
  have known : ∀ {key other : EntityKey}, chain.owner me key = some other →
      (chain.entities.get? key).isSome :=
    fun owned => Chain.known_of_owner (Option.isSome_of_mem owned)
  have queued : ∀ queue, key ∈ (Desk.writing (writesOf me chain agreement queue) none).mentions →
      (chain.entities.get? key).isSome := by
    intro queue member
    obtain ⟨write, inQueue, target⟩ := List.mem_filterMap.mp (by simpa [Desk.mentions] using member)
    exact writesOf_known inQueue target
  cases task with
  | closeEnded work head queue => exact queued queue mentioned
  | flushSuccessors kind queue => exact queued queue mentioned
  | refreshWrites queue => exact queued queue mentioned
  | closedCount work head opened duplicates missing closed =>
      have lookup : LookupGrounded me chain agreements opened duplicates missing closed := grounded
      simp only [desk, Desk.mentions, List.mem_append, Option.mem_toList, List.mem_filter] at mentioned
      rcases mentioned with (inRow | isYounger) | isMissing
      · obtain ⟨stored, found, rfl⟩ : ∃ stored, opened.get? agreement = some stored ∧
            stored.key = key := by simpa [Entry.ofStored] using inRow
        exact known (lookup.records stored (Keyed.get?_eq_some.mp found).1)
      · exact known (of_decide_eq_true isYounger.2)
      · exact known (lookup.looked _ (mem_of_lookup isMissing))
  | countsBatch kind head counters =>
      have read : counters.Grounded me chain agreements := grounded
      simp only [desk, Desk.mentions, List.mem_append, Option.mem_toList, List.mem_filter] at mentioned
      rcases mentioned with inRow | isYounger
      · obtain ⟨stored, found, rfl⟩ : ∃ stored, ((counters.opened.get? agreement).or
            (counters.strays.find? (·.record.agreement = agreement))) = some stored ∧
              stored.key = key := by simpa [Entry.ofStored] using inRow
        rcases Option.or_eq_some_iff.mp found with inOpened | ⟨_, isStray⟩
        · exact known (read.opened stored (Keyed.get?_eq_some.mp inOpened).1).1
        · exact known (read.strays stored (List.mem_of_find?_eq_some isStray)).1
      · exact known (of_decide_eq_true isYounger.2)
  | flushCounts kind head closing queue patched =>
      simp only [desk, Desk.mentions, List.mem_append, Option.mem_toList] at mentioned
      rcases mentioned with inQueue | isClose
      · exact queued queue (by simpa [Desk.mentions] using inQueue)
      · obtain ⟨close, found, rfl⟩ : ∃ close, closing.find? (·.agreement = agreement) = some close ∧
            close.counter = key := by simpa using isClose
        exact known (grounded.2.2.1 close (List.mem_of_find?_eq_some found))
  | acceptCounter discovery offer port accepted =>
      simp only [desk] at mentioned
      split at mentioned <;> cases mentioned
  | _ => cases mentioned

end Desk

/-! ## The chain goes on -/

/-- A counter record goes from the chain when its life is over. -/
theorem Chain.advance_counters (me : Address) (chain : Chain) (agreement : EntityKey)
    (count : Nat) :
    (chain.advance count).counters me agreement =
      (chain.counters me agreement).filter fun entry =>
        (chain.entities.get? entry.key).any (chain.advance count).alive := by
  rw [counters, counters, List.filter_filterMap]
  refine List.filterMap_congr fun row member => ?_
  have isThere : chain.entities.get? row.key = some row := Keyed.get?_key member
  ext entry
  simp only [entryOf_eq_some, Option.filter_eq_some_iff]
  constructor
  · rintro ⟨alive, creator, same, age, record, counts⟩
    have now : chain.alive row = true := by
      obtain ⟨lives, kept⟩ := of_decide_eq_true alive
      exact decide_eq_true ⟨Nat.lt_of_le_of_lt (Nat.le_add_right _ _) lives, kept⟩
    exact ⟨⟨now, creator, same, age, record, counts⟩, by rw [← same, isThere]; exact alive⟩
  · rintro ⟨⟨_, creator, same, age, record, counts⟩, later⟩
    rw [← same, isThere] at later
    exact ⟨later, creator, same, age, record, counts⟩

namespace State

variable {me : Address} {agreement : EntityKey} {state : State} {ok : Label → Account → Prop}

/-- The account when some blocks have been sealed, and the last of them is filled. -/
def mined (me : Address) (agreement : EntityKey) (state : State) (count : Nat) (desk : Desk)
    (held : Option Held) : Account :=
  { state.accountWith me agreement desk held with
    head := state.chain.head + count
    rows := (state.chain.advance count).counters me agreement
    seen := (state.behind ++ [state.chain]).map (·.counters me agreement)
    mining := true }

theorem mines {count : Nat} (later : 0 < count) (desk : Desk) (held : Option Held)
    (stays : (state.chain.advance count).counters me agreement =
      state.chain.counters me agreement ∨ ∀ account, ok .expire account) :
    Relation.ReflTransGen (Account.Step ok) (state.accountWith me agreement desk held)
      (state.mined me agreement count desk held) := by
  have trailing := @Account.Step.trail ok (state.accountWith me agreement desk held) rfl
  have advancing := @Account.Step.advance ok
    { state.accountWith me agreement desk held with
      seen := (state.accountWith me agreement desk held).seen ++
        [(state.accountWith me agreement desk held).rows] }
    count (fun entry => (state.chain.entities.get? entry.key).any (state.chain.advance count).alive)
    later (by
      refine stays.imp (fun same => ?_) fun expires => expires _
      exact (Chain.advance_counters me state.chain agreement count).symm.trans same)
  refine .head trailing (.head advancing ?_)
  have sameRows := Chain.advance_counters me state.chain agreement count
  rw [mined, sameRows]
  simp only [List.map_append, List.map_cons, List.map_nil]
  exact .refl

theorem mined_known {count : Nat} {desk : Desk} {held : Option Held}
    (known : (state.accountWith me agreement desk held).Known state.chain) :
    (state.mined me agreement count desk held).Known (state.chain.advance count) where
  rows _ member := Account.counters_known member
  seen := by
    intro rows member row inRows
    simp only [mined, List.map_append, List.map_cons, List.map_nil, List.mem_append,
      List.mem_singleton] at member
    rcases member with earlier | rfl
    · exact known.seen rows earlier row inRows
    · exact known.rows row inRows
  sent := known.sent
  desk := known.desk
  held := known.held

end State

end CommunityLb
