import CommunityLb.Lib.Machine
import CommunityLb.Chain.Send
import CommunityLb.Marketplace.Agent

/-!
# The marketplace task and the world it runs in

One task awaits one answer at a time: a read of the chain, a write through the sidecar, or a look
at a local port.  Around it requests are served, offers come and go, blocks are sealed, and the
process stops, crashes and starts again.  A section between two awaits is one step: it touches
each pool entry at most once, so a request served meanwhile could as well have been served just
before it or just after it.
-/

namespace CommunityLb

/-- Who asked for a reconcile. -/
inductive Work where
  | start
  | poll
  | flush (kind : Flush)
  deriving DecidableEq, Repr

/-- Why the agent did not start. -/
inductive StartError where
  | sidecar
  | chain
  | tooManyAgreements (count : Nat)
  | listing
  | tooManyCounters (count : Nat)
  deriving DecidableEq, Repr

/-- What a refused start says. -/
def StartError.message : StartError → String
  | sidecar => "the sidecar could not tell its identity"
  | chain => "the chain could not be read"
  | tooManyAgreements count =>
      toString count ++ " agreement records under this LB's key, more than the " ++
        toString PAGE_LIMIT ++ " one page " ++
         "holds: the cap keeps one LB under that, so either another LB runs with this key or " ++
         "records were written outside the agent"
  | listing => "the listing could not be written"
  | tooManyCounters count =>
      toString count ++ " open counter records under this LB's key, more than the " ++
        toString PAGE_LIMIT ++ " one page " ++
         "holds: one per live agreement is expected"

/-- Why a reconcile did not happen. -/
inductive ReconcileError where
  | chain
  | tooMany (kind : Kind) (count : Nat)
  deriving DecidableEq, Repr

/-- Where the task stands: what it awaits, with what it holds meanwhile. -/
inductive Task where
  | idle
  | stopped
  | refused (error : StartError)
  | identity
  | agreementsHead (work : Work)
  | agreementsCount (work : Work) (head : Nat)
  | agreementsPage (work : Work) (head : Nat)
  | closeEnded (work : Work) (head : Nat) (queue : List Batch)
  | skippedHead
  | flushHead (kind : Flush)
  | countersCount (work : Work) (head : Nat)
  | countersPage (work : Work) (head : Nat)
  | closedCount (work : Work) (head : Nat) (opened : CountersByAgreement)
      (duplicates : List EntityKey) (missing : List (EntityKey × EntityKey))
      (closed : List (EntityKey × Nat))
  /-- The counters are reconciled, and the flush has not read the entries yet. -/
  | countsBatch (kind : Flush) (head : Nat) (counters : Counters)
  | flushCounts (kind : Flush) (head : Nat) (closing : List Closing) (queue : List Batch)
      (patched : List EntityKey)
  | flushSuccessors (kind : Flush) (queue : List Batch)
  | offers (head : Nat)
  | portProbe (discovery : Discovery) (offer : Stored Offer) (port : Nat)
  | acceptAgreement (discovery : Discovery) (offer : Stored Offer) (port : Nat)
  | acceptCounter (discovery : Discovery) (offer : Stored Offer) (port : Nat)
      (agreement : EntityKey)
  | gasBalance
  | refreshHead
  | refreshWrites (queue : List Batch)
  | startHead
  | listings (head : Nat)
  | createListing
  | patchListing (key : EntityKey) (expiresAt : Nat)

/-- A running process. -/
structure Process where
  config : Config
  agent : Agent
  task : Task

/-! ## Reads -/

/-- A read the task awaits. -/
inductive Reading where
  | identity
  | head
  | balance
  | count (query : Query)
  | page (query : Query)
  /-- A lookup by key, which is current where a query by attributes may trail. -/
  | lookup (query : Query)
  deriving DecidableEq, Repr

/-- What a read is answered. -/
inductive Reply where
  | done
  | number (value : Nat)
  | rows (rows : List (Stored Record))

namespace Agent

/-- The LB's live agreement records. -/
def agreementsQuery (agent : Agent) (head : Nat) : Query where
  kind := .agreement
  creator := some agent.identity.address
  expiresAfter := some head

/-- The LB's open counter records. -/
def countersQuery (agent : Agent) (head : Nat) : Query where
  kind := .counter
  creator := some agent.identity.address
  stateOpen := true
  expiresAfter := some head

/-- One counter record by its key. -/
def counterQuery (agent : Agent) (counter : EntityKey) : Query where
  kind := .counter
  creator := some agent.identity.address
  key := some counter

/-- The LB's live listings. -/
def listingsQuery (agent : Agent) (head : Nat) : Query where
  kind := .listing
  creator := some agent.identity.address
  expiresAfter := some head

end Agent

/-- The read a task awaits, if it awaits one. -/
def Task.reading (agent : Agent) : Task → Option Reading
  | identity => some .identity
  | agreementsHead _ | skippedHead | flushHead _ | refreshHead | startHead => some .head
  | gasBalance => some .balance
  | agreementsCount _ head => some (.count (agent.agreementsQuery head))
  | agreementsPage _ head => some (.page (agent.agreementsQuery head))
  | countersCount _ head => some (.count (agent.countersQuery head))
  | countersPage _ head => some (.page (agent.countersQuery head))
  | closedCount _ _ _ _ ((_, counter) :: _) _ => some (.lookup (agent.counterQuery counter))
  | offers head => some (.page (agent.offersQuery head))
  | listings head => some (.page (agent.listingsQuery head))
  | _ => none

/-! ## What follows an answer -/

/-- After a flush: the task waits for its timers, or returns at a stop. -/
def Task.afterFlush : Flush → Task
  | .scheduled => .idle
  | .stop => .stopped

/-- An agreement reconcile that did not happen. -/
def Task.afterAgreementsError (work : Work) (error : ReconcileError) : Task :=
  match work, error with
  | .start, .chain => .refused .chain
  | .start, .tooMany _ count => .refused (.tooManyAgreements count)
  | .poll, .tooMany _ _ => .skippedHead
  | .poll, .chain => .idle
  | .flush kind, _ => .afterFlush kind

/-- A counter reconcile that did not happen. -/
def Task.afterCountersError (work : Work) (head : Nat) (error : ReconcileError) : Task :=
  match work, error with
  | .start, .chain => .refused .chain
  | .start, .tooMany _ count => .refused (.tooManyCounters count)
  | .poll, _ => .offers head
  | .flush kind, _ => .afterFlush kind

/-- A counter reconcile that did. -/
def Task.afterCounters (work : Work) (head : Nat) (counters : Counters) : Task :=
  match work with
  | .start => .startHead
  | .poll => .offers head
  | .flush kind => .countsBatch kind head counters

/-- The final writes, until none is left. -/
def Task.afterEnded (work : Work) (head : Nat) (queue : List Batch) : Task :=
  if queue = [] then .countersCount work head else .closeEnded work head queue

/-- The successors, until none is left. -/
def Task.afterSuccessors (kind : Flush) (queue : List Batch) : Task :=
  if queue = [] then .afterFlush kind else .flushSuccessors kind queue

/-- The extends, until none is left. -/
def Task.afterRefresh (queue : List Batch) : Task :=
  if queue = [] then .idle else .refreshWrites queue

/-- A batch to send; an empty one is not sent. -/
def asQueue (batch : Batch) : List Batch :=
  if batch = [] then [] else [batch]

/-- What is still to be sent after an answer: a batch refused as too large goes again in halves. -/
def requeue (batch : Batch) (rest : List Batch) (result : Except WriteError BatchResult) :
    List Batch :=
  match result with
  | .error .tooLarge =>
      match batch.halves with
      | some (first, second) => first :: second :: rest
      | none => rest
  | _ => rest

namespace Process

/-- The counter reconcile's end: what was found closed leaves memory, and each agreement takes its
open record. -/
def reconciled (process : Process) (work : Work) (head : Nat) (opened : CountersByAgreement)
    (duplicates : List EntityKey) (closed : List (EntityKey × Nat)) : Process :=
  let agent := (process.agent.forgetClosedCounters closed).matchToAgreements opened
  { process with
    agent := agent
    task := .afterCounters work head (agent.countersRead opened duplicates) }

/-- The counts, until all are sent; then the successors of the closes that landed. -/
def afterCounts (process : Process) (kind : Flush) (head : Nat) (closing : List Closing)
    (queue : List Batch) (patched : List EntityKey) : Process :=
  if queue = [] then
    let (agent, successors) := process.agent.endPeriods closing patched head
    { process with
      agent := agent
      task := .afterSuccessors kind (asQueue successors) }
  else { process with task := .flushCounts kind head closing queue patched }

/-- The next offer to look at, or the poll's end. -/
def afterOffer (process : Process) (discovery : Discovery) : Process :=
  match discovery.seek process.agent.config.remotePorts discovery.offers with
  | some (discovery, offer, port) => { process with task := .portProbe discovery offer port }
  | none => { process with task := .idle }

/-- The page of agreement records against memory: what is gone ends, what is new is adopted. -/
def reconcileAgreements (process : Process) (work : Work) (head : Nat)
    (rows : List (Stored Record)) : Process :=
  let live := oldestFirst (rows.filterMap (Stored.decode Record.asAgreement))
  let (agent, ended) := process.agent.endAgreements (live.map (·.key))
  { process with
    agent := agent.adoptAgreements live
    task := .afterEnded work head (asQueue (ended.map (finalWrite head))) }

/-- The page of open counter records, split; the records memory misses are looked up first. -/
def openCountersRead (process : Process) (work : Work) (head : Nat) (order : List EntityKey)
    (rows : List (Stored Record)) : Process :=
  let (opened, duplicates) :=
    oldestPerAgreement (rows.filterMap (Stored.decode Record.asCounter))
  let opened := opened.reorder order
  match process.agent.missingCounters opened with
  | [] => process.reconciled work head opened duplicates []
  | missing => { process with task := .closedCount work head opened duplicates missing [] }

/-- The LB's listing at a start: the oldest, patched where it differs, or a new one. -/
def ensureListing (process : Process) (rows : List (Stored Record)) : Process :=
  match oldestFirst (rows.filterMap (Stored.decode Record.asListing)) with
  | [] => { process with task := .createListing }
  | kept :: _ =>
      if kept.record = process.agent.desiredListing then
        { process with
          agent :=
            { process.agent with
              listingKey := kept.key
              listingExpiresAt := kept.expiresAt }
          task := .idle }
      else { process with task := .patchListing kept.key kept.expiresAt }

/-- A read was answered. -/
def read (process : Process) (order : List EntityKey) (reply : Reply) : Process :=
  match process.task, reply with
  | .identity, .done => { process with task := .agreementsHead .start }
  | .agreementsHead work, .number head => { process with task := .agreementsCount work head }
  | .agreementsCount work head, .number count =>
      if count > PAGE_LIMIT then
        { process with task := .afterAgreementsError work (.tooMany .agreement count) }
      else { process with task := .agreementsPage work head }
  | .agreementsPage work head, .rows rows => process.reconcileAgreements work head rows
  | .skippedHead, .number head => { process with task := .countersCount .poll head }
  | .flushHead kind, .number head => { process with task := .countersCount (.flush kind) head }
  | .countersCount work head, .number count =>
      if count > PAGE_LIMIT then
        { process with task := .afterCountersError work head (.tooMany .counter count) }
      else { process with task := .countersPage work head }
  | .countersPage work head, .rows rows => process.openCountersRead work head order rows
  | .closedCount work head opened duplicates ((agreement, _) :: missing) closed, .rows rows =>
      let closed := closed ++ ((closedCount rows).map (agreement, ·)).toList
      match missing with
      | [] => process.reconciled work head opened duplicates closed
      | _ =>
          { process with task := .closedCount work head opened duplicates missing closed }
  | .offers head, .rows rows => process.afterOffer (process.agent.discover head rows)
  | .gasBalance, _ => { process with task := .refreshHead }
  | .refreshHead, .number head =>
      { process with task := .afterRefresh (asQueue (process.agent.refreshBatch (some head))) }
  | .startHead, .number head => { process with task := .listings head }
  | .listings _, .rows rows => process.ensureListing rows
  | _, _ => process

/-- A read failed. -/
def unread (process : Process) : Process :=
  match process.task with
  | .identity => { process with task := .refused .sidecar }
  | .agreementsHead work | .agreementsCount work _ | .agreementsPage work _ =>
      { process with task := .afterAgreementsError work .chain }
  | .skippedHead => { process with task := .idle }
  | .flushHead kind => { process with task := .afterFlush kind }
  | .countersCount work head | .countersPage work head | .closedCount work head _ _ _ _ =>
      { process with task := .afterCountersError work head .chain }
  | .offers _ => { process with task := .idle }
  | .gasBalance => { process with task := .refreshHead }
  | .refreshHead =>
      { process with task := .afterRefresh (asQueue (process.agent.refreshBatch none)) }
  | .startHead | .listings _ => { process with task := .refused .chain }
  | _ => process

/-- The batch the task sends and awaits the answer of. -/
def sending (process : Process) : Option Batch :=
  match process.task with
  | .closeEnded _ _ (batch :: _) | .flushCounts _ _ _ (batch :: _) _
  | .flushSuccessors _ (batch :: _) | .refreshWrites (batch :: _) => some batch
  | .acceptAgreement _ offer port =>
      some [.create (.agreement (process.agent.acceptedRecord offer port))
        process.agent.config.offerMaxLifetime.asSecs]
  | .acceptCounter discovery offer port agreement =>
      some [.create (.counter (freshCounter agreement (process.agent.acceptedRecord offer port)
        process.agent.config.weiPerCall discovery.head))
        process.agent.config.counterRecordLife.asSecs]
  | .createListing =>
      some [.create (.listing process.agent.desiredListing)
        process.agent.config.listingLife.asSecs]
  | .patchListing key _ => some [.patch key (.listing process.agent.desiredListing)]
  | _ => none

/-- The answer to an acceptance's first write.  After an unresolved one the port and the slot are
held; after any other error they are not. -/
def agreementWritten (process : Process) (discovery : Discovery) (offer : Stored Offer)
    (port : Nat) : Except WriteError BatchResult → Process
  | .ok result =>
      match result.createdEntities with
      | created :: _ =>
          { process with
            agent := process.agent.insertAgreement
              (process.agent.acceptedRow offer port discovery.head created)
            task := .acceptCounter discovery offer port created.1 }
      | [] => process.afterOffer discovery
  | .error .unresolved => process.afterOffer (discovery.hold offer port)
  | .error _ => process.afterOffer discovery

/-- The answer to an acceptance's second write. -/
def counterWritten (process : Process) (discovery : Discovery) (offer : Stored Offer) (port : Nat)
    (agreement : EntityKey) (result : Except WriteError BatchResult) : Process :=
  let counter :=
    match result with
    | .ok result =>
        result.createdEntities.head?.map fun created =>
          { key := created.1
            openedBlock := discovery.head }
    | .error _ => none
  afterOffer { process with agent := process.agent.setCounter agreement counter }
    (discovery.hold offer port)

/-- A write was answered. -/
def written (process : Process) (result : Except WriteError BatchResult) : Process :=
  match process.task with
  | .closeEnded work head (batch :: rest) =>
      { process with task := .afterEnded work head (requeue batch rest result) }
  | .flushCounts kind head closing (batch :: rest) patched =>
      let named :=
        match result with
        | .ok result => result.patchedEntities
        | .error _ => []
      process.afterCounts kind head closing (requeue batch rest result) (patched ++ named)
  | .flushSuccessors kind (batch :: rest) =>
      { process with task := .afterSuccessors kind (requeue batch rest result) }
  | .refreshWrites (batch :: rest) =>
      { process with task := .afterRefresh (requeue batch rest result) }
  | .acceptAgreement discovery offer port =>
      process.agreementWritten discovery offer port result
  | .acceptCounter discovery offer port agreement =>
      process.counterWritten discovery offer port agreement result
  | .createListing =>
      match result with
      | .ok result =>
          match result.createdEntities with
          | created :: _ =>
              { process with
                agent :=
                  { process.agent with
                    listingKey := created.1
                    listingExpiresAt := created.2 }
                task := .idle }
          | [] => { process with task := .refused .listing }
      | .error _ => { process with task := .refused .listing }
  | .patchListing key expiresAt =>
      match result with
      | .ok _ =>
          { process with
            agent :=
              { process.agent with
                listingKey := key
                listingExpiresAt := expiresAt }
            task := .idle }
      | .error _ => { process with task := .refused .listing }
  | _ => process

/-- The flush reads the entries and builds its first batch. -/
def countServed (process : Process) : Option Process :=
  match process.task with
  | .countsBatch kind head counters =>
      let (batch, closing) := process.agent.countsBatch counters head kind
      some (process.afterCounts kind head closing (asQueue batch) [])
  | _ => none

/-- A port on the loopback was looked at. -/
def portLooked (process : Process) (isBound : Bool) : Option Process :=
  match process.task with
  | .portProbe discovery offer port =>
      some
        (if isBound then
          let discovery := discovery.skipPort port
          match process.agent.config.remotePorts.find? (· ∉ discovery.usedPorts) with
          | some next => { process with task := .portProbe discovery offer next }
          | none => { process with task := .idle }
        else { process with task := .acceptAgreement discovery offer port })
  | _ => none

end Process

/-! ## The world -/

/-- What a timer starts, or the shutdown signal. -/
inductive Tick where
  | poll
  | refresh
  | flush
  | stop
  deriving DecidableEq, Repr

/-- What a tick makes the task await first. -/
def Tick.task : Tick → Task
  | poll => .agreementsHead .poll
  | refresh => .gasBalance
  | flush => .flushHead .scheduled
  | stop => .flushHead .stop

/-- How a write is answered.  Landing, it lands after every write sent before it; their fates are
decided by then.  A lost one was sent, and lands later or never. -/
inductive WriteAnswer where
  | landed (fates : List (Option (List EntityKey))) (keys : List EntityKey)
  | failed (error : WriteError) (lost : Bool)
  deriving DecidableEq, Repr

/-- What happens. -/
inductive Event where
  /-- Blocks are sealed; the first of the writes in flight land, with their keys, or never will. -/
  | sealBlocks (count : Nat) (fates : List (Option (List EntityKey)))
  /-- Queries stop showing the oldest states they trailed at. -/
  | catchUp (count : Nat)
  | post (offer : Stored Offer)
  | withdraw (offer : EntityKey)
  | launch (config : Config)
  | crash
  | serve (handle : Handle)
  | gate (handle : Handle) (gate : Gate) (value : Bool)
  | admitted (agreement : EntityKey)
  /-- An admission's extend lands, or fails. -/
  | admission (index : Nat) (answer : WriteAnswer)
  /-- The answer of an admission's extend is applied. -/
  | learn (index : Nat)
  | endAdmission (index : Nat)
  | tick (tick : Tick)
  | read (shown order : List EntityKey)
  | unread
  | countServed (order : List EntityKey)
  | portLooked (isBound : Bool)
  | write (answer : WriteAnswer)

/-- The chain, the writes in flight, the process, and the history of requests served. -/
structure State where
  chain : Chain
  /-- The earlier states a query by attributes may still show, oldest first. -/
  behind : List Chain
  /-- The writes whose answer was lost, in the order sent. -/
  pending : List Batch
  process : Option Process
  /-- The agreement of every request served so far. -/
  served : List EntityKey

namespace State

/-- The state a query by attributes shows. -/
def view (state : State) : Chain :=
  state.behind.headD state.chain

/-- A chain that moved on, its earlier state still shown. -/
def moved (state : State) (chain : Chain) : State :=
  { state with
    chain := chain
    behind := state.behind ++ [state.chain] }

end State

namespace Chain

/-- A batch with its keys in the block at the head. -/
def land (creator : Address) (chain : Chain) (batch : Batch) (keys : List EntityKey) :
    Option Chain :=
  if keys.length = batch.length then chain.execute creator (batch.zip keys) else none

/-- The first writes in flight land or drop, in order. -/
def settle (creator : Address) :
    Chain → List Batch → List (Option (List EntityKey)) → Option (Chain × List Batch)
  | chain, pending, [] => some (chain, pending)
  | chain, _ :: pending, none :: fates => settle creator chain pending fates
  | chain, batch :: pending, some keys :: fates =>
      (chain.land creator batch keys).bind (settle creator · pending fates)
  | _, [], _ :: _ => none

end Chain

namespace State

variable (urls : Urls) (sidecar : Identity)

/-- Blocks are sealed. -/
def sealBlocks (state : State) (count : Nat) (fates : List (Option (List EntityKey))) : Option State :=
  ((state.chain.advance (count + 1)).settle sidecar.address state.pending fates).map
    fun (chain, pending) => { state.moved chain with pending := pending }

/-- A batch is sent and answered. -/
def send (state : State) (batch : Batch) :
    WriteAnswer → Option (State × Except WriteError BatchResult)
  | .landed fates keys => do
      let (chain, pending) ←
        (state.chain.advance 1).settle sidecar.address state.pending fates
      if pending ≠ [] then none
      else do
        let landed ← chain.land sidecar.address batch keys
        some ({ state.moved landed with pending := [] },
          .ok (BatchResult.of landed.head (batch.zip keys)))
  | .failed error lost =>
      if lost then
        if error.maySend then
          some ({ state with pending := state.pending ++ [batch] }, .error error)
        else none
      else some (state, .error error)

/-- What a read is answered: a query by attributes from the state it shows, anything else from the
chain as it is. -/
def reply (state : State) (shown : List EntityKey) : Reading → Option Reply
  | .identity | .balance => some .done
  | .head => some (.number state.chain.head)
  | .count query => some (.number (state.view.count query))
  | .page query => (state.view.page query shown).map .rows
  | .lookup query => (state.chain.page query shown).map .rows

/-- A process as it is launched, before its first read. -/
def launched (config : Config) (section_ : Marketplace) : Process where
  config := config
  agent :=
    { config := section_
      identity := sidecar
      pool := Pool.new config.providers
      agreements := .empty
      listingKey := 0
      listingExpiresAt := 0
      admissions := [] }
  task := .identity

/-- One event of the running process. -/
def ofProcess (state : State) (step : Process → Option Process) : Option State :=
  (state.process.bind step).map fun process => { state with process := some process }

/-- The task's write is answered. -/
def writeAnswered (state : State) (answer : WriteAnswer) : Option State := do
  let process ← state.process
  let batch ← process.sending
  let (state, result) ← state.send sidecar batch answer
  some { state with process := some (process.written result) }

/-- An admission's extend lands or fails; it was sent once the provider was healthy and not found
serving wrong data. -/
def admissionSent (state : State) (index : Nat) (answer : WriteAnswer) : Option State := do
  let process ← state.process
  let agent := process.agent
  let task ← agent.admissions[index]?
  if task.answer.isSome then none
  else do
    let (state, result) ← state.send sidecar
      [.extend task.agreement agent.config.agreementLife.asSecs] answer
    let agent :=
      match result with
      | .ok result =>
          match result.extendedEntities with
          | (_, expiresAt) :: _ => agent.awaitAnswer index expiresAt
          | [] => agent.endAdmission index
      | .error _ => agent.endAdmission index
    some { state with process := some { process with agent := agent } }

/-- An admission's extend is answered, and memory learns the expiry. -/
def admissionAnswered (process : Process) (index : Nat) : Option Process := do
  let task ← process.agent.admissions[index]?
  let expiresAt ← task.answer
  some
    { process with
      agent := (process.agent.learnExpiry task.agreement expiresAt).endAdmission index }

/-- A request is served by an entry. -/
def serve (state : State) (handle : Handle) : Option State := do
  let process ← state.process
  let provider ← process.agent.pool.entryAt handle
  let agent :=
    { process.agent with pool := process.agent.pool.modify handle Provider.recordServed }
  some
    { state with
      process := some { process with agent := agent }
      served :=
        match provider.source with
        | .static => state.served
        | .marketplace _ agreement _ => agreement :: state.served }

/-- The task's read is answered; the maps it iterates over next have the order given. -/
def readAnswered (state : State) (shown order : List EntityKey) : Option State := do
  let process ← state.process
  let reading ← process.task.reading process.agent
  let reply ← state.reply shown reading
  let agent := { process.agent with agreements := process.agent.agreements.reorder order }
  some { state with process := some (({ process with agent := agent } : Process).read order reply) }

/-- One event, where it can happen. -/
def step (state : State) : Event → Option State
  | .sealBlocks count fates => state.sealBlocks sidecar count fates
  | .catchUp count => some { state with behind := state.behind.drop count }
  | .post offer =>
      if (state.chain.entities.get? offer.key).isNone ∧ offer.creator ≠ sidecar.address then
        some (state.moved
          { state.chain with
            entities := state.chain.entities.insert
              { offer with
                createdAt := state.chain.head
                record := .offer offer.record } })
      else none
  | .withdraw offer =>
      if (state.chain.entities.get? offer).any (·.creator ≠ sidecar.address) then
        some (state.moved { state.chain with gone := offer :: state.chain.gone })
      else none
  | .launch config =>
      match state.process, config.validate urls, config.marketplace with
      | none, .ok (), some section_ =>
          some { state with process := some (launched sidecar config section_) }
      | _, _, _ => none
  | .crash => state.process.map fun _ => { state with process := none }
  | .serve handle => state.serve handle
  | .gate handle gate value =>
      state.ofProcess fun process =>
        some
          { process with
            agent :=
              { process.agent with
                pool := process.agent.pool.modify handle (·.setEligibility gate value) } }
  | .admitted agreement =>
      state.ofProcess fun process =>
        some { process with agent := process.agent.admitted agreement }
  | .admission index answer => state.admissionSent sidecar index answer
  | .learn index => state.ofProcess fun process => admissionAnswered process index
  | .endAdmission index =>
      state.ofProcess fun process => do
        let task ← process.agent.admissions[index]?
        if task.answer.isSome then none
        else some { process with agent := process.agent.endAdmission index }
  | .tick tick =>
      state.ofProcess fun process =>
        match process.task with
        | .idle => some { process with task := tick.task }
        | _ => none
  | .read shown order => state.readAnswered shown order
  | .unread =>
      state.ofProcess fun process =>
        (process.task.reading process.agent).map fun _ => process.unread
  | .countServed order =>
      state.ofProcess fun process =>
        ({ process with
          agent :=
            { process.agent with
              agreements := process.agent.agreements.reorder order } } : Process).countServed
  | .portLooked isBound => state.ofProcess fun process => process.portLooked isBound
  | .write answer => state.writeAnswered sidecar answer

end State

/-- The LB in its world. -/
def world (urls : Urls) (sidecar : Identity) : Machine State Event where
  step := State.step urls sidecar

/-! ## A small world -/

/-- A section whose agreements live 500 blocks as accepted and 1000 once extended. -/
def smallSection : Marketplace where
  writerUrl := "http://127.0.0.1:8560/"
  weiPerCall := 7
  tunnelServer := "lb:7000"
  maxProviders := 2
  remotePortStart := 20000
  discoveryInterval := Duration.fromSecs 2
  refreshInterval := Duration.fromSecs 4
  agreementLife := Duration.fromSecs 2000
  listingLife := Duration.fromSecs 2000
  counterRecordLife := Duration.fromSecs 20000
  offerMaxLifetime := Duration.fromSecs 1000
  settlementPeriod := Duration.fromSecs 2
  flushInterval := Duration.fromSecs 2

/-- A configuration with little but its marketplace section. -/
def smallConfig (section_ : Marketplace) : Config where
  health :=
    { probeInterval := Duration.fromSecs 1
      probeTimeout := Duration.fromSecs 1
      flipAfter := 2
      maxProbeBackoff := 0
      refHeightInterval := 0
      chainidCheckInterval := 0
      chainId := none
      lagToleranceBlocks := 0 }
  proxy :=
    { attemptTimeout := Duration.fromSecs 1
      requestTimeout := Duration.fromSecs 1
      maxRetries := 2
      maxRequestSize := 1
      maxResponseSize := 1 }
  marketplace := some section_
  integrity := none
  providers := []

/-- Every URL is one of plain http. -/
def plainUrls : Urls where
  parse _ := .ok "http"

/-- Who the LB writes as. -/
def smallSidecar : Identity where
  address := 1
  chainId := 5

/-- An empty chain, and no process. -/
def emptyWorld : State where
  chain :=
    { head := 0
      entities := .empty
      gone := [] }
  behind := []
  pending := []
  process := none
  served := []

/-- A read that shows no row. -/
def answered : Event :=
  .read [] []

/-- The first start: what it reads, and the listing it creates. -/
def startUp (section_ : Marketplace) : List Event :=
  .launch (smallConfig section_) :: List.replicate 8 answered ++
    [.write (.landed [] [100]), .catchUp 1]

/-- An offer that is posted, seen by the next poll and accepted. -/
def acceptance : List Event :=
  [.post
      { key := 50
        creator := 33
        createdAt := 0
        expiresAt := 300
        record :=
          { lbListing := 100
            chainId := 5 } },
    .catchUp 1, .tick .poll, answered, answered, answered, answered, answered, .read [50] [],
    .portLooked false, .write (.landed [] [200]), .write (.landed [] [300]), .catchUp 2]

end CommunityLb
