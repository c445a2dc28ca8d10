import CommunityLb.Settle.Pay
import CommunityLb.Lib.Machine

/-!
# Settle runs after one another

A run reads the closed records and then the receipts, one query at a time, and pays what its ledger
owes one action at a time; it can end between any two of them, and a batch it had sent may land long
after.  The LB and everyone else write to the chain meanwhile, and its head moves.
-/

namespace CommunityLb

/-- A record on the chain, its hex strings lowercase. -/
structure Entity where
  key : Hex
  creator : Hex
  createdAt : Nat
  expiresAt : Nat
  attributes : List (String × Value)
  /-- Nobody may change it, or take it away. -/
  readonly : Bool

/-- The chain settle reads. -/
structure Books where
  head : Nat
  entities : List Entity
  gone : List Hex

namespace Entity

/-- The row of an entity, as a node renders it. -/
def Renders (entity : Entity) (row : Row) : Prop :=
  row.key.toLowerCase = entity.key ∧ row.creator.toLowerCase = entity.creator ∧
    List.Forall₂ (fun named shown => shown.1 = named.1 ∧ named.2.Renders shown.2)
      entity.attributes row.attributes

/-- The attribute under a name is this text. -/
def hasStr (entity : Entity) (name value : String) : Bool :=
  match entity.attributes.lookup name with
  | some (.str found) => found = value
  | _ => false

/-- The attribute under a name is this address. -/
def hasAddr (entity : Entity) (name : String) (address : Hex) : Bool :=
  match entity.attributes.lookup name with
  | some (.addr found) => found = address
  | _ => false

/-- The attribute under a name is this number. -/
def hasI32 (entity : Entity) (name : String) (value : Int) : Bool :=
  match entity.attributes.lookup name with
  | some (.i32 found) => found = value
  | _ => false

/-- An entity meets a condition. -/
def meets (entity : Entity) : Condition → Bool
  | .creator address => entity.creator = address
  | .attrAddr name address => entity.hasAddr name address
  | .attrStr name value => entity.hasStr name value

end Entity

/-- An entity is of the query's kind, at this schema version, and meets its conditions. -/
def RowQuery.admits (query : RowQuery) (entity : Entity) : Bool :=
  entity.hasStr "kind" query.kind && entity.hasI32 "v" SCHEMA_VERSION &&
    query.conditions.all entity.meets

namespace Books

/-- On the chain at its head. -/
def alive (books : Books) (entity : Entity) : Bool :=
  books.head < entity.expiresAt ∧ entity.key ∉ books.gone

/-- A node's answer to a query, every page of it: the records alive at its head, in whatever order
and case. -/
def Answers (books : Books) (query : RowQuery) (rows : List Row) : Prop :=
  ∃ found : List Entity,
    found.Perm (books.entities.filter fun entity => books.alive entity && query.admits entity) ∧
      List.Forall₂ Entity.Renders found rows

end Books

/-- Whose receipts a run writes, and whose it reads beside them. -/
structure SettleConfig where
  settle : Hex
  previous : List Hex
  deriving DecidableEq, Repr

/-- The addresses whose receipts count. -/
def SettleConfig.payers (config : SettleConfig) : List Hex :=
  config.settle :: config.previous

/-- A run under way. -/
structure Running where
  config : SettleConfig
  /-- The records that had a receipt before it read any. -/
  before : List Hex
  /-- Those whose receipt came later, in a batch that an earlier run had sent. -/
  late : List Hex
  /-- The head the closed records were read at. -/
  closedAt : Nat
  answers : List (RowQuery × List Row)
  plan : Option Ledger
  /-- It pays, and what it has still to do. -/
  paying : Bool
  todo : List Action

namespace Running

/-- What the queries were answered so far. -/
def reader (run : Running) (query : RowQuery) : List Row :=
  (run.answers.lookup query).getD []

/-- The queries of a run: the closed records, then each provider's receipts by each payer. -/
def queries (run : Running) (lb : Hex) : List RowQuery :=
  closedQuery lb ::
    match (run.reader (closedQuery lb)).mapM decodeCounter with
    | .error _ => []
    | .ok closed =>
        (byProvider closed).values.flatMap fun group =>
          run.config.payers.map fun payer => receiptsQuery payer group.1

/-- The next query to be made. -/
def next (run : Running) (lb : Hex) : Option RowQuery :=
  (run.queries lb).find? fun query => (run.answers.lookup query).isNone

/-- The records owed to a provider. -/
def keysOf (run : Running) (provider : Hex) : List Hex :=
  match run.plan with
  | none => []
  | some plan =>
      (plan.owed.filter (·.provider = provider)).flatMap fun owed =>
        owed.records.map (·.key.toLowerCase)

/-- Records get their receipts from an earlier run's batch: before this one reads any, or too late for
it to see them all. -/
def meanwhile (run : Running) (counters : List Hex) : Running :=
  if run.plan.isNone ∧ run.answers.length ≤ 1 then { run with before := counters ++ run.before }
  else { run with late := counters ++ run.late }

end Running

/-- A transfer: the records it pays for, those that had a receipt as it was sent, and those of them
whose receipt came too late for its run. -/
structure Sent where
  keys : List Hex
  receipted : List Hex
  late : List Hex

/-- The chain, the run under way, and what the runs so far did. -/
structure Settling where
  chain : Books
  /-- The addresses that receipts were written under. -/
  used : List Hex
  run : Option Running
  /-- Batches that this run sent, or with none under way the last one, and that may still land. -/
  inFlight : List (Hex × List ReceiptRecord)
  /-- Batches that runs before it sent, and that may still land. -/
  earlier : List (Hex × List ReceiptRecord)
  /-- The counter records whose receipts landed. -/
  receipted : List Hex
  transfers : List Sent

/-- What happens. -/
inductive SettleEvent where
  | advance (blocks : Nat)
  | create (entity : Entity)
  | patch (key : Hex) (attributes : List (String × Value))
  | delete (key : Hex)
  | begin (config : SettleConfig)
  /-- The next query is answered. -/
  | read (rows : List Row)
  /-- Every query is answered: the ledger. -/
  | plan
  | pay (chainId : Int) (blockedBy : List String) (sendings : Nat → Sending)
      (answers : Nat → Nat → Except String Unit)
  /-- The next action; a batch that lands takes keys for its receipts. -/
  | act (landed : Bool) (keys : List Hex)
  /-- A batch in flight lands. -/
  | late (index : Nat) (keys : List Hex)
  /-- A batch of an earlier run lands. -/
  | stray (index : Nat) (keys : List Hex)
  /-- The run ends, where it stands or with the next batch sent. -/
  | cut (sent : Bool)

/-- The receipt of a payer on the chain. -/
def ReceiptRecord.entity (receipt : ReceiptRecord) (head : Nat) (payer key : Hex) : Entity where
  key := key
  creator := payer.toLowerCase
  createdAt := head
  expiresAt := head + receipt.lifeBlocks
  attributes :=
    [("kind", .str receipt.kind), ("v", .i32 receipt.v),
      ("counter", .key receipt.counter.toLowerCase),
      ("provider", .addr receipt.provider.toLowerCase),
      ("payload", .bytes (.ok receipt.payload.json))]
  readonly := receipt.readonly

namespace Settling

/-- A batch of receipts lands whole. -/
def land (state : Settling) (payer : Hex) (batch : List ReceiptRecord) (keys : List Hex) :
    Option Settling :=
  if keys.length = batch.length ∧ keys.Nodup ∧
      keys.all (fun key => key ∉ state.chain.entities.map (·.key)) then
    some
      { state with
        chain :=
          { state.chain with
            entities := state.chain.entities ++
              List.zipWith (fun receipt key => receipt.entity state.chain.head payer key)
                batch keys }
        used := payer.toLowerCase :: state.used
        receipted := batch.map (·.counter.toLowerCase) ++ state.receipted }
  else none

/-- The entity under a key, which may be changed. -/
def changeable (state : Settling) (key : Hex) : Bool :=
  state.chain.entities.any fun entity =>
    entity.key = key && state.chain.alive entity && !entity.readonly

/-- One event, where it can happen. -/
def step (lb : Hex) (state : Settling) : SettleEvent → Option Settling
  | .advance blocks =>
      some { state with chain := { state.chain with head := state.chain.head + blocks } }
  | .create entity =>
      if entity.createdAt = state.chain.head ∧
          entity.key ∉ state.chain.entities.map (·.key) then
        some
          { state with
            chain := { state.chain with entities := state.chain.entities ++ [entity] } }
      else none
  | .patch key attributes =>
      if state.changeable key then
        some
          { state with
            chain :=
              { state.chain with
                entities := state.chain.entities.map fun entity =>
                  if entity.key = key then { entity with attributes := attributes }
                  else entity } }
      else none
  | .delete key =>
      if state.changeable key then
        some { state with chain := { state.chain with gone := key :: state.chain.gone } }
      else none
  | .begin config =>
      match state.run with
      | some _ => none
      | none =>
          some
            { state with
              run := some
                { config := config
                  before := state.receipted
                  late := []
                  closedAt := state.chain.head
                  answers := []
                  plan := none
                  paying := false
                  todo := [] }
              inFlight := []
              earlier := state.inFlight ++ state.earlier }
  | .read rows => do
      let run ← state.run
      let query ← run.next lb
      return { state with
        run := some
          { run with
            closedAt := if run.answers.isEmpty then state.chain.head else run.closedAt
            answers := run.answers ++ [(query, rows)] } }
  | .plan => do
      let run ← state.run
      if run.next lb = none ∧ run.plan.isNone then
        match ledger run.reader lb run.config.settle run.config.previous with
        | .error _ => return { state with run := none }
        | .ok plan => return { state with run := some { run with plan := some plan } }
      else none
  | .pay chainId blockedBy sendings answers => do
      let run ← state.run
      let plan ← run.plan
      if !run.paying then
        match pay plan chainId blockedBy sendings answers with
        | .error _ => return { state with run := none }
        | .ok payments =>
            return { state with
              run := some
                { run with
                  paying := true
                  todo := payments.actions } }
      else none
  | .act landed keys => do
      let run ← state.run
      match run.todo with
      | [] => none
      | .transfer provider _ _ :: rest =>
          return { state with
            run := some { run with todo := rest }
            transfers :=
              { keys := run.keysOf provider
                receipted := state.receipted
                late := run.late } :: state.transfers }
      | .write batch answer :: rest =>
          let state := { state with run := some { run with todo := rest } }
          if landed then state.land run.config.settle batch keys
          else if answer = .ok () then none
          else
            return { state with inFlight := (run.config.settle, batch) :: state.inFlight }
  | .late index keys => do
      let (payer, batch) ← state.inFlight[index]?
      let landed ← state.land payer batch keys
      return { landed with inFlight := landed.inFlight.eraseIdx index }
  | .stray index keys => do
      let (payer, batch) ← state.earlier[index]?
      let landed ← state.land payer batch keys
      let counters := (batch.map (·.counter.toLowerCase)).filter (· ∉ state.receipted)
      return { landed with
        run := landed.run.map fun run => run.meanwhile counters
        earlier := landed.earlier.eraseIdx index }
  | .cut sent => do
      let run ← state.run
      match sent, run.todo with
      | true, .write batch _ :: _ =>
          return { state with
            run := none
            inFlight := (run.config.settle, batch) :: state.inFlight }
      | _, _ => return { state with run := none }

/-- The runs over the chain. -/
def machine (lb : Hex) : Machine Settling SettleEvent where
  step := step lb

/-- Before anything. -/
def initial : Settling where
  chain :=
    { head := 0
      entities := []
      gone := [] }
  used := []
  run := none
  inFlight := []
  earlier := []
  receipted := []
  transfers := []

end Settling

namespace Settling

/-! ## What is assumed -/

/-- A counter record of the LB. -/
def Counts (lb : Hex) (entity : Entity) : Prop :=
  entity.creator = lb.toLowerCase ∧
    entity.attributes.lookup "kind" = some (.str KIND.counter)

/-- The reads of a run span fewer blocks than lie between a counter record's creation and its
receipt. -/
def Spans (state : Settling) (run : Running) : Prop :=
  ∀ counter ∈ state.chain.entities, ∀ receipt ∈ state.chain.entities,
    receipt.creator ∈ state.used →
    receipt.attributes.lookup "counter" = some (.key counter.key) →
      counter.createdAt + (state.chain.head - run.closedAt) < receipt.createdAt

/-- The addresses of batches that may still land. -/
def senders (state : Settling) : List Hex :=
  (state.inFlight ++ state.earlier).map (·.1.toLowerCase)

/-- The LB's counter records live as long as is configured and keep their provider; a run's
configuration lists every address that receipts were written under, or may yet be; the node answers
with the records alive, and the reads of a run are close enough. -/
def Assumed (lb : Hex) (life : Nat) (state : Settling) : SettleEvent → Prop
  | .create entity => Counts lb entity → entity.expiresAt ≤ entity.createdAt + life
  | .patch key attributes =>
      ∀ entity ∈ state.chain.entities, entity.key = key → entity.creator = lb.toLowerCase →
        attributes.lookup "kind" = entity.attributes.lookup "kind" ∧
          attributes.lookup "provider" = entity.attributes.lookup "provider"
  | .begin config => ∀ address ∈ state.used ++ state.senders,
      address ∈ config.payers.map Hex.toLowerCase
  | .read rows => ∀ run ∈ state.run, ∀ query ∈ run.next lb,
      state.chain.Answers query rows ∧ (run.answers ≠ [] → state.Spans run)
  | _ => True

/-- No record with a receipt is owed by a run that read receipts after, nor in a transfer sent after,
unless the receipt came too late for the transfer's run. -/
structure NeverAgain (state : Settling) : Prop where
  ledgers : ∀ run ∈ state.run, ∀ plan ∈ run.plan, ∀ key ∈ run.before, key ∉ plan.keys
  transfers : ∀ sent ∈ state.transfers, ∀ key ∈ sent.receipted, key ∉ sent.late → key ∉ sent.keys

/-! ## What is kept -/

/-- A counter record of the LB under a key, with what it has for a provider and its expiry. -/
def Known (lb : Hex) (books : Books) (key : Hex) (provider : Option Value) (expiresAt : Nat) :
    Prop :=
  ∃ entity ∈ books.entities, Counts lb entity ∧ entity.key = key ∧
    entity.attributes.lookup "provider" = provider ∧ entity.expiresAt = expiresAt

/-- A receipt that settle wrote for a counter record. -/
structure Names (books : Books) (entity : Entity) (payer key provider : Hex) : Prop where
  member : entity ∈ books.entities
  readonly : entity.readonly = true
  there : entity.key ∉ books.gone
  creator : entity.creator = payer
  kind : entity.attributes.lookup "kind" = some (.str KIND.receipt)
  v : entity.attributes.lookup "v" = some (.i32 SCHEMA_VERSION)
  counter : entity.attributes.lookup "counter" = some (.key key)
  provider : entity.attributes.lookup "provider" = some (.addr provider)
  lives : entity.expiresAt = entity.createdAt + RECEIPT_LIFE_BLOCKS

/-- A receipt to be written, for a record the LB wrote. -/
def Due (lb : Hex) (books : Books) (receipt : ReceiptRecord) : Prop :=
  ∃ record payout expiresAt, receipt = receiptFor record payout ∧
    Known lb books record.key.toLowerCase (some (.addr record.provider.toLowerCase)) expiresAt

/-- The rows name a counter record. -/
def Shown (rows : List Row) (key : Hex) : Prop :=
  ∃ row ∈ rows, ∃ text, row.attributes.lookup "counter" = some (.key text) ∧
    Hex.toLowerCase text = key

/-- What the answers of a run tell. -/
structure Read (lb : Hex) (state : Settling) (run : Running) : Prop where
  listed : ∀ address ∈ state.used, address ∈ run.config.payers.map Hex.toLowerCase
  awaits : ∀ sent ∈ state.earlier, sent.1.toLowerCase ∈ run.config.payers.map Hex.toLowerCase
  before : ∀ key ∈ run.before, key ∈ state.receipted
  first : run.answers ≠ [] → (run.answers.lookup (closedQuery lb)).isSome = true
  closed : ∀ rows, run.answers.lookup (closedQuery lb) = some rows →
    (rows.map (·.key.toLowerCase)).Nodup ∧ ∀ row ∈ rows, ∃ provider expiresAt,
      Known lb state.chain row.key.toLowerCase provider expiresAt ∧ run.closedAt < expiresAt ∧
        ∀ text, row.attributes.lookup "provider" = some (.addr text) →
          provider = some (.addr (Hex.toLowerCase text))
  named : ∀ key ∈ run.before, ∃ provider expiresAt,
    Known lb state.chain key (some (.addr provider)) expiresAt ∧
      Hex.toLowerCase provider = provider ∧ ∃ payer ∈ run.config.payers,
        (payer.toLowerCase ∈ state.used ∧
          ∃ entity, Names state.chain entity payer.toLowerCase key provider) ∧
          ∀ rows, run.answers.lookup (receiptsQuery payer provider) = some rows →
            run.closedAt < expiresAt → Shown rows key

/-- What a run's plan and its actions are. -/
structure Planned (lb : Hex) (state : Settling) (run : Running) : Prop where
  plan : ∀ plan ∈ run.plan, plan.keys.Nodup ∧ (∀ key ∈ run.before, key ∉ plan.keys) ∧
    ∀ record ∈ plan.records, ∃ expiresAt,
      Known lb state.chain record.key.toLowerCase (some (.addr record.provider.toLowerCase))
        expiresAt
  due : ∀ action ∈ run.todo, ∀ receipt ∈ action.tried, Due lb state.chain receipt
  apart : run.todo.Pairwise fun earlier later => ∀ provider amountWei sending,
    later = .transfer provider amountWei sending → ∀ receipt ∈ earlier.tried,
      receipt.counter.toLowerCase ∉ run.keysOf provider
  unpaid : ∀ provider amountWei sending, .transfer provider amountWei sending ∈ run.todo →
    ∀ key ∈ run.keysOf provider, key ∈ state.receipted → key ∈ run.late
  flight : ∀ sent ∈ state.inFlight, ∀ receipt ∈ sent.2, ∀ provider amountWei sending,
    .transfer provider amountWei sending ∈ run.todo →
      receipt.counter.toLowerCase ∉ run.keysOf provider
  own : ∀ sent ∈ state.inFlight, sent.1 = run.config.settle
  idle : run.paying = false → run.todo = [] ∧ state.inFlight = [] ∧
    ∀ key ∈ state.receipted, key ∈ run.before ∨ key ∈ run.late
  unplanned : run.plan = none → run.paying = false

/-- What every reachable state keeps. -/
structure Kept (lb : Hex) (state : Settling) : Prop where
  keys : (state.chain.entities.map (·.key)).Nodup
  gone : ∀ key ∈ state.chain.gone, key ∈ state.chain.entities.map (·.key)
  lives : ∀ entity ∈ state.chain.entities, Counts lb entity →
    entity.expiresAt ≤ entity.createdAt + RECEIPT_LIFE_BLOCKS
  receipts : ∀ key ∈ state.receipted, ∃ provider expiresAt,
    Known lb state.chain key (some (.addr provider)) expiresAt ∧
      Hex.toLowerCase provider = provider ∧
        ∃ payer ∈ state.used, ∃ entity, Names state.chain entity payer key provider
  flight : ∀ sent ∈ state.inFlight ++ state.earlier, ∀ receipt ∈ sent.2,
    Due lb state.chain receipt
  read : ∀ run ∈ state.run, Read lb state run
  planned : ∀ run ∈ state.run, Planned lb state run
  transfers : ∀ sent ∈ state.transfers, ∀ key ∈ sent.receipted, key ∉ sent.late → key ∉ sent.keys

/-- The LB's counter records and settle's receipts stay as the chain moves on. -/
structure Evolves (lb : Hex) (before after : Books) : Prop where
  known : ∀ {key provider expiresAt}, Known lb before key provider expiresAt →
    Known lb after key provider expiresAt
  names : ∀ {entity payer key provider}, Names before entity payer key provider →
    Names after entity payer key provider

/-- A key names one counter record. -/
theorem Known.unique {lb : Hex} {books : Books} (distinct : (books.entities.map (·.key)).Nodup)
    {key : Hex} {provider other : Option Value} {expiresAt otherExpiry : Nat}
    (first : Known lb books key provider expiresAt)
    (second : Known lb books key other otherExpiry) :
    provider = other ∧ expiresAt = otherExpiry := by
  obtain ⟨entity, isEntity, _, isKey, rfl, rfl⟩ := first
  obtain ⟨found, isFound, _, isKey', rfl, rfl⟩ := second
  obtain rfl := List.inj_on_of_nodup_map distinct isEntity isFound (isKey.trans isKey'.symm)
  exact ⟨rfl, rfl⟩

theorem Due.evolves {lb : Hex} {before after : Books} (evolves : Evolves lb before after)
    {receipt : ReceiptRecord} (due : Due lb before receipt) : Due lb after receipt := by
  obtain ⟨record, payout, expiresAt, isReceipt, known⟩ := due
  exact ⟨record, payout, expiresAt, isReceipt, evolves.known known⟩

theorem Read.evolves {lb : Hex} {state next : Settling} {run : Running} (read : Read lb state run)
    (evolves : Evolves lb state.chain next.chain)
    (listed : ∀ address ∈ next.used, address ∈ run.config.payers.map Hex.toLowerCase)
    (awaits : ∀ sent ∈ next.earlier, sent.1.toLowerCase ∈ run.config.payers.map Hex.toLowerCase)
    (used : ∀ address ∈ state.used, address ∈ next.used)
    (grows : ∀ key ∈ state.receipted, key ∈ next.receipted) : Read lb next run := by
  refine ⟨listed, awaits, fun key isBefore => grows key (read.before key isBefore), read.first,
    fun rows isRows => ?_, fun key isBefore => ?_⟩
  · obtain ⟨distinct, rowsKnown⟩ := read.closed rows isRows
    refine ⟨distinct, fun row inRows => ?_⟩
    obtain ⟨provider, expiresAt, known, rest⟩ := rowsKnown row inRows
    exact ⟨provider, expiresAt, evolves.known known, rest⟩
  · obtain ⟨provider, expiresAt, known, lower, payer, isPayer, ⟨isUsed, entity, names⟩, shown⟩ :=
      read.named key isBefore
    exact ⟨provider, expiresAt, evolves.known known, lower, payer, isPayer,
      ⟨used _ isUsed, entity, evolves.names names⟩, shown⟩

/-- The plan and the actions stay as the chain moves on. -/
theorem Planned.evolves {lb : Hex} {state : Settling} {run : Running} {chain : Books}
    (planned : Planned lb state run) (evolves : Evolves lb state.chain chain) :
    Planned lb { state with chain := chain } run := by
  refine ⟨fun plan isPlan => ?_,
    fun action isTodo receipt tried => (planned.due action isTodo receipt tried).evolves evolves,
    planned.apart, planned.unpaid, planned.flight, planned.own, planned.idle, planned.unplanned⟩
  obtain ⟨distinct, fresh, known⟩ := planned.plan plan isPlan
  refine ⟨distinct, fresh, fun record isRecord => ?_⟩
  obtain ⟨expiresAt, found⟩ := known record isRecord
  exact ⟨expiresAt, evolves.known found⟩

/-- The chain moves on under a run. -/
theorem Kept.evolves {lb : Hex} {state : Settling} {chain : Books} (kept : Kept lb state)
    (evolves : Evolves lb state.chain chain) (keys : (chain.entities.map (·.key)).Nodup)
    (gone : ∀ key ∈ chain.gone, key ∈ chain.entities.map (·.key))
    (lives : ∀ entity ∈ chain.entities, Counts lb entity →
      entity.expiresAt ≤ entity.createdAt + RECEIPT_LIFE_BLOCKS) :
    Kept lb { state with chain := chain } := by
  refine ⟨keys, gone, lives, fun key isReceipted => ?_,
    fun sent isSent receipt inBatch => (kept.flight sent isSent receipt inBatch).evolves evolves,
    fun run isRun => (kept.read run isRun).evolves evolves (kept.read run isRun).listed
      (kept.read run isRun).awaits (fun _ member => member) fun _ member => member,
    fun run isRun => (kept.planned run isRun).evolves evolves, kept.transfers⟩
  obtain ⟨provider, expiresAt, known, lower, payer, isUsed, entity, names⟩ :=
    kept.receipts key isReceipted
  exact ⟨provider, expiresAt, evolves.known known, lower, payer, isUsed, entity,
    evolves.names names⟩

/-- More entities. -/
theorem Evolves.append (lb : Hex) (books : Books) (more : List Entity) :
    Evolves lb books { books with entities := books.entities ++ more } where
  known := by
    rintro key provider expiresAt ⟨entity, isEntity, rest⟩
    exact ⟨entity, List.mem_append_left _ isEntity, rest⟩
  names := fun names => { names with member := List.mem_append_left _ names.member }

/-- What may be changed is not a receipt of settle's. -/
theorem Kept.changeable {lb : Hex} {state : Settling} (kept : Kept lb state) {key : Hex}
    (changes : state.changeable key = true) {entity : Entity}
    (member : entity ∈ state.chain.entities) (readonly : entity.readonly = true) :
    entity.key ≠ key := by
  intro same
  obtain ⟨found, isFound, isKey⟩ := List.any_eq_true.mp changes
  simp only [Bool.and_eq_true, decide_eq_true_eq, Bool.not_eq_true'] at isKey
  obtain rfl := List.inj_on_of_nodup_map kept.keys isFound member (isKey.1.1.trans same.symm)
  exact absurd (isKey.2.symm.trans readonly) (by decide)

/-- Someone writes a record. -/
theorem Kept.create {lb : Hex} {state : Settling} (kept : Kept lb state) {entity : Entity}
    (fresh : entity.key ∉ state.chain.entities.map (·.key))
    (lives : Counts lb entity → entity.expiresAt ≤ entity.createdAt + RECEIPT_LIFE_BLOCKS) :
    Kept lb
      { state with
        chain := { state.chain with entities := state.chain.entities ++ [entity] } } := by
  refine kept.evolves (Evolves.append lb state.chain [entity]) ?_ (fun key isGone => ?_)
    fun other member counts => ?_
  · rw [List.map_append, List.nodup_append]
    refine ⟨kept.keys, List.nodup_singleton _, fun key isOld other isNew => ?_⟩
    rintro rfl
    have same : key = entity.key := List.mem_singleton.mp isNew
    exact fresh (same ▸ isOld)
  · rw [List.map_append]
    exact List.mem_append_left _ (kept.gone key isGone)
  · rcases List.mem_append.mp member with old | isNew
    · exact kept.lives other old counts
    · obtain rfl := List.mem_singleton.mp isNew
      exact lives counts

/-- The LB patches a record, or someone else theirs. -/
theorem Kept.patch {lb : Hex} {life : Nat} {state : Settling} (kept : Kept lb state) {key : Hex}
    {attributes : List (String × Value)} (changes : state.changeable key = true)
    (assumed : Assumed lb life state (.patch key attributes)) :
    Kept lb
      { state with
        chain :=
          { state.chain with
            entities := state.chain.entities.map fun entity =>
              if entity.key = key then { entity with attributes := attributes }
              else entity } } := by
  have sameKeys : (state.chain.entities.map fun entity =>
      if entity.key = key then { entity with attributes := attributes } else entity).map (·.key) =
      state.chain.entities.map (·.key) := by
    rw [List.map_map]
    refine List.map_congr_left fun entity _ => ?_
    simp only [Function.comp]
    split <;> rfl
  refine kept.evolves ⟨?_, ?_⟩ (sameKeys ▸ kept.keys) (fun gone isGone => ?_)
    fun other member counts => ?_
  · rintro found provider expiresAt ⟨entity, isEntity, counts, isKey, isProvider, lives⟩
    refine ⟨if entity.key = key then { entity with attributes := attributes } else entity,
      List.mem_map_of_mem isEntity, ?_⟩
    split
    · next same =>
        obtain ⟨kind, provider'⟩ := assumed entity isEntity same counts.1
        exact ⟨⟨counts.1, kind.trans counts.2⟩, isKey, provider'.trans isProvider, lives⟩
    · exact ⟨counts, isKey, isProvider, lives⟩
  · intro entity payer found provider names
    refine { names with member := ?_ }
    have differs := kept.changeable changes names.member names.readonly
    exact List.mem_map.mpr ⟨entity, names.member, if_neg differs⟩
  · have known := kept.gone gone isGone
    rw [← sameKeys] at known
    exact known
  · obtain ⟨old, inOld, rfl⟩ := List.mem_map.mp member
    split at counts
    · next same =>
        rw [if_pos same]
        obtain ⟨kind, _⟩ := assumed old inOld same counts.1
        exact kept.lives old inOld ⟨counts.1, kind.symm.trans counts.2⟩
    · next differs =>
        rw [if_neg differs]
        exact kept.lives old inOld counts

/-- A record is deleted. -/
theorem Kept.delete {lb : Hex} {state : Settling} (kept : Kept lb state) {key : Hex}
    (changes : state.changeable key = true) :
    Kept lb { state with chain := { state.chain with gone := key :: state.chain.gone } } := by
  refine kept.evolves ⟨id, fun names => { names with there := ?_ }⟩ kept.keys
    (fun gone isGone => ?_) kept.lives
  · intro isGone
    rcases List.mem_cons.mp isGone with same | older
    · exact kept.changeable changes names.member names.readonly same
    · exact names.there older
  · rcases List.mem_cons.mp isGone with rfl | older
    · obtain ⟨found, isFound, isKey⟩ := List.any_eq_true.mp changes
      simp only [Bool.and_eq_true, decide_eq_true_eq] at isKey
      exact List.mem_map.mpr ⟨found, isFound, isKey.1.1⟩
    · exact kept.gone gone older

/-- A run begins. -/
theorem Kept.begin {lb : Hex} {state : Settling} (kept : Kept lb state) {config : SettleConfig}
    (listed : ∀ address ∈ state.used ++ state.senders,
      address ∈ config.payers.map Hex.toLowerCase) :
    Kept lb
      { state with
        run := some
          { config := config
            before := state.receipted
            late := []
            closedAt := state.chain.head
            answers := []
            plan := none
            paying := false
            todo := [] }
        inFlight := []
        earlier := state.inFlight ++ state.earlier } := by
  have listed_ : ∀ address ∈ state.used, address ∈ config.payers.map Hex.toLowerCase :=
    fun address isUsed => listed address (List.mem_append_left _ isUsed)
  refine ⟨kept.keys, kept.gone, kept.lives, kept.receipts, kept.flight,
    fun run isRun => ?_, fun run isRun => ?_, kept.transfers⟩
  · cases isRun
    refine ⟨listed_, fun sent isSent => ?_, fun _ member => member, fun more => absurd rfl more,
      fun rows isRows => (nomatch isRows), fun key isBefore => ?_⟩
    · exact listed _ (List.mem_append_right _ (List.mem_map_of_mem isSent))
    obtain ⟨provider, expiresAt, known, lower, used, isUsed, entity, names⟩ :=
      kept.receipts key isBefore
    obtain ⟨payer, isPayer, rfl⟩ := List.mem_map.mp (listed_ used isUsed)
    exact ⟨provider, expiresAt, known, lower, payer, isPayer, ⟨isUsed, entity, names⟩,
      fun rows isRows => (nomatch isRows)⟩
  · cases isRun
    exact ⟨fun _ isPlan => (nomatch isPlan), fun _ isTodo => (nomatch isTodo), List.Pairwise.nil,
      fun _ _ _ isTodo => (nomatch isTodo), fun _ member => (nomatch member),
      fun _ member => (nomatch member), fun _ => ⟨rfl, rfl, fun _ member => .inl member⟩,
      fun _ => rfl⟩

/-- Each receipt of a batch that lands gets a row of its own. -/
theorem mem_zipWith (head : Nat) (payer : Hex) {batch : List ReceiptRecord} {keys : List Hex}
    (enough : keys.length = batch.length) {receipt : ReceiptRecord} (member : receipt ∈ batch) :
    ∃ key ∈ keys, receipt.entity head payer key ∈
      List.zipWith (fun receipt key => receipt.entity head payer key) batch keys := by
  induction batch generalizing keys with
  | nil => cases member
  | cons first rest ih =>
      cases keys with
      | nil => cases enough
      | cons key keys =>
          rcases List.mem_cons.mp member with rfl | later
          · exact ⟨key, List.mem_cons_self, List.mem_cons_self⟩
          · obtain ⟨found, isKey, isRow⟩ := ih (Nat.succ.inj enough) later
            exact ⟨found, List.mem_cons_of_mem _ isKey, List.mem_cons_of_mem _ isRow⟩

theorem zipWith_keys (head : Nat) (payer : Hex) {batch : List ReceiptRecord} {keys : List Hex}
    (enough : keys.length = batch.length) :
    (List.zipWith (fun receipt key => receipt.entity head payer key) batch keys).map (·.key) =
      keys := by
  induction batch generalizing keys with
  | nil => simpa using (List.length_eq_zero_iff.mp enough).symm
  | cons first rest ih =>
      cases keys with
      | nil => cases enough
      | cons key keys => simpa [ReceiptRecord.entity] using ih (Nat.succ.inj enough)

theorem of_mem_zipWith {batch : List ReceiptRecord} {keys : List Hex} {head : Nat} {payer : Hex}
    {entity : Entity} (member : entity ∈
      List.zipWith (fun receipt key => receipt.entity head payer key) batch keys) :
    ∃ receipt ∈ batch, ∃ key, entity = receipt.entity head payer key := by
  rw [← List.map_uncurry_zip_eq_zipWith] at member
  obtain ⟨⟨receipt, key⟩, inZip, rfl⟩ := List.mem_map.mp member
  exact ⟨receipt, (List.of_mem_zip inZip).1, key, rfl⟩

/-- A batch of receipts for records the LB wrote lands, and no transfer still to be sent includes
them. -/
theorem Kept.land {lb : Hex} {state next : Settling} (kept : Kept lb state) {payer : Hex}
    {batch : List ReceiptRecord} {keys : List Hex}
    (landed : state.land payer batch keys = some next)
    (due : ∀ receipt ∈ batch, Due lb state.chain receipt)
    (own : ∀ run ∈ state.run, payer = run.config.settle ∧ run.paying = true ∧
      ∀ receipt ∈ batch, ∀ provider amountWei sending,
        .transfer provider amountWei sending ∈ run.todo →
          receipt.counter.toLowerCase ∉ run.keysOf provider) :
    Kept lb next := by
  simp only [Settling.land] at landed
  split at landed
  · next fits =>
      obtain ⟨enough, distinct, fresh⟩ := fits
      cases landed
      have evolves := Evolves.append lb state.chain
        (List.zipWith (fun receipt key => receipt.entity state.chain.head payer key) batch keys)
      have newKeys := zipWith_keys state.chain.head payer enough
      have apart : ∀ key ∈ keys, key ∉ state.chain.entities.map (·.key) := by
        intro key isKey
        simpa using (List.all_eq_true.mp fresh) key isKey
      have grows : ∀ key ∈ state.receipted,
          key ∈ batch.map (fun receipt => receipt.counter.toLowerCase) ++ state.receipted :=
        fun key older => List.mem_append_right _ older
      refine ⟨?_, fun key isGone => ?_, fun entity member counts => ?_, fun key isReceipted => ?_,
        fun sent isSent receipt inBatch => (kept.flight sent isSent receipt inBatch).evolves evolves,
        fun run isRun => ?_, fun run isRun => ?_, kept.transfers⟩
      · rw [List.map_append, newKeys, List.nodup_append]
        refine ⟨kept.keys, distinct, fun key isOld other isNew same => ?_⟩
        exact apart other isNew (same ▸ isOld)
      · rw [List.map_append]
        exact List.mem_append_left _ (kept.gone key isGone)
      · rcases List.mem_append.mp member with old | isNew
        · exact kept.lives entity old counts
        · obtain ⟨receipt, inBatch, key, rfl⟩ := of_mem_zipWith isNew
          obtain ⟨record, payout, _, rfl, _⟩ := due receipt inBatch
          exact absurd counts.2 (by
            simp [ReceiptRecord.entity, receiptFor, KIND.receipt, KIND.counter])
      · rcases List.mem_append.mp isReceipted with isNew | older
        · obtain ⟨receipt, inBatch, rfl⟩ := List.mem_map.mp isNew
          obtain ⟨key, isKey, isRow⟩ := mem_zipWith state.chain.head payer enough inBatch
          obtain ⟨record, payout, expiresAt, rfl, known⟩ := due receipt inBatch
          refine ⟨record.provider.toLowerCase, expiresAt, evolves.known known,
            Hex.toLowerCase_toLowerCase _, payer.toLowerCase, List.mem_cons_self,
            (receiptFor record payout).entity state.chain.head payer key, ?_⟩
          exact
            { member := List.mem_append_right _ isRow
              readonly := rfl
              there := fun isGone => apart key isKey (kept.gone key isGone)
              creator := rfl
              kind := rfl
              v := rfl
              counter := rfl
              provider := rfl
              lives := rfl }
        · obtain ⟨provider, expiresAt, known, lower, used, isUsed, entity, names⟩ :=
            kept.receipts key older
          exact ⟨provider, expiresAt, evolves.known known, lower, used,
            List.mem_cons_of_mem _ isUsed, entity, evolves.names names⟩
      · refine (kept.read run isRun).evolves evolves (fun address isUsed => ?_)
          (kept.read run isRun).awaits (fun _ older => List.mem_cons_of_mem _ older) grows
        rcases List.mem_cons.mp isUsed with rfl | older
        · rw [(own run isRun).1]
          exact List.mem_cons_self
        · exact (kept.read run isRun).listed address older
      · obtain ⟨_, paying, clear⟩ := own run isRun
        have planned := (kept.planned run isRun).evolves evolves
        refine ⟨planned.plan, planned.due, planned.apart, ?_, planned.flight, planned.own,
          fun idle => absurd (paying.symm.trans idle) (by decide), planned.unplanned⟩
        intro provider amountWei sending isTodo key isKey isReceipted
        rcases List.mem_append.mp isReceipted with isNew | older
        · obtain ⟨receipt, inBatch, rfl⟩ := List.mem_map.mp isNew
          exact absurd isKey (clear receipt inBatch provider amountWei sending isTodo)
        · exact planned.unpaid provider amountWei sending isTodo key isKey older
  · cases landed

/-- A row has every attribute of its entity, in some case. -/
theorem lookup_renders {held shown : List (String × Value)}
    (renders : List.Forall₂ (fun named shown => shown.1 = named.1 ∧ named.2.Renders shown.2)
      held shown) (name : String) :
    (held.lookup name = none ∧ shown.lookup name = none) ∨
      ∃ value other, held.lookup name = some value ∧ shown.lookup name = some other ∧
        value.Renders other := by
  induction renders with
  | nil => exact .inl ⟨rfl, rfl⟩
  | @cons first second rest others same _ ih =>
      obtain ⟨firstName, value⟩ := first
      obtain ⟨secondName, other⟩ := second
      obtain ⟨rfl, renders⟩ := same
      by_cases here : name = secondName
      · exact .inr ⟨value, other, by simp [here], by simp [here], renders⟩
      · have unlike : (name == secondName) = false := by simpa using here
        rw [List.lookup_cons, List.lookup_cons, unlike]
        exact ih

theorem hasStr_iff {entity : Entity} {name value : String} :
    entity.hasStr name value = true ↔ entity.attributes.lookup name = some (.str value) := by
  simp only [Entity.hasStr]
  cases entity.attributes.lookup name with
  | none => simp
  | some found => cases found <;> simp

/-- The closed records the node answered, as they are on the chain. -/
theorem closed_of_answers {lb : Hex} {state : Settling} (kept : Kept lb state) {rows : List Row}
    (answers : state.chain.Answers (closedQuery lb) rows) :
    (rows.map (·.key.toLowerCase)).Nodup ∧ ∀ row ∈ rows, ∃ provider expiresAt,
      Known lb state.chain row.key.toLowerCase provider expiresAt ∧
        state.chain.head < expiresAt ∧
        ∀ text, row.attributes.lookup "provider" = some (.addr text) →
          provider = some (.addr (Hex.toLowerCase text)) := by
  obtain ⟨found, perm, renders⟩ := answers
  constructor
  · have sameKeys : rows.map (·.key.toLowerCase) = found.map (·.key) := by
      clear perm
      induction renders with
      | nil => rfl
      | cons one _ ih => rw [List.map_cons, List.map_cons, one.1, ih]
    rw [sameKeys]
    refine ((perm.map (·.key)).nodup_iff).mpr ?_
    exact kept.keys.sublist (List.filter_sublist.map _)
  · intro row inRows
    obtain ⟨entity, inFound, isKey, _, attributes⟩ := forall₂_right renders inRows
    obtain ⟨member, admitted⟩ := List.mem_filter.mp (perm.mem_iff.mp inFound)
    simp only [Books.alive, RowQuery.admits, closedQuery, byKind, List.all_cons, List.all_nil,
      Bool.and_eq_true, decide_eq_true_eq, Entity.meets] at admitted
    obtain ⟨⟨young, _⟩, ⟨isCounter, _⟩, isLb, _⟩ := admitted
    refine ⟨entity.attributes.lookup "provider", entity.expiresAt,
      ⟨entity, member, ⟨isLb, hasStr_iff.mp isCounter⟩, isKey.symm, rfl, rfl⟩, young,
      fun text isText => ?_⟩
    rcases lookup_renders attributes "provider" with ⟨_, isNone⟩ | ⟨value, other, has, shows, same⟩
    · rw [isNone] at isText
      cases isText
    · rw [shows, Option.some.injEq] at isText
      subst isText
      cases value with
      | addr address =>
          have isAddress : Hex.toLowerCase text = address := same
          rw [has, isAddress]
      | _ => cases same

/-- A receipt on the chain is in the answer for its payer and provider. -/
theorem shown_of_answers {state : Settling} {entity : Entity} {payer key provider : Hex}
    {rows : List Row} (names : Names state.chain entity payer.toLowerCase key provider)
    (lower : Hex.toLowerCase provider = provider) (young : state.chain.head < entity.expiresAt)
    (answers : state.chain.Answers (receiptsQuery payer provider) rows) : Shown rows key := by
  obtain ⟨found, perm, renders⟩ := answers
  have admitted : (receiptsQuery payer provider).admits entity = true := by
    simp [RowQuery.admits, receiptsQuery, byKind, Entity.hasStr, Entity.hasI32, Entity.meets,
      Entity.hasAddr, names.kind, names.v, names.creator, names.provider, lower]
  have alive : state.chain.alive entity = true := by
    simp [Books.alive, young, names.there]
  obtain ⟨row, inRows, _, _, attributes⟩ := forall₂_left renders
    (perm.mem_iff.mpr (List.mem_filter.mpr ⟨names.member, by rw [alive, admitted]; rfl⟩))
  refine ⟨row, inRows, ?_⟩
  rcases lookup_renders attributes "counter" with ⟨isNone, _⟩ | ⟨value, other, has, shows, same⟩
  · rw [names.counter] at isNone
    cases isNone
  · rw [names.counter, Option.some.injEq] at has
    subst has
    cases other with
    | key text => exact ⟨text, shows, same⟩
    | _ => cases same

/-- A query is answered. -/
theorem Read.read {lb : Hex} {state : Settling} {run : Running} (kept : Kept lb state)
    (read : Read lb state run) {query : RowQuery} (isNext : run.next lb = some query)
    {rows : List Row} (answers : state.chain.Answers query rows)
    (spans : run.answers ≠ [] → state.Spans run) :
    Read lb state
      { run with
        closedAt := if run.answers.isEmpty then state.chain.head else run.closedAt
        answers := run.answers ++ [(query, rows)] } := by
  have unanswered : run.answers.lookup query = none := by
    simpa using List.find?_some isNext
  have lookup : ∀ other, (run.answers ++ [(query, rows)]).lookup other =
      (run.answers.lookup other).or (if other = query then some rows else none) := by
    intro other
    rw [List.lookup_append]
    congr 1
    by_cases same : other = query
    · simp [same]
    · have unlike : (other == query) = false := by simpa using same
      rw [if_neg same, List.lookup_cons, unlike]
      rfl
  have differs : ∀ payer provider, receiptsQuery payer provider ≠ closedQuery lb := by
    intro payer provider same
    have kinds := congrArg RowQuery.kind same
    exact absurd kinds (show KIND.receipt ≠ KIND.counter by decide)
  by_cases none_ : run.answers = []
  · have isClosed : query = closedQuery lb := by
      have first : run.next lb = some (closedQuery lb) := by
        simp [Running.next, Running.queries, none_]
      exact Option.some.inj (isNext.symm.trans first)
    refine ⟨read.listed, read.awaits, read.before, fun _ => ?_, fun found isFound => ?_,
      fun key isBefore => ?_⟩
    · simp [isClosed]
    · have isRows : rows = found := by
        rw [lookup, if_pos isClosed.symm] at isFound
        simpa [none_] using isFound
      subst isRows
      simp only [none_, List.isEmpty_nil, if_true]
      exact closed_of_answers kept (isClosed ▸ answers)
    · obtain ⟨provider, expiresAt, known, lower, payer, isPayer, names, _⟩ :=
        read.named key isBefore
      refine ⟨provider, expiresAt, known, lower, payer, isPayer, names, fun found isFound => ?_⟩
      rw [lookup, if_neg (isClosed ▸ differs payer provider)] at isFound
      simp [none_] at isFound
  · have asked := read.first none_
    have notClosed : query ≠ closedQuery lb := by
      rintro rfl
      rw [unanswered] at asked
      cases asked
    have closedAt : run.answers.isEmpty = false := by simpa using none_
    simp only [closedAt, Bool.false_eq_true, if_false]
    refine ⟨read.listed, read.awaits, read.before, fun _ => ?_, fun found isFound => ?_,
      fun key isBefore => ?_⟩
    · rw [lookup]
      cases isSome : run.answers.lookup (closedQuery lb) with
      | none => simp [isSome] at asked
      | some value => rfl
    · simp only [lookup, Ne.symm notClosed, if_false, Option.or_none] at isFound
      exact read.closed found isFound
    · obtain ⟨provider, expiresAt, known, lower, payer, isPayer, ⟨isUsed, entity, names⟩,
        shown⟩ := read.named key isBefore
      refine ⟨provider, expiresAt, known, lower, payer, isPayer, ⟨isUsed, entity, names⟩,
        fun found isFound young => ?_⟩
      rw [lookup] at isFound
      cases before : run.answers.lookup (receiptsQuery payer provider) with
      | some value =>
          rw [before, Option.some_or] at isFound
          exact shown found (before.trans isFound) young
      | none =>
          rw [before, Option.none_or] at isFound
          split at isFound
          · next same =>
              cases isFound
              refine shown_of_answers names lower ?_ (same ▸ answers)
              obtain ⟨counter, isCounter, counts, isKey, _, rfl⟩ := known
              have apart := spans none_ counter isCounter entity names.member
                (names.creator ▸ isUsed) (isKey ▸ names.counter)
              have lives := kept.lives counter isCounter counts
              have young : run.closedAt < counter.expiresAt := young
              rw [names.lives]
              omega
          · cases isFound

/-- With every query answered, the ledger owes records of the LB's, each once, and none that had a
receipt when the run began. -/
theorem Read.ledger {lb : Hex} {state : Settling} {run : Running} (kept : Kept lb state)
    (read : Read lb state run) (done : run.next lb = none) {plan : Ledger}
    (isPlan : ledger run.reader lb run.config.settle run.config.previous = .ok plan) :
    plan.keys.Nodup ∧ (∀ key ∈ run.before, key ∉ plan.keys) ∧
      ∀ record ∈ plan.records, ∃ expiresAt,
        Known lb state.chain record.key.toLowerCase (some (.addr record.provider.toLowerCase))
          expiresAt := by
  have answered : ∀ query ∈ run.queries lb, ∃ rows, run.answers.lookup query = some rows := by
    intro query isQuery
    have asked := List.find?_eq_none.mp done query isQuery
    cases found : run.answers.lookup query with
    | none => simp [found] at asked
    | some rows => exact ⟨rows, rfl⟩
  obtain ⟨closed, isClosed, sub, owed⟩ := ledger_spec isPlan
  obtain ⟨rows, isRows⟩ := answered (closedQuery lb) List.mem_cons_self
  have decoded : List.Forall₂ (fun row counter => decodeCounter row = .ok counter) rows closed := by
    have all := mapM_ok isClosed
    rwa [Running.reader, isRows] at all
  obtain ⟨distinct, rowsKnown⟩ := read.closed rows isRows
  have sameKeys : closed.map (·.key.toLowerCase) = rows.map (·.key.toLowerCase) := by
    clear isRows distinct rowsKnown sub isClosed
    induction decoded with
    | nil => rfl
    | cons one _ ih => rw [List.map_cons, List.map_cons, (decodeCounter_ok one).1, ih]
  -- A record that is owed comes from a row of the closed records.
  have source : ∀ record ∈ plan.records, ∃ expiresAt,
      Known lb state.chain record.key.toLowerCase (some (.addr record.provider.toLowerCase))
        expiresAt ∧ run.closedAt < expiresAt := by
    intro record isRecord
    obtain ⟨row, inRows, isRecord⟩ := forall₂_right decoded (sub.subset isRecord)
    obtain ⟨sameKey, isProvider⟩ := decodeCounter_ok isRecord
    obtain ⟨provider, expiresAt, known, young, shown⟩ := rowsKnown row inRows
    rw [shown record.provider isProvider, ← sameKey] at known
    exact ⟨expiresAt, known, young⟩
  refine ⟨?_, fun key isBefore isOwed => ?_, fun record isRecord => ?_⟩
  · obtain ⟨sublist, perm, isSub⟩ := sub
    have nodup : (closed.map (·.key.toLowerCase)).Nodup := sameKeys ▸ distinct
    exact ((perm.map (·.key.toLowerCase)).nodup_iff).mp (nodup.sublist (isSub.map _))
  · obtain ⟨record, isRecord, rfl⟩ := List.mem_map.mp isOwed
    obtain ⟨expiresAt, known, young⟩ := source record isRecord
    obtain ⟨provider, expiry, knownBefore, lower, payer, isPayer, _, shown⟩ :=
      read.named _ isBefore
    obtain ⟨sameProvider, rfl⟩ := known.unique kept.keys knownBefore
    obtain rfl : record.provider.toLowerCase = provider := by simpa using sameProvider
    obtain ⟨one, isOne, inOne⟩ := List.mem_flatMap.mp isRecord
    obtain ⟨isProvider, reads⟩ := owed one isOne record inOne
    obtain ⟨receipts, isReceipts, unnamed⟩ := reads payer isPayer
    rw [← isProvider] at isReceipts
    -- The query of its provider and this payer was made, and showed the receipt.
    have isQuery : receiptsQuery payer record.provider.toLowerCase ∈ run.queries lb := by
      have inGroups := (byProvider_perm closed).mem_iff.mpr (sub.subset isRecord)
      obtain ⟨group, isGroup, inGroup⟩ := List.mem_flatMap.mp inGroups
      have ofGroup := byProvider_sorted closed group isGroup record inGroup
      simp only [Running.queries, isClosed, List.mem_cons, List.mem_flatMap, List.mem_map]
      exact .inr ⟨group, isGroup, payer, isPayer, by rw [ofGroup]⟩
    obtain ⟨answer, isAnswer⟩ := answered _ isQuery
    obtain ⟨row, inAnswer, text, isText, names⟩ := shown answer isAnswer young
    have decoded := mapM_ok isReceipts
    rw [Running.reader, isAnswer] at decoded
    obtain ⟨receipt, inReceipts, isReceipt⟩ := forall₂_left decoded inAnswer
    have sameText := (decodeReceipt_ok isReceipt).1
    rw [isText] at sameText
    obtain rfl : text = receipt.counter := by simpa using sameText
    exact unnamed receipt inReceipts names
  · obtain ⟨expiresAt, known, _⟩ := source record isRecord
    exact ⟨expiresAt, known⟩

/-- The records owed to a provider are records of the plan. -/
theorem mem_keysOf {run : Running} {plan : Ledger} (isPlan : run.plan = some plan) {provider key : Hex}
    (member : key ∈ run.keysOf provider) : key ∈ plan.keys := by
  simp only [Running.keysOf, isPlan, List.mem_flatMap, List.mem_map] at member
  obtain ⟨owed, isOwed, record, inRecords, rfl⟩ := member
  exact List.mem_map.mpr ⟨record, List.mem_flatMap.mpr
    ⟨owed, List.mem_of_mem_filter isOwed, inRecords⟩, rfl⟩

/-- What is owed to one provider is not owed to another. -/
theorem keysOf_apart {run : Running} {plan : Ledger} (isPlan : run.plan = some plan)
    (distinct : plan.keys.Nodup) {owed : Owed} (isOwed : owed ∈ plan.owed) {record : Counter}
    (inRecords : record ∈ owed.records) {provider : Hex} (differs : owed.provider ≠ provider) :
    record.key.toLowerCase ∉ run.keysOf provider := by
  intro member
  simp only [Running.keysOf, isPlan, List.mem_flatMap, List.mem_map] at member
  obtain ⟨other, isOther, found, inFound, sameKey⟩ := member
  obtain ⟨isOther, isProvider⟩ := List.mem_filter.mp isOther
  have isProvider : other.provider = provider := by simpa using isProvider
  have sameRecord : found = record :=
    List.inj_on_of_nodup_map distinct
      (List.mem_flatMap.mpr ⟨other, isOther, inFound⟩)
      (List.mem_flatMap.mpr ⟨owed, isOwed, inRecords⟩) sameKey
  subst sameRecord
  have nodup : plan.records.Nodup := distinct.of_map
  obtain ⟨_, apart⟩ := List.nodup_flatMap.mp nodup
  have symmetric : Std.Symm (Function.onFun List.Disjoint fun owed : Owed => owed.records) :=
    ⟨fun _ _ disjoint => disjoint.symm⟩
  have disjoint := apart.forall isOther isOwed (fun same => differs (same ▸ isProvider))
  exact disjoint inFound inRecords

/-- A relation between what comes earlier in a list and what comes later. -/
theorem pairwise_of_splits {α : Type} {R : α → α → Prop} {values : List α}
    (related : ∀ before first middle second after,
      values = before ++ first :: (middle ++ second :: after) → R first second) :
    values.Pairwise R := by
  induction values with
  | nil => exact List.Pairwise.nil
  | cons value values ih =>
      refine List.pairwise_cons.mpr ⟨fun other member => ?_, ih ?_⟩
      · obtain ⟨middle, after, rfl⟩ := List.append_of_mem member
        exact related [] value middle other after rfl
      · intro before first middle second after same
        exact related (value :: before) first middle second after (by rw [same]; rfl)

/-- The payments of a plan are due, and no batch comes before a transfer of its own records. -/
theorem Planned.pay {lb : Hex} {state : Settling} {run : Running} (planned : Planned lb state run)
    {plan : Ledger} (isPlan : run.plan = some plan) (idle : run.paying = false) {chainId : Int}
    {blockedBy : List String} {sendings : Nat → Sending}
    {answers : Nat → Nat → Except String Unit} {payments : Payments}
    (paid : pay plan chainId blockedBy sendings answers = .ok payments) :
    Planned lb state
      { run with
        paying := true
        todo := payments.actions } := by
  have prudent := payAll_prudent chainId sendings answers 0 plan.owed
  rw [pay_eq_ok paid] at prudent
  have once := prudent.once
  obtain ⟨distinct, fresh, known⟩ := planned.plan plan isPlan
  obtain ⟨_, noFlight, sameReceipted⟩ := planned.idle idle
  have keysOf : ∀ provider, Running.keysOf
      { run with
        paying := true
        todo := payments.actions } provider = run.keysOf provider := fun _ => rfl
  refine ⟨planned.plan, fun action isAction receipt tried => ?_, ?_,
    fun provider amountWei sending _ key isKey => ?_, fun sent isSent => ?_, fun sent isSent => ?_,
    fun notPaying => absurd notPaying (by simp), fun noPlan => ?_⟩
  · have inTried : receipt ∈ payments.tried := List.mem_flatMap.mpr ⟨action, isAction, tried⟩
    rw [prudent.whole] at inTried
    obtain ⟨⟨owed, made⟩, inZip, isReceipt⟩ := List.mem_flatMap.mp inTried
    split at isReceipt
    · next tx _ =>
        obtain ⟨record, inRecords, rfl⟩ := List.mem_map.mp isReceipt
        have isRecord : record ∈ plan.records :=
          List.mem_flatMap.mpr ⟨owed, (List.of_mem_zip inZip).1, inRecords⟩
        obtain ⟨expiresAt, found⟩ := known record isRecord
        exact ⟨record, _, expiresAt, rfl, found⟩
    · cases isReceipt
  · refine pairwise_of_splits fun before first middle second after same => ?_
    rintro provider amountWei sending rfl receipt tried
    cases first with
    | transfer _ _ _ => cases tried
    | write batch answer =>
        obtain ⟨owed, isOwed, made, isMade, tx, _, sameProvider, _, record, inRecords, rfl⟩ :=
          prudent.backed before batch answer _ same receipt tried
        refine keysOf_apart isPlan distinct isOwed inRecords fun isProvider => ?_
        have transfers : payments.transfers = before.filterMap Action.made ++
            (middle.filterMap Action.made ++
              { provider := provider
                amountWei := amountWei
                sending := sending } :: after.filterMap Action.made) := by
          have isActions : payments.actions = _ := same
          rw [Payments.transfers, isActions, List.filterMap_append,
            List.filterMap_cons_none (f := Action.made) rfl, List.filterMap_append,
            List.filterMap_cons_some (f := Action.made) rfl]
        rw [transfers, List.map_append, List.nodup_append] at once
        refine once.2.2 made.provider (List.mem_map_of_mem isMade) provider ?_
          (sameProvider.trans isProvider)
        simp
  · have isKey : key ∈ run.keysOf provider := isKey
    intro isReceipted
    rcases sameReceipted key isReceipted with isBefore | isLate
    · exact absurd (mem_keysOf isPlan isKey) (fresh key isBefore)
    · exact isLate
  · rw [noFlight] at isSent
    cases isSent
  · rw [noFlight] at isSent
    cases isSent
  · exact absurd (isPlan.symm.trans noPlan) (by simp)

/-- The next action is done. -/
theorem Planned.rest {lb : Hex} {state : Settling} {run : Running} (planned : Planned lb state run)
    {action : Action} {rest : List Action} (isTodo : run.todo = action :: rest) :
    Planned lb state { run with todo := rest } := by
  have later : ∀ other ∈ rest, other ∈ run.todo := fun other member => by
    rw [isTodo]
    exact List.mem_cons_of_mem _ member
  have apart := planned.apart
  rw [isTodo] at apart
  exact ⟨planned.plan, fun other member => planned.due other (later other member),
    apart.of_cons, fun provider amountWei sending member =>
      planned.unpaid provider amountWei sending (later _ member),
    fun sent isSent receipt inBatch provider amountWei sending member =>
      planned.flight sent isSent receipt inBatch provider amountWei sending (later _ member),
    planned.own, fun notPaying => absurd (planned.idle notPaying).1 (by simp [isTodo]),
    planned.unplanned⟩

/-- A run's state changes, and nothing else. -/
theorem Kept.setRun {lb : Hex} {state : Settling} (kept : Kept lb state) {run : Running}
    (read : Read lb state run) (planned : Planned lb state run) :
    Kept lb { state with run := some run } := by
  refine ⟨kept.keys, kept.gone, kept.lives, kept.receipts, kept.flight, fun other isRun => ?_,
    fun other isRun => ?_, kept.transfers⟩
  · cases isRun
    exact ⟨read.listed, read.awaits, read.before, read.first, read.closed, read.named⟩
  · cases isRun
    exact ⟨planned.plan, planned.due, planned.apart, planned.unpaid, planned.flight, planned.own,
      planned.idle, planned.unplanned⟩

/-- A run ends. -/
theorem Kept.noRun {lb : Hex} {state : Settling} (kept : Kept lb state) :
    Kept lb { state with run := none } :=
  ⟨kept.keys, kept.gone, kept.lives, kept.receipts, kept.flight, fun _ isRun => (nomatch isRun),
    fun _ isRun => (nomatch isRun), kept.transfers⟩

/-- The batch in flight that landed is not in flight any more. -/
theorem Kept.eraseIdx {lb : Hex} {state : Settling} (kept : Kept lb state) (index : Nat) :
    Kept lb { state with inFlight := state.inFlight.eraseIdx index } := by
  have fewer : ∀ sent ∈ state.inFlight.eraseIdx index, sent ∈ state.inFlight :=
    fun sent member => List.mem_of_mem_eraseIdx member
  refine ⟨kept.keys, kept.gone, kept.lives, kept.receipts, fun sent isSent => ?_,
    fun run isRun => ?_, fun run isRun => ?_, kept.transfers⟩
  · apply kept.flight sent
    rcases List.mem_append.mp isSent with own | older
    · exact List.mem_append_left _ (fewer sent own)
    · exact List.mem_append_right _ older
  · have read := kept.read run isRun
    exact ⟨read.listed, read.awaits, read.before, read.first, read.closed, read.named⟩
  · have planned := kept.planned run isRun
    exact ⟨planned.plan, planned.due, planned.apart, planned.unpaid,
      fun sent isSent => planned.flight sent (fewer sent isSent),
      fun sent isSent => planned.own sent (fewer sent isSent), fun notPaying => by
        obtain ⟨noTodo, noFlight, same⟩ := planned.idle notPaying
        exact ⟨noTodo, by simp [noFlight], same⟩, planned.unplanned⟩

/-- An earlier run's batch that landed is not awaited any more. -/
theorem Kept.eraseEarlier {lb : Hex} {state : Settling} (kept : Kept lb state) (index : Nat) :
    Kept lb { state with earlier := state.earlier.eraseIdx index } := by
  have fewer : ∀ sent ∈ state.earlier.eraseIdx index, sent ∈ state.earlier :=
    fun sent member => List.mem_of_mem_eraseIdx member
  refine ⟨kept.keys, kept.gone, kept.lives, kept.receipts, fun sent isSent => ?_,
    fun run isRun => ?_, fun run isRun => ?_, kept.transfers⟩
  · apply kept.flight sent
    rcases List.mem_append.mp isSent with own | older
    · exact List.mem_append_left _ own
    · exact List.mem_append_right _ (fewer sent older)
  · have read := kept.read run isRun
    exact ⟨read.listed, fun sent isSent => read.awaits sent (fewer sent isSent), read.before,
      read.first, read.closed, read.named⟩
  · have planned := kept.planned run isRun
    exact ⟨planned.plan, planned.due, planned.apart, planned.unpaid, planned.flight, planned.own,
      planned.idle, planned.unplanned⟩

/-- With the closed records read at most, no receipts are. -/
theorem Read.unread {lb : Hex} {state : Settling} {run : Running} (read : Read lb state run)
    (few : run.answers.length ≤ 1) (payer provider : Hex) :
    run.answers.lookup (receiptsQuery payer provider) = none := by
  have differs : receiptsQuery payer provider ≠ closedQuery lb := fun same =>
    absurd (congrArg RowQuery.kind same) (show KIND.receipt ≠ KIND.counter by decide)
  have first := read.first
  generalize run.answers = answers at few first
  rcases answers with _ | ⟨⟨query, rows⟩, _ | more⟩
  · rfl
  · have asked := first (List.cons_ne_nil _ _)
    by_cases isClosed : query = closedQuery lb
    · subst isClosed
      simpa using differs
    · have unlike : (closedQuery lb == query) = false := by simpa using Ne.symm isClosed
      simp [List.lookup_cons, unlike] at asked
  · simp at few

/-- What a batch that lands changes. -/
theorem land_eq (lb : Hex) {state landed : Settling} {payer : Hex} {batch : List ReceiptRecord}
    {keys : List Hex} (isLanded : state.land payer batch keys = some landed) :
    ∃ chain, Evolves lb state.chain chain ∧
      landed =
        { state with
          chain := chain
          used := payer.toLowerCase :: state.used
          receipted := batch.map (·.counter.toLowerCase) ++ state.receipted } := by
  simp only [Settling.land] at isLanded
  split at isLanded
  · cases isLanded
    exact ⟨_, Evolves.append lb state.chain _, rfl⟩
  · cases isLanded

/-- What a run read is as it was when an earlier run's batch lands. -/
theorem Read.meanwhile {lb : Hex} {state : Settling} {run : Running} (kept : Kept lb state)
    (read : Read lb state run) {counters : List Hex}
    (receipted : ∀ key ∈ counters, key ∈ state.receipted) :
    Read lb state (run.meanwhile counters) := by
  simp only [Running.meanwhile]
  split
  · next few =>
      refine ⟨read.listed, read.awaits, fun key isBefore => ?_, read.first, read.closed,
        fun key isBefore => ?_⟩
      · rcases List.mem_append.mp isBefore with new | older
        · exact receipted key new
        · exact read.before key older
      · rcases List.mem_append.mp isBefore with new | older
        · obtain ⟨provider, expiresAt, known, lower, used, isUsed, entity, names⟩ :=
            kept.receipts key (receipted key new)
          obtain ⟨payer, isPayer, rfl⟩ := List.mem_map.mp (read.listed used isUsed)
          refine ⟨provider, expiresAt, known, lower, payer, isPayer, ⟨isUsed, entity, names⟩,
            fun rows isRows => ?_⟩
          rw [read.unread few.2] at isRows
          cases isRows
        · exact read.named key older
  · exact ⟨read.listed, read.awaits, read.before, read.first, read.closed, read.named⟩

/-- A run's plan and actions are as they were when an earlier run's batch lands, what it has still to
pay counted as too late. -/
theorem Planned.meanwhile {lb : Hex} {state : Settling} {run : Running}
    (planned : Planned lb state run) {chain : Books} (evolves : Evolves lb state.chain chain)
    (used : List Hex) (counters : List Hex) :
    Planned lb
      { state with
        chain := chain
        used := used
        receipted := counters ++ state.receipted }
      (run.meanwhile (counters.filter (· ∉ state.receipted))) := by
  have evolved := planned.evolves evolves
  have new : ∀ key ∈ counters, key ∉ state.receipted →
      key ∈ counters.filter (· ∉ state.receipted) :=
    fun key isNew fresh => List.mem_filter.mpr ⟨isNew, by simpa using fresh⟩
  simp only [Running.meanwhile]
  split
  · next few =>
      have noPlan : run.plan = none := by simpa using few.1
      have notPaying := planned.unplanned noPlan
      obtain ⟨noTodo, noFlight, same⟩ := planned.idle notPaying
      refine ⟨fun plan isPlan => ?_, evolved.due, evolved.apart, fun _ _ _ isTodo => ?_,
        evolved.flight, evolved.own, fun _ => ⟨noTodo, noFlight, fun key isReceipted => ?_⟩,
        evolved.unplanned⟩
      · exact absurd (noPlan.symm.trans isPlan) (by simp)
      · rw [noTodo] at isTodo
        cases isTodo
      · by_cases older : key ∈ state.receipted
        · exact (same key older).imp_left (List.mem_append_right _)
        · rcases List.mem_append.mp isReceipted with isNew | isOlder
          · exact .inl (List.mem_append_left _ (new key isNew older))
          · exact absurd isOlder older
  · refine ⟨evolved.plan, evolved.due, evolved.apart,
      fun provider amountWei sending isTodo key isKey isReceipted => ?_, evolved.flight,
      evolved.own, fun notPaying => ?_, evolved.unplanned⟩
    · by_cases older : key ∈ state.receipted
      · exact List.mem_append_right _
          (planned.unpaid provider amountWei sending isTodo key isKey older)
      · rcases List.mem_append.mp isReceipted with isNew | isOlder
        · exact List.mem_append_left _ (new key isNew older)
        · exact absurd isOlder older
    · obtain ⟨noTodo, noFlight, same⟩ := planned.idle notPaying
      refine ⟨noTodo, noFlight, fun key isReceipted => ?_⟩
      by_cases older : key ∈ state.receipted
      · exact (same key older).imp_right (List.mem_append_right _)
      · rcases List.mem_append.mp isReceipted with isNew | isOlder
        · exact .inr (List.mem_append_left _ (new key isNew older))
        · exact absurd isOlder older

/-- A batch that an earlier run sent lands. -/
theorem Kept.stray {lb : Hex} {state landed : Settling} (kept : Kept lb state) {payer : Hex}
    {batch : List ReceiptRecord} {keys : List Hex} (isEarlier : (payer, batch) ∈ state.earlier)
    (isLanded : state.land payer batch keys = some landed) :
    Kept lb
      { landed with
        run := landed.run.map fun run =>
          run.meanwhile ((batch.map (·.counter.toLowerCase)).filter (· ∉ state.receipted)) } := by
  have due := kept.flight _ (List.mem_append_right _ isEarlier)
  -- It lands as with no run under way, and the run is looked at afterwards.
  have alone : ({ state with run := none } : Settling).land payer batch keys =
      some { landed with run := none } := by
    simp only [Settling.land] at isLanded ⊢
    split at isLanded
    · next fits =>
        cases isLanded
        rw [if_pos fits]
    · cases isLanded
  have base := kept.noRun.land alone due fun _ isRun => (nomatch isRun)
  obtain ⟨chain, evolves, rfl⟩ := land_eq lb isLanded
  cases isRun : state.run with
  | none => simpa only [isRun, Option.map_none] using base
  | some run =>
      have before := kept.read run isRun
      have read : Read lb
          { state with
            chain := chain
            used := payer.toLowerCase :: state.used
            run := none
            receipted := batch.map (·.counter.toLowerCase) ++ state.receipted } run := by
        refine before.evolves evolves (fun address isUsed => ?_) before.awaits
          (fun _ older => List.mem_cons_of_mem _ older)
          fun key older => List.mem_append_right _ older
        rcases List.mem_cons.mp isUsed with rfl | older
        · exact before.awaits _ isEarlier
        · exact before.listed address older
      have planned := (kept.planned run isRun).meanwhile evolves (payer.toLowerCase :: state.used)
        (batch.map (·.counter.toLowerCase))
      exact base.setRun
        (read.meanwhile base fun key isNew =>
          List.mem_append_left _ (List.mem_of_mem_filter isNew))
        ⟨planned.plan, planned.due, planned.apart, planned.unpaid, planned.flight, planned.own,
          planned.idle, planned.unplanned⟩

/-- A batch is in flight, of receipts that are due. -/
theorem Kept.send {lb : Hex} {state : Settling} (kept : Kept lb state) {payer : Hex}
    {batch : List ReceiptRecord} (due : ∀ receipt ∈ batch, Due lb state.chain receipt)
    (own : ∀ run ∈ state.run, payer = run.config.settle ∧ run.paying = true ∧
      ∀ receipt ∈ batch, ∀ provider amountWei sending,
        .transfer provider amountWei sending ∈ run.todo →
          receipt.counter.toLowerCase ∉ run.keysOf provider) :
    Kept lb { state with inFlight := (payer, batch) :: state.inFlight } := by
  refine ⟨kept.keys, kept.gone, kept.lives, kept.receipts, fun sent isSent => ?_,
    fun run isRun => ?_, fun run isRun => ?_, kept.transfers⟩
  · rcases List.mem_cons.mp isSent with rfl | older
    · exact due
    · exact kept.flight sent older
  · have read := kept.read run isRun
    exact ⟨read.listed, read.awaits, read.before, read.first, read.closed, read.named⟩
  · have planned := kept.planned run isRun
    obtain ⟨isOwn, paying, clear⟩ := own run isRun
    refine ⟨planned.plan, planned.due, planned.apart, planned.unpaid, fun sent isSent => ?_,
      fun sent isSent => ?_, fun idle => absurd (paying.symm.trans idle) (by decide),
      planned.unplanned⟩
    · rcases List.mem_cons.mp isSent with rfl | older
      · exact clear
      · exact planned.flight sent older
    · rcases List.mem_cons.mp isSent with rfl | older
      · exact isOwn
      · exact planned.own sent older

/-- A batch that is next to be written is due, and belongs to no transfer still to be sent. -/
theorem Kept.next {lb : Hex} {state : Settling} (kept : Kept lb state) {run : Running}
    (isRun : state.run = some run) {batch : List ReceiptRecord} {answer : Except String Unit}
    {rest : List Action} (isTodo : run.todo = .write batch answer :: rest) :
    Kept lb { state with run := some { run with todo := rest } } ∧
      (∀ receipt ∈ batch, Due lb state.chain receipt) ∧ run.paying = true ∧
      ∀ receipt ∈ batch, ∀ provider amountWei sending,
        .transfer provider amountWei sending ∈ rest →
          receipt.counter.toLowerCase ∉ run.keysOf provider := by
  have read := kept.read run isRun
  have planned := kept.planned run isRun
  have apart := planned.apart
  rw [isTodo] at apart
  refine ⟨?_, planned.due (.write batch answer) (by rw [isTodo]; exact List.mem_cons_self), ?_,
    fun receipt inBatch provider amountWei sending member =>
      (List.pairwise_cons.mp apart).1 _ member provider amountWei sending rfl receipt inBatch⟩
  · exact kept.setRun ⟨read.listed, read.awaits, read.before, read.first, read.closed, read.named⟩
      (planned.rest isTodo)
  · cases paying : run.paying with
    | true => rfl
    | false =>
        have none_ := (planned.idle paying).1
        rw [isTodo] at none_
        cases none_

/-- One event. -/
theorem Kept.step {lb : Hex} {life : Nat} (short : life ≤ RECEIPT_LIFE_BLOCKS)
    {state next : Settling} {event : SettleEvent} (kept : Kept lb state)
    (assumed : Assumed lb life state event) (stepped : state.step lb event = some next) :
    Kept lb next := by
  cases event with
  | advance blocks =>
      cases stepped
      exact kept.evolves ⟨id, fun names => ⟨names.member, names.readonly, names.there,
        names.creator, names.kind, names.v, names.counter, names.provider, names.lives⟩⟩
        kept.keys kept.gone kept.lives
  | create entity =>
      simp only [Settling.step] at stepped
      split at stepped
      · next fresh =>
          cases stepped
          exact kept.create fresh.2 fun counts =>
            (assumed counts).trans (Nat.add_le_add_left short _)
      · cases stepped
  | patch key attributes =>
      simp only [Settling.step] at stepped
      split at stepped
      · next changes =>
          cases stepped
          exact kept.patch changes assumed
      · cases stepped
  | delete key =>
      simp only [Settling.step] at stepped
      split at stepped
      · next changes =>
          cases stepped
          exact kept.delete changes
      · cases stepped
  | begin config =>
      simp only [Settling.step] at stepped
      split at stepped
      · cases stepped
      · cases stepped
        exact kept.begin assumed
  | read rows =>
      simp only [Settling.step, Option.bind_eq_bind, Option.bind_eq_some_iff] at stepped
      obtain ⟨run, isRun, query, isNext, stepped⟩ := stepped
      cases stepped
      obtain ⟨answers, spans⟩ := assumed run isRun query isNext
      have planned := kept.planned run isRun
      exact kept.setRun ((kept.read run isRun).read kept isNext answers spans)
        ⟨planned.plan, planned.due, planned.apart, planned.unpaid, planned.flight, planned.own,
          planned.idle, planned.unplanned⟩
  | plan =>
      simp only [Settling.step, Option.bind_eq_bind, Option.bind_eq_some_iff] at stepped
      obtain ⟨run, isRun, stepped⟩ := stepped
      split at stepped
      · next done =>
          split at stepped
          · cases stepped
            exact kept.noRun
          · next plan isPlan =>
              cases stepped
              have read := kept.read run isRun
              have planned := kept.planned run isRun
              have noPlan : run.plan = none := by simpa using done.2
              have notPaying := planned.unplanned noPlan
              obtain ⟨noTodo, noFlight, same⟩ := planned.idle notPaying
              refine kept.setRun ⟨read.listed, read.awaits, read.before, read.first, read.closed, read.named⟩
                ⟨fun other isOther => ?_, planned.due, ?_, fun _ _ _ isTodo => ?_,
                  fun _ isSent => ?_, fun _ isSent => ?_, planned.idle, fun none_ => ?_⟩
              · cases isOther
                exact read.ledger kept done.1 isPlan
              · simp [noTodo]
              · simp [noTodo] at isTodo
              · simp [noFlight] at isSent
              · simp [noFlight] at isSent
              · cases none_
      · cases stepped
  | pay chainId blockedBy sendings answers =>
      simp only [Settling.step, Option.bind_eq_bind, Option.bind_eq_some_iff] at stepped
      obtain ⟨run, isRun, plan, isPlan, stepped⟩ := stepped
      split at stepped
      · next idle =>
          split at stepped
          · cases stepped
            exact kept.noRun
          · next payments isPaid =>
              cases stepped
              have read := kept.read run isRun
              exact kept.setRun ⟨read.listed, read.awaits, read.before, read.first, read.closed, read.named⟩
                ((kept.planned run isRun).pay isPlan (by simpa using idle) isPaid)
      · cases stepped
  | act landed keys =>
      simp only [Settling.step, Option.bind_eq_bind, Option.bind_eq_some_iff] at stepped
      obtain ⟨run, isRun, stepped⟩ := stepped
      split at stepped
      · cases stepped
      · next provider amountWei sending rest isTodo =>
          cases stepped
          have read := kept.read run isRun
          have planned := kept.planned run isRun
          have after : Kept lb { state with run := some { run with todo := rest } } := kept.setRun
            ⟨read.listed, read.awaits, read.before, read.first, read.closed, read.named⟩ (planned.rest isTodo)
          refine ⟨after.keys, after.gone, after.lives, after.receipts, after.flight,
            fun other isOther => ?_, fun other isOther => ?_, fun sent isSent => ?_⟩
          · have read := after.read other isOther
            exact ⟨read.listed, read.awaits, read.before, read.first, read.closed, read.named⟩
          · have planned := after.planned other isOther
            exact ⟨planned.plan, planned.due, planned.apart, planned.unpaid, planned.flight,
              planned.own, planned.idle, planned.unplanned⟩
          · rcases List.mem_cons.mp isSent with rfl | older
            · intro key isReceipted notLate isKey
              exact notLate (planned.unpaid provider amountWei sending
                (isTodo ▸ List.mem_cons_self) key isKey isReceipted)
            · exact kept.transfers sent older
      · next batch answer rest isTodo =>
          obtain ⟨after, due, paying, clear⟩ := kept.next isRun isTodo
          have own : ∀ other ∈ (some { run with todo := rest } : Option Running),
              run.config.settle = other.config.settle ∧ other.paying = true ∧
                ∀ receipt ∈ batch, ∀ provider amountWei sending,
                  .transfer provider amountWei sending ∈ other.todo →
                    receipt.counter.toLowerCase ∉ other.keysOf provider := by
            intro other isOther
            cases isOther
            exact ⟨rfl, paying, clear⟩
          split at stepped
          · exact after.land stepped due own
          · split at stepped
            · cases stepped
            · cases stepped
              exact after.send due own
  | late index keys =>
      simp only [Settling.step, Option.bind_eq_bind, Option.bind_eq_some_iff] at stepped
      obtain ⟨⟨payer, batch⟩, isSent, landed, isLanded, stepped⟩ := stepped
      cases stepped
      have inFlight := List.mem_of_getElem? isSent
      have due := kept.flight _ (List.mem_append_left _ inFlight)
      refine (kept.land isLanded due fun run isRun => ?_).eraseIdx index
      have planned := kept.planned run isRun
      refine ⟨planned.own _ inFlight, ?_, planned.flight _ inFlight⟩
      cases paying : run.paying with
      | true => rfl
      | false =>
          rw [(planned.idle paying).2.1] at inFlight
          cases inFlight
  | stray index keys =>
      simp only [Settling.step, Option.bind_eq_bind, Option.bind_eq_some_iff] at stepped
      obtain ⟨⟨payer, batch⟩, isSent, landed, isLanded, stepped⟩ := stepped
      cases stepped
      exact (kept.stray (List.mem_of_getElem? isSent) isLanded).eraseEarlier index
  | cut sent =>
      simp only [Settling.step, Option.bind_eq_bind, Option.bind_eq_some_iff] at stepped
      obtain ⟨run, isRun, stepped⟩ := stepped
      split at stepped
      · next batch answer rest isTodo =>
          cases stepped
          obtain ⟨_, due, _⟩ := kept.next isRun isTodo
          exact kept.noRun.send due fun _ isRun => (nomatch isRun)
      · cases stepped
        exact kept.noRun

/-- Before anything nothing is owed. -/
theorem Kept.initial (lb : Hex) : Kept lb initial where
  keys := by simp [Settling.initial]
  gone := by simp [Settling.initial]
  lives := by simp [Settling.initial]
  receipts := by simp [Settling.initial]
  flight := by simp [Settling.initial]
  read := by simp [Settling.initial]
  planned := by simp [Settling.initial]
  transfers := by simp [Settling.initial]

/-- Whatever a validated configuration has counter records live for: once a receipt landed, no run
that begins later owes its record, and no transfer sent later includes it, unless an earlier run's batch
brought the receipt once the transfer's run had begun to read receipts. -/
theorem receipted_never_owed {urls : Urls} {config : Marketplace}
    (valid : config.validate urls = .ok ()) (lb : Hex) {events : List SettleEvent}
    {state : Settling}
    (assumed : (machine lb).Meets (Assumed lb (blocks config.counterRecordLife)) initial events)
    (reached : (machine lb).run initial events = some state) : NeverAgain state := by
  have short : blocks config.counterRecordLife ≤ RECEIPT_LIFE_BLOCKS :=
    (Marketplace.validate_counterRecordLife_le valid).trans (by decide)
  have kept : Kept lb state :=
    Machine.run_invariant (fun _ _ _ => Kept.step short) (Kept.initial lb) assumed reached
  exact ⟨fun run isRun plan isPlan => ((kept.planned run isRun).plan plan isPlan).2.1,
    kept.transfers⟩

/-- A closed counter record of the LB's. -/
def closedRecord : Entity where
  key := ['c']
  creator := ['l']
  createdAt := 0
  expiresAt := 100
  attributes :=
    [("kind", .str KIND.counter), ("v", .i32 SCHEMA_VERSION), ("state", .str "closed"),
      ("agreement", .key ['a']), ("provider", .addr ['p']),
      ("payload", .bytes (.ok (.obj [("count", .num 3), ("wei_per_call", .str "5"),
        ("opened_block", .num 1), ("closed_block", .num 4)])))]
  readonly := false

/-- An entity's row, as it is. -/
def rowOf (entity : Entity) : Row where
  key := entity.key
  creator := entity.creator
  attributes := entity.attributes

/-- One settle key. -/
def oneKey : SettleConfig where
  settle := ['s']
  previous := []

/-- The receipt that a run writes. -/
def itsReceipt : Entity :=
  (receiptFor
    { key := ['c']
      agreement := ['a']
      provider := ['p']
      count := 3
      weiPerCall := 5
      openedBlock := 1
      closedBlock := 4 }
    { chainId := 7
      tx := ['t'] }).entity 5 ['s'] ['r']

/-- The settle key rotated. -/
def rotated : SettleConfig where
  settle := ['z']
  previous := [['s']]

/-- A run pays a record and is cut off as its receipt is sent. -/
def cutOff : List SettleEvent :=
  [.create closedRecord, .advance 5, .begin oneKey, .read [rowOf closedRecord], .read [], .plan,
    .pay 7 [] (fun _ => .sent ['t'] (.ok "success")) (fun _ _ => .ok ()), .act false [], .cut true]

/-- The receipt lands before the next run, under another key, reads any. -/
def twoRuns : List SettleEvent :=
  cutOff ++ [.begin rotated, .read [rowOf closedRecord], .stray 0 [['r']], .read [],
    .read [rowOf itsReceipt], .plan]

/-- The receipt lands once the next run found none. -/
def lateReceipt : List SettleEvent :=
  cutOff ++ [.begin oneKey, .read [rowOf closedRecord], .read [], .plan,
    .pay 7 [] (fun _ => .sent ['u'] (.ok "success")) (fun _ _ => .ok ()), .stray 0 [['r']],
    .act false []]

theorem closedRecord_renders : closedRecord.Renders (rowOf closedRecord) :=
  ⟨rfl, rfl, .cons ⟨rfl, rfl⟩ (.cons ⟨rfl, rfl⟩ (.cons ⟨rfl, rfl⟩ (.cons ⟨rfl, rfl⟩
    (.cons ⟨rfl, rfl⟩ (.cons ⟨rfl, rfl⟩ .nil)))))⟩

theorem itsReceipt_renders : itsReceipt.Renders (rowOf itsReceipt) :=
  ⟨rfl, rfl, .cons ⟨rfl, rfl⟩ (.cons ⟨rfl, rfl⟩ (.cons ⟨rfl, rfl⟩ (.cons ⟨rfl, rfl⟩
    (.cons ⟨rfl, rfl⟩ .nil))))⟩

/-- Nothing is assumed up to the cut that does not hold. -/
theorem cutOff_assumed {events : List SettleEvent}
    (after : ∀ state, (machine ['l']).run initial cutOff = some state →
      (machine ['l']).Meets (Assumed ['l'] 1296000) state events) :
    (machine ['l']).Meets (Assumed ['l'] 1296000) initial (cutOff ++ events) := by
  refine Machine.Meets.cons (fun _ => by decide) rfl ?_
  refine Machine.Meets.cons trivial rfl ?_
  refine Machine.Meets.cons (fun _ used => (nomatch used)) rfl ?_
  refine Machine.Meets.cons (fun run isRun query isNext => ?_) rfl ?_
  · cases isRun
    cases isNext
    exact ⟨⟨[closedRecord], .refl _, .cons closedRecord_renders .nil⟩,
      fun more => absurd rfl more⟩
  refine Machine.Meets.cons (fun run isRun query isNext => ?_) rfl ?_
  · cases isRun
    cases isNext
    exact ⟨⟨[], .refl _, .nil⟩, fun _ _ _ _ _ used => (nomatch used)⟩
  refine Machine.Meets.cons trivial rfl ?_
  refine Machine.Meets.cons trivial rfl ?_
  refine Machine.Meets.cons trivial rfl ?_
  refine Machine.Meets.cons trivial rfl ?_
  exact after _ rfl

/-- The reads of a run at block 5 are close enough to the receipt of block 5. -/
theorem spans_at_five {state : Settling} {run : Running} (head : state.chain.head = 5)
    (closedAt : run.closedAt = 5) (used : state.used = [['s']])
    (entities : state.chain.entities = [closedRecord, itsReceipt]) : state.Spans run := by
  intro counter isCounter receipt isReceipt isUsed names
  rw [head, closedAt]
  rw [entities] at isCounter isReceipt
  rw [used] at isUsed
  simp only [List.mem_cons, List.not_mem_nil, or_false] at isReceipt isCounter
  rcases isReceipt with rfl | rfl
  · exact absurd isUsed (by decide)
  · rcases isCounter with rfl | rfl
    · show closedRecord.createdAt + (5 - 5) < itsReceipt.createdAt
      decide
    · cases names

/-- Nothing is assumed of the two runs that does not hold. -/
theorem twoRuns_assumed : (machine ['l']).Meets (Assumed ['l'] 1296000) initial twoRuns := by
  refine cutOff_assumed fun state reached => ?_
  cases reached
  refine Machine.Meets.cons (fun address used => ?_) rfl ?_
  · obtain rfl : address = ['s'] := List.mem_singleton.mp used
    decide
  refine Machine.Meets.cons (fun run isRun query isNext => ?_) rfl ?_
  · cases isRun
    cases isNext
    exact ⟨⟨[closedRecord], .refl _, .cons closedRecord_renders .nil⟩,
      fun more => absurd rfl more⟩
  refine Machine.Meets.cons trivial rfl ?_
  refine Machine.Meets.cons (fun run isRun query isNext => ?_) rfl ?_
  · cases isRun
    cases isNext
    exact ⟨⟨[], .refl _, .nil⟩, fun _ => spans_at_five rfl rfl rfl rfl⟩
  refine Machine.Meets.cons (fun run isRun query isNext => ?_) rfl ?_
  · cases isRun
    cases isNext
    exact ⟨⟨[itsReceipt], .refl _, .cons itsReceipt_renders .nil⟩,
      fun _ => spans_at_five rfl rfl rfl rfl⟩
  refine Machine.Meets.cons trivial rfl ?_
  exact trivial

/-- Nor of the runs with a late receipt. -/
theorem lateReceipt_assumed :
    (machine ['l']).Meets (Assumed ['l'] 1296000) initial lateReceipt := by
  refine cutOff_assumed fun state reached => ?_
  cases reached
  refine Machine.Meets.cons (fun address used => ?_) rfl ?_
  · obtain rfl : address = ['s'] := List.mem_singleton.mp used
    decide
  refine Machine.Meets.cons (fun run isRun query isNext => ?_) rfl ?_
  · cases isRun
    cases isNext
    exact ⟨⟨[closedRecord], .refl _, .cons closedRecord_renders .nil⟩,
      fun more => absurd rfl more⟩
  refine Machine.Meets.cons (fun run isRun query isNext => ?_) rfl ?_
  · cases isRun
    cases isNext
    exact ⟨⟨[], .refl _, .nil⟩, fun _ _ _ _ _ used => (nomatch used)⟩
  refine Machine.Meets.cons trivial rfl ?_
  refine Machine.Meets.cons trivial rfl ?_
  refine Machine.Meets.cons trivial rfl ?_
  refine Machine.Meets.cons trivial rfl ?_
  exact trivial

/-- A marketplace section that validates. -/
def sevenDays : Marketplace where
  writerUrl := "http://writer"
  weiPerCall := 5
  tunnelServer := "tunnel:443"
  maxProviders := 2
  remotePortStart := 8000
  discoveryInterval := Duration.fromSecs 30
  refreshInterval := Duration.fromSecs 900
  agreementLife := Duration.fromSecs 3600
  listingLife := Duration.fromSecs 3600
  counterRecordLife := Duration.fromSecs 2592000
  offerMaxLifetime := Duration.fromSecs 1800
  settlementPeriod := Duration.fromSecs 86400
  flushInterval := Duration.fromSecs 600

/-- Both URLs parse. -/
def web : Urls where
  parse := fun _ => .ok "http"

/-- A record whose receipt landed after its run was cut off is not owed in the next. -/
theorem twoRuns_pay_once : sevenDays.validate web = .ok () ∧
    ∃ state, (machine ['l']).run initial twoRuns = some state ∧ state.receipted = [['c']] ∧
      (state.run.bind (·.plan)).map (·.owed.length) = some 0 ∧ NeverAgain state :=
  ⟨by decide +kernel, _, rfl, rfl, by decide +kernel,
    @receipted_never_owed web sevenDays (by decide +kernel) ['l'] twoRuns _
    twoRuns_assumed rfl⟩

/-- A receipt that an earlier run had sent lands while the next run pays: its record is in a transfer
sent after. -/
theorem late_receipt_paid_again : sevenDays.validate web = .ok () ∧
    (machine ['l']).Meets (Assumed ['l'] (blocks sevenDays.counterRecordLife)) initial
      lateReceipt ∧
    ∃ state, (machine ['l']).run initial lateReceipt = some state ∧
      ∃ sent ∈ state.transfers, ∃ key ∈ sent.receipted, key ∈ sent.keys :=
  ⟨by decide +kernel, lateReceipt_assumed, _, rfl, _, List.mem_cons_self, ['c'], by decide,
    by decide⟩

end Settling
end CommunityLb
