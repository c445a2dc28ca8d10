import CommunityLb.Chain.Store
import CommunityLb.Pool

/-!
# The marketplace agent: what it does to memory and what it decides to write

Every function here runs between two awaits.  What happens at the awaits is the task's.
-/

namespace CommunityLb

/-- Who the sidecar writes as, and the chain it writes to. -/
structure Identity where
  address : Address
  chainId : Nat
  deriving DecidableEq, Repr

/-- One agreement's open counter record, as the chain last showed it. -/
structure OpenCounter where
  key : EntityKey
  openedBlock : Nat
  deriving DecidableEq, Repr

/-- What the agent knows about one live agreement: its record, its provider's pool entry, and the
open counter record that counts for it. -/
structure Live where
  agreement : Stored Agreement
  provider : Handle
  counter : Option OpenCounter
  deriving DecidableEq, Repr

/-- The key a live agreement is known by. -/
def Live.key (live : Live) : EntityKey :=
  live.agreement.key

/-- The live agreements, by agreement key. -/
abbrev KnownAgreements := Keyed Live.key

/-- A task that extends an agreement after its provider's tunnel was admitted. -/
structure Admission where
  agreement : EntityKey
  /-- The agreement in memory names it as its own. -/
  held : Bool
  /-- The expiry its extend's answer names, while that is on its way. -/
  answer : Option Nat
  deriving DecidableEq, Repr

/-- The agent's state between two awaits. -/
structure Agent where
  config : Marketplace
  identity : Identity
  pool : Pool
  agreements : KnownAgreements
  listingKey : EntityKey
  /-- The listing's expiry as the start found or wrote it. -/
  listingExpiresAt : Nat
  /-- The admission tasks that run. -/
  admissions : List Admission

/-- Which flush this is: the one on the timer, or the one a deliberate stop makes. -/
inductive Flush where
  | scheduled
  | stop
  deriving DecidableEq, Repr

/-- An agreement that has ended, as memory last had it. -/
structure Ended where
  agreement : Stored Agreement
  counter : OpenCounter
  served : Nat
  deriving DecidableEq, Repr

/-- The agreement a counter record counts for. -/
def counterAgreement (stored : Stored CounterRecord) : EntityKey :=
  stored.record.agreement

/-- Open counter records, one per agreement. -/
abbrev CountersByAgreement := Keyed counterAgreement

/-- What the counter reconcile read. -/
structure Counters where
  /-- The open record the LB counts into. -/
  opened : CountersByAgreement
  /-- An agreement's younger open records. -/
  duplicates : List EntityKey
  /-- Open records of agreements this LB does not have. -/
  strays : List (Stored CounterRecord)

/-- A record whose period the flush asked to close, with the count it asked for. -/
structure Closing where
  agreement : EntityKey
  counter : EntityKey
  count : Nat
  deriving DecidableEq, Repr

/-- What memory keeps of an open counter record. -/
def openCounter (stored : Stored CounterRecord) : OpenCounter where
  key := stored.key
  openedBlock := stored.record.openedBlock

/-- A counter record as it opens: at zero, from the head. -/
def freshCounter (agreement : EntityKey) (record : Agreement) (weiPerCall : Wei) (head : Nat) :
    CounterRecord where
  agreement := agreement
  provider := record.provider
  state := .opened
  count := 0
  weiPerCall := weiPerCall
  openedBlock := head
  closedBlock := none

namespace Agent

/-! ## Agreements -/

/-- The id of an entry. -/
def providerId (agent : Agent) (handle : Handle) : String :=
  ((agent.pool.entryAt handle).map (·.id)).getD ""

/-- One agreement over: it leaves memory, and its provider the pool.  Its admission task runs on. -/
def endAgreement (agent : Agent) (ending : Live) : Agent :=
  { agent with
    agreements := agent.agreements.erase ending.key
    pool := agent.pool.remove (agent.providerId ending.provider)
    admissions := agent.admissions.map fun task =>
      if task.agreement = ending.key then { task with held := false } else task }

/-- The last write an agreement is owed, when a counter record counts for it. -/
def ended? (agent : Agent) (ending : Live) : Option Ended :=
  ending.counter.map fun counter =>
    { agreement := ending.agreement
      counter := counter
      served := agent.pool.served ending.provider }

/-- The agreements memory has and the chain does not end; the ones whose counting is owed a last
write are returned. -/
def endAgreements (agent : Agent) (live : List EntityKey) : Agent × List Ended :=
  let gone := agent.agreements.values.filter (·.key ∉ live)
  (gone.foldl endAgreement agent, gone.filterMap agent.ended?)

/-- A new agreement in memory, its provider in the pool. -/
def insertAgreement (agent : Agent) (stored : Stored Agreement) : Agent :=
  { agent with
    pool := agent.pool.add
      (Provider.fromMarketplace stored.record.provider stored.key stored.record.remotePort)
    agreements := agent.agreements.insert
      { agreement := stored
        provider := agent.pool.entries.length
        counter := none } }

/-- One live record against memory.  A known agreement takes the record's life over; a new one is
adopted unless its provider is already under agreement. -/
def adoptAgreement (agent : Agent) (stored : Stored Agreement) : Agent :=
  match agent.agreements.get? stored.key with
  | some _ =>
      { agent with
        agreements := agent.agreements.adjust stored.key
          (fun live =>
            { live with
              agreement :=
                { live.agreement with
                  createdAt := stored.createdAt
                  expiresAt := stored.expiresAt } })
          (fun _ => rfl) }
  | none =>
      if agent.agreements.values.any (·.agreement.record.provider = stored.record.provider) then
        agent
      else agent.insertAgreement stored

/-- The agreements the chain has, in the order given. -/
def adoptAgreements (agent : Agent) (live : List (Stored Agreement)) : Agent :=
  live.foldl adoptAgreement agent

end Agent

/-- The last write of an ended agreement: its counter record closed with what its provider served,
or deleted when it served nothing. -/
def finalWrite (head : Nat) (ended : Ended) : Operation :=
  if ended.served = 0 then .delete ended.counter.key
  else
    patchRecord ended.counter.key
      { agreement := ended.agreement.key
        provider := ended.agreement.record.provider
        state := .closed
        count := ended.served
        weiPerCall := ended.agreement.record.weiPerCall
        openedBlock := ended.counter.openedBlock
        closedBlock := some head }

/-! ## Counter records -/

/-- One record, oldest first: the first of its agreement counts, any other is a duplicate. -/
def placeRecord (placed : CountersByAgreement × List EntityKey) (stored : Stored CounterRecord) :
    CountersByAgreement × List EntityKey :=
  match placed.1.get? stored.record.agreement with
  | none => (placed.1.insert stored, placed.2)
  | some _ => (placed.1, placed.2 ++ [stored.key])

/-- Open records split into the one each agreement counts into and the keys of the rest. -/
def oldestPerAgreement (records : List (Stored CounterRecord)) :
    CountersByAgreement × List EntityKey :=
  (oldestFirst records).foldl placeRecord (.empty, [])

/-- The count a counter record was closed with, when it is closed. -/
def closedCount (rows : List (Stored Record)) : Option Nat :=
  (rows.head?.bind (Stored.decode Record.asCounter)).bind fun stored =>
    if stored.record.state = .closed then some stored.record.count else none

namespace Agent

/-- The records memory holds of agreements without an open record: agreement and record. -/
def missingCounters (agent : Agent) (opened : CountersByAgreement) :
    List (EntityKey × EntityKey) :=
  (agent.agreements.values.filter fun live => (opened.get? live.key).isNone).filterMap fun live =>
    live.counter.map fun counter => (live.key, counter.key)

/-- One record found closed: its count leaves the entry, and memory forgets it. -/
def forgetCounter (agent : Agent) (agreement : EntityKey) (count : Nat) : Agent :=
  match agent.agreements.get? agreement with
  | none => agent
  | some live =>
      { agent with
        pool := agent.pool.modify live.provider (·.subtractServed count)
        agreements :=
          agent.agreements.adjust agreement (fun live => { live with counter := none })
            (fun _ => rfl) }

/-- The records found closed leave memory. -/
def forgetClosedCounters (agent : Agent) (closed : List (EntityKey × Nat)) : Agent :=
  closed.foldl (fun agent found => agent.forgetCounter found.1 found.2) agent

/-- An entry counts on from the record's count, when memory held no record. -/
def seedEntry (records : CountersByAgreement) (pool : Pool) (live : Live) : Pool :=
  match live.counter, records.get? live.key with
  | none, some stored => pool.modify live.provider (·.seedServed stored.record.count)
  | _, _ => pool

/-- Each agreement in memory takes the open record it counts into, or none. -/
def matchToAgreements (agent : Agent) (records : CountersByAgreement) : Agent :=
  { agent with
    pool := agent.agreements.values.foldl (seedEntry records) agent.pool
    agreements := agent.agreements.update
      (fun live => { live with counter := (records.get? live.key).map openCounter })
      (fun _ => rfl) }

/-- What the matching leaves: the records taken, and the ones no agreement in memory took. -/
def countersRead (agent : Agent) (records : CountersByAgreement) (duplicates : List EntityKey) :
    Counters where
  opened := records.filter fun stored => (agent.agreements.get? stored.record.agreement).isSome
  duplicates := duplicates
  strays :=
    (records.filter fun stored => (agent.agreements.get? stored.record.agreement).isNone).values

/-! ## The flush -/

/-- What the flush does about one agreement: an operation, and the close it asks for. -/
def countsOf (agent : Agent) (counters : Counters) (head : Nat) (flush : Flush) (live : Live) :
    Option Operation × Option Closing :=
  let served := agent.pool.served live.provider
  match counters.opened.get? live.key with
  | some stored =>
      if flush = .scheduled ∧ served > 0 ∧
          head ≥ stored.record.openedBlock + blocks agent.config.settlementPeriod then
        (some (patchRecord stored.key (closed stored.record served head)),
          some { agreement := live.key, counter := stored.key, count := served })
      else if stored.record.count = served then (none, none)
      else (some (patchRecord stored.key (counted stored served)), none)
  | none =>
      match flush with
      | .stop => (none, none)
      | .scheduled =>
          (some (.create
            (.counter (freshCounter live.key live.agreement.record
              live.agreement.record.weiPerCall head))
            agent.config.counterRecordLife.asSecs), none)

/-- The write that ends a record no agreement counts into. -/
def strayWrite (head : Nat) (stray : Stored CounterRecord) : Operation :=
  if stray.record.count = 0 then .delete stray.key
  else patchRecord stray.key (closed stray.record stray.record.count head)

/-- The first batch of a flush, and the closes it asks for. -/
def countsBatch (agent : Agent) (counters : Counters) (head : Nat) (flush : Flush) :
    Batch × List Closing :=
  let leftovers :=
    if flush = .scheduled then
      counters.duplicates.map .delete ++ counters.strays.map (strayWrite head)
    else []
  let counts := agent.agreements.values.map (agent.countsOf counters head flush)
  (leftovers ++ counts.filterMap Prod.fst, counts.filterMap Prod.snd)

/-- One close that landed: its count leaves the entry, and its successor is opened. -/
def endPeriod (head : Nat) (ended : Agent × Batch) (close : Closing) : Agent × Batch :=
  match ended.1.agreements.get? close.agreement with
  | none => ended
  | some live =>
      (ended.1.forgetCounter close.agreement close.count,
        ended.2 ++ [.create
          (.counter (freshCounter close.agreement live.agreement.record
            live.agreement.record.weiPerCall head))
          ended.1.config.counterRecordLife.asSecs])

/-- The second batch of a flush: a successor for every close that landed. -/
def endPeriods (agent : Agent) (closing : List Closing) (patched : List EntityKey) (head : Nat) :
    Agent × Batch :=
  (closing.filter (·.counter ∈ patched)).foldl (endPeriod head) (agent, [])

end Agent

/-! ## Offers -/

/-- A poll's discovery: the offers still to be looked at, and what is free and taken. -/
structure Discovery where
  head : Nat
  offers : List (Stored Offer)
  free : Nat
  takenOffers : List EntityKey
  acceptedProviders : List Address
  usedPorts : List Nat
  accepted : Nat
  deriving DecidableEq, Repr

namespace Discovery

/-- The next offer an acceptance may be made of, with the next port to look at. -/
def seek (ports : List Nat) (discovery : Discovery) :
    List (Stored Offer) → Option (Discovery × Stored Offer × Nat)
  | [] => none
  | offer :: rest =>
      if discovery.accepted ≥ discovery.free ∨ offer.key ∈ discovery.takenOffers ∨
          offer.creator ∈ discovery.acceptedProviders then
        seek ports discovery rest
      else
        (ports.find? (· ∉ discovery.usedPorts)).map fun port =>
          ({ discovery with offers := rest }, offer, port)

/-- A port that is bound is skipped for this poll. -/
def skipPort (discovery : Discovery) (port : Nat) : Discovery :=
  { discovery with usedPorts := port :: discovery.usedPorts }

/-- An acceptance whose port and slot are held. -/
def hold (discovery : Discovery) (offer : Stored Offer) (port : Nat) : Discovery :=
  { discovery with
    acceptedProviders := offer.creator :: discovery.acceptedProviders
    usedPorts := port :: discovery.usedPorts
    accepted := discovery.accepted + 1 }

end Discovery

namespace Agent

/-- The offers a poll looks for. -/
def offersQuery (agent : Agent) (head : Nat) : Query where
  kind := .offer
  lbListing := some agent.listingKey
  expiresAfter := some head
  expiresBy := some (head + blocks agent.config.offerMaxLifetime)

/-- A poll's discovery at its start: the offers for this chain, oldest first, against memory. -/
def discover (agent : Agent) (head : Nat) (rows : List (Stored Record)) : Discovery where
  head := head
  offers := oldestFirst ((rows.filterMap (Stored.decode Record.asOffer)).filter
    (·.record.chainId = agent.identity.chainId))
  free := agent.config.maxProviders - agent.agreements.values.length
  takenOffers := agent.agreements.values.map (·.agreement.record.offer)
  acceptedProviders := agent.agreements.values.map (·.agreement.record.provider)
  usedPorts := agent.agreements.values.map (·.agreement.record.remotePort)
  accepted := 0

/-- The agreement an acceptance writes. -/
def acceptedRecord (agent : Agent) (offer : Stored Offer) (port : Nat) : Agreement where
  provider := offer.creator
  offer := offer.key
  weiPerCall := agent.config.weiPerCall
  remotePort := port

/-- The row memory keeps of an acceptance that landed. -/
def acceptedRow (agent : Agent) (offer : Stored Offer) (port head : Nat)
    (created : EntityKey × Nat) : Stored Agreement where
  key := created.1
  creator := agent.identity.address
  createdAt := head
  expiresAt := created.2
  record := agent.acceptedRecord offer port

/-- The counter an agreement counts into, set in memory. -/
def setCounter (agent : Agent) (agreement : EntityKey) (counter : Option OpenCounter) : Agent :=
  { agent with
    agreements :=
      agent.agreements.adjust agreement (fun live => { live with counter := counter })
        (fun _ => rfl) }

/-! ## Refresh and admission -/

/-- An expiry that a refresh would not move later. -/
def expiresLater (head : Option Nat) (expiresAt : Nat) (life : Duration) : Bool :=
  head.any fun head => expiresAt > head + blocks life

/-- The extend of one agreement's record, for a provider eligible at this moment. -/
def refreshOf (agent : Agent) (head : Option Nat) (live : Live) : Option Operation :=
  if !(agent.pool.entryAt live.provider).any (·.eligible) then none
  else if head.any (live.agreement.expiresAt ≤ ·) then none
  else if expiresLater head live.agreement.expiresAt agent.config.agreementLife then none
  else some (.extend live.key agent.config.agreementLife.asSecs)

/-- The extends one refresh makes. -/
def refreshBatch (agent : Agent) (head : Option Nat) : Batch :=
  (if expiresLater head agent.listingExpiresAt agent.config.listingLife then []
    else [.extend agent.listingKey agent.config.listingLife.asSecs]) ++
    agent.agreements.values.filterMap (agent.refreshOf head)

/-- An agreement's record was extended: its life is at least the one an extend sets. -/
def wasExtended (live : Live) (agreementLife : Duration) : Bool :=
  live.agreement.expiresAt - live.agreement.createdAt ≥ blocks agreementLife

/-- The agreement's own admission task runs. -/
def admitting (agent : Agent) (agreement : EntityKey) : Bool :=
  agent.admissions.any fun task => task.agreement = agreement ∧ task.held

/-- A tunnel was admitted: its agreement's admission starts, unless the record was extended or one
runs already. -/
def admitted (agent : Agent) (agreement : EntityKey) : Agent :=
  match agent.agreements.get? agreement with
  | none => agent
  | some live =>
      if wasExtended live agent.config.agreementLife ∨ agent.admitting agreement then agent
      else
        { agent with
          admissions := agent.admissions ++
            [{ agreement := agreement
               held := true
               answer := none }] }

/-- An admission's task ends. -/
def endAdmission (agent : Agent) (index : Nat) : Agent :=
  { agent with admissions := agent.admissions.eraseIdx index }

/-- An admission's extend landed, and its answer is on its way. -/
def awaitAnswer (agent : Agent) (index expiresAt : Nat) : Agent :=
  { agent with
    admissions := agent.admissions.modify index fun task =>
      { task with answer := some expiresAt } }

/-- Memory learns an expiry from the answer of an extend at admission. -/
def learnExpiry (agent : Agent) (agreement : EntityKey) (expiresAt : Nat) : Agent :=
  { agent with
    agreements := agent.agreements.adjust agreement
      (fun live => { live with agreement := { live.agreement with expiresAt := expiresAt } })
      (fun _ => rfl) }

/-! ## The listing -/

/-- The listing the configuration asks for. -/
def desiredListing (agent : Agent) : LbListing where
  weiPerCall := agent.config.weiPerCall
  tunnelServer := agent.config.tunnelServer
  maxProviders := agent.config.maxProviders

end Agent

end CommunityLb
