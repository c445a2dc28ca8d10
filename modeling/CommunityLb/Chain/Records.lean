import CommunityLb.Lib.Keyed

/-!
# The records on the chain

An entity is a row with a key, a creator, a life and attributes.  The attributes stand here as
the record they decode to; a row of a known kind whose attributes do not decode is `unreadable`.
-/

namespace CommunityLb

/-- Twenty bytes naming a key holder. -/
abbrev Address := BitVec 160

/-- Thirty-two bytes naming an entity. -/
abbrev EntityKey := BitVec 256

instance : LawfulBEq Address :=
  inferInstance

instance : LawfulBEq EntityKey :=
  inferInstance

/-- An amount of wei. -/
abbrev Wei := BitVec 256

/-- The rows one page of a query answers with at most. -/
def PAGE_LIMIT : Nat := 100

/-- A lifetime of whole seconds in blocks of two, the way the sidecar converts it. -/
def blocksOf (seconds : Nat) : Nat :=
  seconds / 2

/-- A row of the chain and what it decodes to. -/
structure Stored (α : Type) where
  key : EntityKey
  creator : Address
  createdAt : Nat
  expiresAt : Nat
  record : α
  deriving DecidableEq, Repr

/-- The LB's listing, which offers answer. -/
structure LbListing where
  weiPerCall : Wei
  tunnelServer : String
  maxProviders : Nat
  deriving DecidableEq, Repr

/-- A provider's offer against a listing.  Of its specs the LB judges the chain alone. -/
structure Offer where
  lbListing : EntityKey
  chainId : Nat
  deriving DecidableEq, Repr

/-- An accepted offer. -/
structure Agreement where
  provider : Address
  offer : EntityKey
  weiPerCall : Wei
  remotePort : Nat
  deriving DecidableEq, Repr

/-- Whether a settlement period is still counted. -/
inductive CounterState where
  | opened
  | closed
  deriving DecidableEq, Repr

/-- One settlement period's count under one agreement. -/
structure CounterRecord where
  agreement : EntityKey
  provider : Address
  state : CounterState
  count : Nat
  weiPerCall : Wei
  /-- The head when counting for this record started. -/
  openedBlock : Nat
  /-- The head at the closing write, absent while open. -/
  closedBlock : Option Nat
  deriving DecidableEq, Repr

/-- What the payload attribute of a counter record carries. -/
structure CounterPayload where
  count : Nat
  weiPerCall : Wei
  openedBlock : Nat
  closedBlock : Option Nat
  deriving DecidableEq, Repr

/-- The payload a counter record encodes to. -/
def CounterRecord.payload (record : CounterRecord) : CounterPayload where
  count := record.count
  weiPerCall := record.weiPerCall
  openedBlock := record.openedBlock
  closedBlock := record.closedBlock

/-- The kinds of record the LB reads. -/
inductive Kind where
  | listing
  | offer
  | agreement
  | counter
  deriving DecidableEq, Repr

/-- The attributes of an entity, as the record they decode to. -/
inductive Record where
  | listing (record : LbListing)
  | offer (record : Offer)
  | agreement (record : Agreement)
  | counter (record : CounterRecord)
  /-- A row that names its kind, and its state where the kind has one, and does not decode. -/
  | unreadable (kind : Kind) (state : CounterState)
  deriving DecidableEq, Repr

namespace Record

/-- The kind attribute. -/
def kind : Record → Kind
  | listing _ => .listing
  | offer _ => .offer
  | agreement _ => .agreement
  | counter _ => .counter
  | unreadable kind _ => kind

/-- The state attribute reads open. -/
def isOpen : Record → Bool
  | counter record => record.state = .opened
  | unreadable _ state => state = .opened
  | _ => false

/-- A listing, when the attributes decode to one. -/
def asListing : Record → Option LbListing
  | listing record => some record
  | _ => none

/-- An offer, when the attributes decode to one. -/
def asOffer : Record → Option Offer
  | offer record => some record
  | _ => none

/-- An agreement, when the attributes decode to one. -/
def asAgreement : Record → Option Agreement
  | agreement record => some record
  | _ => none

/-- A counter record, when the attributes decode to one. -/
def asCounter : Record → Option CounterRecord
  | counter record => some record
  | _ => none

end Record

namespace Stored

variable {α β : Type}

/-- A row decoded, its key and its life kept. -/
def decode (read : α → Option β) (row : Stored α) : Option (Stored β) :=
  (read row.record).map fun record =>
    { key := row.key
      creator := row.creator
      createdAt := row.createdAt
      expiresAt := row.expiresAt
      record := record }

/-- Creation order. -/
def Older (first second : Stored α) : Prop :=
  first.createdAt < second.createdAt ∨
    first.createdAt = second.createdAt ∧ first.key ≤ second.key

instance (first second : Stored α) : Decidable (first.Older second) :=
  inferInstanceAs (Decidable (_ ∨ _))

end Stored

end CommunityLb
