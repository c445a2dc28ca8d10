import CommunityLb.Chain.Records

/-!
# What the LB writes

The operations the sidecar takes, the batches they travel in, and what a write is answered.
-/

namespace CommunityLb

/-- The attributes a patch sets: a payload, and with a closing counter record its state. -/
inductive SetAttributes where
  | counter (payload : CounterPayload) (state : Option CounterState)
  | listing (record : LbListing)
  deriving DecidableEq, Repr

/-- One operation.  A create asks for a lifetime in seconds, and so does an extend. -/
inductive Operation where
  | create (record : Record) (seconds : Nat)
  | patch (entityKey : EntityKey) (set : SetAttributes)
  | delete (entityKey : EntityKey)
  | extend (entityKey : EntityKey) (seconds : Nat)
  deriving DecidableEq, Repr

/-- The operations of one transaction. -/
abbrev Batch := List Operation

/-- A batch in two halves, in order; nothing when there is only one operation. -/
def Batch.halves (batch : Batch) : Option (Batch × Batch) :=
  if batch.length < 2 then none
  else some (batch.take (batch.length / 2), batch.drop (batch.length / 2))

theorem Batch.halves_append {batch first second : Batch}
    (split : batch.halves = some (first, second)) : batch = first ++ second := by
  rw [halves] at split
  split at split
  · cases split
  · cases split
    exact (List.take_append_drop _ _).symm

/-- The answers of a write that are not its landing. -/
inductive WriteError where
  /-- 400: nothing was sent. -/
  | refused
  /-- 413: nothing was sent; a batch is split and sent again. -/
  | tooLarge
  /-- 500: the transaction reverted or could not be sent. -/
  | failed
  /-- 504: sent, no receipt in time. -/
  | unresolved
  /-- An answer of another shape. -/
  | unexpected
  /-- The sidecar could not be reached, or its answer was lost on the way. -/
  | transport
  deriving DecidableEq, Repr

/-- After these answers the transaction may have been sent. -/
def WriteError.maySend : WriteError → Bool
  | refused | tooLarge => false
  | failed | unresolved | unexpected | transport => true

/-- What a landed batch did, in operation order: the keys, and the expiries it set. -/
structure BatchResult where
  createdEntities : List (EntityKey × Nat) := []
  patchedEntities : List EntityKey := []
  deletedEntities : List EntityKey := []
  extendedEntities : List (EntityKey × Nat) := []
  deriving DecidableEq, Repr

/-- A counter record as it should stand: the whole payload, and the state with a close. -/
def patchRecord (key : EntityKey) (record : CounterRecord) : Operation :=
  .patch key (.counter record.payload (if record.state = .closed then some .closed else none))

/-- The same record with a new count. -/
def counted (stored : Stored CounterRecord) (count : Nat) : CounterRecord :=
  { stored.record with count := count }

/-- The same record with its final count and the block it closed at. -/
def closed (record : CounterRecord) (count head : Nat) : CounterRecord :=
  { record with
    count := count
    state := .closed
    closedBlock := some head }

end CommunityLb
