import CommunityLb.Chain.Writer

/-!
# The chain as the LB reads and writes it

Rows are never dropped from the store: an expired row is past its expiry and a deleted one is
listed as gone, and neither is shown by a query again.  Keys are therefore never given twice.
-/

namespace CommunityLb

/-- The rows written so far and the head. -/
structure Chain where
  head : Nat
  entities : Keyed (Stored.key (α := Record))
  /-- The keys of deleted rows. -/
  gone : List EntityKey

namespace Chain

/-- A row is on the chain: not expired, not deleted. -/
def alive (chain : Chain) (row : Stored Record) : Bool :=
  chain.head < row.expiresAt ∧ row.key ∉ chain.gone

/-- The row under a key, while it is on the chain. -/
def live? (chain : Chain) (key : EntityKey) : Option (Stored Record) :=
  (chain.entities.get? key).filter chain.alive

/-- The chain some blocks later. -/
def advance (chain : Chain) (count : Nat) : Chain :=
  { chain with head := chain.head + count }

end Chain

/-- The attributes of a record after a patch.  A set of another kind's attributes does not arise. -/
def Record.set : Record → SetAttributes → Record
  | .counter record, .counter payload state =>
      .counter
        { record with
          state := state.getD record.state
          count := payload.count
          weiPerCall := payload.weiPerCall
          openedBlock := payload.openedBlock
          closedBlock := payload.closedBlock }
  | .listing _, .listing record => .listing record
  | record, _ => record

namespace Chain

/-- One operation in the block at the head.  A create takes the key it is given, a key no entity
ever had; the others need their entity on the chain, and an extend has to move its expiry later. -/
def operate (chain : Chain) (creator : Address) (fresh : EntityKey) : Operation → Option Chain
  | .create record seconds =>
      if (chain.entities.get? fresh).isNone then
        some
          { chain with
            entities := chain.entities.insert
              { key := fresh
                creator := creator
                createdAt := chain.head
                expiresAt := chain.head + blocksOf seconds
                record := record } }
      else none
  | .patch key set =>
      if (chain.live? key).isSome then
        some
          { chain with
            entities := chain.entities.adjust key
              (fun row => { row with record := row.record.set set }) (fun _ => rfl) }
      else none
  | .delete key =>
      if (chain.live? key).isSome then some { chain with gone := key :: chain.gone } else none
  | .extend key seconds =>
      if (chain.live? key).any (·.expiresAt < chain.head + blocksOf seconds) then
        some
          { chain with
            entities := chain.entities.adjust key
              (fun row => { row with expiresAt := chain.head + blocksOf seconds }) (fun _ => rfl) }
      else none

/-- A batch, one transaction: all of its operations, each with a key at hand, or nothing. -/
def execute (creator : Address) : Chain → List (Operation × EntityKey) → Option Chain
  | chain, [] => some chain
  | chain, (operation, fresh) :: rest =>
      (chain.operate creator fresh operation).bind (execute creator · rest)

end Chain

/-- What the receipt of a batch that landed in a block names. -/
def BatchResult.of (block : Nat) : List (Operation × EntityKey) → BatchResult
  | [] => {}
  | (operation, fresh) :: rest =>
      let result := BatchResult.of block rest
      match operation with
      | .create _ seconds =>
          { result with
            createdEntities := (fresh, block + blocksOf seconds) :: result.createdEntities }
      | .patch key _ => { result with patchedEntities := key :: result.patchedEntities }
      | .delete key => { result with deletedEntities := key :: result.deletedEntities }
      | .extend key seconds =>
          { result with
            extendedEntities := (key, block + blocksOf seconds) :: result.extendedEntities }

/-! ## Queries -/

/-- The conditions of a query. -/
structure Query where
  kind : Kind
  creator : Option Address := none
  key : Option EntityKey := none
  stateOpen : Bool := false
  lbListing : Option EntityKey := none
  expiresAfter : Option Nat := none
  expiresBy : Option Nat := none
  deriving DecidableEq, Repr

namespace Query

/-- A row meets every condition. -/
def admits (query : Query) (row : Stored Record) : Bool :=
  row.record.kind = query.kind &&
  query.creator.all (row.creator = ·) &&
  query.key.all (row.key = ·) &&
  (!query.stateOpen || row.record.isOpen) &&
  query.lbListing.all (fun listing => row.record.asOffer.any (·.lbListing = listing)) &&
  query.expiresAfter.all (· < row.expiresAt) &&
  query.expiresBy.all (row.expiresAt ≤ ·)

end Query

namespace Chain

/-- The rows a query matches. -/
def matching (chain : Chain) (query : Query) : Keyed (Stored.key (α := Record)) :=
  chain.entities.filter fun row => chain.alive row && query.admits row

/-- The rows a query counts. -/
def count (chain : Chain) (query : Query) : Nat :=
  (chain.matching query).values.length

/-- One page of a query: every matching row in some order, or as many of them as a page holds. -/
def page (chain : Chain) (query : Query) (shown : List EntityKey) : Option (List (Stored Record)) :=
  let rows := chain.matching query
  if shown.Nodup ∧ shown.all (fun key => (rows.get? key).isSome) ∧
      shown.length = min PAGE_LIMIT rows.values.length then
    some (shown.filterMap rows.get?)
  else none

end Chain

/-- Rows oldest first. -/
def oldestFirst {α : Type} (rows : List (Stored α)) : List (Stored α) :=
  rows.insertionSort Stored.Older

section Oldest

variable {α : Type}

instance : Std.Total (Stored.Older (α := α)) where
  total first second := by
    rcases Nat.lt_trichotomy first.createdAt second.createdAt with earlier | same | later
    · exact .inl (.inl earlier)
    · rcases BitVec.le_total first.key second.key with le | ge
      · exact .inl (.inr ⟨same, le⟩)
      · exact .inr (.inr ⟨same.symm, ge⟩)
    · exact .inr (.inl later)

instance : IsTrans (Stored α) Stored.Older where
  trans first second third := by
    rintro (earlier | ⟨same, le⟩) (earlier' | ⟨same', le'⟩)
    · exact .inl (earlier.trans earlier')
    · exact .inl (same' ▸ earlier)
    · exact .inl (same ▸ earlier')
    · exact .inr ⟨same.trans same', BitVec.le_trans le le'⟩

@[simp]
theorem mem_oldestFirst {rows : List (Stored α)} {row : Stored α} :
    row ∈ oldestFirst rows ↔ row ∈ rows :=
  List.mem_insertionSort _

theorem oldestFirst_sorted (rows : List (Stored α)) : (oldestFirst rows).Pairwise Stored.Older :=
  List.pairwise_insertionSort _ rows

theorem oldestFirst_perm (rows : List (Stored α)) : (oldestFirst rows).Perm rows :=
  List.perm_insertionSort _ rows

end Oldest

end CommunityLb
