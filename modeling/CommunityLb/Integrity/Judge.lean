import CommunityLb.Health.Entry

/-!
# What one look says about a provider

A provider's answers to a check, at the reference's finalized height, against the reference's own.
-/

namespace CommunityLb

/-- The compared fields of a block. -/
structure BlockFields where
  number : Nat
  hash : BitVec 256
  parentHash : BitVec 256
  stateRoot : BitVec 256
  transactionsRoot : BitVec 256
  receiptsRoot : BitVec 256
  transactions : List (BitVec 256)
  deriving DecidableEq, Repr

/-- An attribute of an entity as a node renders it. -/
structure ArkivAttribute (ν : Type) where
  name : String
  typeTag : String
  value : ν
  deriving DecidableEq, Repr

/-- An entity as a node renders it. -/
structure ArkivEntity (ν : Type) where
  key : EntityKey
  creator : Address
  createdAt : Nat
  updatedAt : Nat
  expiresAt : Nat
  attributes : List (ArkivAttribute ν)
  deriving DecidableEq, Repr

/-- Why a provider's read gave nothing to compare. -/
inductive ReadFailure where
  | error
  | tooLarge
  deriving DecidableEq, Repr

/-- The sampled entity as the reference has it; no rows when its own read failed. -/
structure ExpectedEntity (ν : Type) where
  key : EntityKey
  rows : Option (List (ArkivEntity ν))
  deriving DecidableEq, Repr

/-- What the reference answered: its finalized block, and the sampled entity with the entity check
on. -/
structure Expected (ν : Type) where
  finalized : BlockFields
  entity : Option (ExpectedEntity ν)
  deriving DecidableEq, Repr

/-- What a provider answered: the block, or none at the height, and the rows when they were read. -/
structure Answers (ν : Type) where
  block : Except ReadFailure (Option BlockFields)
  rows : Option (Except ReadFailure (List (ArkivEntity ν)))
  deriving DecidableEq, Repr

/-- What the reference and the provider answered where they differed. -/
inductive Evidence (ν : Type) where
  | block (reference : BlockFields) (provider : Option BlockFields)
  | entity (key : EntityKey) (reference provider : List (ArkivEntity ν))
  | tooLarge (read : String)
  deriving DecidableEq, Repr

section Judge

variable {ν : Type} [DecidableEq ν]

/-- The rows with their attributes by name. -/
def sortedRows (rows : List (ArkivEntity ν)) : List (ArkivEntity ν) :=
  rows.map fun row =>
    { row with
      attributes := row.attributes.mergeSort fun first second => first.name ≤ second.name }

/-- Two answers carry the same entities, whatever order their attributes are in. -/
def sameEntities (rows reference : List (ArkivEntity ν)) : Bool :=
  sortedRows rows = sortedRows reference

/-- One look's verdict, given the head the provider's probes last reported. -/
def judge (lastHeight : Option Nat) (answer : Answers ν) (expected : Expected ν) :
    Verdict × Option (Evidence ν) :=
  match answer.block with
  | .error .error => (.unknown, none)
  | .error .tooLarge => (.divergence, some (.tooLarge "block"))
  | .ok none =>
      match lastHeight with
      | some probed =>
          if probed ≥ expected.finalized.number then
            (.divergence, some (.block expected.finalized none))
          else (.stale, none)
      | none => (.stale, none)
  | .ok (some block) =>
      if block ≠ expected.finalized then
        (.divergence, some (.block expected.finalized (some block)))
      else
        match expected.entity, answer.rows with
        | some entity, some rows =>
            match rows with
            | .error .error => (.unknown, none)
            | .error .tooLarge => (.divergence, some (.tooLarge "entity"))
            | .ok rows =>
                match entity.rows with
                | none => (.unknown, none)
                | some reference =>
                    if sameEntities rows reference then (.match_, none)
                    else (.divergence, some (.entity entity.key reference rows))
        | _, _ => (.match_, none)

omit [DecidableEq ν] in
/-- What a provider that serves the chain's data answers, from a head it has: the reference's block
from the height on, none before, and the reference's rows, unless the read fails. -/
def HonestAnswer (head : Nat) (answer : Answers ν) (expected : Expected ν) : Prop :=
  (answer.block = .error .error ∨
    answer.block = .ok (if expected.finalized.number ≤ head then some expected.finalized
      else none)) ∧
  ∀ rows ∈ answer.rows, rows = .error .error ∨
    ∃ served, rows = .ok served ∧
      ∀ entity ∈ expected.entity, ∀ reference ∈ entity.rows,
        expected.finalized.number ≤ head → served = reference

/-- Serving the chain's data, a provider looks like a liar only when it had not reached the height
as it answered and its probes report that it has. -/
theorem judge_honest {lastHeight : Option Nat} {head : Nat} {answer : Answers ν}
    {expected : Expected ν} (honest : HonestAnswer head answer expected)
    (liar : (judge lastHeight answer expected).1 = .divergence) :
    head < expected.finalized.number ∧ ∃ probed ∈ lastHeight, expected.finalized.number ≤ probed := by
  obtain ⟨block, rows⟩ := honest
  rcases block with failed | served
  · simp [judge, failed] at liar
  · by_cases reached : expected.finalized.number ≤ head
    · rw [if_pos reached] at served
      simp only [judge, served, ne_eq, not_true_eq_false, if_false] at liar
      split at liar
      · next entity answered isEntity isRows =>
          rcases rows answered isRows with failed | ⟨served, rfl, same⟩
          · simp [failed] at liar
          · simp only at liar
            split at liar
            · cases liar
            · next reference isReference =>
                rw [same entity isEntity reference isReference reached] at liar
                simp [sameEntities] at liar
      · cases liar
    · rw [if_neg reached] at served
      refine ⟨Nat.lt_of_not_le reached, ?_⟩
      simp only [judge, served] at liar
      split at liar
      · next probed =>
          split at liar
          · next past => exact ⟨probed, rfl, past⟩
          · cases liar
      · cases liar

/-- A match does not depend on what the probes report. -/
theorem judge_match {lastHeight other : Option Nat} {answer : Answers ν} {expected : Expected ν}
    (matches_ : (judge lastHeight answer expected).1 = .match_) :
    (judge other answer expected).1 = .match_ := by
  cases block : answer.block with
  | error failure =>
      cases failure <;> simp [judge, block] at matches_
  | ok served =>
      cases served with
      | none =>
          simp only [judge, block] at matches_
          split at matches_
          · split at matches_ <;> cases matches_
          · cases matches_
      | some served =>
          simp only [judge, block] at matches_ ⊢
          exact matches_

end Judge

end CommunityLb
