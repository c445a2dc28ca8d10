import CommunityLb.Chain.Encoded
import CommunityLb.Config

/-!
# What is sent to the sidecar

The operations with the attributes they carry, and the JSON of a batch of them.
-/

namespace CommunityLb
namespace Codec

/-- A record's remaining life, in seconds from the block it lands in. -/
inductive Expiry where
  | seconds (count : Nat)
  deriving DecidableEq, Repr

/-- A new entity. -/
structure Create where
  attributes : Attributes
  expiration : Expiry

/-- An entity with attributes to set, the payload one among them. -/
structure Patch where
  entityKey : EntityKey
  set : Attributes

/-- An entity to live longer. -/
structure Extend where
  entityKey : EntityKey
  expiration : Expiry

/-- An entity to remove. -/
structure Delete where
  entityKey : EntityKey

/-- One operation of a batch. -/
inductive Operation where
  | create (sent : Create)
  | patch (sent : Patch)
  | delete (sent : Delete)
  | extend (sent : Extend)

/-- The operations of a batch. -/
structure Batch where
  operations : List Operation

/-- An entity key on the wire. -/
def keyJson (key : EntityKey) : JsonValue :=
  .string (hexText 64 key.toNat)

def Expiry.toJson : Expiry → JsonValue
  | seconds count => .object [("seconds", .integer count)]

def Create.toJson (create : Create) : JsonValue :=
  .object [("attributes", create.attributes.toWire), ("expiration", create.expiration.toJson)]

def Patch.toJson (patch : Patch) : JsonValue :=
  .object [("entityKey", keyJson patch.entityKey), ("set", patch.set.toWire)]

def Extend.toJson (extend : Extend) : JsonValue :=
  .object [("entityKey", keyJson extend.entityKey), ("expiration", extend.expiration.toJson)]

def Delete.toJson (delete : Delete) : JsonValue :=
  .object [("entityKey", keyJson delete.entityKey)]

namespace Operation

def create? : Operation → Option Create
  | create sent => some sent
  | _ => none

def patch? : Operation → Option Patch
  | patch sent => some sent
  | _ => none

def delete? : Operation → Option Delete
  | delete sent => some sent
  | _ => none

def extend? : Operation → Option Extend
  | extend sent => some sent
  | _ => none

end Operation

namespace Batch

def creates (batch : Batch) : List Create :=
  batch.operations.filterMap Operation.create?

def patches (batch : Batch) : List Patch :=
  batch.operations.filterMap Operation.patch?

def deletes (batch : Batch) : List Delete :=
  batch.operations.filterMap Operation.delete?

def extensions (batch : Batch) : List Extend :=
  batch.operations.filterMap Operation.extend?

/-- The field of one kind, left out when there is none of it. -/
def listed {α : Type} (name : String) (toJson : α → JsonValue) (operations : List α) :
    List (String × JsonValue) :=
  if operations.isEmpty then [] else [(name, .array (operations.map toJson))]

/-- The sidecar's batch body: the operations by kind. -/
def toJson (batch : Batch) : JsonValue :=
  .object (listed "creates" Create.toJson batch.creates ++
    listed "patches" Patch.toJson batch.patches ++
    listed "deletes" Delete.toJson batch.deletes ++
    listed "extensions" Extend.toJson batch.extensions)

end Batch

/-! ## What is built from records -/

/-- The attributes a record of one of the five kinds is written as. -/
inductive Encodes (serde : Serde) : Attributes → Prop where
  | listing (record : LbListing) : Encodes serde (Record.encode serde record)
  | offer (record : Offer) : Encodes serde (Record.encode serde record)
  | agreement (record : Agreement) : Encodes serde (Record.encode serde record)
  | counter (record : CounterRecord) : Encodes serde (Record.encode serde record)
  | receipt (record : Receipt) : Encodes serde (Record.encode serde record)

/-- An operation built from records: a create carries one, a patch sets the named ones of its
attributes, and a life is one of these. -/
inductive Built (serde : Serde) (lifetimes : List Nat) : Operation → Prop where
  | create {attributes : Attributes} {count : Nat} (encodes : Encodes serde attributes)
      (lives : count ∈ lifetimes) :
      Built serde lifetimes (.create { attributes, expiration := .seconds count })
  | patch (entityKey : EntityKey) {attributes : Attributes} (encodes : Encodes serde attributes)
      (names : List String) :
      Built serde lifetimes (.patch { entityKey, set := attributes.keep names })
  | delete (entityKey : EntityKey) : Built serde lifetimes (.delete { entityKey })
  | extend (entityKey : EntityKey) {count : Nat} (lives : count ∈ lifetimes) :
      Built serde lifetimes (.extend { entityKey, expiration := .seconds count })

end Codec
end CommunityLb
