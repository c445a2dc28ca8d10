import CommunityLb.Chain.Json
import CommunityLb.Chain.Records

/-!
# The records as they are encoded

Every record is attributes, what a query filters by, and a payload, a JSON document with the rest.
What is written as one shape is read back as another, and both are here.  How a payload is written
as bytes and read from them is given.
-/

namespace CommunityLb
namespace Codec

/-- Payloads as bytes. -/
structure Serde where
  toVec : JsonValue → List (BitVec 8)
  fromSlice : List (BitVec 8) → Option JsonValue

/-- Schema version carried by every record as the `v` attribute. -/
def SCHEMA_VERSION : BitVec 32 :=
  1

def KIND_LB_LISTING : String :=
  "rpc.lb_listing"

def KIND_OFFER : String :=
  "rpc.offer"

def KIND_AGREEMENT : String :=
  "rpc.agreement"

def KIND_COUNTER : String :=
  "rpc.counter"

def KIND_RECEIPT : String :=
  "rpc.receipt"

/-- The attribute that carries a record's payload. -/
def PAYLOAD_ATTRIBUTE : String :=
  "payload"

/-- Why an entity is not a record. -/
inductive RecordError where
  | missingAttribute (name : String)
  | attributeType (name found expected : String)
  /-- The payload's own reason, none where the JSON reader gives it. -/
  | payload (reason : Option String)
  | notThisRecord (kind : String)
  | version (found : BitVec 32)
  deriving DecidableEq, Repr

/-! ## Attributes -/

/-- A typed attribute value. -/
inductive AttributeValue where
  | str (value : String)
  | i32 (value : BitVec 32)
  | u64 (value : BitVec 64)
  | addr (value : Address)
  | key (value : EntityKey)
  | bytes (value : List (BitVec 8))
  deriving DecidableEq, Repr

/-- One attribute as a query returns it. -/
structure ArkivAttribute where
  name : String
  typeTag : String
  value : JsonValue

namespace AttributeValue

/-- The SDK's name of its type. -/
def typeTag : AttributeValue → String
  | str _ => "str"
  | i32 _ => "i32"
  | u64 _ => "u64"
  | addr _ => "addr"
  | key _ => "key"
  | bytes _ => "bytes"

def mismatch (value : AttributeValue) (name expected : String) : RecordError :=
  .attributeType name value.typeTag expected

/-- The value on the wire. -/
def wireValue : AttributeValue → JsonValue
  | str value => .string value
  | i32 value => .integer value.toInt
  | u64 value => .string (Nat.repr value.toNat)
  | addr value => .string (hexText 40 value.toNat)
  | key value => .string (hexText 64 value.toNat)
  | bytes value => .string ("0x" ++ String.ofList (hexOfBytes value))

/-- The write-side shape. -/
def toWire (value : AttributeValue) : JsonValue :=
  match value with
  | bytes _ =>
      .object [("type", .string "bytes"), ("value", value.wireValue), ("indexed", .bool false)]
  | _ => .object [("type", .string value.typeTag), ("value", value.wireValue)]

/-- A 64-bit number as a JSON number, a decimal string, or a hex quantity. -/
def parseU64 : JsonValue → Option (BitVec 64)
  | .integer value =>
      if 0 ≤ value ∧ value < 2 ^ 64 then some (BitVec.ofNat 64 value.toNat) else none
  | .string text =>
      match text.toList with
      | '0' :: 'x' :: hex => parseDigits spelledHex hex
      | decimal => parseDigits ofDigits? decimal
  | _ => none

/-- The read-side shape: a key under the node's own name for it, or under the SDK's. -/
def fromRead (read : ArkivAttribute) : Option AttributeValue :=
  match read.typeTag with
  | "str" => read.value.string?.map str
  | "i32" =>
      match read.value with
      | .integer value =>
          if -2 ^ 31 ≤ value ∧ value < 2 ^ 31 then some (i32 (BitVec.ofInt 32 value)) else none
      | _ => none
  | "u64" => (parseU64 read.value).map u64
  | "addr" =>
      (read.value.string?.bind (parseFixed 40)).map fun number => addr (BitVec.ofNat 160 number)
  | "key" | "bytes32" =>
      (read.value.string?.bind (parseFixed 64)).map fun number => key (BitVec.ofNat 256 number)
  | "bytes" => (read.value.string?.bind fun text => bytesOfHex? (withoutMark text)).map bytes
  | _ => none

/-- The entry a query would return for this value. -/
def toRead (value : AttributeValue) (name : String) : ArkivAttribute where
  name := name
  typeTag :=
    match value with
    | key _ => "bytes32"
    | other => other.typeTag
  value := value.wireValue

/-- A value reads back as it was written. -/
@[simp]
theorem fromRead_toRead (value : AttributeValue) (name : String) :
    fromRead (value.toRead name) = some value := by
  cases value with
  | str value => rfl
  | i32 value =>
      have low := BitVec.le_toInt value
      have high := BitVec.toInt_lt (x := value)
      have range : -2 ^ 31 ≤ value.toInt ∧ value.toInt < 2 ^ 31 := ⟨low, high⟩
      simp only [fromRead, toRead, typeTag, wireValue]
      rw [if_pos range, BitVec.ofInt_toInt]
  | u64 value =>
      have unmarked : ∀ hex, (Nat.repr value.toNat).toList ≠ '0' :: 'x' :: hex := by
        intro hex same
        have isDigit := Nat.isDigit_of_mem_toDigits (b := 10) (n := value.toNat) (c := 'x')
          (by decide) (by decide) (by rw [← Nat.toList_repr, same]; simp)
        exact absurd isDigit (by decide)
      simp only [fromRead, toRead, typeTag, wireValue, parseU64]
      rw [parseDigits_repr]
      rfl
  | addr value =>
      have less : value.toNat < 16 ^ 40 := value.isLt
      have spelled := parseFixed_hexText less
      simp [fromRead, toRead, typeTag, wireValue, JsonValue.string?, spelled]
  | key value =>
      have less : value.toNat < 16 ^ 64 := value.isLt
      have spelled := parseFixed_hexText less
      simp [fromRead, toRead, wireValue, JsonValue.string?, spelled]
  | bytes value =>
      have unmarked : withoutMark ("0x" ++ String.ofList (hexOfBytes value)) = hexOfBytes value := by
        simp [withoutMark]
      simp [fromRead, toRead, typeTag, wireValue, JsonValue.string?, unmarked,
        bytesOfHex?_hexOfBytes]

end AttributeValue

/-- The attributes of one record, by name. -/
structure Attributes where
  map : Std.TreeMap String AttributeValue

/-- The same attributes with one set. -/
def Attributes.with (attributes : Attributes) (name : String) (value : AttributeValue) :
    Attributes where
  map := attributes.map.insert name value

namespace Attributes

/-- The attributes of a kind at this schema version. -/
def new (kind : String) : Attributes where
  map := (Std.TreeMap.empty.insert "kind" (.str kind)).insert "v" (.i32 SCHEMA_VERSION)

def get (attributes : Attributes) (name : String) : Option AttributeValue :=
  attributes.map[name]?

/-- The attribute list a query returns for these. -/
def toRead (attributes : Attributes) : List ArkivAttribute :=
  attributes.map.toList.map fun named => named.2.toRead named.1

/-- The map of names to values a write sends. -/
def toWire (attributes : Attributes) : JsonValue :=
  .object (attributes.map.toList.map fun named => (named.1, named.2.toWire))

/-- The named ones of these, for a patch that sets some. -/
def keep (attributes : Attributes) (names : List String) : Attributes where
  map := attributes.map.filter fun name _ => names.contains name

/-- The record's payload. -/
def payload (attributes : Attributes) : Option (List (BitVec 8)) :=
  match attributes.get PAYLOAD_ATTRIBUTE with
  | some (.bytes bytes) => some bytes
  | _ => none

def present (attributes : Attributes) (name : String) : Except RecordError AttributeValue :=
  match attributes.get name with
  | some value => .ok value
  | none => .error (.missingAttribute name)

def str (attributes : Attributes) (name : String) : Except RecordError String := do
  match ← attributes.present name with
  | .str value => return value
  | other => throw (other.mismatch name "str")

def i32 (attributes : Attributes) (name : String) : Except RecordError (BitVec 32) := do
  match ← attributes.present name with
  | .i32 value => return value
  | other => throw (other.mismatch name "i32")

def addr (attributes : Attributes) (name : String) : Except RecordError Address := do
  match ← attributes.present name with
  | .addr value => return value
  | other => throw (other.mismatch name "addr")

def key (attributes : Attributes) (name : String) : Except RecordError EntityKey := do
  match ← attributes.present name with
  | .key value => return value
  | other => throw (other.mismatch name "key")

variable {attributes : Attributes} {name : String}

@[simp]
theorem get_with (other : String) (value : AttributeValue) :
    (attributes.with other value).get name =
      if other = name then some value else attributes.get name := by
  simp [Attributes.with, get, Std.TreeMap.getElem?_insert]

@[simp]
theorem get_new (kind : String) : (new kind).get name =
    if "v" = name then some (.i32 SCHEMA_VERSION)
    else if "kind" = name then some (.str kind) else none := by
  simp [new, get, Std.TreeMap.getElem?_insert, Std.TreeMap.empty_eq_emptyc]

theorem str_of_get {value : String} (has : attributes.get name = some (.str value)) :
    attributes.str name = .ok value := by
  simp [str, present, has, bind, Except.bind, pure, Except.pure]

theorem i32_of_get {value : BitVec 32} (has : attributes.get name = some (.i32 value)) :
    attributes.i32 name = .ok value := by
  simp [i32, present, has, bind, Except.bind, pure, Except.pure]

theorem addr_of_get {value : Address} (has : attributes.get name = some (.addr value)) :
    attributes.addr name = .ok value := by
  simp [addr, present, has, bind, Except.bind, pure, Except.pure]

theorem key_of_get {value : EntityKey} (has : attributes.get name = some (.key value)) :
    attributes.key name = .ok value := by
  simp [key, present, has, bind, Except.bind, pure, Except.pure]

end Attributes

/-! ## Entities -/

/-- An entity as a query returns it. -/
structure ArkivEntity where
  key : EntityKey
  creator : Address
  createdAt : BitVec 64
  updatedAt : BitVec 64
  expiresAt : BitVec 64
  attributes : List ArkivAttribute

/-- One more read attribute; one of an unknown type is left out. -/
def addRead (attributes : Attributes) (read : ArkivAttribute) : Attributes :=
  match AttributeValue.fromRead read with
  | some value => attributes.with read.name value
  | none => attributes

namespace ArkivEntity

/-- The attribute list as a typed map. -/
def typedAttributes (entity : ArkivEntity) : Attributes :=
  entity.attributes.foldl addRead ⟨∅⟩

/-- Whether this entity is a record of the given kind, at any schema version. -/
def is (entity : ArkivEntity) (kind : String) : Bool :=
  match entity.typedAttributes.get "kind" with
  | some (.str found) => found = kind
  | _ => false

/-- The payload read as a struct. -/
def payloadJson {α : Type} (serde : Serde) (entity : ArkivEntity)
    (read : JsonValue → Option α) : Except RecordError α :=
  match entity.typedAttributes.payload with
  | none => .error (.payload (some "no payload attribute"))
  | some bytes =>
      match (serde.fromSlice bytes).bind read with
      | some value => .ok value
      | none => .error (.payload none)

end ArkivEntity

/-- One of the five records: what it is called on chain, and how it turns into a write and back out
of a read. -/
class Record (α : Type) where
  KIND : String
  encode : Serde → α → Attributes
  decodeFields : Serde → ArkivEntity → Except RecordError α

/-- Decodes an entity of this kind at the schema version this code reads, and refuses any other. -/
def Record.decode (α : Type) [Record α] (serde : Serde) (entity : ArkivEntity) :
    Except RecordError α := do
  if !entity.is (Record.KIND α) then throw (.notThisRecord (Record.KIND α))
  let version ← entity.typedAttributes.i32 "v"
  if version ≠ SCHEMA_VERSION then throw (.version version)
  Record.decodeFields serde entity

/-- A record's attributes with its payload among them. -/
def encode (serde : Serde) (attributes : Attributes) (payload : JsonValue) : Attributes :=
  attributes.with PAYLOAD_ATTRIBUTE (.bytes (serde.toVec payload))

end Codec
end CommunityLb
