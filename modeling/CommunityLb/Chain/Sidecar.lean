import CommunityLb.Chain.Encoded
import CommunityLb.Lib.JsNumber

/-!
# The sidecar's decoder

How a request body becomes the operations that the SDK takes.  The SDK is a library's: it stands
here as the parameter `Sdk`.
-/

namespace CommunityLb
namespace Sidecar

open Codec (JsonValue)

/-! ## JavaScript values -/

/-- A number: a whole one that is shown with all its digits, or another by its text. -/
inductive Number where
  | whole (value : Int)
  | other (text : String)
  deriving DecidableEq, Repr

/-- What `JSON.parse` gives.  A property that is not there is an absent value. -/
inductive JsValue where
  | null
  | boolean (value : Bool)
  | number (value : Number)
  | string (value : String)
  | array (values : List JsValue)
  | object (fields : List (String × JsValue))

/-- The number of a whole number in a document. -/
def numberOf (value : Int) : Number :=
  if (doubleOf value).natAbs < 10 ^ 21 then .whole (doubleOf value) else .other (toString value)

/-- An object's properties with one set: a name keeps its place. -/
def assign {α : Type} (fields : List (String × α)) (name : String) (value : α) :
    List (String × α) :=
  if fields.any fun field => field.1 = name then
    fields.map fun field => if field.1 = name then (name, value) else field
  else fields ++ [(name, value)]

/-- An object of these properties, the later of two of one name. -/
def properties {α : Type} (fields : List (String × α)) : List (String × α) :=
  fields.foldl (fun own field => assign own field.1 field.2) []

mutual

/-- `JSON.parse`. -/
def parse : JsonValue → JsValue
  | .null => .null
  | .bool value => .boolean value
  | .integer value => .number (numberOf value)
  | .real text => .number (.other text)
  | .string value => .string value
  | .array values => .array (parseAll values)
  | .object fields => .object (properties (parseFields fields))

def parseAll : List JsonValue → List JsValue
  | [] => []
  | value :: values => parse value :: parseAll values

def parseFields : List (String × JsonValue) → List (String × JsValue)
  | [] => []
  | (name, value) :: fields => (name, parse value) :: parseFields fields

end

/-- A text in quotes, as `JSON.stringify` writes it. -/
def quote (text : String) : String :=
  let escape (c : Char) : List Char :=
    if c = '"' then ['\\', '"']
    else if c = '\\' then ['\\', '\\']
    else if c = '\x08' then ['\\', 'b']
    else if c = '\x0c' then ['\\', 'f']
    else if c = '\n' then ['\\', 'n']
    else if c = '\r' then ['\\', 'r']
    else if c = '\t' then ['\\', 't']
    else if c.toNat < 32 then ['\\', 'u'] ++ hexDigits 4 c.toNat
    else [c]
  "\"" ++ String.ofList (text.toList.flatMap escape) ++ "\""

mutual

/-- `JSON.stringify`. -/
def stringify : JsValue → String
  | .null => "null"
  | .boolean value => toString value
  | .number (.whole value) => toString value
  | .number (.other text) => text
  | .string value => quote value
  | .array values => "[" ++ String.intercalate "," (stringifyAll values) ++ "]"
  | .object fields => "\x7b" ++ String.intercalate "," (stringifyFields fields) ++ "\x7d"

def stringifyAll : List JsValue → List String
  | [] => []
  | value :: values => stringify value :: stringifyAll values

def stringifyFields : List (String × JsValue) → List String
  | [] => []
  | (name, value) :: fields =>
      (quote name ++ ":" ++ stringify value) :: stringifyFields fields

end

/-- Whether a name is an array index, which an object lists before its other names. -/
def index? (name : String) : Option Nat :=
  (ofDigits? name.toList).filter fun number => number < 2 ^ 32 - 1 ∧ Nat.repr number = name

/-- `Object.entries`. -/
def entries {α : Type} (fields : List (String × α)) : List (String × α) :=
  (fields.filter fun field => (index? field.1).isSome).mergeSort
      (fun first second => (index? first.1).getD 0 ≤ (index? second.1).getD 0) ++
    fields.filter fun field => (index? field.1).isNone

/-- A property of an object, if it has it. -/
def property (fields : List (String × JsValue)) (name : String) : Option JsValue :=
  (fields.find? fun field => field.1 = name).map Prod.snd

/-- `BigInt` of a text. -/
def bigInt (text : String) : Except String Int :=
  match bigInt? text.toList with
  | some number => .ok number
  | none => .error ("Cannot convert " ++ text ++ " to a BigInt")

/-! ## The SDK -/

/-- The types of an attribute. -/
inductive ArkivType where
  | str
  | bool
  | i32
  | u64
  | u256
  | dec
  | addr
  | key
  | bytes
  deriving DecidableEq, Repr

/-- An attribute's value of one of the types. -/
inductive ArkivValue where
  | str (value : String)
  | bool (value : Bool)
  | i32 (value : Int)
  | u64 (value : Nat)
  | u256 (value : Nat)
  | dec (value : String)
  | addr (value : Address)
  | key (value : EntityKey)
  | bytes (value : List (BitVec 8))
  deriving DecidableEq, Repr

def ArkivValue.type : ArkivValue → ArkivType
  | str _ => .str
  | bool _ => .bool
  | i32 _ => .i32
  | u64 _ => .u64
  | u256 _ => .u256
  | dec _ => .dec
  | addr _ => .addr
  | key _ => .key
  | bytes _ => .bytes

/-- An attribute as a schema declares it. -/
structure Column where
  type : ArkivType
  isIndexed : Bool := false
  isOptional : Bool := false
  deriving DecidableEq, Repr

def Column.indexed (column : Column) : Column :=
  { column with isIndexed := true }

def Column.optional (column : Column) : Column :=
  { column with isOptional := true }

/-- What the SDK makes of values, columns and lifetimes, or why it refuses them. -/
structure Sdk where
  Schema : Type
  /-- The columns that a schema declares. -/
  columns : Schema → List (String × Column)
  Expiry : Type
  /-- The seconds that an expiry gives, none when it is a block. -/
  lasting : Expiry → Option Nat
  str : String → Except String ArkivValue
  bool : Bool → Except String ArkivValue
  i32 : Number → Except String ArkivValue
  u64 : String → Except String ArkivValue
  u256 : String → Except String ArkivValue
  dec : String → Except String ArkivValue
  addr : String → Except String ArkivValue
  key : String → Except String ArkivValue
  bytes : String → Except String ArkivValue
  defineSchema : List (String × Column) → Except String Schema
  fromSeconds : Number → Except String Expiry
  fromBlocks : Number → Except String Expiry
  atBlock : Int → Except String Expiry

/-! ## Decoding -/

section Decoding

variable (sdk : Sdk)

def asRecord (wire : Option JsValue) (what : String) : Except String (List (String × JsValue)) :=
  match wire with
  | some (.object fields) => .ok fields
  | _ => .error (what ++ " must be a JSON object")

def asString (value : Option JsValue) (what : String) : Except String String :=
  match value with
  | some (.string text) => .ok text
  | _ => .error (what ++ " must be a string")

def asHex (value : Option JsValue) (what : String) : Except String String := do
  let text ← asString value what
  if ['0', 'x'].isPrefixOf text.toList then return text
  else throw (what ++ " must be 0x-prefixed hex")

def decodeValue (wire : Option JsValue) (name : String) : Except String ArkivValue := do
  let record ← asRecord wire ("attribute " ++ name)
  let value := property record "value"
  match property record "type" with
  | some (.string "str") => sdk.str (← asString value ("attribute " ++ name))
  | some (.string "bool") =>
      match value with
      | some (.boolean value) => sdk.bool value
      | _ => throw ("attribute " ++ name ++ " must be a boolean")
  | some (.string "i32") =>
      match value with
      | some (.number value) => sdk.i32 value
      | _ => throw ("attribute " ++ name ++ " must be a number")
  | some (.string "u64") => sdk.u64 (← asString value ("attribute " ++ name))
  | some (.string "u256") => sdk.u256 (← asString value ("attribute " ++ name))
  | some (.string "dec") => sdk.dec (← asString value ("attribute " ++ name))
  | some (.string "addr") => sdk.addr (← asString value ("attribute " ++ name))
  | some (.string "key") => sdk.key (← asHex value ("attribute " ++ name))
  | some (.string "bytes") => sdk.bytes (← asHex value ("attribute " ++ name))
  | some other => throw ("attribute " ++ name ++ " has unknown type " ++ stringify other)
  | none => throw ("attribute " ++ name ++ " has unknown type undefined")

/-- The column that declares a value. -/
def columnOf (value : ArkivValue) (indexed : Option JsValue) (name : String) :
    Except String Column := do
  let indexed ← match indexed with
    | none => pure none
    | some (.boolean indexed) => pure (some indexed)
    | some _ => throw ("attribute " ++ name ++ ": indexed must be a boolean")
  if value.type = .bytes then
    if indexed = some true then throw ("attribute " ++ name ++ ": bytes is never indexed")
    return { type := .bytes }
  let column : Column := { type := value.type }
  return if indexed = some false then column else column.indexed

/-- Attributes and the columns that declare them. -/
structure Declared where
  columns : List (String × Column) := []
  values : List (String × ArkivValue) := []

/-- One more attribute. -/
def declare (declared : Declared) (entry : String × JsValue) : Except String Declared := do
  let value ← decodeValue sdk (some entry.2) entry.1
  let record ← asRecord (some entry.2) ("attribute " ++ entry.1)
  let column ← columnOf value (property record "indexed") entry.1
  return {
    columns := assign declared.columns entry.1 column
    values := assign declared.values entry.1 value }

def decodeAttributes (wire : Option JsValue) (what : String) : Except String Declared := do
  (entries (← asRecord wire what)).foldlM (declare sdk) {}

def decodeExpiry (wire : Option JsValue) : Except String sdk.Expiry := do
  let record ← asRecord wire "expiration"
  match property record "seconds", property record "blocks", property record "atBlock" with
  | some (.number seconds), _, _ => sdk.fromSeconds seconds
  | _, some (.number blocks), _ => sdk.fromBlocks blocks
  | _, _, some (.string block) => sdk.atBlock (← bigInt block)
  | _, _, _ => throw "expiration must be { seconds }, { blocks } or { atBlock }"

structure Flags where
  readonly : Bool
  permissionlessExtension : Bool

structure CreateOp where
  schema : sdk.Schema
  values : List (String × ArkivValue)
  expiration : sdk.Expiry
  flags : Option Flags := none
  salt : Option Int := none

structure PatchOp where
  schema : sdk.Schema
  entityKey : String
  set : Option (List (String × ArkivValue)) := none
  unset : Option (List String) := none

structure DeleteOp where
  entityKey : String

structure ExtendOp where
  entityKey : String
  expiration : sdk.Expiry

structure BatchOps where
  creates : Option (List (CreateOp sdk)) := none
  patches : Option (List (PatchOp sdk)) := none
  deletes : Option (List DeleteOp) := none
  extensions : Option (List (ExtendOp sdk)) := none

/-- Whether a flag is set. -/
def isTrue : Option JsValue → Bool
  | some (.boolean value) => value
  | _ => false

def decodeFlags (wire : JsValue) : Except String Flags := do
  let flags ← asRecord (some wire) "create.flags"
  return {
    readonly := isTrue (property flags "readonly")
    permissionlessExtension := isTrue (property flags "permissionlessExtension") }

def decodeSalt (wire : JsValue) : Except String Int := do
  bigInt (← asString (some wire) "create.salt")

def decodeCreate (wire : JsValue) : Except String (CreateOp sdk) := do
  let record ← asRecord (some wire) "create"
  let declared ← decodeAttributes sdk (property record "attributes") "create.attributes"
  let schema ← sdk.defineSchema declared.columns
  let expiration ← decodeExpiry sdk (property record "expiration")
  let flags ← (property record "flags").mapM decodeFlags
  let salt ← (property record "salt").mapM decodeSalt
  return {
    schema := schema
    values := declared.values
    expiration := expiration
    flags := flags
    salt := salt }

/-- The names to unset, each by its place when it is no text. -/
def decodeUnset (place : Nat) : List JsValue → Except String (List String)
  | [] => .ok []
  | name :: names => do
      let text ← asString (some name) ("patch.unset[" ++ toString place ++ "]")
      return text :: (← decodeUnset (place + 1) names)

/-- The columns with one for a name to unset, if it has none yet. -/
def tombstone (columns : List (String × Column)) (name : String) : List (String × Column) :=
  if columns.any fun column => column.1 = name then columns
  else columns ++ [(name, ({ type := .str } : Column).optional)]

def decodePatch (wire : JsValue) : Except String (PatchOp sdk) := do
  let record ← asRecord (some wire) "patch"
  let entityKey ← asHex (property record "entityKey") "patch.entityKey"
  let set ← (property record "set").mapM fun set => decodeAttributes sdk (some set) "patch.set"
  let unset ← (property record "unset").mapM fun
    | .array names => decodeUnset 0 names
    | _ => throw "patch.unset must be an array"
  if set.isNone && unset.isNone then throw "patch needs set or unset"
  let columns := (unset.getD []).foldl tombstone ((set.map Declared.columns).getD [])
  return {
    schema := ← sdk.defineSchema columns
    entityKey := entityKey
    set := set.map Declared.values
    unset := unset }

def decodeDelete (wire : JsValue) : Except String DeleteOp := do
  let record ← asRecord (some wire) "delete"
  return { entityKey := ← asHex (property record "entityKey") "delete.entityKey" }

def decodeExtend (wire : JsValue) : Except String (ExtendOp sdk) := do
  let record ← asRecord (some wire) "extend"
  let entityKey ← asHex (property record "entityKey") "extend.entityKey"
  let expiration ← decodeExpiry sdk (property record "expiration")
  return {
    entityKey := entityKey
    expiration := expiration }

/-- A field of the body, as a list of what it has. -/
def list {α : Type} (what : String) (decode : JsValue → Except String α) :
    JsValue → Except String (List α)
  | .array wires => wires.mapM decode
  | _ => .error (what ++ " must be an array")

def decodeBatch (wire : JsValue) : Except String (BatchOps sdk) := do
  let record ← asRecord (some wire) "mutate"
  let creates ← (property record "creates").mapM (list "creates" (decodeCreate sdk))
  let patches ← (property record "patches").mapM (list "patches" (decodePatch sdk))
  let deletes ← (property record "deletes").mapM (list "deletes" decodeDelete)
  let extensions ← (property record "extensions").mapM (list "extensions" (decodeExtend sdk))
  return {
    creates := creates
    patches := patches
    deletes := deletes
    extensions := extensions }

end Decoding

end Sidecar
end CommunityLb
