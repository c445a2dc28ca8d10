import CommunityLb.Chain.RoundTrip
import CommunityLb.Chain.Sidecar
import CommunityLb.Chain.Wire

/-!
# The sidecar decodes what is sent

Every batch built from records decodes, to the operations it has and nothing else.  What the SDK
does with valid values is assumed.
-/

namespace CommunityLb
namespace Sidecar

open Codec (JsonValue AttributeValue Attributes hexText hexOfBytes keyJson Encodes Built)

/-! ## What the SDK is relied on for -/

/-- The names of the attributes of the five kinds. -/
def names : List String :=
  ["kind", "v", Codec.PAYLOAD_ATTRIBUTE, "lb_listing", "provider", "offer", "agreement", "state",
    "counter"]

/-- The texts that attributes of the five kinds have. -/
def texts : List String :=
  [Codec.KIND_LB_LISTING, Codec.KIND_OFFER, Codec.KIND_AGREEMENT, Codec.KIND_COUNTER,
    Codec.KIND_RECEIPT, Codec.stateText .opened, Codec.stateText .closed]

/-- An SDK that keeps valid values: what its type constructors, its schemas and its lifetimes take
is what they hold. -/
structure Sdk.Keeps (sdk : Sdk) : Prop where
  str : ∀ text ∈ texts, sdk.str text = .ok (.str text)
  i32 : ∀ value : BitVec 32, sdk.i32 (.whole value.toInt) = .ok (.i32 value.toInt)
  u64 : ∀ value : BitVec 64, sdk.u64 (Nat.repr value.toNat) = .ok (.u64 value.toNat)
  addr : ∀ value : Address, sdk.addr (hexText 40 value.toNat) = .ok (.addr value)
  key : ∀ value : EntityKey, sdk.key (hexText 64 value.toNat) = .ok (.key value)
  bytes : ∀ value, sdk.bytes ("0x" ++ String.ofList (hexOfBytes value)) = .ok (.bytes value)
  schema : ∀ columns : List (String × Column), (columns.map Prod.fst).Nodup →
    (∀ column ∈ columns, column.1 ∈ names) →
    ∃ schema, sdk.defineSchema columns = .ok schema ∧ sdk.columns schema = columns
  seconds : ∀ count : Nat, 0 < count → count % 2 = 0 → count ≤ MAX_LIFETIME.asSecs →
    ∃ expiry, sdk.fromSeconds (.whole count) = .ok expiry ∧ sdk.lasting expiry = some count

/-! ## What an operation is to the SDK -/

/-- An attribute's value. -/
def valueOf : AttributeValue → ArkivValue
  | .str value => .str value
  | .i32 value => .i32 value.toInt
  | .u64 value => .u64 value.toNat
  | .addr value => .addr value
  | .key value => .key value
  | .bytes value => .bytes value

/-- The column of its type, indexed unless it is bytes. -/
def columnFor (value : AttributeValue) : Column where
  type := (valueOf value).type
  isIndexed := (valueOf value).type ≠ .bytes

def valuesOf (attributes : Attributes) : List (String × ArkivValue) :=
  attributes.map.toList.map fun named => (named.1, valueOf named.2)

def columnsOf (attributes : Attributes) : List (String × Column) :=
  attributes.map.toList.map fun named => (named.1, columnFor named.2)

/-- The seconds that a lifetime asks for. -/
def secondsOf : Codec.Expiry → Nat
  | .seconds count => count

/-- A create as the SDK is given it. -/
structure CreatedAs (sdk : Sdk) (create : Codec.Create) (op : CreateOp sdk) : Prop where
  columns : sdk.columns op.schema = columnsOf create.attributes
  values : op.values = valuesOf create.attributes
  lasting : sdk.lasting op.expiration = some (secondsOf create.expiration)
  flags : op.flags.isNone = true
  salt : op.salt = none

/-- A patch as the SDK is given it. -/
structure PatchedAs (sdk : Sdk) (patch : Codec.Patch) (op : PatchOp sdk) : Prop where
  entityKey : op.entityKey = hexText 64 patch.entityKey.toNat
  columns : sdk.columns op.schema = columnsOf patch.set
  set : op.set = some (valuesOf patch.set)
  unset : op.unset = none

/-- A delete as the SDK is given it. -/
structure DeletedAs (delete : Codec.Delete) (op : DeleteOp) : Prop where
  entityKey : op.entityKey = hexText 64 delete.entityKey.toNat

/-- An extend as the SDK is given it. -/
structure ExtendedAs (sdk : Sdk) (extend : Codec.Extend) (op : ExtendOp sdk) : Prop where
  entityKey : op.entityKey = hexText 64 extend.entityKey.toNat
  lasting : sdk.lasting op.expiration = some (secondsOf extend.expiration)

/-- A batch as the SDK is given it: of each kind the operations, in order, and no others. -/
structure BatchedAs (sdk : Sdk) (batch : Codec.Batch) (ops : BatchOps sdk) : Prop where
  creates : List.Forall₂ (CreatedAs sdk) batch.creates (ops.creates.getD [])
  patches : List.Forall₂ (PatchedAs sdk) batch.patches (ops.patches.getD [])
  deletes : List.Forall₂ DeletedAs batch.deletes (ops.deletes.getD [])
  extensions : List.Forall₂ (ExtendedAs sdk) batch.extensions (ops.extensions.getD [])

/-! ## Objects -/

/-- A whole number that a double holds is parsed as it is. -/
theorem numberOf_eq {value : Int} (small : value.natAbs < 2 ^ 53) :
    numberOf value = .whole value := by
  have fewDigits : value.natAbs < 10 ^ 21 := by omega
  rw [numberOf, doubleOf_small small, if_pos fewDigits]

theorem assign_fresh {α : Type} {fields : List (String × α)} {name : String} (value : α)
    (fresh : name ∉ fields.map Prod.fst) : assign fields name value = fields ++ [(name, value)] := by
  have none : ¬ (fields.any fun field => field.1 = name) = true := by
    rw [List.any_eq_true]
    rintro ⟨field, member, same⟩
    exact fresh (List.mem_map.mpr ⟨field, member, of_decide_eq_true same⟩)
  rw [assign, if_neg none]

theorem foldl_assign {α : Type} (own : List (String × α)) {fields : List (String × α)}
    (distinct : ((own ++ fields).map Prod.fst).Nodup) :
    fields.foldl (fun own field => assign own field.1 field.2) own = own ++ fields := by
  induction fields generalizing own with
  | nil => simp
  | cons field fields ih =>
      have fresh : field.1 ∉ own.map Prod.fst := by
        intro member
        simp only [List.map_append, List.map_cons] at distinct
        exact (List.nodup_append.mp distinct).2.2 _ member _ List.mem_cons_self rfl
      rw [List.foldl_cons, assign_fresh _ fresh, ih]
      · simp
      · simpa using distinct

/-- Properties of distinct names are as they stand in the document. -/
theorem properties_eq {α : Type} {fields : List (String × α)}
    (distinct : (fields.map Prod.fst).Nodup) : properties fields = fields :=
  foldl_assign [] (by simpa using distinct)

theorem parseFields_eq (fields : List (String × JsonValue)) :
    parseFields fields = fields.map fun field => (field.1, parse field.2) := by
  induction fields with
  | nil => rfl
  | cons field fields ih => rw [parseFields, ih, List.map_cons]

theorem parseAll_eq (values : List JsonValue) : parseAll values = values.map parse := by
  induction values with
  | nil => rfl
  | cons value values ih => rw [parseAll, ih, List.map_cons]

/-- An object of distinct names keeps its properties. -/
theorem parse_object {fields : List (String × JsonValue)} (distinct : (fields.map Prod.fst).Nodup) :
    parse (.object fields) = .object (fields.map fun field => (field.1, parse field.2)) := by
  rw [parse, parseFields_eq, properties_eq]
  simpa [Function.comp_def] using distinct

/-- Names that are no indexes are listed as they stand. -/
theorem entries_eq {α : Type} {fields : List (String × α)}
    (known : ∀ field ∈ fields, field.1 ∈ names) : entries fields = fields := by
  have noIndex : ∀ name ∈ names, index? name = none := by
    simp only [names, Codec.PAYLOAD_ATTRIBUTE, List.forall_mem_cons, index?, ofDigits?]
    simp
  have noneIs : fields.filter (fun field => (index? field.1).isSome) = [] := by
    rw [List.filter_eq_nil_iff]
    intro field member
    simp [noIndex _ (known field member)]
  have allAre : fields.filter (fun field => (index? field.1).isNone) = fields := by
    rw [List.filter_eq_self]
    intro field member
    simp [noIndex _ (known field member)]
  simp [entries, noneIs, allAre]

theorem property_append (fields more : List (String × JsValue)) (name : String) :
    property (fields ++ more) name = (property fields name).or (property more name) := by
  simp only [property, List.find?_append]
  cases fields.find? fun field => decide (field.1 = name) with
  | none => simp
  | some field => simp

theorem asHex_eq {text : String} (isHex : ['0', 'x'].isPrefixOf text.toList = true)
    (what : String) : asHex (some (.string text)) what = .ok text := by
  simp [asHex, asString, isHex, bind, Except.bind, pure, Except.pure]

theorem asHex_hexText (digits number : Nat) (what : String) :
    asHex (some (.string (hexText digits number))) what = .ok (hexText digits number) :=
  asHex_eq (by simp [hexText, List.isPrefixOf]) what

/-! ## Attributes -/

/-- Attributes that records have: of their names, and with their texts. -/
def Known (attributes : Attributes) : Prop :=
  ∀ name value, attributes.get name = some value →
    name ∈ names ∧ ∀ text, value = .str text → text ∈ texts

theorem Known.with {attributes : Attributes} (known : Known attributes) {name : String}
    {value : AttributeValue} (isName : name ∈ names)
    (isText : ∀ text, value = .str text → text ∈ texts) : Known (attributes.with name value) := by
  intro other found has
  rw [Codec.Attributes.get_with] at has
  split at has
  · next same =>
      cases has
      exact ⟨same ▸ isName, isText⟩
  · exact known other found has

theorem Known.new {kind : String} (isText : kind ∈ texts) : Known (.new kind) := by
  intro name value has
  rw [Codec.Attributes.get_new] at has
  split at has
  · next same =>
      cases has
      exact ⟨same ▸ by decide, by simp⟩
  · split at has
    · next same =>
        cases has
        refine ⟨same ▸ by decide, ?_⟩
        intro text isStr
        cases isStr
        exact isText
    · cases has

theorem Known.keep {attributes : Attributes} (known : Known attributes) (kept : List String) :
    Known (attributes.keep kept) := by
  intro name value has
  apply known name value
  simp only [Codec.Attributes.keep, Codec.Attributes.get, Std.TreeMap.getElem?_filter] at has
  exact (Option.pfilter_eq_some_iff.mp has).1

/-- What a record is written as is known. -/
theorem Encodes.known {serde : Codec.Serde} {attributes : Attributes}
    (encodes : Encodes serde attributes) : Known attributes := by
  cases encodes with
  | listing record => exact (Known.new (by decide)).with (by decide) (by simp)
  | offer record =>
      exact ((Known.new (by decide)).with (by decide) (by simp)).with (by decide) (by simp)
  | agreement record =>
      exact (((Known.new (by decide)).with (by decide) (by simp)).with (by decide) (by simp)).with
        (by decide) (by simp)
  | counter record =>
      have isState : ∀ text, AttributeValue.str (Codec.stateText record.state) = .str text →
          text ∈ texts := by
        intro text isStr
        cases isStr
        cases record.state <;> decide
      exact ((((Known.new (by decide)).with (by decide) (by simp)).with (by decide) (by simp)).with
        (by decide) isState).with (by decide) (by simp)
  | receipt record =>
      exact (((Known.new (by decide)).with (by decide) (by simp)).with (by decide) (by simp)).with
        (by decide) (by simp)

/-- Known attributes as a list have distinct names, each of the known ones. -/
theorem Known.toList {attributes : Attributes} (known : Known attributes) :
    (attributes.map.toList.map Prod.fst).Nodup ∧
      ∀ named ∈ attributes.map.toList, named.1 ∈ names ∧
        ∀ text, named.2 = .str text → text ∈ texts := by
  constructor
  · have apart := Std.TreeMap.distinct_keys_toList (t := attributes.map)
    rw [List.Nodup, List.pairwise_map]
    apply apart.imp
    intro first second unlike same
    exact unlike (by simp [same])
  · intro named member
    exact known _ _ (Std.TreeMap.mem_toList_iff_getElem?_eq_some.mp member)

/-- The properties of a value on the wire. -/
def fieldsOf (value : AttributeValue) : List (String × JsValue) :=
  [("type", .string value.typeTag), ("value", parse value.wireValue)] ++
    if (valueOf value).type = .bytes then [("indexed", .boolean false)] else []

theorem parse_toWire (value : AttributeValue) : parse value.toWire = .object (fieldsOf value) := by
  cases value <;>
    simp [AttributeValue.toWire, AttributeValue.typeTag, fieldsOf, valueOf, ArkivValue.type, parse,
      parseFields, properties, assign]

theorem property_type (value : AttributeValue) :
    property (fieldsOf value) "type" = some (.string value.typeTag) := by
  simp [property, fieldsOf]

theorem property_value (value : AttributeValue) :
    property (fieldsOf value) "value" = some (parse value.wireValue) := by
  simp [property, fieldsOf]

/-- A value's column is declared by its type, and bytes are not indexed. -/
theorem columnOf_fieldsOf (value : AttributeValue) (name : String) :
    columnOf (valueOf value) (property (fieldsOf value) "indexed") name = .ok (columnFor value) := by
  cases value <;>
    simp [property, fieldsOf, valueOf, columnOf, columnFor, ArkivValue.type, Column.indexed, bind,
      Except.bind, pure, Except.pure]

/-- Columns of known attributes make a schema. -/
theorem Sdk.Keeps.columnsOf {sdk : Sdk} (keeps : sdk.Keeps) {attributes : Attributes}
    (known : Known attributes) :
    ∃ schema, sdk.defineSchema (columnsOf attributes) = .ok schema ∧
      sdk.columns schema = columnsOf attributes := by
  obtain ⟨distinct, each⟩ := known.toList
  apply keeps.schema
  · simpa [Sidecar.columnsOf, Function.comp_def] using distinct
  · intro column member
    obtain ⟨named, isNamed, rfl⟩ := List.mem_map.mp member
    exact (each named isNamed).1

section Delivered

variable {sdk : Sdk} (keeps : sdk.Keeps)

include keeps

/-- A value decodes to itself. -/
theorem decodeValue_fieldsOf {value : AttributeValue} (name : String)
    (isText : ∀ text, value = .str text → text ∈ texts) :
    decodeValue sdk (some (.object (fieldsOf value))) name = .ok (valueOf value) := by
  simp only [decodeValue, asRecord, bind, Except.bind, property_type, property_value]
  cases value with
  | str value =>
      simp only [AttributeValue.typeTag, AttributeValue.wireValue, parse, asString]
      exact keeps.str value (isText value rfl)
  | i32 value =>
      have low := BitVec.le_toInt value
      have high := BitVec.toInt_lt (x := value)
      have small : value.toInt.natAbs < 2 ^ 53 := by omega
      simp only [AttributeValue.typeTag, AttributeValue.wireValue, parse, numberOf_eq small]
      exact keeps.i32 value
  | u64 value =>
      simp only [AttributeValue.typeTag, AttributeValue.wireValue, parse, asString]
      exact keeps.u64 value
  | addr value =>
      simp only [AttributeValue.typeTag, AttributeValue.wireValue, parse, asString]
      exact keeps.addr value
  | key value =>
      simp only [AttributeValue.typeTag, AttributeValue.wireValue, parse, asHex_hexText]
      exact keeps.key value
  | bytes value =>
      have isHex : ['0', 'x'].isPrefixOf ("0x" ++ String.ofList (hexOfBytes value)).toList = true := by
        simp [List.isPrefixOf]
      simp only [AttributeValue.typeTag, AttributeValue.wireValue, parse, asHex_eq isHex]
      exact keeps.bytes value

/-- One more attribute is declared with the others. -/
theorem declare_toWire {declared : Declared} {name : String} {value : AttributeValue}
    (isText : ∀ text, value = .str text → text ∈ texts)
    (freshColumn : name ∉ declared.columns.map Prod.fst)
    (freshValue : name ∉ declared.values.map Prod.fst) :
    declare sdk declared (name, parse value.toWire) =
      .ok
        { columns := declared.columns ++ [(name, columnFor value)]
          values := declared.values ++ [(name, valueOf value)] } := by
  simp only [declare, parse_toWire, decodeValue_fieldsOf keeps name isText, asRecord, bind,
    Except.bind, columnOf_fieldsOf, assign_fresh _ freshColumn, assign_fresh _ freshValue]
  rfl

/-- Attributes are declared one after the other. -/
theorem foldlM_declare (declared : Declared) {named : List (String × AttributeValue)}
    (isText : ∀ entry ∈ named, ∀ text, entry.2 = .str text → text ∈ texts)
    (columns : (declared.columns.map Prod.fst ++ named.map Prod.fst).Nodup)
    (values : (declared.values.map Prod.fst ++ named.map Prod.fst).Nodup) :
    (named.map fun entry => (entry.1, parse entry.2.toWire)).foldlM (declare sdk) declared =
      .ok
        { columns := declared.columns ++ named.map fun entry => (entry.1, columnFor entry.2)
          values := declared.values ++ named.map fun entry => (entry.1, valueOf entry.2) } := by
  induction named generalizing declared with
  | nil => simp [pure, Except.pure]
  | cons entry named ih =>
      have freshColumn : entry.1 ∉ declared.columns.map Prod.fst := by
        intro member
        exact (List.nodup_append.mp columns).2.2 _ member _ List.mem_cons_self rfl
      have freshValue : entry.1 ∉ declared.values.map Prod.fst := by
        intro member
        exact (List.nodup_append.mp values).2.2 _ member _ List.mem_cons_self rfl
      have first := declare_toWire keeps (isText entry List.mem_cons_self) freshColumn freshValue
      have later := ih
        { columns := declared.columns ++ [(entry.1, columnFor entry.2)]
          values := declared.values ++ [(entry.1, valueOf entry.2)] }
        (fun other member => isText other (List.mem_cons_of_mem _ member))
        (by simpa using columns) (by simpa using values)
      rw [List.map_cons, List.foldlM_cons, first]
      refine later.trans ?_
      simp

/-- Attributes decode to themselves, each in its column. -/
theorem decodeAttributes_toWire {attributes : Attributes} (known : Known attributes)
    (what : String) :
    decodeAttributes sdk (some (parse attributes.toWire)) what =
      .ok
        { columns := columnsOf attributes
          values := valuesOf attributes } := by
  obtain ⟨distinct, each⟩ := known.toList
  have isObject : parse attributes.toWire = .object
      (attributes.map.toList.map fun named => (named.1, parse named.2.toWire)) := by
    rw [Attributes.toWire, parse_object (by simpa [Function.comp_def] using distinct)]
    simp [Function.comp_def]
  have isListed : entries (attributes.map.toList.map fun named => (named.1, parse named.2.toWire)) =
      attributes.map.toList.map fun named => (named.1, parse named.2.toWire) := by
    apply entries_eq
    intro field member
    obtain ⟨named, isNamed, rfl⟩ := List.mem_map.mp member
    exact (each named isNamed).1
  have folded := foldlM_declare keeps {} (fun named member => (each named member).2)
    (by simpa using distinct) (by simpa using distinct)
  rw [isObject, decodeAttributes, asRecord]
  simp only [bind, Except.bind]
  rw [isListed, folded]
  simp [columnsOf, valuesOf]

/-- A lifetime that the chain allows decodes to itself. -/
theorem decodeExpiry_toJson {count : Nat} (positive : 0 < count) (even : count % 2 = 0)
    (atMost : count ≤ MAX_LIFETIME.asSecs) :
    ∃ expiry, decodeExpiry sdk (some (parse (Codec.Expiry.seconds count).toJson)) = .ok expiry ∧
      sdk.lasting expiry = some count := by
  obtain ⟨expiry, decoded, lasting⟩ := keeps.seconds count positive even atMost
  have most : MAX_LIFETIME.asSecs = 15768000 := by decide
  have small : (count : Int).natAbs < 2 ^ 53 := by
    rw [Int.natAbs_natCast]
    omega
  refine ⟨expiry, ?_, lasting⟩
  simp only [Codec.Expiry.toJson, parse, parseFields, numberOf_eq small]
  exact decoded

/-- A create decodes to itself. -/
theorem decodeCreate_toJson {attributes : Attributes} (known : Known attributes) {count : Nat}
    (positive : 0 < count) (even : count % 2 = 0) (atMost : count ≤ MAX_LIFETIME.asSecs) :
    ∃ op, decodeCreate sdk (parse (Codec.Create.mk attributes (.seconds count)).toJson) = .ok op ∧
      CreatedAs sdk (Codec.Create.mk attributes (.seconds count)) op := by
  obtain ⟨expiry, decoded, lasting⟩ := decodeExpiry_toJson keeps positive even atMost
  obtain ⟨schema, defined, columns⟩ := keeps.columnsOf known
  have attributesAre : decodeAttributes sdk (some (parse attributes.toWire)) "create.attributes" =
      .ok { columns := columnsOf attributes, values := valuesOf attributes } :=
    decodeAttributes_toWire keeps known _
  have opOf : CreatedAs sdk (Codec.Create.mk attributes (.seconds count))
      { schema
        values := valuesOf attributes
        expiration := expiry } := ⟨columns, rfl, lasting, rfl, rfl⟩
  refine ⟨_, ?_, opOf⟩
  rw [Codec.Create.toJson, parse_object (by simp), decodeCreate]
  simp [asRecord, property, bind, Except.bind, attributesAre, defined, decoded, pure, Except.pure]

/-- A patch decodes to itself. -/
theorem decodePatch_toJson (entityKey : EntityKey) {attributes : Attributes}
    (known : Known attributes) :
    ∃ op, decodePatch sdk (parse (Codec.Patch.mk entityKey attributes).toJson) = .ok op ∧
      PatchedAs sdk (Codec.Patch.mk entityKey attributes) op := by
  obtain ⟨schema, defined, columns⟩ := keeps.columnsOf known
  have attributesAre : decodeAttributes sdk (some (parse attributes.toWire)) "patch.set" =
      .ok { columns := columnsOf attributes, values := valuesOf attributes } :=
    decodeAttributes_toWire keeps known _
  have opOf : PatchedAs sdk (Codec.Patch.mk entityKey attributes)
      { schema
        entityKey := hexText 64 entityKey.toNat
        set := some (valuesOf attributes) } := ⟨rfl, columns, rfl, rfl⟩
  refine ⟨_, ?_, opOf⟩
  rw [Codec.Patch.toJson, parse_object (by simp), decodePatch]
  simp [asRecord, property, bind, Except.bind, attributesAre, defined, keyJson, parse,
    asHex_hexText, pure, Except.pure]

/-- An extend decodes to itself. -/
theorem decodeExtend_toJson (entityKey : EntityKey) {count : Nat} (positive : 0 < count)
    (even : count % 2 = 0) (atMost : count ≤ MAX_LIFETIME.asSecs) :
    ∃ op, decodeExtend sdk (parse (Codec.Extend.mk entityKey (.seconds count)).toJson) = .ok op ∧
      ExtendedAs sdk (Codec.Extend.mk entityKey (.seconds count)) op := by
  obtain ⟨expiry, decoded, lasting⟩ := decodeExpiry_toJson keeps positive even atMost
  have opOf : ExtendedAs sdk (Codec.Extend.mk entityKey (.seconds count))
      { entityKey := hexText 64 entityKey.toNat
        expiration := expiry } := ⟨rfl, lasting⟩
  refine ⟨_, ?_, opOf⟩
  rw [Codec.Extend.toJson, parse_object (by simp), decodeExtend]
  simp [asRecord, property, bind, Except.bind, decoded, keyJson, parse, asHex_hexText, pure,
    Except.pure]

end Delivered

/-- A delete decodes to itself. -/
theorem decodeDelete_toJson (entityKey : EntityKey) :
    ∃ op, decodeDelete (parse (Codec.Delete.mk entityKey).toJson) = .ok op ∧
      DeletedAs (Codec.Delete.mk entityKey) op := by
  have opOf : DeletedAs (Codec.Delete.mk entityKey) { entityKey := hexText 64 entityKey.toNat } :=
    ⟨rfl⟩
  refine ⟨_, ?_, opOf⟩
  rw [Codec.Delete.toJson, parse_object (by simp), decodeDelete]
  simp [asRecord, property, bind, Except.bind, keyJson, parse, asHex_hexText, pure, Except.pure]

/-! ## Batches -/

section Lists

variable {α β : Type} {name : String} {toJson : α → JsonValue}
  {decode : JsValue → Except String β} {As : α → β → Prop}

/-- A list of what decodes decodes, in order. -/
theorem mapM_decode {sent : List α}
    (decodes : ∀ one ∈ sent, ∃ op, decode (parse (toJson one)) = .ok op ∧ As one op) :
    ∃ ops, (sent.map fun one => parse (toJson one)).mapM decode = .ok ops ∧
      List.Forall₂ As sent ops := by
  induction sent with
  | nil => exact ⟨[], rfl, .nil⟩
  | cons one sent ih =>
      obtain ⟨op, first, isOp⟩ := decodes one List.mem_cons_self
      obtain ⟨ops, later, areOps⟩ := ih fun other member =>
        decodes other (List.mem_cons_of_mem _ member)
      refine ⟨op :: ops, ?_, .cons isOp areOps⟩
      simp [first, later, bind, Except.bind, pure, Except.pure]

/-- What a body has of a kind, if it has it. -/
def wiresOf (toJson : α → JsonValue) (sent : List α) : Option JsValue :=
  if sent.isEmpty then none else some (.array (sent.map fun one => parse (toJson one)))

/-- The property of a kind. -/
def bodyOf (name : String) (toJson : α → JsonValue) (sent : List α) : List (String × JsValue) :=
  (wiresOf toJson sent).toList.map fun wires => (name, wires)

theorem listed_parsed (sent : List α) :
    (Codec.Batch.listed name toJson sent).map (fun field => (field.1, parse field.2)) =
      bodyOf name toJson sent := by
  cases sent with
  | nil => rfl
  | cons one sent =>
      simp [Codec.Batch.listed, bodyOf, wiresOf, parse, parseAll_eq, Function.comp_def]

theorem property_bodyOf (other : String) (sent : List α) :
    property (bodyOf name toJson sent) other =
      if name = other then wiresOf toJson sent else none := by
  cases sent with
  | nil => simp [bodyOf, wiresOf, property]
  | cons one sent => by_cases same : name = other <;> simp [bodyOf, wiresOf, property, same]

/-- A kind of the body decodes to its operations, none when it is left out. -/
theorem list_decode (what : String) {sent : List α}
    (decodes : ∀ one ∈ sent, ∃ op, decode (parse (toJson one)) = .ok op ∧ As one op) :
    ∃ ops : Option (List β), (wiresOf toJson sent).mapM (list what decode) = .ok ops ∧
      List.Forall₂ As sent (ops.getD []) := by
  cases sent with
  | nil => exact ⟨none, rfl, .nil⟩
  | cons one sent =>
      obtain ⟨ops, decoded, areOps⟩ := mapM_decode decodes
      refine ⟨some ops, ?_, areOps⟩
      simp only [wiresOf, List.isEmpty_cons, Bool.false_eq_true, if_false, Option.mapM_some, list,
        decoded]
      rfl

end Lists

/-- The body of a batch, by kind. -/
theorem parse_batch (batch : Codec.Batch) :
    parse batch.toJson = .object (bodyOf "creates" Codec.Create.toJson batch.creates ++
      bodyOf "patches" Codec.Patch.toJson batch.patches ++
      bodyOf "deletes" Codec.Delete.toJson batch.deletes ++
      bodyOf "extensions" Codec.Extend.toJson batch.extensions) := by
  have distinct : ((Codec.Batch.listed "creates" Codec.Create.toJson batch.creates ++
      Codec.Batch.listed "patches" Codec.Patch.toJson batch.patches ++
      Codec.Batch.listed "deletes" Codec.Delete.toJson batch.deletes ++
      Codec.Batch.listed "extensions" Codec.Extend.toJson batch.extensions).map Prod.fst).Nodup := by
    simp only [Codec.Batch.listed]
    split <;> split <;> split <;> split <;> simp
  rw [Codec.Batch.toJson, parse_object distinct]
  simp only [List.map_append, listed_parsed]

/-- Every batch built from records decodes, whatever operations it mixes, to those operations: of
each kind all of them and in order, under the same keys, with the same attributes, of the same types
and values and indexed alike, for the same lives. -/
theorem decodes_what_is_sent {sdk : Sdk} (keeps : sdk.Keeps) (serde : Codec.Serde) {urls : Urls}
    {config : Marketplace} (valid : config.validate urls = .ok ()) (batch : Codec.Batch)
    (built : ∀ operation ∈ batch.operations, Built serde config.lifetimes operation) :
    ∃ ops, decodeBatch sdk (parse batch.toJson) = .ok ops ∧ BatchedAs sdk batch ops := by
  have lives := Marketplace.validate_lifetimes valid
  have create : ∀ create ∈ batch.creates,
      ∃ op, decodeCreate sdk (parse create.toJson) = .ok op ∧ CreatedAs sdk create op := by
    intro create member
    obtain ⟨operation, isSent, isCreate⟩ := List.mem_filterMap.mp member
    cases built operation isSent with
    | create encodes isLife =>
        cases isCreate
        obtain ⟨positive, even, atMost⟩ := lives _ isLife
        exact decodeCreate_toJson keeps (Encodes.known encodes) positive even atMost
    | _ => cases isCreate
  have patch : ∀ patch ∈ batch.patches,
      ∃ op, decodePatch sdk (parse patch.toJson) = .ok op ∧ PatchedAs sdk patch op := by
    intro patch member
    obtain ⟨operation, isSent, isPatch⟩ := List.mem_filterMap.mp member
    cases built operation isSent with
    | patch entityKey encodes kept =>
        cases isPatch
        exact decodePatch_toJson keeps entityKey ((Encodes.known encodes).keep kept)
    | _ => cases isPatch
  have delete : ∀ delete ∈ batch.deletes,
      ∃ op, decodeDelete (parse delete.toJson) = .ok op ∧ DeletedAs delete op :=
    fun delete _ => decodeDelete_toJson delete.entityKey
  have extend : ∀ extend ∈ batch.extensions,
      ∃ op, decodeExtend sdk (parse extend.toJson) = .ok op ∧ ExtendedAs sdk extend op := by
    intro extend member
    obtain ⟨operation, isSent, isExtend⟩ := List.mem_filterMap.mp member
    cases built operation isSent with
    | extend entityKey isLife =>
        cases isExtend
        obtain ⟨positive, even, atMost⟩ := lives _ isLife
        exact decodeExtend_toJson keeps entityKey positive even atMost
    | _ => cases isExtend
  obtain ⟨creates, createsAre, areCreates⟩ := list_decode "creates" create
  obtain ⟨patches, patchesAre, arePatches⟩ := list_decode "patches" patch
  obtain ⟨deletes, deletesAre, areDeletes⟩ := list_decode "deletes" delete
  obtain ⟨extensions, extensionsAre, areExtensions⟩ := list_decode "extensions" extend
  refine ⟨{ creates, patches, deletes, extensions }, ?_,
    ⟨areCreates, arePatches, areDeletes, areExtensions⟩⟩
  rw [parse_batch, decodeBatch]
  simp [asRecord, property_append, property_bodyOf, bind, Except.bind, createsAre, patchesAre,
    deletesAre, extensionsAre, pure, Except.pure]

/-! ## A batch of every kind -/

/-- An SDK that does nothing but check its values. -/
def checking : Sdk where
  Schema := List (String × Column)
  columns := id
  Expiry := Nat
  lasting := some
  str text := .ok (.str text)
  bool value := .ok (.bool value)
  i32 := fun
    | .whole value =>
        if -2 ^ 31 ≤ value ∧ value < 2 ^ 31 then .ok (.i32 value) else .error "i32 out of range"
    | .other _ => .error "not an integer"
  u64 text :=
    match Codec.parseDigits ofDigits? text.toList with
    | some value => .ok (.u64 value.toNat)
    | none => .error "not a u64"
  u256 text :=
    match Codec.parseWei text with
    | some value => .ok (.u256 value.toNat)
    | none => .error "not a u256"
  dec text := .ok (.dec text)
  addr text :=
    match Codec.parseFixed 40 text with
    | some value => .ok (.addr (BitVec.ofNat 160 value))
    | none => .error "not an address"
  key text :=
    match Codec.parseFixed 64 text with
    | some value => .ok (.key (BitVec.ofNat 256 value))
    | none => .error "not a key"
  bytes text :=
    match Codec.bytesOfHex? (Codec.withoutMark text) with
    | some value => .ok (.bytes value)
    | none => .error "not bytes"
  defineSchema columns := .ok columns
  fromSeconds := fun
    | .whole count =>
        if 0 < count ∧ count % 2 = 0 then .ok count.toNat else .error "not whole blocks"
    | .other _ => .error "not whole blocks"
  fromBlocks := fun
    | .whole count => if 0 < count then .ok (2 * count.toNat) else .error "not whole blocks"
    | .other _ => .error "not whole blocks"
  atBlock _ := .error "not a lifetime"

theorem checking_keeps : checking.Keeps where
  str _ _ := rfl
  i32 value := by
    have range : -2 ^ 31 ≤ value.toInt ∧ value.toInt < 2 ^ 31 :=
      ⟨BitVec.le_toInt value, BitVec.toInt_lt⟩
    simp only [checking, if_pos range]
  u64 value := by
    simp only [checking]
    rw [Codec.parseDigits_repr]
  addr value := by
    have less : value.toNat < 16 ^ 40 := value.isLt
    simp [checking, Codec.parseFixed_hexText less]
  key value := by
    have less : value.toNat < 16 ^ 64 := value.isLt
    simp [checking, Codec.parseFixed_hexText less]
  bytes value := by
    have unmarked : Codec.withoutMark ("0x" ++ String.ofList (hexOfBytes value)) =
        hexOfBytes value := by
      simp [Codec.withoutMark]
    simp only [checking, unmarked, Codec.bytesOfHex?_hexOfBytes]
  schema columns _ _ := ⟨columns, rfl, rfl⟩
  seconds count positive even _ := by
    have isLife : (0 : Int) < count ∧ (count : Int) % 2 = 0 := by omega
    refine ⟨count, ?_, rfl⟩
    simp only [checking, if_pos isLife, Int.toNat_natCast]

/-- A section whose records live for hours. -/
def hourly : Marketplace where
  writerUrl := "http://writer:8560"
  weiPerCall := 5
  tunnelServer := "lb:7000"
  maxProviders := 2
  remotePortStart := 20000
  discoveryInterval := Duration.fromSecs 30
  refreshInterval := Duration.fromSecs 900
  agreementLife := Duration.fromSecs 7200
  listingLife := Duration.fromSecs 7200
  counterRecordLife := Duration.fromSecs 86400
  offerMaxLifetime := Duration.fromSecs 3600
  settlementPeriod := Duration.fromSecs 86400
  flushInterval := Duration.fromSecs 600

/-- Every URL is one of plain http. -/
def plainHttp : Urls where
  parse _ := .ok "http"

/-- A counter record at its close. -/
def closing : Codec.CounterRecord where
  agreement := 9
  provider := 7
  state := .closed
  count := 12
  weiPerCall := 5
  openedBlock := 100
  closedBlock := some 150

/-- An acceptance, a close between two extends, and a delete. -/
def mixed : Codec.Batch where
  operations :=
    [.extend { entityKey := 3, expiration := .seconds 7200 },
      .create
        { attributes := Codec.Record.encode Codec.smallSerde Codec.smallAgreement
          expiration := .seconds 3600 },
      .patch
        { entityKey := 4
          set := (Codec.Record.encode Codec.smallSerde closing).keep
            [Codec.PAYLOAD_ATTRIBUTE, "state"] },
      .delete { entityKey := 5 },
      .extend { entityKey := 6, expiration := .seconds 7200 }]

/-- It decodes to what it has. -/
theorem mixed_decodes : ∃ ops, decodeBatch checking (parse mixed.toJson) = .ok ops ∧
    BatchedAs checking mixed ops := by
  have valid : hourly.validate plainHttp = .ok () := by decide +kernel
  apply decodes_what_is_sent checking_keeps Codec.smallSerde valid mixed
  intro operation member
  simp only [mixed, List.mem_cons, List.not_mem_nil, or_false] at member
  rcases member with rfl | rfl | rfl | rfl | rfl
  · exact .extend 3 (by decide)
  · exact .create (.agreement Codec.smallAgreement) (by decide)
  · exact .patch 4 (.counter closing) _
  · exact .delete 5
  · exact .extend 6 (by decide)

end Sidecar
end CommunityLb
