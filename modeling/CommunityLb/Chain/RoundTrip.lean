import CommunityLb.Chain.Encoded

/-!
# Decoding undoes encoding

Of every record, whatever else its row carries under other names, and whatever its payload has
beside the fields its reader knows.
-/

namespace CommunityLb
namespace Codec

/-! ## What a row carries -/

/-- Read entries are these attributes, in any order, and others under other names. -/
def Shows (attributes : Attributes) (reads : List ArkivAttribute) : Prop :=
  (reads.filter fun read => (attributes.get read.name).isSome).Perm attributes.toRead

namespace Attributes

/-- The entries of a name are the value under it. -/
theorem toList_filter {attributes : Attributes} {name : String} {value : AttributeValue}
    (has : attributes.get name = some value) :
    attributes.map.toList.filter (fun named => named.1 = name) = [(name, value)] := by
  have member : (name, value) ∈ attributes.map.toList :=
    Std.TreeMap.mem_toList_iff_getElem?_eq_some.mpr has
  have apart := Std.TreeMap.distinct_keys_toList (t := attributes.map)
  have only : ∀ named ∈ attributes.map.toList, named.1 = name → named = (name, value) := by
    rintro ⟨other, found⟩ isNamed rfl
    have found' := Std.TreeMap.mem_toList_iff_getElem?_eq_some.mp isNamed
    have same : some found = some value := found'.symm.trans has
    rw [Option.some.inj same]
  obtain ⟨front, back, split⟩ := List.append_of_mem member
  rw [split, List.pairwise_append, List.pairwise_cons] at apart
  obtain ⟨_, ⟨later, _⟩, earlier⟩ := apart
  have none : ∀ rest : List (String × AttributeValue),
      (∀ named ∈ rest, named.1 ≠ name) → rest.filter (fun named => named.1 = name) = [] := by
    intro rest unlike
    rw [List.filter_eq_nil_iff]
    intro named isNamed same
    exact unlike named isNamed (of_decide_eq_true same)
  rw [split, List.filter_append, List.filter_cons_of_pos (by simp),
    none front fun named isNamed same =>
      earlier named isNamed (name, value) List.mem_cons_self (by simp [same]),
    none back fun named isNamed same => later named isNamed (by simp [same])]
  rfl

theorem toRead_filter {attributes : Attributes} {name : String} {value : AttributeValue}
    (has : attributes.get name = some value) :
    attributes.toRead.filter (fun read => read.name = name) = [value.toRead name] := by
  have named : attributes.map.toList.filter
      ((fun read : ArkivAttribute => decide (read.name = name)) ∘
        fun named => named.2.toRead named.1) =
      attributes.map.toList.filter (fun named => named.1 = name) := rfl
  rw [toRead, List.filter_map, named, toList_filter has]
  rfl

/-- What a name reads as is the last of its entries. -/
theorem get_foldl_addRead (reads : List ArkivAttribute) (start : Attributes) (name : String) :
    (reads.foldl addRead start).get name =
      (((reads.filter fun read => read.name = name).filterMap
        AttributeValue.fromRead).getLast?).or (start.get name) := by
  induction reads generalizing start with
  | nil => rfl
  | cons read reads ih =>
      rw [List.foldl_cons, ih]
      cases isValue : AttributeValue.fromRead read with
      | none =>
          by_cases same : read.name = name
          · rw [List.filter_cons_of_pos (by simpa using same), List.filterMap_cons_none isValue]
            simp [addRead, isValue]
          · rw [List.filter_cons_of_neg (by simpa using same)]
            simp [addRead, isValue]
      | some value =>
          by_cases same : read.name = name
          · rw [List.filter_cons_of_pos (by simpa using same), List.filterMap_cons_some isValue]
            simp only [addRead, isValue, get_with, if_pos same]
            rw [List.getLast?_cons]
            cases ((reads.filter fun read => read.name = name).filterMap
              AttributeValue.fromRead).getLast? with
            | none => rfl
            | some last => rfl
          · rw [List.filter_cons_of_neg (by simpa using same)]
            simp [addRead, isValue, same]

end Attributes

/-- An entity's typed attributes have what its row shows. -/
theorem Shows.typed {attributes : Attributes} {entity : ArkivEntity}
    (shows : Shows attributes entity.attributes) {name : String} {value : AttributeValue}
    (has : attributes.get name = some value) :
    entity.typedAttributes.get name = some value := by
  have named := List.Perm.filter (fun read => decide (read.name = name)) shows
  rw [Attributes.toRead_filter has, List.filter_filter] at named
  have same : entity.attributes.filter (fun read =>
        decide (read.name = name) && (attributes.get read.name).isSome) =
      entity.attributes.filter fun read => read.name = name := by
    apply List.filter_congr
    intro read _
    by_cases isName : read.name = name
    · simp [isName, has]
    · simp [isName]
  rw [same] at named
  rw [ArkivEntity.typedAttributes, Attributes.get_foldl_addRead, List.perm_singleton.mp named]
  simp

/-! ## Records that read back -/

/-- A record whose fields read back from what it writes, its payload grown or not. -/
class Lawful (α : Type) [Record α] where
  attributes : α → Attributes
  document : α → JsonValue
  /-- The payload's fields that the record knows. -/
  shape : Shape
  encode_eq : ∀ serde record,
    Record.encode serde record = encode serde (attributes record) (document record)
  kind : ∀ record, (attributes record).get "kind" = some (.str (Record.KIND α))
  version : ∀ record, (attributes record).get "v" = some (.i32 SCHEMA_VERSION)
  reads : ∀ (serde : Serde) (record : α) (entity : ArkivEntity) (bytes : List (BitVec 8))
    (grown : JsonValue), serde.fromSlice bytes = some grown →
    Grown shape (document record) grown →
    (∀ name value, ((attributes record).with PAYLOAD_ATTRIBUTE (.bytes bytes)).get name =
      some value → entity.typedAttributes.get name = some value) →
    Record.decodeFields serde entity = .ok record

/-- Decoding undoes encoding. -/
structure Faithful (serde : Serde) (α : Type) [Record α] [Lawful α] : Prop where
  /-- What a record writes decodes to it, whatever else its row carries and in whatever order. -/
  undoes : ∀ (record : α) (entity : ArkivEntity),
    serde.fromSlice (serde.toVec (Lawful.document record)) = some (Lawful.document record) →
    Shows (Record.encode serde record) entity.attributes →
    Record.decode α serde entity = .ok record
  /-- So it does with a payload of more fields. -/
  ignores : ∀ (record : α) (entity : ArkivEntity) (bytes : List (BitVec 8)) (grown : JsonValue),
    serde.fromSlice bytes = some grown →
    Grown (Lawful.shape α) (Lawful.document record) grown →
    Shows ((Record.encode serde record).with PAYLOAD_ATTRIBUTE (.bytes bytes)) entity.attributes →
    Record.decode α serde entity = .ok record
  /-- It is no record of another kind. -/
  otherKind : ∀ (record : α) (entity : ArkivEntity),
    Shows (Record.encode serde record) entity.attributes →
    ∀ (β : Type) [Record β], Record.KIND β ≠ Record.KIND α →
      Record.decode β serde entity = .error (.notThisRecord (Record.KIND β))
  /-- What decodes is of its kind, at this schema version. -/
  only : ∀ (record : α) (entity : ArkivEntity), Record.decode α serde entity = .ok record →
    entity.typedAttributes.get "kind" = some (.str (Record.KIND α)) ∧
      entity.typedAttributes.get "v" = some (.i32 SCHEMA_VERSION)
  /-- At another schema version it is refused. -/
  otherVersion : ∀ (record : α) (entity : ArkivEntity) (version : BitVec 32),
    version ≠ SCHEMA_VERSION →
    Shows ((Record.encode serde record).with "v" (.i32 version)) entity.attributes →
    Record.decode α serde entity = .error (.version version)

/-- An entity of its kind at this schema version decodes to its fields. -/
theorem decode_eq_fields {α : Type} [Record α] {serde : Serde} {entity : ArkivEntity}
    (kind : entity.typedAttributes.get "kind" = some (.str (Record.KIND α)))
    (version : entity.typedAttributes.get "v" = some (.i32 SCHEMA_VERSION)) :
    Record.decode α serde entity = Record.decodeFields serde entity := by
  have isKind : entity.is (Record.KIND α) = true := by simp [ArkivEntity.is, kind]
  simp [Record.decode, isKind, Attributes.i32_of_get version, bind, Except.bind]

theorem Attributes.get_of_i32 {attributes : Attributes} {name : String} {value : BitVec 32}
    (has : attributes.i32 name = .ok value) : attributes.get name = some (.i32 value) := by
  simp only [i32, present] at has
  split at has
  · next found isFound =>
      cases found with
      | i32 held =>
          cases has
          exact isFound
      | _ => cases has
  · cases has

/-- What decodes is of its kind, at this schema version. -/
theorem decode_only {α : Type} [Record α] {serde : Serde} {record : α} {entity : ArkivEntity}
    (decoded : Record.decode α serde entity = .ok record) :
    entity.typedAttributes.get "kind" = some (.str (Record.KIND α)) ∧
      entity.typedAttributes.get "v" = some (.i32 SCHEMA_VERSION) := by
  cases isKind : entity.is (Record.KIND α) with
  | false =>
      simp [Record.decode, isKind, bind, Except.bind, throw, throwThe, MonadExceptOf.throw]
        at decoded
  | true =>
      cases isVersion : entity.typedAttributes.i32 "v" with
      | error reason =>
          simp [Record.decode, isKind, isVersion, bind, Except.bind] at decoded
      | ok version =>
          have kind : entity.typedAttributes.get "kind" = some (.str (Record.KIND α)) := by
            simp only [ArkivEntity.is] at isKind
            split at isKind
            · next found isFound =>
                rw [isFound, of_decide_eq_true isKind]
            · cases isKind
          by_cases same : version = SCHEMA_VERSION
          · subst same
            exact ⟨kind, Attributes.get_of_i32 isVersion⟩
          · simp [Record.decode, isKind, isVersion, same, bind, Except.bind, throw, throwThe,
              MonadExceptOf.throw] at decoded

/-- Every record that reads back is faithful. -/
theorem Lawful.faithful (serde : Serde) (α : Type) [Record α] [Lawful α] : Faithful serde α := by
  have kindOf : ∀ (record : α) (bytes : List (BitVec 8)),
      ((attributes record).with PAYLOAD_ATTRIBUTE (.bytes bytes)).get "kind" =
        some (.str (Record.KIND α)) := by
    intro record bytes
    rw [Attributes.get_with, if_neg (by decide), kind]
  have versionOf : ∀ (record : α) (bytes : List (BitVec 8)),
      ((attributes record).with PAYLOAD_ATTRIBUTE (.bytes bytes)).get "v" =
        some (.i32 SCHEMA_VERSION) := by
    intro record bytes
    rw [Attributes.get_with, if_neg (by decide), version]
  have encoded : ∀ record : α, Record.encode serde record = (attributes record).with
      PAYLOAD_ATTRIBUTE (.bytes (serde.toVec (document record))) := encode_eq serde
  constructor
  · intro record entity readsBack shows
    rw [encoded] at shows
    rw [decode_eq_fields (shows.typed (kindOf record _)) (shows.typed (versionOf record _))]
    exact reads serde record entity _ _ readsBack (.same _ _) fun name value has =>
      shows.typed has
  · intro record entity bytes grown readsGrown isGrown shows
    rw [encoded] at shows
    have again : ∀ name, (((attributes record).with PAYLOAD_ATTRIBUTE
          (.bytes (serde.toVec (document record)))).with PAYLOAD_ATTRIBUTE (.bytes bytes)).get name =
        ((attributes record).with PAYLOAD_ATTRIBUTE (.bytes bytes)).get name := by
      intro name
      by_cases isPayload : PAYLOAD_ATTRIBUTE = name <;> simp [isPayload]
    rw [decode_eq_fields (shows.typed ((again _).trans (kindOf record bytes)))
      (shows.typed ((again _).trans (versionOf record bytes)))]
    exact reads serde record entity bytes grown readsGrown isGrown fun name value has =>
      shows.typed ((again name).trans has)
  · intro record entity shows β _ unlike
    rw [encoded] at shows
    have found := shows.typed (kindOf record _)
    have notKind : entity.is (Record.KIND β) = false := by
      simp [ArkivEntity.is, found, unlike.symm]
    simp [Record.decode, notKind, bind, Except.bind, throw, throwThe, MonadExceptOf.throw]
  · intro record entity decoded
    exact decode_only decoded
  · intro record entity other unlike shows
    rw [encoded] at shows
    have isKind : entity.is (Record.KIND α) = true := by
      have found : entity.typedAttributes.get "kind" = some (.str (Record.KIND α)) := by
        apply shows.typed
        rw [Attributes.get_with, if_neg (by decide), kindOf]
      simp [ArkivEntity.is, found]
    have isVersion : entity.typedAttributes.get "v" = some (.i32 other) := by
      apply shows.typed
      rw [Attributes.get_with, if_pos rfl]
    simp [Record.decode, isKind, Attributes.i32_of_get isVersion, unlike, bind, Except.bind, throw,
      throwThe, MonadExceptOf.throw]

/-! ## The payloads -/

/-- A struct of fields whose insides no reader knows anything of. -/
def plain (names : List String) : Shape :=
  .struct (names.map fun name => (name, .leaf))

theorem mem_plain {names : List String} {name : String} (member : name ∈ names) :
    (name, Shape.leaf) ∈ names.map fun name => (name, Shape.leaf) :=
  List.mem_map_of_mem member

theorem LbListing.ofJson?_grown {listing : LbListing} {grown : JsonValue}
    (isGrown : Grown (plain LbListing.fields) listing.toJson grown) :
    LbListing.ofJson? grown = some listing := by
  have weiPerCall : grown.required fields "wei_per_call" JsonValue.wei? = some listing.weiPerCall :=
    isGrown.required (mem_plain (by decide)) rfl (JsonValue.wei?_string _)
  have tunnelServer : grown.required fields "tunnel_server" JsonValue.string? =
      some listing.tunnelServer :=
    isGrown.required (mem_plain (by decide)) rfl rfl
  have maxProviders : grown.required fields "max_providers" (JsonValue.unsigned? 32) =
      some listing.maxProviders :=
    isGrown.required (mem_plain (by decide)) rfl (JsonValue.unsigned?_integer _)
  simp [ofJson?, weiPerCall, tunnelServer, maxProviders]

theorem Hardware.ofJson?_grown {hardware : Hardware} {grown : JsonValue}
    (isGrown : Grown (plain Hardware.fields) hardware.toJson grown) :
    Hardware.ofJson? grown = some hardware := by
  have cpus : grown.required fields "cpus" (JsonValue.unsigned? 32) = some hardware.cpus :=
    isGrown.required (mem_plain (by decide)) rfl (JsonValue.unsigned?_integer _)
  have memGb : grown.required fields "mem_gb" (JsonValue.unsigned? 32) = some hardware.memGb :=
    isGrown.required (mem_plain (by decide)) rfl (JsonValue.unsigned?_integer _)
  simp [ofJson?, cpus, memGb]

/-- The fields of an offer's specs, and those of its hardware. -/
def specsShape : Shape :=
  .struct [("chain_id", .leaf), ("head", .leaf), ("el", .leaf), ("cl", .leaf),
    ("hw", plain Hardware.fields)]

theorem Specs.ofJson?_grown {specs : Specs} {grown : JsonValue}
    (isGrown : Grown specsShape specs.toJson grown) : Specs.ofJson? grown = some specs := by
  have chainId : grown.required fields "chain_id" (JsonValue.unsigned? 64) = some specs.chainId :=
    isGrown.required (by simp) rfl (JsonValue.unsigned?_integer _)
  have head : grown.required fields "head" (JsonValue.unsigned? 64) = some specs.head :=
    isGrown.required (by simp) rfl (JsonValue.unsigned?_integer _)
  have el : grown.required fields "el" JsonValue.string? = some specs.el :=
    isGrown.required (by simp) rfl rfl
  have cl : grown.required fields "cl" JsonValue.string? = some specs.cl :=
    isGrown.required (by simp) rfl rfl
  have inner : ∀ document, Grown (plain Hardware.fields) specs.hw.toJson document →
      Hardware.ofJson? document = some specs.hw := fun _ => Hardware.ofJson?_grown
  have hw : grown.required fields "hw" Hardware.ofJson? = some specs.hw :=
    isGrown.nested (by simp) rfl inner
  simp [ofJson?, chainId, head, el, cl, hw]

/-- An offer's payload. -/
def offerShape : Shape :=
  .struct [("specs", specsShape)]

theorem ofOfferPayload?_grown {specs : Specs} {grown : JsonValue}
    (isGrown : Grown offerShape (offerPayload specs) grown) : ofOfferPayload? grown = some specs :=
  isGrown.nested (List.mem_singleton.mpr rfl) rfl fun _ => Specs.ofJson?_grown

theorem AgreementPayload.ofJson?_grown {payload : AgreementPayload} {grown : JsonValue}
    (isGrown : Grown (plain AgreementPayload.fields) payload.toJson grown) :
    AgreementPayload.ofJson? grown = some payload := by
  have weiPerCall : grown.required fields "wei_per_call" JsonValue.wei? = some payload.weiPerCall :=
    isGrown.required (mem_plain (by decide)) rfl (JsonValue.wei?_string _)
  have remotePort : grown.required fields "remote_port" (JsonValue.unsigned? 16) =
      some payload.remotePort :=
    isGrown.required (mem_plain (by decide)) rfl (JsonValue.unsigned?_integer _)
  simp [ofJson?, weiPerCall, remotePort]

theorem CounterPayload.ofJson?_grown {payload : CounterPayload} {grown : JsonValue}
    (isGrown : Grown (plain CounterPayload.fields) payload.toJson grown) :
    CounterPayload.ofJson? grown = some payload := by
  obtain ⟨amount, rate, openedAt, closing⟩ := payload
  cases closing with
  | none =>
      have count : grown.required fields "count" (JsonValue.unsigned? 64) = some amount :=
        isGrown.required (mem_plain (by decide)) rfl (JsonValue.unsigned?_integer _)
      have weiPerCall : grown.required fields "wei_per_call" JsonValue.wei? = some rate :=
        isGrown.required (mem_plain (by decide)) rfl (JsonValue.wei?_string _)
      have openedBlock : grown.required fields "opened_block" (JsonValue.unsigned? 64) =
          some openedAt :=
        isGrown.required (mem_plain (by decide)) rfl (JsonValue.unsigned?_integer _)
      have closedBlock : grown.optional fields "closed_block" (JsonValue.unsigned? 64) =
          some none :=
        isGrown.absent (mem_plain (by decide)) rfl
      simp [ofJson?, count, weiPerCall, openedBlock, closedBlock]
  | some closedAt =>
      have count : grown.required fields "count" (JsonValue.unsigned? 64) = some amount :=
        isGrown.required (mem_plain (by decide)) rfl (JsonValue.unsigned?_integer _)
      have weiPerCall : grown.required fields "wei_per_call" JsonValue.wei? = some rate :=
        isGrown.required (mem_plain (by decide)) rfl (JsonValue.wei?_string _)
      have openedBlock : grown.required fields "opened_block" (JsonValue.unsigned? 64) =
          some openedAt :=
        isGrown.required (mem_plain (by decide)) rfl (JsonValue.unsigned?_integer _)
      have closedBlock : grown.optional fields "closed_block" (JsonValue.unsigned? 64) =
          some (some closedAt) :=
        isGrown.optional (mem_plain (by decide)) (fun isNull => by cases isNull) rfl
          (JsonValue.unsigned?_integer _)
      simp [ofJson?, count, weiPerCall, openedBlock, closedBlock]

theorem Payout.ofJson?_grown {payout : Payout} {grown : JsonValue}
    (isGrown : Grown (plain Payout.fields) payout.toJson grown) :
    Payout.ofJson? grown = some payout := by
  have chainId : grown.required fields "chain_id" (JsonValue.unsigned? 64) = some payout.chainId :=
    isGrown.required (mem_plain (by decide)) rfl (JsonValue.unsigned?_integer _)
  have tx : grown.required fields "tx" JsonValue.string? = some payout.tx :=
    isGrown.required (mem_plain (by decide)) rfl rfl
  simp [ofJson?, chainId, tx]

/-- The fields of a receipt's payload, and those of its payout. -/
def receiptShape : Shape :=
  .struct [("agreement", .leaf), ("count", .leaf), ("wei_per_call", .leaf), ("amount_wei", .leaf),
    ("payout", plain Payout.fields)]

theorem ReceiptPayload.ofJson?_grown {payload : ReceiptPayload} {grown : JsonValue}
    (isGrown : Grown receiptShape payload.toJson grown) :
    ReceiptPayload.ofJson? grown = some payload := by
  have agreement : grown.required fields "agreement" JsonValue.key? = some payload.agreement :=
    isGrown.required (by simp) rfl (JsonValue.key?_string _)
  have count : grown.required fields "count" (JsonValue.unsigned? 64) = some payload.count :=
    isGrown.required (by simp) rfl (JsonValue.unsigned?_integer _)
  have weiPerCall : grown.required fields "wei_per_call" JsonValue.wei? = some payload.weiPerCall :=
    isGrown.required (by simp) rfl (JsonValue.wei?_string _)
  have amountWei : grown.required fields "amount_wei" JsonValue.wei? = some payload.amountWei :=
    isGrown.required (by simp) rfl (JsonValue.wei?_string _)
  have inner : ∀ document, Grown (plain Payout.fields) payload.payout.toJson document →
      Payout.ofJson? document = some payload.payout := fun _ => Payout.ofJson?_grown
  have payout : grown.required fields "payout" Payout.ofJson? = some payload.payout :=
    isGrown.nested (by simp) rfl inner
  simp [ofJson?, agreement, count, weiPerCall, amountWei, payout]

/-! ## The records -/

/-- A payload reads as the struct its document reads as. -/
theorem payloadJson_ok {α : Type} {serde : Serde} {entity : ArkivEntity} {bytes : List (BitVec 8)}
    {document : JsonValue} {read : JsonValue → Option α} {value : α}
    (has : entity.typedAttributes.get PAYLOAD_ATTRIBUTE = some (.bytes bytes))
    (isDocument : serde.fromSlice bytes = some document) (isRead : read document = some value) :
    entity.payloadJson serde read = .ok value := by
  simp [ArkivEntity.payloadJson, Attributes.payload, has, isDocument, isRead]

instance : Lawful LbListing where
  attributes := fun _ => .new KIND_LB_LISTING
  document := LbListing.toJson
  shape := plain LbListing.fields
  encode_eq := fun _ _ => rfl
  kind := fun _ => rfl
  version := fun _ => rfl
  reads := by
    intro serde record entity bytes grown isDocument isGrown shows
    exact payloadJson_ok (shows _ _ (by simp)) isDocument (LbListing.ofJson?_grown isGrown)

instance : Lawful Offer where
  attributes := fun offer =>
    (Attributes.new KIND_OFFER).with "lb_listing" (.key offer.lbListing)
  document := fun offer => offerPayload offer.specs
  shape := offerShape
  encode_eq := fun _ _ => rfl
  kind := fun _ => by simp; rfl
  version := fun _ => by simp
  reads := by
    intro serde record entity bytes grown isDocument isGrown shows
    have payload := payloadJson_ok (shows _ _ (by simp)) isDocument (ofOfferPayload?_grown isGrown)
    have lbListing : entity.typedAttributes.key "lb_listing" = .ok record.lbListing :=
      Attributes.key_of_get (shows _ _ (by simp [PAYLOAD_ATTRIBUTE]))
    simp [Record.decodeFields, payload, lbListing, bind, Except.bind, pure, Except.pure]

instance : Lawful Agreement where
  attributes := fun agreement =>
    ((Attributes.new KIND_AGREEMENT).with "provider" (.addr agreement.provider)).with "offer"
      (.key agreement.offer)
  document := fun agreement =>
    AgreementPayload.toJson
      { weiPerCall := agreement.weiPerCall
        remotePort := agreement.remotePort }
  shape := plain AgreementPayload.fields
  encode_eq := fun _ _ => rfl
  kind := fun _ => by simp; rfl
  version := fun _ => by simp
  reads := by
    intro serde record entity bytes grown isDocument isGrown shows
    have payload := payloadJson_ok (shows _ _ (by simp)) isDocument
      (AgreementPayload.ofJson?_grown isGrown)
    have provider : entity.typedAttributes.addr "provider" = .ok record.provider :=
      Attributes.addr_of_get (shows _ _ (by simp [PAYLOAD_ATTRIBUTE]))
    have offer : entity.typedAttributes.key "offer" = .ok record.offer :=
      Attributes.key_of_get (shows _ _ (by simp [PAYLOAD_ATTRIBUTE]))
    simp [Record.decodeFields, payload, provider, offer, bind, Except.bind, pure, Except.pure]

theorem stateOf_stateText (state : CounterState) : stateOf (stateText state) = .ok state := by
  cases state <;> rfl

instance : Lawful CounterRecord where
  attributes := fun record =>
    (((Attributes.new KIND_COUNTER).with "agreement" (.key record.agreement)).with "provider"
      (.addr record.provider)).with "state" (.str (stateText record.state))
  document := fun record => record.payload.toJson
  shape := plain CounterPayload.fields
  encode_eq := fun _ _ => rfl
  kind := fun _ => by simp; rfl
  version := fun _ => by simp
  reads := by
    intro serde record entity bytes grown isDocument isGrown shows
    have payload := payloadJson_ok (shows _ _ (by simp)) isDocument
      (CounterPayload.ofJson?_grown isGrown)
    have state : entity.typedAttributes.str "state" = .ok (stateText record.state) :=
      Attributes.str_of_get (shows _ _ (by simp [PAYLOAD_ATTRIBUTE]))
    have agreement : entity.typedAttributes.key "agreement" = .ok record.agreement :=
      Attributes.key_of_get (shows _ _ (by simp [PAYLOAD_ATTRIBUTE]))
    have provider : entity.typedAttributes.addr "provider" = .ok record.provider :=
      Attributes.addr_of_get (shows _ _ (by simp [PAYLOAD_ATTRIBUTE]))
    simp [Record.decodeFields, payload, state, stateOf_stateText, agreement, provider,
      CounterRecord.payload, bind, Except.bind, pure, Except.pure]

instance : Lawful Receipt where
  attributes := fun receipt =>
    ((Attributes.new KIND_RECEIPT).with "counter" (.key receipt.counter)).with "provider"
      (.addr receipt.provider)
  document := fun receipt => receipt.payload.toJson
  shape := receiptShape
  encode_eq := fun _ _ => rfl
  kind := fun _ => by simp; rfl
  version := fun _ => by simp
  reads := by
    intro serde record entity bytes grown isDocument isGrown shows
    have payload := payloadJson_ok (shows _ _ (by simp)) isDocument
      (ReceiptPayload.ofJson?_grown isGrown)
    have counter : entity.typedAttributes.key "counter" = .ok record.counter :=
      Attributes.key_of_get (shows _ _ (by simp [PAYLOAD_ATTRIBUTE]))
    have provider : entity.typedAttributes.addr "provider" = .ok record.provider :=
      Attributes.addr_of_get (shows _ _ (by simp [PAYLOAD_ATTRIBUTE]))
    simp [Record.decodeFields, payload, counter, provider, Receipt.payload, bind, Except.bind, pure,
      Except.pure]

/-- Decoding undoes encoding for every kind of record, and no two of the kinds are the same: with
more attributes and more payload fields a row decodes to the record it was written as, and as any
other kind, or at any other schema version, it is refused. -/
theorem decode_undoes_encode (serde : Serde) :
    Faithful serde LbListing ∧ Faithful serde Offer ∧ Faithful serde Agreement ∧
      Faithful serde CounterRecord ∧ Faithful serde Receipt ∧
      [Record.KIND LbListing, Record.KIND Offer, Record.KIND Agreement, Record.KIND CounterRecord,
        Record.KIND Receipt].Nodup := by
  refine ⟨?_, ?_, ?_, ?_, ?_, by decide⟩
  · exact Lawful.faithful serde LbListing
  · exact Lawful.faithful serde Offer
  · exact Lawful.faithful serde Agreement
  · exact Lawful.faithful serde CounterRecord
  · exact Lawful.faithful serde Receipt

/-! ## A row with more -/

theorem Shows.refl (attributes : Attributes) : Shows attributes attributes.toRead := by
  have all : attributes.toRead.filter (fun read => (attributes.get read.name).isSome) =
      attributes.toRead := by
    rw [List.filter_eq_self]
    intro read member
    obtain ⟨named, isNamed, rfl⟩ := List.mem_map.mp member
    have has : attributes.get named.1 = some named.2 :=
      Std.TreeMap.mem_toList_iff_getElem?_eq_some.mp isNamed
    simp [AttributeValue.toRead, has]
  rw [Shows, all]

theorem Shows.cons {attributes : Attributes} {reads : List ArkivAttribute} {read : ArkivAttribute}
    (shows : Shows attributes reads) (unknown : attributes.get read.name = none) :
    Shows attributes (read :: reads) := by
  rw [Shows, List.filter_cons_of_neg (by simp [unknown])]
  exact shows

/-- An agreement at port 20000. -/
def smallAgreement : Agreement where
  provider := 7
  offer := 9
  weiPerCall := 5
  remotePort := 20000

/-- The bytes of a text's letters. -/
def bytesOf (text : String) : List (BitVec 8) :=
  text.toList.map fun letter => BitVec.ofNat 8 letter.toNat

/-- The JSON of that agreement's payload, as text and as a document. -/
def smallSerde : Serde where
  toVec := fun _ => bytesOf "\x7b\"wei_per_call\":\"5\",\"remote_port\":20000\x7d"
  fromSlice := fun bytes =>
    if bytes = bytesOf "\x7b\"wei_per_call\":\"5\",\"remote_port\":20000\x7d" then
      some (Lawful.document smallAgreement)
    else none

/-- Its row, with an attribute that no reader knows. -/
def smallEntity : ArkivEntity where
  key := 1
  creator := 2
  createdAt := 3
  updatedAt := 3
  expiresAt := 9
  attributes :=
    { name := "added_later"
      typeTag := "i256"
      value := .null } :: (Record.encode smallSerde smallAgreement).toRead

/-- The agreement reads back. -/
theorem smallEntity_decodes :
    Record.decode Agreement smallSerde smallEntity = .ok smallAgreement := by
  have shows : Shows (Record.encode smallSerde smallAgreement) smallEntity.attributes :=
    (Shows.refl _).cons (by simp [Lawful.encode_eq, encode, Lawful.attributes, PAYLOAD_ATTRIBUTE])
  have readsBack : smallSerde.fromSlice (smallSerde.toVec (Lawful.document smallAgreement)) =
      some (Lawful.document smallAgreement) := by simp [smallSerde]
  exact (decode_undoes_encode smallSerde).2.2.1.undoes smallAgreement smallEntity readsBack shows

end Codec
end CommunityLb
