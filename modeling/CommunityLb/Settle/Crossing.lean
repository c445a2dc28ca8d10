import CommunityLb.Chain.RoundTrip
import CommunityLb.Marketplace.Agent
import CommunityLb.Settle.Ledger

/-!
# From the LB's records to settle's

A counter record is written by one program and read by another: its numbers cross as JSON numbers,
its rate as decimal text, and its close is a patch over the record as it was created.
-/

namespace CommunityLb

open Codec (AttributeValue Attributes JsonValue Serde hexText)

/-! ## What settle reads -/

mutual

/-- A document as JSON.parse gives it, its numbers doubles; none where it has a fraction or an array,
which no record writes. -/
def ofDocument? : JsonValue → Option Json
  | .null => some .null
  | .bool value => some (.bool value)
  | .integer value => some (.num (doubleOf value))
  | .string value => some (.str value)
  | .object fields => (ofFields? fields).map .obj
  | .real _ | .array _ => none

/-- The fields of a document as JSON.parse gives them. -/
def ofFields? : List (String × JsonValue) → Option (List (String × Json))
  | [] => some []
  | (name, value) :: fields =>
      match ofDocument? value, ofFields? fields with
      | some value, some fields => some ((name, value) :: fields)
      | _, _ => none

end

/-- How settle reads a payload's bytes. -/
abbrev JsonParse := List (BitVec 8) → Except String JsonValue

/-- An attribute as the SDK hands it on, its type and value as written; no record has one of 64
bits. -/
def settleValue (parse : JsonParse) : AttributeValue → Option Value
  | .str value => some (.str value)
  | .i32 value => some (.i32 value.toInt)
  | .u64 _ => none
  | .addr value => some (.addr (hexText 40 value.toNat).toList)
  | .key value => some (.key (hexText 64 value.toNat).toList)
  | .bytes value =>
      match parse value with
      | .error reason => some (.bytes (.error reason))
      | .ok document => (ofDocument? document).map fun document => .bytes (.ok document)

theorem settleValue_key (parse : JsonParse) (value : EntityKey) :
    settleValue parse (.key value) = some (.key (hexText 64 value.toNat).toList) :=
  rfl

theorem settleValue_addr (parse : JsonParse) (value : Address) :
    settleValue parse (.addr value) = some (.addr (hexText 40 value.toNat).toList) :=
  rfl

/-- An entity's row as settle reads it. -/
def settleRow (parse : JsonParse) (key : EntityKey) (creator : Address) (attributes : Attributes) :
    Row where
  key := (hexText 64 key.toNat).toList
  creator := (hexText 40 creator.toNat).toList
  attributes := attributes.map.toList.filterMap fun named =>
    (settleValue parse named.2).map fun value => (named.1, value)

/-- The attributes of an entity after a patch sets some. -/
def Codec.Attributes.patch (held set : Attributes) : Attributes where
  map := held.map ∪ set.map

/-! ## What the LB writes -/

/-- A counter record with its numbers in the width they are written in. -/
def CounterRecord.wide (record : CounterRecord) : Codec.CounterRecord where
  agreement := record.agreement
  provider := record.provider
  state := record.state
  count := BitVec.ofNat 64 record.count
  weiPerCall := record.weiPerCall
  openedBlock := BitVec.ofNat 64 record.openedBlock
  closedBlock := record.closedBlock.map (BitVec.ofNat 64)

/-- The attributes that the patch of a record sets: the payload, and the state with a close. -/
def patchSet (serde : Serde) (record : CounterRecord) : Attributes :=
  (Codec.Record.encode serde record.wide).keep
    (match record.state with
    | .opened => [Codec.PAYLOAD_ATTRIBUTE]
    | .closed => [Codec.PAYLOAD_ATTRIBUTE, "state"])

/-- A record as it was created, with whatever count the flushes wrote. -/
def CounterRecord.Continues (record created : CounterRecord) : Prop :=
  ∃ count, record = { created with count := count }

/-- The writes that close a record. -/
inductive Closes (created : CounterRecord) : Operation → Prop where
  /-- A settlement period is over. -/
  | period (agent : Agent) (counters : Counters) (head : Nat) (flush : Flush) (live : Live)
      (stored : Stored CounterRecord) (write : Operation) (closing : Closing)
      (isOpen : counters.opened.get? live.key = some stored)
      (continues : stored.record.Continues created)
      (isOver : agent.countsOf counters head flush live = (some write, some closing)) :
      Closes created write
  /-- No live agreement counts into the record. -/
  | stray (head : Nat) (stray : Stored CounterRecord) (continues : stray.record.Continues created)
      (counts : stray.record.count ≠ 0) : Closes created (Agent.strayWrite head stray)
  /-- The record's agreement ended. -/
  | atEnd (head : Nat) (ended : Ended)
      (isCreated : created = freshCounter ended.agreement.key ended.agreement.record
        ended.agreement.record.weiPerCall ended.counter.openedBlock)
      (counts : ended.served ≠ 0) : Closes created (finalWrite head ended)

/-- Whichever way it is closed, a record is what it was created as, with a count and the head. -/
theorem Closes.patch {created : CounterRecord} {write : Operation} (closes : Closes created write) :
    ∃ key count head, write = patchRecord key (closed created count head) := by
  cases closes with
  | period agent counters head flush live stored write closing isOpen continues isOver =>
      obtain ⟨counted, isRecord⟩ := continues
      refine ⟨stored.key, agent.pool.served live.provider, head, ?_⟩
      simp only [Agent.countsOf, isOpen] at isOver
      split at isOver
      · cases isOver
        rw [isRecord]
        rfl
      · split at isOver <;> cases isOver
  | stray head stray continues counts =>
      obtain ⟨counted, isRecord⟩ := continues
      refine ⟨stray.key, stray.record.count, head, ?_⟩
      rw [Agent.strayWrite, if_neg counts, isRecord]
      rfl
  | atEnd head ended isCreated counts =>
      refine ⟨ended.counter.key, ended.served, head, ?_⟩
      rw [finalWrite, if_neg counts, isCreated]
      rfl

/-! ## What is read of it -/

@[simp]
theorem Codec.Attributes.get_patch (held set : Attributes) (name : String) :
    (held.patch set).get name = (set.get name).or (held.get name) := by
  simp [Attributes.patch, Attributes.get, Std.TreeMap.getElem?_union]

@[simp]
theorem Codec.Attributes.get_keep (attributes : Attributes) (names : List String) (name : String) :
    (attributes.keep names).get name =
      if names.contains name then attributes.get name else none := by
  have filtered : (attributes.keep names).get name =
      (attributes.get name).filter fun _ => names.contains name := by
    simp [Attributes.keep, Attributes.get]
  rw [filtered]
  cases attributes.get name with
  | none => simp
  | some value => simp [Option.filter_some]

/-- Of entries by name, a name's own is found among what they turn into. -/
theorem lookup_filterMap {parse : JsonParse} {entries : List (String × AttributeValue)}
    {name : String} {value : AttributeValue} {shown : Value}
    (only : entries.filter (fun named => named.1 = name) = [(name, value)])
    (isShown : settleValue parse value = some shown) :
    (entries.filterMap fun named =>
      (settleValue parse named.2).map fun value => (named.1, value)).lookup name = some shown := by
  induction entries with
  | nil => cases only
  | cons named entries ih =>
      by_cases same : named.1 = name
      · rw [List.filter_cons_of_pos (by simpa using same), List.cons.injEq] at only
        obtain ⟨rfl, _⟩ := only
        rw [List.filterMap_cons]
        simp only [isShown, Option.map_some]
        exact List.lookup_cons_self
      · rw [List.filter_cons_of_neg (by simpa using same)] at only
        have unlike : (name == named.1) = false := by
          simpa using fun same' : name = named.1 => same same'.symm
        cases isOther : settleValue parse named.2 with
        | none =>
            rw [List.filterMap_cons]
            simp only [isOther, Option.map_none]
            exact ih only
        | some other =>
            rw [List.filterMap_cons]
            simp only [isOther, Option.map_some]
            rw [List.lookup_cons, unlike]
            exact ih only

/-- A row has what settle reads of each attribute. -/
theorem settleRow_lookup {parse : JsonParse} {key : EntityKey} {creator : Address}
    {attributes : Attributes} {name : String} {value : AttributeValue} {shown : Value}
    (has : attributes.get name = some value) (isShown : settleValue parse value = some shown) :
    (settleRow parse key creator attributes).attributes.lookup name = some shown :=
  lookup_filterMap (Codec.Attributes.toList_filter has) isShown

/-- The attributes of a record as it stands once it is closed. -/
def closedAttributes (serde : Serde) (created record : CounterRecord) : Attributes :=
  (Codec.Record.encode serde created.wide).patch (patchSet serde record)

section Closed

variable (serde : Serde) (created : CounterRecord) (count head : Nat)

theorem closedAttributes_agreement :
    (closedAttributes serde created (closed created count head)).get "agreement" =
      some (.key created.agreement) := by
  simp [closedAttributes, patchSet, closed, Codec.Record.encode, Codec.encode,
    CounterRecord.wide, Codec.PAYLOAD_ATTRIBUTE]

theorem closedAttributes_provider :
    (closedAttributes serde created (closed created count head)).get "provider" =
      some (.addr created.provider) := by
  simp [closedAttributes, patchSet, closed, Codec.Record.encode, Codec.encode,
    CounterRecord.wide, Codec.PAYLOAD_ATTRIBUTE]

theorem closedAttributes_payload :
    (closedAttributes serde created (closed created count head)).get "payload" =
      some (.bytes (serde.toVec (closed created count head).wide.payload.toJson)) := by
  simp [closedAttributes, patchSet, closed, Codec.Record.encode, Codec.encode,
    CounterRecord.wide, Codec.PAYLOAD_ATTRIBUTE, Codec.CounterRecord.payload]

end Closed

/-- A closed record's payload as settle reads it. -/
def closedDocument (created : CounterRecord) (count head : Nat) : Json :=
  .obj [("count", .num count), ("wei_per_call", .str (Nat.repr created.weiPerCall.toNat)),
    ("opened_block", .num created.openedBlock), ("closed_block", .num head)]

/-- Settle reads a closed record's payload as it was written, its numbers below 2^53. -/
theorem ofDocument?_closed {created : CounterRecord} {count head : Nat} (countFits : count < 2 ^ 53)
    (openedFits : created.openedBlock < 2 ^ 53) (headFits : head < 2 ^ 53) :
    ofDocument? (closed created count head).wide.payload.toJson =
      some (closedDocument created count head) := by
  have exact_ : ∀ number : Nat, number < 2 ^ 53 →
      doubleOf ((BitVec.ofNat 64 number).toNat : Int) = number := by
    intro number fits
    have narrow : (BitVec.ofNat 64 number).toNat = number := by
      rw [BitVec.toNat_ofNat]
      exact Nat.mod_eq_of_lt (fits.trans (by decide))
    rw [narrow]
    exact doubleOf_small (by simpa using fits)
  simp only [closed, CounterRecord.wide, Codec.CounterRecord.payload, Codec.CounterPayload.toJson,
    Option.map_some, List.cons_append, List.nil_append, ofDocument?, ofFields?, Codec.unsignedJson,
    Codec.weiJson, exact_ count countFits, exact_ created.openedBlock openedFits,
    exact_ head headFits, closedDocument]

/-- The numbers of a closed record's payload. -/
theorem closedDocument_numbers (created : CounterRecord) (count head : Nat) :
    (closedDocument created count head).HasNumber "count" count ∧
      (closedDocument created count head).HasNumber "wei_per_call" created.weiPerCall.toNat ∧
      (closedDocument created count head).HasNumber "opened_block" created.openedBlock ∧
      (closedDocument created count head).HasNumber "closed_block" head := by
  refine ⟨⟨some (.num count), ?_, rfl⟩, ⟨some (.str (Nat.repr created.weiPerCall.toNat)), ?_, ?_⟩,
    ⟨some (.num created.openedBlock), ?_, rfl⟩, ⟨some (.num head), ?_, rfl⟩⟩
  · simp [closedDocument, Json.field?]
  · simp [closedDocument, Json.field?, List.lookup_cons]
  · simp only [bigInt, bigInt?_repr]
  · simp [closedDocument, Json.field?, List.lookup_cons]
  · simp [closedDocument, Json.field?, List.lookup_cons]

/-- What settle takes a closed record to be. -/
structure Counter.Reads (counter : Counter) (key : EntityKey) (record : CounterRecord) : Prop where
  key : counter.key = (hexText 64 key.toNat).toList
  agreement : counter.agreement = (hexText 64 record.agreement.toNat).toList
  provider : counter.provider = (hexText 40 record.provider.toNat).toList
  count : counter.count = record.count
  weiPerCall : counter.weiPerCall = record.weiPerCall.toNat
  openedBlock : counter.openedBlock = record.openedBlock
  closedBlock : record.closedBlock.map Int.ofNat = some counter.closedBlock

/-- A closed record as settle reads it. -/
def settleCounter (key : EntityKey) (created : CounterRecord) (count head : Nat) : Counter where
  key := (hexText 64 key.toNat).toList
  agreement := (hexText 64 created.agreement.toNat).toList
  provider := (hexText 40 created.provider.toNat).toList
  count := count
  weiPerCall := created.weiPerCall.toNat
  openedBlock := created.openedBlock
  closedBlock := head

theorem settleCounter_reads (key : EntityKey) (created : CounterRecord) (count head : Nat) :
    (settleCounter key created count head).Reads key (closed created count head) := by
  constructor <;> simp [settleCounter, closed]

/-- Settle decodes a closed record to what was closed. -/
theorem decodeCounter_closed {serde : Serde} {parse : JsonParse} {created : CounterRecord}
    {count head : Nat} (key : EntityKey) (creator : Address)
    (reads : parse (serde.toVec (closed created count head).wide.payload.toJson) =
      .ok (closed created count head).wide.payload.toJson)
    (countFits : count < 2 ^ 53) (openedFits : created.openedBlock < 2 ^ 53)
    (headFits : head < 2 ^ 53) :
    decodeCounter (settleRow parse key creator
      (closedAttributes serde created (closed created count head))) =
        .ok (settleCounter key created count head) := by
  have document := ofDocument?_closed countFits openedFits headFits
  have numbers := closedDocument_numbers created count head
  have payload : settleValue parse
      (.bytes (serde.toVec (closed created count head).wide.payload.toJson)) =
        some (.bytes (.ok (closedDocument created count head))) := by
    simp only [settleValue, reads, document, Option.map_some]
  have agreement : (settleRow parse key creator (closedAttributes serde created
      (closed created count head))).attributes.lookup "agreement" =
        some (.key (hexText 64 created.agreement.toNat).toList) :=
    settleRow_lookup (closedAttributes_agreement serde created count head)
      (settleValue_key parse created.agreement)
  have provider : (settleRow parse key creator (closedAttributes serde created
      (closed created count head))).attributes.lookup "provider" =
        some (.addr (hexText 40 created.provider.toNat).toList) :=
    settleRow_lookup (closedAttributes_provider serde created count head)
      (settleValue_addr parse created.provider)
  apply decodeCounter_iff.mpr
  refine ⟨closedDocument created count head, ?_⟩
  constructor
  · simp only [settleCounter, settleRow]
  · exact settleRow_lookup (closedAttributes_payload serde created count head) payload
  · simp only [settleCounter, agreement]
  · simp only [settleCounter, provider]
  · exact numbers.1
  · exact numbers.2.1
  · exact numbers.2.2.1
  · exact numbers.2.2.2

/-- A receipt reads back as naming its record, with its amount. -/
theorem decodeReceipt_receiptFor {counter : Counter} (payable : 0 ≤ amountOf counter)
    (payout : Payout) (key creator : Hex) :
    ∃ receipt, decodeReceipt
        { key := key
          creator := creator
          attributes := (receiptFor counter payout).attributes } = .ok receipt ∧
      receipt.counter = counter.key ∧ receipt.provider = counter.provider ∧
      receipt.amountWei = amountOf counter := by
  obtain ⟨amount, isAmount⟩ := Int.eq_ofNat_of_zero_le payable
  have text : toString (amountOf counter) = Nat.repr amount := by
    rw [isAmount]
    rfl
  refine ⟨
    { key := key
      counter := counter.key
      provider := counter.provider
      amountWei := amountOf counter
      payout := (some (.num payout.chainId), some (.str payout.tx.text)) },
    decodeReceipt_iff.mpr ⟨(receiptFor counter payout).payload.json, ?_⟩, rfl, rfl, rfl⟩
  constructor
  · rfl
  · rfl
  · rfl
  · rfl
  · refine ⟨some (.str (toString (amountOf counter))), rfl, ?_⟩
    rw [text]
    simp only [bigInt, bigInt?_repr, isAmount]
  · exact ⟨_, rfl, rfl, rfl⟩

/-- What the LB closes is what settle pays: whichever way a record is closed over what it was created
as, settle reads it as it was closed, owes its count at its rate, and its receipt carries both and
names it. -/
theorem closed_is_paid (serde : Serde) (parse : JsonParse) {created : CounterRecord}
    {write : Operation} (closes : Closes created write) (key : EntityKey) (creator : Address) :
    ∃ target count head record, write = patchRecord target record ∧
      record = closed created count head ∧
      (parse (serde.toVec record.wide.payload.toJson) = .ok record.wide.payload.toJson →
        count < 2 ^ 53 → record.openedBlock < 2 ^ 53 → head < 2 ^ 53 →
        ∃ counter, decodeCounter (settleRow parse key creator
            (closedAttributes serde created record)) = .ok counter ∧
          counter.Reads key record ∧
          amountOf counter = record.count * record.weiPerCall.toNat ∧
          ∀ (payout : Payout) (receiptKey payer : Hex),
            (receiptFor counter payout).payload =
              { agreement := counter.agreement
                count := record.count
                weiPerCall := record.weiPerCall.toNat
                amountWei := record.count * record.weiPerCall.toNat
                payout := payout } ∧
            ∃ receipt, decodeReceipt
                { key := receiptKey
                  creator := payer
                  attributes := (receiptFor counter payout).attributes } = .ok receipt ∧
              receipt.counter = counter.key ∧ receipt.provider = counter.provider ∧
              receipt.amountWei = record.count * record.weiPerCall.toNat) := by
  obtain ⟨target, count, head, isWrite⟩ := closes.patch
  refine ⟨target, count, head, closed created count head, isWrite, rfl, ?_⟩
  intro reads countFits openedFits headFits
  have decoded := decodeCounter_closed key creator reads countFits openedFits headFits
  have isRead := settleCounter_reads key created count head
  generalize settleCounter key created count head = counter at decoded isRead
  have amount : amountOf counter = (closed created count head).count *
      ((closed created count head).weiPerCall.toNat : Int) := by
    rw [amountOf, isRead.count, isRead.weiPerCall]
  refine ⟨counter, decoded, isRead, amount, fun payout receiptKey payer => ⟨?_, ?_⟩⟩
  · have whole : doubleOf ((closed created count head).count : Int) =
        (closed created count head).count := doubleOf_small (by simpa [closed] using countFits)
    rw [receiptFor, isRead.count, isRead.weiPerCall, whole]
  · obtain ⟨receipt, isReceipt, named, provider, carries⟩ := decodeReceipt_receiptFor
      (by rw [amount]; positivity) payout receiptKey payer
    exact ⟨receipt, isReceipt, named, provider, carries.trans amount⟩

/-! ## An agreement's end -/

/-- An agreement that ends at head 40, three calls after its record opened. -/
def threeServed : Ended where
  agreement :=
    { key := 6
      creator := 2
      createdAt := 9
      expiresAt := 90
      record :=
        { provider := 7
          offer := 8
          weiPerCall := 5
          remotePort := 20000 } }
  counter :=
    { key := 3
      openedBlock := 10 }
  served := 3

/-- Its record as it opened. -/
def openedAtTen : CounterRecord :=
  freshCounter 6 threeServed.agreement.record 5 10

/-- The closed record's payload as it is written. -/
def closedText : List (BitVec 8) :=
  Codec.bytesOf
    "\x7b\"count\":3,\"wei_per_call\":\"5\",\"opened_block\":10,\"closed_block\":40\x7d"

/-- That text and its document. -/
def closedSerde : Serde where
  toVec := fun _ => closedText
  fromSlice := fun bytes =>
    if bytes = closedText then some (closed openedAtTen 3 40).wide.payload.toJson else none

def closedParse (bytes : List (BitVec 8)) : Except String JsonValue :=
  if bytes = closedText then .ok (closed openedAtTen 3 40).wide.payload.toJson
  else .error "Unexpected token"

/-- The final write closes the record, and settle owes 15 for it. -/
theorem threeServed_owed : ∃ counter, decodeCounter
    (settleRow closedParse 3 2
      (closedAttributes closedSerde openedAtTen (closed openedAtTen 3 40))) = .ok counter ∧
    amountOf counter = 15 := by
  have closes : Closes openedAtTen (finalWrite 40 threeServed) :=
    .atEnd 40 threeServed rfl (by decide)
  obtain ⟨target, count, head, record, isWrite, rfl, paid⟩ :=
    closed_is_paid closedSerde closedParse closes 3 2
  obtain ⟨rfl, rfl⟩ : 3 = count ∧ 40 = head := by
    have same : finalWrite 40 threeServed = patchRecord target (closed openedAtTen count head) :=
      isWrite
    simp [finalWrite, threeServed, patchRecord, closed, CounterRecord.payload] at same
    exact ⟨same.2.1, same.2.2.2.2⟩
  have reads : closedParse (closedSerde.toVec (closed openedAtTen 3 40).wide.payload.toJson) =
      .ok (closed openedAtTen 3 40).wide.payload.toJson := by
    simp [closedParse, closedSerde]
  obtain ⟨counter, decoded, _, amount, _⟩ := paid reads (by decide) (by decide) (by decide)
  exact ⟨counter, decoded, amount⟩

end CommunityLb
