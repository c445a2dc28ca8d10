import CommunityLb.Config
import CommunityLb.Lib.JsNumber

/-!
# The records settle reads and writes

The LB's counter records and settle's own receipts, as rows of attributes.  A payload is the JSON
document its bytes parse to.
-/

namespace CommunityLb

/-- A hex string; the node and the configuration differ in the case of its letters. -/
abbrev Hex := List Char

instance : LawfulBEq Hex :=
  inferInstance

/-- Its letters lowercase. -/
def Hex.toLowerCase (text : Hex) : Hex :=
  text.map Char.toLower

theorem Hex.toLowerCase_toLowerCase (text : Hex) :
    text.toLowerCase.toLowerCase = text.toLowerCase := by
  have letter : ∀ c : Char, c.toLower.toLower = c.toLower := by
    intro c
    simp only [Char.toLower]
    split
    · next isUpper =>
        rw [dif_neg]
        simp only [UInt32.le_iff_toNat_le, UInt32.toNat_add] at isUpper ⊢
        simp only [Char.reduceVal, UInt32.reduceToNat, UInt32.reduceSub] at isUpper ⊢
        omega
    · rfl
  simp [Hex.toLowerCase, letter]

/-- Its text. -/
def Hex.text (hex : Hex) : String :=
  String.ofList hex

/-- A JSON document, its numbers whole. -/
inductive Json where
  | null
  | bool (value : Bool)
  | num (value : Int)
  | str (value : String)
  | obj (fields : List (String × Json))

/-- A field of a document, if any; a null has none to be asked for. -/
def Json.field? (document : Json) (name : String) : Except String (Option Json) :=
  match document with
  | .null => .error ("Cannot read properties of null (reading '" ++ name ++ "')")
  | .obj fields => .ok (fields.lookup name)
  | _ => .ok none

/-- A big integer from a document's field. -/
def bigInt : Option Json → Except String Int
  | some (.num value) => .ok value
  | some (.bool value) => .ok (if value then 1 else 0)
  | some (.str value) =>
      match bigInt? value.toList with
      | some number => .ok number
      | none => .error ("Cannot convert " ++ value ++ " to a BigInt")
  | some .null => .error "Cannot convert null to a BigInt"
  | some (.obj _) => .error "Cannot convert [object Object] to a BigInt"
  | none => .error "Cannot convert undefined to a BigInt"

/-- A decoded attribute. -/
inductive Value where
  | str (value : String)
  | i32 (value : Int)
  | addr (value : Hex)
  | key (value : Hex)
  /-- The document the bytes parse to, or why they do not. -/
  | bytes (document : Except String Json)

namespace Value

/-- The node's type tag. -/
def type : Value → String
  | str _ => "str"
  | i32 _ => "i32"
  | addr _ => "addr"
  | key _ => "key"
  | bytes _ => "bytes"

/-- The hex string of an address or a key. -/
def hex : Value → Hex
  | addr value | key value => value
  | _ => []

/-- The same value, whatever the case it is rendered in. -/
def Renders : Value → Value → Prop
  | addr value, addr shown => shown.toLowerCase = value
  | key value, key shown => shown.toLowerCase = value
  | str value, str shown => shown = value
  | i32 value, i32 shown => shown = value
  | bytes document, bytes shown => shown = document
  | _, _ => False

end Value

/-- A row as settle reads it: the entity's key and creator, and its attributes by name. -/
structure Row where
  key : Hex
  creator : Hex
  attributes : List (String × Value)

def SCHEMA_VERSION : Int :=
  1

/-- The kinds settle reads. -/
def KIND.counter : String :=
  "rpc.counter"

def KIND.receipt : String :=
  "rpc.receipt"

/-! ## Queries -/

/-- A condition of a query beside the kind and the version. -/
inductive Condition where
  | creator (address : Hex)
  | attrAddr (name : String) (address : Hex)
  | attrStr (name value : String)
  deriving DecidableEq, Repr

/-- A kind at this schema version, and more conditions. -/
structure RowQuery where
  kind : String
  conditions : List Condition
  deriving DecidableEq, Repr

/-- The query of a kind: a record written by newer code never takes a row. -/
def byKind (kind : String) (conditions : List Condition) : RowQuery where
  kind := kind
  conditions := conditions

/-! ## Reading -/

/-- An attribute of a type. -/
def attributeOf (row : Row) (name type : String) : Except String Value :=
  match row.attributes.lookup name with
  | some value =>
      if value.type = type then .ok value
      else .error ("record " ++ row.key.text ++ " has no " ++ type ++ " attribute " ++ name)
  | none => .error ("record " ++ row.key.text ++ " has no " ++ type ++ " attribute " ++ name)

/-- A record's document. -/
def payloadJson (row : Row) : Except String Json :=
  match row.attributes.lookup "payload" with
  | some (.bytes document) => document
  | _ => .error ("record " ++ row.key.text ++ " came without its payload")

/-- One settlement period of one agreement, closed and payable. -/
structure Counter where
  key : Hex
  agreement : Hex
  provider : Hex
  count : Int
  weiPerCall : Int
  openedBlock : Int
  closedBlock : Int
  deriving DecidableEq, Repr

/-- A closed counter record from its row. -/
def decodeCounter (row : Row) : Except String Counter := do
  let payload ← payloadJson row
  let closed ← payload.field? "closed_block"
  match closed with
  | none | some .null =>
      .error ("counter record " ++ row.key.text ++ " is closed but names no closing block")
  | some closed =>
      let agreement ← attributeOf row "agreement" "key"
      let provider ← attributeOf row "provider" "addr"
      let count ← bigInt (← payload.field? "count")
      let weiPerCall ← bigInt (← payload.field? "wei_per_call")
      let openedBlock ← bigInt (← payload.field? "opened_block")
      let closedBlock ← bigInt (some closed)
      return {
        key := row.key
        agreement := agreement.hex
        provider := provider.hex
        count := count
        weiPerCall := weiPerCall
        openedBlock := openedBlock
        closedBlock := closedBlock }

/-- The transfer a receipt names. -/
structure Payout where
  chainId : Int
  tx : Hex
  deriving DecidableEq, Repr

/-- Settle's own record that one counter record was paid. -/
structure Receipt where
  key : Hex
  counter : Hex
  provider : Hex
  amountWei : Int
  /-- The chain and the transaction as the payload has them, unchecked. -/
  payout : Option Json × Option Json

/-- A receipt from its row. -/
def decodeReceipt (row : Row) : Except String Receipt := do
  let payload ← payloadJson row
  let payout ← payload.field? "payout"
  let counter ← attributeOf row "counter" "key"
  let provider ← attributeOf row "provider" "addr"
  let amountWei ← bigInt (← payload.field? "amount_wei")
  match payout with
  | none => .error "Cannot read properties of undefined (reading 'chain_id')"
  | some payout =>
      let chainId ← payout.field? "chain_id"
      let tx ← payout.field? "tx"
      return {
        key := row.key
        counter := counter.hex
        provider := provider.hex
        amountWei := amountWei
        payout := (chainId, tx) }

/-! ## Writing -/

/-- The chain's longest lifetime, in blocks. -/
def RECEIPT_LIFE_BLOCKS : Nat :=
  7884000

/-- What a receipt was paid for. -/
structure ReceiptPayload where
  agreement : Hex
  count : Int
  weiPerCall : Int
  amountWei : Int
  payout : Payout
  deriving DecidableEq, Repr

/-- The document of a receipt, its amounts in wei as decimal text. -/
def ReceiptPayload.json (payload : ReceiptPayload) : Json :=
  .obj [("agreement", .str payload.agreement.text), ("count", .num payload.count),
    ("wei_per_call", .str (toString payload.weiPerCall)),
    ("amount_wei", .str (toString payload.amountWei)),
    ("payout", .obj [("chain_id", .num payload.payout.chainId),
      ("tx", .str payload.payout.tx.text)])]

/-- A receipt as settle writes it: the whole create, nothing added later. -/
structure ReceiptRecord where
  kind : String
  v : Int
  counter : Hex
  provider : Hex
  payload : ReceiptPayload
  lifeBlocks : Nat
  readonly : Bool
  deriving DecidableEq, Repr

/-- The receipt for one counter record, paid in full by one transfer.  The count is a double. -/
def receiptFor (record : Counter) (payout : Payout) : ReceiptRecord where
  kind := KIND.receipt
  v := SCHEMA_VERSION
  counter := record.key
  provider := record.provider
  payload :=
    { agreement := record.agreement
      count := doubleOf record.count
      weiPerCall := record.weiPerCall
      amountWei := record.count * record.weiPerCall
      payout := payout }
  lifeBlocks := RECEIPT_LIFE_BLOCKS
  readonly := true

/-- Its attributes. -/
def ReceiptRecord.attributes (receipt : ReceiptRecord) : List (String × Value) :=
  [("kind", .str receipt.kind), ("v", .i32 receipt.v), ("counter", .key receipt.counter),
    ("provider", .addr receipt.provider), ("payload", .bytes (.ok receipt.payload.json))]

/-! ## Reading back -/

/-- A computation that gives a value gives one at each of its steps. -/
theorem except_bind_ok {ε α β : Type} {first : Except ε α} {rest : α → Except ε β} {value : β} :
    first >>= rest = .ok value ↔ ∃ middle, first = .ok middle ∧ rest middle = .ok value := by
  cases first with
  | error reason => simp [bind, Except.bind]
  | ok middle => simp [bind, Except.bind]

theorem attributeOf_ok {row : Row} {name type : String} {value : Value}
    (found : attributeOf row name type = .ok value) :
    row.attributes.lookup name = some value ∧ value.type = type := by
  simp only [attributeOf] at found
  split at found
  · next isValue =>
      split at found
      · next isType =>
          cases found
          exact ⟨isValue, isType⟩
      · cases found
  · cases found

theorem attributeOf_key {row : Row} {name : String} {value : Value} :
    attributeOf row name "key" = .ok value ↔
      ∃ key, value = .key key ∧ row.attributes.lookup name = some (.key key) := by
  constructor
  · intro found
    obtain ⟨isValue, isKey⟩ := attributeOf_ok found
    cases value with
    | key text => exact ⟨text, rfl, isValue⟩
    | _ => simp [Value.type] at isKey
  · rintro ⟨key, rfl, found⟩
    simp [attributeOf, found, Value.type]

theorem attributeOf_addr {row : Row} {name : String} {value : Value} :
    attributeOf row name "addr" = .ok value ↔
      ∃ address, value = .addr address ∧ row.attributes.lookup name = some (.addr address) := by
  constructor
  · intro found
    obtain ⟨isValue, isAddr⟩ := attributeOf_ok found
    cases value with
    | addr text => exact ⟨text, rfl, isValue⟩
    | _ => simp [Value.type] at isAddr
  · rintro ⟨address, rfl, found⟩
    simp [attributeOf, found, Value.type]

theorem payloadJson_ok {row : Row} {payload : Json} :
    payloadJson row = .ok payload ↔ row.attributes.lookup "payload" = some (.bytes (.ok payload)) := by
  simp only [payloadJson]
  split
  · next document found => simp [found]
  · next unlike =>
      simp only [reduceCtorEq, false_iff]
      exact unlike _

/-- A field of a document is this number. -/
def Json.HasNumber (document : Json) (name : String) (number : Int) : Prop :=
  ∃ field, document.field? name = .ok field ∧ bigInt field = .ok number

/-- A row decodes to a counter where it has its attributes and its payload's fields. -/
structure Counter.Of (row : Row) (counter : Counter) (document : Json) : Prop where
  key : counter.key = row.key
  payload : row.attributes.lookup "payload" = some (.bytes (.ok document))
  agreement : row.attributes.lookup "agreement" = some (.key counter.agreement)
  provider : row.attributes.lookup "provider" = some (.addr counter.provider)
  count : document.HasNumber "count" counter.count
  weiPerCall : document.HasNumber "wei_per_call" counter.weiPerCall
  openedBlock : document.HasNumber "opened_block" counter.openedBlock
  closedBlock : document.HasNumber "closed_block" counter.closedBlock

/-- A row decodes to a counter where it has its attributes and its payload's fields. -/
theorem decodeCounter_iff {row : Row} {counter : Counter} :
    decodeCounter row = .ok counter ↔ ∃ payload, counter.Of row payload := by
  constructor
  · intro decoded
    simp only [decodeCounter, except_bind_ok] at decoded
    obtain ⟨payload, isPayload, closed, isClosed, decoded⟩ := decoded
    split at decoded
    · cases decoded
    · cases decoded
    · simp only [except_bind_ok] at decoded
      obtain ⟨_, isAgreement, _, isProvider, _, countField, _, isCount, _, weiField, _, isWei, _,
        openedField, _, isOpened, _, isClosedBlock, decoded⟩ := decoded
      obtain ⟨agreement, rfl, hasAgreement⟩ := attributeOf_key.mp isAgreement
      obtain ⟨provider, rfl, hasProvider⟩ := attributeOf_addr.mp isProvider
      cases decoded
      refine ⟨payload, ?_⟩
      constructor
      · rfl
      · exact payloadJson_ok.mp isPayload
      · exact hasAgreement
      · exact hasProvider
      · exact ⟨_, countField, isCount⟩
      · exact ⟨_, weiField, isWei⟩
      · exact ⟨_, openedField, isOpened⟩
      · exact ⟨_, isClosed, isClosedBlock⟩
  · rintro ⟨payload, isOf⟩
    obtain ⟨countField, isCountField, isCount⟩ := isOf.count
    obtain ⟨weiField, isWeiField, isWei⟩ := isOf.weiPerCall
    obtain ⟨openedField, isOpenedField, isOpened⟩ := isOf.openedBlock
    obtain ⟨closedField, isClosedField, isClosed⟩ := isOf.closedBlock
    have agreement := attributeOf_key.mpr ⟨_, rfl, isOf.agreement⟩
    have provider := attributeOf_addr.mpr ⟨_, rfl, isOf.provider⟩
    simp only [decodeCounter, except_bind_ok]
    refine ⟨payload, payloadJson_ok.mpr isOf.payload, closedField, isClosedField, ?_⟩
    split
    · cases isClosed
    · cases isClosed
    · next closed _ =>
        simp only [except_bind_ok]
        refine ⟨_, agreement, _, provider, _, isCountField, _, isCount, _, isWeiField, _, isWei, _,
          isOpenedField, _, isOpened, _, isClosed, ?_⟩
        rw [Value.hex, Value.hex, ← isOf.key]
        rfl

/-- A decoded counter names its row and its row's provider. -/
theorem decodeCounter_ok {row : Row} {counter : Counter} (decoded : decodeCounter row = .ok counter) :
    counter.key = row.key ∧ row.attributes.lookup "provider" = some (.addr counter.provider) := by
  obtain ⟨_, isOf⟩ := decodeCounter_iff.mp decoded
  exact ⟨isOf.key, isOf.provider⟩

/-- A row decodes to a receipt where it has its attributes and its payload's fields. -/
structure Receipt.Of (row : Row) (receipt : Receipt) (document : Json) : Prop where
  key : receipt.key = row.key
  payload : row.attributes.lookup "payload" = some (.bytes (.ok document))
  counter : row.attributes.lookup "counter" = some (.key receipt.counter)
  provider : row.attributes.lookup "provider" = some (.addr receipt.provider)
  amountWei : document.HasNumber "amount_wei" receipt.amountWei
  payout : ∃ payout, document.field? "payout" = .ok (some payout) ∧
    payout.field? "chain_id" = .ok receipt.payout.1 ∧ payout.field? "tx" = .ok receipt.payout.2

/-- A row decodes to a receipt where it has its attributes and its payload's fields. -/
theorem decodeReceipt_iff {row : Row} {receipt : Receipt} :
    decodeReceipt row = .ok receipt ↔ ∃ payload, receipt.Of row payload := by
  constructor
  · intro decoded
    simp only [decodeReceipt, except_bind_ok] at decoded
    obtain ⟨payload, isPayload, payout, isPayout, _, isCounter, _, isProvider, _, amountField, _,
      isAmount, decoded⟩ := decoded
    obtain ⟨counter, rfl, hasCounter⟩ := attributeOf_key.mp isCounter
    obtain ⟨provider, rfl, hasProvider⟩ := attributeOf_addr.mp isProvider
    split at decoded
    · cases decoded
    · next payout =>
        simp only [except_bind_ok] at decoded
        obtain ⟨_, isChain, _, isTx, decoded⟩ := decoded
        cases decoded
        refine ⟨payload, ?_⟩
        constructor
        · rfl
        · exact payloadJson_ok.mp isPayload
        · exact hasCounter
        · exact hasProvider
        · exact ⟨_, amountField, isAmount⟩
        · exact ⟨payout, isPayout, isChain, isTx⟩
  · rintro ⟨payload, isOf⟩
    obtain ⟨amountField, isAmountField, isAmount⟩ := isOf.amountWei
    obtain ⟨payout, isPayout, isChain, isTx⟩ := isOf.payout
    have counter := attributeOf_key.mpr ⟨_, rfl, isOf.counter⟩
    have provider := attributeOf_addr.mpr ⟨_, rfl, isOf.provider⟩
    simp only [decodeReceipt, except_bind_ok]
    refine ⟨payload, payloadJson_ok.mpr isOf.payload, _, isPayout, _, counter, _, provider, _,
      isAmountField, _, isAmount, ?_⟩
    simp only [except_bind_ok]
    refine ⟨_, isChain, _, isTx, ?_⟩
    rw [Value.hex, Value.hex, ← isOf.key]
    rfl

/-- A decoded receipt names the counter record and the provider of its row. -/
theorem decodeReceipt_ok {row : Row} {receipt : Receipt} (decoded : decodeReceipt row = .ok receipt) :
    row.attributes.lookup "counter" = some (.key receipt.counter) ∧
      row.attributes.lookup "provider" = some (.addr receipt.provider) := by
  obtain ⟨_, isOf⟩ := decodeReceipt_iff.mp decoded
  exact ⟨isOf.counter, isOf.provider⟩

end CommunityLb
