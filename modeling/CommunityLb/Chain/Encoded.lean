import CommunityLb.Chain.Codec

/-!
# The five records

Each record, what of it is attributes and what is payload, and how it is read back.
-/

namespace CommunityLb
namespace Codec

/-- An amount in wei as it is written: JSON numbers cannot carry it. -/
def weiJson (amount : Wei) : JsonValue :=
  .string (Nat.repr amount.toNat)

/-- An unsigned number as it is written. -/
def unsignedJson {width : Nat} (number : BitVec width) : JsonValue :=
  .integer number.toNat

/-! ## The LB listing -/

structure LbListing where
  weiPerCall : Wei
  tunnelServer : String
  maxProviders : BitVec 32
  deriving DecidableEq, Repr

namespace LbListing

def fields : List String :=
  ["wei_per_call", "tunnel_server", "max_providers"]

def toJson (listing : LbListing) : JsonValue :=
  .object [("wei_per_call", weiJson listing.weiPerCall),
    ("tunnel_server", .string listing.tunnelServer),
    ("max_providers", unsignedJson listing.maxProviders)]

def ofJson? (document : JsonValue) : Option LbListing := do
  let weiPerCall ← document.required fields "wei_per_call" JsonValue.wei?
  let tunnelServer ← document.required fields "tunnel_server" JsonValue.string?
  let maxProviders ← document.required fields "max_providers" (JsonValue.unsigned? 32)
  return {
    weiPerCall := weiPerCall
    tunnelServer := tunnelServer
    maxProviders := maxProviders }

end LbListing

instance : Record LbListing where
  KIND := KIND_LB_LISTING
  encode := fun serde listing => encode serde (.new KIND_LB_LISTING) listing.toJson
  decodeFields := fun serde entity => entity.payloadJson serde LbListing.ofJson?

/-! ## The offer -/

structure Hardware where
  cpus : BitVec 32
  memGb : BitVec 32
  deriving DecidableEq, Repr

structure Specs where
  chainId : BitVec 64
  head : BitVec 64
  el : String
  cl : String
  hw : Hardware
  deriving DecidableEq, Repr

structure Offer where
  /-- The LB listing the offer answers. -/
  lbListing : EntityKey
  specs : Specs
  deriving DecidableEq, Repr

namespace Hardware

def fields : List String :=
  ["cpus", "mem_gb"]

def toJson (hardware : Hardware) : JsonValue :=
  .object [("cpus", unsignedJson hardware.cpus), ("mem_gb", unsignedJson hardware.memGb)]

def ofJson? (document : JsonValue) : Option Hardware := do
  let cpus ← document.required fields "cpus" (JsonValue.unsigned? 32)
  let memGb ← document.required fields "mem_gb" (JsonValue.unsigned? 32)
  return {
    cpus := cpus
    memGb := memGb }

end Hardware

namespace Specs

def fields : List String :=
  ["chain_id", "head", "el", "cl", "hw"]

def toJson (specs : Specs) : JsonValue :=
  .object [("chain_id", unsignedJson specs.chainId), ("head", unsignedJson specs.head),
    ("el", .string specs.el), ("cl", .string specs.cl), ("hw", specs.hw.toJson)]

def ofJson? (document : JsonValue) : Option Specs := do
  let chainId ← document.required fields "chain_id" (JsonValue.unsigned? 64)
  let head ← document.required fields "head" (JsonValue.unsigned? 64)
  let el ← document.required fields "el" JsonValue.string?
  let cl ← document.required fields "cl" JsonValue.string?
  let hw ← document.required fields "hw" Hardware.ofJson?
  return {
    chainId := chainId
    head := head
    el := el
    cl := cl
    hw := hw }

end Specs

/-- The payload of an offer: its specs. -/
def offerPayload (specs : Specs) : JsonValue :=
  .object [("specs", specs.toJson)]

def ofOfferPayload? (document : JsonValue) : Option Specs :=
  document.required ["specs"] "specs" Specs.ofJson?

instance : Record Offer where
  KIND := KIND_OFFER
  encode := fun serde offer =>
    encode serde ((Attributes.new KIND_OFFER).with "lb_listing" (.key offer.lbListing))
      (offerPayload offer.specs)
  decodeFields := fun serde entity => do
    let lbListing ← entity.typedAttributes.key "lb_listing"
    let specs ← entity.payloadJson serde ofOfferPayload?
    return {
      lbListing := lbListing
      specs := specs }

/-! ## The agreement record -/

structure AgreementPayload where
  weiPerCall : Wei
  remotePort : BitVec 16
  deriving DecidableEq, Repr

structure Agreement where
  provider : Address
  /-- The accepted offer. -/
  offer : EntityKey
  weiPerCall : Wei
  remotePort : BitVec 16
  deriving DecidableEq, Repr

namespace AgreementPayload

def fields : List String :=
  ["wei_per_call", "remote_port"]

def toJson (payload : AgreementPayload) : JsonValue :=
  .object [("wei_per_call", weiJson payload.weiPerCall),
    ("remote_port", unsignedJson payload.remotePort)]

def ofJson? (document : JsonValue) : Option AgreementPayload := do
  let weiPerCall ← document.required fields "wei_per_call" JsonValue.wei?
  let remotePort ← document.required fields "remote_port" (JsonValue.unsigned? 16)
  return {
    weiPerCall := weiPerCall
    remotePort := remotePort }

end AgreementPayload

instance : Record Agreement where
  KIND := KIND_AGREEMENT
  encode := fun serde agreement =>
    encode serde
      (((Attributes.new KIND_AGREEMENT).with "provider" (.addr agreement.provider)).with "offer"
        (.key agreement.offer))
      (AgreementPayload.toJson
        { weiPerCall := agreement.weiPerCall
          remotePort := agreement.remotePort })
  decodeFields := fun serde entity => do
    let payload ← entity.payloadJson serde AgreementPayload.ofJson?
    let provider ← entity.typedAttributes.addr "provider"
    let offer ← entity.typedAttributes.key "offer"
    return {
      provider := provider
      offer := offer
      weiPerCall := payload.weiPerCall
      remotePort := payload.remotePort }

/-! ## The counter record -/

/-- The text of a counter record's state. -/
def stateText : CounterState → String
  | .opened => "open"
  | .closed => "closed"

structure CounterPayload where
  count : BitVec 64
  weiPerCall : Wei
  openedBlock : BitVec 64
  closedBlock : Option (BitVec 64)
  deriving DecidableEq, Repr

/-- One agreement's count for one settlement period. -/
structure CounterRecord where
  agreement : EntityKey
  provider : Address
  state : CounterState
  count : BitVec 64
  weiPerCall : Wei
  openedBlock : BitVec 64
  /-- Absent while open. -/
  closedBlock : Option (BitVec 64)
  deriving DecidableEq, Repr

namespace CounterPayload

def fields : List String :=
  ["count", "wei_per_call", "opened_block", "closed_block"]

def toJson (payload : CounterPayload) : JsonValue :=
  .object ([("count", unsignedJson payload.count), ("wei_per_call", weiJson payload.weiPerCall),
      ("opened_block", unsignedJson payload.openedBlock)] ++
    match payload.closedBlock with
    | some block => [("closed_block", unsignedJson block)]
    | none => [])

def ofJson? (document : JsonValue) : Option CounterPayload := do
  let count ← document.required fields "count" (JsonValue.unsigned? 64)
  let weiPerCall ← document.required fields "wei_per_call" JsonValue.wei?
  let openedBlock ← document.required fields "opened_block" (JsonValue.unsigned? 64)
  let closedBlock ← document.optional fields "closed_block" (JsonValue.unsigned? 64)
  return {
    count := count
    weiPerCall := weiPerCall
    openedBlock := openedBlock
    closedBlock := closedBlock }

end CounterPayload

/-- The payload a counter record encodes to. -/
def CounterRecord.payload (record : CounterRecord) : CounterPayload where
  count := record.count
  weiPerCall := record.weiPerCall
  openedBlock := record.openedBlock
  closedBlock := record.closedBlock

/-- A counter record's state from its text. -/
def stateOf (text : String) : Except RecordError CounterState :=
  match text with
  | "open" => .ok .opened
  | "closed" => .ok .closed
  | other => .error (.attributeType "state" other "open or closed")

instance : Record CounterRecord where
  KIND := KIND_COUNTER
  encode := fun serde record =>
    encode serde
      ((((Attributes.new KIND_COUNTER).with "agreement" (.key record.agreement)).with "provider"
        (.addr record.provider)).with "state" (.str (stateText record.state)))
      record.payload.toJson
  decodeFields := fun serde entity => do
    let state ← stateOf (← entity.typedAttributes.str "state")
    let payload ← entity.payloadJson serde CounterPayload.ofJson?
    let agreement ← entity.typedAttributes.key "agreement"
    let provider ← entity.typedAttributes.addr "provider"
    return {
      agreement := agreement
      provider := provider
      state := state
      count := payload.count
      weiPerCall := payload.weiPerCall
      openedBlock := payload.openedBlock
      closedBlock := payload.closedBlock }

/-! ## The receipt -/

structure Payout where
  chainId : BitVec 64
  /-- The transfer's transaction hash. -/
  tx : String
  deriving DecidableEq, Repr

structure ReceiptPayload where
  agreement : EntityKey
  count : BitVec 64
  weiPerCall : Wei
  amountWei : Wei
  payout : Payout
  deriving DecidableEq, Repr

/-- Settle's record that one counter record was paid, in full. -/
structure Receipt where
  /-- The counter record paid. -/
  counter : EntityKey
  provider : Address
  agreement : EntityKey
  count : BitVec 64
  weiPerCall : Wei
  amountWei : Wei
  payout : Payout
  deriving DecidableEq, Repr

namespace Payout

def fields : List String :=
  ["chain_id", "tx"]

def toJson (payout : Payout) : JsonValue :=
  .object [("chain_id", unsignedJson payout.chainId), ("tx", .string payout.tx)]

def ofJson? (document : JsonValue) : Option Payout := do
  let chainId ← document.required fields "chain_id" (JsonValue.unsigned? 64)
  let tx ← document.required fields "tx" JsonValue.string?
  return {
    chainId := chainId
    tx := tx }

end Payout

namespace ReceiptPayload

def fields : List String :=
  ["agreement", "count", "wei_per_call", "amount_wei", "payout"]

def toJson (payload : ReceiptPayload) : JsonValue :=
  .object [("agreement", .string (hexText 64 payload.agreement.toNat)),
    ("count", unsignedJson payload.count), ("wei_per_call", weiJson payload.weiPerCall),
    ("amount_wei", weiJson payload.amountWei), ("payout", payload.payout.toJson)]

def ofJson? (document : JsonValue) : Option ReceiptPayload := do
  let agreement ← document.required fields "agreement" JsonValue.key?
  let count ← document.required fields "count" (JsonValue.unsigned? 64)
  let weiPerCall ← document.required fields "wei_per_call" JsonValue.wei?
  let amountWei ← document.required fields "amount_wei" JsonValue.wei?
  let payout ← document.required fields "payout" Payout.ofJson?
  return {
    agreement := agreement
    count := count
    weiPerCall := weiPerCall
    amountWei := amountWei
    payout := payout }

end ReceiptPayload

/-- The payload a receipt encodes to. -/
def Receipt.payload (receipt : Receipt) : ReceiptPayload where
  agreement := receipt.agreement
  count := receipt.count
  weiPerCall := receipt.weiPerCall
  amountWei := receipt.amountWei
  payout := receipt.payout

instance : Record Receipt where
  KIND := KIND_RECEIPT
  encode := fun serde receipt =>
    encode serde
      (((Attributes.new KIND_RECEIPT).with "counter" (.key receipt.counter)).with "provider"
        (.addr receipt.provider))
      receipt.payload.toJson
  decodeFields := fun serde entity => do
    let payload ← entity.payloadJson serde ReceiptPayload.ofJson?
    let counter ← entity.typedAttributes.key "counter"
    let provider ← entity.typedAttributes.addr "provider"
    return {
      counter := counter
      provider := provider
      agreement := payload.agreement
      count := payload.count
      weiPerCall := payload.weiPerCall
      amountWei := payload.amountWei
      payout := payload.payout }

end Codec
end CommunityLb
