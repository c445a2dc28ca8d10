import CommunityLb.Chain.Delivered
import CommunityLb.Chain.Query
import CommunityLb.Marketplace.Task

/-!
# The agent's queries as they are sent

A row of the world is what an entity's attributes decode to, and the conditions of a query are on
the attributes themselves.  The conditions that the agent sends select the entities whose rows its
queries admit, whoever wrote the entities and whatever they hold.
-/

namespace CommunityLb
namespace Codec

/-! ## Entities as rows -/

def LbListing.plain (record : LbListing) : CommunityLb.LbListing where
  weiPerCall := record.weiPerCall
  tunnelServer := record.tunnelServer
  maxProviders := record.maxProviders.toNat

def Offer.plain (record : Offer) : CommunityLb.Offer where
  lbListing := record.lbListing
  chainId := record.specs.chainId.toNat

def Agreement.plain (record : Agreement) : CommunityLb.Agreement where
  provider := record.provider
  offer := record.offer
  weiPerCall := record.weiPerCall
  remotePort := record.remotePort.toNat

def CounterRecord.plain (record : CounterRecord) : CommunityLb.CounterRecord where
  agreement := record.agreement
  provider := record.provider
  state := record.state
  count := record.count.toNat
  weiPerCall := record.weiPerCall
  openedBlock := record.openedBlock.toNat
  closedBlock := record.closedBlock.map BitVec.toNat

/-- The kind attribute's text. -/
def kindText : Kind → String
  | .listing => KIND_LB_LISTING
  | .offer => KIND_OFFER
  | .agreement => KIND_AGREEMENT
  | .counter => KIND_COUNTER

namespace ArkivEntity

/-- An entity's row with a record on it. -/
def stored {β : Type} (entity : ArkivEntity) (record : β) : Stored β where
  key := entity.key
  creator := entity.creator
  createdAt := entity.createdAt.toNat
  expiresAt := entity.expiresAt.toNat
  record := record

/-- An entity decoded as one kind of record, its key and its life kept. -/
def decode {β : Type} (α : Type) [Record α] (serde : Serde) (plain : α → β)
    (entity : ArkivEntity) : Option (Stored β) :=
  (Record.decode α serde entity).toOption.map fun record => entity.stored (plain record)

/-- An entity names a kind, at this schema version. -/
def IsKind (entity : ArkivEntity) (kind : Kind) : Prop :=
  entity.typedAttributes.get "kind" = some (.str (kindText kind)) ∧
    entity.typedAttributes.get "v" = some (.i32 SCHEMA_VERSION)

instance (entity : ArkivEntity) (kind : Kind) : Decidable (entity.IsKind kind) :=
  inferInstanceAs (Decidable (_ ∧ _))

/-- The kind of record that an entity is. -/
def kind? (entity : ArkivEntity) : Option Kind :=
  [Kind.listing, .offer, .agreement, .counter].find? entity.IsKind

/-- An entity's state attribute says open. -/
def IsOpen (entity : ArkivEntity) : Prop :=
  entity.typedAttributes.get "state" = some (.str "open")

instance (entity : ArkivEntity) : Decidable entity.IsOpen :=
  inferInstanceAs (Decidable (_ = _))

/-- The record of a kind that an entity decodes to. -/
def read (serde : Serde) (entity : ArkivEntity) : Kind → Option CommunityLb.Record
  | .listing => (Record.decode LbListing serde entity).toOption.map (.listing ·.plain)
  | .offer => (Record.decode Offer serde entity).toOption.map (.offer ·.plain)
  | .agreement => (Record.decode Agreement serde entity).toOption.map (.agreement ·.plain)
  | .counter => (Record.decode CounterRecord serde entity).toOption.map (.counter ·.plain)

/-- The row that an entity of one of the four kinds is, unreadable where it does not decode. -/
def row? (serde : Serde) (entity : ArkivEntity) : Option (Stored CommunityLb.Record) :=
  entity.kind?.map fun kind =>
    entity.stored ((entity.read serde kind).getD
      (.unreadable kind (if entity.IsOpen then .opened else .closed)))

end ArkivEntity

/-! ## What a query selects -/

/-- An entity meets a condition. -/
def Condition.holds (entity : ArkivEntity) : Condition → Bool
  | .key value => entity.key = value
  | .creator value => entity.creator = value
  | .attr name value => entity.typedAttributes.get name = some value
  | .expiresAfter head => head < entity.expiresAt
  | .expiresBy block => entity.expiresAt ≤ block

/-- An entity meets every condition. -/
def Query.selects (query : Query) (entity : ArkivEntity) : Bool :=
  query.conditions.all (Condition.holds entity)

end Codec

/-! ## What the agent sends -/

namespace Agent

variable (agent : Agent) (head : BitVec 64)

def agreementsSent : Codec.Query :=
  ((Codec.Query.kind Codec.KIND_AGREEMENT).creator agent.identity.address).expiresAfter head

def countersSent : Codec.Query :=
  (((Codec.Query.kind Codec.KIND_COUNTER).creator agent.identity.address).attrStr "state"
    "open").expiresAfter head

def counterSent (counter : EntityKey) : Codec.Query :=
  ((Codec.Query.kind Codec.KIND_COUNTER).creator agent.identity.address).key counter

def offersSent : Codec.Query :=
  (((Codec.Query.kind Codec.KIND_OFFER).attrKey "lb_listing" agent.listingKey).expiresAfter
    head).expiresBy (head + BitVec.ofNat 64 (blocks agent.config.offerMaxLifetime))

def listingsSent : Codec.Query :=
  ((Codec.Query.kind Codec.KIND_LB_LISTING).creator agent.identity.address).expiresAfter head

end Agent

namespace Codec

variable {serde : Serde} {entity : ArkivEntity} {kind : Kind}

theorem Attributes.get_of_str {attributes : Attributes} {name value : String}
    (has : attributes.str name = .ok value) : attributes.get name = some (.str value) := by
  simp only [Attributes.str, Attributes.present] at has
  split at has
  · next found isFound =>
      cases found with
      | str held =>
          cases has
          exact isFound
      | _ => cases has
  · cases has

theorem Attributes.get_of_key {attributes : Attributes} {name : String} {value : EntityKey}
    (has : attributes.key name = .ok value) : attributes.get name = some (.key value) := by
  simp only [Attributes.key, Attributes.present] at has
  split at has
  · next found isFound =>
      cases found with
      | key held =>
          cases has
          exact isFound
      | _ => cases has
  · cases has

theorem stateOf_eq {text : String} {state : CounterState} (isState : stateOf text = .ok state) :
    text = stateText state := by
  simp only [stateOf] at isState
  split at isState
  · cases isState; rfl
  · cases isState; rfl
  · cases isState

/-- What a computation that may fail returns, its first part returned before it. -/
theorem ok_of_bind {ε α β : Type} {first : Except ε α} {rest : α → Except ε β} {result : β}
    (returned : first >>= rest = .ok result) :
    ∃ value, first = .ok value ∧ rest value = .ok result := by
  cases first with
  | error reason => cases returned
  | ok value => exact ⟨value, rfl, returned⟩

theorem kindText_injective : Function.Injective kindText := by
  intro first second same
  cases first <;> cases second <;> first | rfl | exact absurd same (by decide)

namespace ArkivEntity

theorem kind?_eq : entity.kind? = some kind ↔ entity.IsKind kind := by
  constructor
  · intro found
    simpa using List.find?_some found
  · intro isKind
    have only : ∀ other, entity.IsKind other → other = kind := by
      intro other isOther
      have same := isOther.1.symm.trans isKind.1
      exact kindText_injective (AttributeValue.str.inj (Option.some.inj same))
    cases found : entity.kind? with
    | some other =>
        have isOther : entity.IsKind other := by simpa using List.find?_some found
        rw [only other isOther]
    | none =>
        have absent := List.find?_eq_none.mp found kind (by cases kind <;> decide)
        exact absurd isKind (by simpa using absent)

theorem kind_read {record : CommunityLb.Record} (isRead : entity.read serde kind = some record) :
    record.kind = kind := by
  cases kind <;>
    · obtain ⟨found, -, rfl⟩ := Option.map_eq_some_iff.mp isRead
      rfl

/-- The row of an entity has the kind that it names. -/
theorem row?_kind {row : Stored CommunityLb.Record} (isRow : entity.row? serde = some row) :
    entity.IsKind row.record.kind := by
  obtain ⟨kind, isKind, rfl⟩ := Option.map_eq_some_iff.mp isRow
  have named : ((entity.read serde kind).getD
      (.unreadable kind (if entity.IsOpen then .opened else .closed))).kind = kind := by
    cases isRead : entity.read serde kind with
    | none => rfl
    | some record => exact kind_read isRead
  rw [stored, named]
  exact kind?_eq.mp isKind

/-- An entity that names a kind has a row. -/
theorem row?_isSome (isKind : entity.IsKind kind) :
    ∃ row, entity.row? serde = some row ∧ row.record.kind = kind := by
  have isRow : entity.row? serde = some (entity.stored ((entity.read serde kind).getD
      (.unreadable kind (if entity.IsOpen then .opened else .closed)))) := by
    rw [row?, kind?_eq.mpr isKind, Option.map_some]
  refine ⟨_, isRow, ?_⟩
  cases isRead : entity.read serde kind with
  | none => rfl
  | some record => exact kind_read isRead

/-- A row keeps the entity's key, writer and life. -/
theorem row?_fields {row : Stored CommunityLb.Record} (isRow : entity.row? serde = some row) :
    row.key = entity.key ∧ row.creator = entity.creator ∧
      row.expiresAt = entity.expiresAt.toNat := by
  obtain ⟨kind, -, rfl⟩ := Option.map_eq_some_iff.mp isRow
  exact ⟨rfl, rfl, rfl⟩

/-- A counter record that decodes says in its attribute what state it is in. -/
theorem decoded_state {record : CounterRecord}
    (decoded : Record.decode CounterRecord serde entity = .ok record) :
    entity.typedAttributes.get "state" = some (.str (stateText record.state)) := by
  obtain ⟨isKind, isVersion⟩ := decode_only decoded
  rw [decode_eq_fields isKind isVersion] at decoded
  obtain ⟨text, isText, decoded⟩ := ok_of_bind decoded
  obtain ⟨state, isState, decoded⟩ := ok_of_bind decoded
  obtain ⟨payload, -, decoded⟩ := ok_of_bind decoded
  obtain ⟨agreement, -, decoded⟩ := ok_of_bind decoded
  obtain ⟨provider, -, decoded⟩ := ok_of_bind decoded
  cases decoded
  rw [Attributes.get_of_str isText, stateOf_eq isState]

/-- An offer that decodes says in its attribute what listing it answers. -/
theorem decoded_lbListing {record : Offer}
    (decoded : Record.decode Offer serde entity = .ok record) :
    entity.typedAttributes.get "lb_listing" = some (.key record.lbListing) := by
  obtain ⟨isKind, isVersion⟩ := decode_only decoded
  rw [decode_eq_fields isKind isVersion] at decoded
  obtain ⟨listing, isListing, decoded⟩ := ok_of_bind decoded
  obtain ⟨specs, -, decoded⟩ := ok_of_bind decoded
  cases decoded
  exact Attributes.get_of_key isListing

/-- A counter's row is open when its attribute says so, whether it decodes or not. -/
theorem row?_isOpen {row : Stored CommunityLb.Record}
    (isRow : entity.row? serde = some row) (isCounter : row.record.kind = .counter) :
    row.record.isOpen = true ↔ entity.IsOpen := by
  have isKind := row?_kind isRow
  rw [isCounter] at isKind
  rw [row?, kind?_eq.mpr isKind, Option.map_some] at isRow
  obtain rfl := Option.some.inj isRow
  cases isRead : entity.read serde .counter with
  | none => by_cases isOpen : entity.IsOpen <;> simp [stored, CommunityLb.Record.isOpen, isOpen]
  | some record =>
      obtain ⟨found, isFound, rfl⟩ := Option.map_eq_some_iff.mp isRead
      have decoded : Record.decode CounterRecord serde entity = .ok found := by
        cases result : Record.decode CounterRecord serde entity with
        | error reason => simp [result, Except.toOption] at isFound
        | ok value => simpa [result, Except.toOption] using isFound
      have isOpen : entity.IsOpen ↔ found.state = .opened := by
        change entity.typedAttributes.get "state" = some (.str "open") ↔ _
        rw [decoded_state decoded]
        cases found.state <;> simp [stateText]
      simp [isOpen, stored, CommunityLb.Record.isOpen, CounterRecord.plain]

/-! ## Decoding a row -/

section Decoded

variable {α β : Type} [Record α] {plain : α → β} {unwrap : CommunityLb.Record → Option β}

/-- Decoding the row of an entity is decoding the entity. -/
theorem row?_decode (wrap : α → CommunityLb.Record) (named : Record.KIND α = kindText kind)
    (reads : entity.read serde kind = (Record.decode α serde entity).toOption.map wrap)
    (unwraps : ∀ record, unwrap (wrap record) = some (plain record))
    (others : ∀ record : CommunityLb.Record, record.kind ≠ kind → unwrap record = none)
    (unreadable : ∀ state, unwrap (.unreadable kind state) = none) :
    (entity.row? serde).bind (Stored.decode unwrap) = entity.decode α serde plain := by
  by_cases isKind : entity.IsKind kind
  · rw [row?, kind?_eq.mpr isKind, Option.map_some, Option.bind_some, reads, decode]
    cases Record.decode α serde entity with
    | error reason => simp [Stored.decode, stored, Except.toOption, unreadable]
    | ok record => simp [Stored.decode, stored, Except.toOption, unwraps]
  · have fails : entity.decode α serde plain = none := by
      cases decoded : Record.decode α serde entity with
      | error reason => simp [decode, decoded, Except.toOption]
      | ok record =>
          obtain ⟨isText, isVersion⟩ := decode_only decoded
          exact absurd ⟨named ▸ isText, isVersion⟩ isKind
    rw [fails]
    cases isRow : entity.row? serde with
    | none => rfl
    | some row =>
        have other : row.record.kind ≠ kind := fun same => isKind (same ▸ row?_kind isRow)
        simp [Stored.decode, others row.record other]

end Decoded

theorem row?_listing : (entity.row? serde).bind (Stored.decode CommunityLb.Record.asListing) =
    entity.decode LbListing serde LbListing.plain := by
  apply row?_decode (fun record : LbListing => .listing record.plain)
    (rfl : _ = kindText .listing) rfl
  · intro record
    rfl
  · intro record other
    cases record <;> first | rfl | exact absurd rfl other
  · intro state
    rfl

theorem row?_offer : (entity.row? serde).bind (Stored.decode CommunityLb.Record.asOffer) =
    entity.decode Offer serde Offer.plain := by
  apply row?_decode (fun record : Offer => .offer record.plain) (rfl : _ = kindText .offer) rfl
  · intro record
    rfl
  · intro record other
    cases record <;> first | rfl | exact absurd rfl other
  · intro state
    rfl

theorem row?_agreement : (entity.row? serde).bind (Stored.decode CommunityLb.Record.asAgreement) =
    entity.decode Agreement serde Agreement.plain := by
  apply row?_decode (fun record : Agreement => .agreement record.plain)
    (rfl : _ = kindText .agreement) rfl
  · intro record
    rfl
  · intro record other
    cases record <;> first | rfl | exact absurd rfl other
  · intro state
    rfl

theorem row?_counter : (entity.row? serde).bind (Stored.decode CommunityLb.Record.asCounter) =
    entity.decode CounterRecord serde CounterRecord.plain := by
  apply row?_decode (fun record : CounterRecord => .counter record.plain)
    (rfl : _ = kindText .counter) rfl
  · intro record
    rfl
  · intro record other
    cases record <;> first | rfl | exact absurd rfl other
  · intro state
    rfl

end ArkivEntity
/-! ## What is selected -/

/-- The conditions of a query on entities are what a query of the world asks of rows. -/
def Query.Means (sent : Query) (query : CommunityLb.Query) : Prop :=
  ∀ (serde : Serde) (entity : ArkivEntity),
    sent.selects entity = (entity.row? serde).any query.admits

/-- A query of one more condition. -/
@[simp]
theorem Query.selects_push (query : Query) (condition : Condition) :
    (query.push condition).selects entity = (query.selects entity && condition.holds entity) := by
  simp [selects, push]

/-- The query of a kind, under the kind's text. -/
theorem Query.selects_kind {text : String} (named : text = kindText kind) :
    (Query.kind text).selects entity = true ↔ entity.IsKind kind := by
  simp [selects, Query.kind, Condition.holds, ArkivEntity.IsKind, named]

/-- What an entity of a kind has to meet beside. -/
theorem Query.means_of {sent : Query} {query : CommunityLb.Query} (more : ArkivEntity → Bool)
    (selects : ∀ entity, sent.selects entity = true ↔ entity.IsKind query.kind ∧ more entity = true)
    (admits : ∀ serde entity row, entity.row? serde = some row → row.record.kind = query.kind →
      (query.admits row = true ↔ more entity = true)) : sent.Means query := by
  intro serde entity
  rw [Bool.eq_iff_iff, selects]
  constructor
  · rintro ⟨isKind, meets⟩
    obtain ⟨row, isRow, named⟩ := @ArkivEntity.row?_isSome serde _ _ isKind
    rw [isRow]
    exact (admits serde entity row isRow named).mpr meets
  · intro admitted
    cases isRow : entity.row? serde with
    | none => simp [isRow] at admitted
    | some row =>
        have admitted : query.admits row = true := by simpa [isRow] using admitted
        have named : row.record.kind = query.kind := by
          simp only [CommunityLb.Query.admits, Bool.and_eq_true, decide_eq_true_eq] at admitted
          exact admitted.1.1.1.1.1.1
        exact ⟨named ▸ ArkivEntity.row?_kind isRow,
          (admits serde entity row isRow named).mp admitted⟩

/-- The rows of some entities. -/
def rowsOf (serde : Serde) (entities : List ArkivEntity) : List (Stored CommunityLb.Record) :=
  entities.filterMap (ArkivEntity.row? serde)

/-- A query on entities counts the rows, and shows the records, that a query of the world does. -/
structure Query.Reads {β : Type} (α : Type) [Record α] (plain : α → β)
    (unwrap : CommunityLb.Record → Option β) (sent : Query) (query : CommunityLb.Query) : Prop where
  counts : ∀ (serde : Serde) (entities : List ArkivEntity),
    (entities.filter sent.selects).length = ((rowsOf serde entities).filter query.admits).length
  decodes : ∀ (serde : Serde) (entities : List ArkivEntity),
    (entities.filter sent.selects).filterMap (ArkivEntity.decode α serde plain) =
      ((rowsOf serde entities).filter query.admits).filterMap (Stored.decode unwrap)

/-- The rows of what a query selects, one each, are those that are admitted. -/
theorem Query.Means.rows {sent : Query} {query : CommunityLb.Query} (means : sent.Means query)
    (serde : Serde) (entities : List ArkivEntity) :
    rowsOf serde (entities.filter sent.selects) = (rowsOf serde entities).filter query.admits ∧
      (rowsOf serde (entities.filter sent.selects)).length =
        (entities.filter sent.selects).length := by
  induction entities with
  | nil => exact ⟨rfl, rfl⟩
  | cons entity entities ih =>
      obtain ⟨sameRows, sameLength⟩ := ih
      have selected := means serde entity
      cases isRow : entity.row? serde with
      | none =>
          rw [isRow] at selected
          rw [List.filter_cons_of_neg (by simp [selected]), rowsOf, rowsOf,
            List.filterMap_cons_none isRow]
          exact ⟨sameRows, sameLength⟩
      | some row =>
          rw [isRow] at selected
          cases admitted : query.admits row with
          | false =>
              rw [List.filter_cons_of_neg (by simp [selected, admitted]), rowsOf, rowsOf,
                List.filterMap_cons_some isRow, List.filter_cons_of_neg (by simp [admitted])]
              exact ⟨sameRows, sameLength⟩
          | true =>
              rw [List.filter_cons_of_pos (by simp [selected, admitted]), rowsOf, rowsOf,
                List.filterMap_cons_some isRow, List.filterMap_cons_some isRow,
                List.filter_cons_of_pos admitted, List.length_cons, List.length_cons]
              exact ⟨congrArg (row :: ·) sameRows, congrArg (· + 1) sameLength⟩

/-- What means the same reads the same. -/
theorem Query.Means.reads {α β : Type} [Record α] {plain : α → β}
    {unwrap : CommunityLb.Record → Option β} {sent : Query} {query : CommunityLb.Query}
    (means : sent.Means query)
    (decodes : ∀ (serde : Serde) (entity : ArkivEntity),
      (entity.row? serde).bind (Stored.decode unwrap) = entity.decode α serde plain) :
    sent.Reads α plain unwrap query where
  counts serde entities := by
    obtain ⟨sameRows, sameLength⟩ := means.rows serde entities
    rw [← sameRows, sameLength]
  decodes serde entities := by
    rw [← (means.rows serde entities).1, rowsOf, List.filterMap_filterMap]
    exact List.filterMap_congr fun entity _ => (decodes serde entity).symm

end Codec

namespace Agent

variable (agent : Agent) (head : BitVec 64)

/-- The live records of a kind that the LB wrote. -/
theorem live_means (kind : Kind) {text : String} (named : text = Codec.kindText kind) :
    (((Codec.Query.kind text).creator agent.identity.address).expiresAfter head).Means
      { kind := kind
        creator := some agent.identity.address
        expiresAfter := some head.toNat } := by
  apply Codec.Query.means_of fun entity =>
    entity.creator = agent.identity.address && decide (head < entity.expiresAt)
  · intro entity
    simp [Codec.Query.creator, Codec.Query.expiresAfter, Codec.Condition.holds,
      Codec.Query.selects_kind named, and_assoc]
  · intro serde entity row isRow isKind
    obtain ⟨sameKey, sameCreator, sameLife⟩ := Codec.ArkivEntity.row?_fields isRow
    simp [Query.admits, isKind, sameCreator, sameLife, BitVec.lt_def]

theorem agreementsSent_means :
    (agent.agreementsSent head).Means (agent.agreementsQuery head.toNat) :=
  agent.live_means head .agreement rfl

theorem listingsSent_means : (agent.listingsSent head).Means (agent.listingsQuery head.toNat) :=
  agent.live_means head .listing rfl

theorem countersSent_means : (agent.countersSent head).Means (agent.countersQuery head.toNat) := by
  apply Codec.Query.means_of fun entity =>
    entity.creator = agent.identity.address &&
      (entity.typedAttributes.get "state" = some (.str "open") && decide (head < entity.expiresAt))
  · intro entity
    have isKind : (Codec.Query.kind Codec.KIND_COUNTER).selects entity = true ↔
        entity.IsKind .counter := Codec.Query.selects_kind rfl
    simp [countersSent, Codec.Query.creator, Codec.Query.attrStr, Codec.Query.attr,
      Codec.Query.expiresAfter, Codec.Condition.holds, isKind, countersQuery, and_assoc]
  · intro serde entity row isRow named
    obtain ⟨sameKey, sameCreator, sameLife⟩ := Codec.ArkivEntity.row?_fields isRow
    have isOpen : row.record.isOpen = true ↔
        entity.typedAttributes.get "state" = some (.str "open") :=
      Codec.ArkivEntity.row?_isOpen isRow named
    simp [Query.admits, countersQuery, named, sameCreator, sameLife, BitVec.lt_def, isOpen,
      and_assoc]

theorem counterSent_means (counter : EntityKey) :
    (agent.counterSent counter).Means (agent.counterQuery counter) := by
  apply Codec.Query.means_of fun entity =>
    entity.creator = agent.identity.address && decide (entity.key = counter)
  · intro entity
    have isKind : (Codec.Query.kind Codec.KIND_COUNTER).selects entity = true ↔
        entity.IsKind .counter := Codec.Query.selects_kind rfl
    simp [counterSent, Codec.Query.creator, Codec.Query.key, Codec.Condition.holds, isKind,
      counterQuery, and_assoc]
  · intro serde entity row isRow named
    obtain ⟨sameKey, sameCreator, sameLife⟩ := Codec.ArkivEntity.row?_fields isRow
    simp [Query.admits, counterQuery, named, sameKey, sameCreator]

/-- An offer that decodes is selected when its row is admitted. -/
theorem offersSent_selects (fits : head.toNat + blocks agent.config.offerMaxLifetime < 2 ^ 64)
    {serde : Codec.Serde} {entity : Codec.ArkivEntity} {offer : Stored Offer}
    (decoded : entity.decode Codec.Offer serde Codec.Offer.plain = some offer) :
    (agent.offersSent head).selects entity =
      (entity.row? serde).any (agent.offersQuery head.toNat).admits := by
  cases result : Codec.Record.decode Codec.Offer serde entity with
  | error reason => simp [Codec.ArkivEntity.decode, result, Except.toOption] at decoded
  | ok record =>
      have isKind : entity.IsKind .offer := Codec.decode_only result
      have isRow : entity.row? serde = some (entity.stored (.offer record.plain)) := by
        simp [Codec.ArkivEntity.row?, Codec.ArkivEntity.kind?_eq.mpr isKind, Codec.ArkivEntity.read,
          result, Except.toOption]
      have answers := Codec.ArkivEntity.decoded_lbListing result
      have last : (head + BitVec.ofNat 64 (blocks agent.config.offerMaxLifetime)).toNat =
          head.toNat + blocks agent.config.offerMaxLifetime := by
        rw [BitVec.toNat_add, BitVec.toNat_ofNat, Nat.add_mod_mod, Nat.mod_eq_of_lt fits]
      have selects : (Codec.Query.kind Codec.KIND_OFFER).selects entity = true :=
        (Codec.Query.selects_kind rfl).mpr isKind
      rw [isRow, Bool.eq_iff_iff]
      simp [offersSent, Codec.Query.attrKey, Codec.Query.attr, Codec.Query.expiresAfter,
        Codec.Query.expiresBy, Codec.Condition.holds, selects, answers, BitVec.lt_def,
        BitVec.le_def, last, Query.admits, offersQuery, Codec.ArkivEntity.stored,
        Codec.Offer.plain, Record.kind, Record.asOffer, and_assoc]

/-- The agent reads what it asks for: its queries, as they are sent, count and show of any entities
what the queries of the world count and show of their rows. -/
theorem reads_what_it_asks (agent : Agent) (head : BitVec 64) (counter : EntityKey) :
    (agent.agreementsSent head).Reads Codec.Agreement Codec.Agreement.plain Record.asAgreement
        (agent.agreementsQuery head.toNat) ∧
      (agent.countersSent head).Reads Codec.CounterRecord Codec.CounterRecord.plain
        Record.asCounter (agent.countersQuery head.toNat) ∧
      (agent.counterSent counter).Reads Codec.CounterRecord Codec.CounterRecord.plain
        Record.asCounter (agent.counterQuery counter) ∧
      (agent.listingsSent head).Reads Codec.LbListing Codec.LbListing.plain Record.asListing
        (agent.listingsQuery head.toNat) ∧
      (head.toNat + blocks agent.config.offerMaxLifetime < 2 ^ 64 →
        ∀ (serde : Codec.Serde) (entities : List Codec.ArkivEntity),
          (entities.filter (agent.offersSent head).selects).filterMap
              (Codec.ArkivEntity.decode Codec.Offer serde Codec.Offer.plain) =
            ((Codec.rowsOf serde entities).filter
              (agent.offersQuery head.toNat).admits).filterMap (Stored.decode Record.asOffer)) := by
  refine ⟨(agent.agreementsSent_means head).reads fun _ _ => Codec.ArkivEntity.row?_agreement,
    (agent.countersSent_means head).reads fun _ _ => Codec.ArkivEntity.row?_counter,
    (agent.counterSent_means counter).reads fun _ _ => Codec.ArkivEntity.row?_counter,
    (agent.listingsSent_means head).reads fun _ _ => Codec.ArkivEntity.row?_listing, ?_⟩
  intro fits serde entities
  rw [Codec.rowsOf, List.filterMap_filter, List.filterMap_filter, List.filterMap_filterMap]
  apply List.filterMap_congr
  intro entity _
  have decodes := @Codec.ArkivEntity.row?_offer serde entity
  cases decoded : entity.decode Codec.Offer serde Codec.Offer.plain with
  | none =>
      rw [decoded] at decodes
      cases isRow : entity.row? serde with
      | none => simp
      | some row =>
          have unread : Stored.decode Record.asOffer row = none := by simpa [isRow] using decodes
          simp [unread]
  | some offer =>
      rw [agent.offersSent_selects head fits decoded]
      rw [decoded] at decodes
      cases isRow : entity.row? serde with
      | none => simp [isRow] at decodes
      | some row =>
          have read : Stored.decode Record.asOffer row = some offer := by
            simpa [isRow] using decodes
          simp [read]

/-- An agent that holds nothing. -/
def listening : Agent where
  config := Sidecar.hourly
  identity := { address := 2, chainId := 1 }
  pool := { entries := [], members := [] }
  agreements := .empty
  listingKey := 7
  listingExpiresAt := 0
  admissions := []

/-- An offer to its listing. -/
def smallOffer : Codec.Offer where
  lbListing := 7
  specs :=
    { chainId := 1
      head := 4
      el := "geth"
      cl := "lighthouse"
      hw :=
        { cpus := 8
          memGb := 32 } }

/-- The offer's payload, too, as text and as a document. -/
def pageSerde : Codec.Serde where
  toVec
    | .object [("specs", _)] => Codec.bytesOf "\x7b\"specs\":\x7b\x7d\x7d"
    | document => Codec.smallSerde.toVec document
  fromSlice := fun bytes =>
    if bytes = Codec.bytesOf "\x7b\"specs\":\x7b\x7d\x7d" then
      some (Codec.Lawful.document smallOffer)
    else Codec.smallSerde.fromSlice bytes

/-- The offer's row. -/
def offerEntity : Codec.ArkivEntity where
  key := 4
  creator := 8
  createdAt := 3
  updatedAt := 3
  expiresAt := 9
  attributes := (Codec.Record.encode pageSerde smallOffer).toRead

/-- The row of an agreement, and the offer's, as the page shows them. -/
def smallPage : List Codec.ArkivEntity :=
  [Codec.smallEntity, offerEntity]

theorem smallPage_decodes :
    Codec.Record.decode Codec.Agreement pageSerde Codec.smallEntity = .ok Codec.smallAgreement ∧
      Codec.Record.decode Codec.Offer pageSerde offerEntity = .ok smallOffer := by
  have agreement : pageSerde.fromSlice (pageSerde.toVec
      (Codec.Lawful.document Codec.smallAgreement)) =
        some (Codec.Lawful.document Codec.smallAgreement) := rfl
  have offer : pageSerde.fromSlice (pageSerde.toVec (Codec.Lawful.document smallOffer)) =
      some (Codec.Lawful.document smallOffer) := rfl
  have shows : Codec.Shows (Codec.Record.encode pageSerde Codec.smallAgreement)
      Codec.smallEntity.attributes :=
    (Codec.Shows.refl _).cons (by
      simp [Codec.Lawful.encode_eq, Codec.encode, Codec.Lawful.attributes,
        Codec.PAYLOAD_ATTRIBUTE])
  exact ⟨(Codec.Lawful.faithful pageSerde Codec.Agreement).undoes _ _ agreement shows,
    (Codec.Lawful.faithful pageSerde Codec.Offer).undoes _ offerEntity offer (.refl _)⟩

/-- The agent reads the agreement of such a page, and the offer. -/
theorem reads_what_it_asks_small :
    ((Codec.rowsOf pageSerde smallPage).filter (listening.agreementsQuery 5).admits).length = 1 ∧
      ((Codec.rowsOf pageSerde smallPage).filter
        (listening.agreementsQuery 5).admits).filterMap (Stored.decode Record.asAgreement) =
          [Codec.smallEntity.stored Codec.smallAgreement.plain] ∧
      ((Codec.rowsOf pageSerde smallPage).filter
        (listening.offersQuery 5).admits).filterMap (Stored.decode Record.asOffer) =
          [offerEntity.stored smallOffer.plain] := by
  obtain ⟨agreements, -, -, -, offers⟩ := listening.reads_what_it_asks 5 9
  have offers := offers (by decide)
  obtain ⟨agreement, offer⟩ := smallPage_decodes
  obtain ⟨isAgreement, version⟩ := Codec.decode_only agreement
  obtain ⟨isOffer, version'⟩ := Codec.decode_only offer
  have agreementKind : Codec.Record.KIND Codec.Agreement = Codec.KIND_AGREEMENT := rfl
  have offerKind : Codec.Record.KIND Codec.Offer = Codec.KIND_OFFER := rfl
  have wanted : (listening.agreementsSent 5).selects Codec.smallEntity = true := by
    simp [Codec.Query.selects, agreementsSent, Codec.Query.kind, Codec.Query.creator,
      Codec.Query.expiresAfter, Codec.Query.push, Codec.Condition.holds, isAgreement, version,
      agreementKind]
    decide
  have unwanted : (listening.agreementsSent 5).selects offerEntity = false := by
    simp [Codec.Query.selects, agreementsSent, Codec.Query.kind, Codec.Query.creator,
      Codec.Query.expiresAfter, Codec.Query.push, Codec.Condition.holds, isOffer, offerKind]
    decide
  have wanted' : (listening.offersSent 5).selects offerEntity = true := by
    simp [Codec.Query.selects, offersSent, Codec.Query.kind, Codec.Query.attrKey, Codec.Query.attr,
      Codec.Query.expiresAfter, Codec.Query.expiresBy, Codec.Query.push, Codec.Condition.holds,
      isOffer, version', offerKind]
    decide
  have unwanted' : (listening.offersSent 5).selects Codec.smallEntity = false := by
    simp [Codec.Query.selects, offersSent, Codec.Query.kind, Codec.Query.attrKey, Codec.Query.attr,
      Codec.Query.expiresAfter, Codec.Query.expiresBy, Codec.Query.push, Codec.Condition.holds,
      isAgreement, agreementKind]
    decide
  have asked : smallPage.filter (listening.agreementsSent 5).selects = [Codec.smallEntity] := by
    rw [smallPage, List.filter_cons_of_pos wanted,
      List.filter_cons_of_neg (Bool.eq_false_iff.mp unwanted), List.filter_nil]
  have asked' : smallPage.filter (listening.offersSent 5).selects = [offerEntity] := by
    rw [smallPage, List.filter_cons_of_neg (Bool.eq_false_iff.mp unwanted'),
      List.filter_cons_of_pos wanted', List.filter_nil]
  have read : Codec.smallEntity.decode Codec.Agreement pageSerde Codec.Agreement.plain =
      some (Codec.smallEntity.stored Codec.smallAgreement.plain) := by
    rw [Codec.ArkivEntity.decode, agreement]
    rfl
  have read' : offerEntity.decode Codec.Offer pageSerde Codec.Offer.plain =
      some (offerEntity.stored smallOffer.plain) := by
    rw [Codec.ArkivEntity.decode, offer]
    rfl
  refine ⟨?_, ?_, ?_⟩
  · have counts := agreements.counts pageSerde smallPage
    rw [asked] at counts
    exact counts.symm
  · have decodes := agreements.decodes pageSerde smallPage
    rw [asked, List.filterMap_cons_some read] at decodes
    exact decodes.symm
  · have decodes := offers pageSerde smallPage
    rw [asked', List.filterMap_cons_some read'] at decodes
    exact decodes.symm

end Agent
end CommunityLb
