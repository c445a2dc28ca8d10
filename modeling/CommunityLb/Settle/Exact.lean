import CommunityLb.Settle.Runs

/-!
# The ledger is exactly what is unpaid

What a run owes is the closed records on the chain that no receipt of its payers names, whatever the
order and the case a node answers in, and whatever receipts others forge.
-/

namespace CommunityLb

open Settling (rowOf lookup_renders hasStr_iff)

/-- A record with its hex strings lowercase. -/
def Counter.lower (record : Counter) : Counter :=
  { record with
    key := record.key.toLowerCase
    agreement := record.agreement.toLowerCase
    provider := record.provider.toLowerCase }

/-- A record as settle reads it. -/
def Entity.counter? (entity : Entity) : Option Counter :=
  (decodeCounter (rowOf entity)).toOption

namespace Books

/-- The closed records of an LB. -/
def closed (books : Books) (lb : Hex) : List Counter :=
  (books.entities.filter fun entity =>
    books.alive entity && (closedQuery lb).admits entity).filterMap Entity.counter?

/-- A receipt by one of the payers that names the provider points at the record. -/
def Receipted (books : Books) (payers : List Hex) (provider key : Hex) : Prop :=
  ∃ entity ∈ books.entities, books.alive entity = true ∧
    (∃ payer ∈ payers, (receiptsQuery payer provider).admits entity = true) ∧
      entity.attributes.lookup "counter" = some (.key key)

open Classical in
/-- The closed records no receipt of the payers points at. -/
noncomputable def unpaid (books : Books) (lb : Hex) (payers : List Hex) : List Counter :=
  (books.closed lb).filter fun record =>
    ¬ books.Receipted payers record.provider record.key

open Classical in
/-- Those of one provider. -/
noncomputable def unpaidTo (books : Books) (lb : Hex) (payers : List Hex) (provider : Hex) :
    List Counter :=
  (books.unpaid lb payers).filter fun record => record.provider = provider

end Books

/-- A ledger is exactly what is unpaid on a chain. -/
structure Ledger.Exact (books : Books) (lb : Hex) (payers : List Hex) (plan : Ledger) : Prop where
  /-- Each provider once, in their order. -/
  providers : (plan.owed.map (·.provider)).Pairwise (· < ·)
  /-- Each unpaid record once. -/
  whole : (plan.records.map Counter.lower).Perm (books.unpaid lb payers)
  /-- A provider's records are those of it that are unpaid, and there are some. -/
  records : ∀ owed ∈ plan.owed, owed.records ≠ [] ∧
    (owed.records.map Counter.lower).Perm (books.unpaidTo lb payers owed.provider)
  oldestFirst : ∀ owed ∈ plan.owed,
    owed.records.Pairwise fun left right => left.closedBlock ≤ right.closedBlock
  amount : ∀ owed ∈ plan.owed,
    owed.amountWei = (owed.records.map fun record => record.count * record.weiPerCall).sum
  /-- Whoever has an unpaid record is owed. -/
  everyone : ∀ provider, books.unpaidTo lb payers provider ≠ [] →
    provider ∈ plan.owed.map (·.provider)
  counted : plan.paid + plan.records.length = (books.closed lb).length
  total : plan.totalOwedWei = (plan.owed.map (·.amountWei)).sum

/-- Two ledgers owe the same: the same providers the same amounts, for the same records. -/
structure Ledger.Same (plan other : Ledger) : Prop where
  owed : List.Forall₂ (fun left right => left.provider = right.provider ∧
    left.amountWei = right.amountWei ∧
      (left.records.map Counter.lower).Perm (right.records.map Counter.lower))
    plan.owed other.owed
  paid : plan.paid = other.paid
  total : plan.totalOwedWei = other.totalOwedWei

/-- Every row that a run reads decodes: the closed records, and the receipts of each provider that
has one, by each payer. -/
structure Decodes (reader : RowQuery → List Row) (lb : Hex) (payers : List Hex) : Prop where
  closed : ∀ row ∈ reader (closedQuery lb), ∃ record, decodeCounter row = .ok record
  receipts : ∀ row ∈ reader (closedQuery lb), ∀ record, decodeCounter row = .ok record →
    ∀ payer ∈ payers, ∀ receiptRow ∈ reader (receiptsQuery payer record.provider.toLowerCase),
      ∃ receipt, decodeReceipt receiptRow = .ok receipt

/-! ## Rows and what they render -/

/-- A value with its hex string lowercase. -/
def Value.lower : Value → Value
  | addr value => addr value.toLowerCase
  | key value => key value.toLowerCase
  | str value => str value
  | i32 value => i32 value
  | bytes document => bytes document

theorem Value.lower_of_renders {held shown : Value} (renders : held.Renders shown) :
    shown.lower = held := by
  cases held <;> cases shown <;> cases renders <;> rfl

/-- An entity has what a row of it has, lowercase. -/
theorem Entity.Renders.lookup {entity : Entity} {row : Row} (renders : entity.Renders row)
    (name : String) :
    (rowOf entity).attributes.lookup name = (row.attributes.lookup name).map Value.lower := by
  rcases lookup_renders renders.2.2 name with ⟨isNone, isNone'⟩ | ⟨value, other, has, shows, same⟩
  · rw [isNone']
    exact isNone
  · rw [shows, Option.map_some, Value.lower_of_renders same]
    exact has

/-- A rendered row decodes to a record where its entity does, the case of its hex strings apart. -/
theorem Counter.Of.renders {entity : Entity} {row : Row} (renders : entity.Renders row)
    {record : Counter} {document : Json} (isOf : record.Of row document) :
    record.lower.Of (rowOf entity) document := by
  constructor
  · rw [Counter.lower, isOf.key]
    exact renders.1
  · rw [renders.lookup, isOf.payload]
    rfl
  · rw [renders.lookup, isOf.agreement]
    rfl
  · rw [renders.lookup, isOf.provider]
    rfl
  · exact isOf.count
  · exact isOf.weiPerCall
  · exact isOf.openedBlock
  · exact isOf.closedBlock

theorem lower_eq_key {shown : Option Value} {key : Hex}
    (same : shown.map Value.lower = some (.key key)) : ∃ text, shown = some (.key text) := by
  obtain ⟨value, rfl, isKey⟩ := Option.map_eq_some_iff.mp same
  cases value with
  | key text => exact ⟨text, rfl⟩
  | _ => cases isKey

theorem lower_eq_addr {shown : Option Value} {address : Hex}
    (same : shown.map Value.lower = some (.addr address)) : ∃ text, shown = some (.addr text) := by
  obtain ⟨value, rfl, isAddr⟩ := Option.map_eq_some_iff.mp same
  cases value with
  | addr text => exact ⟨text, rfl⟩
  | _ => cases isAddr

theorem lower_eq_bytes {shown : Option Value} {document : Except String Json}
    (same : shown.map Value.lower = some (.bytes document)) : shown = some (.bytes document) := by
  obtain ⟨value, rfl, isBytes⟩ := Option.map_eq_some_iff.mp same
  cases value with
  | bytes held => rw [← isBytes, Value.lower]
  | _ => cases isBytes

theorem toOption_eq_some {ε α : Type} {result : Except ε α} {value : α} :
    result.toOption = some value ↔ result = .ok value := by
  cases result <;> simp [Except.toOption]

/-- Each row of an entity decodes to a record where another row of it does, and to the same one. -/
theorem decodeCounter_renders {entity : Entity} {row : Row} (renders : entity.Renders row) :
    (∀ record, decodeCounter row = .ok record → entity.counter? = some record.lower) ∧
      ∀ held, entity.counter? = some held → ∃ record, decodeCounter row = .ok record := by
  constructor
  · intro record decoded
    obtain ⟨document, isOf⟩ := decodeCounter_iff.mp decoded
    exact toOption_eq_some.mpr (decodeCounter_iff.mpr ⟨document, isOf.renders renders⟩)
  · intro held decoded
    obtain ⟨document, isOf⟩ := decodeCounter_iff.mp (toOption_eq_some.mp decoded)
    have agreement := isOf.agreement
    have provider := isOf.provider
    have payload := isOf.payload
    rw [renders.lookup] at agreement provider payload
    obtain ⟨shownAgreement, isAgreement⟩ := lower_eq_key agreement
    obtain ⟨shownProvider, isProvider⟩ := lower_eq_addr provider
    refine ⟨{ held with
      key := row.key
      agreement := shownAgreement
      provider := shownProvider }, decodeCounter_iff.mpr ⟨document, ?_⟩⟩
    constructor
    · rfl
    · exact lower_eq_bytes payload
    · exact isAgreement
    · exact isProvider
    · exact isOf.count
    · exact isOf.weiPerCall
    · exact isOf.openedBlock
    · exact isOf.closedBlock

/-- Each row of an entity decodes to a receipt where another row of it does. -/
theorem decodeReceipt_renders {entity : Entity} {row other : Row} (renders : entity.Renders row)
    (renders' : entity.Renders other) {receipt : Receipt} (decoded : decodeReceipt row = .ok receipt) :
    ∃ receipt', decodeReceipt other = .ok receipt' := by
  obtain ⟨document, isOf⟩ := decodeReceipt_iff.mp decoded
  have same : ∀ name, (other.attributes.lookup name).map Value.lower =
      (row.attributes.lookup name).map Value.lower := fun name =>
    (renders'.lookup name).symm.trans (renders.lookup name)
  have counter := same "counter"
  have provider := same "provider"
  have payload := same "payload"
  rw [isOf.counter, Option.map_some] at counter
  rw [isOf.provider, Option.map_some] at provider
  rw [isOf.payload, Option.map_some] at payload
  obtain ⟨shownCounter, isCounter⟩ := lower_eq_key counter
  obtain ⟨shownProvider, isProvider⟩ := lower_eq_addr provider
  refine ⟨{ receipt with
    key := other.key
    counter := shownCounter
    provider := shownProvider }, decodeReceipt_iff.mpr ⟨document, ?_⟩⟩
  constructor
  · rfl
  · exact lower_eq_bytes payload
  · exact isCounter
  · exact isProvider
  · exact isOf.amountWei
  · exact isOf.payout

/-- The rows that answer the closed query decode to the closed records. -/
theorem closed_perm {books : Books} {lb : Hex} {rows : List Row}
    (answers : books.Answers (closedQuery lb) rows) {records : List Counter}
    (decoded : rows.mapM decodeCounter = .ok records) :
    (records.map Counter.lower).Perm (books.closed lb) := by
  obtain ⟨found, perm, renders⟩ := answers
  have read : found.filterMap Entity.counter? = records.map Counter.lower := by
    have all := mapM_ok decoded
    clear perm decoded
    induction renders generalizing records with
    | nil =>
        cases all
        rfl
    | cons one _ ih =>
        cases all with
        | cons isRecord rest =>
            rw [List.filterMap_cons_some ((decodeCounter_renders one).1 _ isRecord), ih rest]
            rfl
  rw [← read]
  exact perm.filterMap _

/-- What the receipts read for a provider name is what the chain's receipts point at. -/
theorem settledFor_iff {books : Books} {reader : RowQuery → List Row}
    (answers : ∀ query, books.Answers query (reader query)) {provider : Hex} {payers : List Hex}
    {settled : List Hex} (found : settledFor reader provider payers = .ok settled) (key : Hex) :
    key ∈ settled ↔ books.Receipted payers provider key := by
  simp only [settledFor, except_bind_ok] at found
  obtain ⟨all, isAll, found⟩ := found
  cases found
  have reads := mapM_ok isAll
  constructor
  · intro member
    obtain ⟨receipt, inAll, rfl⟩ := List.mem_map.mp member
    obtain ⟨receipts, isReceipts, inReceipts⟩ := List.mem_flatten.mp inAll
    obtain ⟨payer, isPayer, read⟩ := forall₂_right reads isReceipts
    obtain ⟨row, inRows, decoded⟩ := forall₂_right (mapM_ok read) inReceipts
    obtain ⟨held, perm, renders⟩ := answers (receiptsQuery payer provider)
    obtain ⟨entity, isHeld, rendered⟩ := forall₂_right renders inRows
    obtain ⟨inBooks, admitted⟩ := List.mem_filter.mp (perm.mem_iff.mp isHeld)
    rw [Bool.and_eq_true] at admitted
    refine ⟨entity, inBooks, admitted.1, ⟨payer, isPayer, admitted.2⟩, ?_⟩
    have shows := rendered.lookup "counter"
    rw [(decodeReceipt_ok decoded).1] at shows
    exact shows
  · rintro ⟨entity, inBooks, alive, ⟨payer, isPayer, admitted⟩, points⟩
    obtain ⟨receipts, isReceipts, read⟩ := forall₂_left reads isPayer
    obtain ⟨held, perm, renders⟩ := answers (receiptsQuery payer provider)
    have isHeld : entity ∈ held :=
      perm.mem_iff.mpr (List.mem_filter.mpr ⟨inBooks, by rw [alive, admitted]; rfl⟩)
    obtain ⟨row, inRows, rendered⟩ := forall₂_left renders isHeld
    obtain ⟨receipt, inReceipts, decoded⟩ := forall₂_left (mapM_ok read) inRows
    have shows := rendered.lookup "counter"
    rw [(decodeReceipt_ok decoded).1] at shows
    have same : some (Value.key key) = some (.key (Hex.toLowerCase receipt.counter)) :=
      points.symm.trans shows
    cases same
    exact List.mem_map.mpr ⟨receipt, List.mem_flatten.mpr ⟨receipts, isReceipts, inReceipts⟩, rfl⟩

/-! ## From the groups to the ledger -/

/-- What a ledger is made of. -/
structure MadeOf (reader : RowQuery → List Row) (lb : Hex) (payers : List Hex)
    (closed : List Counter) (groups : List (Hex × List Counter × Nat)) (plan : Ledger) : Prop where
  read : (reader (closedQuery lb)).mapM decodeCounter = .ok closed
  split : List.Forall₂ (fun group one => groupUnpaid reader payers group = .ok one)
    (byProvider closed).values groups
  owed : plan.owed = owedList groups
  paid : plan.paid = (groups.map (·.2.2)).sum

theorem ledger_madeOf {reader : RowQuery → List Row} {lb settle : Hex} {previous : List Hex}
    {plan : Ledger} (isPlan : ledger reader lb settle previous = .ok plan) :
    ∃ closed groups, MadeOf reader lb (settle :: previous) closed groups plan := by
  simp only [ledger] at isPlan
  split at isPlan
  · cases isPlan
  · next closed isClosed =>
      split at isPlan
      · cases isPlan
      · next groups isGroups =>
          cases isPlan
          exact ⟨closed, groups, isClosed, mapM_ok isGroups, rfl, rfl⟩

theorem mapM_of_ok {α β ε : Type} {read : α → Except ε β} {values : List α}
    (all : ∀ value ∈ values, ∃ one, read value = .ok one) : ∃ found, values.mapM read = .ok found := by
  induction values with
  | nil => exact ⟨[], rfl⟩
  | cons value values ih =>
      obtain ⟨one, isOne⟩ := all value List.mem_cons_self
      obtain ⟨rest, isRest⟩ := ih fun other member => all other (List.mem_cons_of_mem _ member)
      refine ⟨one :: rest, ?_⟩
      rw [List.mapM_cons]
      simp only [except_bind_ok]
      exact ⟨one, isOne, rest, isRest, rfl⟩

/-- A run whose rows all decode has a ledger. -/
theorem Decodes.ledger {reader : RowQuery → List Row} {lb settle : Hex} {previous : List Hex}
    (decodes : Decodes reader lb (settle :: previous)) :
    ∃ plan, CommunityLb.ledger reader lb settle previous = .ok plan := by
  obtain ⟨closed, isClosed⟩ := mapM_of_ok decodes.closed
  have groupsRead : ∀ group ∈ (byProvider closed).values,
      ∃ one, groupUnpaid reader (settle :: previous) group = .ok one := by
    intro group isGroup
    obtain ⟨record, inGroup⟩ : ∃ record, record ∈ group.2 :=
      List.exists_mem_of_ne_nil _ (byProvider_ne_nil closed group isGroup)
    have inClosed : record ∈ closed :=
      (byProvider_perm closed).mem_iff.mp (List.mem_flatMap.mpr ⟨group, isGroup, inGroup⟩)
    obtain ⟨row, inRows, decoded⟩ := forall₂_right (mapM_ok isClosed) inClosed
    have isProvider := byProvider_sorted closed group isGroup record inGroup
    obtain ⟨receipts, isReceipts⟩ : ∃ receipts, (settle :: previous).mapM (fun payer =>
        (reader (receiptsQuery payer group.1)).mapM decodeReceipt) = .ok receipts := by
      apply mapM_of_ok
      intro payer isPayer
      apply mapM_of_ok
      rw [← isProvider]
      exact decodes.receipts row inRows record decoded payer isPayer
    have settled : settledFor reader group.1 (settle :: previous) =
        .ok (receipts.flatten.map (·.counter.toLowerCase)) := by
      simp only [settledFor, except_bind_ok]
      exact ⟨receipts, isReceipts, rfl⟩
    simp only [groupUnpaid, except_bind_ok]
    exact ⟨_, _, settled, rfl⟩
  obtain ⟨groups, isGroups⟩ := mapM_of_ok groupsRead
  simp only [CommunityLb.ledger, isClosed]
  split
  · next failed => cases isGroups.symm.trans failed
  · exact ⟨_, rfl⟩

/-- Of what several own, apart from each other, one's is what names it. -/
theorem flatMap_filter_own {α β κ : Type} [DecidableEq κ] {owners : List α} {items : α → List β}
    {name : α → κ} {owner : β → κ} (distinct : (owners.map name).Nodup)
    (own : ∀ one ∈ owners, ∀ item ∈ items one, owner item = name one) {one : α}
    (member : one ∈ owners) :
    (owners.flatMap items).filter (fun item => owner item = name one) = items one := by
  induction owners with
  | nil => cases member
  | cons first rest ih =>
      rw [List.map_cons, List.nodup_cons] at distinct
      rw [List.flatMap_cons, List.filter_append]
      rcases List.mem_cons.mp member with rfl | later
      · have all : (items one).filter (fun item => owner item = name one) = items one := by
          rw [List.filter_eq_self]
          intro item isItem
          exact decide_eq_true (own one List.mem_cons_self item isItem)
        have none : (rest.flatMap items).filter (fun item => owner item = name one) = [] := by
          rw [List.filter_eq_nil_iff]
          intro item isItem same
          obtain ⟨other, inRest, isOther⟩ := List.mem_flatMap.mp isItem
          have named := own other (List.mem_cons_of_mem _ inRest) item isOther
          have same : owner item = name one := of_decide_eq_true same
          exact distinct.1 (List.mem_map.mpr ⟨other, inRest, named.symm.trans same⟩)
        rw [all, none, List.append_nil]
      · have none : (items first).filter (fun item => owner item = name one) = [] := by
          rw [List.filter_eq_nil_iff]
          intro item isItem same
          have named := own first List.mem_cons_self item isItem
          have same : owner item = name one := of_decide_eq_true same
          exact distinct.1 (List.mem_map.mpr ⟨one, later, same.symm.trans named⟩)
        rw [none, List.nil_append]
        exact ih distinct.2 (fun other inRest => own other (List.mem_cons_of_mem _ inRest)) later

open Classical in
/-- A group's unpaid records are those no receipt of the payers points at. -/
theorem groupUnpaid_exact {books : Books} {reader : RowQuery → List Row}
    (answers : ∀ query, books.Answers query (reader query)) {payers : List Hex}
    {group : Hex × List Counter} {one : Hex × List Counter × Nat}
    (own : ∀ record ∈ group.2, record.provider.toLowerCase = group.1)
    (found : groupUnpaid reader payers group = .ok one) :
    one.1 = group.1 ∧
      one.2.1 = group.2.filter (fun record =>
        ¬ books.Receipted payers record.provider.toLowerCase record.key.toLowerCase) ∧
      one.2.2 + one.2.1.length = group.2.length := by
  simp only [groupUnpaid, except_bind_ok] at found
  obtain ⟨settled, isSettled, found⟩ := found
  cases found
  have fewer := List.length_filter_le (fun record => decide (record.key.toLowerCase ∉ settled)) group.2
  refine ⟨rfl, ?_, Nat.sub_add_cancel fewer⟩
  apply List.filter_congr
  intro record member
  rw [own record member]
  simp [settledFor_iff answers isSettled]

open Classical in
/-- A ledger's records are those read that no receipt of the payers points at. -/
theorem MadeOf.records {books : Books} {reader : RowQuery → List Row}
    (answers : ∀ query, books.Answers query (reader query)) {lb : Hex} {payers : List Hex}
    {closed : List Counter} {groups : List (Hex × List Counter × Nat)} {plan : Ledger}
    (madeOf : MadeOf reader lb payers closed groups plan) :
    plan.records.Perm (closed.filter fun record =>
      ¬ books.Receipted payers record.provider.toLowerCase record.key.toLowerCase) ∧
    plan.paid + plan.records.length = closed.length := by
  have perm : plan.records.Perm (groups.flatMap (·.2.1)) := by
    rw [Ledger.records, madeOf.owed]
    exact owedList_records groups
  have split : ∀ (values : List (Hex × List Counter)) (groups : List (Hex × List Counter × Nat)),
      (∀ group ∈ values, ∀ record ∈ group.2, record.provider.toLowerCase = group.1) →
      List.Forall₂ (fun group one => groupUnpaid reader payers group = .ok one) values groups →
      groups.flatMap (·.2.1) = (values.flatMap (·.2)).filter (fun record =>
        ¬ books.Receipted payers record.provider.toLowerCase record.key.toLowerCase) ∧
      (groups.map (·.2.2)).sum + (groups.flatMap (·.2.1)).length =
        (values.flatMap (·.2)).length := by
    intro values groups own all
    induction all with
    | nil => exact ⟨rfl, rfl⟩
    | cons found _ ih =>
        obtain ⟨_, unpaid, count⟩ := groupUnpaid_exact answers (own _ List.mem_cons_self) found
        obtain ⟨rest, restCount⟩ := ih fun group member => own group (List.mem_cons_of_mem _ member)
        refine ⟨?_, ?_⟩
        · rw [List.flatMap_cons, List.flatMap_cons, List.filter_append, unpaid, rest]
        · rw [List.map_cons, List.sum_cons, List.flatMap_cons, List.flatMap_cons,
            List.length_append, List.length_append]
          omega
  obtain ⟨unpaid, count⟩ := split _ _ (byProvider_sorted closed) madeOf.split
  have whole := byProvider_perm closed
  constructor
  · rw [unpaid] at perm
    exact perm.trans (whole.filter _)
  · rw [perm.length_eq, madeOf.paid, count]
    exact whole.length_eq

/-- A ledger's providers, once each and in their order, with what they are owed. -/
theorem MadeOf.owes {reader : RowQuery → List Row} {lb : Hex} {payers : List Hex}
    {closed : List Counter} {groups : List (Hex × List Counter × Nat)} {plan : Ledger}
    (madeOf : MadeOf reader lb payers closed groups plan) {owed : Owed} (isOwed : owed ∈ plan.owed) :
    owed.records ≠ [] ∧
      (owed.records.Pairwise fun left right => left.closedBlock ≤ right.closedBlock) ∧
      ∀ record ∈ owed.records, record.provider.toLowerCase = owed.provider := by
  rw [madeOf.owed, (owedList_perm groups).mem_iff] at isOwed
  obtain ⟨group, inGroups, rfl⟩ := List.mem_map.mp isOwed
  obtain ⟨inGroups, more⟩ := List.mem_filter.mp inGroups
  obtain ⟨source, inSource, found⟩ := forall₂_right madeOf.split inGroups
  obtain ⟨sameProvider, sub, _⟩ := groupUnpaid_spec found
  refine ⟨?_, ?_, ?_⟩
  · intro none
    have perm := List.perm_insertionSort
      (fun left right : Counter => left.closedBlock ≤ right.closedBlock) group.2.1
    have none : group.2.1.insertionSort
      (fun left right : Counter => left.closedBlock ≤ right.closedBlock) = [] := none
    rw [none] at perm
    exact absurd (List.nil_perm.mp perm) (of_decide_eq_true more)
  · exact pairwise_insertionSort_by Counter.closedBlock group.2.1
  · intro record member
    have inUnpaid : record ∈ group.2.1 := (List.perm_insertionSort _ _).mem_iff.mp member
    have own := byProvider_sorted closed source inSource record (sub.mem inUnpaid)
    rw [own, ← sameProvider]
    rfl

/-- The providers of a ledger rise. -/
theorem MadeOf.providers {reader : RowQuery → List Row} {lb : Hex} {payers : List Hex}
    {closed : List Counter} {groups : List (Hex × List Counter × Nat)} {plan : Ledger}
    (madeOf : MadeOf reader lb payers closed groups plan) :
    (plan.owed.map (·.provider)).Pairwise (· < ·) := by
  have sorted : (plan.owed.map (·.provider)).Pairwise (· ≤ ·) := by
    rw [madeOf.owed, List.pairwise_map]
    exact pairwise_insertionSort_by Owed.provider _
  exact (sorted.and plan.distinct).imp fun both => lt_of_le_of_ne both.1 both.2

/-! ## Exactly what is unpaid -/

/-- Every ledger of a chain is exactly what is unpaid on it. -/
theorem ledger_exact {books : Books} {reader : RowQuery → List Row}
    (answers : ∀ query, books.Answers query (reader query)) {lb settle : Hex} {previous : List Hex}
    {plan : Ledger} (isPlan : ledger reader lb settle previous = .ok plan) :
    plan.Exact books lb (settle :: previous) := by
  classical
  obtain ⟨closed, groups, madeOf⟩ := ledger_madeOf isPlan
  obtain ⟨perm, count⟩ := madeOf.records answers
  have onChain := closed_perm (answers (closedQuery lb)) madeOf.read
  have whole : (plan.records.map Counter.lower).Perm (books.unpaid lb (settle :: previous)) := by
    have lowered := perm.map Counter.lower
    refine lowered.trans ?_
    have same : (closed.filter fun record => ¬ books.Receipted (settle :: previous)
          record.provider.toLowerCase record.key.toLowerCase).map Counter.lower =
        (closed.map Counter.lower).filter fun record =>
          ¬ books.Receipted (settle :: previous) record.provider record.key := by
      rw [List.filter_map]
      rfl
    rw [same]
    exact onChain.filter _
  constructor
  · exact madeOf.providers
  · exact whole
  · intro owed isOwed
    refine ⟨(madeOf.owes isOwed).1, ?_⟩
    have itsOwn : plan.records.filter (fun record => record.provider.toLowerCase = owed.provider) =
        owed.records :=
      flatMap_filter_own plan.distinct (fun other isOther => (madeOf.owes isOther).2.2) isOwed
    have lowered : owed.records.map Counter.lower =
        (plan.records.map Counter.lower).filter fun record => record.provider = owed.provider := by
      rw [← itsOwn, List.filter_map]
      rfl
    rw [lowered]
    have filtered := whole.filter fun record => decide (record.provider = owed.provider)
    rw [Books.unpaidTo]
    convert filtered
  · intro owed isOwed
    exact (madeOf.owes isOwed).2.1
  · intro owed _
    exact owed.adds_up
  · intro provider more
    obtain ⟨held, isHeld⟩ := List.exists_mem_of_ne_nil _ more
    rw [Books.unpaidTo] at isHeld
    obtain ⟨isUnpaid, isProvider⟩ := List.mem_filter.mp isHeld
    obtain ⟨record, isRecord, rfl⟩ := List.mem_map.mp (whole.mem_iff.mpr isUnpaid)
    obtain ⟨owed, isOwed, inOwed⟩ := List.mem_flatMap.mp isRecord
    have own := (madeOf.owes isOwed).2.2 record inOwed
    have isProvider : record.provider.toLowerCase = provider := of_decide_eq_true isProvider
    exact List.mem_map.mpr ⟨owed, isOwed, own.symm.trans isProvider⟩
  · rw [count, ← onChain.length_eq, List.length_map]
  · exact plan.adds_up

theorem forall₂_of_map_eq {α κ : Type} {R : α → α → Prop} {name : α → κ} {left right : List α}
    (same : left.map name = right.map name)
    (related : ∀ one ∈ left, ∀ other ∈ right, name one = name other → R one other) :
    List.Forall₂ R left right := by
  induction left generalizing right with
  | nil =>
      cases right with
      | nil => exact .nil
      | cons other others => cases same
  | cons one rest ih =>
      cases right with
      | nil => cases same
      | cons other others =>
          rw [List.map_cons, List.map_cons, List.cons.injEq] at same
          apply List.Forall₂.cons
          · exact related one List.mem_cons_self other List.mem_cons_self same.1
          · exact ih same.2 fun left inRest right inOthers =>
              related left (List.mem_cons_of_mem _ inRest) right (List.mem_cons_of_mem _ inOthers)

/-- What an amount is of records is that of their lowercase. -/
theorem amounts_lower (records : List Counter) :
    (records.map fun record => record.count * record.weiPerCall).sum =
      ((records.map Counter.lower).map amountOf).sum := by
  rw [List.map_map]
  rfl

/-- Two ledgers, each exactly what is unpaid on a chain with the same closed records and the same
receipts of the payers, owe the same. -/
theorem Ledger.Exact.same {books others : Books} {lb : Hex} {payers : List Hex}
    {plan other : Ledger} (exact_ : plan.Exact books lb payers)
    (exact' : other.Exact others lb payers) (sameClosed : others.closed lb = books.closed lb)
    (sameReceipts : ∀ provider key,
      others.Receipted payers provider key ↔ books.Receipted payers provider key) :
    plan.Same other := by
  classical
  have unpaid : others.unpaid lb payers = books.unpaid lb payers := by
    simp only [Books.unpaid, sameClosed, sameReceipts]
  have unpaidTo : ∀ provider, others.unpaidTo lb payers provider =
      books.unpaidTo lb payers provider := by
    intro provider
    rw [Books.unpaidTo, Books.unpaidTo, unpaid]
  have owes : ∀ (books : Books) (plan : Ledger), plan.Exact books lb payers → ∀ provider,
      provider ∈ plan.owed.map (·.provider) ↔ books.unpaidTo lb payers provider ≠ [] := by
    intro books plan isExact provider
    constructor
    · intro member
      obtain ⟨owed, isOwed, rfl⟩ := List.mem_map.mp member
      obtain ⟨more, perm⟩ := isExact.records owed isOwed
      intro none
      rw [none] at perm
      exact more (List.map_eq_nil_iff.mp (List.perm_nil.mp perm))
    · exact isExact.everyone provider
  have providers : plan.owed.map (·.provider) = other.owed.map (·.provider) := by
    refine List.Perm.eq_of_pairwise ?_ exact_.providers exact'.providers ?_
    · intro left right _ _ less less'
      exact absurd less' less.asymm
    · rw [List.perm_ext_iff_of_nodup plan.distinct other.distinct]
      intro provider
      rw [owes books plan exact_, owes others other exact', unpaidTo]
  have owed := forall₂_of_map_eq (R := fun left right : Owed => left.provider = right.provider ∧
      left.amountWei = right.amountWei ∧
        (left.records.map Counter.lower).Perm (right.records.map Counter.lower)) providers (by
    intro left isLeft right isRight sameProvider
    have records := (exact_.records left isLeft).2
    have records' := (exact'.records right isRight).2
    rw [← sameProvider, unpaidTo] at records'
    have perm := records.trans records'.symm
    refine ⟨sameProvider, ?_, perm⟩
    rw [exact_.amount left isLeft, exact'.amount right isRight, amounts_lower, amounts_lower]
    exact (perm.map amountOf).sum_eq)
  have lengths : plan.records.length = other.records.length := by
    have perm := exact_.whole.trans (unpaid ▸ exact'.whole).symm
    simpa using perm.length_eq
  constructor
  · exact owed
  · have count := exact_.counted
    have count' := exact'.counted
    rw [sameClosed] at count'
    omega
  · rw [exact_.total, exact'.total]
    have amounts : plan.owed.map (·.amountWei) = other.owed.map (·.amountWei) := by
      rw [← List.forall₂_eq_eq_eq, List.forall₂_map_left_iff, List.forall₂_map_right_iff]
      exact owed.imp fun _ _ same => same.2.1
    rw [amounts]

/-- A receipt of somebody who is none of the payers. -/
def Forged (payers : List Hex) (entity : Entity) : Prop :=
  entity.hasStr "kind" KIND.receipt = true ∧ ∀ payer ∈ payers, entity.creator ≠ payer.toLowerCase

/-- A chain with more entities. -/
def Books.with (books : Books) (more : List Entity) : Books :=
  { books with entities := books.entities ++ more }

/-- Forged receipts answer none of a run's queries. -/
theorem Forged.unread {payers : List Hex} {entity : Entity} (forged : Forged payers entity) :
    (∀ lb, (closedQuery lb).admits entity = false) ∧
      ∀ payer ∈ payers, ∀ provider, (receiptsQuery payer provider).admits entity = false := by
  obtain ⟨isReceipt, stranger⟩ := forged
  constructor
  · intro lb
    have notCounter : entity.hasStr "kind" KIND.counter = false := by
      rw [Bool.eq_false_iff]
      intro isCounter
      have same := (hasStr_iff.mp isReceipt).symm.trans (hasStr_iff.mp isCounter)
      rw [Option.some.injEq, Value.str.injEq] at same
      exact absurd same (by decide)
    rw [RowQuery.admits, closedQuery, byKind, notCounter]
    rfl
  · intro payer isPayer provider
    simp [RowQuery.admits, receiptsQuery, byKind, Entity.meets, stranger payer isPayer]

theorem closed_with {books : Books} {lb : Hex} {payers : List Hex} {forged : List Entity}
    (allForged : ∀ entity ∈ forged, Forged payers entity) :
    (books.with forged).closed lb = books.closed lb := by
  have none : forged.filter (fun entity =>
      (books.with forged).alive entity && (closedQuery lb).admits entity) = [] := by
    rw [List.filter_eq_nil_iff]
    intro entity member
    simp [(allForged entity member).unread.1 lb]
  rw [Books.closed, Books.with, List.filter_append]
  have none' : forged.filter (fun entity =>
      ({ books with entities := books.entities ++ forged } : Books).alive entity &&
        (closedQuery lb).admits entity) = [] := none
  rw [none', List.append_nil]
  rfl

theorem receipted_with {books : Books} {payers : List Hex} {forged : List Entity}
    (allForged : ∀ entity ∈ forged, Forged payers entity) (provider key : Hex) :
    (books.with forged).Receipted payers provider key ↔ books.Receipted payers provider key := by
  constructor
  · rintro ⟨entity, member, alive, ⟨payer, isPayer, admitted⟩, points⟩
    rcases List.mem_append.mp member with old | isForged
    · exact ⟨entity, old, alive, ⟨payer, isPayer, admitted⟩, points⟩
    · rw [(allForged entity isForged).unread.2 payer isPayer provider] at admitted
      cases admitted
  · rintro ⟨entity, member, alive, admitted, points⟩
    exact ⟨entity, List.mem_append_left _ member, alive, admitted, points⟩

/-- What a query answers on a chain with forged receipts, it answers without them. -/
theorem answers_with {books : Books} {query : RowQuery} {rows others : List Row}
    {forged : List Entity} (unread : ∀ entity ∈ forged, query.admits entity = false)
    (answers : books.Answers query rows) (answers' : (books.with forged).Answers query others) :
    ∀ other ∈ others, ∃ entity : Entity, ∃ row ∈ rows,
      entity.Renders row ∧ entity.Renders other := by
  intro other isOther
  obtain ⟨found, perm, renders⟩ := answers
  obtain ⟨found', perm', renders'⟩ := answers'
  obtain ⟨entity, isFound, rendered⟩ := forall₂_right renders' isOther
  obtain ⟨member, admitted⟩ := List.mem_filter.mp (perm'.mem_iff.mp isFound)
  have old : entity ∈ books.entities := by
    rcases List.mem_append.mp member with old | isForged
    · exact old
    · rw [unread entity isForged, Bool.and_false] at admitted
      cases admitted
  obtain ⟨row, isRow, rendered'⟩ := forall₂_left renders
    (perm.mem_iff.mpr (List.mem_filter.mpr ⟨old, admitted⟩))
  exact ⟨entity, row, isRow, rendered', rendered⟩

/-- The rows of a chain with forged receipts decode where those of the chain do. -/
theorem Decodes.with {books : Books} {reader other : RowQuery → List Row} {lb : Hex}
    {payers : List Hex} (decodes : Decodes reader lb payers)
    (answers : ∀ query, books.Answers query (reader query)) {forged : List Entity}
    (allForged : ∀ entity ∈ forged, Forged payers entity)
    (answers' : ∀ query, (books.with forged).Answers query (other query)) :
    Decodes other lb payers := by
  have closedRows := answers_with (fun entity member => (allForged entity member).unread.1 lb)
    (answers (closedQuery lb)) (answers' (closedQuery lb))
  constructor
  · intro row inRows
    obtain ⟨entity, old, isOld, renders, renders'⟩ := closedRows row inRows
    obtain ⟨record, decoded⟩ := decodes.closed old isOld
    exact (decodeCounter_renders renders').2 _ ((decodeCounter_renders renders).1 record decoded)
  · intro row inRows record decoded payer isPayer receiptRow inReceipts
    obtain ⟨entity, old, isOld, renders, renders'⟩ := closedRows row inRows
    obtain ⟨oldRecord, oldDecoded⟩ := decodes.closed old isOld
    have lowered := ((decodeCounter_renders renders).1 _ oldDecoded).symm.trans
      ((decodeCounter_renders renders').1 _ decoded)
    have sameProvider : oldRecord.provider.toLowerCase = record.provider.toLowerCase :=
      congrArg Counter.provider (Option.some.inj lowered)
    rw [← sameProvider] at inReceipts
    obtain ⟨receiptEntity, oldReceipt, inOld, shows, shows'⟩ := answers_with
      (fun entity member =>
        (allForged entity member).unread.2 payer isPayer oldRecord.provider.toLowerCase)
      (answers _) (answers' _) receiptRow inReceipts
    obtain ⟨receipt, decodedReceipt⟩ :=
      decodes.receipts old isOld oldRecord oldDecoded payer isPayer oldReceipt inOld
    exact decodeReceipt_renders shows shows' decodedReceipt

/-- For every chain, and every answer of its rows in whatever order and case, if every row read
decodes the ledger is exactly what is unpaid; and whatever receipts others forge, and however the
rows are answered then, it owes the same. -/
theorem ledger_owes_exactly_unpaid {books : Books} {reader : RowQuery → List Row}
    {lb settle : Hex} {previous : List Hex}
    (answers : ∀ query, books.Answers query (reader query))
    (decodes : Decodes reader lb (settle :: previous)) :
    ∃ plan, ledger reader lb settle previous = .ok plan ∧
      plan.Exact books lb (settle :: previous) ∧
      ∀ (forged : List Entity) (other : RowQuery → List Row),
        (∀ entity ∈ forged, Forged (settle :: previous) entity) →
        (∀ query, (books.with forged).Answers query (other query)) →
        ∃ again, ledger other lb settle previous = .ok again ∧ plan.Same again := by
  obtain ⟨plan, isPlan⟩ := decodes.ledger
  have isExact := ledger_exact answers isPlan
  refine ⟨plan, isPlan, isExact, fun forged other allForged answers' => ?_⟩
  obtain ⟨again, isAgain⟩ := (decodes.with answers allForged answers').ledger
  have isExact' := ledger_exact answers' isAgain
  exact ⟨again, isAgain, isExact.same isExact' (closed_with allForged) (receipted_with allForged)⟩

/-! ## A chain with two periods, one of them paid -/

/-- A period of provider p. -/
def periodOf (key : Char) (closedBlock : Int) : Entity where
  key := [key]
  creator := ['l']
  createdAt := 1
  expiresAt := 900
  attributes :=
    [("kind", .str KIND.counter), ("v", .i32 SCHEMA_VERSION), ("state", .str "closed"),
      ("agreement", .key ['a']), ("provider", .addr ['p']),
      ("payload", .bytes (.ok (.obj [("count", .num 3), ("wei_per_call", .str "5"),
        ("opened_block", .num 1), ("closed_block", .num closedBlock)])))]
  readonly := false

/-- A receipt that a payer wrote. -/
def receiptBy (payer key : Char) : Entity where
  key := ['r']
  creator := [payer]
  createdAt := 20
  expiresAt := 900
  attributes :=
    [("kind", .str KIND.receipt), ("v", .i32 SCHEMA_VERSION), ("counter", .key [key]),
      ("provider", .addr ['p']),
      ("payload", .bytes (.ok (.obj [("amount_wei", .str "15"),
        ("payout", .obj [("chain_id", .num 7), ("tx", .str "t")])])))]
  readonly := true

/-- Two periods, one of them paid. -/
def onePaid : Books where
  head := 30
  entities := [periodOf 'c' 9, periodOf 'd' 19, receiptBy 's' 'c']
  gone := []

/-- Its rows, as they are. -/
def rowsOf (books : Books) (query : RowQuery) : List Row :=
  (books.entities.filter fun entity => books.alive entity && query.admits entity).map rowOf

theorem Value.renders_lower {value : Value} (lower : value.lower = value) : value.Renders value := by
  cases value with
  | addr text => exact (Value.addr.injEq _ _).mp lower
  | key text => exact (Value.key.injEq _ _).mp lower
  | str _ | i32 _ | bytes _ => rfl

theorem rowsOf_answers {books : Books} (canonical : ∀ entity ∈ books.entities,
      entity.key.toLowerCase = entity.key ∧ entity.creator.toLowerCase = entity.creator ∧
        ∀ named ∈ entity.attributes, named.2.lower = named.2) (query : RowQuery) :
    books.Answers query (rowsOf books query) := by
  refine ⟨_, .refl _, ?_⟩
  rw [rowsOf, List.forall₂_map_right_iff, List.forall₂_same]
  intro entity member
  obtain ⟨key, creator, attributes⟩ := canonical entity (List.mem_of_mem_filter member)
  refine ⟨key, creator, ?_⟩
  rw [rowOf, List.forall₂_same]
  exact fun named isNamed => ⟨rfl, Value.renders_lower (attributes named isNamed)⟩

theorem onePaid_answers (query : RowQuery) : onePaid.Answers query (rowsOf onePaid query) := by
  apply rowsOf_answers
  intro entity member
  simp only [onePaid, List.mem_cons, List.not_mem_nil, or_false] at member
  rcases member with rfl | rfl | rfl
  · exact ⟨rfl, rfl, by simp [periodOf, Value.lower, Hex.toLowerCase]⟩
  · exact ⟨rfl, rfl, by simp [periodOf, Value.lower, Hex.toLowerCase]⟩
  · exact ⟨rfl, rfl, by simp [receiptBy, Value.lower, Hex.toLowerCase]⟩

theorem onePaid_decodes : Decodes (rowsOf onePaid) ['l'] [['s']] := by
  have isPeriod : rowsOf onePaid (closedQuery ['l']) =
      [rowOf (periodOf 'c' 9), rowOf (periodOf 'd' 19)] := rfl
  have isReceipt : rowsOf onePaid (receiptsQuery ['s'] ['p']) = [rowOf (receiptBy 's' 'c')] := rfl
  constructor
  · intro row member
    rw [isPeriod] at member
    simp only [List.mem_cons, List.not_mem_nil, or_false] at member
    rcases member with rfl | rfl <;> exact ⟨_, rfl⟩
  · intro row member record decoded payer isPayer receiptRow inReceipts
    obtain rfl := List.mem_singleton.mp isPayer
    have provider : record.provider.toLowerCase = ['p'] := by
      rw [isPeriod] at member
      simp only [List.mem_cons, List.not_mem_nil, or_false] at member
      rcases member with rfl | rfl <;> cases decoded <;> rfl
    rw [provider, isReceipt] at inReceipts
    obtain rfl := List.mem_singleton.mp inReceipts
    exact ⟨_, rfl⟩

/-- The period that was not paid is owed. -/
theorem onePaid_owes_other : ∃ plan, ledger (rowsOf onePaid) ['l'] ['s'] [] = .ok plan ∧
    plan.keys = [['d']] ∧ plan.paid = 1 ∧ plan.totalOwedWei = 15 ∧
    plan.Exact onePaid ['l'] [['s']] := by
  obtain ⟨plan, isPlan, isExact, _⟩ := ledger_owes_exactly_unpaid onePaid_answers onePaid_decodes
  refine ⟨plan, isPlan, ?_⟩
  cases isPlan
  exact ⟨rfl, rfl, rfl, isExact⟩

end CommunityLb
