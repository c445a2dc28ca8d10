import CommunityLb.Settle.Records
import CommunityLb.Lib.Keyed

/-!
# What a run owes

Every closed counter record the LB wrote that no receipt of settle's own, or of an earlier settle
key, names yet, grouped by provider.
-/

namespace CommunityLb

/-- Owed for one record: its count at the rate the record itself carries. -/
def amountOf (record : Counter) : Int :=
  record.count * record.weiPerCall

/-- What one provider is owed, and for which records. -/
structure Owed where
  provider : Hex
  records : List Counter
  amountWei : Int
  adds_up : amountWei = (records.map amountOf).sum
  deriving DecidableEq, Repr

/-- What a run would pay, each provider once. -/
structure Ledger where
  owed : List Owed
  /-- Records already named by a receipt, skipped. -/
  paid : Nat
  totalOwedWei : Int
  distinct : (owed.map (·.provider)).Nodup
  adds_up : totalOwedWei = (owed.map (·.amountWei)).sum

/-- The closed counter records of an LB. -/
def closedQuery (lb : Hex) : RowQuery :=
  byKind KIND.counter [.creator lb.toLowerCase, .attrStr "state" "closed"]

/-- The receipts of a payer that name a provider. -/
def receiptsQuery (payer provider : Hex) : RowQuery :=
  byKind KIND.receipt [.creator payer.toLowerCase, .attrAddr "provider" provider.toLowerCase]

/-- One more record under its provider. -/
def addToGroup (groups : Keyed (Prod.fst : Hex × List Counter → Hex)) (record : Counter) :
    Keyed (Prod.fst : Hex × List Counter → Hex) :=
  let provider := record.provider.toLowerCase
  match groups.get? provider with
  | none => groups.insert (provider, [record])
  | some _ => groups.adjust provider (fun group => (group.1, group.2 ++ [record])) fun _ => rfl

/-- The records by provider, in the order the providers come up. -/
def byProvider (closed : List Counter) : Keyed (Prod.fst : Hex × List Counter → Hex) :=
  closed.foldl addToGroup .empty

/-- The counter records that the receipts of these payers name for a provider. -/
def settledFor (reader : RowQuery → List Row) (provider : Hex) (payers : List Hex) :
    Except String (List Hex) := do
  let receipts ← payers.mapM fun payer => (reader (receiptsQuery payer provider)).mapM decodeReceipt
  return receipts.flatten.map (·.counter.toLowerCase)

/-- The records no receipt names, oldest period first, and what they add up to. -/
def owedOf (provider : Hex) (unpaid : List Counter) : Owed where
  provider := provider
  records := unpaid.insertionSort fun left right => left.closedBlock ≤ right.closedBlock
  amountWei := (unpaid.map amountOf).sum
  adds_up := (((List.perm_insertionSort _ unpaid).map amountOf).sum_eq).symm

/-- One provider's records, those paid apart. -/
def groupUnpaid (reader : RowQuery → List Row) (payers : List Hex) (group : Hex × List Counter) :
    Except String (Hex × List Counter × Nat) := do
  let settled ← settledFor reader group.1 payers
  let unpaid := group.2.filter fun record => record.key.toLowerCase ∉ settled
  return (group.1, unpaid, group.2.length - unpaid.length)

/-- What the providers with unpaid records are owed, by provider. -/
def owedList (groups : List (Hex × List Counter × Nat)) : List Owed :=
  ((groups.filter fun group => group.2.1 ≠ []).map fun group =>
    owedOf group.1 group.2.1).insertionSort
    fun left right => left.provider ≤ right.provider

/-- Sorted by a measure, the values' measures rise. -/
theorem pairwise_insertionSort_by {α β : Type} [LinearOrder β] (measure : α → β)
    (values : List α) :
    (values.insertionSort fun left right => measure left ≤ measure right).Pairwise
      fun left right => measure left ≤ measure right := by
  have total : Std.Total fun left right : α => measure left ≤ measure right :=
    ⟨fun left right => le_total (measure left) (measure right)⟩
  have trans : IsTrans α fun left right => measure left ≤ measure right :=
    ⟨fun _ _ _ first second => first.trans second⟩
  exact List.pairwise_insertionSort _ values

theorem owedList_perm (groups : List (Hex × List Counter × Nat)) :
    (owedList groups).Perm
      ((groups.filter fun group => group.2.1 ≠ []).map fun group => owedOf group.1 group.2.1) :=
  List.perm_insertionSort _ _

/-- What is owed is every group's unpaid records. -/
theorem owedList_records (groups : List (Hex × List Counter × Nat)) :
    ((owedList groups).flatMap (·.records)).Perm (groups.flatMap (·.2.1)) := by
  have sorted : (((groups.filter fun group => group.2.1 ≠ []).map fun group =>
      owedOf group.1 group.2.1).flatMap (·.records)).Perm
      ((groups.filter fun group => group.2.1 ≠ []).flatMap (·.2.1)) := by
    rw [List.flatMap_map]
    exact List.Perm.flatMap_left _ fun group _ => List.perm_insertionSort _ _
  have others : (groups.filter fun group => group.2.1 ≠ []).flatMap (·.2.1) =
      groups.flatMap (·.2.1) := by
    clear sorted
    induction groups with
    | nil => rfl
    | cons group groups ih =>
        by_cases more : group.2.1 = []
        · rw [List.filter_cons_of_neg (by simpa using more), List.flatMap_cons, more, ih]
          rfl
        · rw [List.filter_cons_of_pos (by simpa using more), List.flatMap_cons, List.flatMap_cons,
            ih]
  rw [← others]
  exact ((owedList_perm groups).flatMap_right (·.records)).trans sorted

/-- The groups' providers are the groups'. -/
theorem owedList_distinct {groups : List (Hex × List Counter × Nat)}
    (distinct : (groups.map (·.1)).Nodup) : ((owedList groups).map (·.provider)).Nodup := by
  refine (((owedList_perm groups).map (·.provider)).nodup_iff).mpr ?_
  rw [List.map_map]
  exact distinct.sublist (List.filter_sublist.map _)

theorem mapM_ok {α β ε : Type} {read : α → Except ε β} {values : List α} {found : List β}
    (all : values.mapM read = .ok found) : List.Forall₂ (fun value one => read value = .ok one)
      values found := by
  induction values generalizing found with
  | nil =>
      cases all
      exact .nil
  | cons value values ih =>
      rw [List.mapM_cons] at all
      simp only [except_bind_ok] at all
      obtain ⟨one, isOne, rest, isRest, all⟩ := all
      cases all
      exact .cons isOne (ih isRest)

/-- Each value on the left has its own on the right. -/
theorem forall₂_left {α β : Type} {R : α → β → Prop} {left : List α} {right : List β}
    (all : List.Forall₂ R left right) {value : α} (member : value ∈ left) :
    ∃ other ∈ right, R value other := by
  induction all with
  | nil => cases member
  | cons first _ ih =>
      rcases List.mem_cons.mp member with rfl | later
      · exact ⟨_, List.mem_cons_self, first⟩
      · obtain ⟨other, inRest, related⟩ := ih later
        exact ⟨other, List.mem_cons_of_mem _ inRest, related⟩

/-- Each value on the right is one's on the left. -/
theorem forall₂_right {α β : Type} {R : α → β → Prop} {left : List α} {right : List β}
    (all : List.Forall₂ R left right) {value : β} (member : value ∈ right) :
    ∃ other ∈ left, R other value :=
  forall₂_left all.flip member

/-- The groups keep their providers. -/
theorem groupUnpaid_keys {reader : RowQuery → List Row} {payers : List Hex}
    {groups : List (Hex × List Counter)} {split : List (Hex × List Counter × Nat)}
    (all : List.Forall₂ (fun group one => groupUnpaid reader payers group = .ok one) groups split) :
    split.map (·.1) = groups.map (·.1) := by
  induction all with
  | nil => rfl
  | cons one _ ih =>
      simp only [groupUnpaid, except_bind_ok] at one
      obtain ⟨_, _, one⟩ := one
      cases one
      rw [List.map_cons, List.map_cons, ih]

/-- The ledger a run would pay: what the reader answers each query, and the addresses whose receipts
count. -/
def ledger (reader : RowQuery → List Row) (lb settle : Hex) (previous : List Hex) :
    Except String Ledger :=
  match (reader (closedQuery lb)).mapM decodeCounter with
  | .error reason => .error reason
  | .ok closed =>
      match split : (byProvider closed).values.mapM (groupUnpaid reader (settle :: previous)) with
      | .error reason => .error reason
      | .ok groups =>
          .ok
            { owed := owedList groups
              paid := (groups.map (·.2.2)).sum
              totalOwedWei := ((owedList groups).map (·.amountWei)).sum
              distinct := owedList_distinct
                (groupUnpaid_keys (mapM_ok split) ▸ (byProvider closed).distinct)
              adds_up := rfl }

/-! ## What the ledger holds -/

namespace Ledger

/-- The records owed, of all providers. -/
def records (plan : Ledger) : List Counter :=
  plan.owed.flatMap (·.records)

/-- Their keys. -/
def keys (plan : Ledger) : List Hex :=
  plan.records.map (·.key.toLowerCase)

end Ledger

/-- The records of all groups. -/
def grouped (groups : Keyed (Prod.fst : Hex × List Counter → Hex)) : List Counter :=
  groups.values.flatMap (·.2)

/-- One group of a provider gets one more record. -/
theorem flatMap_push {values : List (Hex × List Counter)} (distinct : (values.map Prod.fst).Nodup)
    {provider : Hex} (member : provider ∈ values.map Prod.fst) (record : Counter) :
    ((values.map fun group =>
        if group.1 = provider then (group.1, group.2 ++ [record]) else group).flatMap (·.2)).Perm
      (values.flatMap (·.2) ++ [record]) := by
  induction values with
  | nil => cases member
  | cons first rest ih =>
      obtain ⟨unlike, distinct⟩ := List.nodup_cons.mp distinct
      by_cases same : first.1 = provider
      · have others : rest.map (fun group =>
            if group.1 = provider then (group.1, group.2 ++ [record]) else group) = rest := by
          conv_rhs => rw [← List.map_id rest]
          refine List.map_congr_left fun other inRest => if_neg fun same' => ?_
          exact unlike (List.mem_map.mpr ⟨other, inRest, same'.trans same.symm⟩)
        simp only [List.map_cons, List.flatMap_cons, others, if_pos same, List.append_assoc]
        exact (List.perm_append_comm).append_left _
      · have later : provider ∈ rest.map Prod.fst := by
          rcases List.mem_cons.mp member with here | later
          · exact absurd here.symm same
          · exact later
        simp only [List.map_cons, List.flatMap_cons, if_neg same, List.append_assoc]
        exact (ih distinct later).append_left _

/-- A record joins its provider's group, and the groups have it and what they had. -/
theorem addToGroup_perm (groups : Keyed (Prod.fst : Hex × List Counter → Hex)) (record : Counter) :
    (grouped (addToGroup groups record)).Perm (grouped groups ++ [record]) := by
  simp only [addToGroup]
  split
  · next free =>
      rw [grouped, Keyed.insert_values free, List.flatMap_append]
      simp [grouped]
  · next group found =>
      obtain ⟨member, isProvider⟩ := Keyed.get?_eq_some.mp found
      exact flatMap_push groups.distinct (List.mem_map.mpr ⟨group, member, isProvider⟩) record

/-- The groups have every record, once. -/
theorem byProvider_perm (closed : List Counter) : (grouped (byProvider closed)).Perm closed := by
  suffices general : ∀ groups : Keyed (Prod.fst : Hex × List Counter → Hex),
      (grouped (closed.foldl addToGroup groups)).Perm (grouped groups ++ closed) from
    general .empty
  induction closed with
  | nil => intro groups; simp
  | cons record closed ih =>
      intro groups
      have more := (addToGroup_perm groups record).append_right closed
      simpa using (ih (addToGroup groups record)).trans more

/-- A group's records are its provider's. -/
def Sorted (groups : Keyed (Prod.fst : Hex × List Counter → Hex)) : Prop :=
  ∀ group ∈ groups.values, ∀ record ∈ group.2, record.provider.toLowerCase = group.1

theorem addToGroup_sorted {groups : Keyed (Prod.fst : Hex × List Counter → Hex)}
    (sorted : Sorted groups) (record : Counter) : Sorted (addToGroup groups record) := by
  intro group member
  simp only [addToGroup] at member
  split at member
  · rcases Keyed.mem_insert.mp member with ⟨old, _⟩ | rfl
    · exact sorted group old
    · intro other isOther
      rw [List.mem_singleton.mp isOther]
  · obtain ⟨old, inOld, rfl⟩ := List.mem_map.mp member
    split
    · next same =>
        intro other isOther
        rcases List.mem_append.mp isOther with before | isNew
        · exact sorted old inOld other before
        · rw [List.mem_singleton.mp isNew, same]
    · exact sorted old inOld

theorem byProvider_sorted (closed : List Counter) : Sorted (byProvider closed) := by
  suffices general : ∀ groups : Keyed (Prod.fst : Hex × List Counter → Hex), Sorted groups →
      Sorted (closed.foldl addToGroup groups) from
    general .empty fun _ member => by cases member
  induction closed with
  | nil => exact fun _ sorted => sorted
  | cons record closed ih => exact fun groups sorted => ih _ (addToGroup_sorted sorted record)

/-- A group has a record. -/
theorem byProvider_ne_nil (closed : List Counter) :
    ∀ group ∈ (byProvider closed).values, group.2 ≠ [] := by
  suffices general : ∀ groups : Keyed (Prod.fst : Hex × List Counter → Hex),
      (∀ group ∈ groups.values, group.2 ≠ []) →
        ∀ group ∈ (closed.foldl addToGroup groups).values, group.2 ≠ [] from
    general .empty fun _ member => by cases member
  induction closed with
  | nil => exact fun _ more => more
  | cons record closed ih =>
      intro groups more
      apply ih
      intro group member
      simp only [addToGroup] at member
      split at member
      · rcases Keyed.mem_insert.mp member with ⟨old, _⟩ | rfl
        · exact more group old
        · exact List.cons_ne_nil _ _
      · obtain ⟨old, inOld, rfl⟩ := List.mem_map.mp member
        split
        · exact List.append_ne_nil_of_right_ne_nil _ (List.cons_ne_nil _ _)
        · exact more old inOld

/-- What an unpaid record is: a record of its provider's group that no receipt read names. -/
theorem groupUnpaid_spec {reader : RowQuery → List Row} {payers : List Hex}
    {group : Hex × List Counter} {one : Hex × List Counter × Nat}
    (found : groupUnpaid reader payers group = .ok one) :
    one.1 = group.1 ∧ one.2.1.Sublist group.2 ∧
      ∀ record ∈ one.2.1, ∀ payer ∈ payers, ∃ receipts,
        (reader (receiptsQuery payer group.1)).mapM decodeReceipt = .ok receipts ∧
          ∀ receipt ∈ receipts, receipt.counter.toLowerCase ≠ record.key.toLowerCase := by
  simp only [groupUnpaid, except_bind_ok] at found
  obtain ⟨settled, isSettled, found⟩ := found
  cases found
  refine ⟨rfl, List.filter_sublist, fun record member payer isPayer => ?_⟩
  have unnamed : record.key.toLowerCase ∉ settled := by simpa using (List.mem_filter.mp member).2
  simp only [settledFor, except_bind_ok] at isSettled
  obtain ⟨all, isAll, isSettled⟩ := isSettled
  cases isSettled
  obtain ⟨receipts, inAll, isReceipts⟩ := forall₂_left (mapM_ok isAll) isPayer
  refine ⟨receipts, isReceipts, fun receipt isReceipt same => unnamed ?_⟩
  exact List.mem_map.mpr ⟨receipt, List.mem_flatten.mpr ⟨receipts, inAll, isReceipt⟩, same⟩

/-- The ledger owes closed records, each at most once and under its provider, and none that a receipt
it read names. -/
theorem ledger_spec {reader : RowQuery → List Row} {lb settle : Hex} {previous : List Hex}
    {plan : Ledger} (isPlan : ledger reader lb settle previous = .ok plan) :
    ∃ closed, (reader (closedQuery lb)).mapM decodeCounter = .ok closed ∧
      plan.records.Subperm closed ∧
      ∀ owed ∈ plan.owed, ∀ record ∈ owed.records, record.provider.toLowerCase = owed.provider ∧
        ∀ payer ∈ settle :: previous, ∃ receipts,
          (reader (receiptsQuery payer owed.provider)).mapM decodeReceipt = .ok receipts ∧
            ∀ receipt ∈ receipts, receipt.counter.toLowerCase ≠ record.key.toLowerCase := by
  simp only [ledger] at isPlan
  split at isPlan
  · cases isPlan
  · next closed isClosed =>
      split at isPlan
      · cases isPlan
      · next groups split_ =>
          cases isPlan
          have reads := mapM_ok split_
          refine ⟨closed, isClosed, ?_, ?_⟩
          · have unpaid : ∀ (values : List (Hex × List Counter))
                (groups : List (Hex × List Counter × Nat)),
                List.Forall₂ (fun group one =>
                  groupUnpaid reader (settle :: previous) group = .ok one) values groups →
                (groups.flatMap (·.2.1)).Sublist (values.flatMap (·.2)) := by
              intro values groups all
              induction all with
              | nil => exact List.Sublist.refl _
              | cons one _ ih => exact (groupUnpaid_spec one).2.1.append ih
            exact (owedList_records groups).subperm.trans
              ((unpaid _ _ reads).subperm.trans (byProvider_perm closed).subperm)
          · intro owed isOwed record inRecords
            have isOwed := (owedList_perm groups).mem_iff.mp isOwed
            obtain ⟨group, inGroups, rfl⟩ := List.mem_map.mp isOwed
            have inGroups := List.mem_of_mem_filter inGroups
            have inUnpaid : record ∈ group.2.1 :=
              (List.perm_insertionSort _ _).mem_iff.mp inRecords
            obtain ⟨source, inSource, found⟩ := forall₂_right reads inGroups
            obtain ⟨sameProvider, sub, unnamed⟩ := groupUnpaid_spec found
            have provider : (owedOf group.1 group.2.1).provider = source.1 := sameProvider
            rw [provider]
            exact ⟨byProvider_sorted closed source inSource record (sub.mem inUnpaid),
              unnamed record inUnpaid⟩

end CommunityLb
