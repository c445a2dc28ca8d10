import CommunityLb.Settle.Ledger

/-!
# A run's payments

One transfer per provider, then the receipts that say what it paid for.  How each transfer and each
batch of receipts ends is given; what a run does, reports and logs follows.
-/

namespace CommunityLb

/-- How a transfer went: not sent, or sent and waited for, the receipt with its status. -/
inductive Sending where
  | refused (reason : String)
  | sent (hash : Hex) (receipt : Except String String)
  deriving DecidableEq, Repr

/-- What a failed transfer throws. -/
inductive TransferError where
  | plain (message : String)
  /-- On the wire, and its outcome is not known. -/
  | unresolved (tx : Hex) (message : String)
  deriving DecidableEq, Repr

/-- Sends a signed transaction and waits for it to be mined; from there every failure to see it
through carries the hash. -/
def broadcast (hash : Hex) (send : Except String String) : Except TransferError Hex :=
  match send with
  | .error reason =>
      .error (.unresolved hash
        ("the transfer " ++ hash.text ++ " was sent and its outcome is unknown: " ++ reason))
  | .ok status =>
      if status ≠ "success" then
        .error (.plain ("the transfer " ++ hash.text ++ " reverted, and nothing moved"))
      else .ok hash

/-- Sends GLM and answers with the transaction that carried it. -/
def transfer : Sending → Except TransferError Hex
  | .refused reason => .error (.plain reason)
  | .sent hash receipt => broadcast hash receipt

/-- How many receipts go in one transaction. -/
def RECEIPTS_PER_BATCH : Nat :=
  50

/-- Consecutive slices of a size, the last one shorter. -/
def slices {α : Type} (size : Nat) (values : List α) : List (List α) :=
  (List.range ((values.length + size - 1) / size)).map fun index =>
    (values.drop (index * size)).take size

/-- What a run does on the two chains. -/
inductive Action where
  | transfer (provider : Hex) (amountWei : Int) (sending : Sending)
  | write (batch : List ReceiptRecord) (answer : Except String Unit)
  deriving DecidableEq, Repr

/-- A provider whose transfer landed. -/
structure Paid where
  provider : Hex
  tx : Hex
  amountWei : Int
  records : Nat
  /-- False when the transfer landed and some of its receipts did not. -/
  receipted : Bool
  deriving DecidableEq, Repr

/-- What a run says. -/
inductive Line where
  | mayHavePaid (provider : Hex) (message : String) (records : Nat)
  | checkTransfer (provider : Hex)
  | transferFailed (provider : Hex) (message : String)
  | paid (provider : Hex) (amountWei : Int) (records : Nat) (tx : Hex)
  | notReceipted (provider : Hex) (missing : Nat) (tx : Hex) (message : String)
  | checkPayment (provider : Hex)
  | stopping (left : Nat)
  deriving DecidableEq, Repr

/-- An amount in whole tokens of 18 decimals, without trailing zeros. -/
def formatEther (wei : Int) : String :=
  let digits := (toString wei.natAbs).toList
  let padded := List.replicate (19 - digits.length) '0' ++ digits
  let fraction := ((padded.drop (padded.length - 18)).reverse.dropWhile (· = '0')).reverse
  (if wei < 0 then "-" else "") ++ String.ofList (padded.take (padded.length - 18)) ++
    (if fraction.isEmpty then "" else "." ++ String.ofList fraction)

/-- The line as it is printed. -/
def Line.text : Line → String
  | mayHavePaid provider message records =>
      provider.text ++ ": MAY HAVE PAID. " ++ message ++ ". Its " ++ toString records ++ " record" ++
        (if records = 1 then " has" else "s have") ++ " no receipt"
  | checkTransfer provider =>
      provider.text ++ ": do not run again before checking that transfer against the chain"
  | transferFailed provider message =>
      provider.text ++ ": the transfer failed, and nothing was written: " ++ message
  | paid provider amountWei records tx =>
      provider.text ++ ": paid " ++ formatEther amountWei ++ " GLM for " ++ toString records ++
        " record" ++ (if records = 1 then "" else "s") ++ ", " ++ tx.text
  | notReceipted provider missing tx message =>
      provider.text ++ ": PAID BUT NOT RECEIPTED. " ++ toString missing ++ " record" ++
        (if missing = 1 then "" else "s") ++ " of transfer " ++ tx.text ++ " have no receipt: " ++
        message
  | checkPayment provider =>
      provider.text ++ ": do not run again before checking the transfer against the chain"
  | stopping left =>
      "stopping here: " ++ toString left ++ " provider" ++
        (if left = 1 then " was" else "s were") ++ " not paid at all"

/-- What a run did, what it answers with, and what it said. -/
structure Payments where
  actions : List Action
  paid : List Paid
  log : List Line
  deriving DecidableEq, Repr

/-- The receipts of a provider paid by one transfer. -/
def receiptsOf (chainId : Int) (owed : Owed) (tx : Hex) : List ReceiptRecord :=
  owed.records.map fun record =>
    receiptFor record
      { chainId := chainId
        tx := tx }

/-- The batches of receipts as they are tried, each with how it ended. -/
def tries (receipts : List ReceiptRecord) (answers : Nat → Except String Unit) :
    List (List ReceiptRecord × Except String Unit) :=
  (slices RECEIPTS_PER_BATCH receipts).zipIdx.map fun batch => (batch.1, answers batch.2)

/-- The receipts that were not written, and the last reason. -/
def missingOf (tried : List (List ReceiptRecord × Except String Unit)) : Nat × String :=
  tried.foldl
    (fun missing batch =>
      match batch.2 with
      | .ok () => missing
      | .error reason => (missing.1 + batch.1.length, reason))
    (0, "undefined")

/-- One provider: a transfer, and the receipts once it landed. -/
def payOne (owed : Owed) (chainId : Int) (sending : Sending)
    (answers : Nat → Except String Unit) : Option Paid × Payments :=
  let sent := Action.transfer owed.provider owed.amountWei sending
  match transfer sending with
  | .error (.unresolved _ message) =>
      (none,
        { actions := [sent]
          paid := []
          log := [.mayHavePaid owed.provider message owed.records.length,
            .checkTransfer owed.provider] })
  | .error (.plain message) =>
      (none,
        { actions := [sent]
          paid := []
          log := [.transferFailed owed.provider message] })
  | .ok tx =>
      let tried := tries (receiptsOf chainId owed tx) answers
      let missing := missingOf tried
      let paid : Paid :=
        { provider := owed.provider
          tx := tx
          amountWei := owed.amountWei
          records := owed.records.length
          receipted := missing.1 = 0 }
      (some paid,
        { actions := sent :: tried.map fun batch => .write batch.1 batch.2
          paid := [paid]
          log := .paid owed.provider owed.amountWei owed.records.length tx ::
            if missing.1 > 0 then
              [.notReceipted owed.provider missing.1 tx missing.2, .checkPayment owed.provider]
            else [] })

/-- Pays what is owed in order; the first provider that is not paid and receipted ends the run. -/
def payAll (chainId : Int) (sendings : Nat → Sending) (answers : Nat → Nat → Except String Unit) :
    Nat → List Owed → Payments
  | _, [] =>
      { actions := []
        paid := []
        log := [] }
  | index, owed :: rest =>
      let one := payOne owed chainId (sendings index) (answers index)
      if one.1.any (·.receipted) then
        let later := payAll chainId sendings answers (index + 1) rest
        { actions := one.2.actions ++ later.actions
          paid := one.2.paid ++ later.paid
          log := one.2.log ++ later.log }
      else
        { one.2 with
          log := one.2.log ++ if rest.length > 0 then [.stopping rest.length] else [] }

/-- A run's payments, from the outcome of each provider's transfer and of each batch. -/
def pay (plan : Ledger) (chainId : Int) (blockedBy : List String) (sendings : Nat → Sending)
    (answers : Nat → Nat → Except String Unit) : Except String Payments :=
  if blockedBy ≠ [] then .error ("refusing to pay: " ++ "; ".intercalate blockedBy)
  else .ok (payAll chainId sendings answers 0 plan.owed)

/-! ## What a run never does -/

/-- A transfer as it was made. -/
structure Made where
  provider : Hex
  amountWei : Int
  sending : Sending
  deriving DecidableEq, Repr

/-- The transaction of a transfer that was seen to land: it was sent, and its receipt says so. -/
def Made.landed (made : Made) : Option Hex :=
  match made.sending with
  | .sent hash (.ok status) => if status = "success" then some hash else none
  | .sent _ (.error _) => none
  | .refused _ => none

namespace Action

/-- The transfer an action is. -/
def made : Action → Option Made
  | transfer provider amountWei sending =>
      some
        { provider := provider
          amountWei := amountWei
          sending := sending }
  | write _ _ => none

/-- The receipts an action tries to write. -/
def tried : Action → List ReceiptRecord
  | transfer _ _ _ => []
  | write batch _ => batch

/-- How a batch ended. -/
def answer : Action → Option (Except String Unit)
  | transfer _ _ _ => none
  | write _ answer => some answer

/-- The transfer was seen to land, or the batch was written. -/
def Fine : Action → Prop
  | transfer _ _ sending => ∃ hash, sending = .sent hash (.ok "success")
  | write _ answer => answer = .ok ()

end Action

namespace Payments

/-- The transfers made, in order. -/
def transfers (payments : Payments) : List Made :=
  payments.actions.filterMap Action.made

/-- The receipts tried, in order. -/
def tried (payments : Payments) : List ReceiptRecord :=
  payments.actions.flatMap Action.tried

end Payments

/-- A payment is backed by a landed transfer before it: what a batch holds is receipts of records that
the transfer paid for, with its hash. -/
def Backed (chainId : Int) (plan : List Owed) (before : List Action) (batch : List ReceiptRecord) :
    Prop :=
  ∀ receipt ∈ batch, ∃ owed ∈ plan, ∃ made ∈ before.filterMap Action.made, ∃ tx,
    made.landed = some tx ∧ made.provider = owed.provider ∧ made.amountWei = owed.amountWei ∧
      ∃ record ∈ owed.records,
        receipt = receiptFor record
          { chainId := chainId
            tx := tx }

/-- What holds of the payments of a plan. -/
structure Prudent (chainId : Int) (plan : List Owed) (payments : Payments) : Prop where
  /-- The transfers are the plan's first so many, each of what is owed. -/
  inOrder : payments.transfers.map (fun made => (made.provider, made.amountWei)) <+:
    plan.map fun owed => (owed.provider, owed.amountWei)
  backed : ∀ before batch answer after,
    payments.actions = before ++ .write batch answer :: after → Backed chainId plan before batch
  /-- Every record of a provider whose transfer landed is in one batch, at one place. -/
  whole : payments.tried = (plan.zip payments.transfers).flatMap fun paid =>
    match paid.2.landed with
    | some tx => receiptsOf chainId paid.1 tx
    | none => []
  batches : ∀ batch answer, .write batch answer ∈ payments.actions →
    0 < batch.length ∧ batch.length ≤ RECEIPTS_PER_BATCH
  /-- Nothing is sent after a transfer that did not land or a batch that was not written. -/
  stops : payments.actions.Pairwise fun earlier later => later.made.isSome = true → earlier.Fine
  /-- Reported as paid are those whose transfer landed. -/
  reported : payments.paid.map (fun paid => (paid.provider, paid.tx, paid.amountWei)) =
    payments.transfers.filterMap fun made =>
      made.landed.map fun tx => (made.provider, tx, made.amountWei)
  /-- A plain failure is a transfer that never left or was seen to revert. -/
  failures : ∀ provider message, .transferFailed provider message ∈ payments.log →
    ∃ made ∈ payments.transfers, made.provider = provider ∧
      ((∃ reason, made.sending = .refused reason) ∨
        ∃ hash status, made.sending = .sent hash (.ok status) ∧ status ≠ "success")
  /-- A transfer's receipts add up to what it carried. -/
  adds_up : ∀ paid ∈ plan.zip payments.transfers, ∀ tx, paid.2.landed = some tx →
    ((receiptsOf chainId paid.1 tx).map (·.payload.amountWei)).sum = paid.2.amountWei

/-- From a turn on, each provider's transfer ends as it is given to, and each batch of its receipts,
one for every so many records. -/
structure EndsAs (plan : List Owed) (sendings : Nat → Sending)
    (answers : Nat → Nat → Except String Unit) (index : Nat) (payments : Payments) : Prop where
  transfers : payments.transfers.map (·.sending) =
    (payments.transfers.zipIdx index).map fun turn => sendings turn.2
  writes : payments.actions.filterMap Action.answer =
    ((plan.zip payments.transfers).zipIdx index).flatMap fun turn =>
      match turn.1.2.landed with
      | some _ =>
          (List.range ((turn.1.1.records.length + (RECEIPTS_PER_BATCH - 1)) /
            RECEIPTS_PER_BATCH)).map (answers turn.2)
      | none => []

theorem take_slices {α : Type} (size : Nat) (values : List α) (count : Nat) :
    ((List.range count).map fun index => (values.drop (index * size)).take size).flatten =
      values.take (count * size) := by
  induction count with
  | zero => simp
  | succ count ih =>
      rw [List.range_succ, List.map_append, List.flatten_append, ih, Nat.succ_mul, List.take_add]
      simp

/-- The slices are the values. -/
theorem slices_flatten {α : Type} {size : Nat} (positive : 0 < size) (values : List α) :
    (slices size values).flatten = values := by
  rw [slices, take_slices]
  refine List.take_of_length_le ?_
  have enough := Nat.div_add_mod (values.length + size - 1) size
  have rest := Nat.mod_lt (values.length + size - 1) positive
  rw [Nat.mul_comm] at enough
  omega

/-- A slice has something, and no more than its size. -/
theorem mem_slices {α : Type} {size : Nat} (positive : 0 < size) {values slice : List α}
    (member : slice ∈ slices size values) : 0 < slice.length ∧ slice.length ≤ size := by
  obtain ⟨index, inside, rfl⟩ := List.mem_map.mp member
  have below : index + 1 ≤ (values.length + size - 1) / size := List.mem_range.mp inside
  have reaches := (Nat.le_div_iff_mul_le positive).mp below
  rw [Nat.succ_mul] at reaches
  simp only [List.length_take, List.length_drop]
  omega

theorem tries_flatten (receipts : List ReceiptRecord) (answers : Nat → Except String Unit) :
    ((tries receipts answers).map (·.1)).flatten = receipts := by
  have same : (tries receipts answers).map (·.1) = slices RECEIPTS_PER_BATCH receipts := by
    rw [tries, List.map_map]
    exact List.zipIdx_map_fst ..
  rw [same, slices_flatten (by decide)]

theorem mem_tries {receipts : List ReceiptRecord} {answers : Nat → Except String Unit}
    {batch : List ReceiptRecord × Except String Unit} (member : batch ∈ tries receipts answers) :
    0 < batch.1.length ∧ batch.1.length ≤ RECEIPTS_PER_BATCH := by
  obtain ⟨⟨slice, index⟩, isSlice, rfl⟩ := List.mem_map.mp member
  exact mem_slices (by decide) (List.fst_mem_of_mem_zipIdx isSlice)

/-- Nothing is missing when every batch was written, and only then. -/
theorem missingOf_eq_zero {tried : List (List ReceiptRecord × Except String Unit)}
    (nonempty : ∀ batch ∈ tried, 0 < batch.1.length) :
    (missingOf tried).1 = 0 ↔ ∀ batch ∈ tried, batch.2 = .ok () := by
  suffices general : ∀ (start : Nat × String),
      (tried.foldl
        (fun missing batch =>
          match batch.2 with
          | .ok () => missing
          | .error reason => (missing.1 + batch.1.length, reason)) start).1 = 0 ↔
        start.1 = 0 ∧ ∀ batch ∈ tried, batch.2 = .ok () by
    simpa [missingOf] using general (0, "undefined")
  induction tried with
  | nil => simp
  | cons batch tried ih =>
      intro start
      have more := nonempty batch List.mem_cons_self
      rw [List.foldl_cons, ih fun other member => nonempty other (List.mem_cons_of_mem _ member)]
      cases answer : batch.2 with
      | ok _ => simp [answer]
      | error reason =>
          simp only [List.mem_cons, forall_eq_or_imp, answer, reduceCtorEq, false_and, and_false,
            iff_false, not_and]
          omega

/-- A transfer answers with a hash where it was sent and its receipt is one of success. -/
theorem transfer_eq_ok {sending : Sending} {tx : Hex} :
    transfer sending = .ok tx ↔ sending = .sent tx (.ok "success") := by
  constructor
  · intro answered
    cases sending with
    | refused reason => cases answered
    | sent hash receipt =>
        cases receipt with
        | error reason => cases answered
        | ok status =>
            simp only [transfer, broadcast] at answered
            split at answered
            · cases answered
            · next succeeded =>
                cases answered
                rw [not_not.mp succeeded]
  · rintro rfl
    simp [transfer, broadcast]

theorem Made.landed_eq_some {made : Made} {tx : Hex} :
    made.landed = some tx ↔ made.sending = .sent tx (.ok "success") := by
  simp only [Made.landed]
  split
  · next hash status isSent =>
      rw [isSent]
      split
      · next succeeded => simp [succeeded]
      · next failed => simp [failed]
  · next isSent => simp [isSent]
  · next isRefused => simp [isRefused]

/-- A plain failure was never sent, or was seen to revert. -/
theorem transfer_plain {sending : Sending} {message : String}
    (failed : transfer sending = .error (.plain message)) :
    (∃ reason, sending = .refused reason) ∨
      ∃ hash status, sending = .sent hash (.ok status) ∧ status ≠ "success" := by
  cases sending with
  | refused reason => exact .inl ⟨reason, rfl⟩
  | sent hash receipt =>
      cases receipt with
      | error reason => cases failed
      | ok status =>
          right
          refine ⟨hash, status, rfl, fun succeeded => ?_⟩
          simp [transfer, broadcast, succeeded] at failed

/-- The receipts of a transfer share it out. -/
theorem receiptsOf_adds_up (chainId : Int) (owed : Owed) (tx : Hex) :
    ((receiptsOf chainId owed tx).map (·.payload.amountWei)).sum = owed.amountWei := by
  rw [owed.adds_up, receiptsOf, List.map_map]
  rfl

/-- The transfer one provider's turn makes. -/
def Owed.made (owed : Owed) (sending : Sending) : Made where
  provider := owed.provider
  amountWei := owed.amountWei
  sending := sending

/-- A provider's turn makes its transfer. -/
theorem payOne_transfers (owed : Owed) (chainId : Int) (sending : Sending)
    (answers : Nat → Except String Unit) :
    (payOne owed chainId sending answers).2.transfers = [owed.made sending] := by
  have writes : ∀ tried : List (List ReceiptRecord × Except String Unit),
      (tried.map fun batch => Action.write batch.1 batch.2).filterMap Action.made = [] := by
    intro tried
    simp [Action.made]
  simp only [payOne, Payments.transfers]
  split
  · rfl
  · rfl
  · dsimp only
    rw [List.filterMap_cons_some (f := Action.made) rfl, writes]
    rfl

/-- A provider's turn is prudent. -/
theorem payOne_prudent (owed : Owed) (chainId : Int) (sending : Sending)
    (answers : Nat → Except String Unit) :
    Prudent chainId [owed] (payOne owed chainId sending answers).2 := by
  have made := payOne_transfers owed chainId sending answers
  have unsent : ∀ before batch answer after,
      [Action.transfer owed.provider owed.amountWei sending] =
        before ++ .write batch answer :: after → False := by
    intro before batch answer after same
    cases before with
    | nil => simp at same
    | cons first before => simp at same
  cases outcome : transfer sending with
  | error failure =>
      have notLanded : (owed.made sending).landed = none := by
        refine Option.eq_none_iff_forall_ne_some.mpr fun tx landed => ?_
        have answered := transfer_eq_ok.mpr (Made.landed_eq_some.mp landed)
        exact absurd (outcome.symm.trans answered) (by simp)
      have actions : (payOne owed chainId sending answers).2.actions =
          [.transfer owed.provider owed.amountWei sending] := by
        simp only [payOne, outcome]
        cases failure <;> rfl
      have paid : (payOne owed chainId sending answers).2.paid = [] := by
        simp only [payOne, outcome]
        cases failure <;> rfl
      refine ⟨?_, ?_, ?_, ?_, ?_, ?_, ?_, ?_⟩
      · simp [made, Owed.made]
      · intro before batch answer after same
        exact absurd (actions ▸ same) (unsent before batch answer after)
      · simp [Payments.tried, actions, Action.tried, made, notLanded]
      · simp [actions]
      · simp [actions]
      · simp [paid, made, notLanded]
      · intro provider message logged
        refine ⟨owed.made sending, by simp [made], ?_⟩
        cases failure with
        | plain reason =>
            simp only [payOne, outcome, List.mem_singleton, Line.transferFailed.injEq] at logged
            exact ⟨logged.1.symm, transfer_plain outcome⟩
        | unresolved tx reason =>
            simp [payOne, outcome] at logged
      · simp [made, notLanded]
  | ok tx =>
      have succeeded := transfer_eq_ok.mp outcome
      have isLanded : (owed.made sending).landed = some tx := Made.landed_eq_some.mpr succeeded
      have actions : (payOne owed chainId sending answers).2.actions =
          .transfer owed.provider owed.amountWei sending ::
            (tries (receiptsOf chainId owed tx) answers).map fun batch =>
              .write batch.1 batch.2 := by
        simp only [payOne, outcome]
      refine ⟨?_, ?_, ?_, ?_, ?_, ?_, ?_, ?_⟩
      · simp [made, Owed.made]
      · intro before batch answer after same receipt inBatch
        rw [actions] at same
        cases before with
        | nil => simp at same
        | cons first before =>
            simp only [List.cons_append, List.cons.injEq] at same
            obtain ⟨rfl, same⟩ := same
            refine ⟨owed, List.mem_singleton_self owed, owed.made sending, by
              simp [Action.made, Owed.made], tx, isLanded, rfl, rfl, ?_⟩
            have isTried : Action.write batch answer ∈
                (tries (receiptsOf chainId owed tx) answers).map fun batch =>
                  Action.write batch.1 batch.2 := by
              rw [same]
              simp
            obtain ⟨found, inTries, isWrite⟩ := List.mem_map.mp isTried
            cases isWrite
            have isReceipt : receipt ∈ receiptsOf chainId owed tx := by
              rw [← tries_flatten (receiptsOf chainId owed tx) answers]
              exact List.mem_flatten.mpr ⟨found.1, List.mem_map_of_mem inTries, inBatch⟩
            obtain ⟨record, inRecords, rfl⟩ := List.mem_map.mp isReceipt
            exact ⟨record, inRecords, rfl⟩
      · rw [made]
        simp only [Payments.tried, actions, List.flatMap_cons, Action.tried, List.nil_append,
          List.zip_cons_cons, List.zip_nil_right, List.flatMap_nil, List.append_nil, isLanded]
        rw [List.flatMap_map, List.flatMap_def]
        exact tries_flatten (receiptsOf chainId owed tx) answers
      · intro batch answer member
        rw [actions, List.mem_cons] at member
        rcases member with isTransfer | member
        · cases isTransfer
        · obtain ⟨found, inTries, isWrite⟩ := List.mem_map.mp member
          cases isWrite
          exact mem_tries inTries
      · rw [actions, List.pairwise_cons]
        refine ⟨fun later _ _ => ⟨tx, succeeded⟩, ?_⟩
        rw [List.pairwise_map]
        exact List.pairwise_of_forall fun _ _ isTransfer => by cases isTransfer
      · rw [made, List.filterMap_cons_some (by rw [isLanded]; rfl)]
        simp [payOne, outcome, Owed.made]
      · intro provider message logged
        simp only [payOne, outcome] at logged
        rcases List.mem_cons.mp logged with isPaid | rest
        · cases isPaid
        · split at rest <;> simp at rest
      · intro paid member found isFound
        rw [made] at member
        obtain rfl := List.mem_singleton.mp member
        exact receiptsOf_adds_up chainId owed found

/-- Where a turn goes on, its transfer landed and every batch was written. -/
theorem payOne_fine {owed : Owed} {chainId : Int} {sending : Sending}
    {answers : Nat → Except String Unit}
    (goesOn : (payOne owed chainId sending answers).1.any (·.receipted) = true) :
    ∀ action ∈ (payOne owed chainId sending answers).2.actions, action.Fine := by
  cases outcome : transfer sending with
  | error failure =>
      cases failure <;> simp [payOne, outcome] at goesOn
  | ok tx =>
      simp only [payOne, outcome, Option.any_some, decide_eq_true_eq] at goesOn
      have written := (missingOf_eq_zero fun batch member => (mem_tries member).1).mp goesOn
      intro action member
      simp only [payOne, outcome, List.mem_cons, List.mem_map] at member
      rcases member with rfl | ⟨batch, inTries, rfl⟩
      · exact ⟨tx, transfer_eq_ok.mp outcome⟩
      · exact written batch inTries

/-- A turn and what comes after it. -/
theorem Prudent.cons {chainId : Int} {owed : Owed} {rest : List Owed} {one later : Payments}
    {sending : Sending} (first : Prudent chainId [owed] one)
    (made : one.transfers = [owed.made sending]) (second : Prudent chainId rest later)
    (fine : later.actions ≠ [] → ∀ action ∈ one.actions, action.Fine) :
    Prudent chainId (owed :: rest)
      { actions := one.actions ++ later.actions
        paid := one.paid ++ later.paid
        log := one.log ++ later.log } := by
  have transfers : ({ actions := one.actions ++ later.actions
                      paid := one.paid ++ later.paid
                      log := one.log ++ later.log } : Payments).transfers =
      owed.made sending :: later.transfers := by
    rw [Payments.transfers, List.filterMap_append]
    have head : one.actions.filterMap Action.made = [owed.made sending] := made
    rw [head]
    rfl
  refine ⟨?_, ?_, ?_, ?_, ?_, ?_, ?_, ?_⟩
  · rw [transfers]
    exact List.prefix_cons_inj _ |>.mpr second.inOrder
  · intro before batch answer after same receipt inBatch
    rcases List.append_eq_append_iff.mp same with ⟨middle, isBefore, isLater⟩ |
      ⟨middle, isOne, isAfter⟩
    · obtain ⟨found, inRest, made, isMade, tx, landed, backed⟩ :=
        second.backed middle batch answer after isLater receipt inBatch
      refine ⟨found, List.mem_cons_of_mem _ inRest, made, ?_, tx, landed, backed⟩
      rw [isBefore, List.filterMap_append]
      exact List.mem_append_right _ isMade
    · cases middle with
      | nil =>
          rw [List.append_nil] at isOne
          obtain ⟨found, inRest, made, isMade, tx, landed, backed⟩ :=
            second.backed [] batch answer after isAfter.symm receipt inBatch
          cases isMade
      | cons action middle =>
          rw [List.cons_append, List.cons.injEq] at isAfter
          obtain ⟨rfl, _⟩ := isAfter
          obtain ⟨found, isOwed, backed⟩ :=
            first.backed before batch answer middle isOne receipt inBatch
          exact ⟨found, List.mem_cons.mpr (.inl (List.mem_singleton.mp isOwed)), backed⟩
  · rw [transfers, List.zip_cons_cons, List.flatMap_cons, ← second.whole]
    have head := first.whole
    rw [made, List.zip_cons_cons, List.zip_nil_right, List.flatMap_cons, List.flatMap_nil,
      List.append_nil] at head
    rw [← head, Payments.tried, List.flatMap_append]
    rfl
  · intro batch answer member
    rcases List.mem_append.mp member with inOne | inLater
    · exact first.batches batch answer inOne
    · exact second.batches batch answer inLater
  · rw [List.pairwise_append]
    refine ⟨first.stops, second.stops, fun action inOne other inLater _ => ?_⟩
    exact fine (List.ne_nil_of_mem inLater) action inOne
  · rw [transfers, List.map_append, second.reported, first.reported, made]
    cases landed : (owed.made sending).landed <;> simp [landed]
  · intro provider message logged
    rw [transfers]
    rcases List.mem_append.mp logged with inOne | inLater
    · obtain ⟨found, isMade, reason⟩ := first.failures provider message inOne
      rw [made] at isMade
      exact ⟨found, List.mem_cons.mpr (.inl (List.mem_singleton.mp isMade)), reason⟩
    · obtain ⟨found, isMade, reason⟩ := second.failures provider message inLater
      exact ⟨found, List.mem_cons_of_mem _ isMade, reason⟩
  · intro paid member tx landed
    rw [transfers, List.zip_cons_cons, List.mem_cons] at member
    rcases member with rfl | later
    · exact receiptsOf_adds_up chainId owed tx
    · exact second.adds_up paid later tx landed

/-- A run that does nothing more is prudent. -/
theorem Prudent.stopped (chainId : Int) (plan : List Owed) (left : Nat) :
    Prudent chainId plan
      { actions := []
        paid := []
        log := if left > 0 then [.stopping left] else [] } := by
  refine ⟨?_, ?_, ?_, ?_, ?_, ?_, ?_, ?_⟩
  · simp [Payments.transfers]
  · simp
  · simp [Payments.tried, Payments.transfers]
  · simp
  · simp
  · simp [Payments.transfers]
  · intro provider message logged
    dsimp only at logged
    split at logged <;> simp at logged
  · simp [Payments.transfers]

/-- Every run is prudent. -/
theorem payAll_prudent (chainId : Int) (sendings : Nat → Sending)
    (answers : Nat → Nat → Except String Unit) (index : Nat) (plan : List Owed) :
    Prudent chainId plan (payAll chainId sendings answers index plan) := by
  induction plan generalizing index with
  | nil => exact Prudent.stopped chainId [] 0
  | cons owed rest ih =>
      have first := payOne_prudent owed chainId (sendings index) (answers index)
      have made := payOne_transfers owed chainId (sendings index) (answers index)
      rw [payAll]
      dsimp only
      split
      · next goesOn => exact first.cons made (ih (index + 1)) fun _ => payOne_fine goesOn
      · have stopped := first.cons made (Prudent.stopped chainId rest rest.length) fun more =>
          absurd rfl more
        simpa using stopped

/-- A batch for every so many receipts, each ending as it is given to. -/
theorem tries_answers (receipts : List ReceiptRecord) (answers : Nat → Except String Unit) :
    (tries receipts answers).map (·.2) =
      (List.range ((receipts.length + (RECEIPTS_PER_BATCH - 1)) / RECEIPTS_PER_BATCH)).map
        answers := by
  have places : (slices RECEIPTS_PER_BATCH receipts).zipIdx.map Prod.snd =
      List.range ((receipts.length + (RECEIPTS_PER_BATCH - 1)) / RECEIPTS_PER_BATCH) := by
    rw [List.zipIdx_map_snd, slices, List.length_map, List.length_range, List.range_eq_range']
    rfl
  rw [← places, List.map_map, tries, List.map_map]
  rfl

/-- A provider's turn ends as it is given to. -/
theorem payOne_answers (owed : Owed) (chainId : Int) (sending : Sending)
    (answers : Nat → Except String Unit) :
    (payOne owed chainId sending answers).2.actions.filterMap Action.answer =
      match (owed.made sending).landed with
      | some _ =>
          (List.range ((owed.records.length + (RECEIPTS_PER_BATCH - 1)) / RECEIPTS_PER_BATCH)).map
            answers
      | none => [] := by
  cases outcome : transfer sending with
  | error failure =>
      have notLanded : (owed.made sending).landed = none := by
        refine Option.eq_none_iff_forall_ne_some.mpr fun tx landed => ?_
        have answered := transfer_eq_ok.mpr (Made.landed_eq_some.mp landed)
        exact absurd (outcome.symm.trans answered) (by simp)
      rw [notLanded]
      simp only [payOne, outcome]
      cases failure <;> rfl
  | ok tx =>
      have isLanded : (owed.made sending).landed = some tx :=
        Made.landed_eq_some.mpr (transfer_eq_ok.mp outcome)
      have length : (receiptsOf chainId owed tx).length = owed.records.length := List.length_map _
      have answered := tries_answers (receiptsOf chainId owed tx) answers
      rw [length] at answered
      rw [isLanded, ← answered]
      simp only [payOne, outcome]
      rw [List.filterMap_cons_none rfl, List.filterMap_map]
      exact congrFun (List.filterMap_eq_map' (f := Prod.snd)) _

/-- Every run ends as it is given to. -/
theorem payAll_endsAs (chainId : Int) (sendings : Nat → Sending)
    (answers : Nat → Nat → Except String Unit) (index : Nat) (plan : List Owed) :
    EndsAs plan sendings answers index (payAll chainId sendings answers index plan) := by
  induction plan generalizing index with
  | nil => exact ⟨rfl, rfl⟩
  | cons owed rest ih =>
      have made := payOne_transfers owed chainId (sendings index) (answers index)
      have answered := payOne_answers owed chainId (sendings index) (answers index)
      rw [payAll]
      dsimp only
      split
      · obtain ⟨transfers, writes⟩ := ih (index + 1)
        have all : ({ actions := (payOne owed chainId (sendings index) (answers index)).2.actions ++
                        (payAll chainId sendings answers (index + 1) rest).actions
                      paid := (payOne owed chainId (sendings index) (answers index)).2.paid ++
                        (payAll chainId sendings answers (index + 1) rest).paid
                      log := (payOne owed chainId (sendings index) (answers index)).2.log ++
                        (payAll chainId sendings answers (index + 1) rest).log } :
            Payments).transfers = owed.made (sendings index) ::
              (payAll chainId sendings answers (index + 1) rest).transfers := by
          rw [Payments.transfers, List.filterMap_append]
          exact congrArg (· ++ _) made
        refine ⟨?_, ?_⟩
        · rw [all, List.map_cons, List.zipIdx_cons, List.map_cons, transfers]
          rfl
        · rw [all, List.zip_cons_cons, List.zipIdx_cons, List.flatMap_cons, ← writes, ← answered,
            List.filterMap_append]
      · have all : ({ (payOne owed chainId (sendings index) (answers index)).2 with
            log := (payOne owed chainId (sendings index) (answers index)).2.log ++
              if rest.length > 0 then [.stopping rest.length] else [] } : Payments).transfers =
            [owed.made (sendings index)] := made
        refine ⟨?_, answered.trans ?_⟩
        · rw [all]
          rfl
        · rw [all, List.zip_cons_cons, List.zip_nil_right, List.zipIdx_cons, List.zipIdx_nil,
            List.flatMap_cons, List.flatMap_nil, List.append_nil]

/-- A run that nothing blocks pays the plan's providers, one after another. -/
theorem pay_eq_ok {plan : Ledger} {chainId : Int} {blockedBy : List String}
    {sendings : Nat → Sending} {answers : Nat → Nat → Except String Unit} {payments : Payments}
    (paid : pay plan chainId blockedBy sendings answers = .ok payments) :
    payAll chainId sendings answers 0 plan.owed = payments := by
  simp only [pay] at paid
  split at paid
  · cases paid
  · exact Except.ok.inj paid

/-- No provider of a plan gets two transfers. -/
theorem Prudent.once {plan : Ledger} {chainId : Int} {payments : Payments}
    (prudent : Prudent chainId plan.owed payments) :
    (payments.transfers.map (·.provider)).Nodup := by
  have providers := prudent.inOrder.sublist.map Prod.fst
  simp only [List.map_map] at providers
  exact plan.distinct.sublist providers

/-- For every ledger, and however each transfer and each batch of receipts ends, a run's payments are
prudent, no provider gets two transfers, and what was done ended so. -/
theorem pay_prudent {plan : Ledger} {chainId : Int} {blockedBy : List String}
    {sendings : Nat → Sending} {answers : Nat → Nat → Except String Unit} {payments : Payments}
    (paid : pay plan chainId blockedBy sendings answers = .ok payments) :
    Prudent chainId plan.owed payments ∧ (payments.transfers.map (·.provider)).Nodup ∧
      EndsAs plan.owed sendings answers 0 payments := by
  obtain rfl := pay_eq_ok paid
  have prudent := payAll_prudent chainId sendings answers 0 plan.owed
  exact ⟨prudent, prudent.once, payAll_endsAs chainId sendings answers 0 plan.owed⟩

/-- One record, of three calls. -/
def threeCalls (key provider : Char) : Counter where
  key := [key]
  agreement := ['a']
  provider := [provider]
  count := 3
  weiPerCall := 5
  openedBlock := 1
  closedBlock := 9

/-- What it is owed. -/
def owedFor (key provider : Char) : Owed where
  provider := [provider]
  records := [threeCalls key provider]
  amountWei := 15
  adds_up := rfl

/-- Two providers with a record each. -/
def twoOwed : Ledger where
  owed := [owedFor 'c' 'p', owedFor 'd' 'q']
  paid := 0
  totalOwedWei := 30
  distinct := by decide
  adds_up := rfl

/-- The first transfer lands and is receipted; sight of the second is lost. -/
theorem second_lost_is_prudent : ∃ payments, pay twoOwed 7 []
    (fun index => .sent ['t'] (if index = 0 then .ok "success" else .error "timed out"))
    (fun _ _ => .ok ()) = .ok payments ∧
    payments.log.map Line.text =
      ["p: paid 0.000000000000000015 GLM for 1 record, t",
        "q: MAY HAVE PAID. the transfer t was sent and its outcome is unknown: timed out. Its 1 " ++
        "record has no receipt",
        "q: do not run again before checking that transfer against the chain"] ∧
    Prudent 7 twoOwed.owed payments ∧ (payments.transfers.map (·.provider)).Nodup ∧
      EndsAs twoOwed.owed
        (fun index => .sent ['t'] (if index = 0 then .ok "success" else .error "timed out"))
        (fun _ _ => .ok ()) 0 payments :=
  ⟨_, rfl, by decide +kernel, @pay_prudent twoOwed 7 []
    (fun index => .sent ['t'] (if index = 0 then .ok "success" else .error "timed out"))
    (fun _ _ => .ok ()) _ rfl⟩

end CommunityLb
