import CommunityLb.Settle.Runs

/-!
# What a run can afford

A run spends on two chains: the transfers on the payout chain, and the receipts that record them on
Arkiv.  Its balances are checked before anything is signed.
-/

namespace CommunityLb

/-- What a run owes, and the balances it read. -/
structure Balances where
  owedWei : Int
  glmWei : Int
  payoutGasWei : Int
  arkivGasWei : Int
  deriving DecidableEq, Repr

/-- What stands between a run and paying.  Nothing owed, nothing in the way. -/
def problems (held : Balances) : List String :=
  if held.owedWei = 0 then []
  else
    (if held.owedWei > held.glmWei then
      ["short of GLM: " ++ formatEther held.owedWei ++ " owed, " ++ formatEther held.glmWei ++
        " held"]
    else []) ++
    (if held.payoutGasWei = 0 then
      ["no gas on the payout chain, where the transfers are made"]
    else []) ++
    (if held.arkivGasWei = 0 then
      ["no gas on Arkiv, where the receipts are written"]
    else [])

/-- The balances cover the transfers of a run, and both chains' gas. -/
def Balances.Affords (held : Balances) : Prop :=
  held.owedWei ≤ held.glmWei ∧ held.payoutGasWei ≠ 0 ∧ held.arkivGasWei ≠ 0

namespace Ledger

/-- What a run of a ledger holds, by the balances it read. -/
def held (plan : Ledger) (glmWei payoutGasWei arkivGasWei : Int) : Balances where
  owedWei := plan.totalOwedWei
  glmWei := glmWei
  payoutGasWei := payoutGasWei
  arkivGasWei := arkivGasWei

/-- Whatever its balances, and however its transfers and batches end, a run of the ledger that
nothing stands in the way of, and that sends a transfer, could afford to. -/
def SendsWhatItAffords (plan : Ledger) : Prop :=
  ∀ (glmWei payoutGasWei arkivGasWei chainId : Int) (sendings : Nat → Sending)
    (answers : Nat → Nat → Except String Unit) (payments : Payments),
    problems (plan.held glmWei payoutGasWei arkivGasWei) = [] →
      pay plan chainId (problems (plan.held glmWei payoutGasWei arkivGasWei)) sendings answers =
        .ok payments →
      payments.transfers ≠ [] → (plan.held glmWei payoutGasWei arkivGasWei).Affords

end Ledger

/-- Something owed, the check finds every shortage. -/
theorem problems_eq_nil {held : Balances} (owes : held.owedWei ≠ 0) :
    problems held = [] ↔ held.Affords := by
  simp [problems, owes, Balances.Affords, List.append_eq_nil_iff]

/-- A run that owes anybody sends the first of them a transfer. -/
theorem payAll_transfers_ne_nil (chainId : Int) (sendings : Nat → Sending)
    (answers : Nat → Nat → Except String Unit) (index : Nat) {plan : List Owed}
    (owes : plan ≠ []) : (payAll chainId sendings answers index plan).transfers ≠ [] := by
  obtain ⟨owed, rest, rfl⟩ := List.exists_cons_of_ne_nil owes
  have first := payOne_transfers owed chainId (sendings index) (answers index)
  have isFirst : owed.made (sendings index) ∈
      (payOne owed chainId (sendings index) (answers index)).2.transfers := by
    rw [first]
    exact List.mem_singleton_self _
  apply List.ne_nil_of_mem (a := owed.made (sendings index))
  rw [payAll]
  dsimp only
  split
  · rw [Payments.transfers, List.filterMap_append]
    exact List.mem_append_left _ isFirst
  · exact isFirst

/-- A run that owes nobody sends nothing. -/
theorem payAll_nil_transfers (chainId : Int) (sendings : Nat → Sending)
    (answers : Nat → Nat → Except String Unit) (index : Nat) :
    (payAll chainId sendings answers index []).transfers = [] := by
  rw [payAll]
  rfl

/-- The check stops every run of a ledger that it could not afford exactly where the ledger owes
nobody, or its amounts are not all nothing together. -/
theorem sendsWhatItAffords_iff (plan : Ledger) :
    plan.SendsWhatItAffords ↔ plan.owed = [] ∨ plan.totalOwedWei ≠ 0 := by
  constructor
  · intro affords
    by_contra neither
    push Not at neither
    obtain ⟨owes, free⟩ := neither
    have unstopped : problems (plan.held 0 0 0) = [] := if_pos free
    have sends := payAll_transfers_ne_nil 0 (fun _ => .refused "") (fun _ _ => .ok ()) 0 owes
    have afforded := affords 0 0 0 0 (fun _ => .refused "") (fun _ _ => .ok ()) _ unstopped
      (by rw [unstopped]; rfl) sends
    exact afforded.2.1 rfl
  · rintro (nobody | owes) glmWei payoutGasWei arkivGasWei chainId sendings answers payments
      unstopped paid sends
    · rw [unstopped] at paid
      cases paid
      rw [nobody, payAll_nil_transfers] at sends
      exact absurd rfl sends
    · exact (problems_eq_nil owes).mp unstopped

/-! ## A rate of zero -/

/-- The row of a period served at a rate of zero. -/
def freePeriod : Row where
  key := ['c']
  creator := ['l']
  attributes :=
    [("kind", .str KIND.counter), ("v", .i32 SCHEMA_VERSION), ("state", .str "closed"),
      ("agreement", .key ['a']), ("provider", .addr ['p']),
      ("payload", .bytes (.ok (.obj [("count", .num 3), ("wei_per_call", .str "0"),
        ("opened_block", .num 1), ("closed_block", .num 9)])))]

/-- The node answers the closed records with that row, and every other query with none. -/
def freeReader (query : RowQuery) : List Row :=
  if query = closedQuery ['l'] then [freePeriod] else []

/-- A section that asks for nothing a call. -/
def freeCalls : Marketplace :=
  { Settling.sevenDays with weiPerCall := 0 }

/-- Its section validates, and a run of the period's ledger, without a token or gas on either chain,
sends the provider a transfer. -/
theorem free_period_sends_unaffordable : freeCalls.validate Settling.web = .ok () ∧
    ∃ plan, ledger freeReader ['l'] ['s'] [] = .ok plan ∧ ¬ plan.SendsWhatItAffords := by
  refine ⟨by decide +kernel, _, rfl, fun affords => ?_⟩
  have afforded := affords 0 0 0 7 (fun _ => .sent ['t'] (.ok "success"))
    (fun _ _ => .error "no gas") _ rfl rfl (by decide)
  exact afforded.2.1 rfl

end CommunityLb
