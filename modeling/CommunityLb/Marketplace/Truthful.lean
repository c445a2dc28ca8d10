import CommunityLb.Marketplace.Lasting
import CommunityLb.Marketplace.Refines

/-!
# Runs whose answers are the truth

A write that is answered with an error never lands, and a page of open counter records shows every
one on the chain.  Restarts, failures, late reads of anything else and records that expire are all
allowed.
-/

namespace CommunityLb

/-- A write that is answered with an error never lands. -/
def Event.Truthful : Event → Prop
  | .write (.failed _ lost) | .admission _ (.failed _ lost) => lost = false
  | _ => True

instance : (event : Event) → Decidable event.Truthful
  | .write (.failed _ _) | .admission _ (.failed _ _) => by unfold Event.Truthful; infer_instance
  | .write (.landed _ _) | .admission _ (.landed _ _) | .sealBlocks _ _ | .catchUp _ | .post _
  | .withdraw _ | .launch _ | .crash | .serve _ | .gate _ _ _ | .admitted _ | .learn _
  | .endAdmission _ | .tick _ | .read _ _ | .unread | .countServed _ | .portLooked _ =>
      isTrue trivial

/-- The head of the page of open counter records that the task reads. -/
def Task.countersHead? : Task → Option Nat
  | countersPage _ head => some head
  | _ => none

namespace Account

/-- The account of an agreement nothing was counted for. -/
def blank (head : Nat) (dead : Bool) : Account where
  head := head
  rows := []
  seen := []
  sent := []
  desk := .clear
  held := none
  dead := dead
  mining := false
  log := 0

variable (head : Nat) (dead : Bool)

theorem blank_led : (blank head dead).Led where
  distinct := List.nodup_nil
  dated _ member := by cases member
  opening _ member := by cases member
  leads _ _ _ member := by cases member
  young mining := by cases mining
  spare _ member := by cases member
  accepting _ desk := by cases desk

theorem blank_afforded : (blank head dead).Afforded where
  led := blank_led head dead
  unsent := rfl
  bound := le_rfl
  memory _ member := by cases member
  writes _ member := by cases member
  one _ member := by cases member
  aimed _ member := by cases member
  closes _ member := by cases member
  read _ member := by cases member
  opened _ _ _ _ member := by cases member
  alone _ _ _ _ member := by cases member
  atDesk := trivial

theorem blank_final (key : EntityKey) : Final key (blank head dead) where
  closed _ member := by cases member
  made _ member := by cases member
  last := .nil
  untouched _ member := by cases member
  read _ _ _ _ reads := by rcases reads with reads | reads <;> cases reads

theorem blank_rising (key : EntityKey) : Rising key (blank head dead) where
  sorted := .nil
  held _ live := by cases live
  shown _ _ _ _ _ desk := by cases desk
  matched _ _ _ desk := by cases desk

end Account

namespace State

/-- A page of the LB's open counter records shows the chain as it is, and all of them. -/
def SeesCounters (state : State) : Event → Prop
  | .read _ _ => ∀ process ∈ state.process, ∀ head ∈ process.task.countersHead?,
      state.behind = [] ∧ state.chain.count (process.agent.countersQuery head) ≤ PAGE_LIMIT
  | _ => True

instance (state : State) : (event : Event) → Decidable (state.SeesCounters event)
  | .read _ _ => by unfold SeesCounters; infer_instance
  | .sealBlocks _ _ | .catchUp _ | .post _ | .withdraw _ | .launch _ | .crash | .serve _
  | .gate _ _ _ | .admitted _ | .admission _ _ | .learn _ | .endAdmission _ | .tick _ | .unread
  | .countServed _ | .portLooked _ | .write _ => isTrue trivial

/-- An answer that tells what became of a write, or shows every open counter record. -/
def AnswersTruly (state : State) (event : Event) : Prop :=
  event.Truthful ∧ state.SeesCounters event

instance (state : State) (event : Event) : Decidable (state.AnswersTruly event) :=
  inferInstanceAs (Decidable (_ ∧ _))

variable {urls : Urls} {sidecar : Identity} {agreement : EntityKey} {state next : State}
  {event : Event} {label : Label} {account : Account}

/-- Read whole, a page shows the open records of an agreement. -/
theorem SeesCounters.whole (sees : state.SeesCounters event)
    (grounded : state.Grounded sidecar.address) (headed : state.Headed)
    (emits : state.Emits sidecar.address agreement event label account) :
    Account.Whole label account := by
  cases emits with
  | @page process work head shown order rows runs task page =>
      obtain ⟨current, fits⟩ := sees process runs head (by rw [task]; rfl)
      have view : state.view = state.chain := by
        rw [State.view, current]
        rfl
      rw [view] at page
      have self := (grounded.process process runs).agent.self
      have early : head ≤ state.chain.head := headed process runs head (by rw [task]; rfl)
      refine ⟨by simp [State.account, accountWith, current], fun row => ?_⟩
      have isRows : (state.account sidecar.address agreement).rows =
          state.chain.counters sidecar.address agreement := rfl
      rw [isRows, mem_shownOf, Chain.mem_counters]
      constructor
      · rintro ⟨stored, inRows, sameKey, sameAge, isRecord, counts⟩
        obtain ⟨inChain, alive, admits⟩ := Chain.page_mem page inRows
        simp only [Query.admits, Agent.countersQuery, Bool.and_eq_true] at admits
        have creator : stored.creator = sidecar.address := by simpa [self] using admits.1.1.1.1.1.2
        have isOpen : stored.record.isOpen = true := by simpa using admits.1.1.1.2
        refine ⟨⟨stored, inChain, alive, creator, sameKey, sameAge, isRecord, counts⟩, ?_⟩
        rw [isRecord] at isOpen
        simpa [Record.isOpen, Entry.isOpen] using isOpen
      · rintro ⟨⟨stored, inChain, alive, creator, sameKey, sameAge, isRecord, counts⟩, isOpen⟩
        refine ⟨stored, Chain.page_whole page fits inChain alive ?_, sameKey, sameAge, isRecord,
          counts⟩
        have lives : head < stored.expiresAt := by
          have later := (of_decide_eq_true alive).1
          omega
        have opened : row.record.state = .opened := by simpa [Entry.isOpen] using isOpen
        simp [Query.admits, Agent.countersQuery, isRecord, Record.kind, Record.isOpen, creator, self,
          lives, opened]
  | _ => trivial

/-- What a truthful event is for, is truthful. -/
theorem AnswersTruly.truthful (truly : state.AnswersTruly event)
    (grounded : state.Grounded sidecar.address) (headed : state.Headed)
    (emits : state.Emits sidecar.address agreement event label account) :
    Account.Truthful label account := by
  have whole := truly.2.whole grounded headed emits
  cases emits with
  | @page process work head shown order rows runs task page =>
      refine ⟨?_, whole⟩
      rw [account_of sidecar.address agreement runs, accountOf, task]
      rfl
  | @pastLife process work head shown order rows runs task page gone =>
      refine (?_ : (state.account sidecar.address agreement).desk = .clear)
      rw [account_of sidecar.address agreement runs, accountOf, task]
      rfl
  | fail runs sends split => exact truly.1
  | giveUp atHand => exact atHand
  | _ => trivial

/-! ## What stays true -/

/-- What holds of the account of every agreement while answers are the truth. -/
structure Honest (me : Address) (state : State) : Prop where
  grounded : state.Grounded me
  opened : state.ReadsOpen
  headed : state.Headed
  afforded : ∀ agreement, (state.account me agreement).Afforded
  final : ∀ agreement key, Account.Final key (state.account me agreement)
  rising : ∀ agreement key, Account.Rising key (state.account me agreement)

/-- Every event is some steps of an agreement's account, each that the event is for and truthful. -/
theorem Honest.path (honest : state.Honest sidecar.address) (truly : state.AnswersTruly event)
    (stepped : state.step urls sidecar event = some next) (agreement : EntityKey) :
    Relation.ReflTransGen
      (Account.Step fun label account =>
        state.Emits sidecar.address agreement event label account ∧ Account.Truthful label account)
      (state.account sidecar.address agreement) (next.account sidecar.address agreement) :=
  (honest.grounded.step_simulates honest.opened stepped).lift id fun _ _ step =>
    step.mono fun _ emits => ⟨emits, truly.truthful honest.grounded honest.headed emits⟩

/-- Every event is some steps of an agreement's account, all of them truthful. -/
theorem Honest.simulates (honest : state.Honest sidecar.address) (truly : state.AnswersTruly event)
    (stepped : state.step urls sidecar event = some next) (agreement : EntityKey) :
    Relation.ReflTransGen (Account.Step Account.Truthful) (state.account sidecar.address agreement)
      (next.account sidecar.address agreement) :=
  (honest.path truly stepped agreement).lift id fun _ _ step => step.mono fun _ both => both.2

/-- What a truthful step keeps, an event keeps. -/
theorem Honest.reaches (honest : state.Honest sidecar.address) {holds : Account → Prop}
    (preserved : ∀ before after, before.Afforded → holds before →
      Account.Step Account.Truthful before after → holds after) {agreement : EntityKey}
    (initial : holds (state.account sidecar.address agreement)) (truly : state.AnswersTruly event)
    (stepped : state.step urls sidecar event = some next) :
    holds (next.account sidecar.address agreement) := by
  have both := Machine.reaches_invariant
    (fun before after (both : before.Afforded ∧ holds before) step =>
      ⟨both.1.step step, preserved before after both.1 both.2 step⟩)
    ⟨honest.afforded agreement, initial⟩ (honest.simulates truly stepped agreement)
  exact both.2

theorem Honest.step (honest : state.Honest sidecar.address) (truly : state.AnswersTruly event)
    (stepped : state.step urls sidecar event = some next) : next.Honest sidecar.address where
  grounded := honest.grounded.step stepped
  opened := honest.opened.step stepped
  headed := honest.headed.step stepped
  afforded agreement :=
    Machine.reaches_invariant (fun _ _ afforded step => afforded.step step)
      (honest.afforded agreement) (honest.simulates truly stepped agreement)
  final agreement key :=
    (honest.reaches (fun _ _ afforded final step =>
      final.step (step.mono fun _ => afforded.guarded)) (honest.final agreement key) truly stepped)
  rising agreement key :=
    (honest.reaches (fun _ _ afforded rising step =>
      rising.step (step.mono fun _ => afforded.level)) (honest.rising agreement key) truly stepped)

/-- The LB has no record on the chain, none in flight, and nothing in memory. -/
theorem Genesis.counters (genesis : Genesis sidecar.address state) (agreement : EntityKey) :
    state.chain.counters sidecar.address agreement = [] := by
  refine List.eq_nil_iff_forall_not_mem.mpr fun entry member => ?_
  obtain ⟨row, inChain, _, creator, _⟩ := Chain.mem_counters.mp member
  exact genesis.others row inChain creator

/-- Nothing was counted yet. -/
theorem Genesis.blank (genesis : Genesis sidecar.address state) (agreement : EntityKey) :
    state.account sidecar.address agreement =
      .blank state.chain.head (state.chain.lost agreement) := by
  rw [account_off genesis.process, accountWith, genesis.counters, genesis.pending,
    genesis.behind, genesis.served]
  rfl

theorem Genesis.honest (genesis : Genesis sidecar.address state) : state.Honest sidecar.address := by
  refine ⟨genesis.grounded, by simp [ReadsOpen, genesis.process],
    by simp [Headed, genesis.process], fun agreement => ?_, fun agreement key => ?_,
    fun agreement key => ?_⟩
  · rw [genesis.blank]
    exact Account.blank_afforded _ _
  · rw [genesis.blank]
    exact Account.blank_final _ _ key
  · rw [genesis.blank]
    exact Account.blank_rising _ _ key

end State

end CommunityLb
