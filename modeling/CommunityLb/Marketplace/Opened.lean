import CommunityLb.Marketplace.Reading
import CommunityLb.Marketplace.Lives

/-!
# The records that a task has at hand are open

A page of open records shows none that is closed, and what the task keeps of it is what was shown.
-/

namespace CommunityLb

/-- The records read as open that a task has at hand. -/
def Task.openedRows : Task → List (Stored CounterRecord)
  | .closedCount _ _ opened _ _ _ => opened.values
  | .countsBatch _ _ counters => counters.opened.values ++ counters.strays
  | _ => []

namespace Process

variable {process next : Process} {stored : Stored CounterRecord}

theorem afterOffer_openedRows (process : Process) (discovery : Discovery) :
    (process.afterOffer discovery).task.openedRows = [] := by
  rw [afterOffer]
  split <;> rfl

theorem afterError_openedRows (work : Work) (error : ReconcileError) :
    (Task.afterAgreementsError work error).openedRows = [] := by
  rcases work with _ | _ | _ | _ <;> cases error <;> rfl

theorem afterCountersError_openedRows (work : Work) (head : Nat) (error : ReconcileError) :
    (Task.afterCountersError work head error).openedRows = [] := by
  rcases work with _ | _ | _ | _ <;> cases error <;> rfl

theorem afterFlush_openedRows (kind : Flush) : (Task.afterFlush kind).openedRows = [] := by
  cases kind <;> rfl

theorem afterSuccessors_openedRows (kind : Flush) (queue : List Batch) :
    (Task.afterSuccessors kind queue).openedRows = [] := by
  rw [Task.afterSuccessors]
  split
  · exact afterFlush_openedRows kind
  · rfl

theorem afterRefresh_openedRows (queue : List Batch) :
    (Task.afterRefresh queue).openedRows = [] := by
  rw [Task.afterRefresh]
  split <;> rfl

theorem afterEnded_openedRows (work : Work) (head : Nat) (queue : List Batch) :
    (Task.afterEnded work head queue).openedRows = [] := by
  rw [Task.afterEnded]
  split <;> rfl

theorem afterCounts_openedRows (kind : Flush) (head : Nat) (closing : List Closing)
    (queue : List Batch) (patched : List EntityKey) :
    (process.afterCounts kind head closing queue patched).task.openedRows = [] := by
  rw [afterCounts]
  split
  · exact afterSuccessors_openedRows _ _
  · rfl

/-- The reconcile's end keeps records that the lookup had. -/
theorem mem_reconciled {work : Work} {head : Nat} {opened : CountersByAgreement}
    {duplicates : List EntityKey} {closed : List (EntityKey × Nat)}
    (member : stored ∈ (process.reconciled work head opened duplicates closed).task.openedRows) :
    stored ∈ opened.values := by
  cases work with
  | start => cases member
  | poll => cases member
  | flush kind =>
      rcases List.mem_append.mp member with taken | stray
      · exact List.mem_of_mem_filter taken
      · exact List.mem_of_mem_filter stray

/-- A read keeps the records at hand, or takes them from a page of open ones. -/
theorem read_openedRows {order : List EntityKey} {reply : Reply}
    (member : stored ∈ (process.read order reply).task.openedRows) :
    stored ∈ process.task.openedRows ∨
      ∃ work head rows, process.task = .countersPage work head ∧ reply = .rows rows ∧
        stored ∈ rows.filterMap (Stored.decode Record.asCounter) := by
  unfold read at member
  split at member
  case h_3 =>
    split at member
    · rw [afterError_openedRows] at member
      cases member
    · cases member
  case h_4 =>
    have nothing := afterEnded_openedRows ‹Work› ‹Nat›
    simp only [reconcileAgreements, nothing] at member
    cases member
  case h_7 =>
    split at member
    · rw [afterCountersError_openedRows] at member
      cases member
    · cases member
  case h_8 work head rows task =>
    refine .inr ⟨work, head, rows, task, rfl, ?_⟩
    simp only [openCountersRead] at member
    have shown : ∀ other ∈ ((oldestPerAgreement (rows.filterMap
        (Stored.decode Record.asCounter))).1.reorder order).values,
        other ∈ rows.filterMap (Stored.decode Record.asCounter) :=
      fun other isOther => mem_oldestPerAgreement (Keyed.mem_reorder.mp isOther)
    split at member
    · exact shown stored (mem_reconciled member)
    · exact shown stored member
  case h_9 task =>
    rw [task]
    split at member
    · exact .inl (mem_reconciled member)
    · exact .inl member
  case h_10 =>
    rw [afterOffer_openedRows] at member
    cases member
  case h_12 =>
    rw [afterRefresh_openedRows] at member
    cases member
  case h_14 =>
    rw [ensureListing] at member
    split at member
    · cases member
    · split at member <;> cases member
  case h_15 => exact .inl member
  all_goals cases member

theorem unread_openedRows (member : stored ∈ process.unread.task.openedRows) :
    stored ∈ process.task.openedRows := by
  unfold unread at member
  split at member
  case h_2 => exact absurd member (afterError_openedRows _ _ ▸ List.not_mem_nil)
  case h_3 => exact absurd member (afterError_openedRows _ _ ▸ List.not_mem_nil)
  case h_4 => exact absurd member (afterError_openedRows _ _ ▸ List.not_mem_nil)
  case h_6 => exact absurd member (afterFlush_openedRows _ ▸ List.not_mem_nil)
  case h_7 => exact absurd member (afterCountersError_openedRows _ _ _ ▸ List.not_mem_nil)
  case h_8 => exact absurd member (afterCountersError_openedRows _ _ _ ▸ List.not_mem_nil)
  case h_9 => exact absurd member (afterCountersError_openedRows _ _ _ ▸ List.not_mem_nil)
  case h_12 =>
    rw [afterRefresh_openedRows] at member
    cases member
  case h_15 => exact member
  all_goals cases member

theorem written_openedRows {result : Except WriteError BatchResult}
    (member : stored ∈ (process.written result).task.openedRows) :
    stored ∈ process.task.openedRows := by
  unfold written at member
  split at member
  case h_1 => simp [afterEnded_openedRows] at member
  case h_2 => simp [afterCounts_openedRows] at member
  case h_3 => simp [afterSuccessors_openedRows] at member
  case h_4 => simp [afterRefresh_openedRows] at member
  case h_5 =>
    unfold agreementWritten at member
    split at member
    · split at member
      · cases member
      · simp [afterOffer_openedRows] at member
    · simp [afterOffer_openedRows] at member
    · simp [afterOffer_openedRows] at member
  case h_6 => simp [counterWritten, afterOffer_openedRows] at member
  case h_7 =>
    split at member
    · split at member <;> cases member
    · cases member
  case h_8 => split at member <;> cases member
  case h_9 => exact member

theorem countServed_openedRows (counted : process.countServed = some next) :
    next.task.openedRows = [] := by
  rw [countServed] at counted
  split at counted
  · cases counted
    exact afterCounts_openedRows _ _ _ _ _
  · cases counted

theorem portLooked_openedRows {isBound : Bool} (looked : process.portLooked isBound = some next) :
    next.task.openedRows = [] := by
  rw [portLooked] at looked
  split at looked
  · cases looked
    split
    · simp only
      split <;> rfl
    · rfl
  · cases looked

end Process

namespace State

variable {urls : Urls} {sidecar : Identity} {state next : State}

/-- The records at hand were read as open. -/
def ReadsOpen (state : State) : Prop :=
  ∀ process ∈ state.process, ∀ stored ∈ process.task.openedRows, stored.record.state = .opened

/-- A page of the LB's open records shows open ones. -/
theorem reply_open {agent : Agent} {head : Nat} {shown : List EntityKey}
    {rows : List (Stored Record)}
    (replied : state.reply shown (.page (agent.countersQuery head)) = some (.rows rows))
    {stored : Stored CounterRecord}
    (member : stored ∈ rows.filterMap (Stored.decode Record.asCounter)) :
    stored.record.state = .opened := by
  obtain ⟨found, page, same⟩ := Option.map_eq_some_iff.mp replied
  cases same
  obtain ⟨row, inRows, decoded⟩ := List.mem_filterMap.mp member
  obtain ⟨record, isCounter, rfl⟩ := Option.map_eq_some_iff.mp decoded
  obtain ⟨_, _, admits⟩ := Chain.page_mem page inRows
  have isOpen : row.record.isOpen = true := by
    simp only [Query.admits, Agent.countersQuery, Bool.and_eq_true] at admits
    simpa using admits.1.1.1.2
  cases kind : row.record <;> simp_all [Record.asCounter, Record.isOpen]

theorem ReadsOpen.step {event : Event} (opened : state.ReadsOpen)
    (stepped : state.step urls sidecar event = some next) : next.ReadsOpen := by
  intro after isThere stored member
  rcases step_next stepped isThere with ⟨_, config, section_, _, _, _, rfl⟩ | ⟨before, was, goes⟩
  · cases member
  have old : stored ∈ before.task.openedRows → stored.record.state = .opened :=
    opened before was stored
  cases goes with
  | stays task => exact old (task ▸ member)
  | @tick tick task =>
      rw [task] at member
      cases tick <;> cases member
  | @read shown order reading reply reads replied now =>
      subst now
      rcases Process.read_openedRows member with had | ⟨work, head, rows, task, rfl, shown⟩
      · exact old had
      · have task : before.task = .countersPage work head := task
        rw [task] at reads
        cases reads
        exact reply_open replied shown
  | unread now => exact old (Process.unread_openedRows (now ▸ member))
  | counted now =>
      rw [Process.countServed_openedRows now] at member
      cases member
  | looked now =>
      rw [Process.portLooked_openedRows now] at member
      cases member
  | written sends answered now => exact old (Process.written_openedRows (now ▸ member))

end State

end CommunityLb
