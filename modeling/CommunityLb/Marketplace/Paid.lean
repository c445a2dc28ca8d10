import CommunityLb.Marketplace.Billing

/-!
# What two flushes bill

A flush writes the entry's count to the record memory counts into, or opens one.  With no request
served meanwhile the second flush finds a record to write to, and then nothing is left to bill.
-/

namespace CommunityLb

namespace Account

/-- The conditions of exact billing, with no request served and every write landing. -/
def Quiet : Label → Account → Prop
  | .serve, _ | .fail _, _ => False
  | .giveUp, account => account.desk.queue = []
  | label, account => Exact label account

theorem Quiet.exact {label : Label} {account : Account} (quiet : Quiet label account) :
    Exact label account := by
  cases label <;> trivial

/-- Everything is on the chain. -/
def Settled (base : Nat) (account : Account) : Prop :=
  ∃ held, account.held = some held ∧ total account.rows = base + held.total

/-- Everything is on the chain once the writes at hand have landed. -/
def Paying (account : Account) : Prop :=
  ∃ held key, account.held = some held ∧ held.counter = some key ∧
    ∃ write ∈ account.desk.queue, write.countFor key = some held.served

/-- A record to count into is there, or is about to be. -/
def Opening (account : Account) : Prop :=
  (∃ record, .opening record ∈ account.desk.queue) ∨
    ∃ row ∈ account.rows, row.isOpen = true ∧
      (∀ write ∈ account.outstanding, write.target ≠ some row.key) ∧
        (account.desk.reading = true → account.desk.row.isSome = true)

variable {base : Nat} {before after : Account}

/-- No record's count going down, what is on the chain stays there. -/
theorem Settled.rises {held : Held} (settled : Settled base before)
    (was : Billed base before held) (now : Billed base after held)
    (rises : ∀ key, held.counter = some key →
      (countsOn before.rows key).sum ≤ (countsOn after.rows key).sum) : Settled base after := by
  obtain ⟨live, isLive, paid⟩ := settled
  obtain rfl : live = held := Option.some.inj (isLive.symm.trans was.live)
  refine ⟨live, now.live, ?_⟩
  have balance := was.balance
  have balance' := now.balance
  cases counter : live.counter with
  | none =>
      simp only [counter, others_none] at balance balance'
      omega
  | some key =>
      have whole := total_eq before.rows key
      have whole' := total_eq after.rows key
      have bound := now.count_le counter
      have rise := rises key counter
      simp only [counter] at balance balance'
      omega

/-- The next write on its way lands, and what is on the chain stays there. -/
theorem Settled.landing {held : Held} {write : CounterWrite} {rest : List CounterWrite}
    {fresh : EntityKey} {block : Nat} (settled : Settled base before)
    (was : Billed base before held) (now : Billed base after held)
    (queued : before.outstanding = write :: rest)
    (unused : ∀ record, write = .opening record → fresh ∉ before.mentions)
    (lands : write.land block fresh before.rows = some after.rows) : Settled base after := by
  refine settled.rises was now fun key counter => ?_
  exact was.count_rises queued unused lands (counter_mentioned (by simp [was.live, counter]))

/-- What is on the chain stays there. -/
theorem Settled.step {held : Held} (settled : Settled base before)
    (billed : Billed base before held) (step : Step Quiet before after) : Settled base after := by
  obtain ⟨now, billed'⟩ := billed.step (step.mono fun _ quiet => quiet.exact)
  obtain ⟨live, isLive, paid⟩ := id settled
  cases step with
  | serve _ allowed => exact allowed.elim
  | sendFailed _ _ allowed => exact allowed.elim
  | acceptFailed _ _ _ allowed => exact allowed.elim
  | adopt _ _ _ allowed => exact allowed.elim
  | accept _ _ _ _ _ _ _ _ allowed => exact allowed.elim
  | pastLife _ _ _ _ _ allowed => exact allowed.elim
  | quit allowed => exact allowed.elim
  | advance count keep later stays =>
      have same : before.rows.filter keep = before.rows := stays.resolve_right id
      exact ⟨live, isLive, by simpa [same] using paid⟩
  | @land write rest fresh rows sent mining unused lands =>
      obtain rfl : held = now := Option.some.inj (billed.live.symm.trans billed'.live)
      have queued : before.outstanding = write :: (rest ++ before.desk.queue) := by
        rw [outstanding, sent, List.cons_append]
      exact settled.landing billed billed' queued unused lands
  | @send write queue close fresh rows desk unsent mining unused lands =>
      obtain rfl : held = now := Option.some.inj (billed.live.symm.trans billed'.live)
      have queued : before.outstanding = write :: queue := by
        rw [outstanding, unsent, desk]
        rfl
      exact settled.landing billed billed' queued unused lands
  | @accepted record held' fresh desk isHeld unsent mining unused zero opened =>
      obtain rfl : live = held' := Option.some.inj (isLive.symm.trans isHeld)
      exact ⟨_, rfl, by simpa [total, zero] using paid⟩
  | @match_ flushing row duplicates found desk =>
      exact ⟨take row found live, by simp [isLive], by simpa using paid⟩
  | @successor close held' opening desk landed isHeld zero opened =>
      obtain rfl : live = held' := Option.some.inj (isLive.symm.trans isHeld)
      exact ⟨_, rfl, paid⟩
  | _ => exact ⟨live, isLive, paid⟩

/-- A copy of the entry's count lands, and with it everything is on the chain. -/
theorem Billed.paid {held : Held} {key : EntityKey} {write : CounterWrite} {fresh : EntityKey}
    {block : Nat} (billed : Billed base after held) (counter : held.counter = some key)
    (carries : write.countFor key = some held.served)
    (lands : write.land block fresh before.rows = some after.rows) : Settled base after := by
  refine ⟨held, billed.live, ?_⟩
  have balance := billed.balance
  have whole := total_eq after.rows key
  cases write with
  | opening record => cases carries
  | delete target => cases carries
  | patch target payload closing =>
      simp only [CounterWrite.countFor] at carries
      split at carries
      · next same =>
          subst same
          have count := countsOn_patch lands billed.led.distinct
          have copied : payload.count = held.served := Option.some.inj carries
          simp only [counter] at balance
          omega
      · cases carries

/-- What is on the chain or at hand reaches the chain. -/
theorem paid_step {held : Held} (paid : Settled base before ∨ Paying before)
    (billed : Billed base before held) (step : Step Quiet before after) :
    Settled base after ∨ Paying after := by
  rcases paid with settled | ⟨live, key, isLive, counter, write, queued, carries⟩
  · exact .inl (settled.step billed step)
  obtain ⟨now, billed'⟩ := billed.step (step.mono fun _ quiet => quiet.exact)
  cases step with
  | serve _ allowed => exact allowed.elim
  | sendFailed _ _ allowed => exact allowed.elim
  | acceptFailed _ _ _ allowed => exact allowed.elim
  | adopt _ _ _ allowed => exact allowed.elim
  | accept _ _ _ _ _ _ _ _ allowed => exact allowed.elim
  | pastLife _ _ _ _ _ allowed => exact allowed.elim
  | quit allowed => exact allowed.elim
  | accepted desk =>
      simp [desk] at queued
      simp [queued] at carries
  | giveUp quiet => simp [show before.desk.queue = [] from quiet] at queued
  | leave desk => simp [desk] at queued
  | finish desk => simp [desk] at queued
  | page _ desk => simp [desk] at queued
  | lookup desk => simp [desk] at queued
  | match_ desk => simp [desk] at queued
  | counts _ _ _ desk => simp [desk] at queued
  | successor desk => simp [desk] at queued
  | @send next queue close fresh rows desk unsent mining unused lands =>
      obtain rfl : live = now := Option.some.inj (isLive.symm.trans billed'.live)
      simp only [desk, Desk.queue_writing, List.mem_cons] at queued
      rcases queued with rfl | later
      · exact .inl (billed'.paid counter carries lands)
      · exact .inr ⟨live, key, isLive, counter, write, later, carries⟩
  | _ => exact .inr ⟨live, key, isLive, counter, write, queued, carries⟩

/-- A record no write is to stays as it is. -/
theorem land_untouched {block : Nat} {fresh : EntityKey} {rows landed : List Entry}
    {write : CounterWrite} (lands : write.land block fresh rows = some landed) {row : Entry}
    (inRows : row ∈ rows) (untouched : write.target ≠ some row.key) : row ∈ landed := by
  cases write with
  | opening record =>
      cases lands
      exact List.mem_append_left _ inRows
  | patch target payload closing =>
      simp only [CounterWrite.land] at lands
      split at lands
      · rw [← Option.some.inj lands]
        exact List.mem_map.mpr ⟨row, inRows, if_neg fun same => untouched (congrArg some same.symm)⟩
      · cases lands
  | delete target =>
      simp only [CounterWrite.land] at lands
      split at lands
      · rw [← Option.some.inj lands]
        refine List.mem_filter.mpr ⟨inRows, ?_⟩
        exact decide_eq_true fun same => untouched (congrArg some same.symm)
      · cases lands

/-- With a record read, what a flush owes brings everything to the chain. -/
theorem Billed.counted {held : Held} {row : Entry} {duplicates : List EntityKey}
    {leftovers : List CounterWrite} {opening : CounterRecord} {flush : Flush} {head period : Nat}
    (billed : Billed base before held) (desk : before.desk = .matched true (some row) duplicates)
    (rows : after.rows = before.rows) (live : after.held = before.held)
    (now : after.desk = .writing
      (leftovers ++ (owed flush head period opening (some row) (some held)).1)
      (owed flush head period opening (some row) (some held)).2) :
    Settled base after ∨ Paying after := by
  have counter : held.counter = some row.key := by simpa [desk, AtHand] using billed.atHand
  rcases owed_live flush head period opening (some row) held with
    ⟨_, _, same⟩ | ⟨absent, _⟩ | ⟨found, payload, closing, isFound, copied, one⟩
  · refine .inl ⟨held, live.trans billed.live, ?_⟩
    have balance := billed.balance
    have whole := total_eq before.rows row.key
    have bound := billed.count_le counter
    have floor := billed.floor row (by simp [desk, Desk.row])
    have copied := same row rfl
    simp only [counter] at balance
    rw [rows]
    omega
  · cases absent
  · obtain rfl : row = found := Option.some.inj isFound
    refine .inr ⟨held, row.key, live.trans billed.live, counter,
      .patch row.key payload closing, ?_, ?_⟩
    · simp [now, one]
    · simp [CounterWrite.countFor, copied]

/-- A record to count into stays there, or comes, or is written to. -/
theorem covered_step {held : Held}
    (covered : (Settled base before ∨ Paying before) ∨ Opening before)
    (billed : Billed base before held) (step : Step Quiet before after) :
    (Settled base after ∨ Paying after) ∨ Opening after := by
  rcases covered with paid | opening
  · exact .inl (paid_step paid billed step)
  have queues : ∀ record, .opening record ∈ before.desk.queue → record.state = .opened :=
    fun record queued => (billed.led.opening record (List.mem_append_right _ queued)).2
  cases step with
  | serve _ allowed => exact allowed.elim
  | sendFailed _ _ allowed => exact allowed.elim
  | acceptFailed _ _ _ allowed => exact allowed.elim
  | adopt _ _ _ allowed => exact allowed.elim
  | accept _ _ _ _ _ _ _ _ allowed => exact allowed.elim
  | pastLife _ _ _ _ _ allowed => exact allowed.elim
  | quit allowed => exact allowed.elim
  | @accepted record live fresh desk isLive unsent mining unused zero opened =>
      refine .inr (.inr ⟨⟨fresh, before.head, record⟩, by simp, by simp [Entry.isOpen, opened],
        by simp [outstanding, unsent], by simp [Desk.reading]⟩)
  | @successor close live opening' desk landed isLive zero opened =>
      exact .inr (.inl ⟨opening', by simp⟩)
  | @counts row duplicates opening' flush head period desk zero opened =>
      rcases opening with ⟨record, queued⟩ | ⟨entry, inRows, isOpen, untouched, reads⟩
      · simp [desk] at queued
      · obtain ⟨row, rfl⟩ : ∃ found, row = some found := by
          simpa [desk, Desk.reading, Desk.row, Option.isSome_iff_exists] using reads
        exact .inl (billed.counted desk rfl rfl (by rw [billed.live]))
  | @land write rest fresh rows sent mining unused lands =>
      refine .inr (opening.imp_right ?_)
      rintro ⟨entry, inRows, isOpen, untouched, reads⟩
      have part : ∀ other ∈ rest ++ before.desk.queue, other ∈ before.outstanding := by
        intro other member
        rw [outstanding, sent]
        exact List.mem_cons_of_mem _ member
      have first : write ∈ before.outstanding := by simp [outstanding, sent]
      exact ⟨entry, land_untouched lands inRows (untouched write first), isOpen,
        fun other member => untouched other (part other member), reads⟩
  | @drop write rest sent =>
      refine .inr (opening.imp_right ?_)
      rintro ⟨entry, inRows, isOpen, untouched, reads⟩
      refine ⟨entry, inRows, isOpen, fun other member => untouched other ?_, reads⟩
      rw [outstanding, sent]
      exact List.mem_cons_of_mem _ member
  | @send write queue close fresh rows desk unsent mining unused lands =>
      have queued : before.outstanding = write :: queue := by
        rw [outstanding, unsent, desk]
        rfl
      rcases opening with ⟨record, inQueue⟩ | ⟨entry, inRows, isOpen, untouched, reads⟩
      · have opened := queues record inQueue
        simp only [desk, Desk.queue_writing, List.mem_cons] at inQueue
        rcases inQueue with rfl | later
        · cases lands
          refine .inr (.inr ⟨⟨fresh, before.head, record⟩, by simp, by simp [Entry.isOpen, opened],
            fun other member => ?_, by simp [Desk.reading]⟩)
          have onTheWay : other ∈ before.outstanding := by
            rw [queued]
            exact List.mem_cons_of_mem _ (by simpa [outstanding, unsent] using member)
          exact fun target => unused record rfl (target_mentioned onTheWay target)
        · exact .inr (.inl ⟨record, later⟩)
      · refine .inr (.inr ⟨entry, land_untouched lands inRows (untouched write ?_), isOpen,
          fun other member => untouched other ?_, by simp [Desk.reading]⟩)
        · simp [queued]
        · rw [queued]
          exact List.mem_cons_of_mem _ (by simpa [outstanding, unsent] using member)
  | @page flushing shown row duplicates desk settled inView oldest younger allowed =>
      rcases opening with ⟨record, queued⟩ | ⟨entry, inRows, isOpen, untouched, reads⟩
      · simp [desk] at queued
      · refine .inr (.inr ⟨entry, inRows, isOpen, ?_, fun _ => ?_⟩)
        · simpa [outstanding, desk] using untouched
        · cases row with
          | some row => rfl
          | none =>
              have inShown := (allowed.1.2 entry).mpr ⟨inRows, isOpen⟩
              simp [show shown = [] from oldest] at inShown
  | @lookup flushing row duplicates key desk allowed =>
      rcases opening with ⟨record, queued⟩ | ⟨entry, inRows, isOpen, untouched, reads⟩
      · simp [desk] at queued
      · refine .inr (.inr ⟨entry, inRows, isOpen, ?_, ?_⟩)
        · simpa [outstanding, desk] using untouched
        · simpa [desk, Desk.reading, Desk.row] using reads
  | @match_ flushing row duplicates found desk =>
      rcases opening with ⟨record, queued⟩ | ⟨entry, inRows, isOpen, untouched, reads⟩
      · simp [desk] at queued
      · refine .inr (.inr ⟨entry, inRows, isOpen, ?_, ?_⟩)
        · simpa [outstanding, desk] using untouched
        · simpa [desk, Desk.reading, Desk.row] using reads
  | leave desk =>
      rcases opening with ⟨record, queued⟩ | ⟨entry, inRows, isOpen, untouched, reads⟩
      · simp [desk] at queued
      · refine .inr (.inr ⟨entry, inRows, isOpen, ?_, by simp [Desk.reading]⟩)
        simpa [outstanding, desk] using untouched
  | finish desk =>
      rcases opening with ⟨record, queued⟩ | ⟨entry, inRows, isOpen, untouched, reads⟩
      · simp [desk] at queued
      · refine .inr (.inr ⟨entry, inRows, isOpen, ?_, by simp [Desk.reading]⟩)
        simpa [outstanding, desk] using untouched
  | giveUp quiet =>
      have nothing : before.desk.queue = [] := quiet
      rcases opening with ⟨record, queued⟩ | ⟨entry, inRows, isOpen, untouched, reads⟩
      · simp [nothing] at queued
      · refine .inr (.inr ⟨entry, inRows, isOpen, ?_, by simp [Desk.reading]⟩)
        simpa [outstanding, nothing] using untouched
  | advance count keep later stays =>
      have same : before.rows.filter keep = before.rows := stays.resolve_right id
      rw [same]
      exact .inr opening
  | _ => exact .inr opening

end Account

end CommunityLb
