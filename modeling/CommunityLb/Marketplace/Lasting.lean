import CommunityLb.Marketplace.Afforded
import CommunityLb.Marketplace.Paid

/-!
# What lasts while answers are the truth

What the LB reads is open and behind nothing that is on its way, so a closed record stays as it is
and no count goes down.  While the agreement stays in memory nothing is lost either.
-/

namespace CommunityLb

/-- Nothing is at hand but an acceptance's first record. -/
def Desk.begins : Desk → Bool
  | writing [] none | accepting _ => true
  | _ => false

namespace Account

variable {ok : Label → Account → Prop} {before after : Account}

/-- Memory takes an agreement that it did not hold, and holds none that ended. -/
theorem Step.known (step : Step ok before after) :
    Step (fun label account => ok label account ∧
      (label = .adopt ∨ label = .accept → account.held = none) ∧
        (label = .pastLife ∨ label = .quit → after.held = none)) before after := by
  cases step with
  | trail settled => exact .trail settled
  | advance count keep later stays =>
      exact .advance count keep later (stays.imp_right fun allowed => ⟨allowed, by simp, by simp⟩)
  | settle => exact .settle
  | die => exact .die
  | catchUp count => exact .catchUp count
  | land sent mining unused lands => exact .land sent mining unused lands
  | drop sent => exact .drop sent
  | serve live allowed => exact .serve live ⟨allowed, by simp, by simp⟩
  | serveLate => exact .serveLate
  | adopt absent desk alive allowed =>
      exact .adopt absent desk alive ⟨allowed, fun _ => absent, by simp⟩
  | accept absent desk empty unseen unsent fresh zero opened allowed =>
      exact .accept absent desk empty unseen unsent fresh zero opened
        ⟨allowed, fun _ => absent, by simp⟩
  | accepted desk live unsent mining unused zero opened =>
      exact .accepted desk live unsent mining unused zero opened
  | acceptFailed lost desk live allowed =>
      exact .acceptFailed lost desk live ⟨allowed, by simp, by simp⟩
  | pastLife head openedBlock wei live desk allowed =>
      exact .pastLife head openedBlock wei live desk ⟨allowed, by simp, fun _ => rfl⟩
  | quit allowed => exact .quit ⟨allowed, by simp, fun _ => rfl⟩
  | page flushing desk settled inView oldest younger allowed =>
      exact .page flushing desk settled inView oldest younger ⟨allowed, by simp, by simp⟩
  | lookup desk allowed => exact .lookup desk ⟨allowed, by simp, by simp⟩
  | match_ desk => exact .match_ desk
  | leave desk => exact .leave desk
  | giveUp allowed => exact .giveUp ⟨allowed, by simp, by simp⟩
  | counts flush head period desk zero opened => exact .counts flush head period desk zero opened
  | send desk unsent mining unused lands => exact .send desk unsent mining unused lands
  | sendFailed lost desk allowed => exact .sendFailed lost desk ⟨allowed, by simp, by simp⟩
  | successor desk landed live zero opened => exact .successor desk landed live zero opened
  | finish desk unlanded => exact .finish desk unlanded

/-- What memory does not hold, it takes only by adopting or accepting it. -/
theorem Step.absent (step : Step ok before after) (absent : before.held = none)
    (adopts : ¬ ok .adopt before) (accepts : ¬ ok .accept before) : after.held = none := by
  cases step with
  | serve live allowed => simp [absent] at live
  | accepted desk live => simp [absent] at live
  | acceptFailed lost desk live => simp [absent] at live
  | successor desk landed live => simp [absent] at live
  | adopt _ _ _ allowed => exact absurd allowed adopts
  | accept _ _ _ _ _ _ _ _ allowed => exact absurd allowed accepts
  | match_ desk => simp [absent]
  | pastLife => rfl
  | quit => rfl
  | _ => exact absent

/-- The agreement stays in memory, and no record of it expires. -/
def Steady (label : Label) : Prop :=
  label ≠ .expire ∧ label ≠ .pastLife ∧ label ≠ .quit

/-- No request is served, and every write is answered as landed. -/
def Calm (label : Label) : Prop :=
  label ≠ .serve ∧ ∀ lost, label ≠ .fail lost

namespace Afforded

variable {account : Account} {label : Label}

/-- What a flush reads, and what memory counts into at an agreement's end, is still open. -/
theorem guarded (afforded : Afforded account) (truthful : Truthful label account) :
    Guarded label account := by
  have unsent : ∀ key : EntityKey, ∀ write ∈ account.sent, write.closes key = false := by
    simp [afforded.unsent]
  cases label with
  | page flushing shown =>
      intro _ entry member
      obtain ⟨inRows, isOpen⟩ := (truthful.2.2 entry).mp member
      refine ⟨fun row inRow same => ?_, unsent entry.key⟩
      obtain rfl := List.inj_on_of_nodup_map afforded.led.distinct inRow inRows same
      exact isOpen
  | pastLife =>
      intro held live key counter
      have holds : account.held.bind (·.counter) = some key := by
        rw [live]
        exact counter
      have clear : account.desk = .clear := truthful
      exact ⟨afforded.opened key holds (by simp [clear, Desk.ended]), unsent key⟩
  | _ => trivial

/-- No record read is ahead of what memory will write to it. -/
theorem level (afforded : Afforded account) (truthful : Truthful label account) :
    Level label account := by
  cases label with
  | page flushing shown =>
      obtain ⟨clear, whole⟩ := truthful
      intro row oldest differs top isDue count carried
      obtain ⟨inRows, isOpen⟩ := (whole.2 row).mp oldest.1
      have own : count = row.record.count := by
        simp only [Account.carried, afforded.unsent, clear, Desk.queue_writing, List.append_nil,
          List.filterMap_nil, countsOn, List.mem_map, List.mem_filter, decide_eq_true_eq] at carried
        obtain ⟨other, ⟨inOther, same⟩, rfl⟩ := carried
        rw [List.inj_on_of_nodup_map afforded.led.distinct inOther inRows same]
      rw [own]
      cases live : account.held with
      | none =>
          rw [live] at isDue
          simp only [due] at isDue
          split at isDue
          · cases isDue
            exact le_rfl
          · cases isDue
      | some held =>
          rw [live] at isDue differs
          cases isDue
          cases counter : held.counter with
          | none => simp [take, counter]
          | some key =>
              have holds : account.held.bind (·.counter) = some key := by
                rw [live]
                exact counter
              have opened := afforded.opened key holds (by simp [clear, Desk.ended])
              have absent : ∀ first ∈ account.rows, first.key = key → first.isOpen = false := by
                intro first inFirst isKey
                have firstOpen := opened first inFirst isKey
                have leads := afforded.led.leads key (.inr (.inr (.inl holds)))
                have same := Leads.unique afforded.led.distinct inFirst inRows
                  (oldest.2 first ((whole.2 first).mpr ⟨inFirst, firstOpen⟩))
                  (leads first inFirst isKey row inRows isOpen)
                refine absurd ?_ differs
                rw [Option.bind_some, counter, ← isKey, same]
              rw [afforded.alone key (.inl holds) absent row inRows isOpen]
              exact Nat.zero_le _
  | _ => trivial

/-- With the agreement in memory and no record of it expired, what is read is what exact billing
needs. -/
theorem exact (afforded : Afforded account) (truthful : Truthful label account)
    (steady : Steady label) (live : label ≠ .adopt ∧ label ≠ .accept) : Exact label account := by
  cases label with
  | expire => exact steady.1 rfl
  | pastLife => exact steady.2.1 rfl
  | quit => exact steady.2.2 rfl
  | adopt => exact live.1 rfl
  | accept => exact live.2 rfl
  | page flushing shown =>
      obtain ⟨clear, whole⟩ := truthful
      refine ⟨whole, fun row inRows counts shut => ?_⟩
      rw [afforded.opened row.key counts (by simp [clear, Desk.ended]) row inRows rfl] at shut
      cases shut
  | lookup key =>
      intro row _ _ _ write member
      rw [afforded.unsent] at member
      cases member
  | _ => trivial

/-- With no request served and every write landing, nothing is lost on its way either. -/
theorem quiet (afforded : Afforded account) (truthful : Truthful label account)
    (steady : Steady label) (calm : Calm label) (live : label ≠ .adopt ∧ label ≠ .accept) :
    Quiet label account := by
  have isExact := afforded.exact truthful steady live
  cases label with
  | serve => exact calm.1 rfl
  | fail lost => exact calm.2 lost rfl
  | giveUp =>
      have reads : account.desk.reading = true := truthful
      have unwritten : account.desk.queue = [] := by
        cases desk : account.desk <;> simp_all [Desk.reading]
      exact unwritten
  | _ => exact isExact

/-- Exact billing goes on. -/
theorem exact_step {base : Nat} {held : Held} (afforded : Afforded before)
    (billed : Billed base before held)
    (step : Step (fun label account => Truthful label account ∧ Steady label) before after) :
    ∃ now, Billed base after now := by
  have absent : before.held ≠ none := by simp [billed.live]
  refine billed.step (step.known.mono ?_)
  rintro label ⟨⟨truthful, steady⟩, takes, _⟩
  exact afforded.exact truthful steady
    ⟨fun same => absent (takes (.inl same)), fun same => absent (takes (.inr same))⟩

/-- A step with no request served and no write lost is a quiet one. -/
theorem quiet_step {base : Nat} {held : Held} (afforded : Afforded before)
    (billed : Billed base before held)
    (step : Step (fun label account => (Truthful label account ∧ Steady label) ∧ Calm label)
      before after) : Step Quiet before after := by
  have absent : before.held ≠ none := by simp [billed.live]
  refine step.known.mono ?_
  rintro label ⟨⟨⟨truthful, steady⟩, calm⟩, takes, _⟩
  exact afforded.quiet truthful steady calm
    ⟨fun same => absent (takes (.inl same)), fun same => absent (takes (.inr same))⟩

end Afforded

/-! ## What an agreement is billed -/

/-- Memory just took the agreement: nothing was counted, and nothing is at hand but its first
record. -/
def Begun (account : Account) : Prop :=
  account.held = some { counter := none, served := 0, total := 0 } ∧ account.desk.begins = true

instance : DecidablePred Begun :=
  fun _ => inferInstanceAs (Decidable (_ ∧ _))

/-- What the records carry at first is the base that exact billing adds to. -/
theorem Begun.billed {account : Account} (begun : account.Begun) (afforded : account.Afforded)
    (rising : ∀ key, account.Rising key) :
    Billed (total account.rows) account { counter := none, served := 0, total := 0 } := by
  obtain ⟨live, begins⟩ := begun
  have desk : account.desk = .clear ∨ ∃ record, account.desk = .accepting record := by
    unfold Desk.begins at begins
    split at begins
    · next clear => exact .inl clear
    · next record accepts => exact .inr ⟨record, accepts⟩
    · cases begins
  have unpatched : ∀ write ∈ account.outstanding, write.target = none := by
    intro write member
    rw [outstanding, afforded.unsent, List.nil_append] at member
    rcases desk with clear | ⟨record, accepts⟩
    · simp [clear] at member
    · obtain rfl : write = .opening record := by simpa [accepts] using member
      rfl
  have noRow : account.desk.row = none := by
    rcases desk with clear | ⟨record, accepts⟩ <;> simp [*, Desk.row]
  refine ⟨afforded.led, rising, live, by simp, ?_, ?_, ?_, ?_, ?_, by simp [noRow], ?_⟩
  · intro write member row _ patched
    have target := CounterWrite.patched_target patched
    rw [unpatched write member] at target
    cases target
  · intro row _ deleted
    cases unpatched _ deleted
  · refine List.pairwise_of_forall_mem_list fun write _ later member row _ deleted => ?_
    have target := unpatched later member
    rw [deleted] at target
    cases target
  · intro key member
    rcases desk with clear | ⟨record, accepts⟩ <;> simp [*, Desk.duplicates] at member
  · rintro key (holds | reads)
    · simp [live] at holds
    · simp [noRow] at reads
  · rcases desk with clear | ⟨record, accepts⟩ <;> simp [*, AtHand]

variable {base : Nat} {held : Held}

/-- After a scheduled flush there is a record to count into, or one is about to be, or everything is
on the chain or about to be. -/
theorem Billed.covers {row : Option Entry} {duplicates : List EntityKey}
    {opening : CounterRecord} {head period : Nat} (billed : Billed base before held)
    (desk : before.desk = .matched true row duplicates) (rows : after.rows = before.rows)
    (live : after.held = before.held)
    (now : after.desk = .writing
      (duplicates.map .delete ++ (owed .scheduled head period opening row (some held)).1)
      (owed .scheduled head period opening row (some held)).2) :
    (Settled base after ∨ Paying after) ∨ Opening after := by
  cases row with
  | some row => exact .inl (billed.counted desk rows live now)
  | none => exact .inr (.inl ⟨opening, by simp [now, owed]⟩)

/-- The next flush finds the record, and then everything is on the chain or about to be. -/
theorem Billed.covered {row : Option Entry} {duplicates : List EntityKey}
    {leftovers : List CounterWrite} {opening : CounterRecord} {head period : Nat}
    (billed : Billed base before held)
    (covered : (Settled base before ∨ Paying before) ∨ Opening before)
    (desk : before.desk = .matched true row duplicates) (rows : after.rows = before.rows)
    (live : after.held = before.held)
    (now : after.desk = .writing
      (leftovers ++ (owed .scheduled head period opening row (some held)).1)
      (owed .scheduled head period opening row (some held)).2) :
    Settled base after ∨ Paying after := by
  rcases covered with (⟨_, isLive, paid⟩ | ⟨_, _, _, _, write, queued, _⟩) | opening
  · exact .inl ⟨_, live.trans isLive, by rw [rows]; exact paid⟩
  · simp [desk] at queued
  · rcases opening with ⟨record, queued⟩ | ⟨_, _, _, _, reads⟩
    · simp [desk] at queued
    · obtain ⟨found, isFound⟩ : ∃ found, row = some found := by
        simpa [desk, Desk.reading, Desk.row, Option.isSome_iff_exists] using reads
      subst isFound
      exact billed.counted desk rows live now

/-- What a scheduled flush asks for, with what follows from it at once: the first leaves a record to
count into, and the next one leaves nothing to be asked for. -/
theorem Billed.flushed {row : Option Entry} {duplicates : List EntityKey} {opening : CounterRecord}
    {head period : Nat} {asked : Account} (billed : Billed base before held)
    (desk : before.desk = .matched true row duplicates) (zero : opening.count = 0)
    (opened : opening.state = .opened)
    (now : asked =
      { before with
        desk := .writing
          (duplicates.map .delete ++ (owed .scheduled head period opening row (some held)).1)
          (owed .scheduled head period opening row (some held)).2 })
    (follows : Relation.ReflTransGen (Step fun _ _ => False) asked after) :
    (∃ now, Billed base after now) ∧ ((Settled base after ∨ Paying after) ∨ Opening after) ∧
      ((Settled base before ∨ Paying before) ∨ Opening before →
        Settled base after ∨ Paying after) := by
  have quietly : ∀ {first second : Account}, Step (fun _ _ => False) first second →
      Step Quiet first second :=
    fun step => step.mono fun _ => False.elim
  have goesOn : ∀ {holds : Account → Prop}, (∀ first second : Account,
      ∀ now, Billed base first now → holds first → Step Quiet first second → holds second) →
      ∀ {first second : Account}, (∃ now, Billed base first now) → holds first →
        Relation.ReflTransGen (Step fun _ _ => False) first second →
          (∃ now, Billed base second now) ∧ holds second := by
    intro holds keeps first second isBilled isHeld path
    have both : ∀ first second : Account, (∃ now, Billed base first now) ∧ holds first →
        Step (fun _ _ => False) first second → (∃ now, Billed base second now) ∧ holds second := by
      rintro first second ⟨⟨now, billed⟩, isHeld⟩ step
      exact ⟨billed.step ((quietly step).mono fun _ => Quiet.exact),
        keeps first second now billed isHeld (quietly step)⟩
    exact Machine.reaches_invariant both ⟨isBilled, isHeld⟩ path
  have isDesk : asked.desk = .writing
      (duplicates.map .delete ++ (owed .scheduled head period opening row (some held)).1)
      (owed .scheduled head period opening row (some held)).2 := by
    rw [now]
  have rows : asked.rows = before.rows := by rw [now]
  have live : asked.held = before.held := by rw [now]
  have isBilled : ∃ now, Billed base asked now := by
    have counting := @Step.counts Exact before row duplicates opening .scheduled head period desk
      zero opened
    rw [if_pos rfl] at counting
    rw [now, ← billed.live]
    exact billed.step counting
  have first := goesOn (fun _ _ _ billed covered step => covered_step covered billed step) isBilled
    (billed.covers desk rows live isDesk) follows
  refine ⟨first.1, first.2, fun covered => ?_⟩
  exact (goesOn (fun _ _ _ billed paid step => paid_step paid billed step) isBilled
    (billed.covered covered desk rows live isDesk) follows).2

/-- With no write on its way, what was to be on the chain is. -/
theorem settled_of_sent (paid : Settled base after ∨ Paying after)
    (sent : after.desk.queue = []) : Settled base after := by
  rcases paid with settled | ⟨_, _, _, _, write, queued, _⟩
  · exact settled
  · simp [sent] at queued

/-! ## What a record was -/

/-- Since a block, a record is as it was, or it is one created after it. -/
structure Kept (since : Nat) (entry : Entry) (account : Account) : Prop where
  final : Final entry.key account
  shut : entry.isOpen = false
  head : since ≤ account.head
  later : account.mining = true → since < account.head
  same : ∀ row ∈ account.rows, row.key = entry.key → row.createdAt ≤ since → row = entry

/-- Since a block, a record counts no less than it did, or it is one created after it. -/
structure Counted (since : Nat) (key : EntityKey) (count : Nat) (account : Account) : Prop where
  rising : Rising key account
  head : since ≤ account.head
  later : account.mining = true → since < account.head
  least : ∀ row ∈ account.rows, row.key = key → row.createdAt ≤ since → count ≤ row.record.count

section Since

variable {since count : Nat} {key : EntityKey} {entry : Entry}

/-- A write that lands is to another record, or it makes a later one. -/
theorem Kept.lands (kept : Kept since entry before) {write : CounterWrite} {fresh : EntityKey}
    {rows : List Entry} (onTheWay : write ∈ before.outstanding) (mining : before.mining = true)
    (lands : write.land before.head fresh before.rows = some rows) :
    ∀ row ∈ rows, row.key = entry.key → row.createdAt ≤ since → row = entry := by
  intro row member same old
  rcases land_rows lands member with
    ⟨record, _, rfl⟩ | ⟨payload, closing, was, isPatch, inRows, changed⟩ | ⟨inRows, _⟩
  · have young : before.head ≤ since := old
    have late := kept.later mining
    omega
  · have sameKey : was.key = entry.key := by
      rw [changed] at same
      exact same
    have sameAge : was.createdAt ≤ since := by
      rw [changed] at old
      exact old
    obtain rfl := kept.same was inRows sameKey sameAge
    refine absurd ?_ (kept.final.untouched was inRows rfl kept.shut write onTheWay)
    rw [isPatch, same]
    rfl
  · exact kept.same row inRows same old

theorem Kept.step (kept : Kept since entry before) (step : Step Guarded before after) :
    Kept since entry after := by
  have final := kept.final.step step
  cases step with
  | advance count keep later stays =>
      refine ⟨final, kept.shut, kept.head.trans (Nat.le_add_right _ _), fun _ => ?_, ?_⟩
      · exact Nat.lt_of_le_of_lt kept.head (Nat.lt_add_of_pos_right later)
      · exact fun row member => kept.same row (List.mem_of_mem_filter member)
  | settle => exact ⟨final, kept.shut, kept.head, (by simp), kept.same⟩
  | @land write rest fresh rows sent mining unused lands =>
      exact ⟨final, kept.shut, kept.head, kept.later, kept.lands (by simp [outstanding, sent]) mining
        lands⟩
  | @send write queue close fresh rows desk unsent mining unused lands =>
      exact ⟨final, kept.shut, kept.head, kept.later, kept.lands (by simp [outstanding, desk]) mining
        lands⟩
  | @accepted record held fresh desk live unsent mining unused zero opened =>
      refine ⟨final, kept.shut, kept.head, (by simp), fun row member same old => ?_⟩
      rcases List.mem_append.mp member with inRows | new
      · exact kept.same row inRows same old
      · obtain rfl := List.mem_singleton.mp new
        have late := kept.later mining
        have young : before.head ≤ since := old
        omega
  | _ => exact ⟨final, kept.shut, kept.head, kept.later, kept.same⟩

/-- Unless a record expires, what is closed stays where it is. -/
theorem Kept.stays (kept : Kept since entry before) (inRows : entry ∈ before.rows)
    (step : Step (fun label account => Guarded label account ∧ label ≠ .expire) before after) :
    entry ∈ after.rows := by
  have untouched := kept.final.untouched entry inRows rfl kept.shut
  cases step with
  | advance count keep later stays =>
      have same : before.rows.filter keep = before.rows :=
        stays.resolve_right fun allowed => allowed.2 rfl
      simpa [same] using inRows
  | land sent mining unused lands =>
      exact land_untouched lands inRows (untouched _ (by simp [outstanding, sent]))
  | send desk unsent mining unused lands =>
      exact land_untouched lands inRows (untouched _ (by simp [outstanding, desk]))
  | accepted desk live unsent mining unused zero opened => exact List.mem_append_left _ inRows
  | _ => exact inRows

/-- A write that lands carries no less than its record has. -/
theorem Counted.lands (counted : Counted since key count before) {write : CounterWrite}
    {fresh : EntityKey} {rows : List Entry} (onTheWay : write ∈ before.outstanding)
    (mining : before.mining = true)
    (lands : write.land before.head fresh before.rows = some rows) :
    ∀ row ∈ rows, row.key = key → row.createdAt ≤ since → count ≤ row.record.count := by
  intro row member same old
  rcases land_rows lands member with
    ⟨record, _, rfl⟩ | ⟨payload, closing, was, isPatch, inRows, changed⟩ | ⟨inRows, _⟩
  · have young : before.head ≤ since := old
    have late := counted.later mining
    omega
  · have sameKey : was.key = key := by
      rw [changed] at same
      exact same
    have sameAge : was.createdAt ≤ since := by
      rw [changed] at old
      exact old
    have least := counted.least was inRows sameKey sameAge
    have carries : write.countFor key = some payload.count := by
      rw [isPatch, same]
      simp [CounterWrite.countFor]
    have onChain : was.record.count ∈ countsOn before.rows key := by
      refine List.mem_map.mpr ⟨was, List.mem_filter.mpr ⟨inRows, by simpa using sameKey⟩, rfl⟩
    have rises := (List.pairwise_append.mp counted.rising.sorted).2.2 _ onChain payload.count
      (List.mem_filterMap.mpr ⟨write, onTheWay, carries⟩)
    rw [changed]
    exact least.trans rises
  · exact counted.least row inRows same old

theorem Counted.step (counted : Counted since key count before) (step : Step Level before after) :
    Counted since key count after := by
  have rising := counted.rising.step step
  cases step with
  | advance count keep later stays =>
      refine ⟨rising, counted.head.trans (Nat.le_add_right _ _), fun _ => ?_, ?_⟩
      · exact Nat.lt_of_le_of_lt counted.head (Nat.lt_add_of_pos_right later)
      · exact fun row member => counted.least row (List.mem_of_mem_filter member)
  | settle => exact ⟨rising, counted.head, (by simp), counted.least⟩
  | @land write rest fresh rows sent mining unused lands =>
      exact ⟨rising, counted.head, counted.later, counted.lands (by simp [outstanding, sent]) mining
        lands⟩
  | @send write queue close fresh rows desk unsent mining unused lands =>
      exact ⟨rising, counted.head, counted.later, counted.lands (by simp [outstanding, desk]) mining
        lands⟩
  | @accepted record held fresh desk live unsent mining unused zero opened =>
      refine ⟨rising, counted.head, (by simp), fun row member same old => ?_⟩
      rcases List.mem_append.mp member with inRows | new
      · exact counted.least row inRows same old
      · obtain rfl := List.mem_singleton.mp new
        have late := counted.later mining
        have young : before.head ≤ since := old
        omega
  | _ => exact ⟨rising, counted.head, counted.later, counted.least⟩

end Since

end Account

end CommunityLb
