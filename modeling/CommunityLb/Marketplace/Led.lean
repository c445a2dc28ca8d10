import CommunityLb.Marketplace.Account

/-!
# The record that counts is the oldest open one

Reading every open record as the chain has it, the LB writes counts into the oldest only.  Any
younger open record of the same agreement carries nothing, which is why deleting it is safe.
-/

namespace CommunityLb

namespace Account

/-- A record precedes every open one, as far as it is there. -/
def Leads (rows : List Entry) (key : EntityKey) : Prop :=
  ∀ lead ∈ rows, lead.key = key → ∀ row ∈ rows, row.isOpen = true → lead.Older row

/-- The records that carry a count, or are to carry one. -/
def Counting (account : Account) (key : EntityKey) : Prop :=
  (∃ row ∈ account.rows, row.key = key ∧ row.record.count ≠ 0) ∨
    (∃ write ∈ account.outstanding, write.patched = some key) ∨
    account.held.bind (·.counter) = some key ∨
    account.desk.row.map (·.key) = some key

/-- A page shows the open records as the chain has them. -/
def Whole : Label → Account → Prop
  | .page _ shown, account =>
      account.seen = [] ∧ ∀ row, row ∈ shown ↔ row ∈ account.rows ∧ row.isOpen = true
  | _, _ => True

/-- Only the oldest open record counts. -/
structure Led (account : Account) : Prop where
  distinct : (account.rows.map Entry.key).Nodup
  dated : ∀ row ∈ account.rows, row.createdAt ≤ account.head
  opening : ∀ record, CounterWrite.opening record ∈ account.outstanding →
    record.count = 0 ∧ record.state = .opened
  leads : ∀ key, account.Counting key → Leads account.rows key
  /-- A record of the block being filled does not count yet. -/
  young : account.mining = true → ∀ row ∈ account.rows, row.createdAt = account.head →
    ¬ account.Counting row.key
  spare : ∀ key ∈ account.desk.duplicates, ¬ account.Counting key
  accepting : ∀ record, account.desk = .accepting record → account.rows = [] ∧ account.sent = []

theorem Leads.mono {rows fewer : List Entry} {key : EntityKey} (leads : Leads rows key)
    (part : ∀ row ∈ fewer, row ∈ rows) : Leads fewer key :=
  fun lead member same row inFewer opened =>
    leads lead (part lead member) same row (part row inFewer) opened

/-- Two open records that both lead are one. -/
theorem Leads.unique {rows : List Entry} {first second : Entry}
    (distinct : (rows.map Entry.key).Nodup) (inFirst : first ∈ rows) (inSecond : second ∈ rows)
    (older : second.Older first)
    (leads : first.Older second) : first = second := by
  have same : first.key = second.key := by
    rcases older with before | ⟨_, le⟩
    · rcases leads with later | ⟨equal, _⟩
      · omega
      · omega
    · rcases leads with later | ⟨_, ge⟩
      · omega
      · exact BitVec.le_antisymm ge le
  exact List.inj_on_of_nodup_map distinct inFirst inSecond same

/-- Landing, a write to a record that counts leaves who leads. -/
theorem Leads.land {rows landed : List Entry} {write : CounterWrite} {block : Nat}
    {fresh key : EntityKey} (leads : Leads rows key)
    (lands : write.land block fresh rows = some landed)
    (before : ∀ record, write = .opening record →
      key ≠ fresh ∧ ∀ row ∈ rows, row.key = key → row.createdAt < block) : Leads landed key := by
  intro lead inLead same row inRow opened
  rcases land_old lands inLead with
    ⟨record, rfl, rfl⟩ | ⟨oldLead, inRows, leadKey, leadAge, _⟩
  · exact absurd same.symm (before record rfl).1
  · rcases land_old lands inRow with
      ⟨record, rfl, rfl⟩ | ⟨old, inOld, oldKey, oldAge, stillOpen, _⟩
    · refine .inl ?_
      have older := (before record rfl).2 oldLead inRows (leadKey.trans same)
      exact leadAge ▸ older
    · have older := leads oldLead inRows (leadKey.trans same) old inOld (stillOpen opened)
      simpa [Entry.Older, leadKey, leadAge, oldKey, oldAge] using older

namespace Led

variable {before after : Account}

/-- A record the account does not know of does not count. -/
theorem not_counting {account : Account} {key : EntityKey} (unused : key ∉ account.mentions) :
    ¬ account.Counting key := by
  rintro (⟨row, member, rfl, _⟩ | ⟨write, member, patched⟩ | holds | read)
  · exact unused (row_mentioned member)
  · refine unused (target_mentioned member ?_)
    cases write <;> simp_all [CounterWrite.patched, CounterWrite.target]
  · exact unused (counter_mentioned holds)
  · exact unused (read_mentioned read)

/-- Fewer rows and nothing new that counts. -/
theorem shrink (led : Led before) (rows : after.rows.Sublist before.rows)
    (head : before.head ≤ after.head) (counting : ∀ key, after.Counting key → before.Counting key)
    (opening : ∀ record, CounterWrite.opening record ∈ after.outstanding →
      CounterWrite.opening record ∈ before.outstanding)
    (young : after.mining = true →
      before.mining = true ∧ after.head = before.head ∨ before.head < after.head)
    (spare : ∀ key ∈ after.desk.duplicates, key ∈ before.desk.duplicates)
    (accepting : ∀ record, after.desk = .accepting record →
      before.desk = .accepting record ∧ ∀ write ∈ after.sent, write ∈ before.sent) : Led after where
  distinct := led.distinct.sublist (rows.map _)
  dated row member := (led.dated row (rows.subset member)).trans head
  opening record member := led.opening record (opening record member)
  leads key counts := (led.leads key (counting key counts)).mono fun _ member => rows.subset member
  young := by
    intro mining row member current counts
    rcases young mining with ⟨was, same⟩ | later
    · exact led.young was row (rows.subset member) (current.trans same) (counting _ counts)
    · have old := led.dated row (rows.subset member)
      omega
  spare key member counts := led.spare key (spare key member) (counting key counts)
  accepting record at_hand := by
    obtain ⟨was, sent⟩ := accepting record at_hand
    obtain ⟨noRows, noSent⟩ := led.accepting record was
    refine ⟨List.sublist_nil.mp (noRows ▸ rows), ?_⟩
    rw [noSent] at sent
    exact List.eq_nil_iff_forall_not_mem.mpr fun write member => by simpa using sent write member

/-- What was at hand is let go. -/
theorem clear (led : Led before) (rows : after.rows = before.rows) (head : after.head = before.head)
    (mining : after.mining = before.mining)
    (writes : ∀ write ∈ after.outstanding, write ∈ before.outstanding)
    (desk : after.desk = .clear)
    (held : ∀ key, after.held.bind (·.counter) = some key →
      before.held.bind (·.counter) = some key) : Led after := by
  refine led.shrink (rows ▸ .refl _) head.ge ?_ (fun _ member => writes _ member)
    (fun now => .inl ⟨mining ▸ now, head⟩) (by simp [desk, Desk.duplicates]) (by simp [desk])
  rintro key (counts | ⟨write, member, patched⟩ | holds | read)
  · exact .inl (rows ▸ counts)
  · exact .inr (.inl ⟨write, writes write member, patched⟩)
  · exact .inr (.inr (.inl (held key holds)))
  · simp [desk, Desk.row] at read

/-- The next write on its way lands. -/
theorem landing (led : Led before) {write : CounterWrite} {rest : List CounterWrite}
    {fresh : EntityKey} (queued : before.outstanding = write :: rest)
    (mining : before.mining = true)
    (unused : ∀ record, write = .opening record → fresh ∉ before.mentions)
    (lands : write.land before.head fresh before.rows = some after.rows)
    (writes : after.outstanding = rest) (head : after.head = before.head)
    (held : after.held.bind (·.counter) = before.held.bind (·.counter))
    (read : ∀ key, after.desk.row.map (·.key) = some key → before.desk.row.map (·.key) = some key)
    (spare : ∀ key ∈ after.desk.duplicates, key ∈ before.desk.duplicates)
    (accepting : ∀ record, after.desk ≠ .accepting record) : Led after := by
  have member : write ∈ before.outstanding := queued ▸ List.mem_cons_self
  have counting : ∀ key, after.Counting key → before.Counting key := by
    rintro key (⟨row, inRows, rfl, counts⟩ | ⟨other, inRest, patched⟩ | holds | isRead)
    · rcases land_old lands inRows with
        ⟨record, rfl, rfl⟩ | ⟨old, inOld, sameKey, _, _, count | patched⟩
      · exact absurd (led.opening record member).1 counts
      · exact .inl ⟨old, inOld, sameKey, count ▸ counts⟩
      · exact .inr (.inl ⟨write, member, patched⟩)
    · exact .inr (.inl ⟨other, queued ▸ List.mem_cons_of_mem _ (writes ▸ inRest), patched⟩)
    · exact .inr (.inr (.inl (held ▸ holds)))
    · exact .inr (.inr (.inr (read key isRead)))
  refine ⟨?_, ?_, ?_, ?_, ?_, ?_, ?_⟩
  · refine land_distinct lands led.distinct fun record opens inRows => ?_
    obtain ⟨row, inRow, rfl⟩ := List.mem_map.mp inRows
    exact unused record opens (row_mentioned inRow)
  · intro row inRows
    rcases land_old lands inRows with ⟨record, rfl, rfl⟩ | ⟨old, inOld, _, age, _⟩
    · exact head.ge
    · exact head ▸ age ▸ led.dated old inOld
  · exact fun record inRest =>
      led.opening record (queued ▸ List.mem_cons_of_mem _ (writes ▸ inRest))
  · intro key counts
    have was := counting key counts
    refine (led.leads key was).land lands fun record opens => ⟨?_, ?_⟩
    · rintro rfl
      exact not_counting (unused record opens) was
    · rintro row inRows rfl
      exact lt_of_le_of_ne (led.dated row inRows) fun current =>
        led.young mining row inRows current was
  · intro _ row inRows current counts
    have was := counting row.key counts
    rcases land_old lands inRows with ⟨record, opens, rfl⟩ | ⟨old, inOld, sameKey, age, _⟩
    · exact not_counting (unused record opens) was
    · exact led.young mining old inOld (age.trans (current.trans head)) (sameKey ▸ was)
  · exact fun key inSpare counts => led.spare key (spare key inSpare) (counting key counts)
  · exact fun record at_hand => absurd at_hand (accepting record)

end Led

/-- Every step keeps the oldest open record leading, when every page is whole. -/
theorem Led.step {before after : Account} (led : Led before) (step : Step Whole before after) :
    Led after := by
  cases step with
  | trail =>
      exact led.shrink (.refl _) le_rfl (fun _ counts => counts) (fun _ member => member)
        (fun mining => .inl ⟨mining, rfl⟩) (fun _ member => member)
        (fun _ at_hand => ⟨at_hand, fun _ member => member⟩)
  | advance count keep later stays =>
      refine led.shrink List.filter_sublist (Nat.le_add_right _ _) ?_ (fun _ member => member)
        (fun _ => .inr (Nat.lt_add_of_pos_right later)) (fun _ member => member)
        (fun _ at_hand => ⟨at_hand, fun _ member => member⟩)
      rintro key (⟨row, member, counts⟩ | rest)
      · exact .inl ⟨row, List.mem_of_mem_filter member, counts⟩
      · exact .inr rest
  | settle =>
      exact led.shrink (.refl _) le_rfl (fun _ counts => counts) (fun _ member => member)
        (fun mining => by cases mining) (fun _ member => member)
        (fun _ at_hand => ⟨at_hand, fun _ member => member⟩)
  | die =>
      exact led.shrink (.refl _) le_rfl (fun _ counts => counts) (fun _ member => member)
        (fun mining => .inl ⟨mining, rfl⟩) (fun _ member => member)
        (fun _ at_hand => ⟨at_hand, fun _ member => member⟩)
  | catchUp count =>
      exact led.shrink (.refl _) le_rfl (fun _ counts => counts) (fun _ member => member)
        (fun mining => .inl ⟨mining, rfl⟩) (fun _ member => member)
        (fun _ at_hand => ⟨at_hand, fun _ member => member⟩)
  | @serve held live allowed =>
      refine led.shrink (.refl _) le_rfl ?_ (fun _ member => member)
        (fun mining => .inl ⟨mining, rfl⟩) (fun _ member => member)
        (fun _ at_hand => ⟨at_hand, fun _ member => member⟩)
      rintro key (counts | writes | holds | read)
      · exact .inl counts
      · exact .inr (.inl writes)
      · exact .inr (.inr (.inl (by simpa [live] using holds)))
      · exact .inr (.inr (.inr read))
  | serveLate =>
      exact led.shrink (.refl _) le_rfl (fun _ counts => counts) (fun _ member => member)
        (fun mining => .inl ⟨mining, rfl⟩) (fun _ member => member)
        (fun _ at_hand => ⟨at_hand, fun _ member => member⟩)
  | @land write rest fresh rows sent mining unused lands =>
      have queued : before.outstanding = write :: (rest ++ before.desk.queue) := by
        rw [outstanding, sent, List.cons_append]
      refine led.landing queued mining unused lands rfl rfl rfl (fun _ read => read)
        (fun _ member => member) ?_
      intro record at_hand
      have nothing := (led.accepting record at_hand).2
      rw [sent] at nothing
      cases nothing
  | @drop write rest sent =>
      have part : ∀ other, other ∈ rest ++ before.desk.queue → other ∈ before.outstanding := by
        intro other member
        rw [outstanding, sent]
        exact List.mem_cons_of_mem _ member
      refine led.shrink (.refl _) le_rfl ?_ (fun record member => part _ member)
        (fun mining => .inl ⟨mining, rfl⟩) (fun _ member => member) ?_
      · rintro key (counts | ⟨other, member, patched⟩ | rest)
        · exact .inl counts
        · exact .inr (.inl ⟨other, part other member, patched⟩)
        · exact .inr (.inr rest)
      · intro record at_hand
        exact ⟨at_hand, fun other member => sent ▸ List.mem_cons_of_mem _ member⟩
  | adopt absent desk alive allowed =>
      refine led.shrink (.refl _) le_rfl ?_ (fun _ member => member)
        (fun mining => .inl ⟨mining, rfl⟩) (fun _ member => member)
        (fun _ at_hand => ⟨at_hand, fun _ member => member⟩)
      rintro key (counts | writes | holds | read)
      · exact .inl counts
      · exact .inr (.inl writes)
      · cases holds
      · exact .inr (.inr (.inr read))
  | @accept record absent desk empty unseen unsent fresh zero opened allowed =>
      have nothing : ∀ key, ¬ Counting
          { before with
            held := some { counter := none, served := 0, total := 0 }
            desk := .accepting record } key := by
        rintro key (⟨row, member, _⟩ | ⟨write, member, patched⟩ | holds | read)
        · simp [empty] at member
        · obtain rfl : write = .opening record := by
            simpa [outstanding, unsent] using member
          cases patched
        · cases holds
        · cases read
      refine ⟨led.distinct, led.dated, ?_, fun key counts => absurd counts (nothing key),
        fun _ row _ _ => nothing row.key, fun key _ => nothing key, fun _ _ => ⟨empty, unsent⟩⟩
      intro other member
      obtain rfl : other = record := by simpa [outstanding, unsent] using member
      exact ⟨zero, opened⟩
  | @accepted record held fresh desk live unsent mining unused zero opened =>
      obtain ⟨noRows, _⟩ := led.accepting record desk
      have noWrite : outstanding
          { before with
            rows := before.rows ++ [⟨fresh, before.head, record⟩]
            held := some { held with counter := some fresh }
            desk := .clear
            mining := false } = [] := by
        simp [outstanding, unsent]
      refine ⟨by simp [noRows], by simp [noRows], ?_, ?_, by rintro ⟨⟩, by simp [Desk.duplicates], by simp⟩
      · rw [noWrite]
        exact fun _ member => by cases member
      · intro key _ lead inLead _ row inRow _
        obtain rfl : lead = ⟨fresh, before.head, record⟩ := by simpa [noRows] using inLead
        obtain rfl : row = ⟨fresh, before.head, record⟩ := by simpa [noRows] using inRow
        exact .inr ⟨rfl, BitVec.le_refl _⟩
  | @acceptFailed record held lost desk live allowed =>
      have queued : before.outstanding = before.sent ++ [.opening record] := by
        rw [outstanding, desk]
        rfl
      have part : ∀ write, write ∈ outstanding
          { before with
            sent := if lost then before.sent ++ [.opening record] else before.sent
            held := some { held with counter := none }
            desk := .clear } → write ∈ before.outstanding := by
        intro write member
        rw [queued]
        cases lost
        · exact List.mem_append_left _ (by simpa [outstanding] using member)
        · simpa [outstanding] using member
      exact led.clear rfl rfl rfl part rfl (by simp)
  | @pastLife held head openedBlock wei live desk allowed =>
      have queued : before.outstanding = before.sent := by simp [outstanding, desk]
      have aimed : ∀ write ∈ final head openedBlock wei held,
          (∀ record, write ≠ .opening record) ∧
            ∀ key, write.patched = some key → held.counter = some key := by
        intro write member
        simp only [final] at member
        split at member
        · cases member
        · next counter =>
            split at member
            · obtain rfl := List.mem_singleton.mp member
              exact ⟨by simp, by simp [CounterWrite.patched]⟩
            · obtain rfl := List.mem_singleton.mp member
              refine ⟨by simp, fun key patched => counter.trans ?_⟩
              simpa [CounterWrite.patched] using patched
      refine led.shrink (.refl _) le_rfl ?_ ?_ (fun mining => .inl ⟨mining, rfl⟩)
        (by simp [Desk.duplicates]) (by simp)
      · rintro key (counts | ⟨write, member, patched⟩ | holds | read)
        · exact .inl counts
        · rcases List.mem_append.mp member with sent | isFinal
          · exact .inr (.inl ⟨write, queued ▸ sent, patched⟩)
          · exact .inr (.inr (.inl (by simp [live, (aimed write isFinal).2 key patched])))
        · cases holds
        · cases read
      · intro record member
        rcases List.mem_append.mp member with sent | isFinal
        · exact queued ▸ sent
        · exact absurd rfl ((aimed _ isFinal).1 record)
  | quit allowed =>
      refine led.clear rfl rfl rfl (fun write member => ?_) rfl (by simp)
      exact List.mem_append_left _ (by simpa [outstanding] using member)
  | giveUp allowed =>
      refine led.clear rfl rfl rfl (fun write member => ?_) rfl (fun _ holds => holds)
      exact List.mem_append_left _ (by simpa [outstanding] using member)
  | leave desk =>
      refine led.clear rfl rfl rfl (fun write member => ?_) rfl (fun _ holds => holds)
      exact List.mem_append_left _ (by simpa [outstanding] using member)
  | finish desk unlanded =>
      refine led.clear rfl rfl rfl (fun write member => ?_) rfl (fun _ holds => holds)
      exact List.mem_append_left _ (by simpa [outstanding] using member)
  | @page flushing shown row duplicates desk settled inView oldest younger allowed =>
      obtain ⟨unseen, whole⟩ := allowed
      have current : ∀ entry ∈ shown, entry ∈ before.rows ∧ entry.isOpen = true :=
        fun entry => (whole entry).mp
      have reads : ∀ entry, row = some entry → entry ∈ before.rows ∧ entry.isOpen = true ∧
          ∀ other ∈ before.rows, other.isOpen = true → entry.Older other := by
        rintro entry rfl
        obtain ⟨inRows, opened⟩ := current entry oldest.1
        exact ⟨inRows, opened, fun other member opened =>
          oldest.2 other ((whole other).mpr ⟨member, opened⟩)⟩
      have counting : ∀ key, Counting
          { before with
            desk := .shown flushing row duplicates
              (if row = none then before.held.bind (·.counter) else none) none } key →
          before.Counting key ∨ row.map (·.key) = some key := by
        rintro key (counts | ⟨write, member, patched⟩ | holds | read)
        · exact .inl (.inl counts)
        · refine .inl (.inr (.inl ⟨write, ?_, patched⟩))
          simpa [outstanding, desk] using member
        · exact .inl (.inr (.inr (.inl holds)))
        · exact .inr read
      refine ⟨led.distinct, led.dated, ?_, ?_, fun mining => ?_, ?_, by simp⟩
      · intro record member
        exact led.opening record (by simpa [outstanding, desk] using member)
      · intro key counts
        rcases counting key counts with was | isRead
        · exact led.leads key was
        · obtain ⟨entry, found, rfl⟩ := Option.map_eq_some_iff.mp isRead
          obtain ⟨inRows, _, leads⟩ := reads entry found
          intro lead inLead same other inOther opened
          obtain rfl : lead = entry :=
            List.inj_on_of_nodup_map led.distinct inLead inRows same
          exact leads other inOther opened
      · exact absurd (settled ▸ mining) (by simp)
      · intro key member counts
        obtain ⟨entry, inShown, rfl, different⟩ := younger key member
        obtain ⟨inRows, opened⟩ := current entry inShown
        cases row with
        | none => simp [show shown = [] from oldest] at inShown
        | some first =>
            obtain ⟨firstIn, firstOpen, firstLeads⟩ := reads first rfl
            have apart : first ≠ entry := fun same => different (congrArg some same)
            rcases counting entry.key counts with was | isRead
            · exact apart (Leads.unique led.distinct firstIn inRows
                (led.leads _ was entry inRows rfl first firstIn firstOpen)
                (firstLeads entry inRows opened))
            · exact apart (List.inj_on_of_nodup_map led.distinct firstIn inRows
                (by simpa using isRead))
  | @lookup flushing row duplicates target desk allowed =>
      refine led.shrink (.refl _) le_rfl ?_ ?_ (fun mining => .inl ⟨mining, rfl⟩)
        (by simp [desk, Desk.duplicates]) (by simp)
      · rintro key (counts | ⟨write, member, patched⟩ | holds | read)
        · exact .inl counts
        · refine .inr (.inl ⟨write, ?_, patched⟩)
          simpa [outstanding, desk] using member
        · exact .inr (.inr (.inl holds))
        · exact .inr (.inr (.inr (by simpa [desk, Desk.row] using read)))
      · simp [outstanding, desk]
  | @match_ flushing row duplicates found desk =>
      refine led.shrink (.refl _) le_rfl ?_ ?_ (fun mining => .inl ⟨mining, rfl⟩)
        (by simp [desk, Desk.duplicates]) (by simp)
      · rintro key (counts | ⟨write, member, patched⟩ | holds | read)
        · exact .inl counts
        · refine .inr (.inl ⟨write, ?_, patched⟩)
          simpa [outstanding, desk] using member
        · obtain ⟨taken, isTaken, counter⟩ := Option.bind_eq_some_iff.mp holds
          obtain ⟨held, _, rfl⟩ := Option.map_eq_some_iff.mp isTaken
          exact .inr (.inr (.inr (by simpa [desk, Desk.row, take] using counter)))
        · exact .inr (.inr (.inr (by simpa [desk, Desk.row] using read)))
      · simp [outstanding, desk]
  | @counts row duplicates opening flush head period desk zero opened =>
      have queued : before.outstanding = before.sent := by simp [outstanding, desk]
      have kinds : ∀ write ∈ (if flush = .scheduled then
          duplicates.map CounterWrite.delete else []) ++
            (owed flush head period opening row before.held).1,
          (∀ record, write = .opening record → record = opening) ∧
            ∀ key, write.patched = some key → row.map (·.key) = some key := by
        intro write member
        rcases List.mem_append.mp member with leftover | inOwed
        · split at leftover
          · obtain ⟨target, _, rfl⟩ := List.mem_map.mp leftover
            exact ⟨by simp, by simp [CounterWrite.patched]⟩
          · cases leftover
        · rcases owed_cases flush head period opening row before.held with
            nothing | one | ⟨found, made, rfl, target, _, one⟩
          · simp [nothing] at inOwed
          · obtain rfl : write = .opening opening := by simpa [one] using inOwed
            exact ⟨by simp, by simp [CounterWrite.patched]⟩
          · obtain rfl : write = made := by simpa [one] using inOwed
            cases write <;> simp_all [CounterWrite.patched, CounterWrite.target]
      have counting : ∀ key, Counting
          { before with
            desk := .writing
              ((if flush = .scheduled then duplicates.map .delete else []) ++
                (owed flush head period opening row before.held).1)
              (owed flush head period opening row before.held).2 } key → before.Counting key := by
        rintro key (counts | ⟨write, member, patched⟩ | holds | read)
        · exact .inl counts
        · rcases List.mem_append.mp member with sent | isNew
          · exact .inr (.inl ⟨write, queued ▸ sent, patched⟩)
          · exact .inr (.inr (.inr (by simpa [desk, Desk.row] using (kinds write isNew).2 key patched)))
        · exact .inr (.inr (.inl holds))
        · cases read
      refine ⟨led.distinct, led.dated, ?_, fun key counts => led.leads key (counting key counts),
        fun mining row member current counts =>
          led.young mining row member current (counting row.key counts), ?_, by simp⟩
      · intro record member
        rcases List.mem_append.mp member with sent | isNew
        · exact led.opening record (queued ▸ sent)
        · rw [(kinds _ isNew).1 record rfl]
          exact ⟨zero, opened⟩
      · simp [Desk.duplicates]
  | @send write queue close fresh rows desk unsent mining unused lands =>
      have queued : before.outstanding = write :: queue := by
        rw [outstanding, unsent, desk]
        rfl
      refine led.landing queued mining unused lands ?_ rfl rfl (by simp [Desk.row])
        (by simp [Desk.duplicates]) (by simp)
      simp [outstanding, unsent]
  | @sendFailed write queue close lost desk allowed =>
      have part : ∀ other, other ∈ (if lost then before.sent ++ [write] else before.sent) ++ queue →
          other ∈ before.outstanding := by
        intro other member
        simp only [outstanding, desk, Desk.queue_writing]
        cases lost <;> simp_all
        tauto
      refine led.shrink (.refl _) le_rfl ?_ (fun record member => part _ member)
        (fun mining => .inl ⟨mining, rfl⟩) (by simp [Desk.duplicates]) (by simp)
      rintro key (counts | ⟨other, member, patched⟩ | holds | read)
      · exact .inl counts
      · exact .inr (.inl ⟨other, part other member, patched⟩)
      · exact .inr (.inr (.inl holds))
      · cases read
  | @successor close held opening desk landed live zero opened =>
      have queued : before.outstanding = before.sent := by simp [outstanding, desk]
      have counting : ∀ key, Counting
          { before with
            held := some { held with counter := none, served := held.served - close.count }
            desk := .writing [.opening opening] none } key → before.Counting key := by
        rintro key (counts | ⟨write, member, patched⟩ | holds | read)
        · exact .inl counts
        · rcases List.mem_append.mp member with sent | isNew
          · exact .inr (.inl ⟨write, queued ▸ sent, patched⟩)
          · obtain rfl : write = .opening opening := by simpa using isNew
            cases patched
        · cases holds
        · cases read
      refine ⟨led.distinct, led.dated, ?_, fun key counts => led.leads key (counting key counts),
        fun mining row member current counts =>
          led.young mining row member current (counting row.key counts),
        by simp [Desk.duplicates], by simp⟩
      intro record member
      rcases List.mem_append.mp member with sent | isNew
      · exact led.opening record (queued ▸ sent)
      · obtain rfl : record = opening := by simpa using isNew
        exact ⟨zero, opened⟩

end Account

end CommunityLb
