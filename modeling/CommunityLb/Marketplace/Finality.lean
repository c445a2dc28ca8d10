import CommunityLb.Marketplace.Account

/-!
# Closed counter records are final
-/

namespace CommunityLb

/-- A write closes a record. -/
def CounterWrite.closes (key : EntityKey) : CounterWrite → Bool
  | patch target _ closing => target = key ∧ closing
  | _ => false

namespace Account

/-- A record is open on the chain, as far as it is there, and no close of it is in flight. -/
def StillOpen (account : Account) (key : EntityKey) : Prop :=
  (∀ row ∈ account.rows, row.key = key → row.isOpen = true) ∧
    ∀ write ∈ account.sent, write.closes key = false

/-- A flush reads, and an agreement's end finds in memory, only records still open. -/
def Guarded : Label → Account → Prop
  | .page flushing shown, account =>
      flushing → ∀ entry ∈ shown, account.StillOpen entry.key
  | .pastLife, account =>
      ∀ held, account.held = some held → ∀ key, held.counter = some key → account.StillOpen key
  | _, _ => True

/-- A record's close is its last write, and it carries a count and a block. -/
structure Final (key : EntityKey) (account : Account) : Prop where
  closed : ∀ row ∈ account.rows, row.key = key → row.isOpen = false →
    0 < row.record.count ∧ row.record.closedBlock.isSome
  made : ∀ write ∈ account.outstanding, WellMade write
  last : account.outstanding.Pairwise fun first second =>
    first.closes key = true → second.target ≠ some key
  untouched : ∀ row ∈ account.rows, row.key = key → row.isOpen = false →
    ∀ write ∈ account.outstanding, write.target ≠ some key
  /-- What a flush has read is still open. -/
  read : ∀ row duplicates missing found,
    account.desk = .shown true row duplicates missing found ∨
        account.desk = .matched true row duplicates →
      key ∈ (row.map (·.key)).toList ++ duplicates → account.StillOpen key

namespace Final

variable {key : EntityKey} {before after : Account}

/-- Fewer rows, fewer writes, and the same at hand or nothing. -/
theorem shrink (final : Final key before) (rows : ∀ row ∈ after.rows, row ∈ before.rows)
    (writes : after.outstanding.Sublist before.outstanding)
    (desk : after.desk = before.desk ∧ (∀ write ∈ after.sent, write ∈ before.sent) ∨
      after.desk.reading = false) : Final key after where
  closed row member := final.closed row (rows row member)
  made write member := final.made write (writes.subset member)
  last := final.last.sublist writes
  untouched row member same shut write inWrites :=
    final.untouched row (rows row member) same shut write (writes.subset inWrites)
  read := by
    intro row duplicates missing found at_hand named
    rcases desk with ⟨same, sent⟩ | idle
    · rw [same] at at_hand
      obtain ⟨opened, unclosed⟩ := final.read row duplicates missing found at_hand named
      exact ⟨fun row member => opened row (rows row member),
        fun write member => unclosed write (sent write member)⟩
    · rcases at_hand with at_hand | at_hand <;> simp [at_hand, Desk.reading] at idle

/-- Nothing but what is read at hand changes. -/
theorem reread (final : Final key before) (rows : after.rows = before.rows)
    (writes : after.outstanding = before.outstanding)
    (read : ∀ row duplicates missing found,
      after.desk = .shown true row duplicates missing found ∨
          after.desk = .matched true row duplicates →
        key ∈ (row.map (·.key)).toList ++ duplicates → after.StillOpen key) :
    Final key after where
  closed := rows ▸ final.closed
  made := writes ▸ final.made
  last := writes ▸ final.last
  untouched := by
    rw [rows, writes]
    exact final.untouched
  read := read

/-- New writes come last, and they target the record only while it is still open. -/
theorem append (final : Final key before) (new : List CounterWrite)
    (clear : before.desk.queue = []) (rows : after.rows = before.rows)
    (writes : after.outstanding = before.sent ++ new) (desk : after.desk.reading = false)
    (made : ∀ write ∈ new, WellMade write)
    (last : new.Pairwise fun first second =>
      first.closes key = true → second.target ≠ some key)
    (fits : ∀ write ∈ new, write.target = some key → before.StillOpen key) : Final key after := by
  have earlier : before.outstanding = before.sent := by rw [outstanding, clear, List.append_nil]
  refine ⟨rows ▸ final.closed, ?_, ?_, ?_, ?_⟩
  · intro write member
    rw [writes] at member
    rcases List.mem_append.mp member with sent | isNew
    · exact final.made write (earlier ▸ sent)
    · exact made write isNew
  · rw [writes]
    refine List.pairwise_append.mpr ⟨earlier ▸ final.last, last, ?_⟩
    intro first inSent second inNew closes targets
    simp [(fits second inNew targets).2 first inSent] at closes
  · rw [rows, writes]
    intro row member same shut write inWrites targets
    rcases List.mem_append.mp inWrites with sent | isNew
    · exact final.untouched row member same shut write (earlier ▸ sent) targets
    · simp [(fits write isNew targets).1 row member same] at shut
  · intro row duplicates missing found at_hand
    rcases at_hand with at_hand | at_hand <;> simp [at_hand, Desk.reading] at desk

/-- The next write on its way lands. -/
theorem landing (final : Final key before) {write : CounterWrite} {rest : List CounterWrite}
    {fresh : EntityKey} {block : Nat} (queued : before.outstanding = write :: rest)
    (lands : write.land block fresh before.rows = some after.rows)
    (writes : after.outstanding = rest)
    (unread : ∀ row duplicates missing found,
      after.desk = .shown true row duplicates missing found ∨
          after.desk = .matched true row duplicates →
        key ∈ (row.map (·.key)).toList ++ duplicates → after.StillOpen key) :
    Final key after where
  closed := by
    intro row member same shut
    rcases land_rows lands member with ⟨record, rfl, rfl⟩ | ⟨payload, closing, old, rfl, inRows, changed⟩ | ⟨kept, _⟩
    · have opened : record.state = .opened :=
        final.made (.opening record) (queued ▸ List.mem_cons_self)
      simp [Entry.isOpen, opened] at shut
    · have made := final.made (.patch row.key payload closing) (queued ▸ List.mem_cons_self)
      cases closing with
      | true =>
          rw [changed]
          exact made rfl
      | false =>
          -- A copy lands on an open record only, and leaves it open.
          have oldKey : old.key = key := by rw [← same, changed]; rfl
          have oldShut : old.isOpen = false := by simpa [changed, Entry.isOpen, Entry.patch] using shut
          have untouched := final.untouched old inRows oldKey oldShut _
            (queued ▸ List.mem_cons_self)
          exact absurd (congrArg some same) untouched
    · exact final.closed row kept same shut
  made write member := final.made write (queued ▸ List.mem_cons_of_mem _ (writes ▸ member))
  last := by
    have whole := final.last
    rw [queued] at whole
    exact writes ▸ (List.pairwise_cons.mp whole).2
  untouched := by
    intro row member same shut later inRest
    rw [writes] at inRest
    have inBefore : later ∈ before.outstanding := queued ▸ List.mem_cons_of_mem _ inRest
    rcases land_rows lands member with ⟨record, rfl, rfl⟩ | ⟨payload, closing, old, rfl, inRows, changed⟩ | ⟨kept, _⟩
    · have opened : record.state = .opened :=
        final.made (.opening record) (queued ▸ List.mem_cons_self)
      simp [Entry.isOpen, opened] at shut
    · have whole := final.last
      rw [queued] at whole
      cases closing with
      | true =>
          exact (List.pairwise_cons.mp whole).1 later inRest (by simp [CounterWrite.closes, same])
      | false =>
          have oldKey : old.key = key := by rw [← same, changed]; rfl
          have oldShut : old.isOpen = false := by simpa [changed, Entry.isOpen, Entry.patch] using shut
          exact final.untouched old inRows oldKey oldShut later inBefore
    · exact final.untouched row kept same shut later inBefore
  read := unread

end Final

/-- A write that does not close a record leaves it open. -/
theorem StillOpen.land {key fresh : EntityKey} {block : Nat} {before after : Account}
    {write : CounterWrite} (stillOpen : before.StillOpen key) (made : WellMade write)
    (keeps : write.closes key = false)
    (lands : write.land block fresh before.rows = some after.rows)
    (sent : ∀ write ∈ after.sent, write ∈ before.sent) : after.StillOpen key := by
  refine ⟨fun row member same => ?_, fun write member => stillOpen.2 write (sent write member)⟩
  rcases land_rows lands member with ⟨record, rfl, rfl⟩ | ⟨payload, closing, old, rfl, inRows, changed⟩ | ⟨kept, _⟩
  · simp [Entry.isOpen, show record.state = .opened from made]
  · have oldKey : old.key = key := by rw [← same, changed]; rfl
    obtain rfl : closing = false := by simpa [CounterWrite.closes, same] using keeps
    simpa [changed, Entry.isOpen, Entry.patch] using stillOpen.1 old inRows oldKey
  · exact stillOpen.1 row kept same

/-- Every step keeps a record's close its last write, when every reading is guarded. -/
theorem Final.step {key : EntityKey} {before after : Account} (final : Final key before)
    (step : Step Guarded before after) : Final key after := by
  cases step with
  | advance count keep later stays =>
      exact final.shrink (fun row member => List.mem_of_mem_filter member) (.refl _)
        (.inl ⟨rfl, fun _ member => member⟩)
  | trail =>
      exact final.shrink (fun _ member => member) (.refl _)
        (.inl ⟨rfl, fun _ member => member⟩)
  | settle =>
      exact final.shrink (fun _ member => member) (.refl _)
        (.inl ⟨rfl, fun _ member => member⟩)
  | die =>
      exact final.shrink (fun _ member => member) (.refl _)
        (.inl ⟨rfl, fun _ member => member⟩)
  | catchUp count =>
      exact final.shrink (fun _ member => member) (.refl _)
        (.inl ⟨rfl, fun _ member => member⟩)
  | serve live allowed =>
      exact final.shrink (fun _ member => member) (.refl _)
        (.inl ⟨rfl, fun _ member => member⟩)
  | serveLate =>
      exact final.shrink (fun _ member => member) (.refl _)
        (.inl ⟨rfl, fun _ member => member⟩)
  | adopt absent desk alive allowed =>
      exact final.shrink (fun _ member => member) (.refl _)
        (.inl ⟨rfl, fun _ member => member⟩)
  | quit allowed =>
      exact final.shrink (fun _ member => member)
        (by simp [outstanding]) (.inr rfl)
  | giveUp allowed =>
      exact final.shrink (fun _ member => member)
        (by simp [outstanding]) (.inr rfl)
  | leave desk =>
      exact final.shrink (fun _ member => member)
        (by simp [outstanding]) (.inr rfl)
  | finish desk unlanded =>
      exact final.shrink (fun _ member => member)
        (by simp [outstanding]) (.inr rfl)
  | @drop write rest sent =>
      refine final.shrink (fun _ member => member) ?_ (.inl ⟨rfl, ?_⟩)
      · rw [outstanding, outstanding, sent]
        exact (List.sublist_cons_self write rest).append_right _
      · rw [sent]
        exact fun _ member => List.mem_cons_of_mem _ member
  | @land write rest fresh rows sent mining unused lands =>
      have queued : before.outstanding = write :: (rest ++ before.desk.queue) := by
        rw [outstanding, sent, List.cons_append]
      refine final.landing queued lands rfl ?_
      intro row duplicates missing found at_hand named
      have stillOpen := final.read row duplicates missing found at_hand named
      exact stillOpen.land (final.made write (queued ▸ List.mem_cons_self))
        (stillOpen.2 write (sent ▸ List.mem_cons_self)) lands
        (fun write member => sent ▸ List.mem_cons_of_mem _ member)
  | @accept record absent desk empty unseen unsent fresh zero opened allowed =>
      refine final.append [.opening record] (by simp [desk]) rfl rfl rfl ?_
        (List.pairwise_singleton _ _) ?_
      · simpa [WellMade] using opened
      · intro write member targets
        obtain rfl : write = .opening record := by simpa using member
        cases targets
  | @accepted record held fresh desk live unsent mining unused zero opened =>
      have queued : before.outstanding = [.opening record] := by
        rw [outstanding, unsent, desk]
        rfl
      have lands : (CounterWrite.opening record).land before.head fresh before.rows =
          some (before.rows ++ [⟨fresh, before.head, record⟩]) := rfl
      refine final.landing queued lands ?_ ?_
      · simp [outstanding, unsent]
      · intro row duplicates missing found at_hand
        rcases at_hand with at_hand | at_hand <;> cases at_hand
  | @acceptFailed record held lost desk live allowed =>
      refine final.shrink (fun _ member => member) ?_ (.inr rfl)
      rw [outstanding, outstanding, desk]
      cases lost <;> simp [Desk.queue]
  | @pastLife held head openedBlock wei live desk allowed =>
      refine final.append (Account.final head openedBlock wei held)
        (by simp [desk]) rfl rfl rfl ?_ ?_ ?_
      · intro write member
        simp only [Account.final] at member
        split at member
        · cases member
        · split at member
          · obtain rfl := List.mem_singleton.mp member
            trivial
          · next served =>
              obtain rfl := List.mem_singleton.mp member
              exact fun _ => ⟨Nat.pos_of_ne_zero served, rfl⟩
      · simp only [Account.final]
        split
        · exact .nil
        · split <;> exact List.pairwise_singleton _ _
      · intro write member targets
        simp only [Account.final] at member
        split at member
        · cases member
        · next counter =>
            refine allowed held live key (counter.trans ?_)
            split at member
            · obtain rfl := List.mem_singleton.mp member
              exact targets
            · obtain rfl := List.mem_singleton.mp member
              exact targets
  | @page flushing shown row duplicates desk settled inView oldest younger allowed =>
      refine final.reread rfl (by simp [outstanding, desk]) ?_
      intro read others missing found at_hand named
      rcases at_hand with at_hand | at_hand
      · simp only [Desk.shown.injEq] at at_hand
        obtain ⟨flush, rfl, rfl, _⟩ := at_hand
        rcases List.mem_append.mp named with isRow | isDuplicate
        · obtain ⟨entry, rfl, rfl⟩ : ∃ entry, row = some entry ∧ entry.key = key := by
            simpa using isRow
          exact allowed flush entry oldest.1
        · obtain ⟨entry, inShown, rfl, _⟩ := younger key isDuplicate
          exact allowed flush entry inShown
      · cases at_hand
  | @lookup flushing row duplicates target desk allowed =>
      refine final.reread rfl (by simp [outstanding, desk]) ?_
      intro read others missing found at_hand named
      rcases at_hand with at_hand | at_hand
      · simp only [Desk.shown.injEq] at at_hand
        obtain ⟨flush, rfl, rfl, _⟩ := at_hand
        exact final.read row duplicates (some target) none (.inl (flush ▸ desk)) named
      · cases at_hand
  | @match_ flushing row duplicates found desk =>
      refine final.reread rfl (by simp [outstanding, desk]) ?_
      intro read others missing noted at_hand named
      rcases at_hand with at_hand | at_hand
      · cases at_hand
      · simp only [Desk.matched.injEq] at at_hand
        obtain ⟨flush, rfl, rfl⟩ := at_hand
        exact final.read row duplicates none found (.inl (flush ▸ desk)) named
  | @counts row duplicates opening flush head period desk zero opened =>
      have named := final.read row duplicates none none (.inr desk)
      have deletes : ∀ write ∈ (if flush = .scheduled then
          duplicates.map CounterWrite.delete else []),
          ∃ target ∈ duplicates, write = .delete target := by
        intro write member
        split at member
        · obtain ⟨target, inDuplicates, rfl⟩ := List.mem_map.mp member
          exact ⟨target, inDuplicates, rfl⟩
        · cases member
      refine final.append ((if flush = .scheduled then duplicates.map .delete else []) ++
        (owed flush head period opening row before.held).1)
        (by simp [desk]) rfl rfl rfl ?_ ?_ ?_
      · intro write member
        rcases List.mem_append.mp member with leftover | inOwed
        · obtain ⟨target, _, rfl⟩ := deletes write leftover
          trivial
        · rcases owed_cases flush head period opening row before.held with
            nothing | one | ⟨found, made, _, _, wellMade, one⟩
          · simp [nothing] at inOwed
          · obtain rfl : write = .opening opening := by simpa [one] using inOwed
            exact opened
          · obtain rfl : write = made := by simpa [one] using inOwed
            exact wellMade
      · refine List.pairwise_append.mpr ⟨?_, ?_, ?_⟩
        · refine List.pairwise_of_forall_mem_list fun first inFirst second _ closes => ?_
          obtain ⟨target, _, rfl⟩ := deletes first inFirst
          cases closes
        · rcases owed_cases flush head period opening row before.held with
            nothing | one | ⟨_, _, _, _, _, one⟩
          · simp [nothing]
          · simp [one]
          · simp [one]
        · intro first inFirst second _ closes
          obtain ⟨target, _, rfl⟩ := deletes first inFirst
          cases closes
      · intro write member targets
        rcases List.mem_append.mp member with leftover | inOwed
        · obtain ⟨target, inDuplicates, rfl⟩ := deletes write leftover
          obtain rfl : target = key := by simpa [CounterWrite.target] using targets
          exact named (List.mem_append_right _ inDuplicates)
        · rcases owed_cases flush head period opening row before.held with
            nothing | one | ⟨found, made, rfl, target, _, one⟩
          · simp [nothing] at inOwed
          · obtain rfl : write = .opening opening := by simpa [one] using inOwed
            cases targets
          · obtain rfl : write = made := by simpa [one] using inOwed
            refine named (List.mem_append_left _ ?_)
            simpa [target] using targets.symm
  | @send write queue close fresh rows desk unsent mining unused lands =>
      have queued : before.outstanding = write :: queue := by
        rw [outstanding, unsent, desk]
        rfl
      refine final.landing queued lands ?_ ?_
      · simp [outstanding, unsent]
      · intro row duplicates missing found at_hand
        rcases at_hand with at_hand | at_hand <;> cases at_hand
  | @sendFailed write queue close lost desk allowed =>
      refine final.shrink (fun _ member => member) ?_ (.inr rfl)
      rw [outstanding, outstanding, desk]
      cases lost <;> simp [Desk.queue]
  | @successor close held opening desk landed live zero opened =>
      refine final.append [.opening opening] (by simp [desk]) rfl rfl rfl ?_
        (List.pairwise_singleton _ _) ?_
      · simpa [WellMade] using opened
      · intro write member targets
        obtain rfl : write = .opening opening := by simpa using member
        cases targets

end Account

end CommunityLb
