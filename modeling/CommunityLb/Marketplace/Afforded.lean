import CommunityLb.Marketplace.Billing
import CommunityLb.Marketplace.Finality

/-!
# No request is billed twice

When every write is answered as what became of it and every page of open records is whole, what an
agreement's records carry was served, and so was everything on its way to them.
-/

namespace CommunityLb

/-- The record of a close at hand that was answered as landed. -/
def Desk.ended : Desk → Option EntityKey
  | writing _ (some close) => if close.landed then some close.counter else none
  | _ => none

namespace Account

/-- A write that failed never lands, a page is whole, and only a reconcile gives up. -/
def Truthful : Label → Account → Prop
  | .fail lost, _ => lost = false
  | .giveUp, account => account.desk.reading = true
  | .page flushing shown, account => account.desk = .clear ∧ Whole (.page flushing shown) account
  | .pastLife, account => account.desk = .clear
  | _, _ => True

theorem Truthful.whole {label : Label} {account : Account} (truthful : Truthful label account) :
    Whole label account := by
  cases label with
  | page flushing shown => exact truthful.2
  | _ => trivial

/-- What is at hand is of the record memory counts into, and memory can afford to take it. -/
def AtDesk (rows : List Entry) (log : Nat) (held : Option Held) : Desk → Prop
  | .writing queue (some close) =>
      ∀ live ∈ held, live.counter = some close.counter ∧
        (close.landed = true → (countsOn rows close.counter).sum ≤ close.count) ∧
          ∀ write ∈ queue, write.patched = some close.counter →
            write.countFor close.counter = some close.count
  | .writing _ none => True
  | .shown _ row _ missing found =>
      found = none ∧ (∀ key ∈ missing, ∀ row ∈ rows, row.key = key → row.isOpen = true) ∧
        ∀ live ∈ held, others rows (row.map (·.key)) + (take row none live).served ≤ log
  | .matched _ row _ => ∀ live ∈ held, live.counter = row.map (·.key)
  | .accepting _ => ∀ live ∈ held, live.counter = none

/-- What the records carry, with what memory or a write on its way adds, was served. -/
structure Afforded (account : Account) : Prop where
  led : account.Led
  unsent : account.sent = []
  bound : total account.rows ≤ account.log
  memory : ∀ held ∈ account.held, others account.rows held.counter + held.served ≤ account.log
  writes : ∀ write ∈ account.desk.queue, ∀ key count, write.countFor key = some count →
    others account.rows (some key) + count ≤ account.log
  one : ∀ first ∈ account.desk.queue, ∀ second ∈ account.desk.queue, ∀ key other,
    first.patched = some key → second.patched = some other → key = other
  aimed : ∀ write ∈ account.desk.queue, ∀ key, write.patched = some key →
    ∀ held ∈ account.held, held.counter = some key
  closes : ∀ write ∈ account.desk.queue, ∀ key, write.closes key = true → ∀ held ∈ account.held,
    ∃ queue close, account.desk = .writing queue (some close) ∧ close.counter = key
  read : ∀ row ∈ account.desk.row,
    others account.rows (some row.key) + row.record.count ≤ account.log ∧
      ∀ other ∈ account.rows, other.key = row.key → other.isOpen = true
  /-- The record memory counts into is open until its close was answered as landed. -/
  opened : ∀ key, account.held.bind (·.counter) = some key → account.desk.ended ≠ some key →
    ∀ row ∈ account.rows, row.key = key → row.isOpen = true
  /-- With the current record gone or closed, no open one carries anything. -/
  alone : ∀ key, account.Current key →
    (∀ row ∈ account.rows, row.key = key → row.isOpen = false) →
      ∀ row ∈ account.rows, row.isOpen = true → row.record.count = 0
  atDesk : AtDesk account.rows account.log account.held account.desk

/-! ## Sums -/

theorem total_sublist {rows fewer : List Entry} (part : fewer.Sublist rows) :
    total fewer ≤ total rows :=
  (part.map _).sum_le_sum fun _ _ => Nat.zero_le _

theorem others_sublist {rows fewer : List Entry} (part : fewer.Sublist rows)
    (counter : Option EntityKey) : others fewer counter ≤ others rows counter :=
  total_sublist (part.filter _)

theorem countsOn_sublist {rows fewer : List Entry} (part : fewer.Sublist rows) (key : EntityKey) :
    (countsOn fewer key).sum ≤ (countsOn rows key).sum :=
  ((part.filter _).map _).sum_le_sum fun _ _ => Nat.zero_le _

/-- Landing, a write raises no sum it does not carry a count to. -/
theorem others_land_le {block : Nat} {fresh : EntityKey} {rows landed : List Entry}
    {write : CounterWrite} {counter : Option EntityKey}
    (lands : write.land block fresh rows = some landed)
    (opening : ∀ record, write = .opening record → record.count = 0)
    (aimed : ∀ key, write.patched = some key → counter = some key) :
    others landed counter ≤ others rows counter := by
  cases write with
  | opening record => exact (others_land lands opening (by simp [CounterWrite.patched]) (by simp)).le
  | patch target payload closing =>
      exact (others_land lands opening (fun row _ patched => aimed row.key patched) (by simp)).le
  | delete target =>
      simp only [CounterWrite.land] at lands
      split at lands
      · cases lands
        exact others_sublist List.filter_sublist counter
      · cases lands

namespace Afforded

variable {before after : Account}

/-- An open record that carries a count is the current one, when that one is open. -/
theorem current_only (led : before.Led) {key : EntityKey} (current : before.Current key)
    {first row : Entry} (inFirst : first ∈ before.rows) (isKey : first.key = key)
    (isOpen : first.isOpen = true) (inRows : row ∈ before.rows) (opened : row.isOpen = true)
    (counts : row.record.count ≠ 0) : row = first := by
  have leads : Leads before.rows key :=
    led.leads key (current.elim (fun holds => .inr (.inr (.inl holds)))
      fun isRead => .inr (.inr (.inr isRead)))
  have rowLeads := led.leads row.key (.inl ⟨row, inRows, rfl, counts⟩)
  exact Leads.unique led.distinct inRows inFirst (leads first inFirst isKey row inRows opened)
    (rowLeads row inRows rfl first inFirst isOpen)

/-- Fewer rows, the same at hand or fewer writes, and the same in memory. -/
theorem shrink (afforded : Afforded before) (led : after.Led)
    (rows : after.rows.Sublist before.rows) (sent : after.sent = before.sent)
    (log : after.log = before.log) (held : after.held = before.held)
    (desk : after.desk = before.desk) : Afforded after where
  led := led
  unsent := sent.trans afforded.unsent
  bound := log ▸ (total_sublist rows).trans afforded.bound
  memory live isLive := by
    have part := others_sublist rows live.counter
    have owes := afforded.memory live (held ▸ isLive)
    omega
  writes write member key count carries := by
    have part := others_sublist rows (some key)
    have owes := afforded.writes write (desk ▸ member) key count carries
    omega
  one := desk ▸ afforded.one
  aimed := by
    rw [desk, held]
    exact afforded.aimed
  closes := by
    rw [desk, held]
    exact afforded.closes
  read row isRead := by
    have part := others_sublist rows (some row.key)
    obtain ⟨owes, opened⟩ := afforded.read row (desk ▸ isRead)
    exact ⟨by omega, fun other member => opened other (rows.subset member)⟩
  opened key holds unended row member := by
    rw [held] at holds
    rw [desk] at unended
    exact afforded.opened key holds unended row (rows.subset member)
  alone key current gone row member opened := by
    have was : before.Current key := by
      rw [Current, desk, held] at current
      exact current
    by_contra counts
    by_cases open_ : ∃ first ∈ before.rows, first.key = key ∧ first.isOpen = true
    · obtain ⟨first, inFirst, isKey, isOpen⟩ := open_
      obtain rfl := current_only afforded.led was inFirst isKey isOpen (rows.subset member) opened
        counts
      have shut := gone row member isKey
      rw [opened] at shut
      cases shut
    · refine counts (afforded.alone key was (fun first inFirst isKey => ?_) row
        (rows.subset member) opened)
      by_contra isOpen
      exact open_ ⟨first, inFirst, isKey, by simpa using isOpen⟩
  atDesk := by
    have atDesk := afforded.atDesk
    rw [desk, held, log]
    cases now : before.desk with
    | writing queue close =>
        rw [now] at atDesk
        cases close with
        | none => trivial
        | some close =>
            intro live isLive
            obtain ⟨counter, lands, same⟩ := atDesk live isLive
            exact ⟨counter, fun landed =>
              (countsOn_sublist rows close.counter).trans (lands landed), same⟩
    | shown flushing row duplicates missing found =>
        rw [now] at atDesk
        obtain ⟨nothing, looked, takes⟩ := atDesk
        refine ⟨nothing, fun key isMissing row member =>
          looked key isMissing row (rows.subset member), fun live isLive => ?_⟩
        have part := others_sublist rows (row.map (·.key))
        have owes := takes live isLive
        omega
    | matched flushing row duplicates =>
        rw [now] at atDesk
        exact atDesk
    | accepting record =>
        rw [now] at atDesk
        exact atDesk

/-- Nothing is at hand any more. -/
theorem rest (afforded : Afforded before) (led : after.Led) (rows : after.rows = before.rows)
    (sent : after.sent = before.sent) (log : after.log = before.log)
    (desk : after.desk = .clear)
    (memory : ∀ held ∈ after.held, others before.rows held.counter + held.served ≤ before.log)
    (opened : ∀ key, after.held.bind (·.counter) = some key →
      before.Current key ∧ ∀ row ∈ before.rows, row.key = key → row.isOpen = true) :
    Afforded after where
  led := led
  unsent := sent.trans afforded.unsent
  bound := by
    rw [rows, log]
    exact afforded.bound
  memory := by
    rw [rows, log]
    exact memory
  writes := by simp [desk]
  one := by simp [desk]
  aimed := by simp [desk]
  closes := by simp [desk]
  read := by simp [desk, Desk.row]
  opened key holds _ := by
    rw [rows]
    exact (opened key holds).2
  alone key current := by
    rw [rows]
    have holds : after.held.bind (·.counter) = some key := by
      simpa [Current, desk, Desk.row] using current
    exact afforded.alone key (opened key holds).1
  atDesk := by
    rw [desk]
    trivial

/-- A whole page is read. -/
theorem pages (afforded : Afforded before) (led : after.Led) (rows : after.rows = before.rows)
    (sent : after.sent = before.sent) (log : after.log = before.log) (held : after.held = before.held)
    (clear : before.desk = .clear) {flushing : Bool} {shown : List Entry} {row : Option Entry}
    {duplicates : List EntityKey} (oldest : IsOldest shown row)
    (whole : ∀ row, row ∈ shown ↔ row ∈ before.rows ∧ row.isOpen = true)
    (desk : after.desk = .shown flushing row duplicates
      (if row = none then before.held.bind (·.counter) else none) none) : Afforded after := by
  have unended : ∀ key : EntityKey, before.desk.ended ≠ some key := by simp [clear, Desk.ended]
  have opened : ∀ key, before.held.bind (·.counter) = some key →
      ∀ row ∈ before.rows, row.key = key → row.isOpen = true :=
    fun key holds => afforded.opened key holds (unended key)
  have own : ∀ found ∈ row, found ∈ before.rows ∧ found.isOpen = true ∧
      total before.rows = others before.rows (some found.key) + found.record.count := by
    rintro found rfl
    obtain ⟨member, isOpen⟩ := (whole found).mp oldest.1
    refine ⟨member, isOpen, ?_⟩
    rw [total_eq before.rows found.key, countsOn_sum_eq afforded.led.distinct member]
  have bound := afforded.bound
  -- What memory will hold once it takes the record read.
  have takes : ∀ live ∈ before.held,
      others before.rows (row.map (·.key)) + (take row none live).served ≤ before.log := by
    intro live isLive
    have owes := afforded.memory live isLive
    have holds : ∀ key, live.counter = some key → before.held.bind (·.counter) = some key := by
      intro key counter
      rw [Option.mem_def.mp isLive]
      exact counter
    -- A record memory counts into that is not the one read has gone.
    have gone : ∀ key, live.counter = some key → (∀ first ∈ before.rows, first.key ≠ key) →
        others before.rows live.counter = total before.rows := by
      intro key counter absent
      have nothing : (countsOn before.rows key).sum = 0 := by
        refine countsOn_absent fun member => ?_
        obtain ⟨first, inFirst, isKey⟩ := List.mem_map.mp member
        exact absent first inFirst isKey
      rw [counter, total_eq before.rows key, nothing]
      rfl
    cases row with
    | none =>
        have empty : shown = [] := oldest
        have served : (take none none live).served = live.served := by
          cases counter : live.counter <;> simp [take, counter]
        rw [served, Option.map_none, others_none]
        cases counter : live.counter with
        | none => simpa [counter] using owes
        | some key =>
            refine (gone key counter fun first inFirst isKey => ?_) ▸ owes
            have inShown := (whole first).mpr
              ⟨inFirst, opened key (holds key counter) first inFirst isKey⟩
            simp [empty] at inShown
    | some found =>
        obtain ⟨member, isOpen, sum⟩ := own found rfl
        cases counter : live.counter with
        | none =>
            rw [counter, others_none] at owes
            simp only [take, counter, Option.map_some]
            omega
        | some key =>
            simp only [take, counter, Option.map_some]
            by_cases same : key = found.key
            · rw [counter, same] at owes
              exact owes
            · have current : before.Current key := .inl (holds key counter)
              have absent : ∀ first ∈ before.rows, first.key ≠ key := by
                intro first inFirst isKey
                have firstOpen := opened key (holds key counter) first inFirst isKey
                have leads := afforded.led.leads key (.inr (.inr (.inl (holds key counter))))
                have older := oldest.2 first ((whole first).mpr ⟨inFirst, firstOpen⟩)
                have younger := leads first inFirst isKey found member isOpen
                have same_ := Leads.unique afforded.led.distinct inFirst member older younger
                exact same (isKey.symm.trans (congrArg Entry.key same_))
              have zero := afforded.alone key current
                (fun first inFirst isKey => absurd isKey (absent first inFirst)) found member isOpen
              rw [gone key counter absent] at owes
              omega
  constructor
  · exact led
  · exact sent.trans afforded.unsent
  · rw [rows, log]
    exact bound
  · rw [rows, log, held]
    exact afforded.memory
  · simp [desk]
  · simp [desk]
  · simp [desk]
  · simp [desk]
  · intro found isRead
    have isRow : found ∈ row := by simpa [desk, Desk.row] using isRead
    obtain ⟨member, isOpen, sum⟩ := own found isRow
    rw [rows, log]
    refine ⟨by omega, fun other inOther same => ?_⟩
    obtain rfl := List.inj_on_of_nodup_map afforded.led.distinct inOther member same
    exact isOpen
  · intro key holds _
    rw [held] at holds
    rw [rows]
    exact opened key holds
  · rw [rows]
    rintro key (holds | isRead) shut
    · exact afforded.alone key (.inl (held ▸ holds)) shut
    · obtain ⟨found, rfl, rfl⟩ : ∃ found, row = some found ∧ found.key = key := by
        simpa [desk, Desk.row] using isRead
      obtain ⟨member, isOpen, _⟩ := own found rfl
      rw [shut found member rfl] at isOpen
      cases isOpen
  · rw [desk, rows, log, held]
    refine ⟨rfl, fun key isMissing => opened key ?_, takes⟩
    split at isMissing
    · exact isMissing
    · cases isMissing

/-- Memory takes the record read. -/
theorem takes (afforded : Afforded before) (led : after.Led) (rows : after.rows = before.rows)
    (sent : after.sent = before.sent) (log : after.log = before.log) {flushing : Bool}
    {row : Option Entry} {duplicates : List EntityKey} {found : Option Nat}
    (reads : before.desk = .shown flushing row duplicates none found)
    (held : after.held = before.held.map (take row found))
    (desk : after.desk = .matched flushing row duplicates) : Afforded after := by
  have atDesk := afforded.atDesk
  rw [reads] at atDesk
  obtain ⟨rfl, _, takes⟩ := atDesk
  have read := afforded.read
  rw [reads] at read
  -- What memory counts into now is the record read.
  have current : ∀ key, after.held.bind (·.counter) = some key → before.Current key := by
    intro key holds
    refine .inr ?_
    rw [held] at holds
    cases live : before.held with
    | none => simp [live] at holds
    | some live => simpa [live, reads, Desk.row] using holds
  constructor
  · exact led
  · exact sent.trans afforded.unsent
  · rw [rows, log]
    exact afforded.bound
  · intro live isLive
    rw [held] at isLive
    obtain ⟨was, isWas, rfl⟩ := Option.map_eq_some_iff.mp isLive
    rw [rows, log]
    exact takes was isWas
  · simp [desk]
  · simp [desk]
  · simp [desk]
  · simp [desk]
  · rw [desk, rows, log]
    exact read
  · intro key holds _ other member same
    rw [rows] at member
    have isRead := current key holds
    rw [held] at holds
    cases live : before.held with
    | none => simp [live] at holds
    | some live =>
        obtain ⟨found, rfl, rfl⟩ : ∃ found, row = some found ∧ found.key = key := by
          simpa [live] using holds
        exact (read found rfl).2 other member same
  · intro key isCurrent
    rw [rows]
    refine afforded.alone key (isCurrent.elim (current key) fun isRead => .inr ?_)
    rw [desk] at isRead
    rw [reads]
    exact isRead
  · rw [desk, held]
    intro live isLive
    obtain ⟨was, _, rfl⟩ := Option.map_eq_some_iff.mp isLive
    rfl

/-- New writes are at hand, and they carry what memory or the record read can afford. -/
theorem asks (afforded : Afforded before) (led : after.Led) (rows : after.rows = before.rows)
    (sent : after.sent = before.sent) (log : after.log = before.log)
    {queue : List CounterWrite} {close : Option Close} (desk : after.desk = .writing queue close)
    (unlanded : ∀ asked ∈ close, asked.landed = false) (unended : before.desk.ended = none)
    (held : after.held = before.held ∨ after.held = none)
    (carries : ∀ write ∈ queue, ∀ key count, write.countFor key = some count →
      others before.rows (some key) + count ≤ before.log)
    (one : ∀ first ∈ queue, ∀ second ∈ queue, ∀ key other,
      first.patched = some key → second.patched = some other → key = other)
    (aimed : ∀ write ∈ queue, ∀ key, write.patched = some key →
      ∀ live ∈ after.held, live.counter = some key)
    (closes : ∀ write ∈ queue, ∀ key, write.closes key = true →
      ∀ live ∈ after.held, ∃ asked, close = some asked ∧ asked.counter = key)
    (asked : ∀ asked ∈ close, ∀ live ∈ after.held, live.counter = some asked.counter ∧
      ∀ write ∈ queue, write.patched = some asked.counter →
        write.countFor asked.counter = some asked.count) : Afforded after := by
  have kept : ∀ live ∈ after.held, live ∈ before.held := by
    intro live isLive
    rcases held with same | none_
    · exact same ▸ isLive
    · rw [none_] at isLive
      cases isLive
  have holds : ∀ key, after.held.bind (·.counter) = some key →
      before.held.bind (·.counter) = some key := by
    intro key counter
    rcases held with same | none_
    · exact same ▸ counter
    · rw [none_] at counter
      cases counter
  constructor
  · exact led
  · exact sent.trans afforded.unsent
  · rw [rows, log]
    exact afforded.bound
  · rw [rows, log]
    exact fun live isLive => afforded.memory live (kept live isLive)
  · rw [desk, rows, log]
    exact carries
  · rw [desk]
    exact one
  · rw [desk]
    exact aimed
  · rw [desk]
    intro write member key isClose live isLive
    obtain ⟨made, rfl, isKey⟩ := closes write member key isClose live isLive
    exact ⟨queue, made, rfl, isKey⟩
  · simp [desk, Desk.row]
  · rw [rows]
    exact fun key counter _ => afforded.opened key (holds key counter) (by simp [unended])
  · rw [rows]
    intro key current
    have counter : after.held.bind (·.counter) = some key := by
      simpa [Current, desk, Desk.row] using current
    exact afforded.alone key (.inl (holds key counter))
  · rw [desk]
    cases close with
    | none => trivial
    | some made =>
        intro live isLive
        obtain ⟨counter, same⟩ := asked made rfl live isLive
        refine ⟨counter, fun landed => ?_, same⟩
        rw [unlanded made rfl] at landed
        cases landed

/-- The next write at hand lands. -/
theorem sends (afforded : Afforded before) (led : after.Led) {write : CounterWrite}
    {queue : List CounterWrite} {close : Option Close} {fresh : EntityKey}
    (writing : before.desk = .writing (write :: queue) close)
    (unused : ∀ record, write = .opening record → fresh ∉ before.mentions)
    (lands : write.land before.head fresh before.rows = some after.rows)
    (sent : after.sent = before.sent) (log : after.log = before.log) (held : after.held = before.held)
    (desk : after.desk = .writing queue (close.map (Close.answered write))) : Afforded after := by
  have first : write ∈ before.desk.queue := by simp [writing]
  have later : ∀ other ∈ queue, other ∈ before.desk.queue := by
    intro other member
    simp [writing, member]
  have onTheWay : write ∈ before.outstanding := List.mem_append_right _ first
  have zero : ∀ record, write = .opening record → record.count = 0 := by
    rintro record rfl
    exact (afforded.led.opening record onTheWay).1
  have bound := afforded.bound
  -- A sum without the record patched does not rise.
  have falls : ∀ counter : Option EntityKey,
      (∀ key, write.patched = some key → counter = some key) →
        others after.rows counter ≤ others before.rows counter :=
    fun counter aimed => others_land_le lands zero aimed
  constructor
  · exact led
  · exact sent.trans afforded.unsent
  · rw [log]
    cases write with
    | patch key payload closing =>
        have part := falls (some key) fun other patched => patched
        have owes := afforded.writes _ first key payload.count (by simp [CounterWrite.countFor])
        have own := countsOn_patch lands led.distinct
        have whole := total_eq after.rows key
        omega
    | opening record =>
        have part := falls none fun _ patched => by cases patched
        simp only [others_none] at part
        omega
    | delete key =>
        have part := falls none fun _ patched => by cases patched
        simp only [others_none] at part
        omega
  · rw [log, held]
    intro live isLive
    have part := falls live.counter fun key patched => afforded.aimed _ first key patched live isLive
    have owes := afforded.memory live isLive
    omega
  · rw [desk, log]
    intro other member key count carries
    have part := falls (some key) fun patched isPatched => congrArg some
      (afforded.one _ (later other member) _ first key patched
        (CounterWrite.countFor_patched carries) isPatched)
    have owes := afforded.writes other (later other member) key count carries
    omega
  · rw [desk]
    exact fun one isOne two isTwo => afforded.one one (later one isOne) two (later two isTwo)
  · rw [desk, held]
    exact fun other member => afforded.aimed other (later other member)
  · rw [desk, held]
    intro other member key isClose live isLive
    obtain ⟨queue', asked, same, isKey⟩ :=
      afforded.closes other (later other member) key isClose live isLive
    rw [writing] at same
    cases same
    refine ⟨queue, asked.answered write, rfl, ?_⟩
    cases write <;> exact isKey
  · simp [desk, Desk.row]
  · intro key holds unended row member same
    rw [held] at holds
    have counted : key ∈ before.mentions := counter_mentioned holds
    rcases land_rows lands member with
      ⟨record, isOpening, isRow⟩ | ⟨payload, closing, old, isPatch, inRows, changed⟩ |
        ⟨inRows, unpatched, _⟩
    · rw [isRow] at same
      exact absurd (show fresh = key from same) fun clash => unused record isOpening (clash ▸ counted)
    · have oldKey : old.key = key := by
        rw [changed] at same
        exact same
      cases closing with
      | true =>
          have isClose : write.closes key = true := by
            rw [isPatch, same]
            simp [CounterWrite.closes]
          obtain ⟨live, isLive, _⟩ := Option.bind_eq_some_iff.mp holds
          obtain ⟨queue', asked, isDesk, isKey⟩ :=
            afforded.closes write first key isClose live isLive
          rw [writing] at isDesk
          cases isDesk
          refine absurd ?_ unended
          rw [desk, isPatch, Option.map_some, Desk.ended]
          simp [Close.answered, same, isKey]
      | false =>
          have notYet : before.desk.ended ≠ some key := by
            intro ended
            refine unended ?_
            rw [writing] at ended
            rw [desk]
            cases close with
            | none => cases ended
            | some asked =>
                simp only [Desk.ended] at ended
                split at ended
                · next landed =>
                    rw [isPatch, Option.map_some, Desk.ended]
                    simpa [Close.answered, landed] using ended
                · cases ended
          have isOpen := afforded.opened key holds notYet old inRows oldKey
          rw [changed]
          simpa [Entry.isOpen, Entry.patch] using isOpen
    · refine afforded.opened key holds (fun ended => unended ?_) row inRows same
      rw [writing] at ended
      rw [desk]
      cases close with
      | none => cases ended
      | some asked =>
          simp only [Desk.ended] at ended
          split at ended
          · next landed =>
              rw [Option.map_some, Desk.ended]
              cases write <;> simpa [Close.answered, landed] using ended
          · cases ended
  · intro key current shut row member opened
    have holds : before.held.bind (·.counter) = some key := by
      simpa [Current, desk, Desk.row, held] using current
    rcases land_old lands member with
      ⟨record, isOpening, rfl⟩ | ⟨old, inRows, sameKey, _, wasOpen, counts⟩
    · exact zero record isOpening
    · rcases counts with same | patched
      · rw [← same]
        by_contra counted
        by_cases open_ : ∃ lead ∈ before.rows, lead.key = key ∧ lead.isOpen = true
        · obtain ⟨lead, inLead, isKey, isOpen⟩ := open_
          obtain rfl := current_only afforded.led (.inl holds) inLead isKey isOpen inRows
            (wasOpen opened) counted
          have isShut := shut row member (sameKey.symm.trans isKey)
          rw [opened] at isShut
          cases isShut
        · refine counted (afforded.alone key (.inl holds) (fun lead inLead isKey => ?_) old inRows
            (wasOpen opened))
          by_contra isOpen
          exact open_ ⟨lead, inLead, isKey, by simpa using isOpen⟩
      · obtain ⟨live, isLive, counter⟩ := Option.bind_eq_some_iff.mp holds
        have aimed := afforded.aimed write first row.key patched live isLive
        have isShut := shut row member (Option.some.inj (aimed.symm.trans counter))
        rw [opened] at isShut
        cases isShut
  · rw [desk, log, held]
    have atDesk := afforded.atDesk
    rw [writing] at atDesk
    cases close with
    | none => trivial
    | some asked =>
        intro live isLive
        obtain ⟨counter, landed, same⟩ := atDesk live isLive
        have isCounter : (asked.answered write).counter = asked.counter := by cases write <;> rfl
        have isCount : (asked.answered write).count = asked.count := by cases write <;> rfl
        rw [isCounter, isCount]
        refine ⟨counter, fun answered => ?_, fun other member => same other
          (List.mem_cons_of_mem _ member)⟩
        by_cases patched : write.patched = some asked.counter
        · have carries := same write List.mem_cons_self patched
          cases write with
          | opening record => cases patched
          | delete key => cases patched
          | patch key payload closing =>
              obtain rfl : key = asked.counter := Option.some.inj patched
              rw [countsOn_patch lands led.distinct]
              simp only [CounterWrite.countFor, if_true, Option.some.injEq] at carries
              exact carries.le
        · have was : asked.landed = true := by
            cases write with
            | opening record => exact answered
            | delete key => exact answered
            | patch key payload closing =>
                have other : key ≠ asked.counter := fun clash => patched (congrArg some clash)
                simpa [Close.answered, other] using answered
          have counted : asked.counter ∈ before.mentions := by
            refine counter_mentioned ?_
            rw [Option.mem_def.mp isLive]
            exact counter
          have apart : ∀ record, write = .opening record → fresh ≠ asked.counter := by
            rintro record isOpening rfl
            exact unused record isOpening counted
          rcases land_countsOn apart lands with
            ⟨count, carries, _⟩ | ⟨_, kept⟩ | ⟨_, gone⟩
          · exact absurd (CounterWrite.countFor_patched carries) patched
          · rw [kept]
            exact landed was
          · rw [gone]
            exact Nat.zero_le _

/-- A request is served. -/
theorem serves (afforded : Afforded before) (led : after.Led) (rows : after.rows = before.rows)
    (sent : after.sent = before.sent) (desk : after.desk = before.desk)
    (log : after.log = before.log + 1)
    (held : ∀ live ∈ after.held, ∃ was ∈ before.held, live.counter = was.counter ∧
      live.served ≤ was.served + 1) : Afforded after := by
  have holds : ∀ key, after.held.bind (·.counter) = some key →
      before.held.bind (·.counter) = some key := by
    intro key counter
    obtain ⟨live, isLive, counts⟩ := Option.bind_eq_some_iff.mp counter
    obtain ⟨was, isWas, same, _⟩ := held live isLive
    exact Option.bind_eq_some_iff.mpr ⟨was, isWas, same ▸ counts⟩
  constructor
  · exact led
  · exact sent.trans afforded.unsent
  · have bound := afforded.bound
    rw [rows]
    omega
  · intro live isLive
    obtain ⟨was, isWas, same, served⟩ := held live isLive
    have owes := afforded.memory was isWas
    rw [rows, same]
    omega
  · rw [desk, rows]
    intro write member key count carries
    have owes := afforded.writes write member key count carries
    omega
  · rw [desk]
    exact afforded.one
  · rw [desk]
    intro write member key patched live isLive
    obtain ⟨was, isWas, same, _⟩ := held live isLive
    exact same.trans (afforded.aimed write member key patched was isWas)
  · rw [desk]
    intro write member key isClose live isLive
    obtain ⟨was, isWas, _⟩ := held live isLive
    exact afforded.closes write member key isClose was isWas
  · rw [desk, rows]
    intro row isRead
    obtain ⟨owes, opened⟩ := afforded.read row isRead
    exact ⟨by omega, opened⟩
  · rw [desk, rows]
    exact fun key counter => afforded.opened key (holds key counter)
  · rw [rows]
    intro key current
    refine afforded.alone key (current.imp (holds key) fun isRead => ?_)
    rw [desk] at isRead
    exact isRead
  · have atDesk := afforded.atDesk
    rw [desk, rows]
    cases now : before.desk with
    | writing queue close =>
        rw [now] at atDesk
        cases close with
        | none => trivial
        | some close =>
            intro live isLive
            obtain ⟨was, isWas, same, _⟩ := held live isLive
            obtain ⟨counter, rest⟩ := atDesk was isWas
            exact ⟨same.trans counter, rest⟩
    | shown flushing row duplicates missing found =>
        rw [now] at atDesk
        obtain ⟨nothing, looked, takes⟩ := atDesk
        refine ⟨nothing, looked, fun live isLive => ?_⟩
        obtain ⟨was, isWas, same, served⟩ := held live isLive
        have owes := takes was isWas
        have more : (take row none live).served ≤ (take row none was).served + 1 := by
          cases counter : was.counter with
          | none => cases row <;> simp [take, same, counter] <;> omega
          | some key => cases row <;> simpa [take, same, counter] using served
        omega
    | matched flushing row duplicates =>
        rw [now] at atDesk
        intro live isLive
        obtain ⟨was, isWas, same, _⟩ := held live isLive
        exact same.trans (atDesk was isWas)
    | accepting record =>
        rw [now] at atDesk
        intro live isLive
        obtain ⟨was, isWas, same, _⟩ := held live isLive
        exact same.trans (atDesk was isWas)

/-- What a flush owes an agreement carries the entry's count, or a stray's own. -/
theorem counts (afforded : Afforded before) (led : after.Led) (rows : after.rows = before.rows)
    (sent : after.sent = before.sent) (log : after.log = before.log) (held : after.held = before.held)
    {row : Option Entry} {duplicates : List EntityKey} {leftovers : List CounterWrite}
    {opening : CounterRecord} {flush : Flush} {head period : Nat}
    (reads : before.desk = .matched true row duplicates)
    (deletes : ∀ write ∈ leftovers, ∃ key, write = .delete key)
    (desk : after.desk = .writing
      (leftovers ++ (owed flush head period opening row before.held).1)
      (owed flush head period opening row before.held).2) : Afforded after := by
  have atDesk := afforded.atDesk
  rw [reads] at atDesk
  have read := afforded.read
  rw [reads] at read
  have unended : before.desk.ended = none := by
    rw [reads]
    rfl
  -- A patch among the writes is the one that is owed.
  have patches : ∀ write ∈ leftovers ++ (owed flush head period opening row before.held).1,
      ∀ key, write.patched = some key →
        write ∈ (owed flush head period opening row before.held).1 := by
    intro write member key patched
    rcases List.mem_append.mp member with leftover | isOwed
    · obtain ⟨other, rfl⟩ := deletes write leftover
      cases patched
    · exact isOwed
  have closing : ∀ write : CounterWrite, ∀ key, write.closes key = true →
      write.patched = some key := by
    intro write key isClose
    cases write with
    | patch other payload closes =>
        simp only [CounterWrite.closes, Bool.decide_and, Bool.and_eq_true, decide_eq_true_eq]
          at isClose
        exact congrArg some isClose.1
    | opening record => cases isClose
    | delete other => cases isClose
  cases live : before.held with
  | none =>
      rw [live] at desk patches
      -- A stray is deleted, or closed with its own count.
      have stray : ∀ write ∈ (owed flush head period opening row none).1, ∀ key,
          write.patched = some key → ∃ found, row = some found ∧ found.key = key ∧
            ∀ count, write.countFor key = some count → count = found.record.count := by
        intro write member key patched
        cases row with
        | none => simp [owed] at member
        | some found =>
            cases flush with
            | stop => simp [owed] at member
            | scheduled =>
                simp only [owed] at member
                split at member
                · obtain rfl := List.mem_singleton.mp member
                  cases patched
                · obtain rfl := List.mem_singleton.mp member
                  refine ⟨found, rfl, Option.some.inj patched, fun count carries => ?_⟩
                  have isCount : (some (closed found.record found.record.count head).payload.count) =
                      some count := by
                    simpa [CounterWrite.countFor, Option.some.inj patched] using carries
                  exact (Option.some.inj isCount).symm
      refine afforded.asks led rows sent log desk ?_ unended (.inl held) ?_ ?_ ?_ ?_ ?_
      · intro asked isAsked
        cases row <;> cases flush <;> simp only [owed] at isAsked <;> try cases isAsked
        split at isAsked <;> cases isAsked
      · intro write member key count carries
        have patched := CounterWrite.countFor_patched carries
        obtain ⟨found, rfl, rfl, same⟩ := stray write (patches write member key patched) key patched
        rw [same count carries]
        exact (read found rfl).1
      · intro first inFirst second inSecond key other isKey isOther
        obtain ⟨found, rfl, rfl, _⟩ := stray first (patches first inFirst key isKey) key isKey
        obtain ⟨again, same, rfl, _⟩ := stray second (patches second inSecond other isOther) other isOther
        cases same
        rfl
      · simp [held, live]
      · simp [held, live]
      · simp [held, live]
  | some memory =>
      rw [live] at desk patches
      have counter : memory.counter = row.map (·.key) := atDesk memory live
      have owes := afforded.memory memory live
      -- A copy of the entry's count is owed to the record memory counts into.
      have copy : ∀ write ∈ (owed flush head period opening row (some memory)).1, ∀ key,
          write.patched = some key → memory.counter = some key ∧
            write.countFor key = some memory.served ∧
              (write.closes key = true → (owed flush head period opening row (some memory)).2 =
                some
                  { counter := key
                    count := memory.served
                    landed := false }) := by
        intro write member key patched
        rcases owed_live flush head period opening row memory with
          ⟨nothing, _⟩ | ⟨_, one⟩ | ⟨found, payload, ends, rfl, same, one⟩
        · simp [nothing] at member
        · obtain rfl : write = .opening opening := by simpa [one] using member
          cases patched
        · obtain rfl : write = .patch found.key payload ends := by simpa [one] using member
          obtain rfl : found.key = key := Option.some.inj patched
          refine ⟨counter, by simp [CounterWrite.countFor, same], fun isClose => ?_⟩
          have isEnd : ends = true := by simpa [CounterWrite.closes] using isClose
          rw [one]
          simp [isEnd]
      have made : ∀ asked ∈ (owed flush head period opening row (some memory)).2,
          memory.counter = some asked.counter ∧ asked.count = memory.served ∧
            asked.landed = false := by
        intro asked isAsked
        rcases owed_live flush head period opening row memory with
          ⟨nothing, _⟩ | ⟨_, one⟩ | ⟨found, payload, ends, rfl, same, one⟩
        · simp [nothing] at isAsked
        · simp [one] at isAsked
        · rw [one] at isAsked
          simp only at isAsked
          split at isAsked
          · cases isAsked
            exact ⟨counter, rfl, rfl⟩
          · cases isAsked
      refine afforded.asks led rows sent log desk ?_ unended (.inl held) ?_ ?_ ?_ ?_ ?_
      · exact fun asked isAsked => (made asked isAsked).2.2
      · intro write member key count carries
        have patched := CounterWrite.countFor_patched carries
        obtain ⟨isCounter, isCount, _⟩ := copy write (patches write member key patched) key patched
        rw [isCount] at carries
        cases carries
        rw [← isCounter]
        exact owes
      · intro first inFirst second inSecond key other isKey isOther
        have isFirst := (copy first (patches first inFirst key isKey) key isKey).1
        have isSecond := (copy second (patches second inSecond other isOther) other isOther).1
        exact Option.some.inj (isFirst.symm.trans isSecond)
      · intro write member key patched now isNow
        rw [held, live] at isNow
        cases isNow
        exact (copy write (patches write member key patched) key patched).1
      · intro write member key isClose now isNow
        have patched := closing write key isClose
        have asked := (copy write (patches write member key patched) key patched).2.2 isClose
        exact ⟨_, asked, rfl⟩
      · intro asked isAsked now isNow
        rw [held, live] at isNow
        cases isNow
        obtain ⟨isCounter, isCount, _⟩ := made asked isAsked
        refine ⟨isCounter, fun write member patched => ?_⟩
        rw [isCount]
        exact (copy write (patches write member _ patched) _ patched).2.1

/-- The next write at hand failed, and never lands. -/
theorem fails (afforded : Afforded before) (led : after.Led) {write : CounterWrite}
    {queue : List CounterWrite} {close : Option Close}
    (writing : before.desk = .writing (write :: queue) close) (rows : after.rows = before.rows)
    (sent : after.sent = before.sent) (log : after.log = before.log) (held : after.held = before.held)
    (desk : after.desk = .writing queue close) : Afforded after := by
  have later : ∀ other ∈ queue, other ∈ before.desk.queue := by
    intro other member
    simp [writing, member]
  have sameEnd : after.desk.ended = before.desk.ended := by
    rw [desk, writing]
    cases close <;> rfl
  refine ⟨led, sent.trans afforded.unsent, ?_, ?_, ?_, ?_, ?_, ?_, by simp [desk, Desk.row], ?_, ?_,
    ?_⟩
  · rw [rows, log]
    exact afforded.bound
  · rw [rows, log, held]
    exact afforded.memory
  · rw [desk, rows, log]
    exact fun other member => afforded.writes other (later other member)
  · rw [desk]
    exact fun one isOne two isTwo => afforded.one one (later one isOne) two (later two isTwo)
  · rw [desk, held]
    exact fun other member => afforded.aimed other (later other member)
  · rw [desk, held]
    intro other member key isClose live isLive
    obtain ⟨queue', asked, same, isKey⟩ :=
      afforded.closes other (later other member) key isClose live isLive
    rw [writing] at same
    cases same
    exact ⟨queue, asked, rfl, isKey⟩
  · rw [sameEnd, rows, held]
    exact afforded.opened
  · rw [rows]
    intro key current
    have holds : before.held.bind (·.counter) = some key := by
      simpa [Current, desk, Desk.row, held] using current
    exact afforded.alone key (.inl holds)
  · have atDesk := afforded.atDesk
    rw [writing] at atDesk
    rw [desk, rows, log, held]
    cases close with
    | none => trivial
    | some asked =>
        intro live isLive
        obtain ⟨counter, landed, same⟩ := atDesk live isLive
        exact ⟨counter, landed, fun other member => same other (List.mem_cons_of_mem _ member)⟩

/-- The record memory misses is looked up, and it is not found closed. -/
theorem looks (afforded : Afforded before) {flushing : Bool} {row : Option Entry}
    {duplicates : List EntityKey} {key : EntityKey}
    (reads : before.desk = .shown flushing row duplicates (some key) none)
    (led : Led { before with
      desk := .shown flushing row duplicates none (closedCount before.rows key) }) :
    Afforded { before with
      desk := .shown flushing row duplicates none (closedCount before.rows key) } := by
  have atDesk := afforded.atDesk
  rw [reads] at atDesk
  obtain ⟨_, looked, takes⟩ := atDesk
  have notClosed : closedCount before.rows key = none := by
    cases found : before.rows.find? (·.key = key) with
    | none => simp [closedCount, found]
    | some entry =>
        have isOpen := looked key rfl entry (List.mem_of_find?_eq_some found)
          (by simpa using List.find?_some found)
        simp [closedCount, found, isOpen]
  have read := afforded.read
  rw [reads] at read
  have unended : before.desk.ended = none := by
    rw [reads]
    rfl
  refine ⟨led, afforded.unsent, afforded.bound, afforded.memory, by simp, by simp, by simp, by simp,
    read, fun other holds _ => afforded.opened other holds (by simp [unended]), ?_,
    ⟨notClosed, by simp, takes⟩⟩
  intro other current
  refine afforded.alone other (current.imp_right fun isRead => ?_)
  rw [reads]
  exact isRead

end Afforded

/-- Every step keeps what the records carry afforded, when every answer is the truth. -/
theorem Afforded.step {before after : Account} (afforded : Afforded before)
    (step : Step Truthful before after) : Afforded after := by
  have led := afforded.led.step (step.mono fun _ truthful => truthful.whole)
  have bound := afforded.bound
  cases step with
  | trail settled => exact afforded.shrink led (.refl _) rfl rfl rfl rfl
  | advance count keep later stays => exact afforded.shrink led List.filter_sublist rfl rfl rfl rfl
  | settle => exact afforded.shrink led (.refl _) rfl rfl rfl rfl
  | die => exact afforded.shrink led (.refl _) rfl rfl rfl rfl
  | catchUp count => exact afforded.shrink led (.refl _) rfl rfl rfl rfl
  | @land write rest fresh rows sent mining unused lands =>
      rw [afforded.unsent] at sent
      cases sent
  | @drop write rest sent =>
      rw [afforded.unsent] at sent
      cases sent
  | @serve held live allowed =>
      refine afforded.serves led rfl rfl rfl rfl ?_
      rintro _ ⟨⟩
      exact ⟨held, live, rfl, le_rfl⟩
  | serveLate =>
      exact afforded.serves led rfl rfl rfl rfl fun live isLive => ⟨live, isLive, rfl, by omega⟩
  | adopt absent desk alive allowed =>
      refine afforded.rest led rfl rfl rfl desk ?_ (by simp)
      rintro _ ⟨⟩
      simpa using bound
  | @accept record absent desk empty unseen unsent fresh zero opened allowed =>
      refine ⟨led, afforded.unsent, bound, ?_, by simp [CounterWrite.countFor],
        by simp [CounterWrite.patched], by simp [CounterWrite.patched],
        by simp [CounterWrite.closes], by simp [Desk.row], by simp, ?_, ?_⟩
      · rintro _ ⟨⟩
        simpa using bound
      · rintro key (holds | isRead)
        · cases holds
        · cases isRead
      · rintro _ ⟨⟩
        rfl
  | @accepted record held fresh desk live unsent mining unused zero opened =>
      obtain ⟨noRows, _⟩ := afforded.led.accepting record desk
      have atDesk := afforded.atDesk
      rw [desk] at atDesk
      have counter : held.counter = none := atDesk held live
      have owes := afforded.memory held live
      have isOpen : ({ key := fresh, createdAt := before.head, record := record } : Entry).isOpen =
          true := decide_eq_true opened
      refine ⟨led, unsent, ?_, ?_, by simp, by simp, by simp, by simp, by simp [Desk.row], ?_, ?_,
        trivial⟩
      · simp [noRows, total, zero]
      · rintro _ ⟨⟩
        simp only [noRows, counter, others_none] at owes
        simp only [noRows, List.nil_append]
        simpa [others, total] using owes
      · intro key holds _ row member same
        obtain rfl := List.mem_singleton.mp (by simpa [noRows] using member)
        exact isOpen
      · rintro key (holds | isRead) shut
        · cases holds
          have gone := shut _ (List.mem_append_right _ List.mem_cons_self) rfl
          rw [isOpen] at gone
          cases gone
        · cases isRead
  | @acceptFailed record held lost desk live allowed =>
      obtain rfl : lost = false := allowed
      have atDesk := afforded.atDesk
      rw [desk] at atDesk
      have counter : held.counter = none := atDesk held live
      refine afforded.rest led rfl rfl rfl rfl ?_ (by simp)
      rintro _ ⟨⟩
      have owes := afforded.memory held live
      rw [counter] at owes
      exact owes
  | @pastLife held head openedBlock wei live desk allowed =>
      have owes := afforded.memory held live
      have last : ∀ write ∈ final head openedBlock wei held, ∀ key, write.patched = some key →
          held.counter = some key ∧ write.countFor key = some held.served := by
        intro write member key patched
        simp only [final] at member
        split at member
        · cases member
        · next counted =>
            split at member
            · obtain rfl := List.mem_singleton.mp member
              cases patched
            · obtain rfl := List.mem_singleton.mp member
              obtain rfl := Option.some.inj patched
              exact ⟨counted, by simp [CounterWrite.countFor]⟩
      refine afforded.asks led rfl rfl rfl rfl (by simp) (by simp [desk, Desk.ended]) (.inr rfl)
        ?_ ?_ (by simp) (by simp) (by simp)
      · intro write member key count carries
        obtain ⟨isCounter, isCount⟩ :=
          last write member key (CounterWrite.countFor_patched carries)
        rw [isCount] at carries
        cases carries
        rw [← isCounter]
        exact owes
      · intro first inFirst second inSecond key other isKey isOther
        have isFirst := (last first inFirst key isKey).1
        exact Option.some.inj (isFirst.symm.trans (last second inSecond other isOther).1)
  | quit allowed => exact afforded.rest led rfl rfl rfl rfl (by simp) (by simp)
  | @page flushing shown row duplicates desk settled inView oldest younger allowed =>
      exact afforded.pages led rfl rfl rfl rfl desk oldest allowed.2.2 rfl
  | @lookup flushing row duplicates key desk allowed => exact afforded.looks desk led
  | @match_ flushing row duplicates found desk =>
      exact afforded.takes led rfl rfl rfl desk rfl rfl
  | @leave row duplicates desk =>
      refine afforded.rest led rfl rfl rfl rfl afforded.memory fun key holds => ⟨.inl holds, ?_⟩
      exact afforded.opened key holds (by simp [desk, Desk.ended])
  | giveUp allowed =>
      refine afforded.rest led rfl rfl rfl rfl afforded.memory fun key holds => ⟨.inl holds, ?_⟩
      refine afforded.opened key holds fun ended => ?_
      have reading : before.desk.reading = true := allowed
      cases now : before.desk <;> simp_all [Desk.ended, Desk.reading]
  | @counts row duplicates opening flush head period desk zero opened =>
      refine afforded.counts led rfl rfl rfl rfl desk ?_ rfl
      intro write member
      split at member
      · exact (List.mem_map.mp member).imp fun key known => known.2.symm
      · cases member
  | @send write queue close fresh rows desk unsent mining unused lands =>
      exact afforded.sends led desk unused lands rfl rfl rfl rfl
  | @sendFailed write queue close lost desk allowed =>
      obtain rfl : lost = false := allowed
      exact afforded.fails led desk rfl rfl rfl rfl rfl
  | @successor close held opening desk landed live zero opened =>
      have atDesk := afforded.atDesk
      rw [desk] at atDesk
      obtain ⟨counter, lands, _⟩ := atDesk held live
      have whole := total_eq before.rows close.counter
      have closed := lands landed
      have owes := afforded.memory held live
      rw [counter] at owes
      refine ⟨led, afforded.unsent, bound, ?_, by simp, by simp [CounterWrite.patched],
        by simp [CounterWrite.patched], by simp [CounterWrite.closes], by simp [Desk.row], by simp,
        ?_, trivial⟩
      · rintro _ ⟨⟩
        simp only [others_none]
        omega
      · rintro key (holds | isRead)
        · cases holds
        · cases isRead
  | @finish close desk unlanded =>
      refine afforded.rest led rfl rfl rfl rfl afforded.memory fun key holds => ⟨.inl holds, ?_⟩
      refine afforded.opened key holds fun ended => ?_
      rw [desk] at ended
      rcases unlanded with nothing | unlanded
      · rw [nothing] at holds
        cases holds
      · cases close with
        | none => cases ended
        | some made => simp [Desk.ended, unlanded made rfl] at ended

end Account

end CommunityLb
