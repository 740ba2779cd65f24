import Docket.Proofs.Calendar.Months
import Docket.Proofs.Callers.Diary
import Docket.Proofs.Callers.Jobs
import Docket.Proofs.Callers.Returned

/-!
# Invoice numbers start over each month

* `Entry.InMonth`, `Invoicing.inMonth`: the entries of a diary that fall in a calendar month;
* `Invoicing.Current`, `Invoicing.Book`: the record tells of the entries of its own month, and each
  month has its sheet; `Book.opened`, **`Book.reset`** and **`Book.take`** say how the book goes on;
* `Floor.Traced.pages`, **`Floor.Traced.restarts_monthly`**: in any run, the allocations of each month
  are numbered from 1 under one prefix, and the next one that is returned goes on with that.
-/

namespace Docket

/-- Whether an allocation was made in a calendar month of the clock with an offset. -/
def Entry.InMonth (offset year : Int) (month : Nat) (e : Entry) : Prop :=
  (e.time.atOffset offset).date.year = year ∧ (e.time.atOffset offset).date.month = month

instance (offset year : Int) (month : Nat) (e : Entry) :
    Decidable (e.InMonth offset year month) := by
  unfold Entry.InMonth; infer_instance

namespace Invoicing

def inMonth (offset year : Int) (month : Nat) (diary : List Entry) : List Entry :=
  diary.filter fun e => decide (e.InMonth offset year month)

/-- Allocations that all have one mark and are numbered from 1. -/
structure Sheet (mark : Mark) (entries : List Entry) : Prop where
  marks : ∀ e ∈ entries, e.allocation.mark = mark
  numbers : entries.map (·.allocation.sequence.toNat) = List.range' 1 entries.length

/-- A record that tells of the latest month of a diary. -/
structure Current (offset : Int) (diary : List Entry) (c : Counter) : Prop where
  clock : c.written.offset = offset
  lead : ∃ letters, c.mark = .lead (Series.invoiceLead c.written.date letters)
  sheet : Sheet c.mark (inMonth offset c.written.date.year c.written.date.month diary)
  count : c.sequence.toNat =
    (inMonth offset c.written.date.year c.written.date.month diary).length
  latest : ∀ e ∈ diary, (e.time.atOffset offset).date.monthIndex ≤ c.written.date.monthIndex

/-- A diary with a sheet for each month, whose prefix ends in that month. -/
structure Pages (offset : Int) (record : Option Counter) (diary : List Entry) : Prop where
  sheets : ∀ year month, ∃ letters, Sheet (.lead (letters ++ (Date.mk year month 1).monthKey))
    (inMonth offset year month diary)
  blank : record = none → diary = []

/-- Such a diary, and a record that tells of its latest month. -/
structure Book (offset : Int) (record : Option Counter) (diary : List Entry) : Prop
    extends Pages offset record diary where
  current : ∀ c, record = some c → Current offset diary c

abbrev lead (now : Time) (letters : String) : Mark := .lead (Series.invoiceLead now.date letters)

abbrev started (key letters : String) (now : Time) : Counter := ⟨key, 0, lead now letters, now⟩

variable {offset year : Int} {month : Nat} {diary entries : List Entry} {key letters : String}
  {mark : Mark} {now : Time} {c : Counter} {a : Allocation} {e : Entry}

/-! ## Sheets -/

theorem Sheet.snoc (h : Sheet mark entries) (hm : e.allocation.mark = mark)
    (hs : e.allocation.sequence.toNat = entries.length + 1) : Sheet mark (entries ++ [e]) where
  marks e' he := by
    rcases List.mem_append.mp he with he | he
    · exact h.marks e' he
    · rwa [List.mem_singleton.mp he]
  numbers := by
    rw [List.map_append, h.numbers, List.length_append, List.length_singleton,
      List.range'_1_concat, List.map_singleton, hs, Nat.add_comm]

theorem Sheet.of_append {rest : List Entry} (h : Sheet mark (entries ++ rest)) :
    Sheet mark entries where
  marks e he := h.marks e (List.mem_append_left rest he)
  numbers := by
    have := congrArg (List.take entries.length) h.numbers
    rwa [List.map_append, List.length_append, ← List.range'_append_1,
      List.take_left' (List.length_map _), List.take_left' List.length_range'] at this

theorem inMonth_append (diary entries : List Entry) :
    inMonth offset year month (diary ++ entries) =
      inMonth offset year month diary ++ inMonth offset year month entries :=
  List.filter_append ..

theorem inMonth_snoc (diary : List Entry) :
    inMonth now.offset now.date.year now.date.month (diary ++ [⟨now, a⟩]) =
      inMonth now.offset now.date.year now.date.month diary ++ [⟨now, a⟩] := by
  rw [inMonth_append]
  exact congrArg _ (List.filter_cons_of_pos (decide_eq_true ⟨rfl, rfl⟩))

theorem inMonth_snoc_of_ne (diary : List Entry)
    (ne : ¬ (now.date.year = year ∧ now.date.month = month)) :
    inMonth now.offset year month (diary ++ [⟨now, a⟩]) =
      inMonth now.offset year month diary := by
  rw [inMonth_append, show inMonth now.offset year month [⟨now, a⟩] = [] from
    List.filter_cons_of_neg fun e => ne (of_decide_eq_true e), List.append_nil]

/-! ## The book goes on -/

theorem Pages.start {record : Option Counter} (h : Pages offset record diary)
    (earlier : ∀ e ∈ diary, (e.time.atOffset offset).date.monthIndex < now.date.monthIndex)
    (hoff : now.offset = offset) :
    Book offset (some (started key letters now)) diary := by
  have none : inMonth offset now.date.year now.date.month diary = [] := by
    refine List.filter_eq_nil_iff.mpr fun e he same => ?_
    have := Date.monthIndex_eq_iff.mpr (of_decide_eq_true same)
    exact absurd this (Int.ne_of_lt (earlier e he))
  refine ⟨⟨h.sheets, nofun⟩, fun c hc => ?_⟩
  obtain rfl := Option.some.inj hc
  exact {
    clock := hoff
    lead := ⟨letters, rfl⟩
    sheet := by rw [none]; exact ⟨nofun, rfl⟩
    count := by rw [none]; rfl
    latest := fun e he => Int.le_of_lt (earlier e he) }

theorem Book.opened (h : Book offset none diary) (hoff : now.offset = offset) :
    Book offset (some (started key letters now)) diary :=
  h.start (by rw [h.blank rfl]; exact nofun) hoff

/-- **A reset** in a new month opens its sheet. -/
theorem Book.reset (h : Book offset (some c) diary) (stale : c.IsStale now)
    (later : c.written.instant ≤ now.instant) (hoff : now.offset = offset) :
    Book offset (some (started key letters now)) diary := by
  have current := h.current c rfl
  have same := current.clock.trans hoff.symm
  have lt : c.written.date.monthIndex < now.date.monthIndex :=
    Int.lt_iff_le_and_ne.mpr ⟨Time.monthIndex_mono same later,
      fun e => stale ((Time.sameMonth_iff same).mpr e)⟩
  exact h.start (fun e he => Int.lt_of_le_of_lt (current.latest e he) lt) hoff

theorem Current.take (h : Current now.offset diary c) (same : c.written.SameMonth now)
    (mark : a.mark = c.mark) (sequence : a.sequence.toNat = c.sequence.toNat + 1) :
    Current now.offset (diary ++ [⟨now, a⟩])
      { c with sequence := a.sequence, written := now } := by
  obtain ⟨clock, ⟨letters, lead⟩, sheet, count, latest⟩ := h
  have index := (Time.sameMonth_iff clock).mp same
  obtain ⟨hy, hm⟩ := Date.monthIndex_eq_iff.mp index
  change c.written.date.year = now.date.year at hy
  change c.written.date.month = now.date.month at hm
  rw [hy, hm] at sheet count
  refine ⟨rfl, ⟨letters, ?_⟩, ?_, ?_, fun e he => ?_⟩
  · rw [lead, Series.invoiceLead, Series.invoiceLead, Date.monthKey, Date.shortYear, hy, hm]
    rfl
  · rw [inMonth_snoc]
    exact sheet.snoc mark (by rw [sequence, count])
  · rw [inMonth_snoc, List.length_append, ← count, List.length_singleton]
    exact sequence
  · rcases List.mem_append.mp he with he | he
    · exact index ▸ latest e he
    · obtain rfl := List.mem_singleton.mp he
      exact Int.le_refl _

/-- **An addition** in the record's month writes the next line of its sheet. -/
theorem Book.take (h : Book offset (some c) diary) (same : c.written.SameMonth now)
    (hoff : now.offset = offset) (mark : a.mark = c.mark)
    (sequence : a.sequence.toNat = c.sequence.toNat + 1) :
    Book offset (some { c with sequence := a.sequence, written := now })
      (diary ++ [⟨now, a⟩]) := by
  subst hoff
  have next := (h.current c rfl).take same mark sequence
  refine ⟨⟨fun year month => ?_, nofun⟩, fun c' hc => Option.some.inj hc ▸ next⟩
  -- Only the sheet of the month in which the allocation is made gets another line.
  by_cases here : now.date.year = year ∧ now.date.month = month
  · obtain ⟨rfl, rfl⟩ := here
    obtain ⟨letters, lead⟩ := next.lead
    exact ⟨letters, lead ▸ next.sheet⟩
  · rw [inMonth_snoc_of_ne diary here]
    exact h.sheets year month

/-! ## Allocations -/

/-- Whether the diary of a key is complete, and each month has its sheet. -/
def Filed (offset : Int) (σ : KeyState) : Prop :=
  σ.diary.map (·.allocation) = σ.allotted ∧ Pages offset σ.record σ.diary

/-- Whether the diary of a key is a book of its record, if the clock did not go back. -/
def Kept (offset : Int) (σ : KeyState) : Prop :=
  σ.IsOnward offset → σ.diary.map (·.allocation) = σ.allotted ∧ Book offset σ.record σ.diary

variable {σ : KeyState} {n : UInt64}

theorem Kept.reset (h : Kept offset σ) (record : σ.record = some c) (stale : c.IsStale now) :
    Kept offset (σ.after (.set key 0 (lead now letters) now)) := by
  intro onward
  obtain ⟨before, step⟩ := KeyState.isOnward_turned_iff.mp onward
  obtain ⟨hoff, later⟩ := step _ rfl
  obtain ⟨all, book⟩ := h before
  rw [record] at book
  rw [KeyState.diary_after]
  exact ⟨all, book.reset stale (later c record) hoff⟩

theorem Kept.take (h : Kept offset σ) (fresh : ∀ c, σ.record = some c → c.written.SameMonth now)
    (hn : Touch.sum? key 1 (lead now letters) now σ.record = some n) (sequence : a.sequence = n)
    (mark : a.mark = (σ.record.getD (started key letters now)).mark) :
    Kept offset ((σ.after (.increment key 1 (lead now letters) now)).note a) := by
  subst sequence
  intro onward
  -- The clock is followed back, first before the note and then before the addition.
  obtain ⟨added, -⟩ := KeyState.isOnward_turned_iff.mp onward
  obtain ⟨before, step⟩ := KeyState.isOnward_turned_iff.mp added
  obtain ⟨hoff, -⟩ := step _ (Touch.leaves_increment hn)
  obtain ⟨all, book⟩ := h before
  obtain ⟨book, same⟩ : Book offset (some (σ.record.getD (started key letters now))) σ.diary ∧
      (σ.record.getD (started key letters now)).written.SameMonth now := by
    cases record : σ.record with
    | none => rw [record] at book; exact ⟨book.opened hoff, rfl, rfl⟩
    | some c => rw [record] at book; exact ⟨book, fresh c record⟩
  rw [KeyState.diary_note_increment hn, List.map_append, all]
  refine ⟨rfl, ?_⟩
  change Book offset ((Touch.increment _ _ _ _).leaves σ.record) _
  rw [Touch.leaves_increment hn]
  exact book.take same hoff mark (Ledger.toNat_of_addWords? hn)

variable {α : Type} {s : InvoiceSettings}

/-- After the record was read, and set back if it was stale, it is of the same month. -/
theorem guarded_freshen {g : Bool → Work α}
    (hg : ∀ rotated σ, Kept offset σ → (∀ c, σ.record = some c → c.written.SameMonth now) →
      (g rotated).Guarded s.counterName (Kept offset) (some σ)) :
    (((Series.invoice s).freshen s.counterName (lead now letters) now).bind g).Guarded
      s.counterName (Kept offset) none := by
  refine .of_touch rfl (fun σ h => h) fun σ r h ha => ?_
  cases ha
  rw [KeyState.after_of_leaves rfl]
  cases record : σ.record with
  | none => exact hg false σ h fun c hc => absurd (record.symm.trans hc) nofun
  | some c =>
    show ((ite _ _ _ : Work Bool).bind g).Guarded _ _ _
    split
    · next stale =>
      refine .of_touch rfl (fun σ' e => Eq.symm e ▸ h) fun σ' c' e ha => ?_
      subst e
      refine hg true _ (h.reset record stale) fun c hc => ?_
      cases hc
      exact ⟨rfl, rfl⟩
    · next fresh =>
      refine hg false σ h fun c' hc => ?_
      obtain rfl := Option.some.inj (record.symm.trans hc)
      exact Decidable.not_not.mp fresh

/-- **An allocation keeps the book**, wherever it may be left. -/
theorem guarded_allocate {f : Allocation → Work α} {s : Series} (hk : s.key now = key)
    (hs : s.rotation = .calendar) (hf : ∀ a, (f a).Avoids key) :
    ((s.allocate now).bind f).Guarded key (Kept offset) none := by
  subst hk
  cases s with
  | invoice s =>
    rw [Series.allocate_eq]
    intro words
    dsimp only
    rw [Work.bind_assoc]
    refine guarded_freshen fun rotated σ h fresh => ?_
    refine .of_touch rfl (fun σ' e => Eq.symm e ▸ h) fun σ' c e ha => ?_
    subst e
    simp only [Series.addition, Touch.answer] at ha
    split at ha
    · next n hn =>
      cases ha
      refine .of_note rfl ((hf _).guarded fun σ'' e => ?_)
      subst e
      exact h.take fresh hn rfl rfl
    · cases ha
  | _ => cases hs

theorem leads_addition {s : InvoiceSettings} {words : List UInt64} {rotated : Bool}
    (onward : σ.IsOnward offset) (hoff : now.offset = offset)
    (later : ∀ c ∈ σ.record, c.written.instant ≤ now.instant) :
    (Work.touch ((Series.invoice s).addition now words) ((Series.invoice s).settle now rotated)).Leads
      s.counterName (fun a σ' => σ'.IsOnward offset ∧ σ'.diary = σ.diary ++ [⟨now, a⟩]) σ := by
  refine .of_touch rfl fun c given => ?_
  simp only [Series.addition, Touch.answer] at given
  split at given
  · next n hn =>
    cases given
    have added : (σ.after ((Series.invoice s).addition now words)).IsOnward offset := by
      refine KeyState.isOnward_turned_iff.mpr ⟨onward, fun c' hc => ?_⟩
      rw [Touch.leaves_increment hn] at hc
      obtain rfl := Option.some.inj hc
      exact ⟨hoff, later⟩
    exact .of_note rfl ⟨added.note, KeyState.diary_note_increment hn⟩
  · cases given

/-- **An allocation that nobody comes between** enters itself in the diary, with its own time. -/
theorem leads_allocate {s : Series} (hk : s.key now = key) (hs : s.rotation = .calendar)
    (onward : σ.IsOnward offset) (hoff : now.offset = offset)
    (later : ∀ c ∈ σ.record, c.written.instant ≤ now.instant) :
    (s.allocate now).Leads key
      (fun a σ' => σ'.IsOnward offset ∧ σ'.diary = σ.diary ++ [⟨now, a⟩]) σ := by
  subst hk
  cases s with
  | invoice s =>
    rw [Series.allocate_eq]
    refine fun words => .of_touch rfl fun record given => ?_
    cases given
    rw [KeyState.after_of_leaves rfl]
    cases record : σ.record with
    | none => exact leads_addition onward hoff later
    | some c =>
      show ((ite _ _ _ : Work Bool).bind _).Leads _ _ _
      split
      · refine .of_touch rfl fun _ _ => ?_
        -- The counter is set back first, which is no entry.
        have reset : (σ.after (.set s.counterName 0 ((Series.invoice s).seed now words) now)).IsOnward
            offset := by
          refine KeyState.isOnward_turned_iff.mpr ⟨onward, fun c' hc => ?_⟩
          obtain rfl := Option.some.inj hc
          exact ⟨hoff, later⟩
        rw [← KeyState.diary_after]
        exact leads_addition reset hoff
          fun c' hc => by obtain rfl := Option.some.inj hc; exact Int.le_refl _
      · exact leads_addition onward hoff later
  | _ => cases hs

/-! ## Any run -/

theorem kept_blank : Kept offset ⟨none, [], []⟩ := fun _ =>
  ⟨rfl, ⟨fun _ _ => ⟨"", nofun, rfl⟩, fun _ => rfl⟩, nofun⟩

/-- Before an allocation was noted, each month had its sheet too. -/
theorem filed_of_note (h : Filed offset (σ.note a)) : Filed offset σ := by
  obtain ⟨all, pages⟩ := h
  change _ = σ.allotted ++ [a] at all
  change Pages offset σ.record _ at pages
  cases record : σ.record with
  | none =>
    rw [pages.blank record] at all
    exact absurd all.symm (List.append_ne_nil_of_right_ne_nil _ (List.cons_ne_nil _ _))
  | some c =>
    rw [KeyState.diary_note record] at all pages
    rw [List.map_append] at all
    refine ⟨(List.append_inj' all rfl).1, fun year month => ?_, fun none => ?_⟩
    · obtain ⟨letters, sheet⟩ := pages.sheets year month
      rw [inMonth_append] at sheet
      exact ⟨letters, sheet.of_append⟩
    · rw [record] at none; cases none

theorem filed_of_ahead {σ' : KeyState} (ahead : σ.Ahead σ') (onward : σ.IsOnward offset)
    (h : Kept offset σ') : Filed offset σ := by
  -- The invariant holds once all is noted; the notes still to come are taken back one by one.
  induction ahead using Relation.ReflTransGen.head_induction_on with
  | refl => exact ⟨(h onward).1, (h onward).2.toPages⟩
  | head s _ ih =>
    obtain ⟨a, rfl⟩ := s
    exact filed_of_note (ih onward.note)

end Invoicing

theorem Floor.Traced.pages {f f' : Floor} {key : String} {offset : Int} {σ : KeyState}
    (opening : f.Opening) (none : f.world.ledger.counters[key]? = none)
    (traced : Floor.Traced (Job.Allots key .calendar) key f σ f') (onward : σ.IsOnward offset) :
    Invoicing.Filed offset σ := by
  have kept : Invoicing.Kept offset (f.world.keyState key) := by
    have blank : f.world.keyState key = ⟨.none, [], []⟩ := by
      simp [World.keyState, World.allotted, none, opening.notes]
    rw [blank]
    exact Invoicing.kept_blank
  obtain ⟨σ', kept, ahead⟩ := traced.ahead
    (fun job h => (h.fits fun hk hs hf => Invoicing.guarded_allocate hk hs hf).safe) opening kept
  exact Invoicing.filed_of_ahead ahead onward kept

/-- **Invoice numbers start over each month.** Whoever allocates under a key in whatever order, and
whatever fails or is given up, if there was no record at first and the clock never goes back: the
allocations completed in a calendar month have one prefix, which ends in the month, and the
sequences 1, 2, 3 and so on. What an allocation returns next is the one completed next, and each
month's allocations still are so with it. -/
theorem Floor.Traced.restarts_monthly {f f' : Floor} {key : String} {offset : Int} {σ : KeyState}
    (opening : f.Opening) (none : f.world.ledger.counters[key]? = none)
    (traced : Floor.Traced (Job.Allots key .calendar) key f σ f') (onward : σ.IsOnward offset) :
    σ.diary.map (·.allocation) = f'.world.allotted key ∧
    (∀ year month, ∃ letters,
      Invoicing.Sheet (.lead (letters ++ (Date.mk year month 1).monthKey))
        (Invoicing.inMonth offset year month σ.diary)) ∧
    ∀ i s now a w, f'.Returns i s now a w → s.key now = key → s.rotation = .calendar →
      now.offset = offset → (∀ c ∈ σ.record, c.written.instant ≤ now.instant) →
      w.allotted key = f'.world.allotted key ++ [a] ∧
      ∀ year month, ∃ letters,
        Invoicing.Sheet (.lead (letters ++ (Date.mk year month 1).monthKey))
          (Invoicing.inMonth offset year month (σ.diary ++ [⟨now, a⟩])) := by
  obtain ⟨all, pages⟩ := traced.pages opening none onward
  refine ⟨all.trans traced.shows.2.symm, pages.sheets, ?_⟩
  intro i s now a w returns hk hs hoff later
  obtain ⟨allotted, σ', g, traced', -, leads⟩ := traced.returns returns hk fun _ _ _ _ => hs
  obtain ⟨onward', diary⟩ := leads _ (Invoicing.leads_allocate hk hs onward hoff later)
  refine ⟨allotted, ?_⟩
  rw [← diary]
  exact (traced'.pages opening none onward').2.sheets

namespace Floor

/-- An empty ledger, and a script that fails the first reset and the third addition. -/
def newMonth : Floor where
  world :=
    { ledger := {}
      clock := fun _ => ⟨0, 0, 0⟩
      faults := fun
        | .set => [.fail (.unavailable "")]
        | .increment => [.pass, .pass, .fail (.unavailable "")]
        | _ => [] }
  callers _ := .planned (.done ())
  hand _ := none

/-- Two allocations at the end of March 2025 and four in April, in the first transaction. -/
def newMonthJobs : List Job :=
  .start :: [1743465598, 1743465599, 1743465600, 1743465601, 1743465602, 1743465603].map
    fun instant => .allocate (.invoice {}) ⟨instant, 0, 0⟩ ⟨0⟩ ⟨0, 0⟩

/-- What is under the key, and the floor, after these jobs. -/
def newMonthEnd : KeyState × Floor :=
  newMonthJobs.foldl (seenDoing "invoice" 0 9) (newMonth.world.keyState "invoice", newMonth)

theorem traced_newMonthEnd :
    Traced (Job.Allots "invoice" .calendar) "invoice" newMonth newMonthEnd.1 newMonthEnd.2 := by
  refine List.foldlRecOn (motive := fun p : KeyState × Floor => Traced _ _ newMonth p.1 p.2)
    newMonthJobs _ Traced.start fun p traced job hj => ?_
  refine Traced.seenDoing traced ?_ 0 9
  rcases List.mem_cons.mp hj with rfl | hj
  · trivial
  · obtain ⟨instant, -, rfl⟩ := List.mem_map.mp hj
    exact fun _ _ => rfl

theorem returns_newMonthEnd : ∃ w, newMonthEnd.2.Returns 0 (.invoice {}) ⟨1743465604, 0, 0⟩
    ⟨"invoice", 3, .lead "222504", false⟩ w :=
  ⟨_, by decide +kernel, ⟨0, 0⟩, by decide +kernel, rfl⟩

theorem restarts_monthly_newMonthEnd :
    newMonthEnd.1.diary.map (fun e => (e.time.instant, e.allocation.sequence)) =
      [(1743465598, 1), (1743465599, 2), (1743465602, 1), (1743465603, 2)] ∧
    (∀ year month, ∃ letters,
      Invoicing.Sheet (.lead (letters ++ (Date.mk year month 1).monthKey))
        (Invoicing.inMonth 0 year month newMonthEnd.1.diary)) ∧
    ∀ year month, ∃ letters,
      Invoicing.Sheet (.lead (letters ++ (Date.mk year month 1).monthKey))
        (Invoicing.inMonth 0 year month (newMonthEnd.1.diary ++
          [⟨⟨1743465604, 0, 0⟩, ⟨"invoice", 3, .lead "222504", false⟩⟩])) := by
  have opening : newMonth.Opening := by
    refine ⟨fun _ => rfl, rfl, fun h => ?_, fun h => ?_⟩ <;> cases h
  have onward : newMonthEnd.1.IsOnward 0 := by decide +kernel
  obtain ⟨-, sheets, next⟩ := Traced.restarts_monthly opening rfl traced_newMonthEnd onward
  obtain ⟨w, returns⟩ := returns_newMonthEnd
  refine ⟨by decide +kernel, sheets, ?_⟩
  exact (next _ _ _ _ _ returns rfl rfl rfl (by decide +kernel)).2

end Floor

end Docket
