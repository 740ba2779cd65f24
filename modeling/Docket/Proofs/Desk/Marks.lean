import Docket.Proofs.Identifier.ReadBack
import Docket.Proofs.Roll.Batch

/-!
# The marks of a desk's counters

A desk keeps counters of three kinds in one ledger. Each kind has its own keys, and its own marks
under them.

* **`Series.Serves`**: with marks that fit, a series finds no fault with what it writes;
* `Series.serves_roll`, `Series.serves_invoice`, `Series.serves_daily`, **`Desk.serves`**: each
  series of a desk is so.
-/

namespace Docket

/-- Whether a mark may stand under a key. -/
structure Settings.Fits (s : Settings) (key : String) (mark : Mark) : Prop where
  digit : IsDayStamp key → ∃ d : UInt8, d ≤ 9 ∧ mark = .digit d
  lead : key = s.invoice.counterName →
    ∃ text, mark = .lead text ∧ text.toList ≠ [] ∧ '-' ∉ text.toList

namespace Series

/-- Whether an identifier can be read as one of a series. -/
def Accepts : Series → String → Prop
  | .roll _, id => ∃ r, RollNumber.parse id = .ok r
  | .invoice _, id => ∃ i, InvoiceId.parse id = .ok i
  | .daily _, id => Checked.verify id = true

/-- A series that seeds its counters with marks that fit, rotates to such marks, and can write what
it then allots. -/
structure Serves (s : Series) (settings : Settings) : Prop where
  seeds : ∀ now words, settings.Fits (s.key now) (s.seed now words)
  rotates : ∀ top, s.rotation = .overflow top → 1 ≤ top ∧ ∀ now mark,
    settings.Fits (s.key now) mark →
      ∃ d, mark = .digit d ∧ settings.Fits (s.key now) (.digit (nextDigit d))
  writes : ∀ now (a : Allocation) words, a.key = s.key now → settings.Fits a.key a.mark →
    (∀ top, s.rotation = .overflow top → a.sequence ≤ top) →
      ∃ id, s.format a words = .ok id ∧ s.Accepts id

variable {settings : Settings}

theorem isDayStamp_key_roll (s : RollSettings) (now : Time) :
    IsDayStamp ((Series.roll s).key now) :=
  Date.isDayStamp_dayKey _

/-! ## Roll numbers -/

theorem serves_roll (htop : 1 ≤ settings.roll.maxSequence) (hle : settings.roll.maxSequence ≤ 99)
    (name : ¬ IsDayStamp settings.invoice.counterName) :
    (Series.roll settings.roll).Serves settings where
  seeds now words := ⟨fun _ => ⟨0, by decide, rfl⟩, fun e => absurd
    (e ▸ isDayStamp_key_roll settings.roll now) name⟩
  rotates top h := by
    cases h
    refine ⟨htop, fun now mark fits => ?_⟩
    have stamp := isDayStamp_key_roll settings.roll now
    obtain ⟨d, hd, rfl⟩ := fits.digit stamp
    exact ⟨d, rfl, fun _ => ⟨_, RollCycle.nextDigit_le d, rfl⟩, fun e => absurd (e ▸ stamp) name⟩
  writes now a words key fits le := by
    have stamp : IsDayStamp a.key := key ▸ isDayStamp_key_roll settings.roll now
    have le : a.sequence ≤ 99 := UInt64.le_trans (le _ rfl) hle
    obtain ⟨d, hd, mark⟩ := fits.digit stamp
    refine ⟨RollNumber.text ⟨a.key, d, a.sequence⟩, ?_, _,
      RollNumber.parse_text stamp.ne_nil stamp.dash_notMem hd le⟩
    rw [Series.format, mark]
    exact RollNumber.format_ok stamp.check hd le

/-! ## Monthly invoice IDs -/

theorem lead_invoiceLead (date : Date) (words : List UInt64) :
    (invoiceLead date (Suffix.confusableFree words)).toList ≠ [] ∧
      '-' ∉ (invoiceLead date (Suffix.confusableFree words)).toList := by
  rw [invoiceLead, String.toList_append, Date.monthKey, String.toList_ofList]
  constructor
  · intro e
    have := congrArg List.length e
    simp at this
  · simp [Suffix.dash_notMem, Decimal.dash_notMem_padded]

theorem serves_invoice (pos : 1 ≤ settings.invoice.paddingWidth)
    (narrow : settings.invoice.paddingWidth ≤ Segment.maxPadding)
    (name : ¬ IsDayStamp settings.invoice.counterName) :
    (Series.invoice settings.invoice).Serves settings where
  seeds now words := ⟨fun h => absurd h name, fun _ => ⟨_, rfl, lead_invoiceLead _ _⟩⟩
  rotates top h := nomatch h
  writes now a words key fits _ := by
    obtain ⟨text, mark, ne, dash⟩ := fits.lead key
    obtain ⟨pos, narrow⟩ := Segment.widened_mem pos narrow a.sequence
    have wide := Segment.width_le_widened a.sequence settings.invoice.paddingWidth
    have suffix := Suffix.dash_notMem words
    let i : InvoiceId := ⟨text, a.sequence,
      Segment.widened a.sequence settings.invoice.paddingWidth, Suffix.confusableFree words⟩
    refine ⟨i.text, ?_, i, InvoiceId.parse_text ne dash suffix wide narrow⟩
    rw [Series.format, mark]
    exact InvoiceId.format_eq_ok_iff.mpr ⟨⟨pos, narrow⟩, ⟨ne, dash⟩, suffix, wide, rfl⟩

/-! ## Daily invoice IDs -/

theorem dailyDate?_key (s : DailySettings) (now : Time) :
    dailyDate? s ((Series.daily s).key now) = some now.utcDate.dayKey := by
  simp only [dailyDate?, key, String.toList_append]
  rw [if_pos (List.isPrefixOf_iff_prefix.mpr (List.prefix_append _ _)), List.drop_left,
    String.ofList_toList]

theorem colon_mem_key_daily (s : DailySettings) (now : Time) :
    ':' ∈ ((Series.daily s).key now).toList := by
  simp [key, dailyStart]

theorem serves_daily (pos : 1 ≤ settings.daily.paddingWidth)
    (narrow : settings.daily.paddingWidth ≤ Segment.maxPadding)
    (name : ':' ∉ settings.invoice.counterName.toList) :
    (Series.daily settings.daily).Serves settings where
  seeds now words := by
    have colon := colon_mem_key_daily settings.daily now
    refine ⟨fun h => ?_, fun e => absurd (e ▸ colon) name⟩
    exact absurd (h.2 _ colon) (by decide)
  rotates top h := nomatch h
  writes now a words key _ _ := by
    obtain ⟨pos, narrow⟩ := Segment.widened_mem pos narrow a.sequence
    have wide := Segment.width_le_widened a.sequence settings.daily.paddingWidth
    have stamp : IsDayStamp now.utcDate.dayKey := Date.isDayStamp_dayKey _
    rw [Series.format, key, dailyDate?_key]
    exact Checked.format_verifies stamp pos narrow wide

end Series

/-- **Each series of a desk** can write what it allots. -/
theorem Desk.serves (d : Desk) (name : ¬ IsDayStamp d.settings.invoice.counterName)
    (kind : CounterKind) : (d.settings.series kind).Serves d.settings := by
  have holds rule (h : rule ∈ d.settings.rules) := Settings.holds_of_validate d.valid h
  simp only [Settings.rules, List.forall_mem_cons] at holds
  obtain ⟨-, -, invoicePadding, dailyPadding, -, counterName, -⟩ := holds
  simp only [Settings.paddingOk, Settings.nameOk, Bool.and_eq_true, decide_eq_true_eq] at *
  cases kind with
  | rollNumber =>
    obtain ⟨htop, hle⟩ := d.maxSequence_bounds
    exact Series.serves_roll htop hle name
  | invoice => exact Series.serves_invoice invoicePadding.1 invoicePadding.2 name
  | dailyInvoice =>
    refine Series.serves_daily dailyPadding.1 dailyPadding.2 ?_
    simpa [String.contains_char_eq] using counterName.2

end Docket
