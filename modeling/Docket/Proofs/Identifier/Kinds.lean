import Docket.Desk
import Docket.Proofs.Issue.Outcomes
import Docket.Proofs.Identifier.ReadBack
import Mathlib.Data.List.Basic

/-!
# Identifiers of different kinds

Roll numbers have dashes and start with a digit, monthly invoice IDs have dashes and start with
their tag, and daily invoice IDs have no dash.

* `Series.writes_of_format`, **`Series.Written.writes`**: what is written for a kind looks like it.
-/

namespace Docket

variable {id : String} {now : Time} {a : Allocation}

/-! ## Looks -/

/-- What the identifiers of a kind look like. -/
def CounterKind.Writes : CounterKind → String → Prop
  | .rollNumber, id => '-' ∈ id.toList ∧ ∃ c, id.toList.head? = some c ∧ c.isDigit = true
  | .invoice, id => '-' ∈ id.toList ∧ id.toList.head? = some 'I'
  | .dailyInvoice, id => '-' ∉ id.toList

/-- **No identifier looks like two kinds.** -/
theorem CounterKind.Writes.kind_eq {k k' : CounterKind} (h : k.Writes id) (h' : k'.Writes id) :
    k = k' := by
  have apart : ¬ (CounterKind.rollNumber.Writes id ∧ CounterKind.invoice.Writes id) := by
    rintro ⟨⟨-, c, head, digit⟩, -, head'⟩
    obtain rfl := Option.some.inj (head.symm.trans head')
    exact absurd digit (by decide)
  cases k <;> cases k'
  case rollNumber.rollNumber | invoice.invoice | dailyInvoice.dailyInvoice => rfl
  case rollNumber.invoice => exact absurd ⟨h, h'⟩ apart
  case invoice.rollNumber => exact absurd ⟨h', h⟩ apart
  case rollNumber.dailyInvoice | invoice.dailyInvoice => exact absurd h.1 h'
  case dailyInvoice.rollNumber | dailyInvoice.invoice => exact absurd h'.1 h

/-! ## What is written -/

theorem RollNumber.writes_text (date : Date) (digit : UInt8) (sequence : UInt64) :
    CounterKind.rollNumber.Writes (RollNumber.text ⟨date.dayKey, digit, sequence⟩) := by
  have ne : Decimal.padded 2 date.shortYear ≠ [] := by
    intro e
    have := congrArg List.length e
    rw [Decimal.length_padded] at this
    simp at this
  obtain ⟨c, cs, year⟩ := List.exists_cons_of_ne_nil ne
  have digit : c.isDigit = true :=
    Decimal.isDigit_of_mem_padded (year ▸ List.mem_cons_self : c ∈ Decimal.padded 2 date.shortYear)
  constructor
  · simp [RollNumber.text]
  · exact ⟨c, by simp [RollNumber.text, Date.dayKey, year], digit⟩

theorem InvoiceId.writes_text (i : InvoiceId) : CounterKind.invoice.Writes i.text := by
  constructor <;> simp [text, tag, String.append_assoc]

theorem Checked.digit_ne_dash (n : Nat) : digit n ≠ '-' := by
  have large (m : Nat) (h : 46 ≤ m) : Char.ofNat m ≠ '-' := by
    intro e
    have number := congrArg Char.toNat e
    rw [Char.toNat_ofNat, show '-'.toNat = 45 from rfl] at number
    split at number <;> omega
  unfold digit
  split
  · exact large _ (Nat.le_add_right_of_le (by decide))
  · exact large _ (Nat.le_add_right_of_le (by decide))

theorem Checked.writes_of_format {key : String} {sequence : UInt64} {width : Nat}
    (h : format key sequence width = .ok id) : CounterKind.dailyInvoice.Writes id := by
  obtain ⟨⟨-, dash⟩, -, -, total, -, rfl⟩ := format_eq_ok_iff.mp h
  simp [CounterKind.Writes, Segment.padded, dash, Decimal.dash_notMem_padded,
    (digit_ne_dash total).symm]

namespace Series

variable {settings : Settings} {k : CounterKind}

theorem writes_of_format {words : List UInt64} (key : a.key = (settings.series k).key now)
    (h : (settings.series k).format a words = .ok id) : k.Writes id := by
  cases k with
  | rollNumber =>
    simp only [Settings.series, format] at h
    split at h
    · obtain ⟨-, -, -, rfl⟩ := RollNumber.format_eq_ok_iff.mp h
      rw [key]
      exact RollNumber.writes_text now.date _ _
    · cases h
  | invoice =>
    simp only [Settings.series, format] at h
    split at h
    · obtain ⟨-, -, -, -, rfl⟩ := InvoiceId.format_eq_ok_iff.mp h
      exact InvoiceId.writes_text _
    · cases h
  | dailyInvoice =>
    simp only [Settings.series, format] at h
    split at h
    · exact Checked.writes_of_format h
    · cases h

/-- **What a series writes** under its key looks like its kind. -/
theorem Written.writes (h : (settings.series k).Written id) : k.Writes id := by
  obtain ⟨now, a, words, key, format⟩ := h
  exact writes_of_format key format

end Series

end Docket
