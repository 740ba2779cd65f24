import Docket.Proofs.Identifier.Kinds

/-!
# What an identifier comes from

An identifier tells what it was written from, whatever settings it was written under and however
wide its sequence was padded.

* **`Series.origin_eq_of_format`**: equal identifiers come from the same series and the same
  allocation.
-/

namespace Docket

/-- What an identifier is written from, padding aside. -/
inductive Origin where
  | roll (period : String) (digit : UInt8) (sequence : UInt64)
  | invoice (lead : String) (sequence : UInt64) (suffix : String)
  | daily (date : String) (sequence : UInt64)
deriving DecidableEq, Repr

/-- What a series writes an allocation from, if the allocation is one of its own. -/
def Series.origin? (s : Series) (a : Allocation) (words : List UInt64) : Option Origin :=
  match s with
  | .roll _ => a.mark.digit?.map fun d => .roll a.key d a.sequence
  | .invoice _ => a.mark.lead?.map fun lead =>
    .invoice lead a.sequence (Suffix.confusableFree words)
  | .daily s => (dailyDate? s a.key).map fun date => .daily date a.sequence

namespace Origin

def kind : Origin → CounterKind
  | .roll .. => .rollNumber
  | .invoice .. => .invoice
  | .daily .. => .dailyInvoice

/-- Whether the stamp in an origin, if there is one, is that of a day. -/
def Dated : Origin → Prop
  | .roll stamp .. | .daily stamp _ => ∃ date : Date, date.Valid ∧ stamp = date.dayKey
  | .invoice .. => True

/-- Whether an identifier is written from an origin, padded to whatever width. -/
def Spells : Origin → String → Prop
  | .roll period digit sequence, id => RollNumber.format ⟨period, digit, sequence⟩ = .ok id
  | .invoice lead sequence suffix, id =>
    ∃ width, InvoiceId.format ⟨lead, sequence, width, suffix⟩ = .ok id
  | .daily date sequence, id => ∃ width, Checked.format date sequence width = .ok id

end Origin

/-! ## One origin only -/

/-- A daily invoice ID has six digits of a date, then those of the sequence, then one character. -/
theorem Checked.format_inj {key key' id : String} {n n' : UInt64} {width width' : Nat}
    (stamp : IsDayStamp key) (stamp' : IsDayStamp key') (h : format key n width = .ok id)
    (h' : format key' n' width' = .ok id) : key = key' ∧ n = n' := by
  obtain ⟨-, -, -, total, -, rfl⟩ := format_eq_ok_iff.mp h
  obtain ⟨-, -, -, total', -, same⟩ := format_eq_ok_iff.mp h'
  have same := congrArg String.toList same
  simp only [Segment.padded, String.toList_push, String.toList_append, String.toList_ofList] at same
  have body : key'.toList ++ Decimal.padded width' n'.toNat =
      key.toList ++ Decimal.padded width n.toNat := (List.append_inj' same rfl).1
  obtain ⟨date, digits⟩ := List.append_inj body (stamp'.1.trans stamp.1.symm)
  exact ⟨String.toList_inj.mp date.symm, UInt64.toNat_inj.mp (Decimal.padded_inj digits).symm⟩

namespace Origin

variable {o o' : Origin} {id : String}

theorem Spells.writes (h : o.Spells id) (dated : o.Dated) : o.kind.Writes id := by
  cases o with
  | roll period digit sequence =>
    obtain ⟨date, -, rfl⟩ := dated
    obtain ⟨-, -, -, rfl⟩ := RollNumber.format_eq_ok_iff.mp h
    exact RollNumber.writes_text date digit sequence
  | invoice lead sequence suffix =>
    obtain ⟨width, h⟩ := h
    obtain ⟨-, -, -, -, rfl⟩ := InvoiceId.format_eq_ok_iff.mp h
    exact InvoiceId.writes_text _
  | daily date sequence =>
    obtain ⟨width, h⟩ := h
    exact Checked.writes_of_format h

/-- **An identifier is written from one origin only.** -/
theorem Spells.eq (h : o.Spells id) (h' : o'.Spells id) (dated : o.Dated) (dated' : o'.Dated) :
    o = o' := by
  have kind : o.kind = o'.kind := (h.writes dated).kind_eq (h'.writes dated')
  -- Of one kind, roll numbers and monthly invoice IDs are read back, and daily ones taken apart.
  cases o <;> cases o'
  case roll.roll =>
    have read := (RollNumber.parse_of_format h).symm.trans (RollNumber.parse_of_format h')
    cases read
    rfl
  case invoice.invoice =>
    obtain ⟨width, h⟩ := h
    obtain ⟨width', h'⟩ := h'
    have read := (InvoiceId.parse_of_format h).symm.trans (InvoiceId.parse_of_format h')
    cases read
    rfl
  case daily.daily =>
    obtain ⟨⟨d, valid, rfl⟩, d', valid', rfl⟩ := And.intro dated dated'
    obtain ⟨width, h⟩ := h
    obtain ⟨width', h'⟩ := h'
    obtain ⟨key, rfl⟩ := Checked.format_inj valid.isDayStamp valid'.isDayStamp h h'
    rw [key]
  all_goals cases kind

end Origin

/-! ## The series -/

namespace Series

variable {s s' : Series} {a a' : Allocation} {words words' : List UInt64} {id : String}

theorem spells_of_format (h : s.format a words = .ok id) :
    ∃ o, s.origin? a words = some o ∧ o.Spells id := by
  cases s with
  | roll l =>
    simp only [format, origin?] at h ⊢
    split at h
    · next d mark =>
      rw [mark]
      exact ⟨_, rfl, h⟩
    · cases h
  | invoice l =>
    simp only [format, origin?] at h ⊢
    split at h
    · next lead mark =>
      rw [mark]
      exact ⟨_, rfl, _, h⟩
    · cases h
  | daily l =>
    simp only [format, origin?] at h ⊢
    split at h
    · next date key =>
      rw [key]
      exact ⟨_, rfl, _, h⟩
    · cases h

/-- **Equal identifiers come from the same series and the same allocation**: roll numbers from the
same day, digit and sequence, monthly invoice IDs from the same prefix, sequence and suffix, and
daily ones from the same day and sequence. The settings of the two may differ. -/
theorem origin_eq_of_format (dated : ∀ o, s.origin? a words = some o → o.Dated)
    (dated' : ∀ o, s'.origin? a' words' = some o → o.Dated) (h : s.format a words = .ok id)
    (h' : s'.format a' words' = .ok id) :
    ∃ o, s.origin? a words = some o ∧ s'.origin? a' words' = some o := by
  obtain ⟨o, origin, spells⟩ := spells_of_format h
  obtain ⟨o', origin', spells'⟩ := spells_of_format h'
  obtain rfl := spells.eq spells' (dated o origin) (dated' o' origin')
  exact ⟨o, origin, origin'⟩

/-- The same sequence of one day, under two names and padded to four and to five digits. -/
theorem origin_eq_of_format_tills :
    let s := Series.daily {}
    let s' := Series.daily { family := "till", paddingWidth := 5 }
    let a : Allocation := ⟨"daily-invoice:250314", 10000, .plain, false⟩
    let a' : Allocation := ⟨"till:250314", 10000, .plain, false⟩
    s.format a [] = .ok "25031410000G" ∧ s'.format a' [] = .ok "25031410000G" ∧
      ∃ o, s.origin? a [] = some o ∧ s'.origin? a' [] = some o := by
  intro s s' a a'
  have origin : s.origin? a [] = some (.daily "250314" 10000) := by cbv
  have origin' : s'.origin? a' [] = some (.daily "250314" 10000) := by cbv
  have written : s.format a [] = .ok "25031410000G" := by cbv
  have written' : s'.format a' [] = .ok "25031410000G" := by cbv
  have dated : (Origin.daily "250314" 10000).Dated := ⟨⟨2025, 3, 14⟩, by decide, by decide⟩
  exact ⟨written, written', origin_eq_of_format
    (fun o e => Option.some.inj (origin.symm.trans e) ▸ dated)
    (fun o e => Option.some.inj (origin'.symm.trans e) ▸ dated) written written'⟩

end Series

end Docket
