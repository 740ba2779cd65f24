import Docket.Identifier.Checked
import Docket.Identifier.Invoice
import Docket.Identifier.Suffix
import Docket.Proofs.Roll.Text

/-!
# Identifiers read back

What is written as an identifier is read as the parts that it was written from.

* **`RollNumber.parse_text`**, `RollNumber.parse_of_format`: a roll number;
* `InvoiceId.format_eq_ok_iff`, **`InvoiceId.parse_text`**, `InvoiceId.parse_of_format`: a monthly
  invoice ID, and when it is written;
* `Checked.format_eq_ok_iff`, **`Checked.verify_of_format`**, `Checked.format_verifies`: a daily
  invoice ID, of which only the check character is read.
-/

namespace Docket

/-! ## Roll numbers -/

namespace RollNumber

theorem toList_text (r : RollNumber) : r.text.toList = ['-'].intercalate
    [r.period.toList, Decimal.digits r.digit.toNat,
      Decimal.padded sequenceWidth r.sequence.toNat] := by
  simp [text, Decimal.text, Segment.padded, List.intercalate]

theorem parse_text {r : RollNumber} (ne : r.period.toList ≠ []) (dash : '-' ∉ r.period.toList)
    (digit : r.digit ≤ 9) (sequence : r.sequence ≤ 99) : parse r.text = .ok r := by
  have lt : r.digit.toNat < 10 := Nat.lt_succ_of_le (UInt8.le_iff_toNat_le.mp digit)
  have one : Decimal.digits r.digit.toNat = [r.digit.toNat.digitChar] :=
    Nat.toDigits_of_lt_base lt
  have two : (Decimal.padded sequenceWidth r.sequence.toNat).length = sequenceWidth :=
    Decimal.length_padded_of_lt (by decide)
      (Nat.lt_succ_of_le (UInt64.le_iff_toNat_le.mp sequence))
  have split : Segment.split r.text = [r.period.toList, [r.digit.toNat.digitChar],
      Decimal.padded sequenceWidth r.sequence.toNat] := by
    refine Segment.split_intercalate (by simp) (fun s hs => ?_) ?_
    · simp only [List.mem_cons, List.not_mem_nil, or_false] at hs
      rcases hs with rfl | rfl | rfl
      · exact dash
      · exact one ▸ Decimal.dash_notMem_digits _
      · exact Decimal.dash_notMem_padded _ _
    · rw [toList_text, one]
  have isDigit : r.digit.toNat.digitChar.isDigit = true := by
    simpa [Nat.isDigit_digitChar] using lt
  have back : (r.digit.toNat.digitChar.toNat - '0'.toNat).toUInt8 = r.digit := by
    rw [show '0'.toNat = 48 from rfl, Nat.toNat_digitChar_sub_48_of_lt_ten lt]
    exact UInt8.ofNat_toNat
  have parts : parse? r.text = some r := by
    rw [parse?, split]
    dsimp only
    rw [if_neg (by simp [ne, isDigit, two]), Segment.readSequence?_padded, Option.map_some, back,
      String.ofList_toList]
  rw [parse, parts]
  rfl

theorem parse_of_format {r : RollNumber} {id : String} (h : r.format = .ok id) :
    parse id = .ok r := by
  obtain ⟨⟨ne, dash⟩, digit, sequence, rfl⟩ := format_eq_ok_iff.mp h
  exact parse_text ne dash digit sequence

end RollNumber

/-! ## Monthly invoice IDs -/

namespace Suffix

theorem pick_ne_dash (word : UInt64) : pick letters.toList word ≠ '-' := by
  have plain : '-' ∉ letters.toList := by decide
  have lt : word.toNat % letters.toList.length < letters.toList.length :=
    Nat.mod_lt _ (by decide)
  rw [pick, List.getD_eq_getElem?_getD, List.getElem?_eq_getElem lt]
  exact fun dash => plain (dash ▸ List.getElem_mem lt)

theorem dash_notMem (words : List UInt64) : '-' ∉ (confusableFree words).toList := by
  rw [confusableFree, spell, String.toList_ofList]
  intro mem
  obtain ⟨word, -, h⟩ := List.mem_map.mp mem
  exact pick_ne_dash word h

end Suffix

namespace InvoiceId

variable {i : InvoiceId}

def segments (i : InvoiceId) : List (List Char) :=
  [tag.toList, i.lead.toList, Decimal.padded i.width i.sequence.toNat] ++
    if i.suffix.isEmpty then [] else [i.suffix.toList]

theorem toList_text (i : InvoiceId) : i.text.toList = ['-'].intercalate i.segments := by
  rw [text, segments]
  split <;> simp [Segment.padded, List.intercalate]

theorem split_text (lead : '-' ∉ i.lead.toList) (suffix : '-' ∉ i.suffix.toList) :
    Segment.split i.text = i.segments := by
  refine Segment.split_intercalate (by simp [segments]) (fun s hs => ?_) i.toList_text
  simp only [segments, List.cons_append, List.nil_append, List.mem_cons] at hs
  rcases hs with rfl | rfl | rfl | hs
  · decide
  · exact lead
  · exact Decimal.dash_notMem_padded _ _
  · split at hs
    · cases hs
    · rw [List.mem_singleton.mp hs]
      exact suffix

theorem parse_text (ne : i.lead.toList ≠ []) (lead : '-' ∉ i.lead.toList)
    (suffix : '-' ∉ i.suffix.toList) (width : Decimal.width i.sequence.toNat ≤ i.width)
    (narrow : i.width ≤ Segment.maxPadding) : parse i.text = .ok i := by
  have length : (Decimal.padded i.width i.sequence.toNat).length = i.width := by
    rw [Decimal.length_padded]
    exact Nat.max_eq_left width
  have read (suffix : List Char) : ofSegments? i.lead.toList
      (Decimal.padded i.width i.sequence.toNat) suffix =
        some { i with suffix := String.ofList suffix } := by
    rw [ofSegments?, if_neg (by simp [ne, length, narrow]), Segment.readSequence?_padded,
      Option.map_some, length, String.ofList_toList]
  have parts : parse? i.text = some i := by
    rw [parse?, split_text lead suffix, segments]
    by_cases none : i.suffix.isEmpty
    · rw [if_pos none]
      have empty : String.ofList [] = i.suffix := (String.isEmpty_iff.mp none).symm
      simp only [List.append_nil, if_true, read, empty]
    · rw [if_neg none]
      simp only [List.cons_append, List.nil_append, if_true, read, String.ofList_toList]
  rw [parse, parts]
  rfl

/-- **An invoice ID is written** exactly if its parts can be told apart. -/
theorem format_eq_ok_iff {id : String} :
    i.format = .ok id ↔ (1 ≤ i.width ∧ i.width ≤ Segment.maxPadding) ∧
      (i.lead.toList ≠ [] ∧ '-' ∉ i.lead.toList) ∧ '-' ∉ i.suffix.toList ∧
      Decimal.width i.sequence.toNat ≤ i.width ∧ i.text = id := by
  simp only [format, bind_eq_ok_iff, guard_eq_ok_iff, String.contains_char_eq, decide_eq_true_eq]
  constructor
  · rintro ⟨_, padding, _, lead, suffix, _, width, h⟩
    exact ⟨Segment.checkPadding_eq_ok_iff.mp padding, Segment.check_eq_ok_iff.mp lead, suffix,
      Segment.checkWidth_eq_ok_iff.mp width, Except.ok.inj h⟩
  · rintro ⟨padding, lead, suffix, width, rfl⟩
    exact ⟨(), Segment.checkPadding_eq_ok_iff.mpr padding, (), Segment.check_eq_ok_iff.mpr lead,
      suffix, (), Segment.checkWidth_eq_ok_iff.mpr width, rfl⟩

theorem parse_of_format {id : String} (h : i.format = .ok id) : parse id = .ok i := by
  obtain ⟨⟨-, narrow⟩, ⟨ne, lead⟩, suffix, width, rfl⟩ := format_eq_ok_iff.mp h
  exact parse_text ne lead suffix width narrow

end InvoiceId

/-! ## Daily invoice IDs -/

namespace Checked

theorem sum_digits {cs : List Char} (h : ∀ c ∈ cs, c.isDigit = true) (start : Nat) :
    ∃ total, sum start cs = .ok total := by
  induction cs generalizing start with
  | nil => exact ⟨start, rfl⟩
  | cons c cs ih =>
    simp only [sum, value?, if_pos (h c List.mem_cons_self)]
    exact ih (fun c hc => h c (List.mem_cons_of_mem _ hc)) _

/-- **A daily invoice ID is written** exactly if its parts are fit for it and its body is all
base-36 digits. -/
theorem format_eq_ok_iff {key id : String} {sequence : UInt64} {width : Nat} :
    format key sequence width = .ok id ↔ (key.toList ≠ [] ∧ '-' ∉ key.toList) ∧
      (1 ≤ width ∧ width ≤ Segment.maxPadding) ∧ Decimal.width sequence.toNat ≤ width ∧
      ∃ total, sum 0 (key ++ Segment.padded width sequence).toList = .ok total ∧
        (key ++ Segment.padded width sequence).push (digit total) = id := by
  have character {body : String} {c : Char} : character body = .ok c ↔
      ∃ total, sum 0 body.toList = .ok total ∧ digit total = c := by
    unfold Checked.character
    split <;> simp [*]
  simp only [format, bind_eq_ok_iff, character]
  constructor
  · rintro ⟨_, segment, _, padding, _, fits, _, ⟨total, sum, rfl⟩, h⟩
    exact ⟨Segment.check_eq_ok_iff.mp segment, Segment.checkPadding_eq_ok_iff.mp padding,
      Segment.checkWidth_eq_ok_iff.mp fits, total, sum, Except.ok.inj h⟩
  · rintro ⟨segment, padding, fits, total, sum, rfl⟩
    exact ⟨(), Segment.check_eq_ok_iff.mpr segment, (), Segment.checkPadding_eq_ok_iff.mpr padding,
      (), Segment.checkWidth_eq_ok_iff.mpr fits, _, ⟨total, sum, rfl⟩, rfl⟩

/-- **A daily invoice ID verifies.** -/
theorem verify_of_format {key id : String} {sequence : UInt64} {width : Nat}
    (h : format key sequence width = .ok id) : verify id = true := by
  obtain ⟨⟨ne, -⟩, -, -, total, sum, rfl⟩ := format_eq_ok_iff.mp h
  rw [verify, String.toList_push, List.dropLast_concat, sum]
  simp [ne]

theorem isDigit_of_mem_body {key : String} (stamp : IsDayStamp key) {width : Nat}
    {sequence : UInt64} {c : Char} (h : c ∈ (key ++ Segment.padded width sequence).toList) :
    c.isDigit = true := by
  rw [String.toList_append, List.mem_append, Segment.padded, String.toList_ofList] at h
  exact h.elim (stamp.2 c) Decimal.isDigit_of_mem_padded

theorem format_verifies {key : String} {sequence : UInt64} {width : Nat} (stamp : IsDayStamp key)
    (pos : 1 ≤ width) (narrow : width ≤ Segment.maxPadding)
    (fits : Decimal.width sequence.toNat ≤ width) :
    ∃ id, format key sequence width = .ok id ∧ verify id = true := by
  obtain ⟨total, sum⟩ := sum_digits (fun _ => isDigit_of_mem_body stamp) 0
  have written := format_eq_ok_iff.mpr
    ⟨⟨stamp.ne_nil, stamp.dash_notMem⟩, ⟨pos, narrow⟩, fits, total, sum, rfl⟩
  exact ⟨_, written, verify_of_format written⟩

end Checked

end Docket
