import Docket.Proofs.Identifier.ReadBack

/-!
# Identifiers written back

What is read as an identifier is what its parts are written as, but for an invoice ID that ends in a
dash: it is read as if the dash were not there.

* `RollNumber.format_of_parse`, **`RollNumber.format_iff_parse`**: roll numbers are written and read
  one to one;
* **`InvoiceId.format_reads_back`**: invoice IDs that are written are read back;
* `InvoiceId.parse_eq_ok_iff`, **`InvoiceId.written_back_iff`**: what is read as an invoice ID, and
  when it is written back; `InvoiceId.parse_dash` is a text that is not.
-/

namespace Docket

/-! ## Digits -/

namespace Decimal

variable {cs ds : List Char} {n : Nat}

theorem ofDigitChars_concat (cs : List Char) (c : Char) :
    Nat.ofDigitChars 10 (cs ++ [c]) 0 = 10 * Nat.ofDigitChars 10 cs 0 + (c.toNat - 48) := by
  simp [Nat.ofDigitChars_append, Nat.ofDigitChars_cons]

theorem ofDigitChars_lt (h : ∀ c ∈ cs, c.isDigit = true) :
    Nat.ofDigitChars 10 cs 0 < 10 ^ cs.length := by
  induction cs using List.reverseRecOn with
  | nil => simp
  | append_singleton cs c ih =>
    have digit := toNat_of_isDigit (h c (by simp))
    have init := ih fun d hd => h d (by simp [hd])
    rw [ofDigitChars_concat, List.length_append, List.length_singleton, Nat.pow_succ]
    omega

theorem eq_of_ofDigitChars (length : cs.length = ds.length) (hc : ∀ c ∈ cs, c.isDigit = true)
    (hd : ∀ d ∈ ds, d.isDigit = true) (h : Nat.ofDigitChars 10 cs 0 = Nat.ofDigitChars 10 ds 0) :
    cs = ds := by
  induction cs using List.reverseRecOn generalizing ds with
  | nil => exact (List.length_eq_zero_iff.mp length.symm).symm
  | append_singleton cs c ih =>
    obtain rfl | ⟨ds, d, rfl⟩ := ds.eq_nil_or_concat'
    · simp at length
    · have := toNat_of_isDigit (hc c (by simp))
      have := toNat_of_isDigit (hd d (by simp))
      rw [ofDigitChars_concat, ofDigitChars_concat] at h
      have last : c = d := Char.toNat_inj.mp (by omega)
      have init : cs = ds := ih (by simpa using length) (fun x hx => hc x (by simp [hx]))
        (fun x hx => hd x (by simp [hx])) (by omega)
      rw [last, init]

theorem padded_of_read? (h : read? cs = some n) : padded cs.length n = cs := by
  unfold read? at h
  split at h
  · cases h
  · next digits =>
    obtain rfl := Option.some.inj h
    simp only [Bool.or_eq_true, not_or, Bool.not_eq_true', Bool.not_eq_false, List.all_eq_true,
      List.isEmpty_iff] at digits
    obtain ⟨ne, digits⟩ := digits
    have pos : 0 < cs.length := List.length_pos_iff.mpr ne
    have length := length_padded_of_lt pos (ofDigitChars_lt digits)
    refine eq_of_ofDigitChars length (fun _ => isDigit_of_mem_padded) digits ?_
    rw [padded_eq, ofDigitChars_zeros]
    exact Nat.ofDigitChars_ten_toDigits

theorem digitChar_of_isDigit {c : Char} (h : c.isDigit = true) : (c.toNat - 48).digitChar = c := by
  have range := toNat_of_isDigit h
  apply Char.toNat_inj.mp
  rw [Nat.toNat_digitChar_of_lt_ten (by omega)]
  omega

theorem width_le_of_padded (h : padded cs.length n = cs) : width n ≤ cs.length := by
  have := congrArg List.length h
  rw [length_padded] at this
  omega

end Decimal

/-! ## Segments -/

namespace Segment

variable {s : String} {cs : List Char} {n : UInt64}

theorem dash_notMem_of_mem_splitOn {text segment : List Char}
    (h : segment ∈ text.splitOn '-') : '-' ∉ segment := by
  induction text generalizing segment with
  | nil => simp_all
  | cons c text ih =>
    rw [List.splitOn_cons_eq_if_modifyHead] at h
    obtain ⟨first, rest, split⟩ := List.exists_cons_of_ne_nil (List.splitOn_ne_nil '-' text)
    rw [split] at h ih
    split at h
    · obtain rfl | h := List.mem_cons.mp h
      · simp
      · exact ih h
    · next ne =>
      obtain rfl | h := List.mem_cons.mp h
      · have ne : '-' ≠ c := fun e => ne (by simp [← e])
        exact List.not_mem_cons_of_ne_of_not_mem ne (ih List.mem_cons_self)
      · exact ih (List.mem_cons_of_mem _ h)

theorem split_eq_iff {segments : List (List Char)} : split s = segments ↔
    segments ≠ [] ∧ (∀ x ∈ segments, '-' ∉ x) ∧ s.toList = ['-'].intercalate segments := by
  constructor
  · rintro rfl
    exact ⟨List.splitOn_ne_nil _ _, fun _ => dash_notMem_of_mem_splitOn,
      (List.intercalate_splitOn '-').symm⟩
  · rintro ⟨ne, dash, text⟩
    exact split_intercalate ne dash text

theorem readSequence?_eq_some_iff :
    readSequence? cs = some n ↔ Decimal.padded cs.length n.toNat = cs := by
  constructor
  · intro h
    obtain ⟨m, read, h⟩ := Option.bind_eq_some_iff.mp h
    split at h
    · next lt =>
      obtain rfl := Option.some.inj h
      rw [UInt64.toNat_ofNat_of_lt' lt]
      exact Decimal.padded_of_read? read
    · cases h
  · intro h
    rw [← h]
    exact readSequence?_padded _ n

theorem getLast?_append_ne_dash {segment : List Char} (ne : segment ≠ []) (dash : '-' ∉ segment)
    (front : List Char) : (front ++ segment).getLast? ≠ some '-' := by
  rw [List.getLast?_append_of_ne_nil _ ne]
  exact fun last => dash (List.mem_of_getLast? last)

end Segment

/-! ## Roll numbers -/

namespace RollNumber

variable {s : String} {r : RollNumber}

theorem parse_eq_ok_iff_parts : parse s = .ok r ↔ parse? s = some r := by
  unfold parse
  cases parse? s <;> simp

theorem digit_of_isDigit {d : Char} (h : d.isDigit = true) :
    (d.toNat - '0'.toNat).toUInt8 ≤ 9 ∧
      Decimal.digits (d.toNat - '0'.toNat).toUInt8.toNat = [d] := by
  have range := Decimal.toNat_of_isDigit h
  have value : (d.toNat - '0'.toNat).toUInt8.toNat = d.toNat - 48 :=
    Nat.mod_eq_of_lt (show d.toNat - 48 < 256 by omega)
  rw [UInt8.le_iff_toNat_le, value]
  constructor
  · show d.toNat - 48 ≤ 9
    omega
  · rw [Decimal.digits, Nat.toDigits_of_lt_base (by omega), Decimal.digitChar_of_isDigit h]

/-- **What is read as a roll number** is what its parts are written as. -/
theorem format_of_parse (h : parse s = .ok r) : r.format = .ok s := by
  have parts := parse_eq_ok_iff_parts.mp h
  unfold parse? at parts
  split at parts
  · next period d sequence split =>
    obtain ⟨-, dash, whole⟩ := Segment.split_eq_iff.mp split
    split at parts
    · cases parts
    · next fits =>
      obtain ⟨n, read, rfl⟩ := Option.map_eq_some_iff.mp parts
      simp only [Bool.or_eq_true, decide_eq_true_eq, not_or, Bool.not_eq_true', Bool.not_eq_false,
        List.isEmpty_iff, Classical.not_not, ne_eq] at fits
      obtain ⟨⟨ne, digit⟩, two⟩ := fits
      obtain ⟨le, one⟩ := digit_of_isDigit digit
      have padded := Segment.readSequence?_eq_some_iff.mp read
      have width := Decimal.width_le_of_padded padded
      rw [two] at padded width
      have small := (Decimal.width_le_iff (by decide)).mp width
      refine format_eq_ok_iff.mpr ⟨⟨by simpa using ne, by simpa using dash period (by simp)⟩, le,
        UInt64.le_iff_toNat_le.mpr (Nat.le_of_lt_succ small), String.toList_inj.mp ?_⟩
      rw [toList_text, one, padded, String.toList_ofList, whole]
  · cases parts

/-- **Roll numbers are written and read one to one.** They are written exactly if their parts can be
told apart, and then as a text that is read as these parts; and what is read is written as the same
text again. -/
theorem format_iff_parse (r : RollNumber) (s : String) :
    ((∃ id, r.format = .ok id) ↔
      (r.period ≠ "" ∧ '-' ∉ r.period.toList) ∧ r.digit ≤ 9 ∧ r.sequence ≤ 99) ∧
    (r.format = .ok s ↔ parse s = .ok r ∧ r.text = s) ∧ (parse s = .ok r ↔ r.format = .ok s) := by
  refine ⟨?_, ?_, format_of_parse, parse_of_format⟩
  · simp [format_eq_ok_iff]
  · constructor
    · intro h
      exact ⟨parse_of_format h, (format_eq_ok_iff.mp h).2.2.2⟩
    · rintro ⟨h, -⟩
      exact format_of_parse h

end RollNumber

/-! ## Monthly invoice IDs -/

namespace InvoiceId

variable {s t : String} {i : InvoiceId}

theorem parse_eq_ok_iff_parts : parse s = .ok i ↔ parse? s = some i := by
  unfold parse
  cases parse? s <;> simp

/-- Parts that are read can be written, and fall into the segments that they were read from, but for
an empty suffix. -/
theorem format_of_ofSegments? {lead sequence suffix : List Char} (dash : '-' ∉ lead)
    (dash' : '-' ∉ suffix) (h : ofSegments? lead sequence suffix = some i) :
    i.format = .ok i.text ∧ i.suffix.toList = suffix ∧
      i.segments = [tag.toList, lead, sequence] ++ if suffix = [] then [] else [suffix] := by
  unfold ofSegments? at h
  split at h
  · cases h
  · next fits =>
    obtain ⟨n, read, rfl⟩ := Option.map_eq_some_iff.mp h
    simp only [Bool.or_eq_true, decide_eq_true_eq, not_or, List.isEmpty_iff, Nat.not_lt] at fits
    obtain ⟨ne, narrow⟩ := fits
    have padded := Segment.readSequence?_eq_some_iff.mp read
    have width := Decimal.width_le_of_padded padded
    have pos : 1 ≤ sequence.length := Nat.le_trans (Decimal.width_pos _) width
    refine ⟨format_eq_ok_iff.mpr ⟨⟨pos, narrow⟩, ?_, ?_, width, rfl⟩, ?_, ?_⟩
    · simpa using ⟨ne, dash⟩
    · simpa using dash'
    · simp
    · simp [segments, padded]

theorem parse_push_dash (h : i.format = .ok t) (suffix : i.suffix = "") :
    parse (t ++ "-") = .ok i := by
  have parts := parse_eq_ok_iff_parts.mp (parse_of_format h)
  obtain ⟨-, ⟨-, lead⟩, dash, -, rfl⟩ := format_eq_ok_iff.mp h
  have segments : i.segments =
      [tag.toList, i.lead.toList, Decimal.padded i.width i.sequence.toNat] := by
    simp [segments, suffix]
  have split := (split_text lead dash).trans segments
  have split' : Segment.split (i.text ++ "-") =
      [tag.toList, i.lead.toList, Decimal.padded i.width i.sequence.toNat, []] := by
    rw [Segment.split, String.toList_append, show "-".toList = '-' :: [] from rfl,
      List.splitOn_append_cons_self, ← Segment.split, split]
    rfl
  apply parse_eq_ok_iff_parts.mpr
  rw [parse?, split] at parts
  rw [parse?, split']
  exact parts

/-- **What is read as an invoice ID** is what its parts are written as, perhaps with a dash behind
it where there is no suffix. -/
theorem parse_eq_ok_iff : parse s = .ok i ↔
    i.format = .ok s ∨ i.suffix = "" ∧ ∃ t, i.format = .ok t ∧ s = t ++ "-" := by
  constructor
  · intro h
    have parts := parse_eq_ok_iff_parts.mp h
    unfold parse? at parts
    split at parts
    · next start lead sequence split =>
      obtain ⟨-, dash, whole⟩ := Segment.split_eq_iff.mp split
      split at parts
      · next tagged =>
        obtain ⟨format, -, segments⟩ := format_of_ofSegments? (dash lead (by simp)) (by simp) parts
        have same : i.text = s := by
          rw [← String.toList_inj, toList_text, segments, whole, tagged]
          rfl
        exact .inl (same ▸ format)
      · cases parts
    · next start lead sequence suffix split =>
      obtain ⟨-, dash, whole⟩ := Segment.split_eq_iff.mp split
      split at parts
      · next tagged =>
        obtain ⟨format, tail, segments⟩ :=
          format_of_ofSegments? (dash lead (by simp)) (dash suffix (by simp)) parts
        by_cases empty : suffix = []
        · refine .inr ⟨String.toList_inj.mp (tail.trans empty), i.text, format, ?_⟩
          rw [← String.toList_inj, String.toList_append, toList_text, segments, whole, tagged,
            empty]
          simp [List.intercalate]
        · have same : i.text = s := by
            rw [← String.toList_inj, toList_text, segments, whole, tagged, if_neg empty]
            rfl
          exact .inl (same ▸ format)
      · cases parts
    · cases parts
  · rintro (h | ⟨suffix, t, h, rfl⟩)
    · exact parse_of_format h
    · exact parse_push_dash h suffix

theorem getLast?_of_format (h : i.format = .ok t) : t.toList.getLast? ≠ some '-' := by
  obtain ⟨-, -, suffix, -, rfl⟩ := format_eq_ok_iff.mp h
  by_cases empty : i.suffix = ""
  · have ne : Decimal.padded i.width i.sequence.toNat ≠ [] := by
      simp [Decimal.padded_eq, Decimal.digits]
    have digits := Segment.getLast?_append_ne_dash ne (Decimal.dash_notMem_padded _ _)
    simpa [text, empty, Segment.padded] using digits (tag ++ "-" ++ i.lead ++ "-").toList
  · have ne : i.suffix.toList ≠ [] := by simpa using empty
    have letters := Segment.getLast?_append_ne_dash ne suffix
    simpa [text, empty, Segment.padded] using
      letters (tag ++ "-" ++ i.lead ++ "-" ++ Segment.padded i.width i.sequence ++ "-").toList

/-- **Invoice IDs that are written are read back.** They are written exactly if their parts can be
told apart and the digits of the sequence fit, and then as a text that is read as these parts. -/
theorem format_reads_back (i : InvoiceId) :
    ((∃ id, i.format = .ok id) ↔ (1 ≤ i.width ∧ i.width ≤ 20) ∧
      (i.lead ≠ "" ∧ '-' ∉ i.lead.toList) ∧ '-' ∉ i.suffix.toList ∧
      (Decimal.text i.sequence.toNat).length ≤ i.width) ∧
    ∀ id, i.format = .ok id → parse id = .ok i ∧ i.text = id := by
  constructor
  · have length : (Decimal.text i.sequence.toNat).length = Decimal.width i.sequence.toNat := by
      simp [Decimal.text, Decimal.width]
    simp [format_eq_ok_iff, length, Segment.maxPadding]
  · intro id h
    exact ⟨parse_of_format h, (format_eq_ok_iff.mp h).2.2.2.2⟩

/-- The largest sequence behind a letter that is not ASCII, and no suffix. -/
theorem format_reads_back_largest :
    let i : InvoiceId := ⟨"é", 18446744073709551615, 20, ""⟩
    i.format = .ok "INV-é-18446744073709551615" ∧
      parse "INV-é-18446744073709551615" = .ok i ∧ i.text = "INV-é-18446744073709551615" := by
  intro i
  have written : i.format = .ok "INV-é-18446744073709551615" := by cbv
  exact ⟨written, (format_reads_back i).2 _ written⟩

/-- What is read is the text of its parts, or that text and a dash. -/
theorem text_of_parse (h : parse s = .ok i) :
    s.toList.getLast? ≠ some '-' ∧ i.text = s ∧ i.format = .ok s ∨
      s.toList.getLast? = some '-' ∧ i.text ++ "-" = s := by
  obtain format | ⟨-, t, format, rfl⟩ := parse_eq_ok_iff.mp h
  · exact .inl ⟨getLast?_of_format format, (format_eq_ok_iff.mp format).2.2.2.2, format⟩
  · refine .inr ⟨?_, ?_⟩
    · simp
    · rw [(format_eq_ok_iff.mp format).2.2.2.2]

/-- **An invoice ID that is read is written back** exactly if it does not end in a dash. Two texts
that are read as the same parts are the same, unless one of them ends in a dash and the other does
not. -/
theorem written_back_iff (h : parse s = .ok i) :
    (i.text = s ∧ i.format = .ok s ↔ s.toList.getLast? ≠ some '-') ∧
    ∀ s', parse s' = .ok i →
      (s' = s ↔ (s'.toList.getLast? = some '-' ↔ s.toList.getLast? = some '-')) := by
  constructor
  · obtain ⟨plain, written⟩ | ⟨dash, -⟩ := text_of_parse h
    · exact ⟨fun _ => plain, fun _ => written⟩
    · exact ⟨fun back => getLast?_of_format back.2, fun plain => absurd dash plain⟩
  · intro s' h'
    constructor
    · rintro rfl
      rfl
    · intro same
      obtain ⟨plain, text, -⟩ | ⟨dash, text⟩ := text_of_parse h
      · obtain ⟨-, text', -⟩ | ⟨dash', -⟩ := text_of_parse h'
        · exact text'.symm.trans text
        · exact absurd (same.mp dash') plain
      · obtain ⟨plain', -⟩ | ⟨-, text'⟩ := text_of_parse h'
        · exact absurd (same.mpr dash) plain'
        · exact text'.symm.trans text

/-- An invoice ID without a dash behind it, and with one. -/
theorem written_back_iff_dashed :
    let i : InvoiceId := ⟨"XZ2503", 42, 4, ""⟩
    parse "INV-XZ2503-0042" = .ok i ∧ parse "INV-XZ2503-0042-" = .ok i ∧
      i.text = "INV-XZ2503-0042" ∧ i.format = .ok "INV-XZ2503-0042" ∧
      ¬ (i.text = "INV-XZ2503-0042-" ∧ i.format = .ok "INV-XZ2503-0042-") ∧
      "INV-XZ2503-0042-" ≠ "INV-XZ2503-0042" := by
  intro i
  have plain : parse "INV-XZ2503-0042" = .ok i := by cbv
  have dashed : parse "INV-XZ2503-0042-" = .ok i := by cbv
  obtain ⟨back, same⟩ := written_back_iff plain
  obtain ⟨text, format⟩ := back.mpr (by decide)
  refine ⟨plain, dashed, text, format, fun back => ?_, fun e => ?_⟩
  · exact (written_back_iff dashed).1.mp back (by decide)
  · exact absurd ((same _ dashed).mp e) (by decide)

/-- **A dash goes unnoticed**: two texts are read as the same parts, which are written as one of the
two only. -/
theorem parse_dash :
    let i : InvoiceId := ⟨"XZ2503", 1, 3, ""⟩
    parse "INV-XZ2503-001-" = .ok i ∧ parse "INV-XZ2503-001" = .ok i ∧
      i.text ≠ "INV-XZ2503-001-" ∧ i.format = .ok "INV-XZ2503-001" := by
  refine ⟨by cbv, by cbv, by decide, by cbv⟩

end InvoiceId

end Docket
