import Docket.Calendar.Written
import Docket.Proofs.Calendar.Days
import Docket.Proofs.Identifier.Segments

/-!
# Times read back

* `Scan.number_padded`, `Scan.symbol_cons`, `Scan.date_chars`, `Scan.fraction_fractionText`,
  `Scan.offset_offsetText`: each part of the text of a time reads back in front of what follows;
* `Time.Exact`, **`Time.Exact.read?_text`**: a time whose text tells all of it reads back.
-/

namespace Docket

variable {rest : List Char} {w n : Nat}

/-! ## Digits in front -/

theorem isBlank_of_isDigit {c : Char} (h : c.isDigit = true) : isBlank c = false := by
  have := Decimal.toNat_of_isDigit h
  simp only [isBlank, Bool.or_eq_false_iff, Bool.and_eq_false_iff, decide_eq_false_iff_not,
    beq_eq_false_iff_ne]
  omega

theorem Decimal.exists_padded_eq_cons (w n : Nat) :
    ∃ c cs, padded w n = c :: cs ∧ c.isDigit = true := by
  have pos : 0 < (padded w n).length := by
    rw [length_padded]
    exact Nat.lt_of_lt_of_le (width_pos n) (Nat.le_max_right _ _)
  obtain ⟨c, cs, e⟩ := List.exists_cons_of_length_pos pos
  exact ⟨c, cs, e, isDigit_of_mem_padded (e ▸ List.mem_cons_self)⟩

namespace Blank

theorem skip_cons {c : Char} (h : isBlank c = false) (cs : List Char) :
    skip (c :: cs) = c :: cs := by
  rw [skip, List.dropWhile_cons, if_neg (by simp [h])]

theorem skip_padded (w n : Nat) (rest : List Char) :
    skip (Decimal.padded w n ++ rest) = Decimal.padded w n ++ rest := by
  obtain ⟨c, cs, e, digit⟩ := Decimal.exists_padded_eq_cons w n
  rw [e, List.cons_append, skip_cons (isBlank_of_isDigit digit)]

end Blank

namespace Scan

/-! ## Numbers and signs -/

theorem number_padded (pos : 0 < w) (h : n < 10 ^ w) (rest : List Char) :
    number w (Decimal.padded w n ++ rest) = some (n, rest) := by
  have length := Decimal.length_padded_of_lt pos h
  have run : ((Decimal.padded w n ++ rest).take w).takeWhile Char.isDigit =
      Decimal.padded w n := by
    rw [List.take_left' length, List.takeWhile_eq_self_iff]
    exact fun c => Decimal.isDigit_of_mem_padded
  rw [number, Blank.skip_padded]
  simp only [run, Decimal.read?_padded, Option.map_some, List.drop_left]

theorem twoDigits_padded (h : n < 100) (rest : List Char) :
    twoDigits (Decimal.padded 2 n ++ rest) = some (n, rest) := by
  have length : (Decimal.padded 2 n).length = 2 := Decimal.length_padded_of_lt (by decide) h
  obtain ⟨a, b, e⟩ := List.length_eq_two.mp length
  have read := Decimal.read?_padded 2 n
  rw [e] at read
  rw [e, List.cons_append, List.cons_append, List.nil_append, twoDigits, read]
  rfl

theorem symbol_cons {c : Char} (h : isBlank c = false) (rest : List Char) :
    symbol c (c :: rest) = some rest := by
  rw [symbol, Blank.skip_cons h]
  exact if_pos rfl

/-! ## Dates -/

theorem year_yearText {y : Int} (lo : 0 ≤ y) (hi : y ≤ 9999) (rest : List Char) :
    year (Date.yearText y ++ rest) = some (y, rest) := by
  obtain ⟨n, rfl⟩ := Int.eq_ofNat_of_zero_le lo
  have number : number 4 (Decimal.padded 4 n ++ rest) = some (n, rest) :=
    number_padded (by decide) (by omega) rest
  have text : Date.yearText n = Decimal.padded 4 n := if_pos ⟨lo, hi⟩
  -- A digit is no sign.
  obtain ⟨c, cs, e, digit⟩ := Decimal.exists_padded_eq_cons 4 n
  have unsigned : ∀ sign r, sign.isDigit = false → c :: (cs ++ rest) ≠ sign :: r := by
    intro sign r other h
    rw [(List.cons.inj h).1, other] at digit
    cases digit
  rw [text, year, Blank.skip_padded]
  rw [e, List.cons_append] at number ⊢
  split
  · next h => exact absurd h (unsigned '-' _ (by decide))
  · next h => exact absurd h (unsigned '+' _ (by decide))
  · rw [number]
    rfl

theorem date_chars {d : Date} (valid : d.Valid) (lo : 0 ≤ d.year) (hi : d.year ≤ 9999)
    (rest : List Char) : date (d.chars ++ rest) = some (d, rest) := by
  have months : d.month ≤ 12 := valid.2.2.2.1
  have days : d.day ≤ 31 := Nat.le_trans valid.2.2.2.2.2 (Date.daysIn_le d.year d.month)
  have month := number_padded (w := 2) (n := d.month) (by decide) (by omega)
  have day := number_padded (w := 2) (n := d.day) (by decide) (by omega)
  have dash : isBlank '-' = false := by decide
  have of : Date.of? d.year d.month d.day = some d := if_pos valid
  simp only [date, Date.chars, List.append_assoc, List.cons_append, year_yearText lo hi,
    symbol_cons dash, month, day, of, Option.bind_eq_bind, Option.bind_some, Option.pure_def]

/-! ## Fractions -/

theorem read?_rightpad {k : Nat} (length : (Decimal.padded w n).length = w) :
    Decimal.read? ((Decimal.padded w n).rightpad k '0') = some (n * 10 ^ (k - w)) := by
  have all : ((Decimal.padded w n).rightpad k '0').all Char.isDigit = true := by
    rw [List.rightpad, List.all_append, Bool.and_eq_true, List.all_eq_true, List.all_replicate]
    exact ⟨fun _ => Decimal.isDigit_of_mem_padded, by simp⟩
  obtain ⟨c, cs, e, -⟩ := Decimal.exists_padded_eq_cons w n
  have ne : ((Decimal.padded w n).rightpad k '0').isEmpty = false := by
    rw [List.rightpad, e]
    rfl
  simp only [Decimal.read?, ne, all, Bool.not_true, Bool.or_self, Bool.false_eq_true, if_false]
  rw [List.rightpad, length, Nat.ofDigitChars_append, Decimal.ofDigitChars_padded,
    Nat.ofDigitChars_replicate_zero, Nat.mul_comm]

theorem fraction_padded {nanos : Nat} (stops : ∀ c, rest.head? = some c → c.isDigit = false)
    (pos : 0 < w) (le : w ≤ 9) (h : nanos < 10 ^ 9) (exact : nanos % 10 ^ (9 - w) = 0) :
    fraction ('.' :: (Decimal.padded w (nanos / 10 ^ (9 - w)) ++ rest)) = some (nanos, rest) := by
  have lt : nanos / 10 ^ (9 - w) < 10 ^ w := by
    rw [Nat.div_lt_iff_lt_mul (by positivity), ← Nat.pow_add, Nat.add_sub_cancel' le]
    exact h
  generalize hn : nanos / 10 ^ (9 - w) = n at lt ⊢
  have whole : n * 10 ^ (9 - w) = nanos := hn ▸ Nat.div_mul_cancel (Nat.dvd_of_mod_eq_zero exact)
  have length := Decimal.length_padded_of_lt pos lt
  have run : (Decimal.padded w n ++ rest).takeWhile Char.isDigit = Decimal.padded w n :=
    Decimal.takeWhile_isDigit_append (fun c => Decimal.isDigit_of_mem_padded) stops
  have ne : (Decimal.padded w n).isEmpty = false := by
    rw [List.isEmpty_eq_false_iff, ← List.length_pos_iff, length]
    exact pos
  have short : (Decimal.padded w n).take 9 = Decimal.padded w n :=
    List.take_of_length_le (by omega)
  simp only [fraction, run, ne, short, read?_rightpad length, whole, List.drop_left,
    Option.map_some]
  rfl

theorem fraction_fractionText {nanos : Nat} (h : nanos < 10 ^ 9)
    (stops : ∀ c, rest.head? = some c → c.isDigit = false) (point : rest.head? ≠ some '.') :
    fraction (Time.fractionText nanos ++ rest) = some (nanos, rest) := by
  unfold Time.fractionText
  split
  · next zero =>
    rw [List.nil_append, zero]
    unfold fraction
    split
    · exact absurd rfl point
    · rfl
  · split
    · next millis => exact fraction_padded stops (w := 3) (by decide) (by decide) h millis
    · split
      · next micros => exact fraction_padded stops (w := 6) (by decide) (by decide) h micros
      · have read := fraction_padded stops (w := 9) (by decide) (by decide) h (Nat.mod_one nanos)
        rwa [Nat.sub_self, Nat.pow_zero, Nat.div_one] at read

/-! ## Offsets -/

theorem offset_signed {sign : Char} (h : sign = '+' ∨ sign = '-') {hours minutes : Nat}
    (hh : hours < 24) (hm : minutes < 60) (rest : List Char) :
    offset (sign :: (Decimal.padded 2 hours ++ ':' :: (Decimal.padded 2 minutes ++ rest))) =
      some (if sign = '+' then (hours * 3600 + minutes * 60 : Int)
        else -(hours * 3600 + minutes * 60 : Int), rest) := by
  have blank : isBlank sign = false := by rcases h with rfl | rfl <;> decide
  have upper : sign.toUpper ≠ 'U' := by rcases h with rfl | rfl <;> decide
  have zone : ¬ (sign = 'Z' ∨ sign = 'z') := by rcases h with rfl | rfl <;> decide
  have signs : sign = '+' ∨ sign = '-' ∨ sign = '−' := by rcases h with rfl | rfl <;> decide
  have colon : (':' :: (Decimal.padded 2 minutes ++ rest)).dropWhile
      (fun c => c = ':' || isBlank c) = Decimal.padded 2 minutes ++ rest := by
    obtain ⟨c, cs, e, digit⟩ := Decimal.exists_padded_eq_cons 2 minutes
    have ne : c ≠ ':' := by
      rintro rfl
      cases digit
    rw [e]
    simp [ne, isBlank_of_isDigit digit]
  have first := twoDigits_padded (n := hours) (by omega)
  have second := twoDigits_padded (n := minutes) (by omega)
  have small : ¬ (59 < minutes ∨ (86400 : Int) ≤ hours * 3600 + minutes * 60) := by omega
  unfold offset
  simp only [Blank.skip_cons blank, List.take_succ_cons, List.map_cons, List.cons.injEq, upper,
    false_and, if_false, if_neg zone, if_pos signs, first, Option.bind_eq_bind, Option.bind_some,
    colon, second, if_neg small]
  rfl

theorem offset_offsetText {o : Int} (day : o.natAbs < 86400) (exact : o % 60 = 0)
    (rest : List Char) : offset (Time.offsetText o ++ rest) = some (o, rest) := by
  unfold Time.offsetText
  split
  · next zero =>
    rw [zero]
    rfl
  · have sign : (if o < 0 then '-' else '+') = '+' ∨ (if o < 0 then '-' else '+') = '-' := by
      split <;> decide
    have hours : (o.natAbs + 30) / 60 / 60 < 24 := by omega
    have minutes : (o.natAbs + 30) / 60 % 60 < 60 := by omega
    have read := offset_signed sign hours minutes rest
    have value : (if (if o < 0 then '-' else '+') = '+' then
        (((o.natAbs + 30) / 60 / 60 : Nat) * 3600 + ((o.natAbs + 30) / 60 % 60 : Nat) * 60 : Int)
        else -(((o.natAbs + 30) / 60 / 60 : Nat) * 3600 +
          ((o.natAbs + 30) / 60 % 60 : Nat) * 60 : Int)) = o := by
      by_cases neg : o < 0
      · rw [if_pos neg, if_neg (by decide)]
        omega
      · rw [if_neg neg, if_pos rfl]
        omega
    rw [value] at read
    simpa only [List.cons_append, List.append_assoc] using read

end Scan

/-! ## Times -/

namespace Time

variable {t : Time}

/-- A time whose text tells all of it: its year has four digits, its second is no leap second, and
its offset is one of whole minutes and of less than a day. -/
structure Exact (t : Time) : Prop where
  firstYear : 0 ≤ t.date.year
  lastYear : t.date.year ≤ 9999
  nanos : t.nanos < 10 ^ 9
  day : t.offset.natAbs < 86400
  minutes : t.offset % 60 = 0

theorem secondOfDay_lt (t : Time) : t.secondOfDay < 86400 := by
  unfold secondOfDay perDay
  omega

theorem Exact.valid_date (h : t.Exact) : t.date.Valid :=
  Date.valid_ofDayNumber (Int.le_trans (by decide) h.firstYear)
    (Int.le_trans h.lastYear (by decide))

/-- A time is the one at which its clock shows its date and its second. -/
theorem Exact.ofLocal?_eq_some (h : t.Exact) :
    ofLocal? t.date t.secondOfDay t.nanos t.offset = some t := by
  have instant : t.date.dayNumber * perDay + t.secondOfDay - t.offset = t.instant := by
    rw [date, Date.dayNumber_ofDayNumber, secondOfDay]
    unfold perDay
    omega
  have year : Date.firstYear ≤ t.utcDate.year ∧ t.utcDate.year ≤ Date.lastYear := by
    refine Date.year_of_near ?_ h.firstYear h.lastYear
    have := h.day
    simp only [atOffset, perDay]
    omega
  rw [ofLocal?, instant]
  exact if_pos year

theorem head?_offsetText (o : Int) :
    ∃ c, (offsetText o).head? = some c ∧ (c = 'Z' ∨ c = '+' ∨ c = '-') := by
  unfold offsetText
  split
  · exact ⟨'Z', rfl, .inl rfl⟩
  · refine ⟨if o < 0 then '-' else '+', rfl, ?_⟩
    split
    · exact .inr (.inr rfl)
    · exact .inr (.inl rfl)

/-- **The text of a time reads back.** -/
theorem Exact.read?_text (h : t.Exact) : Time.read? t.text = some t := by
  have day := t.secondOfDay_lt
  have date := Scan.date_chars h.valid_date h.firstYear h.lastYear
  have hour := Scan.number_padded (w := 2) (n := t.secondOfDay / 3600) (by decide) (by omega)
  have minute := Scan.number_padded (w := 2) (n := t.secondOfDay / 60 % 60) (by decide) (by omega)
  have second := Scan.number_padded (w := 2) (n := t.secondOfDay % 60) (by decide) (by omega)
  have offset : Scan.offset (offsetText t.offset) = some (t.offset, []) := by
    simpa using Scan.offset_offsetText h.day h.minutes []
  have fraction : Scan.fraction (fractionText t.nanos ++ offsetText t.offset) =
      some (t.nanos, offsetText t.offset) := by
    obtain ⟨c, head, hc⟩ := head?_offsetText t.offset
    refine Scan.fraction_fractionText h.nanos (fun d hd => ?_) ?_
    · obtain rfl : c = d := Option.some.inj (head.symm.trans hd)
      rcases hc with rfl | rfl | rfl <;> decide
    · rw [head]
      rcases hc with rfl | rfl | rfl <;> decide
  have nanos : t.nanos / 1000000000 = 0 ∧ t.nanos % 1000000000 = t.nanos := by
    have := h.nanos
    omega
  have bounds : ¬ ((!(Blank.skip []).isEmpty) = true ∨ 23 < t.secondOfDay / 3600 ∨
      59 < t.secondOfDay / 60 % 60 ∨ 60 < t.secondOfDay % 60) := by
    refine not_or.mpr ⟨by decide, ?_⟩
    omega
  have sixty : ¬ t.secondOfDay % 60 = 60 := by omega
  have clock : t.secondOfDay / 3600 * 3600 + t.secondOfDay / 60 % 60 * 60 + t.secondOfDay % 60 =
      t.secondOfDay := by omega
  have colon : isBlank ':' = false := by decide
  unfold Time.read? Time.text
  simp only [String.toList_ofList, nanos, Nat.add_zero, List.append_assoc, List.cons_append, date,
    hour, minute, second, fraction, offset, Scan.symbol_cons colon, Option.bind_eq_bind,
    Option.bind_some, true_or, if_true, if_neg bounds, if_neg sixty, clock, h.ofLocal?_eq_some]

end Time

end Docket
