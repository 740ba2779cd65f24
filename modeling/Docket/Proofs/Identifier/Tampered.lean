import Docket.Proofs.Desk.Marks
import Docket.Proofs.Issue.Outcomes

/-!
# Tampering with a daily invoice ID

A daily invoice ID ends in the digit of the sum of the others. A single character that is replaced
changes the sum, unless it has the same value: a letter in the other case.

* `Checked.replaced`, **`Checked.verify_replaced_iff`**: when a replaced character goes unnoticed;
* **`Checked.detects_replaced`**: what is written verifies, and a replaced character is noticed.
-/

namespace Docket.Checked

variable {id : String} {body cs : List Char} {c d last : Char} {k n start total : Nat}

/-! ## Digits -/

theorem value?_cases (h : value? c = some n) :
    (48 ≤ c.toNat ∧ c.toNat ≤ 57 ∧ n = c.toNat - 48) ∨
      (65 ≤ c.toNat ∧ c.toNat ≤ 90 ∧ n = c.toNat - 65 + 10) ∨
      (97 ≤ c.toNat ∧ c.toNat ≤ 122 ∧ n = c.toNat - 97 + 10) := by
  unfold value? at h
  split_ifs at h with digit upper lower
  · have range := Decimal.toNat_of_isDigit digit
    exact .inl ⟨range.1, range.2, (Option.some.inj h).symm⟩
  · have range : 65 ≤ c.toNat ∧ c.toNat ≤ 90 := by
      simpa [Char.isUpper, UInt32.le_iff_toNat_le] using upper
    exact .inr (.inl ⟨range.1, range.2, (Option.some.inj h).symm⟩)
  · have range : 97 ≤ c.toNat ∧ c.toNat ≤ 122 := by
      simpa [Char.isLower, UInt32.le_iff_toNat_le] using lower
    exact .inr (.inr ⟨range.1, range.2, (Option.some.inj h).symm⟩)

theorem value?_lt (h : value? c = some n) : n < radix := by
  have := value?_cases h
  unfold radix
  omega

theorem value?_digit (h : n < radix) : value? (digit n) = some n := by
  revert h n
  decide

theorem eq_of_value? (digit : c.isDigit = true) (h : value? d = value? c) : d = c := by
  have range := Decimal.toNat_of_isDigit digit
  have value : value? c = some (c.toNat - 48) := if_pos digit
  have := value?_cases (h.trans value)
  exact Char.toNat_inj.mp (by omega)

/-! ## The sum -/

/-- The sum of the digits of a text. -/
def weight (cs : List Char) : Nat := (cs.map fun c => (value? c).getD 0).sum

theorem sum_eq_ok_iff (lt : start < radix) : sum start cs = .ok total ↔
    (∀ c ∈ cs, (value? c).isSome) ∧ total = (start + weight cs) % radix := by
  induction cs generalizing start with
  | nil =>
    simp only [sum, weight, List.map_nil, List.sum_nil, Nat.add_zero, Nat.mod_eq_of_lt lt]
    simpa using eq_comm
  | cons c cs ih =>
    cases value : value? c with
    | none => simp [sum, value]
    | some v =>
      have next : (start + v) % radix < radix := Nat.mod_lt _ (by decide)
      simp [sum, value, ih next, weight, Nat.add_assoc]

theorem weight_set (h : k < cs.length) (c : Char) :
    weight (cs.set k c) + (value? cs[k]).getD 0 = weight cs + (value? c).getD 0 := by
  induction cs generalizing k with
  | nil => simp at h
  | cons d cs ih =>
    cases k with
    | zero =>
      simp [weight]
      omega
    | succ k =>
      have := ih (Nat.lt_of_succ_lt_succ h)
      simp [weight] at this ⊢
      omega

/-! ## One character replaced -/

def replaced (id : String) (k : Nat) (c : Char) : String := String.ofList (id.toList.set k c)

/-- **A text verifies** exactly if it has a body of digits and ends in the digit of their sum. -/
theorem verify_eq_true_iff (h : id.toList = body ++ [last]) : verify id = true ↔
    body ≠ [] ∧ (∀ c ∈ body, (value? c).isSome) ∧ last = digit (weight body % radix) := by
  have pos : 0 < radix := by decide
  have sums : verify id = true ↔ body ≠ [] ∧ ∃ n, sum 0 body = .ok n ∧ last = digit n := by
    unfold verify
    rw [h, List.dropLast_concat, List.getLast?_concat]
    cases e : sum 0 body <;> simp [e]
  simp only [sums, sum_eq_ok_iff pos, Nat.zero_add, and_assoc, exists_and_left, exists_eq_left]

theorem exists_of_verify (h : verify id = true) : ∃ body last, id.toList = body ++ [last] := by
  obtain empty | ⟨body, last, split⟩ := id.toList.eq_nil_or_concat'
  · simp [verify, empty] at h
  · exact ⟨body, last, split⟩

theorem isSome_of_verify (h : verify id = true) : ∀ c ∈ id.toList, (value? c).isSome := by
  obtain ⟨body, last, split⟩ := exists_of_verify h
  obtain ⟨-, digits, check⟩ := (verify_eq_true_iff split).mp h
  have value : value? last = some (weight body % radix) := by
    rw [check]
    exact value?_digit (Nat.mod_lt _ (by decide))
  rw [split]
  exact List.forall_mem_append.mpr ⟨digits, List.forall_mem_singleton.mpr (by simp [value])⟩

/-- A replaced digit of the body goes unnoticed exactly if it has the same value. -/
theorem verify_replaced_body (split : id.toList = body ++ [last]) (h : verify id = true)
    (hk : k < body.length) (c : Char) :
    verify (replaced id k c) = true ↔ value? c = value? body[k] := by
  obtain ⟨ne, digits, check⟩ := (verify_eq_true_iff split).mp h
  have split' : (replaced id k c).toList = body.set k c ++ [last] := by
    rw [replaced, String.toList_ofList, split, List.set_append_left _ _ hk]
  rw [verify_eq_true_iff split']
  obtain ⟨old, value⟩ := Option.isSome_iff_exists.mp (digits _ (List.getElem_mem hk))
  have sum := weight_set hk c
  rw [value] at sum ⊢
  constructor
  · rintro ⟨-, digits', check'⟩
    obtain ⟨new, value'⟩ := Option.isSome_iff_exists.mp (digits' c (List.mem_set hk c))
    have same := congrArg value? (check.symm.trans check')
    have lt := value?_lt value
    have lt' := value?_lt value'
    have small (n : Nat) : n % radix < radix := Nat.mod_lt _ (by decide)
    rw [value?_digit (small _), value?_digit (small _)] at same
    simp only [value', Option.getD_some, radix, Option.some.injEq] at *
    omega
  · intro value'
    have same : weight (body.set k c) = weight body := by
      simpa [value'] using sum
    refine ⟨by simpa using ne, fun b hb => ?_, same ▸ check⟩
    obtain hb | rfl := List.mem_or_eq_of_mem_set hb
    · exact digits b hb
    · rw [value']
      rfl

/-- **A replaced character goes unnoticed** exactly if it is no other, or a digit of the body that
has the same value. -/
theorem verify_replaced_iff (h : verify id = true) (hk : k < id.toList.length) (c : Char) :
    verify (replaced id k c) = true ↔
      c = id.toList[k] ∨ k + 1 < id.toList.length ∧ value? c = value? id.toList[k] := by
  obtain ⟨body, last, split⟩ := exists_of_verify h
  have length : id.toList.length = body.length + 1 := by simp [split]
  obtain hk' | rfl := Nat.lt_succ_iff_lt_or_eq.mp (length ▸ hk)
  · have old : id.toList[k] = body[k] := by simp [split, hk']
    rw [verify_replaced_body split h hk', old]
    constructor
    · exact fun same => .inr ⟨by omega, same⟩
    · rintro (rfl | ⟨-, same⟩)
      · rfl
      · exact same
  · have old : id.toList[body.length] = last := by simp [split]
    have split' : (replaced id body.length c).toList = body ++ [c] := by
      rw [replaced, String.toList_ofList, split]
      simp
    obtain ⟨ne, digits, check⟩ := (verify_eq_true_iff split).mp h
    rw [verify_eq_true_iff split', old, length, ← check]
    simpa [ne] using fun _ => digits

/-- A letter in the other case. -/
example : verify "A1B" = true ∧ verify (replaced "A1B" 0 'a') = true := by decide

theorem verify_replaced_of_ne (h : verify id = true) (hk : k < id.toList.length)
    (other : value? c ≠ value? id.toList[k] ∨ value? c = none) :
    verify (replaced id k c) = false := by
  rw [Bool.eq_false_iff, ne_eq, verify_replaced_iff h hk]
  intro unnoticed
  have same : value? c = value? id.toList[k] := by
    obtain rfl | ⟨-, same⟩ := unnoticed
    · rfl
    · exact same
  obtain ne | none := other
  · exact ne same
  · have old := isSome_of_verify h _ (List.getElem_mem hk)
    rw [← same, none] at old
    cases old

/-! ## What is issued -/

theorem exists_of_written {s : DailySettings} (h : (Series.daily s).Written id) :
    verify id = true ∧ ∃ body last, id.toList = body ++ [last] ∧
      ∀ c ∈ body, c.isDigit = true := by
  obtain ⟨now, a, words, key, written⟩ := h
  rw [Series.format, key, Series.dailyDate?_key] at written
  obtain ⟨-, -, -, total, -, rfl⟩ := format_eq_ok_iff.mp written
  refine ⟨verify_of_format written, _, _, String.toList_push _, ?_⟩
  intro c hc
  exact isDigit_of_mem_body (Date.isDayStamp_dayKey _) hc

/-- In what the daily series writes, no other character goes unnoticed. -/
theorem verify_replaced_of_written {s : DailySettings} (h : (Series.daily s).Written id)
    (hk : k < id.toList.length) (ne : c ≠ id.toList[k]) : verify (replaced id k c) = false := by
  obtain ⟨verified, body, last, split, digits⟩ := exists_of_written h
  rw [Bool.eq_false_iff, ne_eq, verify_replaced_iff verified hk]
  rintro (e | ⟨inner, same⟩)
  · exact ne e
  · have inner : k < body.length := by
      rw [split, List.length_append, List.length_singleton] at inner
      omega
    have digit : id.toList[k].isDigit = true := by
      simp only [split, List.getElem_append_left inner]
      exact digits _ (List.getElem_mem inner)
    exact ne (eq_of_value? digit same)

/-- **Check characters** verify what they are written with, and tell if one character is replaced by
one of another value or by one of none. In what the daily series issues they tell any two characters
apart. -/
theorem detects_replaced :
    (∀ key sequence width id, format key sequence width = .ok id → verify id = true) ∧
    (∀ id k c, verify id = true → ∀ hk : k < id.toList.length,
      value? c ≠ value? id.toList[k] ∨ value? c = none → verify (replaced id k c) = false) ∧
    ∀ s id, (Series.daily s).MayIssue id → verify id = true ∧
      ∀ k c, ∀ hk : k < id.toList.length, c ≠ id.toList[k] → verify (replaced id k c) = false := by
  refine ⟨?_, ?_, ?_⟩
  · intro key sequence width id h
    exact verify_of_format h
  · intro id k c h hk other
    exact verify_replaced_of_ne h hk other
  · intro s id issued
    refine ⟨(exists_of_written issued.written).1, ?_⟩
    intro k c hk ne
    exact verify_replaced_of_written issued.written hk ne

/-- The first daily invoice ID of a day, with a digit or the check character replaced. -/
theorem detects_replaced_first :
    format "250314" 1 4 = .ok "2503140001G" ∧ verify "2503140001G" = true ∧
      verify (replaced "2503140001G" 3 'z') = false ∧
      (Series.daily {}).MayIssue "2503140001G" ∧
      verify (replaced "2503140001G" 10 'g') = false := by
  have written : format "250314" 1 4 = .ok "2503140001G" := by cbv
  obtain ⟨verifies, noticed, issues⟩ := detects_replaced
  have verified := verifies _ _ _ _ written
  have run : ∃ w, ((Series.daily {}).issueOne {}).run World.blank =
      (.finished (.ok "2503140001G"), w) := ⟨_, by cbv⟩
  obtain ⟨w, run⟩ := run
  have issued : (Series.daily {}).MayIssue "2503140001G" := .alone (Plan.mayGive_of_run run)
  exact ⟨written, verified, noticed _ 3 'z' verified (by decide) (by decide), issued,
    (issues _ _ issued).2 10 'g' (by decide) (by decide)⟩

end Docket.Checked
