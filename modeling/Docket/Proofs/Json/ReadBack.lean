import Docket.Json.Reader
import Docket.Json.Writer
import Mathlib.Data.List.Basic

/-!
# JSON read back

What is written over several lines is read as the value that it was written from.

* **`Json.parse?_pretty`**: a whole text reads back.
-/

namespace Docket.Json

variable {j : Json} {cs rest : List Char} {n depth : Nat}

/-- A value whose text tells all of it. -/
inductive Plain : Json → Prop
  | null : Plain .null
  | bool (b : Bool) : Plain (.bool b)
  | nat (n : Nat) : Plain (.nat n)
  | str (s : String) : Plain (.str s)
  | arr {items : List Json} (all : ∀ j ∈ items, Plain j) : Plain (.arr items)
  | obj {members : List (String × Json)} (all : ∀ m ∈ members, Plain m.2) : Plain (.obj members)

/-! ## Strings -/

def piece (c : Char) : Piece :=
  if c = '"' ∨ c = '\\' ∨ 0x20 ≤ c.toNat ∨ c ∈ ['\x08', '\t', '\n', '\x0c', '\r'] then .char c
  else .unit c.toNat

theorem hex4?_hexDigit : ∀ n < 0x20, hex4? '0' '0' (hexDigit (n / 16)) (hexDigit (n % 16)) =
    some n := by
  decide

theorem escape_cases (c : Char) :
    (∃ e, escaped? e = some c ∧ escape c = ['\\', e] ∧ piece c = .char c) ∨
    (c ≠ '"' ∧ c ≠ '\\' ∧ 0x20 ≤ c.toNat ∧ escape c = [c] ∧ piece c = .char c) ∨
    (c.toNat < 0x20 ∧ piece c = .unit c.toNat ∧
      escape c = ['\\', 'u', '0', '0', hexDigit (c.toNat / 16), hexDigit (c.toNat % 16)]) := by
  by_cases quote : c = '"'
  · exact .inl ⟨'"', by subst quote; decide⟩
  by_cases slash : c = '\\'
  · exact .inl ⟨'\\', by subst slash; decide⟩
  by_cases large : 0x20 ≤ c.toNat
  · exact .inr (.inl ⟨quote, slash, large, by simp [escape, quote, slash, large],
      by simp [piece, large]⟩)
  by_cases short : c ∈ ['\x08', '\t', '\n', '\x0c', '\r']
  · simp only [List.mem_cons, List.not_mem_nil, or_false] at short
    rcases short with rfl | rfl | rfl | rfl | rfl
    · exact .inl ⟨'b', by decide⟩
    · exact .inl ⟨'t', by decide⟩
    · exact .inl ⟨'n', by decide⟩
    · exact .inl ⟨'f', by decide⟩
    · exact .inl ⟨'r', by decide⟩
  · refine .inr (.inr ⟨by omega, by simp only [piece, quote, slash, large, short]; rfl, ?_⟩)
    simp only [List.mem_cons, List.not_mem_nil, or_false, not_or] at short
    simp [escape, quote, slash, large, short]

theorem readPieces_escape (c : Char) (r : List Char) :
    readPieces (escape c ++ r) = (readPieces r).map fun (ps, r) => (piece c :: ps, r) := by
  rcases escape_cases c with ⟨e, escaped, written, said⟩ | ⟨quote, slash, large, written, said⟩ |
    ⟨small, said, written⟩ <;> rw [written, said]
  · have ne : e ≠ 'u' := by
      rintro rfl
      cases escaped
    show readPieces ('\\' :: e :: r) = _
    rw [readPieces.eq_4 e r fun _ _ _ _ _ h _ => ne h, escaped]
    cases readPieces r <;> rfl
  · show readPieces (c :: r) = _
    rw [readPieces.eq_5 c r quote (fun _ _ _ _ _ h _ => slash h) fun _ _ h _ => slash h,
      if_neg (by omega)]
    cases readPieces r <;> rfl
  · show readPieces ('\\' :: 'u' :: '0' :: '0' :: _ :: _ :: r) = _
    rw [readPieces.eq_3, hex4?_hexDigit _ small]
    cases readPieces r <;> rfl

theorem readPieces_flatMap (cs rest : List Char) :
    readPieces (cs.flatMap escape ++ '"' :: rest) = some (cs.map piece, rest) := by
  induction cs with
  | nil => exact readPieces.eq_2 rest
  | cons c cs ih =>
    rw [List.flatMap_cons, List.append_assoc, readPieces_escape, ih]
    rfl

theorem joinPieces_unit {u : Nat} (small : u < 0xd800) (ps : List Piece) :
    joinPieces (.unit u :: ps) = (joinPieces ps).map (Char.ofNat u :: ·) := by
  match ps with
  | [] | .char _ :: _ => rw [joinPieces.eq_4 _ _ (fun _ _ e => by cases e), if_neg (by omega)]
  | .unit v :: ps => rw [joinPieces.eq_3, if_neg (by omega), if_neg (by omega)]

theorem joinPieces_map (cs : List Char) : joinPieces (cs.map piece) = some cs := by
  induction cs with
  | nil => rfl
  | cons c cs ih =>
    rw [List.map_cons]
    rcases escape_cases c with ⟨-, -, -, said⟩ | ⟨-, -, -, -, said⟩ | ⟨small, said, -⟩ <;> rw [said]
    · rw [joinPieces.eq_2, ih]
      rfl
    · rw [joinPieces.eq_2, ih]
      rfl
    · rw [joinPieces_unit (by omega), ih, Char.ofNat_toNat]
      rfl

theorem readString_escape (s : String) (rest : List Char) :
    readString (s.toList.flatMap escape ++ '"' :: rest) = some (some s, rest) := by
  rw [readString, readPieces_flatMap, Option.map_some]
  show some ((joinPieces (s.toList.map piece)).map String.ofList, rest) = _
  rw [joinPieces_map, Option.map_some, String.ofList_toList]

/-! ## Numbers -/

/-- A text that a number in front of it does not go on with. -/
def Stops (rest : List Char) : Prop :=
  ∀ c, rest.head? = some c → c.isDigit = false ∧ c ≠ '.' ∧ c ≠ 'e' ∧ c ≠ 'E'

theorem Stops.digitRun (h : Stops rest) (all : ∀ c ∈ cs, c.isDigit = true) :
    digitRun (cs ++ rest) = (cs, rest) :=
  Prod.ext (Decimal.takeWhile_isDigit_append all fun c hc => (h c hc).1)
    (Decimal.dropWhile_isDigit_append all fun c hc => (h c hc).1)

theorem Stops.readFraction (h : Stops rest) : readFraction rest = some ([], rest) := by
  unfold Json.readFraction
  split
  · next r => exact absurd rfl (h '.' rfl).2.1
  · rfl

theorem Stops.readExponent (h : Stops rest) : readExponent rest = some ([], rest) := by
  cases rest with
  | nil => rfl
  | cons c r =>
    have ne : ¬ (c = 'e' ∨ c = 'E') := not_or.mpr (h c rfl).2.2
    simp only [Json.readExponent, if_neg ne]

theorem exists_digits_eq_cons (pos : 0 < n) : ∃ c r, Decimal.digits n = c :: r ∧ c ≠ '0' := by
  induction n using Nat.strongRecOn with
  | ind n ih =>
    by_cases lt : n < 10
    · have ne : ∀ n < 10, 0 < n → n.digitChar ≠ '0' := by decide
      exact ⟨n.digitChar, [], Nat.toDigits_of_lt_base lt, ne n lt pos⟩
    · obtain ⟨c, r, hc, ne⟩ := ih (n / 10) (by omega) (by omega)
      have split : Decimal.digits n = Decimal.digits (n / 10) ++ [(n % 10).digitChar] :=
        Nat.toDigits_of_base_le (by decide) (by omega)
      exact ⟨c, r ++ [(n % 10).digitChar], by rw [split, hc, List.cons_append], ne⟩

theorem Stops.readWhole (h : Stops rest) (n : Nat) :
    readWhole (Decimal.digits n ++ rest) = some (Decimal.digits n, rest) := by
  rcases Nat.eq_zero_or_pos n with rfl | pos
  · rfl
  · have digit : ∀ c ∈ Decimal.digits n, c.isDigit = true := fun c =>
      Decimal.isDigit_of_mem_digits
    have run := h.digitRun digit
    obtain ⟨c, r, hc, ne⟩ := exists_digits_eq_cons pos
    rw [hc] at run digit ⊢
    rw [List.cons_append] at run ⊢
    unfold Json.readWhole
    split
    · next e => exact absurd (List.cons.inj e).1 ne
    · next e =>
      obtain ⟨rfl, rfl⟩ := List.cons.inj e
      rw [if_pos (digit c List.mem_cons_self), run]
    · next e => cases e

theorem Stops.readNumber (h : Stops rest) (n : Nat) :
    readNumber (Decimal.digits n ++ rest) = some (.nat n, rest) := by
  have whole := h.readWhole n
  have value : Nat.ofDigitChars 10 (Decimal.digits n) 0 = n :=
    Nat.ofDigitChars_toDigits (by decide) (by decide)
  -- No digit is taken for a sign.
  have unsigned : ∀ r, Decimal.digits n ++ rest ≠ '-' :: r := by
    intro r e
    have digit : ∀ c ∈ Decimal.digits n, c.isDigit = true := fun c =>
      Decimal.isDigit_of_mem_digits
    have pos : 0 < (Decimal.digits n).length := Decimal.width_pos n
    cases hd : Decimal.digits n with
    | nil => rw [hd] at pos; cases pos
    | cons c cs =>
      rw [hd] at e digit
      obtain rfl : c = '-' := (List.cons.inj e).1
      exact absurd (digit _ List.mem_cons_self) (by decide)
  unfold Json.readNumber
  split
  next s r e =>
    split at e
    · next signed => exact absurd signed (unsigned _)
    · obtain ⟨rfl, rfl⟩ := Prod.mk.inj e
      simp only [whole, h.readFraction, h.readExponent, value, Bind.bind, Option.bind]
      rfl

/-! ## Blanks -/

theorem skip_of_not_space {c : Char} (h : isSpace c = false) : skip (c :: cs) = c :: cs := by
  rw [skip, List.dropWhile_cons, if_neg (by simp [h])]

theorem skip_space {c : Char} (h : isSpace c = true) : skip (c :: cs) = skip cs := by
  rw [skip, List.dropWhile_cons, if_pos h, skip]

theorem skip_newline (depth : Nat) (cs : List Char) : skip (newline depth ++ cs) = skip cs := by
  have spaces : ∀ k, skip (List.replicate k ' ' ++ cs) = skip cs := by
    intro k
    induction k with
    | zero => rfl
    | succ k ih => rw [List.replicate_succ, List.cons_append, skip_space rfl, ih]
  rw [newline, List.cons_append, skip_space rfl, spaces]

/-! ## Values -/

/-- A text that starts with no blank and does not close an array. -/
def Starts (cs : List Char) : Prop := ∃ c r, cs = c :: r ∧ isSpace c = false ∧ c ≠ ']'

theorem Starts.skip (h : Starts cs) (rest : List Char) : skip (cs ++ rest) = cs ++ rest := by
  obtain ⟨c, r, rfl, space, -⟩ := h
  exact skip_of_not_space space

theorem Starts.length_pos (h : Starts cs) : 0 < cs.length := by
  obtain ⟨c, r, rfl, -⟩ := h
  exact Nat.succ_pos _

theorem starts_digits (n : Nat) : Starts (Decimal.digits n) := by
  have digit : ∀ c ∈ Decimal.digits n, c.isDigit = true := fun c => Decimal.isDigit_of_mem_digits
  have pos : 0 < (Decimal.digits n).length := Decimal.width_pos n
  cases hd : Decimal.digits n with
  | nil => rw [hd] at pos; cases pos
  | cons c r =>
    have isDigit : c.isDigit = true := digit c (hd ▸ List.mem_cons_self)
    refine ⟨c, r, rfl, ?_, ?_⟩
    · unfold isSpace
      by_contra space
      simp only [Bool.not_eq_false, Bool.or_eq_true, beq_iff_eq] at space
      rcases space with ((rfl | rfl) | rfl) | rfl <;> exact absurd isDigit (by decide)
    · rintro rfl
      exact absurd isDigit (by decide)

theorem Plain.starts (h : Plain j) (depth : Nat) : Starts (prettyChars depth j) := by
  cases h with
  | null => exact ⟨'n', _, rfl, rfl, by decide⟩
  | bool b => cases b <;> exact ⟨_, _, rfl, rfl, by decide⟩
  | nat n => exact starts_digits n
  | str s => exact ⟨'"', _, rfl, rfl, by decide⟩
  | @arr items => cases items <;> exact ⟨'[', _, rfl, rfl, by decide⟩
  | @obj members => cases members <;> exact ⟨'{', _, rfl, rfl, by decide⟩

/-- A value reads back in front of anything that does not go on with it. -/
def Reads (j : Json) : Prop :=
  ∀ n depth rest, (prettyChars depth j).length ≤ n → Stops rest →
    readValue n (prettyChars depth j ++ rest) = some (j, rest)

theorem stops_cons {c : Char} (h : c = ',' ∨ c = '\n') (r : List Char) : Stops (c :: r) := by
  intro c' hc
  obtain rfl : c = c' := Option.some.inj hc
  rcases h with rfl | rfl <;> decide

theorem stops_prettyItems (items : List Json) (rest : List Char) :
    Stops (prettyItems depth items ++ rest) := by
  cases items with
  | nil => exact stops_cons (.inr rfl) _
  | cons item items => exact stops_cons (.inl rfl) _

theorem stops_prettyMembers (members : List (String × Json)) (rest : List Char) :
    Stops (prettyMembers depth members ++ rest) := by
  cases members with
  | nil => exact stops_cons (.inr rfl) _
  | cons m members => exact stops_cons (.inl rfl) _

/-- The items of an array read back. Every item and its comma take one unit of the reader's fuel,
which is no more than the characters they are written with. -/
theorem readItems_pretty {item : Json} {items : List Json}
    (all : ∀ j ∈ item :: items, Plain j ∧ Reads j)
    (le : (prettyChars (depth + 1) item ++ prettyItems depth items).length ≤ n)
    (rest : List Char) :
    readItems n (prettyChars (depth + 1) item ++ (prettyItems depth items ++ rest)) =
      some (item :: items, rest) := by
  induction items generalizing item n with
  | nil =>
    obtain ⟨plain, reads⟩ := all item List.mem_cons_self
    have pos := (plain.starts (depth + 1)).length_pos
    simp only [prettyItems, newline, List.length_append, List.length_cons, List.length_nil] at le
    obtain ⟨n, rfl⟩ := Nat.exists_eq_succ_of_ne_zero (show n ≠ 0 by omega)
    have value := reads n (depth + 1) (prettyItems depth [] ++ rest) (by omega)
      (stops_prettyItems [] rest)
    have close : skip (prettyItems depth [] ++ rest) = ']' :: rest := by
      rw [prettyItems, List.append_assoc, skip_newline]
      exact skip_of_not_space rfl
    rw [readItems.eq_2, value]
    simp only [Option.bind_eq_bind, Option.bind_some, close]
    rfl
  | cons next items ih =>
    obtain ⟨plain, reads⟩ := all item List.mem_cons_self
    have starts := (all next (by simp)).1.starts (depth + 1)
    have pos := (plain.starts (depth + 1)).length_pos
    simp only [prettyItems, List.length_append, List.length_cons] at le
    obtain ⟨n, rfl⟩ := Nat.exists_eq_succ_of_ne_zero (show n ≠ 0 by omega)
    have value := reads n (depth + 1) (prettyItems depth (next :: items) ++ rest) (by omega)
      (stops_prettyItems (next :: items) rest)
    have comma : skip (prettyItems depth (next :: items) ++ rest) =
        ',' :: (newline (depth + 1) ++ (prettyChars (depth + 1) next ++
          (prettyItems depth items ++ rest))) := by
      rw [prettyItems, List.cons_append, skip_of_not_space rfl, List.append_assoc, List.append_assoc]
    have others := ih (fun j hj => all j (List.mem_cons_of_mem _ hj)) (n := n) (by
      rw [List.length_append]; omega)
    rw [readItems.eq_2, value]
    simp only [Option.bind_eq_bind, Option.bind_some, comma, skip_newline, starts.skip, others]
    rfl

theorem readMembers_pretty {m : String × Json} {members : List (String × Json)}
    (all : ∀ m' ∈ m :: members, Plain m'.2 ∧ Reads m'.2)
    (le : (prettyChars (depth + 1) m.2).length + (prettyMembers depth members).length + 1 ≤ n)
    (rest : List Char) :
    readMembers n (quoted m.1 ++ ':' :: ' ' :: (prettyChars (depth + 1) m.2 ++
      (prettyMembers depth members ++ rest))) =
      some ((m :: members).map fun m => (some m.1, m.2), rest) := by
  obtain ⟨n, rfl⟩ := Nat.exists_eq_succ_of_ne_zero (show n ≠ 0 by omega)
  induction members generalizing m n with
  | nil =>
    obtain ⟨plain, reads⟩ := all m List.mem_cons_self
    have value := reads n (depth + 1) (prettyMembers depth [] ++ rest) (by omega)
      (stops_prettyMembers [] rest)
    have close : skip (prettyMembers depth [] ++ rest) = '}' :: rest := by
      rw [prettyMembers, List.append_assoc, skip_newline]
      exact skip_of_not_space rfl
    rw [quoted, List.cons_append, List.append_assoc, readMembers.eq_3, if_neg (by simp)]
    simp only [List.singleton_append, readString_escape, Option.bind_eq_bind, Option.bind_some,
      skip_of_not_space (show isSpace ':' = false from rfl),
      skip_space (show isSpace ' ' = true from rfl), (plain.starts (depth + 1)).skip, value, close]
    rfl
  | cons next members ih =>
    obtain ⟨plain, reads⟩ := all m List.mem_cons_self
    have pos := ((all next (by simp)).1.starts (depth + 1)).length_pos
    simp only [prettyMembers, List.length_append, List.length_cons] at le
    obtain ⟨n, rfl⟩ := Nat.exists_eq_succ_of_ne_zero (show n ≠ 0 by omega)
    have value := reads (n + 1) (depth + 1) (prettyMembers depth (next :: members) ++ rest)
      (by omega) (stops_prettyMembers (next :: members) rest)
    have comma : skip (prettyMembers depth (next :: members) ++ rest) =
        ',' :: (newline (depth + 1) ++ (quoted next.1 ++ ':' :: ' ' ::
          (prettyChars (depth + 1) next.2 ++ (prettyMembers depth members ++ rest)))) := by
      rw [prettyMembers, List.cons_append, skip_of_not_space rfl]
      simp only [List.append_assoc, List.cons_append]
    have quote : skip (quoted next.1 ++ ':' :: ' ' :: (prettyChars (depth + 1) next.2 ++
        (prettyMembers depth members ++ rest))) = quoted next.1 ++ ':' :: ' ' ::
          (prettyChars (depth + 1) next.2 ++ (prettyMembers depth members ++ rest)) :=
      skip_of_not_space rfl
    have others := ih (fun m' hm => all m' (List.mem_cons_of_mem _ hm)) n (by omega)
    rw [quoted, List.cons_append, List.append_assoc, readMembers.eq_3, if_neg (by simp)]
    simp only [List.singleton_append, readString_escape, Option.bind_eq_bind, Option.bind_some,
      skip_of_not_space (show isSpace ':' = false from rfl),
      skip_space (show isSpace ' ' = true from rfl), (plain.starts (depth + 1)).skip, value, comma,
      skip_newline, quote, others]
    rfl

theorem ofMembers_map (members : List (String × Json)) :
    ofMembers (members.map fun m => (some m.1, m.2)) = .obj members := by
  have all : (members.map fun m => (some m.1, m.2)).mapM
      (fun m : Option String × Json => m.1.map (·, m.2)) = some members := by
    induction members with
    | nil => rfl
    | cons m members ih => simp [List.mapM_cons, ih]
  rw [ofMembers, all]
  rfl

/-- A whole number is read where nothing else can start so. -/
theorem readValue_digits (n k : Nat) (rest : List Char) :
    readValue (n + 1) (Decimal.digits k ++ rest) = readNumber (Decimal.digits k ++ rest) := by
  obtain ⟨c, r, hc, -⟩ := starts_digits k
  have isDigit : c.isDigit = true := Decimal.isDigit_of_mem_digits (hc ▸ List.mem_cons_self)
  have other : ∀ d, d.isDigit = false → c ≠ d := fun d hd e => by
    rw [e, hd] at isDigit
    cases isDigit
  rw [hc, List.cons_append, readValue.eq_def]
  simp only
  split
  · exact absurd rfl (other '"' (by decide))
  · exact absurd rfl (other '[' (by decide))
  · exact absurd rfl (other '{' (by decide))
  · exact absurd rfl (other 'n' (by decide))
  · exact absurd rfl (other 't' (by decide))
  · exact absurd rfl (other 'f' (by decide))
  · rfl

theorem reads_of_succ (plain : Plain j) (h : ∀ n depth rest,
    (prettyChars depth j).length ≤ n + 1 → Stops rest →
      readValue (n + 1) (prettyChars depth j ++ rest) = some (j, rest)) : Reads j := by
  intro n depth rest le stops
  have pos := (plain.starts depth).length_pos
  obtain ⟨n, rfl⟩ := Nat.exists_eq_succ_of_ne_zero (show n ≠ 0 by omega)
  exact h n depth rest le stops

theorem reads_arr {item : Json} {items : List Json}
    (all : ∀ j ∈ item :: items, Plain j ∧ Reads j)
    (le : (prettyChars depth (.arr (item :: items))).length ≤ n + 1) :
    readValue (n + 1) (prettyChars depth (.arr (item :: items)) ++ rest) =
      some (.arr (item :: items), rest) := by
  simp only [prettyChars, List.length_cons, List.length_append] at le
  have short : (prettyChars (depth + 1) item ++ prettyItems depth items).length ≤ n := by
    rw [List.length_append]
    omega
  have items := readItems_pretty all short rest
  have starts := (all item List.mem_cons_self).1.starts (depth + 1)
  rw [prettyChars, List.cons_append, List.append_assoc, List.append_assoc, readValue.eq_4,
    skip_newline, starts.skip]
  obtain ⟨c, r, hc, -, ne⟩ := starts
  rw [hc, List.cons_append] at items ⊢
  split
  · next e => exact absurd (List.cons.inj e).1 ne
  · rw [items]
    rfl

theorem reads_obj {m : String × Json} {members : List (String × Json)}
    (all : ∀ m' ∈ m :: members, Plain m'.2 ∧ Reads m'.2)
    (le : (prettyChars depth (.obj (m :: members))).length ≤ n + 1) :
    readValue (n + 1) (prettyChars depth (.obj (m :: members)) ++ rest) =
      some (.obj (m :: members), rest) := by
  obtain ⟨name, value⟩ := m
  simp only [prettyChars, List.length_cons, List.length_append] at le
  have short : (prettyChars (depth + 1) value).length + (prettyMembers depth members).length + 1 ≤
      n := by
    omega
  have read := readMembers_pretty all short rest
  have text : prettyChars depth (.obj ((name, value) :: members)) ++ rest =
      '{' :: (newline (depth + 1) ++ (quoted name ++ ':' :: ' ' ::
        (prettyChars (depth + 1) value ++ (prettyMembers depth members ++ rest)))) := by
    simp only [prettyChars, List.cons_append, List.append_assoc]
  rw [text, readValue.eq_5, skip_newline]
  have quote : skip (quoted name ++ ':' :: ' ' :: (prettyChars (depth + 1) value ++
      (prettyMembers depth members ++ rest))) = quoted name ++ ':' :: ' ' ::
        (prettyChars (depth + 1) value ++ (prettyMembers depth members ++ rest)) :=
    skip_of_not_space rfl
  rw [quote]
  split
  · next e => cases (List.cons.inj e).1
  · rw [read, Option.map_some]
    exact congrArg (fun j => some (j, rest)) (ofMembers_map _)

/-- **A value reads back** in front of anything that does not go on with it. -/
theorem Plain.reads (h : Plain j) : Reads j := by
  induction h with
  | null => exact reads_of_succ .null fun _ _ _ _ _ => rfl
  | bool b => exact reads_of_succ (.bool b) fun _ _ _ _ _ => by cases b <;> rfl
  | nat k =>
    refine reads_of_succ (.nat k) fun n depth rest _ stops => ?_
    rw [prettyChars, readValue_digits, stops.readNumber]
  | str s =>
    refine reads_of_succ (.str s) fun n depth rest _ _ => ?_
    rw [prettyChars, quoted, List.cons_append, List.append_assoc, readValue.eq_3,
      List.singleton_append, readString_escape]
    rfl
  | @arr items all ih =>
    refine reads_of_succ (.arr all) fun n depth rest le _ => ?_
    cases items with
    | nil => rfl
    | cons item items => exact reads_arr (fun j hj => ⟨all j hj, ih j hj⟩) le
  | @obj members all ih =>
    refine reads_of_succ (.obj all) fun n depth rest le _ => ?_
    cases members with
    | nil => rfl
    | cons m members => exact reads_obj (fun m' hm => ⟨all m' hm, ih m' hm⟩) le

/-- **A whole text reads back.** -/
theorem parse?_pretty (h : Plain j) : parse? j.pretty = some j := by
  have read := h.reads ((prettyChars 0 j).length + 1) 0 [] (Nat.le_succ _) nofun
  have start : skip (prettyChars 0 j) = prettyChars 0 j := by
    simpa using (h.starts 0).skip []
  rw [List.append_nil] at read
  simp only [parse?, pretty, String.toList_ofList, start, read, Option.bind_eq_bind,
    Option.bind_some]
  rfl

end Docket.Json
