import Docket.Calendar.Span

/-!
# What can go wrong

* `LedgerError`: a failed call on the ledger; all kinds but `backend` are transient;
* `Refusal`: why an argument or a record cannot be used;
* `Error`: how issuing an identifier fails;
* `LedgerError.message`, `Refusal.message`, `Error.message`: the wording;
* `bind_eq_ok_iff`, `guard_eq_ok_iff`: when checks one after another let a result pass;
* `map_eq_ok_iff`, `exists_map_iff`, `exists_error_iff`: results that are told in another way.
-/

namespace Docket

/-- Why a ledger cannot carry out a call at all. -/
inductive Breakdown where
  /-- The call names a transaction of another ledger. -/
  | foreignTransaction
  /-- The counter cannot go further up. -/
  | overflowed (key : String)
  /-- The counter has reached its last sequence and has no digit to advance. -/
  | noDigitToRotate (key : String)
  | other (text : String)
deriving DecidableEq, Repr

/-- A failed call on the ledger. -/
inductive LedgerError where
  /-- Another writer got in between. -/
  | conflict (key : String)
  | timeout (after : Span)
  | unavailable (why : String)
  | backend (why : Breakdown)
deriving DecidableEq, Repr

/-- Why an argument or a record cannot be used. -/
inductive Refusal where
  | emptySegment (name : String)
  | dashInSegment (name value : String)
  | dashInSuffix (suffix : String)
  | paddingWidth (width : Nat)
  | tooWide (sequence width : Nat)
  | notBase36 (c : Char) (body : String)
  | notADigit (digit : Nat)
  | notARollNumber (text : String)
  | notAnInvoiceId (text : String)
  | alphabet (letters : String)
  | noDigit (key : String)
  | noPrefix (key : String)
  | otherCounter (key family : String)
  | startDigit (digit : Nat)
  | maxSequence (sequence : Nat)
  | emptyInvoiceBatch
  | noAttempts
  | rollMaxSequence
  | invoicePadding
  | dailyPadding
  | randomChars
  | counterName
  | dailyNamespace
  | emptyField (setting : String)
  | other (text : String)
deriving DecidableEq, Repr

/-- How issuing an identifier fails. -/
inductive Error where
  | invalid (why : Refusal)
  | ledger (error : LedgerError)
  /-- No attempt came through; `last` is the last transient failure. -/
  | exhausted (attempts : Nat) (last : Option LedgerError)
  | cancelled
deriving DecidableEq, Repr

/-! ## Wording -/

/-- The wording of a breakdown. -/
def Breakdown.message : Breakdown → String
  | .foreignTransaction => "transaction belongs to a different store"
  | .overflowed key => s!"counter `{key}` overflowed"
  | .noDigitToRotate key => s!"counter `{key}` has no digit to rotate"
  | .other text => text

/-- The wording of a failed call. -/
def LedgerError.message : LedgerError → String
  | .conflict key => s!"write conflict on counter `{key}`"
  | .timeout after => s!"store operation timed out after {after.text}"
  | .unavailable why => s!"store unavailable: {why}"
  | .backend why => s!"store error: {why.message}"

/-- The wording of a refusal. -/
def Refusal.message : Refusal → String
  | .emptySegment name => s!"{name} must not be empty"
  | .dashInSegment name value => s!"{name} `{value}` must not contain '-'"
  | .dashInSuffix suffix => s!"invoice suffix `{suffix}` must not contain '-'"
  | .paddingWidth width => s!"padding width {width} must be within 1..=20"
  | .tooWide sequence width => s!"sequence {sequence} does not fit in {width} digits"
  | .notBase36 c body => s!"`{c}` in `{body}` is not a base-36 digit"
  | .notADigit digit => s!"auxiliary digit {digit} is not a single decimal digit"
  | .notARollNumber text => s!"`{text}` is not a roll number"
  | .notAnInvoiceId text => s!"`{text}` is not an invoice ID"
  | .alphabet letters => s!"alphabet `{letters}` must be non-empty ASCII without '-'"
  | .noDigit key => s!"counter `{key}` carries no auxiliary digit"
  | .noPrefix key => s!"counter `{key}` carries no invoice prefix"
  | .otherCounter key family => s!"counter `{key}` is not a `{family}` counter"
  | .startDigit digit => s!"start digit {digit} is not a single decimal digit"
  | .maxSequence sequence => s!"max sequence {sequence} must be within 1..=99"
  | .emptyInvoiceBatch => "invoice batch size must be at least 1"
  | .noAttempts => "retry.max_attempts must be at least 1"
  | .rollMaxSequence => "roll.max_sequence must be within 1..=99"
  | .invoicePadding => "invoice.padding_width must be within 1..=20"
  | .dailyPadding => "daily_invoice.padding_width must be within 1..=20"
  | .randomChars => "invoice.random_chars must be at most 16"
  | .counterName => "invoice.counter_name must be non-empty and free of ':'"
  | .dailyNamespace => "daily_invoice.namespace must be non-empty and free of ':'"
  | .emptyField setting => s!"{setting} must not be empty"
  | .other text => text

/-- The wording of an error. -/
def Error.message : Error → String
  | .invalid why => s!"invalid argument: {why.message}"
  | .ledger error => error.message
  | .exhausted attempts none => s!"failed to generate a unique identifier after {attempts} attempts"
  | .exhausted attempts (some last) =>
    s!"failed to generate a unique identifier after {attempts} attempts" ++
      s!" (last error: {last.message})"
  | .cancelled => "identifier generation cancelled"

/-! ## Transience -/

/-- Whether the same call may succeed later. -/
def LedgerError.isTransient : LedgerError → Bool
  | .backend _ => false
  | _ => true

/-- Whether the error is a transient failure of the ledger. -/
def Error.isTransient : Error → Bool
  | .ledger error => error.isTransient
  | _ => false

/-! ## Checks one after another -/

section Checks

variable {ε α β : Type} {x : Except ε α} {f : α → Except ε β} {b : β}

theorem bind_eq_ok_iff : x >>= f = .ok b ↔ ∃ a, x = .ok a ∧ f a = .ok b := by
  cases x with
  | error e => exact ⟨nofun, nofun⟩
  | ok a => exact ⟨fun h => ⟨a, rfl, h⟩, fun ⟨_, e, h⟩ => Except.ok.inj e ▸ h⟩

/-- A result behind a guard that throws. -/
theorem guard_eq_ok_iff {c : Prop} [Decidable c] {e : ε} {y : Except ε β} :
    (if c then throw e >>= f else y) = .ok b ↔ ¬ c ∧ y = .ok b := by
  split
  · next h => exact ⟨nofun, fun h' => absurd h h'.1⟩
  · next h => exact ⟨fun h' => ⟨h, h'⟩, And.right⟩

theorem map_eq_ok_iff {f : α → β} : x.map f = .ok b ↔ ∃ a, x = .ok a ∧ f a = b := by
  cases x <;> simp [Except.map]

theorem exists_map_iff {f : α → β} : (∃ b, x.map f = .ok b) ↔ ∃ a, x = .ok a := by
  cases x <;> simp [Except.map]

/-- A result is an error exactly if it is not made. -/
theorem exists_error_iff : (∃ e, x = .error e) ↔ ¬ ∃ a, x = .ok a := by
  cases x <;> simp

end Checks

end Docket
