import Docket.Series

/-!
# Refusals are for good

* `Refuses`: a result that, if it is an error, will be one again;
* `RollNumber.refuses_format`, `InvoiceId.refuses_format`, `Checked.refuses_format`,
  **`Series.refuses_format`**: what cannot be written is refused for good.
-/

namespace Docket

/-- Whether a result, if it is an error, is one for good. -/
def Refuses {α : Type} (r : Except Error α) : Prop := ∀ e, r = .error e → e.isTransient = false

section Refuses

variable {α β : Type}

theorem refuses_ok (a : α) : Refuses (.ok a) := nofun

theorem refuses_invalid (why : Refusal) : Refuses (.error (.invalid why) : Except Error α) := by
  intro e he
  cases he
  rfl

theorem Refuses.bind {r : Except Error α} {f : α → Except Error β} (hr : Refuses r)
    (hf : ∀ a, Refuses (f a)) : Refuses (r >>= f) := by
  cases r with
  | ok a => exact hf a
  | error e => exact fun e' he => hr e' (by cases he; rfl)

end Refuses

namespace Segment

theorem refuses_check (name value : String) : Refuses (check name value) := by
  unfold check
  split
  · exact refuses_invalid _
  · split
    · exact refuses_invalid _
    · exact refuses_ok ()

theorem refuses_checkPadding (width : Nat) : Refuses (checkPadding width) := by
  unfold checkPadding
  split
  · exact refuses_invalid _
  · exact refuses_ok ()

theorem refuses_checkWidth (sequence : UInt64) (width : Nat) :
    Refuses (checkWidth sequence width) := by
  unfold checkWidth
  split
  · exact refuses_invalid _
  · exact refuses_ok ()

end Segment

theorem RollNumber.refuses_format (r : RollNumber) : Refuses r.format := by
  refine (Segment.refuses_check _ _).bind fun _ => ?_
  dsimp only
  split
  · exact refuses_invalid _
  · split
    · exact refuses_invalid _
    · exact refuses_ok _

theorem InvoiceId.refuses_format (i : InvoiceId) : Refuses i.format := by
  refine (Segment.refuses_checkPadding _).bind fun _ => (Segment.refuses_check _ _).bind fun _ => ?_
  split
  · exact refuses_invalid _
  · exact (Segment.refuses_checkWidth _ _).bind fun _ => refuses_ok _

theorem Checked.refuses_format (dateKey : String) (sequence : UInt64) (width : Nat) :
    Refuses (Checked.format dateKey sequence width) := by
  refine (Segment.refuses_check _ _).bind fun _ => (Segment.refuses_checkPadding _).bind fun _ =>
    (Segment.refuses_checkWidth _ _).bind fun _ => Refuses.bind ?_ fun _ => refuses_ok _
  unfold Checked.character
  split
  · exact refuses_ok _
  · exact refuses_invalid _

namespace Series

variable {s : Series} {now : Time}

theorem refuses_format (a : Allocation) (words : List UInt64) : Refuses (s.format a words) := by
  cases s with
  | roll l =>
    simp only [format]
    split
    · exact RollNumber.refuses_format _
    · exact refuses_invalid _
  | invoice l =>
    simp only [format]
    split
    · exact InvoiceId.refuses_format _
    · exact refuses_invalid _
  | daily l =>
    simp only [format]
    split
    · exact Checked.refuses_format _ _ _
    · exact refuses_invalid _

end Series

end Docket
