import Docket.Proofs.Desk.Marks
import Docket.Proofs.Desk.Scope
import Docket.Proofs.Run.Named

/-!
# Counters of different kinds

The counters of all three kinds are in one ledger. A request keeps to those of its own kind, and a
colon keeps daily counters apart from the others. Nothing keeps the invoice counter from having the
stamp of a day for a name, and then it is also that day's counter of roll numbers.

* **`Desk.keeps_counters_apart`**: a desk keeps the kinds apart exactly if the invoice counter is
  named after no day.
-/

namespace Docket

namespace Desk

/-! ## Kinds and keys -/

/-- **The colon** is in the keys of daily counters only. -/
theorem colon_mem_key_iff (d : Desk) (kind : CounterKind) (now : Time) :
    ':' ∈ ((d.settings.series kind).key now).toList ↔ kind = .dailyInvoice := by
  cases kind with
  | rollNumber =>
    refine ⟨fun colon => ?_, nofun⟩
    exact absurd ((Series.isDayStamp_key_roll d.settings.roll now).2 _ colon) (by decide)
  | invoice =>
    refine ⟨fun colon => ?_, nofun⟩
    have rule : (Settings.nameOk d.settings.invoice.counterName, Refusal.counterName) ∈
        d.settings.rules := by simp [Settings.rules]
    have ok := Settings.holds_of_validate d.valid rule
    simp only [Settings.nameOk, String.contains_char_eq, Bool.and_eq_true, Bool.not_eq_true',
      decide_eq_false_iff_not] at ok
    exact absurd colon ok.2
  | dailyInvoice => exact ⟨fun _ => rfl, fun _ => Series.colon_mem_key_daily d.settings.daily now⟩

theorem kind_eq_daily_of_key_eq (d : Desk) {kind : CounterKind} {t t' : Time}
    (same : (d.settings.series kind).key t = (d.settings.series .dailyInvoice).key t') :
    kind = .dailyInvoice := by
  rw [← d.colon_mem_key_iff kind t, same]
  exact (d.colon_mem_key_iff .dailyInvoice t').mpr rfl

/-- **At any two times** the keys of the three kinds differ, exactly if the invoice counter is not
named after the day. -/
theorem nodup_keys_iff (d : Desk) (t t' : Time) :
    [(d.settings.series .rollNumber).key t, (d.settings.series .invoice).key t',
        (d.settings.series .dailyInvoice).key t'].Nodup ↔
      d.settings.invoice.counterName ≠ t.date.dayKey := by
  have apart (kind : CounterKind) (ne : kind ≠ .dailyInvoice) (time : Time) :
      (d.settings.series kind).key time ≠ (d.settings.series .dailyInvoice).key t' :=
    mt d.kind_eq_daily_of_key_eq ne
  simp only [List.nodup_cons, List.mem_cons, List.not_mem_nil, or_false,
    apart .rollNumber nofun, apart .invoice nofun, not_false_eq_true, List.nodup_nil, and_true]
  exact ne_comm

/-- Kinds with a key in common are the same, unless the invoice counter is named after the day. -/
theorem kind_eq_of_key_eq {d : Desk} {kind kind' : CounterKind} {t t' : Time}
    (apart : d.settings.invoice.counterName ≠ t.date.dayKey)
    (apart' : d.settings.invoice.counterName ≠ t'.date.dayKey)
    (same : (d.settings.series kind).key t = (d.settings.series kind').key t') :
    kind = kind' := by
  cases kind <;> cases kind'
  case rollNumber.invoice => exact absurd same.symm apart
  case invoice.rollNumber => exact absurd same apart'
  case rollNumber.dailyInvoice | invoice.dailyInvoice => exact d.kind_eq_daily_of_key_eq same
  case dailyInvoice.rollNumber | dailyInvoice.invoice =>
    exact (d.kind_eq_daily_of_key_eq same.symm).symm
  all_goals rfl

/-! ## Requests and the counters of other kinds -/

/-- No request makes a call on a counter of another kind, whatever the clock shows on the way and
whatever fails or stalls. -/
def KeepsApart (d : Desk) : Prop :=
  ∀ (request : Request) (w : World), w.Called ((d.serve request).run w).2 fun key =>
    ∀ kind, (d.settings.series kind).Owns key → kind = request.kind

theorem keepsApart_iff {d : Desk} :
    d.KeepsApart ↔ ∀ now : Time, d.settings.invoice.counterName ≠ now.date.dayKey := by
  constructor
  · intro keeps now same
    -- Deleting the invoice counter is a call on that day's counter of roll numbers.
    obtain ⟨calls, log, within⟩ := keeps (.reset .invoice) .blank
    have removed : calls = [.query (.remove d.settings.invoice.counterName)] :=
      (List.append_nil calls).symm.trans log.symm
    subst removed
    cases within _ (List.mem_singleton_self _) _ rfl .rollNumber ⟨now, same⟩
  · intro apart request w
    obtain ⟨calls, log, owns⟩ :=
      Plan.run_called (d.within_serve (Series.own_admits _)) (fun _ => trivial) w
    refine ⟨calls, log, fun c hc key hk kind => ?_⟩
    obtain ⟨t, rfl⟩ := owns c hc key hk
    rintro ⟨t', same⟩
    exact kind_eq_of_key_eq (apart t') (apart t) same.symm

/-- **Counters are kept apart**, by their keys at any two times and by the calls of all requests,
exactly if the invoice counter is not named after the day, or after any day. -/
theorem keeps_counters_apart (d : Desk) :
    (∀ t t' : Time,
      [(d.settings.series .rollNumber).key t, (d.settings.series .invoice).key t',
          (d.settings.series .dailyInvoice).key t'].Nodup ↔
        d.settings.invoice.counterName ≠ t.date.dayKey) ∧
    (d.KeepsApart ↔ ∀ now : Time, d.settings.invoice.counterName ≠ now.date.dayKey) :=
  ⟨d.nodup_keys_iff, keepsApart_iff⟩

/-- A desk whose invoice counter is named after 14 March 2025. -/
def dated : Desk := ⟨{ invoice := { counterName := "250314" } }, by cbv⟩

/-- **A counter of two kinds**: the settings pass the check, the two keys are the same, and an
invoice asked for in between takes a sequence of the roll numbers. -/
theorem shares_counter :
    let now : Time := ⟨1741942800, 0, 0⟩
    let before := ((dated.serve (.issue .rollNumber)).run .blank).2
    let between := (dated.serve (.issue .invoice)).run before
    dated.settings.validate = .ok () ∧ World.blank.Calm now ∧
      (dated.settings.series .rollNumber).key now = (dated.settings.series .invoice).key now ∧
      ((dated.serve (.issue .rollNumber)).run before).1 =
        .finished (.ok (.id "250314-0-02")) ∧
      between.1 = .finished (.error (.invalid (.noPrefix "250314"))) ∧
      ((dated.serve (.issue .rollNumber)).run between.2).1 =
        .finished (.ok (.id "250314-0-03")) := by
  refine ⟨dated.valid, World.calm_blank, by cbv, by cbv, by cbv, by cbv⟩

end Desk

end Docket
