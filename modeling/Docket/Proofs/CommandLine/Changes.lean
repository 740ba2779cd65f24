import Docket.Proofs.CommandLine.Visits
import Docket.Proofs.Run.Confined
import Mathlib

/-!
# What a visit changes

A visit leaves the shelf as it was, or it puts a new state in the place of the old one. The new
state is what serving the request made of the old one, with what was printed on record.

* **`Shelf.visit_changes`**: what a visit changes.
-/

namespace Docket.CommandLine

variable {i : Invocation} {files : String → Reading} {around : Surroundings} {d : Desk}
  {l : Ledger} {now : Time} {r : Response} {w : World}

/-! ## Requests -/

theorem Command.confined_serve (c : Command) (d : Desk) (now : Time) :
    (d.serve c.request).Confined now ((d.settings.series c.kind).key now) := by
  have kind : c.request.kind = c.kind := by cases c <;> rfl
  exact kind ▸ d.confined_serve c.request now

/-! ## States -/

theorem reset_run {kind : CounterKind}
    (run : (d.serve (.reset kind)).run (around.world l now) = (.finished (.ok r), w)) :
    w.ledger = { l with counters := l.counters.erase ((d.settings.series kind).key now) } := by
  have after : _ = w.ledger := congrArg (fun result => result.2.ledger) run
  rw [← after]
  rfl

/-- What a command that has succeeded leaves of the state that it found, given the ledger after its
request was served and what was printed. -/
structure Command.Leaves (c : Command) (d : Desk) (now : Time) (found left : Snapshot)
    (served : Ledger) (ids : List String) : Prop where
  /-- All counters but that of the command's kind at the time stay as they are. -/
  counters : ∀ key, key ≠ (d.settings.series c.kind).key now →
    left.counters[key]? = found.counters[key]?
  /-- An issue leaves its counter as serving the request did, and puts what was printed on record. -/
  issued : c.Issues →
    left.counters[(d.settings.series c.kind).key now]? =
      served.counters[(d.settings.series c.kind).key now]? ∧
    left.records = found.records.insert (d.settings.series c.kind).field
      ((found.records[(d.settings.series c.kind).field]?.getD ∅).insertMany ids)
  /-- A reset deletes its counter and changes nothing else. -/
  reset : ¬ c.Issues →
    left = ⟨found.counters.erase ((d.settings.series c.kind).key now), found.records⟩

theorem Invocation.Served.leaves {s : Snapshot} (h : i.Served files around d (.ofSnapshot 0 s) now r w)
    (mutates : i.command.Mutates) :
    i.command.Leaves d now s (i.record d r w.ledger).snapshot w.ledger r.issued := by
  have run := h.run_of_mutates mutates
  have spares := Plan.run_spares (w := around.world (.ofSnapshot 0 s) now)
    (i.command.confined_serve d now) fun _ => rfl
  rw [run] at spares
  have counters : (i.record d r w.ledger).counters = w.ledger.counters := by
    unfold Invocation.record
    split <;> rfl
  refine ⟨fun key ne => ?_, fun issues => ⟨?_, ?_⟩, fun no => ?_⟩
  · show (i.record d r w.ledger).counters[key]? = _
    rw [counters]
    exact spares.counters key ne
  · show (i.record d r w.ledger).counters[_]? = _
    rw [counters]
  · have records : w.ledger.records = s.records := spares.records
    rw [← records, Invocation.record, if_pos issues]
    rfl
  · rw [Invocation.record, if_neg no]
    cases hc : i.command with
    | reset kind =>
      rw [hc] at run
      rw [reset_run run]
      rfl
    | preview | dryRun => rw [hc] at mutates; exact mutates.elim
    | _ => rw [hc] at no; exact absurd trivial no

/-- **What a visit changes.** A failure, a forecast and a command without a state file change
nothing. Any other success saves what it found, less its counter's old value, with what it printed
on record. -/
theorem Shelf.visit_changes (shelf : Shelf) (base : List String) (i : Invocation)
    (around : Surroundings) :
    let result := (shelf.visit base i around).1
    let after := (shelf.visit base i around).2
    ((∃ e, result = .error e) ∨ ¬ i.command.Mutates ∨ i.state = none → after = shelf) ∧
    ∀ out path, result = .ok out → i.command.Mutates → i.state = some path →
      ∃ d now found left, i.desk (shelf.reading base) = .ok d ∧ i.time around = .ok now ∧
        i.ledger (shelf.reading base) = .ok (.ofSnapshot 0 found) ∧
        after.reading base path = .text (stateText left) ∧
        i.command.Leaves d now found left
          ((d.serve i.command.request).run (around.world (.ofSnapshot 0 found) now)).2.ledger
          (printed out) := by
  intro result after
  constructor
  · -- Only a success with something to save touches the shelf.
    rcases shelf.visit_cases base i around with ⟨e, visit⟩ | ⟨d, l, now, r, w, -,
      ⟨visit, -⟩ | ⟨path, shelf', mutates, state, -, visit⟩⟩ <;>
      simp only [result, after, visit]
    · exact fun _ => trivial
    · exact fun _ => trivial
    · rintro (⟨e, h⟩ | h | h)
      · cases h
      · exact absurd mutates h
      · rw [state] at h
        cases h
  · intro out path hout mutates state
    obtain ⟨d, s, now, r, w, served, -, rfl, reading⟩ :=
      saved_of_visit (Prod.ext hout rfl) mutates state
    refine ⟨d, now, s, _, served.desk, served.time, served.ledger, reading, ?_⟩
    rw [printed_output, served.run_of_mutates mutates]
    exact served.leaves mutates

theorem reading_bare : Shelf.reading { home := ["d"] } ["d"] "s" = .absent := by
  rw [Shelf.reading_of_isPlain rfl Shelf.isPlain_state]
  rfl

def rolled : Snapshot :=
  ⟨{("250314", ⟨"250314", 1, .digit 0, ⟨1741942800, 0, 0⟩⟩)}, {("registration_no", {"250314-0-01"})}⟩

theorem served_bare : ∃ w, Invocation.Served { state := some "s", command := .roll }
    (Shelf.reading { home := ["d"] } ["d"]) march ⟨{}, by cbv⟩ {} ⟨1741942800, 0, 0⟩
    (.id "250314-0-01") w ∧
    (Invocation.record { state := some "s", command := .roll } ⟨{}, by cbv⟩ (.id "250314-0-01")
      w.ledger).snapshot = rolled := by
  have run : ∃ w, (Desk.serve ⟨{}, by cbv⟩ (.issue .rollNumber)).run
      (march.world {} ⟨1741942800, 0, 0⟩) = (.finished (.ok (.id "250314-0-01")), w) :=
    ⟨_, by cbv⟩
  obtain ⟨w, run⟩ := run
  refine ⟨w, ⟨Invocation.desk_eq (s := {}) rfl rfl rfl,
    by simp only [Invocation.ledger, reading_bare], rfl, {}, rfl, run⟩, ?_⟩
  have after : _ = w.ledger := congrArg (fun result => result.2.ledger) run
  rw [← after]
  cbv

theorem visit_changes_bare : ∃ after left,
    Shelf.visit { home := ["d"] } ["d"] { state := some "s", command := .roll } march =
      (.ok (.obj [("id", .str "250314-0-01")]), after) ∧
    after.reading ["d"] "s" = .text (stateText left) ∧
    left.records = {("registration_no", {"250314-0-01"})} := by
  obtain ⟨w, served, -⟩ := served_bare
  obtain ⟨after, visit, -, -⟩ := Shelf.exists_visit served trivial rfl
    (Shelf.isSome_place? rfl Shelf.isPlain_state) (Shelf.isSome_place? rfl Shelf.isPlain_staging)
  have changes := (Shelf.visit_changes { home := ["d"] } ["d"]
    { state := some "s", command := .roll } march).2
  rw [visit] at changes
  obtain ⟨d, now, found, left, desk, time, ledger, reading, leaves⟩ := changes _ "s" rfl trivial rfl
  refine ⟨after, left, visit, reading, ?_⟩
  obtain rfl : _ = d := Except.ok.inj (served.desk.symm.trans desk)
  obtain rfl : {} = found :=
    congrArg Ledger.snapshot (Except.ok.inj (served.ledger.symm.trans ledger))
  rw [(leaves.issued trivial).2]
  decide +kernel

end Docket.CommandLine
