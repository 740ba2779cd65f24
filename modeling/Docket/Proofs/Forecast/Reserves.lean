import Docket.Proofs.Forecast.Agrees
import Docket.Proofs.Issue.Together
import Docket.Proofs.Roll.Batch

/-!
# A dry run tells what a reservation gives

* `RollCycle.Stands.drafts`: drafts from a record in turn are a stretch of roll numbers;
* **`Desk.dryRun_foretells`**: those of a dry run that are free are what a reservation of as many
  gives.
-/

namespace Docket

open RollCycle (stretch)

variable {l : RollSettings} {w : World} {now : Time} {q : Nat}

/-- **Drafts from a record in turn** are a stretch of roll numbers. -/
theorem RollCycle.Stands.drafts (htop : 1 ≤ l.maxSequence) (hle : l.maxSequence ≤ 99) {σ : Slate}
    (h : Stands l now σ q) (n : Nat) :
    ∃ τ, (Series.roll l).Drafts now (stretch ((Series.roll l).key now) l.maxSequence q n) σ τ := by
  induction n generalizing q σ with
  | zero => exact ⟨σ, .nil σ⟩
  | succ n ih =>
    obtain ⟨σ', draft, next⟩ := h.draft htop hle
    obtain ⟨τ, rest⟩ := ih next
    rw [stretch_succ]
    exact ⟨τ, .cons draft rest⟩

namespace Forecast

/-- **A forecast from a record in turn** is the same stretch. -/
theorem simulate_stretch (htop : 1 ≤ l.maxSequence) (hle : l.maxSequence ≤ 99) {σ : Slate}
    (h : RollCycle.Stands l now σ q) (count : Nat) :
    ∃ es, simulate ((Series.roll l).key now) count
        (startOf σ.counters[(Series.roll l).key now]?).1
        (startOf σ.counters[(Series.roll l).key now]?).2 l.maxSequence = .ok es ∧
      es.map (·.id) = stretch ((Series.roll l).key now) l.maxSequence q count := by
  have segment : ∀ name, Segment.check name ((Series.roll l).key now) = .ok () :=
    Date.check_dayKey now.date
  obtain ⟨es, run, length, all⟩ := simulate_eval segment htop hle count h.awaits h.room
  refine ⟨es, run, List.ext_getElem ?_ fun i hi hi' => ?_⟩
  · rw [List.length_map, length, RollCycle.length_stretch]
  · rw [List.length_map] at hi
    obtain ⟨-, isAt, written⟩ := all i es[i] (List.getElem?_eq_getElem hi)
    rw [show RollNumber.mk _ es[i].digit es[i].sequence = _ from
      RollCycle.number_of_isAt htop isAt rfl, RollCycle.format_number segment htop hle] at written
    simp only [List.getElem_map, stretch, List.getElem_range', Nat.one_mul]
    exact (Except.ok.inj written).symm

theorem findCollisions_run (calm : w.Calm now) (field : String) (ids : List String) :
    ∃ w', (findCollisions field ids).run w =
        (.finished (.ok (ids.filter (w.ledger.IsRecorded field ·))), w') ∧
      w'.ledger = w.ledger ∧ w'.Calm now ∧ w'.slate = w.slate := by
  unfold findCollisions
  split
  · next none =>
    rw [List.isEmpty_iff.mp none]
    exact ⟨w, rfl, rfl, calm, rfl⟩
  · obtain ⟨w', query, calm', ledger, slate⟩ := calm.query (.findExisting field ids)
    rw [Plan.run, query]
    exact ⟨w', rfl, ledger, calm', slate⟩

def foreseen (l : RollSettings) (now : Time) (count : Nat) (r : Option Counter) :
    Except Error (List Entry) :=
  simulate ((Series.roll l).key now) count (startOf r).1 (startOf r).2 l.maxSequence

def reportOf (known : String → Bool) (simulated : List Entry) : Report :=
  let collisions := (simulated.map (·.id)).filter known
  ⟨simulated, collisions, summarize simulated collisions.length⟩

theorem dryRun_reports (calm : w.Calm now) (count : Nat) :
    ∃ w', (dryRun l count).run w =
        (.finished ((foreseen l now count w.ledger.counters[(Series.roll l).key now]?).map
          (reportOf (w.ledger.IsRecorded l.field ·))), w') ∧
      w'.ledger = w.ledger ∧ w'.Calm now ∧ w'.slate = w.slate := by
  obtain ⟨w₁, run, ledger, calm₁, slate⟩ := preview_run (l := l) calm count
  change (preview l count).run w = (.finished (foreseen ..), w₁) at run
  generalize foreseen .. = result at run ⊢
  have first : (dryRun l count).run w = _ := Plan.run_bind (preview l count) _ w
  rw [first, run]
  cases result with
  | error e => exact ⟨w₁, rfl, ledger, calm₁, slate⟩
  | ok es =>
    obtain ⟨w₂, found, ledger₂, calm₂, slate₂⟩ :=
      findCollisions_run calm₁ l.field (es.map (·.id))
    rw [ledger] at found
    refine ⟨w₂, ?_, ledger₂.trans ledger, calm₂, slate₂.trans slate⟩
    show ((findCollisions l.field (es.map (·.id))).bind _).run w₁ = _
    rw [Plan.run_bind, found]
    rfl

theorem dryRun_run (calm : w.Calm now) {count : Nat} {es : List Entry}
    (sim : simulate ((Series.roll l).key now) count
      (startOf w.ledger.counters[(Series.roll l).key now]?).1
      (startOf w.ledger.counters[(Series.roll l).key now]?).2 l.maxSequence = .ok es) :
    let collisions := (es.map (·.id)).filter (w.ledger.IsRecorded l.field ·)
    ∃ w', (dryRun l count).run w =
        (.finished (.ok ⟨es, collisions, summarize es collisions.length⟩), w') ∧
      w'.ledger = w.ledger := by
  intro collisions
  obtain ⟨w', run, ledger, -⟩ := dryRun_reports (l := l) calm count
  rw [foreseen, sim] at run
  exact ⟨w', run, ledger⟩

theorem summarize_counts {es : List Entry} {collisions : Nat} (le : collisions ≤ es.length) :
    (summarize es collisions).total = es.length ∧
      (summarize es collisions).collisions = collisions := by
  cases es with
  | nil => exact ⟨rfl, (Nat.le_zero.mp le).symm⟩
  | cons e es =>
    rw [summarize, List.head?_cons, List.getLast?_cons]
    exact ⟨rfl, rfl⟩

end Forecast

theorem Desk.reserve_free (d : Desk) (quiet : w.Quiet now ((d.settings.series .rollNumber).key now))
    {ids : List String} {τ : Slate}
    (drafts : (d.settings.series .rollNumber).Drafts now ids w.slate τ) :
    let collisions := ids.filter (w.ledger.IsRecorded d.settings.roll.field ·)
    Patient d.settings.retry.maxAttempts (· ∈ collisions) ids →
      ∃ w', (d.serve (.reserve (ids.length - collisions.length))).run w =
        (.finished (.ok (.ids (ids.filter (· ∉ collisions)))), w') := by
  intro collisions patient
  let free := ids.filter (¬ w.ledger.IsRecorded d.settings.roll.field ·)
  have known id (hid : id ∈ ids) :
      id ∈ collisions ↔ w.ledger.IsRecorded d.settings.roll.field id := by
    simp [collisions, hid]
  have rest : ids.filter (· ∉ collisions) = free :=
    List.filter_congr fun id hid => by simp only [known id hid]
  have count : ids.length - collisions.length = free.length := by
    rw [List.length_eq_length_filter_add (w.ledger.IsRecorded d.settings.roll.field ·),
      Nat.add_sub_cancel_left]
    simp only [free, decide_not]
  obtain ⟨w', batch⟩ : ∃ w', ((Series.roll d.settings.roll).issueBatch d.settings.retry
      free.length).run w = (.finished (.ok free), w') :=
    Series.issueBatch_of_drafts quiet drafts (patient.congr known)
  refine ⟨w', ?_⟩
  rw [count, rest, serve, Plan.run_bind, batch]
  rfl

/-- **A dry run foretells a reservation.** It reports which of the next roll numbers are on record,
and changes nothing. A reservation of as many as are free gives exactly these, in order, unless its
attempts run out on the way. -/
theorem Desk.dryRun_foretells (d : Desk)
    (quiet : w.Quiet now ((d.settings.series .rollNumber).key now))
    (record : RollCycle.IsRecord w.ledger.counters[(d.settings.series .rollNumber).key now]?)
    (room : ∀ c, w.ledger.counters[(d.settings.series .rollNumber).key now]? = some c →
      c.sequence.toNat + 1 < UInt64.size) (n : Nat) :
    ∃ report w', (d.serve (.dryRun n)).run w = (.finished (.ok (.report report)), w') ∧
      w'.ledger = w.ledger ∧
      let ids := report.simulated.map (·.id)
      ids.length = n ∧
      report.collisions = ids.filter (w.ledger.IsRecorded d.settings.roll.field ·) ∧
      report.summary.total = n ∧ report.summary.collisions = report.collisions.length ∧
      (Patient d.settings.retry.maxAttempts (· ∈ report.collisions) ids →
        ∃ w'', (d.serve (.reserve (n - report.collisions.length))).run w =
          (.finished (.ok (.ids (ids.filter (· ∉ report.collisions)))), w'')) := by
  obtain ⟨htop, hle⟩ := d.maxSequence_bounds
  have stands : RollCycle.Stands d.settings.roll now w.slate _ :=
    RollCycle.stands_place record room
  obtain ⟨es, sim, ids⟩ := Forecast.simulate_stretch htop hle stands n
  obtain ⟨τ, drafts⟩ := stands.drafts htop hle n
  rw [← ids] at drafts
  obtain ⟨w', run, ledger⟩ := Forecast.dryRun_run quiet.toCalm sim
  have length : (es.map (·.id)).length = n := by rw [ids, RollCycle.length_stretch]
  have total : es.length = n := (List.length_map _).symm.trans length
  have le : ((es.map (·.id)).filter (w.ledger.IsRecorded d.settings.roll.field ·)).length ≤
      es.length := (List.length_filter_le ..).trans_eq (List.length_map _)
  obtain ⟨counted, colliding⟩ := Forecast.summarize_counts le
  refine ⟨⟨es, _, _⟩, w', ?_, ledger, length, rfl, counted.trans total, colliding,
    fun patient => ?_⟩
  · rw [serve, Plan.run_bind, run]
    rfl
  · have reserved := d.reserve_free quiet drafts patient
    rwa [length] at reserved

def Desk.plain : Desk := ⟨{}, by cbv⟩

/-- Three roll numbers to come, the first of them on record, and a reservation of two. -/
theorem Desk.dryRun_foretells_sample :
    let report : Forecast.Report :=
      ⟨[⟨"250314-0-01", "250314", 1, 0, 1⟩, ⟨"250314-0-02", "250314", 2, 0, 2⟩,
          ⟨"250314-0-03", "250314", 3, 0, 3⟩],
        ["250314-0-01"], ⟨3, 1, "250314", "250314", "1-3"⟩⟩
    ∃ w' w'', (Desk.plain.serve (.dryRun 3)).run .sample = (.finished (.ok (.report report)), w') ∧
      (Desk.plain.serve (.reserve 2)).run .sample =
        (.finished (.ok (.ids ["250314-0-02", "250314-0-03"])), w'') := by
  intro report
  have quiet : World.sample.Quiet ⟨1741942800, 0, 0⟩
      ((Desk.plain.settings.series .rollNumber).key ⟨1741942800, 0, 0⟩) :=
    ⟨⟨fun _ => rfl, fun _ => rfl, rfl⟩, fun l hl => by cases hl⟩
  have blank : World.sample.ledger.counters[(Desk.plain.settings.series .rollNumber).key
      ⟨1741942800, 0, 0⟩]? = none := by cbv
  obtain ⟨report', w', run, -, -, -, -, -, foretold⟩ := plain.dryRun_foretells quiet
    (blank ▸ RollCycle.isRecord_none) (fun c hc => by rw [blank] at hc; cases hc) 3
  have reported : ((Desk.plain.serve (.dryRun 3)).run .sample).1 =
      .finished (.ok (.report report)) := by cbv
  rw [run] at reported
  cases reported
  -- Three in a row are all there are, so nothing comes after them.
  have patient : Patient 3 (· ∈ report.collisions) (report.simulated.map (·.id)) := by
    intro before block later split length _ id hid
    have total := congrArg List.length split
    simp only [List.length_append, length, report, List.length_map, List.length_cons,
      List.length_nil] at total
    rw [List.length_eq_zero_iff.mp (show later.length = 0 by omega)] at hid
    cases hid
  obtain ⟨w'', reserved⟩ := foretold patient
  exact ⟨w', w'', run, reserved⟩

end Docket
