import Docket.Proofs.CommandLine.Changes
import Docket.Proofs.Identifier.Kinds
import Docket.Proofs.Issue.Batch
import Docket.Proofs.Issue.Skips

/-!
# No identifier is issued twice

What is issued is not on record, is on record from then on, and looks like no identifier of another
kind. So visits with one state never issue an identifier twice, whatever happens to the counters.

* **`Visits.issued_once`**: what is issued was neither on record nor issued before.
-/

namespace Docket

theorem Ledger.isRecorded_extendRecords {l : Ledger} {field field' value : String}
    {values : List String} : (l.extendRecords field values).IsRecorded field' value ↔
      l.IsRecorded field' value ∨ field = field' ∧ value ∈ values := by
  simp only [IsRecorded, extendRecords, Std.ExtTreeMap.getElem?_insert]
  by_cases same : field = field'
  · subst same
    simp [Std.ExtTreeSet.mem_insertMany_list]
  · simp [same]

namespace CommandLine

variable {i : Invocation} {around : Surroundings} {d : Desk} {s : Snapshot} {now : Time}
  {r : Response} {w w' : World} {settings : Settings} {k : CounterKind} {retry : RetrySettings}
  {shelf after last : Shelf} {base : List String} {path field id : String} {out : Json}

/-! ## One request -/

theorem exists_of_run_map {α : Type} {p : Plan (Except Error α)} {f : α → Response}
    (h : (p.bind fun x => .done (x.map f)).run w = (.finished (.ok r), w')) :
    ∃ a, p.run w = (.finished (.ok a), w') ∧ r = f a := by
  rw [Plan.run_bind] at h
  split at h
  · next x w₁ run =>
    cases x with
    | error e => cases h
    | ok a =>
      cases h
      exact ⟨a, run, rfl⟩
  · cases h

namespace Surroundings

theorem isCancelled_world (stopped : around.stopped = true) (l : Ledger) :
    (around.world l now).isCancelled = true := by
  simp [World.isCancelled, world, stopped]

theorem issueOne_anew
    (run : ((settings.series k).issueOne retry).run (around.world (.ofSnapshot 0 s) now) =
      (.finished (.ok id), w)) :
    k.Writes id ∧ ¬ (Ledger.ofSnapshot 0 s).IsRecorded (settings.series k).field id := by
  refine ⟨(Series.MayIssue.alone (Plan.mayGive_of_run run)).written.writes, ?_⟩
  cases stopped : around.stopped with
  | true =>
    -- The first poll ends the issue.
    unfold Series.issueOne at run
    cases attempts : retry.maxAttempts with
    | zero => rw [attempts] at run; cases run
    | succ left =>
      rw [attempts, retrying, Plan.run, isCancelled_world stopped] at run
      cases run
  | false =>
    exact (Series.settles_attemptAlone.retrying_ok (quiet_world stopped s now _) run).2.1

theorem issueBatch_anew {n : Nat} {ids : List String}
    (run : ((settings.series k).issueBatch retry n).run (around.world (.ofSnapshot 0 s) now) =
      (.finished (.ok ids), w)) :
    ∀ id ∈ ids, k.Writes id ∧
      ¬ (Ledger.ofSnapshot 0 s).IsRecorded (settings.series k).field id := by
  intro id hid
  refine ⟨(Series.MayIssue.together (Plan.mayGive_of_run run) hid).written.writes, ?_⟩
  cases stopped : around.stopped with
  | true =>
    unfold Series.issueBatch at run
    split at run
    · cases run
      cases hid
    · rw [Plan.run, isCancelled_world stopped] at run
      cases run
  | false =>
    obtain ⟨-, ds, τ, drafts, rfl, -⟩ :=
      Series.issueBatch_ok (quiet_world stopped s now ((settings.series k).key now)).toCalm run
    exact of_decide_eq_true (List.mem_filter.mp hid).2

/-- **What a command issues** is not on record, and looks like its kind. -/
theorem issued_anew {c : Command} (issues : c.Issues)
    (run : (d.serve c.request).run (around.world (.ofSnapshot 0 s) now) = (.finished (.ok r), w)) :
    ∀ id ∈ r.issued, c.kind.Writes id ∧
      ¬ (Ledger.ofSnapshot 0 s).IsRecorded (d.settings.series c.kind).field id := by
  cases c with
  | roll | invoice | dailyInvoice =>
    obtain ⟨id, issue, rfl⟩ := exists_of_run_map run
    exact List.forall_mem_singleton.mpr (issueOne_anew issue)
  | reserve n =>
    obtain ⟨ids, issue, rfl⟩ := exists_of_run_map run
    exact issueBatch_anew (k := .rollNumber) issue
  | invoices n =>
    -- An empty batch is refused.
    change (ite _ _ _ : Plan _).run _ = _ at run
    split at run
    · cases run
    · obtain ⟨ids, issue, rfl⟩ := exists_of_run_map run
      exact issueBatch_anew (k := .invoice) issue
  | preview | dryRun | reset => exact issues.elim

end Surroundings

/-! ## One visit -/

/-- Whether a value is on record in any state that is found. -/
def Reading.HasRecord (reading : Reading) (field value : String) : Prop :=
  ∀ s, reading.state? = some s → (Ledger.ofSnapshot 0 s).IsRecorded field value

theorem hasRecord_of_text {left : Snapshot} {value : String}
    (reading : after.reading base path = .text (stateText left))
    (h : (Ledger.ofSnapshot 0 left).IsRecorded field value) :
    (after.reading base path).HasRecord field value := by
  intro s found
  rw [reading] at found
  rw [Ledger.IsRecorded, show (Ledger.ofSnapshot 0 s).records = left.records from
    records_of_stateText found]
  exact h

theorem Invocation.series_of_desk {files : String → Reading}
    (configured : i.configured files = .ok settings) (h : i.desk files = .ok d) (k : CounterKind) :
    d.settings.series k = settings.series k := by
  obtain ⟨settings', same, h⟩ := bind_eq_ok_iff.mp h
  obtain rfl := Except.ok.inj (configured.symm.trans same)
  obtain ⟨settings', overridden, h⟩ := bind_eq_ok_iff.mp h
  obtain ⟨d', checked, h⟩ := bind_eq_ok_iff.mp h
  obtain ⟨_, -, h⟩ := bind_eq_ok_iff.mp h
  obtain rfl := Except.ok.inj h
  have made : d'.settings = settings' := by
    unfold Desk.ofSettings at checked
    split at checked
    · exact congrArg Desk.settings (Except.ok.inj checked).symm
    · cases checked
  unfold override at overridden
  split at overridden
  · cases overridden
  · rw [made, ← Except.ok.inj overridden]
    cases k <;> rfl

theorem Command.Leaves.isRecorded_iff {c : Command} {found left : Snapshot} {served : Ledger}
    {ids : List String} {value : String} (h : c.Leaves d now found left served ids) :
    (Ledger.ofSnapshot 0 left).IsRecorded field value ↔
      (Ledger.ofSnapshot 0 found).IsRecorded field value ∨
        c.Issues ∧ (d.settings.series c.kind).field = field ∧ value ∈ ids := by
  by_cases issues : c.Issues
  · have same : (Ledger.ofSnapshot 0 left).IsRecorded field value ↔
        ((Ledger.ofSnapshot 0 found).extendRecords (d.settings.series c.kind).field
          ids).IsRecorded field value := by
      rw [Ledger.IsRecorded, Ledger.ofSnapshot, (h.issued issues).2]
      rfl
    simp [same, Ledger.isRecorded_extendRecords, issues]
  · rw [h.reset issues]
    simp [issues, Ledger.IsRecorded, Ledger.ofSnapshot]

namespace Shelf

/-- **A visit** keeps what is on record. -/
theorem hasRecord_visit {value : String} (around : Surroundings) (state : i.state = some path)
    (h : (shelf.reading base path).HasRecord field value) :
    ((shelf.visit base i around).2.reading base path).HasRecord field value := by
  rcases shelf.visit_cases base i around with ⟨e, visit⟩ | ⟨d, l, now, r, w, served,
    ⟨visit, -⟩ | ⟨path', after, mutates, state', saved, visit⟩⟩ <;> rw [visit]
  · exact h
  · exact h
  · obtain rfl := Option.some.inj (state.symm.trans state')
    obtain ⟨s, rfl, found⟩ := Invocation.exists_of_ledger served.ledger
    exact hasRecord_of_text (reading_save saved) ((served.leaves mutates).isRecorded_iff.mpr
      (.inl (h s (found path state))))

/-- **What a visit issues** was not on record, is on record then, and looks like its kind. -/
theorem issued_of_visit (state : i.state = some path)
    (configured : i.configured (shelf.reading base) = .ok settings)
    (visit : shelf.visit base i around = (.ok out, after)) (issues : i.command.Issues)
    (hid : id ∈ printed out) :
    i.command.kind.Writes id ∧
    ¬ (shelf.reading base path).HasRecord (settings.series i.command.kind).field id ∧
    (after.reading base path).HasRecord (settings.series i.command.kind).field id := by
  have mutates := Command.mutates_of_issues issues
  obtain ⟨d, s, now, r, w, served, found, rfl, reading⟩ := saved_of_visit visit mutates state
  have series := Invocation.series_of_desk configured served.desk i.command.kind
  rw [printed_output] at hid
  obtain ⟨writes, clear⟩ := Surroundings.issued_anew issues (served.run_of_mutates mutates) id hid
  rw [series] at clear
  refine ⟨writes, fun known => clear (known s found), ?_⟩
  exact hasRecord_of_text reading ((served.leaves mutates).isRecorded_iff.mpr
    (.inr ⟨issues, by rw [series], hid⟩))

theorem issues_of_printed (state : i.state = some path)
    (visit : shelf.visit base i around = (.ok out, after)) (mutates : i.command.Mutates)
    (hid : id ∈ printed out) : i.command.Issues := by
  obtain ⟨d, s, now, r, w, served, -, e, -⟩ := saved_of_visit visit mutates state
  have run := served.run_of_mutates mutates
  rw [e, printed_output] at hid
  cases hc : i.command with
  | reset kind =>
    rw [hc] at run
    cases run
    cases hid
  | preview | dryRun =>
    rw [hc] at mutates
    exact mutates.elim
  | _ => trivial

end Shelf

/-! ## Visits one after another -/

/-- Visits one after another with one state and under the same settings, and what was printed by
those that succeed. Others may fail, and in between anything may change but what the state's path
leads to. -/
inductive Visits (base : List String) (path : String) (settings : Settings) :
    Shelf → List (Command × Json) → Shelf → Prop
  | nil (shelf : Shelf) : Visits base path settings shelf [] shelf
  | visit {shelf after last : Shelf} {i : Invocation} {around : Surroundings} {out : Json}
      {log : List (Command × Json)} (state : i.state = some path)
      (configured : i.configured (shelf.reading base) = .ok settings)
      (visit : shelf.visit base i around = (.ok out, after))
      (rest : Visits base path settings after log last) :
      Visits base path settings shelf ((i.command, out) :: log) last
  | failure {shelf after last : Shelf} {i : Invocation} {around : Surroundings} {e : Failure}
      {log : List (Command × Json)} (state : i.state = some path)
      (visit : shelf.visit base i around = (.error e, after))
      (rest : Visits base path settings after log last) : Visits base path settings shelf log last
  | other {shelf after last : Shelf} {log : List (Command × Json)}
      (same : after.reading base path = shelf.reading base path)
      (rest : Visits base path settings after log last) : Visits base path settings shelf log last

namespace Visits

variable {log earlier later : List (Command × Json)} {entry : Command × Json}

/-- **What is on record stays on record.** -/
theorem keeps {value : String} (run : Visits base path settings shelf log last)
    (h : (shelf.reading base path).HasRecord field value) :
    (last.reading base path).HasRecord field value := by
  induction run with
  | nil => exact h
  | @visit _ _ _ i around out _ state _ visit _ ih =>
    have kept := Shelf.hasRecord_visit around state h
    rw [visit] at kept
    exact ih kept
  | @failure _ _ _ i around e _ state visit _ ih =>
    have kept := Shelf.hasRecord_visit around state h
    rw [visit] at kept
    exact ih kept
  | other same _ ih => exact ih (by rwa [same])

theorem split (run : Visits base path settings shelf (earlier ++ entry :: later) last) :
    ∃ before after i around, Visits base path settings shelf earlier before ∧
      i.state = some path ∧ i.configured (before.reading base) = .ok settings ∧
      before.visit base i around = (.ok entry.2, after) ∧ i.command = entry.1 ∧
      Visits base path settings after later last := by
  generalize whole : earlier ++ entry :: later = log at run
  induction run generalizing earlier with
  | nil => simp at whole
  | @visit shelf after last i around out log state configured visit rest ih =>
    cases earlier with
    | nil =>
      obtain ⟨rfl, rfl⟩ := List.cons.inj whole
      exact ⟨shelf, after, i, around, .nil shelf, state, configured, visit, rfl, rest⟩
    | cons first earlier =>
      obtain ⟨rfl, tail⟩ := List.cons.inj whole
      obtain ⟨before, after', i', around', run, rest'⟩ := ih tail
      exact ⟨before, after', i', around', .visit state configured visit run, rest'⟩
  | failure state visit rest ih =>
    obtain ⟨before, after', i', around', run, rest'⟩ := ih whole
    exact ⟨before, after', i', around', .failure state visit run, rest'⟩
  | other same rest ih =>
    obtain ⟨before, after', i', around', run, rest'⟩ := ih whole
    exact ⟨before, after', i', around', .other same run, rest'⟩

/-- **Nothing is issued twice.** What a command issues was not on record at the start, and was not
printed before by a command that changes the state. -/
theorem issued_once {c : Command}
    (run : Visits base path settings shelf (earlier ++ (c, out) :: later) last) (issues : c.Issues)
    (hid : id ∈ printed out) :
    (∀ s, (shelf.reading base path).state? = some s →
      ¬ (Ledger.ofSnapshot 0 s).IsRecorded (settings.series c.kind).field id) ∧
    ∀ entry ∈ earlier, entry.1.Mutates → id ∉ printed entry.2 := by
  obtain ⟨before, after, i, around, first, state, configured, visit, rfl, -⟩ := run.split
  obtain ⟨writes, clear, -⟩ := Shelf.issued_of_visit state configured visit issues hid
  constructor
  · intro s found known
    refine clear (first.keeps fun s' found' => ?_)
    obtain rfl := Option.some.inj (found.symm.trans found')
    exact known
  · rintro ⟨c, out'⟩ mem mutates hid'
    obtain ⟨earlier, later, rfl⟩ := List.append_of_mem mem
    obtain ⟨before', after', j, around', -, state', configured', visit', rfl, rest⟩ := first.split
    have issues' : j.command.Issues := Shelf.issues_of_printed state' visit' mutates hid'
    obtain ⟨writes', -, known⟩ := Shelf.issued_of_visit state' configured' visit' issues' hid'
    -- It looks like one kind only, so it went on record in the field that was checked.
    rw [writes'.kind_eq writes] at known
    exact clear (rest.keeps known)

theorem issued_once_bare : ∃ last,
    Visits ["d"] "s" {} { home := ["d"] }
      ([(.roll, .obj [("id", .str "250314-0-01")])] ++ (.roll, .obj [("id", .str "250314-0-02")]) ::
        []) last ∧
    Command.roll.Issues ∧ "250314-0-02" ∈ printed (.obj [("id", .str "250314-0-02")]) ∧
    "250314-0-02" ∉ printed (.obj [("id", .str "250314-0-01")]) := by
  obtain ⟨w, served, saved⟩ := served_bare
  obtain ⟨after, first, home, reading⟩ := Shelf.exists_visit served trivial rfl
    (Shelf.isSome_place? rfl Shelf.isPlain_state) (Shelf.isSome_place? rfl Shelf.isPlain_staging)
  have found : (after.reading ["d"] "s").state? = some rolled := by
    rw [reading, saved, Reading.state?, stateText, Json.parse?_pretty rolled.plain_toJson]
    decide +kernel
  have again : ∃ w, Invocation.Served { state := some "s", command := .roll }
      (Shelf.reading after ["d"]) march ⟨{}, by cbv⟩ (.ofSnapshot 0 rolled) ⟨1741942800, 0, 0⟩
      (.id "250314-0-02") w :=
    ⟨_, Invocation.desk_eq (s := {}) rfl rfl rfl, Invocation.ledger_eq rfl found, rfl, _, rfl,
      by cbv⟩
  obtain ⟨w', again⟩ := again
  obtain ⟨last, second, -⟩ := Shelf.exists_visit again trivial rfl
    (Shelf.isSome_place? home Shelf.isPlain_state) (Shelf.isSome_place? home Shelf.isPlain_staging)
  have run : Visits ["d"] "s" {} { home := ["d"] }
      ([(.roll, .obj [("id", .str "250314-0-01")])] ++
        (.roll, .obj [("id", .str "250314-0-02")]) :: []) last :=
    .visit rfl rfl first (.visit rfl rfl second (.nil last))
  have mem : "250314-0-02" ∈ printed (.obj [("id", .str "250314-0-02")]) := List.mem_singleton_self _
  exact ⟨last, run, trivial, mem,
    (run.issued_once trivial mem).2 _ (List.mem_singleton_self _) trivial⟩

/-- A roll number that was previewed is issued. -/
theorem issues_previewed : ∃ last, Visits ["d"] "s" {} { home := ["d"] }
    [(.preview 1, .arr [.obj [("aux_digit", .nat 0), ("id", .str "250314-0-01"), ("index", .nat 1),
      ("period_key", .str "250314"), ("sequence", .nat 1)]]),
    (.roll, .obj [("id", .str "250314-0-01")])] last := by
  have preview : ∃ w, Invocation.Served { state := some "s", command := .preview 1 }
      (Shelf.reading { home := ["d"] } ["d"]) march ⟨{}, by cbv⟩ {} ⟨1741942800, 0, 0⟩
      (.entries [⟨"250314-0-01", "250314", 1, 0, 1⟩]) w :=
    ⟨_, Invocation.desk_eq (s := {}) rfl rfl rfl, by simp only [Invocation.ledger, reading_bare],
      rfl, {}, rfl, by cbv⟩
  obtain ⟨w, preview⟩ := preview
  have first := Shelf.visit_of_not_mutates preview (by decide)
  obtain ⟨w, served, -⟩ := served_bare
  obtain ⟨last, second, -⟩ := Shelf.exists_visit served trivial rfl
    (Shelf.isSome_place? rfl Shelf.isPlain_state) (Shelf.isSome_place? rfl Shelf.isPlain_staging)
  exact ⟨last, .visit rfl rfl first (.visit rfl rfl second (.nil last))⟩

end Visits

end CommandLine

end Docket
