import Docket.Proofs.CommandLine.Visits
import Docket.Proofs.Issue.Skips
import Docket.Proofs.Roll.Batch

/-!
# The same visit again

A visit that fails leaves the state as it was, so that the next one makes the same attempts. Asked
for a roll number again and again, the program gives one out at the first visit or never.

* **`Invocation.Rolls.again`**: how the same visit ends, time after time.
-/

namespace Docket

/-! ## Drafts -/

namespace RollCycle

variable {l : RollSettings} {now : Time} {σ : Slate} {q : Nat}

theorem Stands.after_draft (htop : 1 ≤ l.maxSequence) (hle : l.maxSequence ≤ 99)
    (h : Stands l now σ q) (n : Nat) :
    Stands l now (σ.after (Series.roll l).draft now n) (q + n) := by
  induction n with
  | zero => exact h
  | succ n ih =>
    obtain ⟨σ', run, stands⟩ := ih.draft htop hle
    rw [Slate.after, run]
    exact stands

/-- **Drafts one after another** take one position after another. -/
theorem Stands.nth_draft (htop : 1 ≤ l.maxSequence) (hle : l.maxSequence ≤ 99)
    (h : Stands l now σ q) (n : Nat) : σ.nth (Series.roll l).draft now n =
      .ok (number ((Series.roll l).key now) l.maxSequence (q + n)).text := by
  obtain ⟨σ', run, -⟩ := (h.after_draft htop hle n).draft htop hle
  exact congrArg Prod.fst run

end RollCycle

/-! ## Roll numbers to come -/

/-- The roll number that comes after the counter of a day and `j` others. -/
def Desk.upcoming (d : Desk) (s : Snapshot) (key : String) (j : Nat) : String :=
  let top := d.settings.roll.maxSequence
  (RollCycle.number key top (RollCycle.place top s.counters[key]? + j)).text

def Desk.HasRoll (d : Desk) (s : Snapshot) (id : String) : Prop :=
  (Ledger.ofSnapshot 0 s).IsRecorded d.settings.roll.field id

instance (d : Desk) (s : Snapshot) (id : String) : Decidable (d.HasRoll s id) := by
  unfold Desk.HasRoll; infer_instance

namespace CommandLine

/-- The same invocation, again and again: how each visit ends, and the shelf after them. -/
def Shelf.visitAgain (base : List String) (i : Invocation) :
    Shelf → List Surroundings → List (Except Failure Json) × Shelf
  | shelf, [] => ([], shelf)
  | shelf, around :: arounds =>
    let (result, after) := shelf.visit base i around
    let (results, last) := visitAgain base i after arounds
    (result :: results, last)

variable {i : Invocation} {shelf : Shelf} {base : List String} {path key : String} {d : Desk}
  {s : Snapshot} {around : Surroundings} {arounds : List Surroundings} {j : Nat}

/-! ## One visit -/

/-- Whether an invocation asks for a roll number where it can be recorded, and the counter of the
day is missing or in order. -/
structure Invocation.Rolls (i : Invocation) (shelf : Shelf) (base : List String) (path key : String)
    (d : Desk) (s : Snapshot) : Prop where
  command : i.command = .roll
  state : i.state = some path
  desk : i.desk (shelf.reading base) = .ok d
  found : (shelf.reading base path).state? = some s
  place : (shelf.place? base path).isSome
  staging : (shelf.place? base (stagingPath path)).isSome
  record : RollCycle.IsRecord s.counters[key]?
  within : ∀ c, s.counters[key]? = some c → c.sequence ≤ d.settings.roll.maxSequence

/-- Whether an invocation is made on a day and not told to stop. -/
def Invocation.IsOn (i : Invocation) (key : String) (around : Surroundings) : Prop :=
  around.stopped = false ∧ ∃ now, i.time around = .ok now ∧ now.date.dayKey = key

theorem serve_roll {w w' : World} {x : Except Error String}
    (issue : ((Series.roll d.settings.roll).issueOne d.settings.retry).run w = (.finished x, w')) :
    (d.serve Command.roll.request).run w = (.finished (x.map .id), w') := by
  show (((Series.roll d.settings.roll).issueOne d.settings.retry).bind fun x =>
    .done (x.map Response.id)).run w = _
  rw [Plan.run_bind, issue]
  rfl

namespace Invocation.Rolls

variable (h : i.Rolls shelf base path key d s)
include h

theorem ledger : i.ledger (shelf.reading base) = .ok (.ofSnapshot 0 s) :=
  ledger_eq h.state h.found

theorem withExisting (l : Ledger) : i.withExisting d l (shelf.reading base) = .ok l := by
  rw [Invocation.withExisting, h.command]

theorem stands {now : Time} (today : now.date.dayKey = key) :
    RollCycle.Stands d.settings.roll now (around.world (.ofSnapshot 0 s) now).slate
      (RollCycle.place d.settings.roll.maxSequence s.counters[key]?) := by
  subst today
  refine ⟨RollCycle.awaits_place h.record, ?_⟩
  show (s.counters[now.date.dayKey]?.getD ⟨_, 0, .digit 0, now⟩).sequence.toNat + 1 < UInt64.size
  cases hc : s.counters[now.date.dayKey]? with
  | none => exact (by decide : 0 + 1 < UInt64.size)
  | some c =>
    have le := UInt64.le_iff_toNat_le.mp
      (UInt64.le_trans (h.within c hc) d.maxSequence_bounds.2)
    rw [Option.getD_some, show UInt64.size = 2 ^ 64 from rfl]
    have small : c.sequence.toNat ≤ 99 := le
    omega

theorem nth_draft {now : Time} (today : now.date.dayKey = key) (j : Nat) :
    (around.world (.ofSnapshot 0 s) now).slate.nth (Series.roll d.settings.roll).draft now j =
      .ok (d.upcoming s key j) := by
  obtain ⟨htop, hle⟩ := d.maxSequence_bounds
  rw [(h.stands today).nth_draft htop hle j, ← today]
  rfl

theorem taken {now : Time} (today : now.date.dayKey = key)
    (known : d.HasRoll s (d.upcoming s key j)) :
    (Series.roll d.settings.roll).Taken now (around.world (.ofSnapshot 0 s) now) j :=
  ⟨_, h.nth_draft today j, known⟩

/-- **A visit gives out** the first roll number to come that is not on record, if it gets there. -/
theorem visit_issues (on : i.IsOn key around) (lt : j < d.settings.retry.maxAttempts)
    (known : ∀ k < j, d.HasRoll s (d.upcoming s key k))
    (clear : ¬ d.HasRoll s (d.upcoming s key j)) : ∃ after,
      shelf.visit base i around = (.ok (.obj [("id", .str (d.upcoming s key j))]), after) := by
  obtain ⟨goesOn, now, time, today⟩ := on
  obtain ⟨w, issue, -⟩ := Series.settles_attemptAlone.retrying_issues
    (Surroundings.quiet_world goesOn s now _) lt (fun k hk => h.taken today (known k hk))
    (h.nth_draft today j) clear
  have run : (d.serve i.command.request).run (around.world (.ofSnapshot 0 s) now) =
      (.finished (.ok (.id (d.upcoming s key j))), w) := by
    rw [h.command]
    exact serve_roll issue
  have served : i.Served (shelf.reading base) around d (.ofSnapshot 0 s) now
      (.id (d.upcoming s key j)) w := ⟨h.desk, h.ledger, time, _, h.withExisting _, run⟩
  obtain ⟨after, visit, -, -⟩ :=
    Shelf.exists_visit served (by rw [h.command]; trivial) h.state h.place h.staging
  exact ⟨after, visit⟩

/-- **A visit fails** if it does not get there, and leaves the shelf as it was. -/
theorem visit_exhausts (on : i.IsOn key around)
    (known : ∀ k < d.settings.retry.maxAttempts, d.HasRoll s (d.upcoming s key k)) :
    shelf.visit base i around =
      (.error (.request (.exhausted d.settings.retry.maxAttempts none)), shelf) := by
  obtain ⟨goesOn, now, time, today⟩ := on
  obtain ⟨w, issue, -⟩ := Series.settles_attemptAlone.retrying_exhausts
    (Surroundings.quiet_world goesOn s now _) fun k hk => h.taken today (known k hk)
  have run : (d.serve i.command.request).run (around.world (.ofSnapshot 0 s) now) =
      (.finished (.error (.exhausted d.settings.retry.maxAttempts none)), w) := by
    rw [h.command]
    exact serve_roll issue
  exact Shelf.visit_of_error h.desk h.ledger time (h.withExisting _) run

end Invocation.Rolls

/-! ## Many visits -/

theorem Shelf.visitAgain_of_error {e : Failure}
    (fails : ∀ around ∈ arounds, shelf.visit base i around = (.error e, shelf)) :
    shelf.visitAgain base i arounds = (arounds.map fun _ => .error e, shelf) := by
  induction arounds with
  | nil => rfl
  | cons around arounds ih =>
    obtain ⟨first, rest⟩ := List.forall_mem_cons.mp fails
    simp only [visitAgain, first, ih rest, List.map_cons]

theorem Shelf.head?_visitAgain {result : Except Failure Json} {after : Shelf}
    (first : shelf.visit base i around = (result, after)) (arounds : List Surroundings) :
    (shelf.visitAgain base i (around :: arounds)).1.head? = some result := by
  simp only [visitAgain, first, List.head?_cons]

theorem mem_turn_iff (d : Desk) (s : Snapshot) {id : String} :
    id ∈ RollCycle.stretch key d.settings.roll.maxSequence 0
        (RollCycle.length d.settings.roll.maxSequence) ↔
      ∃ j < RollCycle.length d.settings.roll.maxSequence, d.upcoming s key j = id := by
  rw [← (RollCycle.perm_turn d.maxSequence_bounds.1
    (RollCycle.place d.settings.roll.maxSequence s.counters[key]?)).mem_iff]
  simp only [RollCycle.stretch, List.mem_map, List.mem_range'_1]
  constructor
  · rintro ⟨q, ⟨le, lt⟩, rfl⟩
    obtain ⟨j, rfl⟩ := Nat.exists_eq_add_of_le le
    exact ⟨j, by omega, rfl⟩
  · rintro ⟨j, lt, rfl⟩
    exact ⟨_, ⟨Nat.le_add_right _ _, by omega⟩, rfl⟩

/-- **Asked for a roll number again and again**, the program gives one out at the first visit or
never: it gets as far as its attempts allow from where the counter stands, and starts from there
again. It gets past all numbers on record if it may make as many attempts as the day has numbers. -/
theorem Invocation.Rolls.again (h : i.Rolls shelf base path key d s)
    (on : ∀ around' ∈ around :: arounds, i.IsOn key around') :
    let attempts := d.settings.retry.maxAttempts
    let turn := RollCycle.length d.settings.roll.maxSequence
    let known j := d.HasRoll s (d.upcoming s key j)
    let results := shelf.visitAgain base i (around :: arounds)
    ((∃ out, .ok out ∈ results.1) ↔ ∃ j < attempts, ¬ known j) ∧
    (∀ j < attempts, (∀ k < j, known k) → ¬ known j →
      results.1.head? = some (.ok (.obj [("id", .str (d.upcoming s key j))]))) ∧
    ((∀ j < attempts, known j) → results =
      ((around :: arounds).map fun _ => .error (.request (.exhausted attempts none)), shelf)) ∧
    (turn ≤ attempts →
      (∃ id ∈ RollCycle.stretch key d.settings.roll.maxSequence 0 turn, ¬ d.HasRoll s id) →
      ∃ out, results.1.head? = some (.ok out)) := by
  intro attempts turn known results
  have gives (j) (lt : j < attempts) (before : ∀ k < j, known k) (clear : ¬ known j) :
      results.1.head? = some (.ok (.obj [("id", .str (d.upcoming s key j))])) := by
    obtain ⟨after, visit⟩ := h.visit_issues (on _ List.mem_cons_self) lt before clear
    exact Shelf.head?_visitAgain visit arounds
  have exhausts (all : ∀ j < attempts, known j) : results =
      ((around :: arounds).map fun _ => .error (.request (.exhausted attempts none)), shelf) :=
    Shelf.visitAgain_of_error fun around' mem => h.visit_exhausts (on around' mem) all
  -- If any of them is not on record, there is a first one.
  have first (free : ∃ j < attempts, ¬ known j) : ∃ out, results.1.head? = some (.ok out) := by
    classical
    obtain ⟨lt, clear⟩ := Nat.find_spec free
    refine ⟨_, gives (Nat.find free) lt (fun k hk => ?_) clear⟩
    by_contra clear'
    exact Nat.find_min free hk ⟨by omega, clear'⟩
  refine ⟨⟨fun ⟨out, mem⟩ => ?_, fun free => ?_⟩, gives, exhausts, fun le ⟨id, mem, clear⟩ => ?_⟩
  · by_contra none
    rw [exhausts fun j lt => by_contra fun clear => none ⟨j, lt, clear⟩] at mem
    obtain ⟨_, -, e⟩ := List.mem_map.mp mem
    cases e
  · obtain ⟨out, head⟩ := first free
    exact ⟨out, List.mem_of_mem_head? head⟩
  · obtain ⟨j, lt, rfl⟩ := (mem_turn_iff d s).mp mem
    exact first ⟨j, Nat.lt_of_lt_of_le lt le, clear⟩

/-- A configuration under which a day has ten roll numbers. -/
def narrowText : String := "\x7b\"roll\":\x7b\"max_sequence\":1\x7d\x7d"

/-- A shelf with that configuration, and with a state in which the first of them is on record. -/
def Shelf.begun : Shelf where
  home := ["d"]
  texts := {("/d/c", narrowText),
    ("/d/s", "\x7b\"records\":\x7b\"registration_no\":[\"250314-0-01\"]\x7d\x7d")}

def begun : Snapshot := ⟨∅, {("registration_no", {"250314-0-01"})}⟩

theorem rolls_begun (attempts : Option Nat) {d : Desk} (settings : d.settings =
      { roll := { maxSequence := 1 }, retry := { maxAttempts := attempts.getD 3 } }) :
    Invocation.Rolls
      { state := some "s", config := some "c", maxAttempts := attempts, command := .roll }
      .begun ["d"] "s" "250314" d begun where
  command := rfl
  state := rfl
  desk := by
    have home : Shelf.begun.home = ["d"] := rfl
    have text : Shelf.begun.reading ["d"] "c" = .text narrowText := by
      rw [Shelf.reading_of_isPlain home Shelf.isPlain_config]
      decide +kernel
    have read : (Json.parse? narrowText).bind Settings.ofJson? =
        some { roll := { maxSequence := 1 } } := by decide +kernel
    refine Invocation.desk_eq (s := { roll := { maxSequence := 1 } }) ?_ ?_ rfl
    · simp only [Invocation.configured, text, read, Option.elim_some]
    · rw [settings]
      rfl
  found := by
    have home : Shelf.begun.home = ["d"] := rfl
    rw [Shelf.reading_of_isPlain home Shelf.isPlain_state]
    decide +kernel
  place := Shelf.isSome_place? rfl Shelf.isPlain_state
  staging := Shelf.isSome_place? rfl Shelf.isPlain_staging
  record := nofun
  within := nofun

theorem isOn_march (i : Invocation) (date : i.date = none) : i.IsOn "250314" march := by
  refine ⟨rfl, march.now, ?_, by decide +kernel⟩
  rw [Invocation.time, date]

/-- With three attempts the second roll number of the day is given out. -/
theorem Invocation.Rolls.again_begun :
    let i : Invocation := { state := some "s", config := some "c", command := .roll }
    i.Rolls .begun ["d"] "s" "250314" .narrow begun ∧
    (∀ around ∈ List.replicate 2 march, i.IsOn "250314" around) ∧
    (Shelf.begun.visitAgain ["d"] i (List.replicate 2 march)).1.head? =
      some (.ok (.obj [("id", .str "250314-1-01")])) := by
  intro i
  have rolls : i.Rolls .begun ["d"] "s" "250314" .narrow begun := rolls_begun none rfl
  have on : ∀ around ∈ List.replicate 2 march, i.IsOn "250314" around := fun around mem =>
    List.eq_of_mem_replicate mem ▸ isOn_march i rfl
  refine ⟨rolls, on, ?_⟩
  have known : ∀ k < 1, Desk.narrow.HasRoll begun (Desk.narrow.upcoming begun "250314" k) := by
    decide +kernel
  have clear : ¬ Desk.narrow.HasRoll begun (Desk.narrow.upcoming begun "250314" 1) := by
    decide +kernel
  exact (rolls.again on).2.1 1 (by decide) known clear

/-- With one attempt each, no visit gets past the first roll number of the day. -/
theorem Invocation.Rolls.again_stuck :
    let i : Invocation :=
      { state := some "s", config := some "c", maxAttempts := some 1, command := .roll }
    ∃ d : Desk, d.settings.roll.maxSequence = 1 ∧ d.settings.retry.maxAttempts = 1 ∧
    i.Rolls .begun ["d"] "s" "250314" d begun ∧
    (∀ around ∈ List.replicate 11 march, i.IsOn "250314" around) ∧
    (∃ id ∈ RollCycle.stretch "250314" 1 0 10, ¬ d.HasRoll begun id) ∧
    (Shelf.begun.visitAgain ["d"] i (List.replicate 11 march)).1 =
      List.replicate 11 (.error (.request (.exhausted 1 none))) := by
  intro i
  let d : Desk := ⟨{ roll := { maxSequence := 1 }, retry := { maxAttempts := 1 } }, by cbv⟩
  have rolls : i.Rolls .begun ["d"] "s" "250314" d begun := rolls_begun (some 1) rfl
  have on : ∀ around ∈ List.replicate 11 march, i.IsOn "250314" around := fun around mem =>
    List.eq_of_mem_replicate mem ▸ isOn_march i rfl
  have known : ∀ k < 1, d.HasRoll begun (d.upcoming begun "250314" k) := by
    decide +kernel
  refine ⟨d, rfl, rfl, rolls, on, by decide +kernel, ?_⟩
  rw [Shelf.visitAgain_of_error fun around mem => rolls.visit_exhausts (on around mem) known]
  rfl

end CommandLine

end Docket
