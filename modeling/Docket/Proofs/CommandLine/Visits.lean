import Docket.Proofs.CommandLine.Shelves
import Docket.Proofs.Ledger.Saved
import Docket.Proofs.Run.Calm

/-!
# How a visit ends

* `Reading.state?`, `Invocation.Served`: the state that an invocation finds, and what comes of one
  that succeeds;
* **`Shelf.visit_cases`**: a visit fails and changes nothing, succeeds and has nothing to save, or
  saves.
-/

namespace Docket.CommandLine

/-! ## States -/

def Reading.state? : Reading → Option Snapshot
  | .absent => some {}
  | .unreadable => none
  | .text s => (Json.parse? s).bind Snapshot.ofJson?

theorem records_of_stateText {s s' : Snapshot} (h : (Reading.text (stateText s)).state? = some s') :
    s'.records = s.records := by
  rw [Reading.state?, stateText, Json.parse?_pretty s.plain_toJson] at h
  exact Snapshot.records_of_ofJson? h

theorem state?_stateText {s : Snapshot} (times : ∀ (key : String) (c : Counter),
    s.counters[key]? = some c → c.written.Exact) : (Reading.text (stateText s)).state? = some s := by
  rw [Reading.state?, stateText, Json.parse?_pretty s.plain_toJson]
  exact Snapshot.ofJson?_toJson times

/-! ## Serving -/

/-- The world in which a request is served. -/
def Surroundings.world (around : Surroundings) (l : Ledger) (now : Time) : World where
  ledger := l
  clock := fun _ => now
  stopAfter := if around.stopped then some 0 else none
  words := around.words

/-- 14 March 2025, with no random words. -/
def march : Surroundings :=
  ⟨fun _ => .absent, ⟨1741942800, 0, 0⟩, fun _ => none, fun _ => 0, false⟩

variable {i : Invocation} {files : String → Reading} {around : Surroundings} {d : Desk}
  {l l' : Ledger} {now : Time} {r : Response} {w : World}

theorem Surroundings.quiet_world (goesOn : around.stopped = false) (s : Snapshot) (now : Time)
    (key : String) :
    (around.world (.ofSnapshot 0 s) now).Quiet now key :=
  ⟨⟨fun _ => rfl, fun _ => rfl, by simp [world, goesOn]⟩, fun l hl => by cases hl⟩

/-- An invocation that succeeds: its desk, ledger and time, the response, and the world after it. -/
structure Invocation.Served (i : Invocation) (files : String → Reading) (around : Surroundings)
    (d : Desk) (l : Ledger) (now : Time) (r : Response) (w : World) : Prop where
  desk : i.desk files = .ok d
  ledger : i.ledger files = .ok l
  time : i.time around = .ok now
  run : ∃ l', i.withExisting d l files = .ok l' ∧
    (d.serve i.command.request).run (around.world l' now) = (.finished (.ok r), w)

/-- What a command that changes the ledger finds in it is what was in the state. -/
theorem Invocation.Served.run_of_mutates (h : i.Served files around d l now r w)
    (mutates : i.command.Mutates) :
    (d.serve i.command.request).run (around.world l now) = (.finished (.ok r), w) := by
  obtain ⟨l', existing, run⟩ := h.run
  have same : i.withExisting d l files = .ok l := by
    unfold Invocation.withExisting
    split
    · next e => rw [e] at mutates; exact mutates.elim
    · rfl
  obtain rfl : l = l' := Except.ok.inj (same.symm.trans existing)
  exact run

theorem Invocation.exists_of_ledger (h : i.ledger files = .ok l) :
    ∃ s, l = .ofSnapshot 0 s ∧ ∀ path, i.state = some path → (files path).state? = some s := by
  unfold ledger at h
  split at h
  · next none => exact ⟨{}, (Except.ok.inj h).symm, by simp [none]⟩
  · next path state =>
    have found {s} (hs : (files path).state? = some s) :
        ∀ path, i.state = some path → (files path).state? = some s := by
      rintro _ e
      obtain rfl := Option.some.inj (state.symm.trans e)
      exact hs
    split at h
    · next absent => exact ⟨{}, (Except.ok.inj h).symm, found (by rw [absent]; rfl)⟩
    · cases h
    · next text reading =>
      cases hs : (Json.parse? text).bind Snapshot.ofJson? with
      | none => rw [hs] at h; cases h
      | some s =>
        rw [hs] at h
        exact ⟨s, (Except.ok.inj h).symm, found (by rw [reading]; exact hs)⟩

theorem Invocation.ledger_eq {path : String} {s : Snapshot} (state : i.state = some path)
    (h : (files path).state? = some s) : i.ledger files = .ok (.ofSnapshot 0 s) := by
  simp only [ledger, state]
  cases reading : files path with
  | absent =>
    rw [reading] at h
    cases h
    rfl
  | unreadable =>
    rw [reading] at h
    cases h
  | text text =>
    rw [reading, Reading.state?] at h
    simp only [h, Option.elim_some]

theorem Invocation.serve_ok (h : i.serve d l now around = .ok (r, l')) :
    ∃ w, (d.serve i.command.request).run (around.world l now) = (.finished (.ok r), w) ∧
      l' = i.record d r w.ledger := by
  simp only [serve] at h
  split at h
  · next r w run =>
    obtain ⟨rfl, rfl⟩ := Prod.mk.inj (Except.ok.inj h)
    exact ⟨w, run, rfl⟩
  · cases h
  · cases h

theorem Invocation.visit_ok {v : Visit} (h : i.visit around = .ok v) :
    ∃ d l now r w, i.Served around.files around d l now r w ∧ v = ⟨i.command.output r,
      if i.command.Mutates then i.state.map (·, (i.record d r w.ledger).snapshot) else none⟩ := by
  obtain ⟨d, desk, h⟩ := bind_eq_ok_iff.mp h
  obtain ⟨l, ledger, h⟩ := bind_eq_ok_iff.mp h
  obtain ⟨now, time, h⟩ := bind_eq_ok_iff.mp h
  obtain ⟨l', existing, h⟩ := bind_eq_ok_iff.mp h
  obtain ⟨⟨r, l''⟩, serve, h⟩ := bind_eq_ok_iff.mp h
  obtain ⟨w, run, rfl⟩ := Invocation.serve_ok serve
  have e : _ = v := Except.ok.inj h
  exact ⟨d, l, now, r, w, ⟨desk, ledger, time, l', existing, run⟩, e.symm⟩

theorem ofSettings_settings (d : Desk) : Desk.ofSettings d.settings = .ok d := by
  unfold Desk.ofSettings
  split
  · rfl
  · next e h =>
    rw [d.valid] at h
    cases h

theorem Invocation.desk_eq {s : Settings} (configured : i.configured files = .ok s)
    (override : i.override s = .ok d.settings) (count : i.checkCount = .ok ()) :
    i.desk files = .ok d := by
  simp only [desk, configured, override, count, ofSettings_settings, Bind.bind, Except.bind,
    Except.mapError]
  rfl

theorem Invocation.visit_eq (desk : i.desk files = .ok d) (ledger : i.ledger files = .ok l)
    (time : i.time around = .ok now) (existing : i.withExisting d l files = .ok l') :
    i.visit { around with files := files } =
      match (d.serve i.command.request).run (around.world l' now) with
      | (.finished (.ok r), w) => .ok ⟨i.command.output r,
        if i.command.Mutates then i.state.map (·, (i.record d r w.ledger).snapshot) else none⟩
      | (.finished (.error e), _) => .error (.request e)
      | (.hung, _) => .error .unanswered := by
  have serve : i.serve d l' now { around with files := files } =
      match (d.serve i.command.request).run (around.world l' now) with
      | (.finished (.ok r), w) => .ok (r, i.record d r w.ledger)
      | (.finished (.error e), _) => .error (.request e)
      | (.hung, _) => .error .unanswered := rfl
  have time : i.time { around with files := files } = .ok now := time
  simp only [visit, desk, ledger, time, existing, serve, Bind.bind, Except.bind]
  generalize (d.serve i.command.request).run (around.world l' now) = result
  match result with
  | (.finished (.ok r), w) => rfl
  | (.finished (.error e), w) => rfl
  | (.hung, w) => rfl

/-! ## How a visit ends -/

namespace Shelf

/-- A visit fails and changes nothing, succeeds and has nothing to save, or saves. -/
theorem visit_cases (shelf : Shelf) (base : List String) (i : Invocation)
    (around : Surroundings) :
    (∃ e, shelf.visit base i around = (.error e, shelf)) ∨
    ∃ d l now r w, i.Served (shelf.reading base) around d l now r w ∧
      ((shelf.visit base i around = (.ok (i.command.output r), shelf) ∧
        (i.command.Mutates → i.state = none)) ∨
      ∃ path after, i.command.Mutates ∧ i.state = some path ∧
        shelf.save base path (stateText (i.record d r w.ledger).snapshot) = .ok after ∧
        shelf.visit base i around = (.ok (i.command.output r), after)) := by
  unfold visit
  cases hv : i.visit { around with files := shelf.reading base } with
  | error e => exact .inl ⟨e, rfl⟩
  | ok v =>
    obtain ⟨d, l, now, r, w, served, rfl⟩ := Invocation.visit_ok hv
    have served : i.Served (shelf.reading base) around d l now r w :=
      ⟨served.desk, served.ledger, served.time, served.run⟩
    by_cases mutates : i.command.Mutates
    · simp only [if_pos mutates]
      cases state : i.state with
      | none => exact .inr ⟨d, l, now, r, w, served, .inl ⟨rfl, fun _ => rfl⟩⟩
      | some path =>
        simp only [Option.map_some]
        cases saved : shelf.save base path (stateText (i.record d r w.ledger).snapshot) with
        | error e => exact .inl ⟨e, rfl⟩
        | ok after =>
          exact .inr ⟨d, l, now, r, w, served, .inr ⟨path, after, mutates, rfl, saved, rfl⟩⟩
    · simp only [if_neg mutates]
      exact .inr ⟨d, l, now, r, w, served, .inl ⟨rfl, fun h => absurd h mutates⟩⟩

/-- **What a success saves**, where there is something to save. -/
theorem saved_of_visit {shelf after : Shelf} {base : List String} {path : String} {out : Json}
    (visit : shelf.visit base i around = (.ok out, after)) (mutates : i.command.Mutates)
    (state : i.state = some path) : ∃ d s now r w,
      i.Served (shelf.reading base) around d (.ofSnapshot 0 s) now r w ∧
      (shelf.reading base path).state? = some s ∧ out = i.command.output r ∧
      after.reading base path = .text (stateText (i.record d r w.ledger).snapshot) := by
  rcases shelf.visit_cases base i around with ⟨e, visit'⟩ | ⟨d, l, now, r, w, served,
    ⟨visit', unsaved⟩ | ⟨path', after, -, state', saved, visit'⟩⟩ <;>
    cases visit.symm.trans visit'
  · rw [unsaved mutates] at state
    cases state
  · obtain rfl := Option.some.inj (state.symm.trans state')
    obtain ⟨s, rfl, found⟩ := Invocation.exists_of_ledger served.ledger
    exact ⟨d, s, now, r, w, served, found path state, rfl, reading_save saved⟩

theorem visit_of_not_mutates {shelf : Shelf} {base : List String}
    (served : i.Served (shelf.reading base) around d l now r w) (mutates : ¬ i.command.Mutates) :
    shelf.visit base i around = (.ok (i.command.output r), shelf) := by
  obtain ⟨l', existing, run⟩ := served.run
  have made : i.visit { around with files := shelf.reading base } =
      .ok ⟨i.command.output r, none⟩ := by
    simp only [Invocation.visit_eq served.desk served.ledger served.time existing, run,
      if_neg mutates]
  simp only [visit, made]

theorem visit_of_served {shelf after : Shelf} {base : List String} {path : String}
    (served : i.Served (shelf.reading base) around d l now r w) (mutates : i.command.Mutates)
    (state : i.state = some path)
    (saved : shelf.save base path (stateText (i.record d r w.ledger).snapshot) = .ok after) :
    shelf.visit base i around = (.ok (i.command.output r), after) := by
  obtain ⟨l', existing, run⟩ := served.run
  have made : i.visit { around with files := shelf.reading base } = .ok
      ⟨i.command.output r, some (path, (i.record d r w.ledger).snapshot)⟩ := by
    simp only [Invocation.visit_eq served.desk served.ledger served.time existing, run,
      if_pos mutates, state, Option.map_some]
  simp only [visit, made, saved]

/-- **A visit that saves**, where the state and its staging path can be put. -/
theorem exists_visit {shelf : Shelf} {base : List String} {path : String}
    (served : i.Served (shelf.reading base) around d l now r w) (mutates : i.command.Mutates)
    (state : i.state = some path) (place : (shelf.place? base path).isSome)
    (staging : (shelf.place? base (stagingPath path)).isSome) :
    ∃ after, shelf.visit base i around = (.ok (i.command.output r), after) ∧
      after.home = shelf.home ∧
      after.reading base path = .text (stateText (i.record d r w.ledger).snapshot) := by
  obtain ⟨after, saved⟩ :=
    exists_save place staging (stateText (i.record d r w.ledger).snapshot)
  obtain ⟨_, _, -, -, rfl, -⟩ := exists_of_save saved
  exact ⟨_, visit_of_served served mutates state saved, rfl, reading_save saved⟩

theorem visit_of_error {shelf : Shelf} {base : List String} {e : Error}
    (desk : i.desk (shelf.reading base) = .ok d) (ledger : i.ledger (shelf.reading base) = .ok l)
    (time : i.time around = .ok now) (existing : i.withExisting d l (shelf.reading base) = .ok l')
    (run : (d.serve i.command.request).run (around.world l' now) = (.finished (.error e), w)) :
    shelf.visit base i around = (.error (.request e), shelf) := by
  have made : i.visit { around with files := shelf.reading base } = .error (.request e) := by
    simp only [Invocation.visit_eq desk ledger time existing, run]
  simp only [visit, made]

end Shelf

/-! ## What was printed -/

def printed : Json → List String
  | .obj [("id", .str id)] => [id]
  | .obj [("ids", .arr items)] => items.filterMap Json.str?
  | _ => []

theorem printed_output (c : Command) (r : Response) : printed (c.output r) = r.issued := by
  cases r with
  | ids ids =>
    show (ids.map Json.str).filterMap Json.str? = ids
    rw [List.filterMap_map]
    exact List.filterMap_some
  | _ => rfl

end Docket.CommandLine
