import Docket.Proofs.CommandLine.Visits

/-!
# States saved and found

**`stateText_loses_nothing`**: a ledger that is made of the text of a state has the counters and
records that were written, and so has the one that an invocation finds where the state was saved.
-/

namespace Docket.CommandLine

/-- **A saved state loses nothing**, if the times in it are of years of four digits and offsets of
whole minutes and none is a leap second. -/
theorem stateText_loses_nothing {s : Snapshot} (times : ∀ (key : String) (c : Counter),
    s.counters[key]? = some c → c.written.Exact) :
    (∃ j found, Json.parse? (stateText s) = some j ∧ Snapshot.ofJson? j = some found ∧
      ∀ name, (Ledger.ofSnapshot name found).snapshot = s) ∧
    ∀ (shelf after : Shelf) (base : List String) (path : String) (i : Invocation),
      shelf.save base path (stateText s) = .ok after → i.state = some path →
      ∃ l, i.ledger (after.reading base) = .ok l ∧ l.snapshot = s := by
  constructor
  · exact ⟨s.toJson, s, Json.parse?_pretty s.plain_toJson, Snapshot.ofJson?_toJson times,
      fun name => Ledger.snapshot_ofSnapshot name s⟩
  · intro shelf after base path i saved state
    have found : (after.reading base path).state? = some s := by
      rw [Shelf.reading_save saved]
      exact state?_stateText times
    exact ⟨.ofSnapshot 0 s, Invocation.ledger_eq state found, Ledger.snapshot_ofSnapshot 0 s⟩

/-- Counters that are not called as their keys say, at the first and the last second that a text can
tell, and a field without records. -/
def rare : Snapshot where
  counters := {
    ("k", ⟨"\"\\\x01", 18446744073709551615, .digit 255, ⟨-62167185000, 120000001, -34200⟩⟩),
    ("", ⟨"k", 0, .lead "😀\n", ⟨253402280099, 500000000, 20700⟩⟩)}
  records := {("f", ∅), ("", {"", "é"})}

theorem stateText_loses_nothing_rare :
    (∀ (key : String) (c : Counter), rare.counters[key]? = some c → c.written.Exact) ∧
    (∃ j found, Json.parse? (stateText rare) = some j ∧ Snapshot.ofJson? j = some found ∧
      ∀ name, (Ledger.ofSnapshot name found).snapshot = rare) ∧
    ∃ after, ({ home := [] } : Shelf).save [] "s" (stateText rare) = .ok after ∧
      ∃ l, ({ state := some "s", command := .preview 1 } : Invocation).ledger (after.reading []) =
        .ok l ∧ l.snapshot = rare := by
  have times : ∀ (key : String) (c : Counter), rare.counters[key]? = some c →
      c.written.Exact := by
    intro key c h
    simp only [rare, Insert.insert, Singleton.singleton, Std.ExtTreeMap.getElem?_insert] at h
    split at h
    · obtain rfl := Option.some.inj h
      exact ⟨by decide, by decide, by decide, by decide, by decide⟩
    · split at h
      · obtain rfl := Option.some.inj h
        exact ⟨by decide, by decide, by decide, by decide, by decide⟩
      · simp at h
  obtain ⟨after, saved⟩ := Shelf.exists_save (Shelf.isSome_place? rfl Shelf.isPlain_state)
    (Shelf.isSome_place? rfl Shelf.isPlain_staging) (stateText rare)
  have ⟨text, found⟩ := stateText_loses_nothing times
  exact ⟨times, text, after, saved, found _ after [] "s" _ saved rfl⟩

end Docket.CommandLine
