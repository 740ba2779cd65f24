import Docket.CommandLine.Shelf

/-!
# Paths and saved states

* `Shelf.exists_save`, **`Shelf.reading_save`**: a state can be saved where texts can be put beside
  its path and under it, and is then what its path leads to;
* `Shelf.IsPlain`, `Shelf.place?_of_isPlain`, `Shelf.reading_of_isPlain`: a name in the shelf's
  directory, and what it leads to.
-/

namespace Docket.CommandLine.Shelf

variable {shelf after : Shelf} {base : List String} {spelling text name : String}

/-! ## Saving -/

theorem follow?_eq (h : after.home = shelf.home) (path names : List String) :
    after.follow? path names = shelf.follow? path names := by
  obtain ⟨home, texts⟩ := after
  obtain ⟨home', texts'⟩ := shelf
  subst h
  induction names generalizing path with
  | nil => rfl
  | cons name rest ih =>
    simp only [follow?, ih]
    rfl

theorem locate?_eq (h : after.home = shelf.home) :
    after.locate? base spelling = shelf.locate? base spelling := by
  simp only [locate?, follow?_eq h]

theorem exists_of_save (h : shelf.save base spelling text = .ok after) :
    ∃ path texts, shelf.locate? base spelling = some path ∧ ¬ shelf.Directory path ∧
      after = { shelf with texts := texts } ∧ texts[key path]? = some text := by
  unfold save at h
  split at h
  · cases h
  · next staging _ =>
    split at h
    · cases h
    · next path hp =>
      rw [place?, Option.filter_eq_some_iff] at hp
      refine ⟨path, _, hp.1, by simpa using hp.2, (Except.ok.inj h).symm, ?_⟩
      exact Std.ExtTreeMap.getElem?_insert_self

theorem exists_save (path : (shelf.place? base spelling).isSome)
    (staging : (shelf.place? base (stagingPath spelling)).isSome) (text : String) :
    ∃ after, shelf.save base spelling text = .ok after := by
  obtain ⟨path, hp⟩ := Option.isSome_iff_exists.mp path
  obtain ⟨staging, hs⟩ := Option.isSome_iff_exists.mp staging
  simp only [save, hp, hs]
  exact ⟨_, rfl⟩

/-- **A state that was saved** is what its path leads to. -/
theorem reading_save (h : shelf.save base spelling text = .ok after) :
    after.reading base spelling = .text text := by
  obtain ⟨path, texts, locate, directory, rfl, found⟩ := exists_of_save h
  have same : ({ shelf with texts := texts } : Shelf).locate? base spelling = some path := by
    rw [← locate]
    exact locate?_eq rfl
  have directory : ¬ ({ shelf with texts := texts } : Shelf).Directory path := directory
  simp only [reading, same]
  rw [if_neg directory, found]
  rfl

/-! ## Names -/

/-- Whether a spelling is a name of something in the directory that it starts from. -/
structure IsPlain (name : String) : Prop where
  isName : IsName name
  slash : '/' ∉ name.toList
  other : name ≠ "" ∧ name ≠ "." ∧ name ≠ ".."

theorem place?_of_isPlain (h : IsPlain name) :
    shelf.place? shelf.home name = some (shelf.home ++ [name]) := by
  have start : name.toList.head? ≠ some '/' := fun e => h.slash (List.mem_of_mem_head? e)
  have split : name.toList.splitOn '/' = [name.toList] := List.splitOn_eq_singleton h.slash
  have short : ¬ maxPath < name.utf8ByteSize := by
    have := h.isName.1
    unfold maxName at this
    unfold maxPath
    omega
  have inside : shelf.Directory shelf.home := List.prefix_refl _
  have outside : ¬ shelf.Directory (shelf.home ++ [name]) := by
    intro le
    have := le.length_le
    rw [List.length_append, List.length_singleton] at this
    omega
  have locate : shelf.locate? shelf.home name = some (shelf.home ++ [name]) := by
    simp only [locate?, if_neg short, if_neg start, split, List.map_cons, List.map_nil,
      String.ofList_toList, follow?, if_pos (And.intro inside h.isName), enter]
    rw [if_neg (by simp [h.other]), if_neg h.other.2.2]
  rw [place?, locate, Option.filter_some, if_pos (by simpa using outside)]

theorem isSome_place? (home : shelf.home = base) (h : IsPlain name) :
    (shelf.place? base name).isSome := by
  rw [← home, place?_of_isPlain h]
  rfl

theorem reading_of_isPlain (home : shelf.home = base) (h : IsPlain name) :
    shelf.reading base name = (shelf.texts[key (base ++ [name])]?).elim .absent .text := by
  have place : shelf.place? shelf.home name = _ := place?_of_isPlain h
  rw [home, place?, Option.filter_eq_some_iff] at place
  have outside : ¬ shelf.Directory (base ++ [name]) := by simpa using place.2
  simp only [reading, place.1]
  rw [if_neg outside]

theorem isPlain_state : IsPlain "s" where
  isName := ⟨by decide, by simp [String.contains_char_eq]⟩
  slash := by decide
  other := by decide

theorem isPlain_config : IsPlain "c" where
  isName := ⟨by decide, by simp [String.contains_char_eq]⟩
  slash := by decide
  other := by decide

theorem isPlain_staging : IsPlain (stagingPath "s") where
  isName := ⟨by decide, by simp [String.contains_char_eq]; decide⟩
  slash := by decide
  other := by decide

end Docket.CommandLine.Shelf
