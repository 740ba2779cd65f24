import Docket.Proofs.Run.Calm

/-!
# Work that sees one counter only

Work that needs one key cannot tell slates apart that differ in other counters only, and does the
same to them.

* `Slate.Local`, **`Slate.Local.comm`**: steps that see one counter at most; on different counters
  they can be swapped, if one of them draws nothing;
* **`Work.local_eval`**: tidy work is such a step.
-/

namespace Docket

open Std (ExtTreeMap ExtTreeSet)

variable {α β : Type} {σ τ υ : Slate} {K K' : String → Prop} {D D' : Prop} {key other : String}
  {draws draws' : Prop}

namespace Slate

/-- Two slates that agree on the counters under some keys, on the records and on the random words,
and on how many of these have been drawn where that is asked for. -/
structure Alike (σ τ : Slate) (K : String → Prop) (D : Prop) : Prop where
  counters : ∀ k, K k → τ.counters[k]? = σ.counters[k]?
  records : τ.records = σ.records
  words : τ.words = σ.words
  drawn : D → τ.drawn = σ.drawn

namespace Alike

theorem refl (σ : Slate) (K : String → Prop) (D : Prop) : σ.Alike σ K D :=
  ⟨fun _ _ => rfl, rfl, rfl, fun _ => rfl⟩

theorem symm (h : σ.Alike τ K D) : τ.Alike σ K D where
  counters k hk := (h.counters k hk).symm
  records := h.records.symm
  words := h.words.symm
  drawn hd := (h.drawn hd).symm

theorem trans (h : σ.Alike τ K D) (h' : τ.Alike υ K D) : σ.Alike υ K D where
  counters k hk := (h'.counters k hk).trans (h.counters k hk)
  records := h'.records.trans h.records
  words := h'.words.trans h.words
  drawn hd := (h'.drawn hd).trans (h.drawn hd)

theorem mono (h : σ.Alike τ K D) (hK : ∀ k, K' k → K k) (hD : D' → D) : σ.Alike τ K' D' where
  counters k hk := h.counters k (hK k hk)
  records := h.records
  words := h.words
  drawn hd := h.drawn (hD hd)

theorem union (h : σ.Alike τ K D) (h' : σ.Alike τ K' D') :
    σ.Alike τ (fun k => K k ∨ K' k) (D ∨ D') where
  counters k hk := hk.elim (h.counters k) (h'.counters k)
  records := h.records
  words := h.words
  drawn hd := hd.elim h.drawn h'.drawn

theorem counters_eq (h : σ.Alike τ K D) (all : ∀ k, K k) : τ.counters = σ.counters :=
  ExtTreeMap.ext_getElem? fun {k} => h.counters k (all k)

end Alike

/-! ## Local steps -/

/-- A step that sees and changes one counter at most, changes no records, and draws random words
only where it may. -/
structure Local (f : Slate → α × Slate) (key : String) (draws : Prop) : Prop where
  /-- It does the same to slates that look the same to it. -/
  same : ∀ {σ τ : Slate} {K : String → Prop} {D : Prop}, K key → (draws → D) → σ.Alike τ K D →
    (f τ).1 = (f σ).1 ∧ (f σ).2.Alike (f τ).2 K D
  /-- What it does not change. -/
  rest : ∀ σ : Slate, σ.Alike (f σ).2 (· ≠ key) (¬ draws)

namespace Local

variable {f : Slate → α × Slate} {g : Slate → β × Slate}

theorem mono (h : Local f key draws) (more : draws → draws') : Local f key draws' where
  same hk hd := h.same hk (hd ∘ more)
  rest σ := (h.rest σ).mono (fun _ => id) (mt more)

theorem bind {g : α → Slate → β × Slate} (hf : Local f key draws)
    (hg : ∀ a, Local (g a) key draws) : Local (fun σ => g (f σ).1 (f σ).2) key draws where
  same hk hd alike := by
    obtain ⟨result, alike⟩ := hf.same hk hd alike
    rw [result]
    exact (hg _).same hk hd alike
  rest σ := (hf.rest σ).trans ((hg _).rest _)

theorem read (f : Option Counter → ExtTreeMap String (ExtTreeSet String) → α) :
    Local (fun σ => (f σ.counters[key]? σ.records, σ)) key draws where
  same hk _ alike := ⟨by simp only [alike.counters _ hk, alike.records], alike⟩
  rest σ := .refl σ _ _

theorem pure (a : α) : Local (fun σ => (a, σ)) key draws := read fun _ _ => a

theorem map (h : Local f key draws) (g : α → β) : Local (fun σ => (g (f σ).1, (f σ).2)) key draws :=
  h.bind fun a => pure (g a)

theorem note (a : Allocation) :
    Local (fun σ => ((), { σ with notes := a :: σ.notes })) key draws where
  same _ _ alike := ⟨rfl, alike.counters, alike.records, alike.words, alike.drawn⟩
  rest _ := ⟨fun _ _ => rfl, rfl, rfl, fun _ => rfl⟩

theorem takeWords {n : Nat} (may : n = 0 ∨ draws) : Local (·.takeWords n) key draws where
  same {σ τ _ D} _ hd alike := by
    rcases may with rfl | may
    · exact ⟨rfl, alike.counters, alike.records, alike.words, alike.drawn⟩
    · have drawn := alike.drawn (hd may)
      refine ⟨?_, alike.counters, alike.records, alike.words, fun _ => ?_⟩
      · simp only [Slate.takeWords, alike.words, drawn]
      · simp only [Slate.takeWords, drawn]
  rest σ := by
    refine ⟨fun _ _ => rfl, rfl, rfl, fun none => ?_⟩
    rw [Slate.takeWords, may.resolve_right none]
    rfl

theorem touch {c : Touch} (hc : ∀ k, c.key? = some k → k = key) :
    Local (·.touch c) key draws where
  same {σ τ K _} hk _ alike := by
    have record : τ.ledger.record? c = σ.ledger.record? c := by
      unfold Ledger.record?
      cases h : c.key? with
      | none => rfl
      | some k => exact alike.counters k (hc k h ▸ hk)
    have known : τ.ledger.knows c = σ.ledger.knows c := by
      cases c with
      | recorded =>
        refine decide_eq_decide.mpr ?_
        simp only [Ledger.IsRecorded, Slate.ledger, alike.records]
      | _ => rfl
    refine ⟨by simp only [Slate.touch, record, known], fun k hk => ?_, alike.records, alike.words,
      alike.drawn⟩
    show (τ.ledger.counted c)[k]? = (σ.ledger.counted c)[k]?
    have before : τ.ledger.counters[k]? = σ.ledger.counters[k]? := alike.counters k hk
    by_cases h : c.key? = some k
    · rw [Ledger.getElem?_counted h, Ledger.getElem?_counted h, before]
    · rw [Ledger.getElem?_counted_of_ne h, Ledger.getElem?_counted_of_ne h, before]
  rest σ := by
    refine ⟨fun k ne => ?_, rfl, rfl, fun _ => rfl⟩
    exact Ledger.getElem?_counted_of_ne fun h => ne (hc k h)

theorem erase :
    Local (fun σ => (σ.counters.contains key, { σ with counters := σ.counters.erase key })) key
      draws where
  same {σ τ K _} hk _ alike := by
    refine ⟨?_, fun k hk => ?_, alike.records, alike.words, alike.drawn⟩
    · simp only [ExtTreeMap.contains_eq_isSome_getElem?, alike.counters _ hk]
    · simp only [ExtTreeMap.getElem?_erase, alike.counters _ hk]
  rest σ := by
    refine ⟨fun k ne => ?_, rfl, rfl, fun _ => rfl⟩
    rw [ExtTreeMap.getElem?_erase, if_neg (by simpa using ne.symm)]

/-- **Local steps on different counters can be swapped**, if one of them draws nothing. -/
theorem comm (hf : Local f key draws) (hg : Local g other draws') (ne : key ≠ other)
    (one : draws → ¬ draws') (σ : Slate) :
    (f (g σ).2).1 = (f σ).1 ∧ (g (f σ).2).1 = (g σ).1 ∧
      (g (f σ).2).2.Alike (f (g σ).2).2 (fun _ => True) True := by
  -- To either step the other one changes nothing.
  obtain ⟨resultF, afterF⟩ := hf.same ne one (hg.rest σ)
  obtain ⟨resultG, afterG⟩ := hg.same ne.symm (fun h h' => one h' h) (hf.rest σ)
  refine ⟨resultF, resultG, ?_⟩
  -- Where the first step changes nothing, both ends are as after the second alone, and the other
  -- way round.
  have besideF := afterG.symm.trans (hf.rest (g σ).2)
  have besideG := (hg.rest (f σ).2).symm.trans afterF
  refine (besideF.union besideG).mono (fun k _ => ?_) fun _ => ?_
  · by_cases h : k = key
    · exact .inr fun h' => ne (h.symm.trans h')
    · exact .inl h
  · by_cases h : draws
    · exact .inr (one h)
    · exact .inl h

end Local

end Slate

/-! ## Work -/

namespace Work

variable {now : Time}

/-- Work that draws random words only where it may. -/
def DrawsIf (draws : Prop) : Work α → Prop
  | .done _ | .fail _ => True
  | .now next => ∀ time, (next time).DrawsIf draws
  | .draw n next => (n = 0 ∨ draws) ∧ ∀ words, (next words).DrawsIf draws
  | .note _ next => next.DrawsIf draws
  | .touch _ next => ∀ a, (next a).DrawsIf draws

theorem DrawsIf.bind {work : Work α} {f : α → Work β} (h : work.DrawsIf draws)
    (hf : ∀ a, (f a).DrawsIf draws) : (work.bind f).DrawsIf draws := by
  induction work with
  | done a => exact hf a
  | fail e => trivial
  | now next ih => exact fun time => ih time (h time)
  | draw n next ih => exact ⟨h.1, fun words => ih words (h.2 words)⟩
  | note a next ih => exact ih h
  | touch c next ih => exact fun a => ih a (h a)

/-- **Tidy work** is local to its key. -/
theorem local_eval {work : Work α} (tidy : work.Tidy now key) (h : work.DrawsIf draws) :
    Slate.Local (work.eval now) key draws := by
  induction work with
  | done a => exact .pure _
  | fail e => exact .pure _
  | now next ih => exact ih now tidy (h now)
  | draw n next ih =>
    exact (Slate.Local.takeWords h.1).bind fun words => ih words (tidy words) (h.2 words)
  | note a next ih => exact (Slate.Local.note a).bind fun _ => ih tidy h
  | touch c next ih =>
    let after : Except LedgerError c.Answer → Slate → Except Error α × Slate
      | .ok a, σ => (next a).eval now σ
      | .error e, σ => (.error (.ledger e), σ)
    have step : Slate.Local (fun σ => after (σ.touch c).1 (σ.touch c).2) key draws :=
      (Slate.Local.touch tidy.1).bind fun r => by
        cases r with
        | ok a => exact ih a (tidy.2 a) (h a)
        | error e => exact .pure _
    have same : (Work.touch c next).eval now = fun σ => after (σ.touch c).1 (σ.touch c).2 := by
      funext σ
      rw [eval]
      rcases σ.touch c with ⟨_ | _, _⟩ <;> rfl
    exact same ▸ step

end Work

end Docket
