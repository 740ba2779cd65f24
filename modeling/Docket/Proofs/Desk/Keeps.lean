import Docket.Proofs.Callers.Owner
import Docket.Proofs.Desk.Marks
import Docket.Proofs.Issue.Shape
import Docket.Proofs.Run.Course

/-!
# What a desk keeps

On the way of a request the marks of all counters go on fitting their keys, whatever fails or
stalls, and nothing goes wrong that is neither in the script nor due to a counter that is full.

* **`Desk.Keeps`**: what holds all the way; `Keeps.touch` says that calls leave it so;
* **`Series.issueOne_keeps`**, **`Series.issueBatch_keeps`**: whole issues.
-/

namespace Docket

/-! ## Excuses -/

/-- Whether the counter under a key cannot take another sequence. -/
def Ledger.IsFull (l : Ledger) (key : String) : Prop :=
  ∃ c, l.counters[key]? = some c ∧ c.sequence.toNat + 1 = UInt64.size

/-- An addition of 1 that overflows meets a counter that is full. -/
theorem Ledger.isFull_of_sum? {l : Ledger} {key : String} {seed : Mark} {now : Time}
    (none : Touch.sum? key 1 seed now l.counters[key]? = none) : l.IsFull key := by
  unfold Touch.sum? Ledger.addWords? at none
  split at none
  · cases none
  · next full =>
    change ¬ _ + 1 < UInt64.size at full
    cases record : l.counters[key]? with
    | none =>
      rw [record] at full
      exact absurd (show 0 + 1 < UInt64.size by decide) full
    | some c =>
      rw [record] at full
      have := c.sequence.toNat_lt
      exact ⟨c, record, Nat.le_antisymm this (Nat.le_of_not_lt full)⟩

/-- Whether the script of the first world brings this failure about, if it is a breakdown, or a
counter is full in the second. -/
def LedgerError.Excused (w v : World) : LedgerError → Prop
  | .backend why => (∃ m, .fail (.backend why) ∈ w.faults m) ∨
    ∃ key, why = .overflowed key ∧ v.ledger.IsFull key
  | _ => True

/-- Whether an error is no refusal, and no breakdown without an excuse. -/
def Error.Excused (w v : World) : Error → Prop
  | .invalid _ => False
  | .ledger e => e.Excused w v
  | .exhausted _ last => ∀ e, last = some e → e.Excused w v
  | .cancelled => True

/-- Whether a result is right, or an error with an excuse. -/
def Fair {α : Type} (w v : World) (A : α → Prop) : Except Error α → Prop
  | .ok a => A a
  | .error e => e.Excused w v

def Halt.Fair {α : Type} (w v : World) (A : α → Prop) : Halt α → Prop
  | .finished r => Docket.Fair w v A r
  | .stuck => True

section Excused

variable {w v u : World}

theorem LedgerError.excused_of_fail {m : Method} {e : LedgerError} (h : .fail e ∈ w.faults m) :
    e.Excused w v := by
  cases e with
  | backend why => exact .inl ⟨m, h⟩
  | _ => trivial

theorem LedgerError.excused_of_isTransient {e : LedgerError} (h : e.isTransient) :
    e.Excused w v := by
  cases e with
  | backend why => cases h
  | _ => trivial

theorem LedgerError.Excused.congr {e : LedgerError} (h : e.Excused w v)
    (same : u.ledger.counters = v.ledger.counters) : e.Excused w u := by
  cases e with
  | backend why =>
    rcases h with scripted | ⟨key, rfl, full⟩
    · exact .inl scripted
    · exact .inr ⟨key, rfl, by rwa [Ledger.IsFull, same]⟩
  | _ => trivial

theorem Error.Excused.congr {e : Error} (h : e.Excused w v)
    (same : u.ledger.counters = v.ledger.counters) : e.Excused w u := by
  cases e with
  | invalid => exact h
  | ledger e => exact LedgerError.Excused.congr h same
  | exhausted n last => exact fun e he => (h e he).congr same
  | cancelled => trivial

end Excused

/-! ## What is kept -/

/-- The second world comes after the first, and what is in it suits a desk: marks fit their keys,
and `hand`, if any, is an open transaction. -/
structure Desk.Keeps (d : Desk) (w : World) (hand : Option Tx) (v : World) : Prop where
  fits : ∀ key c, v.ledger.counters[key]? = some c → d.settings.Fits key c.mark
  script : ∀ m, v.faults m <:+ w.faults m
  isOpen : ∀ t, hand = some t → v.ledger.IsOpen t

/-- Whether a mark that a call brings along fits the key. An addition must be one of 1. -/
def Settings.Suits (s : Settings) : Touch → Prop
  | .increment key step seed _ => step = 1 ∧ s.Fits key seed
  | .set key _ mark _ => s.Fits key mark
  | _ => True

def Settings.Expects (s : Settings) : (c : Touch) → c.Answer → Prop
  | .increment key .., c => s.Fits key c.mark
  | .set key sequence mark now, c => c = ⟨key, sequence, mark, now⟩
  | _, _ => True

/-- Whether a call is answered as expected, or fails with an excuse. -/
def Settings.Allows (s : Settings) (w v : World) (c : Touch) : Except LedgerError c.Answer → Prop
  | .ok a => s.Expects c a
  | .error e => e.Excused w v

/-- A call that fails before it reaches the ledger does so because the script says so. -/
theorem World.fault_of_submitTouch {w w' : World} {c : Touch} {e : LedgerError}
    (h : w.submitTouch c = (some (.answer (.error e)), w')) :
    (w.submit c.method (.touch c)).1 = .fail e := by
  simp only [submitTouch, Prod.mk.injEq] at h
  obtain ⟨h, -⟩ := h
  split at h
  · next hf => cases h; exact hf
  · cases h
  · cases c <;> cases h
  · cases h

namespace Desk.Keeps

variable {α β : Type} {d : Desk} {w v u : World} {t : Tx} {hand : Option Tx} {c : Touch}
  {A : α → Prop} {B : β → Prop}

theorem same (h : d.Keeps w hand v) {u : World} (ledger : u.ledger = v.ledger)
    (script : u.faults = v.faults) : d.Keeps w hand u where
  fits := ledger ▸ h.fits
  script := script ▸ h.script
  isOpen := ledger ▸ h.isOpen

theorem submit (h : d.Keeps w hand v) (m : Method) (call : Call) :
    d.Keeps w hand (v.submit m call).2 where
  fits := h.fits
  script m' := (v.submit_script m m' call).trans (h.script m')
  isOpen := h.isOpen

theorem excused (h : d.Keeps w hand v) {m : Method} {e : LedgerError}
    (injected : .fail e ∈ v.faults m) : e.Excused w u :=
  LedgerError.excused_of_fail ((h.script m).subset injected)

theorem record? (h : d.Keeps w hand v) {key : String} (hk : c.key? = some key) {n : Counter}
    (hn : v.ledger.record? c = some n) : d.settings.Fits key n.mark := by
  rw [Ledger.record?, hk] at hn
  exact h.fits key n hn

theorem written (h : d.Keeps w hand v) (suits : d.settings.Suits c) {key : String}
    (hk : c.key? = some key) {n : Counter} (hn : c.written (v.ledger.record? c) = some n) :
    d.settings.Fits key n.mark := by
  -- An addition keeps the mark of a record that is there, and only else brings its own.
  have old {n} := h.record? hk (n := n)
  cases c with
  | getIn => cases hn
  | recorded => cases hn
  | set => cases hn; cases hk; exact suits
  | increment key' step seed now =>
    cases hk
    simp only [Touch.written] at hn
    obtain ⟨sum, -, rfl⟩ := Option.map_eq_some_iff.mp hn
    generalize v.ledger.record? _ = record at old
    cases record with
    | none => exact suits.2
    | some c => exact old (n := c) rfl

theorem wrote (h : d.Keeps w hand v) (suits : d.settings.Suits c) (locks : LockTable) :
    d.Keeps w hand { v with ledger := v.ledger.wrote c locks } where
  fits key n hn := by
    simp only [Ledger.wrote, Ledger.counted] at hn
    split at hn
    · next k counter hk hw =>
      rw [Std.ExtTreeMap.getElem?_insert] at hn
      split at hn
      · next e =>
        cases hn
        exact (compare_eq_iff_eq.mp e) ▸ h.written suits hk hw
      · exact h.fits key n hn
    · exact h.fits key n hn
  script := h.script
  isOpen := h.isOpen

theorem answer (h : d.Keeps w hand v) (suits : d.settings.Suits c) (known : Bool)
    (locks : LockTable) :
    d.settings.Allows w { v with ledger := v.ledger.wrote c locks } c
      (c.answer (v.ledger.record? c) known) := by
  cases c with
  | getIn => trivial
  | recorded => trivial
  | set => rfl
  | increment key step seed now =>
    obtain ⟨rfl, -⟩ := id suits
    simp only [Touch.answer]
    split
    · next e =>
      exact h.written suits rfl (by simp only [Touch.written, Ledger.record?] at e ⊢; rw [e]; rfl)
    · next none =>
      refine .inr ⟨key, rfl, ?_⟩
      obtain ⟨c, record, full⟩ := Ledger.isFull_of_sum? (l := v.ledger) none
      refine ⟨c, ?_, full⟩
      rw [← record]
      exact (Ledger.getElem?_counted rfl).trans (Touch.of_answer_error
        (Touch.answer_increment_of_none none known)).1

/-- **A call** leaves things so, and it is answered as expected or fails with an excuse. -/
theorem touch (h : d.Keeps w (some t) v) (suits : d.settings.Suits c) :
    d.Keeps w (some t) (v.touch t c).2 ∧
      ∀ r, (v.touch t c).1 = .answer r → d.settings.Allows w (v.touch t c).2 c r := by
  have submitted : d.Keeps w (some t) (v.submitTouch c).2 := h.submit _ _
  unfold World.touch
  generalize e : v.submitTouch c = reply at submitted
  obtain ⟨said, u⟩ := reply
  match said with
  | some (.answer (.ok a)) =>
    refine ⟨submitted, fun r hr => ?_⟩
    cases hr
    have := World.key?_of_submitTouch e
    cases c with
    | recorded => trivial
    | _ => cases this
  | some (.answer (.error e')) =>
    refine ⟨submitted, fun r hr => ?_⟩
    cases hr
    refine h.excused (m := c.method) (v.mem_of_submit (c := .touch c) ?_ nofun)
    exact World.fault_of_submitTouch e
  | some .waits | some .never => exact ⟨submitted, nofun⟩
  | none =>
    dsimp only
    unfold World.reach
    rw [Ledger.touch_of_isOpen (submitted.isOpen t rfl)]
    cases u.ledger.lockFor? t c with
    | none => exact ⟨submitted, nofun⟩
    | some locks =>
      refine ⟨submitted.wrote suits locks, fun r hr => ?_⟩
      exact Reply.answer.inj hr ▸ submitted.answer suits _ locks

end Desk.Keeps

/-! ## An attempt -/

/-- Work in a transaction at a desk: it keeps what the desk keeps, and comes to a fair result. -/
abbrev Desk.Works {α : Type} (d : Desk) (w : World) (t : Tx) (A : α → Prop) (work : Work α)
    (v : World) : Prop :=
  work.Ensures t (d.Keeps w (some t)) (fun r u => r.Fair w u A) v

/-- What a desk can make of an allocation at a time. -/
structure Series.Allots (s : Series) (settings : Settings) (now : Time) (a : Allocation) :
    Prop where
  key : a.key = s.key now
  fits : settings.Fits a.key a.mark
  within : ∀ top, s.rotation = .overflow top → a.sequence ≤ top

def Candidate.Readable (s : Series) : Candidate → Prop
  | .clear id | .taken id => s.Accepts id

section Attempt

variable {α β : Type} {d : Desk} {w v : World} {t : Tx} {now : Time} {A : α → Prop} {B : β → Prop}

theorem Desk.Works.bind {work : Work α} {f : α → Work β} (h : d.Works w t A work v)
    (rest : ∀ a u, d.Keeps w (some t) u → A a → d.Works w t B (f a) u) :
    d.Works w t B (work.bind f) v :=
  Work.Ensures.bind h rest (fun _ _ _ => id) fun _ _ _ => trivial

theorem Desk.Works.touch {c : Touch} {next : c.Answer → Work β} (h : d.Keeps w (some t) v)
    (suits : d.settings.Suits c)
    (rest : ∀ a u, d.Keeps w (some t) u → d.settings.Expects c a → d.Works w t B (next a) u) :
    d.Works w t B (.touch c next) v := by
  obtain ⟨kept, allows⟩ := h.touch suits
  simp only [Desk.Works, Work.Ensures]
  refine ⟨h, ?_⟩
  generalize v.touch t c = dealt at kept allows
  obtain ⟨reply, u⟩ := dealt
  cases reply with
  | answer r =>
    cases r with
    | ok a => exact rest a u kept (allows _ rfl)
    | error e => exact ⟨kept, allows _ rfl⟩
  | waits | never => exact ⟨kept, trivial⟩

namespace Series

variable {s : Series}

theorem freshen_works {key : String} {seed : Mark} (fits : d.settings.Fits key seed)
    (h : d.Keeps w (some t) v) : d.Works w t (fun _ => True) (s.freshen key seed now) v := by
  unfold freshen
  split
  · refine .touch h trivial fun record u hu _ => ?_
    match record with
    | none => exact ⟨hu, trivial⟩
    | some c =>
      show d.Works w t _ (ite _ _ _ : Work Bool) u
      split
      · exact .touch hu fits fun _ u' hu' _ => ⟨hu', trivial⟩
      · exact ⟨hu, trivial⟩
  · exact ⟨h, trivial⟩

theorem settle_works (serves : s.Serves d.settings) {c : Counter} {rotated : Bool}
    (fits : d.settings.Fits (s.key now) c.mark) (h : d.Keeps w (some t) v) :
    d.Works w t (s.Allots d.settings now) (s.settle now rotated c) v := by
  unfold settle advance
  split
  · next top rotation =>
    obtain ⟨pos, rotates⟩ := serves.rotates top rotation
    split
    · obtain ⟨digit, mark, fits'⟩ := rotates now c.mark fits
      rw [mark]
      refine .touch h fits' fun c' u hu answer => ?_
      obtain rfl : c' = ⟨_, _, _, _⟩ := answer
      refine ⟨hu, hu.same rfl rfl, rfl, fits', fun top' e => ?_⟩
      cases rotation.symm.trans e
      exact pos
    · next le =>
      refine ⟨h, h.same rfl rfl, rfl, fits, fun top' e => ?_⟩
      cases rotation.symm.trans e
      exact UInt64.not_lt.mp le
  · next none =>
    exact ⟨h, h.same rfl rfl, rfl, fits, fun top e => absurd e (none top)⟩

theorem allocate_works (serves : s.Serves d.settings) (h : d.Keeps w (some t) v) :
    d.Works w t (s.Allots d.settings now) (s.allocate now) v := by
  rw [allocate_eq]
  have seeds := serves.seeds now (v.takeWords s.seedWords).1
  have drawn : d.Keeps w (some t) (v.takeWords s.seedWords).2 := h.same rfl rfl
  refine ⟨h, Desk.Works.bind (freshen_works seeds drawn) fun rotated u hu _ => ?_⟩
  exact .touch hu ⟨rfl, seeds⟩ fun c u' hu' fits => settle_works serves fits hu'

theorem candidate_works (serves : s.Serves d.settings) (h : d.Keeps w (some t) v) :
    d.Works w t (Candidate.Readable s) s.candidate v := by
  rw [candidate_eq]
  refine (allocate_works serves h).bind fun a u hu allots => ?_
  have drawn : d.Keeps w (some t) (u.takeWords (s.formatWords a)).2 := hu.same rfl rfl
  obtain ⟨id, format, accepts⟩ := serves.writes _ a (u.takeWords (s.formatWords a)).1 allots.key
    allots.fits allots.within
  refine ⟨hu, ?_⟩
  show d.Works w t _ ((Work.lift (s.format a _)).bind _) _
  rw [format]
  refine .touch drawn trivial fun taken u' hu' _ => ⟨hu', ?_⟩
  cases taken <;> exact accepts

end Series

end Attempt

/-! ## An issue -/

/-- Whether an attempt ended with an identifier that can be read back, or with an excuse. -/
def Attempt.Fair (w v : World) (s : Series) : Attempt → Prop
  | .issued id => s.Accepts id
  | .collided => True
  | .transient e => e.isTransient
  | .fatal e => e.Excused w v

theorem Attempt.fair_ofError {w v : World} {s : Series} {e : Error} (h : e.Excused w v) :
    (Attempt.ofError e).Fair w v s := by
  unfold Attempt.ofError
  split
  · split
    · next transient => exact transient
    · exact h
  · exact h

theorem Attempt.fair_ofResult {w v : World} {s : Series} {r : Except Error Candidate}
    (h : Docket.Fair w v (Candidate.Readable s) r) : (Attempt.ofResult r).Fair w v s := by
  match r with
  | .ok (.clear id) => exact h
  | .ok (.taken id) => trivial
  | .error e => exact fair_ofError h

theorem Attempt.Fair.congr {w v u : World} {s : Series} {a : Attempt} (h : a.Fair w v s)
    (same : u.ledger.counters = v.ledger.counters) : a.Fair w u s := by
  cases a with
  | fatal e => exact Error.Excused.congr h same
  | _ => exact h

/-- A plan at a desk: it keeps what the desk keeps, and `P` holds of what it comes to. -/
abbrev Desk.Plans {α : Type} (d : Desk) (w : World) (P : α → World → Prop) (p : Plan α)
    (v : World) : Prop :=
  p.Ensures (d.Keeps w none) True P v

section Issue

variable {α β : Type} {d : Desk} {w v : World} {t : Tx} {hand : Option Tx}
  {P : α → World → Prop} {A : Candidate → Prop}

theorem Desk.Keeps.drop (h : d.Keeps w hand v) : d.Keeps w none v := ⟨h.fits, h.script, nofun⟩

theorem Desk.Works.attempt {limit : Span} {work : Work Candidate}
    {next : Except Error Candidate → Plan α} (h : d.Works w t A work v)
    (rest : ∀ r u, d.Keeps w (some t) u → Fair w u A r → d.Plans w P (next r) u) :
    d.Plans w P (.attempt t limit work next) v := by
  simp only [Desk.Plans, Plan.Ensures]
  refine Work.Ensures.mono h (fun _ => Keeps.drop) ?_
  rintro (r | _) u hu fair
  · exact rest r u hu fair
  · dsimp only
    split
    · trivial
    · exact rest _ _ (hu.same rfl rfl) trivial

theorem Desk.Plans.start {next : Except LedgerError Tx → Plan α} (h : d.Keeps w none v)
    (opens : ∀ t u, d.Keeps w (some t) u → d.Plans w P (next (.ok t)) u)
    (fails : ∀ e u, d.Keeps w none u → e.Excused w u → d.Plans w P (next (.error e)) u) :
    d.Plans w P (.start next) v := by
  have submitted := h.submit .start .start
  refine Plan.Ensures.start h (opens _ _ ⟨h.fits, submitted.script, ?_⟩)
    (fun e injected => fails e _ submitted (h.excused injected)) fun _ => ⟨submitted, trivial⟩
  rintro t e
  cases e
  exact ⟨rfl, List.mem_cons_self⟩

theorem Ledger.counters_finish (l : Ledger) (t : Tx) (how : Ending) :
    (l.finish t how).counters = l.counters := by
  unfold Ledger.finish
  split
  · cases how <;> rfl
  · rfl

theorem Desk.Plans.finish {how : Ending} {next : Except LedgerError Unit → Plan α}
    (h : d.Keeps w hand v)
    (rest : ∀ r u, d.Keeps w none u → u.ledger.counters = v.ledger.counters →
      Fair w u (fun _ => True) (r.mapError .ledger) → d.Plans w P (next r) u) :
    d.Plans w P (.finish t how next) v := by
  have submitted := h.submit how.method (.finish how)
  have ended (how' : Ending) : d.Keeps w none
      { (v.submit how.method (.finish how)).2 with ledger := v.ledger.finish t how' } :=
    ⟨by rw [Ledger.counters_finish]; exact h.fits, submitted.script, nofun⟩
  exact Plan.Ensures.finish h.drop
    (rest (.ok ()) _ (ended how) (v.ledger.counters_finish t how) trivial)
    (fun e injected =>
      rest (.error e) _ (ended .abort) (v.ledger.counters_finish t .abort) (h.excused injected))
    fun _ => ⟨submitted.drop, trivial⟩

namespace Series

variable {s : Series} {r : RetrySettings}

theorem attemptIn_keeps (serves : s.Serves d.settings) (h : d.Keeps w (some t) v) :
    d.Plans w (fun a u => d.Keeps w (some t) u ∧ a.Fair w u s) (s.attemptIn r t) v :=
  (candidate_works serves h).attempt fun _ _ hu fair => ⟨hu.drop, hu, Attempt.fair_ofResult fair⟩

theorem attemptAlone_keeps (serves : s.Serves d.settings) (h : d.Keeps w none v) :
    d.Plans w (fun a u => d.Keeps w none u ∧ a.Fair w u s) (s.attemptAlone r) v := by
  refine Desk.Plans.start h (fun t u hu => ?_)
    fun e u hu excused => ⟨hu, hu, Attempt.fair_ofError excused⟩
  refine (candidate_works serves hu).attempt fun result u' hu' fair => ?_
  split
  · refine Desk.Plans.finish hu' fun ended u'' hu'' _ excused => ?_
    match ended with
    | .ok () => exact ⟨hu'', hu'', fair⟩
    | .error e => exact ⟨hu'', hu'', Attempt.fair_ofError excused⟩
  · exact Desk.Plans.finish hu' fun _ u'' hu'' same _ =>
      ⟨hu'', hu'', (Attempt.fair_ofResult fair).congr same⟩

theorem retrying_keeps {attempt : Plan Attempt}
    (once : ∀ v, d.Keeps w hand v →
      d.Plans w (fun a u => d.Keeps w hand u ∧ a.Fair w u s) attempt v)
    (h : d.Keeps w hand v) (left : Nat) :
    d.Plans w (fun x u => d.Keeps w hand u ∧ Fair w u s.Accepts x) (retrying r attempt left none)
      v := by
  -- The error that is reported at last is that of an attempt, and a transient one.
  refine Perseveres.retrying (I := fun _ last v => d.Keeps w hand v ∧
    ∀ e, last = some e → e.isTransient) ⟨?_, ?_, ?_, ?_, ?_, fun _ _ => trivial⟩ ⟨h, nofun⟩
  · exact fun h => h.1.drop
  · exact fun h => ⟨h.1, trivial⟩
  · exact fun h => ⟨h.1, fun e he => LedgerError.excused_of_isTransient (h.2 e he)⟩
  · intro left last v h
    refine (once v h.1).mono fun a u hu => ?_
    match a with
    | .issued id | .fatal e => exact hu
    | .collided => exact ⟨hu.1, h.2⟩
    | .transient e => exact ⟨hu.1, fun e' he => Option.some.inj he ▸ hu.2⟩
  · exact fun span time h => ⟨h.1.same rfl rfl, h.2⟩

/-- **An issue of one identifier** gives one that can be read back, or ends with an excuse. -/
theorem issueOne_keeps (serves : s.Serves d.settings) (h : d.Keeps w none v) :
    d.Plans w (fun x u => Fair w u s.Accepts x) (s.issueOne r) v :=
  Plan.Ensures.mono (retrying_keeps (fun _ => attemptAlone_keeps serves) h _) fun _ _ hx => hx.2

theorem issueRest_keeps (serves : s.Serves d.settings) (h : d.Keeps w (some t) v) (left : Nat)
    {ids : List String} (accepts : ∀ id ∈ ids, s.Accepts id) :
    d.Plans w (fun x u => Fair w u (fun ids => ∀ id ∈ ids, s.Accepts id) x)
      (s.issueRest r t left ids) v := by
  induction left generalizing ids v with
  | zero =>
    refine Desk.Plans.finish h fun ended u hu _ excused => ?_
    match ended with
    | .ok () => exact ⟨hu, fun id hid => accepts id (List.mem_reverse.mp hid)⟩
    | .error e => exact ⟨hu, excused⟩
  | succ left ih =>
    refine (retrying_keeps (s := s) (fun _ => attemptIn_keeps serves) h _).bind ?_
    rintro (e | id) u - ⟨hu, fair⟩
    · exact Desk.Plans.finish hu fun _ u' hu' same _ => ⟨hu', Error.Excused.congr fair same⟩
    · exact ih hu (List.forall_mem_cons.mpr ⟨fair, accepts⟩)

/-- **An issue of several identifiers** gives such as can be read back, or ends with an excuse. -/
theorem issueBatch_keeps (serves : s.Serves d.settings) (h : d.Keeps w none v) (n : Nat) :
    d.Plans w (fun x u => Fair w u (fun ids => ∀ id ∈ ids, s.Accepts id) x) (s.issueBatch r n)
      v := by
  unfold issueBatch
  split
  · exact ⟨h, nofun⟩
  · simp only [Desk.Plans, Plan.Ensures]
    split
    · exact ⟨h, trivial⟩
    · exact Desk.Plans.start h (fun t u hu => issueRest_keeps serves hu n (by simp))
        fun e u hu excused => ⟨hu, excused⟩

end Series

end Issue

end Docket
