import Docket.Proofs.Ledger.Touches
import Docket.Run.Alone

/-!
# Work in a calm world

Where no call fails or stalls, the clock stands and nobody else wants the key, work in a transaction
never gets stuck, and what comes of it depends on little of the world.

* **`Work.run_eq`**: tidy work in a ready world comes to what `Work.eval` says.
-/

namespace Docket

open Std (ExtTreeMap ExtTreeSet)

/-! ## Calm worlds -/

namespace World

def pauses (w : World) : List Span :=
  w.log.filterMap fun
    | .pause span => some span
    | _ => none

/-- A world in which no call fails or stalls, the clock stands, and nobody says to stop. -/
structure Calm (w : World) (now : Time) : Prop where
  faults : ∀ m, w.faults m = []
  clock : ∀ n, w.clock n = now
  goesOn : w.stopAfter = none

/-- A calm world in which nobody holds or awaits a key. -/
structure Quiet (w : World) (now : Time) (key : String) : Prop extends w.Calm now where
  free : w.ledger.locks.Free key

/-- A calm world in which a transaction is open and nobody else holds a key. -/
structure Ready (w : World) (now : Time) (t : Tx) (key : String) : Prop extends w.Calm now where
  isOpen : w.ledger.IsOpen t
  mine : w.ledger.locks.Within t.serial key

/-- The second world comes after the first, with so many more commits and aborts and no pause. -/
structure Spent (w w' : World) (commits aborts : Nat) : Prop where
  commits : w'.ledger.commits = w.ledger.commits + commits
  aborts : w'.ledger.aborts = w.ledger.aborts + aborts
  pauses : w'.pauses = w.pauses

variable {w w' w'' : World} {now : Time} {t : Tx} {key : String} {a b c d : Nat}

theorem Spent.refl (w : World) : w.Spent w 0 0 := ⟨rfl, rfl, rfl⟩

theorem Spent.trans (h : w.Spent w' a b) (h' : w'.Spent w'' c d) :
    w.Spent w'' (a + c) (b + d) where
  commits := by rw [h'.commits, h.commits, Nat.add_assoc]
  aborts := by rw [h'.aborts, h.aborts, Nat.add_assoc]
  pauses := h'.pauses.trans h.pauses

theorem Calm.now_eq (h : w.Calm now) : w.now = now := h.clock _

theorem Calm.withLedger (h : w.Calm now) (l : Ledger) : { w with ledger := l }.Calm now :=
  ⟨h.faults, h.clock, h.goesOn⟩

theorem Calm.isCancelled (h : w.Calm now) : w.isCancelled = false := by
  rw [World.isCancelled, h.goesOn]
  rfl

theorem Calm.submit (h : w.Calm now) (m : Method) (call : Call) :
    (w.submit m call).1 = .pass ∧ (w.submit m call).2.Calm now := by
  refine ⟨by rw [World.submit, h.faults]; rfl, fun m' => ?_, h.clock, h.goesOn⟩
  simp only [World.submit, h.faults]
  split <;> rfl

end World

/-! ## The slate -/

/-- What work in a transaction can read and change, if nothing disturbs it. -/
structure Slate where
  counters : ExtTreeMap String Counter
  records : ExtTreeMap String (ExtTreeSet String)
  words : Nat → UInt64
  drawn : Nat
  notes : List Allocation

def World.slate (w : World) : Slate :=
  ⟨w.ledger.counters, w.ledger.records, w.words, w.drawn, w.notes⟩

namespace Slate

def ledger (σ : Slate) : Ledger := { counters := σ.counters, records := σ.records }

def takeWords (σ : Slate) (count : Nat) : List UInt64 × Slate :=
  ((List.range count).map fun i => σ.words (σ.drawn + i), { σ with drawn := σ.drawn + count })

def touch (σ : Slate) (c : Touch) : Except LedgerError c.Answer × Slate :=
  (c.answer (σ.ledger.record? c) (σ.ledger.knows c), { σ with counters := σ.ledger.counted c })

end Slate

namespace Work

variable {α β : Type} {now : Time} {key : String} {σ : Slate}

/-- What comes of work that nothing disturbs. -/
def eval (now : Time) : Work α → Slate → Except Error α × Slate
  | .done a, σ => (.ok a, σ)
  | .fail e, σ => (.error e, σ)
  | .now next, σ => (next now).eval now σ
  | .draw n next, σ => (next (σ.takeWords n).1).eval now (σ.takeWords n).2
  | .note a next, σ => next.eval now { σ with notes := a :: σ.notes }
  | .touch c next, σ =>
    match σ.touch c with
    | (.ok a, σ) => (next a).eval now σ
    | (.error e, σ) => (.error (.ledger e), σ)

theorem eval_bind (work : Work α) (f : α → Work β) (σ : Slate) :
    (work.bind f).eval now σ = match work.eval now σ with
      | (.ok a, σ) => (f a).eval now σ
      | (.error e, σ) => (.error e, σ) := by
  induction work generalizing σ with
  | done | fail => rfl
  | now next ih => exact ih now σ
  | draw n next ih => exact ih _ _
  | note a next ih => exact ih _
  | touch c next ih =>
    simp only [Work.bind, eval]
    split
    · exact ih _ _
    · rfl

/-- Work that needs no key but one, and whose own failures are for good. -/
def Tidy (now : Time) (key : String) : Work α → Prop
  | .done _ => True
  | .fail e => e.isTransient = false
  | .now next => (next now).Tidy now key
  | .draw _ next => ∀ words, (next words).Tidy now key
  | .note _ next => next.Tidy now key
  | .touch c next => (∀ k, c.key? = some k → k = key) ∧ ∀ a, (next a).Tidy now key

theorem Tidy.bind {work : Work α} {f : α → Work β} (hw : work.Tidy now key)
    (hf : ∀ a, (f a).Tidy now key) : (work.bind f).Tidy now key := by
  induction work with
  | done a => exact hf a
  | fail e => exact hw
  | now next ih => exact ih now hw
  | draw n next ih => exact fun words => ih words (hw words)
  | note a next ih => exact ih hw
  | touch c next ih => exact ⟨hw.1, fun a => ih a (hw.2 a)⟩

theorem Tidy.eval_error {work : Work α} (h : work.Tidy now key) {e : Error}
    (he : (work.eval now σ).1 = .error e) : e.isTransient = false := by
  induction work generalizing σ with
  | done a => cases he
  | fail e' => cases he; exact h
  | now next ih => exact ih now h he
  | draw n next ih => exact ih _ (h _) he
  | note a next ih => exact ih h he
  | touch c next ih =>
    simp only [eval] at he
    split at he
    · exact ih _ (h.2 _) he
    · next e' σ' hc =>
      cases he
      exact (Touch.of_answer_error (congrArg Prod.fst hc)).2

theorem eval_records (work : Work α) (now : Time) (σ : Slate) :
    (work.eval now σ).2.records = σ.records := by
  induction work generalizing σ with
  | done | fail => rfl
  | now next ih => exact ih now σ
  | draw n next ih => exact ih _ _
  | note a next ih => exact ih _
  | touch c next ih =>
    simp only [eval]
    split
    · next hc => exact (ih _ _).trans (congrArg (·.2.records) hc).symm
    · next hc => exact (congrArg (·.2.records) hc).symm

end Work

/-! ## Running -/

namespace World

variable {w : World} {now : Time} {t : Tx} {key : String}

theorem Ready.touch (h : w.Ready now t key) {c : Touch} (hc : ∀ k, c.key? = some k → k = key) :
    ∃ w', w.touch t c = (.answer (w.slate.touch c).1, w') ∧ w'.Ready now t key ∧
      w.Spent w' 0 0 ∧ w'.slate = (w.slate.touch c).2 ∧
      (w.ledger.locks.Unawaited key → w'.ledger.locks.Unawaited key) := by
  obtain ⟨pass, calm⟩ := h.toCalm.submit c.method (.touch c)
  obtain ⟨locks, hl, mine, un⟩ : ∃ locks, w.ledger.lockFor? t c = some locks ∧
      locks.Within t.serial key ∧ (w.ledger.locks.Unawaited key → locks.Unawaited key) := by
    unfold Ledger.lockFor?
    split
    · next k hk =>
      obtain ⟨locks, ht, mine⟩ := h.mine.take?
      rw [hc k hk]
      exact ⟨locks, ht, mine, fun un => un.take? ht⟩
    · exact ⟨_, rfl, h.mine, id⟩
  refine ⟨{ (w.submit c.method (.touch c)).2 with ledger := w.ledger.wrote c locks }, ?_,
    ⟨calm.withLedger _, h.isOpen, mine⟩, ⟨rfl, rfl, rfl⟩, rfl, un⟩
  simp only [World.touch, submitTouch, pass, reach]
  rw [show (w.submit c.method (.touch c)).2.ledger = w.ledger from rfl,
    Ledger.touch_of_isOpen h.isOpen, hl]
  rfl

theorem Ready.takeWords (h : w.Ready now t key) (n : Nat) : (w.takeWords n).2.Ready now t key :=
  ⟨⟨h.faults, h.clock, h.goesOn⟩, h.isOpen, h.mine⟩

theorem Ready.note (h : w.Ready now t key) (a : Allocation) : (w.note a).Ready now t key :=
  ⟨⟨h.faults, h.clock, h.goesOn⟩, h.isOpen, h.mine⟩

end World

/-- **Tidy work in a ready world** comes to what it says on the slate. -/
theorem Work.run_eq {α : Type} {work : Work α} {w : World} {now : Time} {t : Tx} {key : String}
    (tidy : work.Tidy now key) (h : w.Ready now t key) :
    ∃ w', work.run t w = (.finished (work.eval now w.slate).1, w') ∧ w'.Ready now t key ∧
      w.Spent w' 0 0 ∧ w'.slate = (work.eval now w.slate).2 ∧
      (w.ledger.locks.Unawaited key → w'.ledger.locks.Unawaited key) := by
  induction work generalizing w with
  | done a => exact ⟨w, rfl, h, .refl w, rfl, id⟩
  | fail e => exact ⟨w, rfl, h, .refl w, rfl, id⟩
  | now next ih =>
    simp only [run, h.now_eq]
    exact ih now tidy h
  | draw n next ih =>
    obtain ⟨w', run, ready, spent, slate⟩ := ih (w.takeWords n).1 (tidy _) (h.takeWords n)
    exact ⟨w', run, ready, ⟨spent.commits, spent.aborts, spent.pauses⟩, slate⟩
  | note a next ih =>
    obtain ⟨w', run, ready, spent, slate⟩ := ih tidy (h.note a)
    exact ⟨w', run, ready, ⟨spent.commits, spent.aborts, spent.pauses⟩, slate⟩
  | touch c next ih =>
    obtain ⟨w₁, touch, ready, spent, slate, un⟩ := h.touch tidy.1
    simp only [run, eval, touch]
    generalize w.slate.touch c = reply at slate ⊢
    obtain ⟨r, σ⟩ := reply
    cases r with
    | error e => exact ⟨w₁, rfl, ready, spent, slate, un⟩
    | ok a =>
      obtain ⟨w', run, ready', spent', slate', un'⟩ := ih a (tidy.2 a) ready
      subst slate
      exact ⟨w', run, ready', spent.trans spent', slate', fun h => un' (un h)⟩

/-! ## Again and again -/

section Again

variable {α : Type}

def World.after (work : Work α) (t : Tx) (w : World) : Nat → World
  | 0 => w
  | n + 1 => (work.run t (w.after work t n)).2

/-- What comes of some work that was done `n` times before. -/
def World.nth (work : Work α) (t : Tx) (w : World) (n : Nat) : Halt α :=
  (work.run t (w.after work t n)).1

def Slate.after (work : Work α) (now : Time) (σ : Slate) : Nat → Slate
  | 0 => σ
  | n + 1 => (work.eval now (σ.after work now n)).2

/-- What comes, on the slate, of some work that was done `n` times before. -/
def Slate.nth (work : Work α) (now : Time) (σ : Slate) (n : Nat) : Except Error α :=
  (work.eval now (σ.after work now n)).1

variable {work : Work α} {w : World} {now : Time} {t : Tx} {key : String} {σ : Slate}

theorem Slate.after_records (n : Nat) : (σ.after work now n).records = σ.records := by
  induction n with
  | zero => rfl
  | succ n ih => rw [after, Work.eval_records, ih]

theorem World.Ready.after (tidy : work.Tidy now key) (h : w.Ready now t key) (n : Nat) :
    (w.after work t n).Ready now t key ∧ (w.after work t n).slate = w.slate.after work now n := by
  induction n with
  | zero => exact ⟨h, rfl⟩
  | succ n ih =>
    obtain ⟨ready, slate⟩ := ih
    obtain ⟨w', run, ready', -, slate', -⟩ := Work.run_eq tidy ready
    rw [World.after, run, Slate.after, ← slate]
    exact ⟨ready', slate'⟩

/-- Tidy work in a ready world comes to what it says on the slate, however often it was done. -/
theorem World.Ready.nth (tidy : work.Tidy now key) (h : w.Ready now t key) (n : Nat) :
    w.nth work t n = .finished (w.slate.nth work now n) := by
  obtain ⟨ready, slate⟩ := h.after tidy n
  obtain ⟨w', run, -⟩ := Work.run_eq tidy ready
  rw [World.nth, run, slate]
  rfl

end Again

namespace World

variable {w : World} {now : Time} {t : Tx} {key : String}

theorem Quiet.start (h : w.Quiet now key) :
    ∃ w', w.start = (.answer (.ok w.ledger.start.1), w') ∧ w'.Ready now w.ledger.start.1 key ∧
      w.Spent w' 0 0 ∧ w'.slate = w.slate ∧ w'.ledger.locks.Unawaited key := by
  obtain ⟨pass, calm⟩ := h.toCalm.submit .start .start
  simp only [World.start, pass]
  exact ⟨_, rfl, ⟨calm.withLedger _, ⟨rfl, List.mem_cons_self⟩, h.free.within⟩, ⟨rfl, rfl, rfl⟩,
    rfl, h.free.unawaited⟩

theorem Calm.query (h : w.Calm now) (q : Query) :
    ∃ w', w.query q = (.answer (.ok (w.ledger.query q).1), w') ∧ w'.Calm now ∧
      w'.ledger = (w.ledger.query q).2 ∧
      w'.slate = { w.slate with counters := (w.ledger.query q).2.counters } := by
  obtain ⟨pass, calm⟩ := h.submit q.method (.query q)
  simp only [World.query, pass]
  refine ⟨_, rfl, calm.withLedger _, rfl, ?_⟩
  cases q <;> rfl

theorem Ready.finish (h : w.Ready now t key) (how : Ending) :
    ∃ w', w.finish t how = (.answer (.ok ()), w') ∧ w'.Calm now ∧
      w.Spent w' (if how = .commit then 1 else 0) (if how = .commit then 0 else 1) ∧
      w'.slate = w.slate ∧ (w.ledger.locks.Unawaited key → w'.ledger.locks.Free key) := by
  obtain ⟨pass, calm⟩ := h.toCalm.submit how.method (.finish how)
  simp only [World.finish, pass, Ledger.finish]
  rw [if_pos (show (w.submit how.method (.finish how)).2.ledger.IsOpen t from h.isOpen)]
  cases how <;>
    exact ⟨_, rfl, calm.withLedger _, ⟨rfl, rfl, rfl⟩, rfl, h.mine.release⟩

end World

theorem Plan.run_bind {α β : Type} (p : Plan α) (f : α → Plan β) (w : World) :
    (p.bind f).run w = match p.run w with
      | (.finished a, w) => (f a).run w
      | (.hung, w) => (.hung, w) := by
  induction p generalizing w with
  | done a => rfl
  | poll next ih => exact ih _ w
  | now next ih => exact ih _ w
  | start next ih | finish _ _ next ih | query _ next ih =>
    simp only [Plan.bind, Plan.run]
    split
    · exact ih _ _
    · rfl
  | attempt t limit work next ih =>
    simp only [Plan.bind, Plan.run]
    split
    · exact ih _ _
    · split
      · rfl
      · exact ih _ _
  | pause span next ih =>
    simp only [Plan.bind, Plan.run]
    split
    · exact ih _
    · split
      · rfl
      · exact ih _

end Docket
