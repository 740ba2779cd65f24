import Docket.Proofs.Issue.Attempts
import Docket.Proofs.Issue.Scope
import Docket.Proofs.Issue.Transactions

/-!
# How an issue tries again

An attempt that fails with an error that may pass is followed by a pause and the next one, and the
pauses grow with the number of the attempt. What is given back in the end is never such an error.

* **`Series.issueOne_retries`**: attempts go on until one commits or fails for good.
-/

namespace Docket

variable {α : Type} {s : Series} {r : RetrySettings} {attempt : Plan Attempt} {w v u : World}
  {x : Attempt} {xs : List Attempt} {a : Nat} {t : Tx} {script : Method → List Fault}

/-! ## Where failures come from -/

/-- Whether an error that may pass is one that a script gives. -/
def Error.Given (script : Method → List Fault) (e : Error) : Prop :=
  e.isTransient → ∃ e' m, e = .ledger e' ∧ .fail e' ∈ script m

/-- Whether an attempt is told by the right failure: one that may pass is the script's, or says that
the time was up; and what is fatal does not pass. -/
def Attempt.Honest (r : RetrySettings) (script : Method → List Fault) : Attempt → Prop
  | .issued _ | .collided => True
  | .transient e => e.isTransient ∧ (e = .timeout r.attemptTimeout ∨ ∃ m, .fail e ∈ script m)
  | .fatal e => e.isTransient = false

theorem Attempt.honest_ofError {e : Error} (given : e.Given script) :
    (ofError e).Honest r script := by
  cases passes : e.isTransient with
  | false => exact (ofError_of_not_transient passes).symm ▸ passes
  | true =>
    obtain ⟨e', m, rfl, fail⟩ := given passes
    have ofError : ofError (.ledger e') = .transient e' := if_pos passes
    exact ofError ▸ ⟨passes, .inr ⟨m, fail⟩⟩

theorem Attempt.Honest.mono {script' : Method → List Fault} (h : x.Honest r script)
    (le : ∀ m, script m <:+ script' m) : x.Honest r script' := by
  cases x with
  | issued | collided | fatal => exact h
  | transient e => exact ⟨h.1, h.2.imp_right fun ⟨m, fail⟩ => ⟨m, (le m).subset fail⟩⟩

theorem Attempt.honest_ofResult {result : Except Error Candidate}
    (given : ∀ e, result = .error e → e.Given script) : (ofResult result).Honest r script := by
  match result with
  | .ok (.clear id) | .ok (.taken id) => trivial
  | .error e => exact honest_ofError (given e rfl)

/-- A script that has moved on. -/
def World.Later (w v : World) : Prop := ∀ m, v.faults m <:+ w.faults m

theorem World.Later.steady (w : World) : World.Steady w.Later :=
  fun _ _ h dealt m => (dealt.script m).trans (h m)

theorem World.reach_error {c : Touch} {e : LedgerError}
    (h : (w.reach t c).1 = .answer (.error e)) : e.isTransient = false := by
  unfold reach at h
  by_cases isOpen : w.ledger.IsOpen t
  · rw [Ledger.touch_of_isOpen isOpen] at h
    cases locks : w.ledger.lockFor? t c with
    | none => rw [locks] at h; cases h
    | some locks' =>
      rw [locks] at h
      exact (Touch.of_answer_error (Reply.answer.inj h)).2
  · rw [Ledger.touch_of_not_isOpen isOpen] at h
    cases h
    rfl

theorem World.touch_error {c : Touch} {e : LedgerError}
    (h : (w.touch t c).1 = .answer (.error e)) : (Error.ledger e).Given w.faults := by
  intro passes
  have lasting {v : World} (h : (v.reach t c).1 = .answer (.error e)) : False :=
    Bool.eq_false_iff.mp (World.reach_error h) passes
  simp only [touch, submitTouch] at h
  cases fault : (w.submit c.method (.touch c)).1 with
  | fail e' =>
    rw [fault] at h
    cases h
    exact ⟨e, c.method, rfl, w.mem_of_submit fault (by simp)⟩
  | stall => rw [fault] at h; cases h
  | say b =>
    rw [fault] at h
    cases said : said b c with
    | some a => simp only [said] at h; cases h
    | none => simp only [said] at h; exact (lasting h).elim
  | pass => rw [fault] at h; exact (lasting h).elim

def Scope.lasting : Scope where
  times _ := True
  keys _ := True
  errors e := e.isTransient = false

theorem Series.lasting_admits (s : Series) : Scope.lasting.Admits s :=
  ⟨fun _ _ => trivial, fun _ => id⟩

/-- **Work** that fails with an error that may pass has it from the script. -/
theorem Work.ensures_given {work : Work α} (h : work.Within .lasting) (later : w.Later v) :
    work.Ensures t w.Later (fun
      | .finished (.error e), _ => e.Given w.faults
      | _, _ => True) v := by
  induction work generalizing v with
  | done a => exact ⟨later, trivial⟩
  | fail e => exact ⟨later, fun passes => absurd passes (Bool.eq_false_iff.mp h)⟩
  | now next ih => exact ih _ (h _ trivial) later
  | draw n next ih => exact ⟨later, ih _ (h _) (.steady w later (v.dealt_takeWords n))⟩
  | note a next ih => exact ⟨later, ih h.2 (.steady w later (v.dealt_note a))⟩
  | touch c next ih =>
    have after := World.Later.steady w later (v.dealt_touch t c)
    have error : ∀ e, (v.touch t c).1 = .answer (.error e) → (Error.ledger e).Given w.faults := by
      intro e he passes
      obtain ⟨e', m, same, fail⟩ := World.touch_error he passes
      exact ⟨e', m, same, (later m).subset fail⟩
    simp only [Work.Ensures]
    refine ⟨later, ?_⟩
    generalize v.touch t c = dealt at after error
    obtain ⟨reply, u⟩ := dealt
    cases reply with
    | answer r =>
      cases r with
      | ok a => exact ih a (h.2 a) after
      | error e => exact ⟨after, error e rfl⟩
    | waits | never => exact ⟨after, trivial⟩

namespace Series

variable {Q : Attempt → World → Prop} {next : Except Error Candidate → Plan Attempt}

theorem ensures_attempt (later : w.Later v)
    (rest : ∀ result u, w.Later u → (Attempt.ofResult result).Honest r w.faults →
      (next result).Ensures w.Later True Q u) :
    (Plan.attempt t r.attemptTimeout s.candidate next).Ensures w.Later True Q v := by
  simp only [Plan.Ensures]
  refine (Work.ensures_given (within_candidate s.lasting_admits) later).mono (fun _ => id) ?_
  rintro (result | _) u hu given
  · refine rest result u hu (Attempt.honest_ofResult fun e he => ?_)
    subst he
    exact given
  · dsimp only
    split
    · trivial
    · exact rest _ _ (.steady w hu (u.dealt_elapsed _)) ⟨rfl, .inl rfl⟩

theorem ensures_close {result : Except Error Candidate} (later : w.Later v)
    (honest : (Attempt.ofResult result).Honest r w.faults) :
    (Attempt.close t result).Ensures w.Later True (fun x _ => x.Honest r w.faults) v := by
  have ended (how : Ending) (l : Ledger) :
      w.Later { (v.submit how.method (.finish how)).2 with ledger := l } := fun m =>
    (v.submit_script how.method m (.finish how)).trans (later m)
  match result with
  | .ok (.clear id) =>
    refine .finish later ⟨ended _ _, trivial⟩ (fun e fail => ⟨ended _ _, ?_⟩) fun _ =>
      ⟨ended .commit v.ledger, trivial⟩
    exact Attempt.honest_ofError fun _ => ⟨e, _, rfl, (later _).subset fail⟩
  | .ok (.taken _) | .error _ =>
    exact .finish later ⟨ended _ _, honest⟩ (fun e _ => ⟨ended _ _, honest⟩) fun _ =>
      ⟨ended .abort v.ledger, trivial⟩

/-- **Attempts are told by the right failure**, in a given transaction and in their own. -/
theorem honest_attemptIn (run : (s.attemptIn r t).run w = (.finished x, v)) :
    x.Honest r w.faults := by
  have ensures : (s.attemptIn r t).Ensures w.Later True (fun x _ => x.Honest r w.faults) w :=
    ensures_attempt (fun _ => List.suffix_rfl) fun _ _ later honest => ⟨later, honest⟩
  exact ensures.finished (congrArg Prod.fst run)

@[inherit_doc honest_attemptIn]
theorem honest_attemptAlone (run : (s.attemptAlone r).run w = (.finished x, v)) :
    x.Honest r w.faults := by
  have asked (l : Ledger) : w.Later { (w.submit .start .start).2 with ledger := l } := fun m =>
    w.submit_script .start m .start
  have ensures : (s.attemptAlone r).Ensures w.Later True (fun x _ => x.Honest r w.faults) w := by
    rw [attemptAlone_eq]
    refine .start (fun _ => List.suffix_rfl) ?_ (fun e fail => ⟨asked w.ledger, ?_⟩) fun _ =>
      ⟨asked w.ledger, trivial⟩
    · exact ensures_attempt (asked _) fun _ _ later honest => ensures_close later honest
    · exact Attempt.honest_ofError fun _ => ⟨e, _, rfl, fail⟩
  exact ensures.finished (congrArg Prod.fst run)

end Series

/-! ## Commits and pauses -/

/-- How many commits there are in an attempt. -/
def Attempt.commits : Attempt → Nat
  | .issued _ => 1
  | _ => 0

theorem Series.commits_attemptAlone (run : (s.attemptAlone r).run w = (.finished x, v)) :
    v.ledger.commits = w.ledger.commits + x.commits := by
  have room : List.count Call.start [] < 1 := Nat.one_pos
  have ends := (attemptAlone_ensures s r (.refl w) room).finished (congrArg Prod.fst run)
  rw [run] at ends
  cases x with
  | issued id =>
    obtain ⟨deals, dealt, -⟩ := ends
    exact dealt.commits
  | collided | transient | fatal =>
    obtain ⟨deals, aborts, dealt, -⟩ := ends
    exact dealt.commits

/-- The pauses that attempts from a number on call for. -/
def RetrySettings.pausesFrom (r : RetrySettings) (a : Nat) (xs : List Attempt) : List Span :=
  (xs.zipIdx a).filterMap fun numbered => r.pauseAfter numbered.2 numbered.1

theorem RetrySettings.pausesFrom_cons (r : RetrySettings) (a : Nat) (x : Attempt)
    (xs : List Attempt) :
    r.pausesFrom a (x :: xs) = (r.pauseAfter a x).toList ++ r.pausesFrom (a + 1) xs := by
  rw [pausesFrom, List.zipIdx_cons, List.filterMap_cons]
  cases r.pauseAfter a x <;> rfl

theorem RetrySettings.pauseAfter_of_settled (settled : x.settled?.isSome) :
    r.pauseAfter a x = none := by
  cases x with
  | issued | fatal => exact if_neg fun h => nomatch h.1
  | collided | transient => cases settled

theorem World.pauses_rest (w : World) (pause : Option Span) :
    (w.rest pause).pauses = pause.toList ++ w.pauses := by
  cases pause <;> rfl

theorem World.Follows.pauses {calls : List Call} (follows : w.Follows v calls)
    (made : ∀ c ∈ calls, c.InAttempt) : v.pauses = w.pauses := by
  rw [World.pauses, follows.log, List.filterMap_append, List.filterMap_eq_nil_iff.mpr]
  · rfl
  · intro c hc
    cases c with
    | pause span => exact (made _ hc).elim
    | _ => rfl

namespace Tried

/-- **The pauses that attempts call for are made**, and no others. -/
theorem pauses (made : attempt.Makes Call.InAttempt) (tried : Tried r attempt a w xs u) :
    u.pauses = (r.pausesFrom a xs).reverse ++ w.pauses := by
  have attempted {w : World} {x : Attempt} {v : World}
      (run : attempt.run w = (.finished x, v)) : v.pauses = w.pauses := by
    obtain ⟨calls, follows, made, -⟩ := Plan.run_follows made w
    rw [run] at follows
    exact follows.pauses made
  induction tried with
  | none => rfl
  | last goesOn run settles =>
    rw [RetrySettings.pausesFrom_cons, RetrySettings.pauseAfter_of_settled settles]
    exact attempted run
  | @more a w v u x xs goesOn run unsettled rest ih =>
    rw [ih, World.pauses_rest, attempted run, RetrySettings.pausesFrom_cons, List.reverse_append,
      List.append_assoc]
    cases r.pauseAfter a x <;> rfl

/-- What holds of an attempt in every world in which a script has moved on holds of all. -/
theorem forall_mem {S : Attempt → Prop} (tried : Tried r attempt a w xs u)
    (made : attempt.Makes fun _ => True) (later : v.Later w)
    (each : ∀ {w x u}, v.Later w → attempt.run w = (.finished x, u) → S x) : ∀ x ∈ xs, S x := by
  induction tried with
  | none => nofun
  | last goesOn run settles => exact List.forall_mem_singleton.mpr (each later run)
  | more goesOn run unsettled rest ih =>
    refine List.forall_mem_cons.mpr ⟨each later run, ih fun m => ?_⟩
    obtain ⟨calls, follows, -⟩ := Plan.run_follows made _
    rw [run] at follows
    rw [World.rest_faults, follows.script]
    exact (List.drop_suffix _ _).trans (later m)

theorem commits (tried : Tried r (s.attemptAlone r) a w xs u) :
    u.ledger.commits = w.ledger.commits + (xs.map Attempt.commits).sum := by
  induction tried with
  | none => rfl
  | last goesOn run settles => exact Series.commits_attemptAlone run
  | more goesOn run unsettled rest ih =>
    rw [ih, World.rest_ledger, Series.commits_attemptAlone run, List.map_cons, List.sum_cons,
      Nat.add_assoc]

end Tried

/-! ## What is given back -/

theorem RetrySettings.conclusion_lasting {e : Error}
    (lasting : ∀ x ∈ xs, ∀ e, x = .fatal e → e.isTransient = false)
    (h : r.conclusion xs = .error e) : e.isTransient = false := by
  unfold conclusion at h
  split at h
  · next settled =>
    subst h
    obtain ⟨x, last, settled⟩ := Option.bind_eq_some_iff.mp settled
    cases x with
    | fatal e' =>
      cases settled
      exact lasting _ (List.mem_of_getLast? last) e rfl
    | issued | collided | transient => cases settled
  · split at h <;> cases h <;> rfl

theorem Attempted.lasting {e : Error} {w' : World} (made : attempt.Makes fun _ => True)
    (honest : ∀ {w x v}, attempt.run w = (.finished x, v) → x.Honest r w.faults)
    (h : Attempted r attempt [] w (.finished (.error e)) w') : e.isTransient = false := by
  obtain ⟨xs, v, tried, -, -, conclusion, -⟩ := h
  refine RetrySettings.conclusion_lasting (fun x hx e fatal => ?_) conclusion.symm
  refine tried.forall_mem (S := fun x => ∀ e, x = .fatal e → e.isTransient = false) made
    (fun _ => List.suffix_rfl) (fun _ run e fatal => ?_) x hx e fatal
  subst fatal
  exact honest run

namespace Series

variable (s : Series) (r : RetrySettings)

/-- **Attempts go on until one commits or fails for good**, and there are no more of them than there
may be. In between are the pauses that attempts call for which failed in a way that may pass. The
issue comes to what the last attempt settles, or else to the latest failure. It never fails with an
error that may pass, not in a given transaction either. -/
theorem issueOne_retries (attended : w.Attended) (untold : w.stopAfter = none) :
    (∃ xs w', (s.issueOne r).run w = (.finished (r.conclusion xs), w') ∧
      Tried r (s.attemptAlone r) 1 w xs w' ∧
      xs.length ≤ r.maxAttempts ∧
      ((∀ x ∈ xs, x.settled? = none) → xs.length = r.maxAttempts) ∧
      (∀ x ∈ xs, x.Honest r w.faults) ∧
      w'.ledger.commits = w.ledger.commits + (xs.map Attempt.commits).sum ∧
      w'.pauses.reverse = w.pauses.reverse ++ r.pausesFrom 1 xs) ∧
    (∀ a, (r.backoff a).nanos = min (r.baseDelayMs * 1000000 * a) Span.max.nanos) ∧
    ∀ (v v' : World) (e : Error), v.horizon = none →
      ((s.issueOne r).run v = (.finished (.error e), v') → e.isTransient = false) ∧
      ∀ t, (s.issueIn r t).run v = (.finished (.error e), v') → e.isTransient = false := by
  refine ⟨?_, fun _ => rfl, fun v v' e patient => ⟨fun run => ?_, fun t run => ?_⟩⟩
  · have patient := attended.patient
    obtain ⟨x, returns⟩ := (s.issueOne_ensures r w).returns (not_not_intro attended)
    obtain ⟨calls, follows, -⟩ := Plan.run_follows (s.makes_issueOne r) w
    have attempted := s.issueOne_attempted r patient
    generalize (s.issueOne r).run w = run at returns follows attempted
    obtain ⟨result, w'⟩ := run
    subst returns
    obtain ⟨xs, v, tried, few, rfl, conclusion, told⟩ := attempted
    refine ⟨xs, v, by rw [conclusion, List.nil_append], tried, few, fun unsettled => ?_,
      ?_, tried.commits, ?_⟩
    · refine (Nat.le_antisymm few (Nat.le_of_not_lt fun lt => ?_))
      have stop := told unsettled lt
      rw [World.isCancelled, follows.stopAfter, untold] at stop
      cases stop
    · refine tried.forall_mem (s.makes_attemptAlone r (fun _ => trivial) trivial fun _ => trivial)
        (fun _ => List.suffix_rfl) fun later run => ?_
      exact (honest_attemptAlone run).mono later
    · rw [tried.pauses (s.makes_attemptAlone r (fun _ => trivial) trivial fun _ => trivial),
        List.reverse_append, List.reverse_reverse]
      rfl
  · have attempted := s.issueOne_attempted r patient
    rw [run] at attempted
    exact attempted.lasting (s.makes_attemptAlone r (fun _ => trivial) trivial fun _ => trivial)
      honest_attemptAlone
  · have attempted := s.issueIn_attempted r t patient
    rw [run] at attempted
    exact attempted.lasting (s.makes_attemptIn r t fun _ => trivial) honest_attemptIn

/-- The first addition never comes back, the first commit fails, and the third attempt succeeds. -/
theorem issueOne_retries_rough :
    ∃ xs w', ((Series.roll {}).issueOne {}).run .rough = (.finished (.ok "250314-0-02"), w') ∧
      Tried {} ((Series.roll {}).attemptAlone {}) 1 .rough xs w' ∧
      RetrySettings.pausesFrom {} 1 xs = [⟨100000000⟩, ⟨200000000⟩] := by
  have run : (((Series.roll {}).issueOne {}).run .rough).1 = .finished (.ok "250314-0-02") := by
    cbv
  have paused : (((Series.roll {}).issueOne {}).run .rough).2.pauses =
      [⟨200000000⟩, ⟨100000000⟩] := by cbv
  have attended : World.rough.Attended := ⟨rfl, by decide⟩
  obtain ⟨⟨xs, w', runs, tried, -, -, -, -, pauses⟩, -⟩ :=
    issueOne_retries (w := .rough) (.roll {}) {} attended rfl
  rw [runs] at run paused
  refine ⟨xs, w', runs.trans (Prod.ext run rfl), tried, ?_⟩
  rw [paused] at pauses
  exact pauses.symm

end Series

end Docket
