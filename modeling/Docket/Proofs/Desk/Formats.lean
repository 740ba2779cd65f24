import Docket.Proofs.Desk.Keeps

/-!
# A desk never finds fault with its own counters

A desk that starts with no counters serves requests one after another. In between, the clock may be
set to any time and anything else but the counters may change, and on the way any call may fail or
stall.

* **`Desk.Day.always_formats`**: what is given out can be read back, and no error is the desk's own
  doing.
-/

namespace Docket

/-! ## Forecasts -/

namespace Forecast

variable {period : String} {top sequence : UInt64} {digit : UInt8}

def Read (es : List Entry) : Prop := ∀ e ∈ es, ∃ r, RollNumber.parse e.id = .ok r

theorem settle_mem (htop : 1 ≤ top) (sequence : UInt64) (hd : digit ≤ 9) :
    (settle top sequence digit).1 ≤ top ∧ (settle top sequence digit).2 ≤ 9 := by
  unfold settle
  split
  · exact ⟨htop, RollCycle.nextDigit_le digit⟩
  · next le => exact ⟨UInt64.not_lt.mp le, hd⟩

theorem entries_read (stamp : IsDayStamp period) (htop : 1 ≤ top) (hle : top ≤ 99)
    (count index : Nat) (hs : sequence ≤ top) (hd : digit ≤ 9) :
    ∃ es, entries period top count index sequence digit = .ok es ∧ Read es := by
  induction count generalizing index sequence digit with
  | zero => exact ⟨[], rfl, nofun⟩
  | succ count ih =>
    have narrow : sequence ≤ 99 := UInt64.le_trans hs hle
    obtain ⟨hs', hd'⟩ := settle_mem htop (sequence + 1) hd
    obtain ⟨rest, run, reads⟩ := ih (index + 1) hs' hd'
    rw [entries, RollNumber.format_ok (r := ⟨period, digit, sequence⟩) stamp.check hd narrow]
    refine ⟨_, congrArg (Except.bind · fun rest => .ok (_ :: rest)) run, ?_⟩
    exact List.forall_mem_cons.mpr
      ⟨⟨_, RollNumber.parse_text stamp.ne_nil stamp.dash_notMem hd narrow⟩, reads⟩

theorem simulate_read (stamp : IsDayStamp period) (htop : 1 ≤ top) (hle : top ≤ 99) (count : Nat)
    (sequence : UInt64) (hd : digit ≤ 9) :
    ∃ es, simulate period count sequence digit top = .ok es ∧ Read es := by
  have pos : top ≠ 0 := by
    rintro rfl
    exact absurd htop (by decide)
  unfold simulate
  split
  · exact ⟨[], rfl, nofun⟩
  · obtain ⟨hs, hd'⟩ := settle_mem htop (max sequence 1) hd
    rw [if_neg (RollNumber.not_radix_le hd),
      if_neg (show ¬ (top = 0 ∨ RollNumber.maxSequence < top) from
        not_or.mpr ⟨pos, UInt64.not_lt.mpr hle⟩)]
    exact entries_read stamp htop hle count 1 hs hd'

theorem digit_startOf {record : Option Counter}
    (digit : ∀ c, record = some c → ∃ d : UInt8, d ≤ 9 ∧ c.mark = .digit d) :
    (startOf record).2 ≤ 9 := by
  cases record with
  | none => decide
  | some c =>
    obtain ⟨d, hd, mark⟩ := digit c rfl
    simpa [startOf, mark, Mark.digit?] using hd

end Forecast

section Serve

variable {α : Type} {d : Desk} {w v : World} {P : α → World → Prop}

theorem Desk.Plans.query {q : Query} {next : Except LedgerError q.Answer → Plan α}
    (h : d.Keeps w none v)
    (answers : ∀ u, d.Keeps w none u → d.Plans w P (next (.ok (v.ledger.query q).1)) u)
    (fails : ∀ e u, d.Keeps w none u → e.Excused w u → d.Plans w P (next (.error e)) u) :
    d.Plans w P (.query q next) v := by
  have submitted := h.submit q.method (.query q)
  refine Plan.Ensures.query h (answers _ ⟨?_, submitted.script, nofun⟩)
    (fun e injected => fails e _ submitted (h.excused injected)) fun _ => ⟨submitted, trivial⟩
  -- Of the questions only a removal changes counters, and it leaves fewer.
  cases q with
  | get | findExisting => exact h.fits
  | remove key =>
    intro key' c hc
    simp only [Ledger.query, Std.ExtTreeMap.getElem?_erase] at hc
    split at hc
    · cases hc
    · exact h.fits key' c hc

namespace Forecast

theorem preview_keeps (h : d.Keeps w none v) (count : Nat) :
    d.Plans w (fun x u => d.Keeps w none u ∧ Fair w u Read x) (preview d.settings.roll count) v := by
  obtain ⟨htop, hle⟩ := d.maxSequence_bounds
  unfold preview
  split
  · exact ⟨h, h, nofun⟩
  · refine Desk.Plans.query h (fun u hu => ?_) fun e u hu excused => ⟨hu, hu, excused⟩
    have stamp := Series.isDayStamp_key_roll d.settings.roll v.now
    have digit : (startOf v.ledger.counters[(Series.roll d.settings.roll).key v.now]?).2 ≤ 9 :=
      digit_startOf fun c hc => (h.fits _ c hc).digit stamp
    obtain ⟨es, run, reads⟩ := simulate_read stamp htop hle count (startOf _).1 digit
    exact ⟨hu, hu, (congrArg (Fair w u Read) run).mpr reads⟩

theorem findCollisions_keeps (h : d.Keeps w none v) (field : String) (ids : List String) :
    d.Plans w (fun x u => d.Keeps w none u ∧ Fair w u (· ⊆ ids) x) (findCollisions field ids) v := by
  unfold findCollisions
  split
  · exact ⟨h, h, List.nil_subset _⟩
  · exact Desk.Plans.query h (fun u hu => ⟨hu, hu, List.filter_subset_self _⟩)
      fun e u hu excused => ⟨hu, hu, excused⟩

theorem dryRun_keeps (h : d.Keeps w none v) (count : Nat) :
    d.Plans w (fun x u => Fair w u (fun r => Read r.simulated ∧
      r.collisions ⊆ r.simulated.map (·.id)) x) (dryRun d.settings.roll count) v := by
  refine Plan.Ensures.bind (preview_keeps h count) ?_
  rintro (e | es) u - ⟨hu, fair⟩
  · exact ⟨hu, fair⟩
  · refine Plan.Ensures.bind (findCollisions_keeps hu d.settings.roll.field _) ?_
    rintro (e | ids) u' - ⟨hu', fair'⟩
    · exact ⟨hu', fair'⟩
    · exact ⟨hu', fair, fair'⟩

end Forecast

/-! ## Requests -/

def Response.mentioned : Response → List String
  | .id i => [i]
  | .ids is => is
  | .entries es => es.map (·.id)
  | .report r => r.simulated.map (·.id) ++ r.collisions
  | .removed _ => []

def Desk.seriesOf (d : Desk) : Request → Series
  | .issue kind | .reset kind => d.settings.series kind
  | .reserve _ | .preview _ | .dryRun _ => d.settings.series .rollNumber
  | .invoices _ => d.settings.series .invoice

/-- Whether a request may be answered so that comes in one world and leaves another: with
identifiers that can be read back, or an error with an excuse. An empty batch of invoice IDs is
refused. -/
def Desk.Answers (d : Desk) (w v : World) (request : Request) : Except Error Response → Prop
  | .ok response => ∀ id ∈ response.mentioned, (d.seriesOf request).Accepts id
  | .error e => e.Excused w v ∨ request = .invoices 0 ∧ e = .invalid .emptyInvoiceBatch

theorem Desk.answers_map {f : α → Response} {A : α → Prop} {request : Request}
    {x : Except Error α} (fair : Fair w v A x)
    (reads : ∀ a, A a → ∀ id ∈ (f a).mentioned, (d.seriesOf request).Accepts id) :
    d.Answers w v request (x.map f) := by
  cases x with
  | error e => exact .inl fair
  | ok a => exact reads a fair

/-- **A request** leaves a desk what it keeps, and is answered as it may be. -/
theorem Desk.serve_keeps (name : ¬ IsDayStamp d.settings.invoice.counterName)
    (h : d.Keeps w none v) (request : Request) :
    d.Plans w (fun x u => d.Answers w u request x) (d.serve request) v := by
  cases request with
  | issue kind =>
    exact Plan.Ensures.bind (Series.issueOne_keeps (d.serves name kind) h) fun x u hu fair =>
      ⟨hu, answers_map fair fun _ accepts => List.forall_mem_singleton.mpr accepts⟩
  | reserve count =>
    exact Plan.Ensures.bind (Series.issueBatch_keeps (d.serves name .rollNumber) h count)
      fun x u hu fair => ⟨hu, answers_map fair fun _ accepts => accepts⟩
  | invoices count =>
    simp only [serve]
    split
    · next zero => exact ⟨h, .inr ⟨by rw [zero], rfl⟩⟩
    · exact Plan.Ensures.bind (Series.issueBatch_keeps (d.serves name .invoice) h count)
        fun x u hu fair => ⟨hu, answers_map fair fun _ accepts => accepts⟩
  | preview count =>
    exact Plan.Ensures.bind (Forecast.preview_keeps h count) fun x u hu fair =>
      ⟨hu, answers_map fair.2 fun _ reads => List.forall_mem_map.mpr reads⟩
  | dryRun count =>
    refine Plan.Ensures.bind (Forecast.dryRun_keeps h count) fun x u hu fair =>
      ⟨hu, answers_map fair fun r reads => ?_⟩
    have simulated : ∀ id ∈ r.simulated.map (·.id), (d.seriesOf (.dryRun count)).Accepts id :=
      List.forall_mem_map.mpr reads.1
    exact List.forall_mem_append.mpr ⟨simulated, fun id hid => simulated id (reads.2 hid)⟩
  | reset kind =>
    exact Desk.Plans.query h (fun u hu => ⟨hu, List.forall_mem_nil _⟩)
      fun e u hu excused => ⟨hu, .inl excused⟩

end Serve

/-! ## One after another -/

/-- The worlds in which a desk is asked for something, if it starts with no counters. Between two
requests everything but the counters may change: the clock, the script, the random words, the
records and the locks. -/
inductive Desk.Day (d : Desk) : World → Prop where
  | opens {w : World} (empty : w.ledger.counters = ∅) : Day d w
  | next {w w' : World} (day : Day d w) (request : Request)
      (counters : w'.ledger.counters = ((d.serve request).run w).2.ledger.counters) : Day d w'

theorem Desk.Day.keeps {d : Desk} (name : ¬ IsDayStamp d.settings.invoice.counterName) {w : World}
    (day : d.Day w) : d.Keeps w none w := by
  induction day with
  | opens empty =>
    refine ⟨fun key c hc => ?_, fun _ => List.suffix_rfl, nofun⟩
    rw [empty] at hc
    simp at hc
  | next day request counters ih =>
    refine ⟨fun key c hc => ?_, fun _ => List.suffix_rfl, nofun⟩
    rw [counters] at hc
    exact (Desk.serve_keeps name ih request).last.fits key c hc

/-- **A desk never finds fault with its own counters.** Whatever it gives out can be read back as
one of its series, and an error is no refusal, other than that of an empty batch of invoice IDs, and
no breakdown but one from the script, or the overflow of a counter that has come to the last
word. -/
theorem Desk.Day.always_formats {d : Desk} (name : ¬ IsDayStamp d.settings.invoice.counterName)
    {w w' : World} (day : d.Day w) {request : Request} {result : Except Error Response}
    (run : (d.serve request).run w = (.finished result, w')) :
    d.Answers w w' request result := by
  have answers := (Desk.serve_keeps name (day.keeps name) request).finished (congrArg Prod.fst run)
  rwa [run] at answers

/-- A world on 15 March 2025 that comes after the first roll number of a narrow desk. -/
def World.dayAfter : World where
  ledger := ((Desk.narrow.serve (.issue .rollNumber)).run .blank).2.ledger
  faults
    | .get => [.fail (.backend (.other "disk full"))]
    | _ => []
  clock := fun _ => ⟨1742029200, 0, 0⟩

/-- On that day a forecast breaks down, as the script says, and two roll numbers are issued that can
be read back. -/
theorem Desk.Day.always_formats_narrow :
    ¬ IsDayStamp Desk.narrow.settings.invoice.counterName ∧ Desk.narrow.Day .dayAfter ∧
    (∃ w, (Desk.narrow.serve (.preview 1)).run .dayAfter =
        (.finished (.error (.ledger (.backend (.other "disk full")))), w) ∧
      Desk.narrow.Answers .dayAfter w (.preview 1)
        (.error (.ledger (.backend (.other "disk full"))))) ∧
    ((Desk.narrow.serve (.reserve 2)).run .dayAfter).1 =
        .finished (.ok (.ids ["250315-0-01", "250315-1-01"])) ∧
      ∀ id ∈ ["250315-0-01", "250315-1-01"], ∃ r, RollNumber.parse id = .ok r := by
  have name : ¬ IsDayStamp Desk.narrow.settings.invoice.counterName := by decide
  have day : Desk.narrow.Day .dayAfter :=
    .next (.opens (w := .blank) rfl) (.issue .rollNumber) rfl
  have fails : ((Desk.narrow.serve (.preview 1)).run .dayAfter).1 =
      .finished (.error (.ledger (.backend (.other "disk full")))) := by cbv
  have issues : ((Desk.narrow.serve (.reserve 2)).run .dayAfter).1 =
      .finished (.ok (.ids ["250315-0-01", "250315-1-01"])) := by cbv
  exact ⟨name, day, ⟨_, Prod.ext fails rfl, day.always_formats name (Prod.ext fails rfl)⟩, issues,
    day.always_formats name (Prod.ext issues rfl)⟩

end Docket
