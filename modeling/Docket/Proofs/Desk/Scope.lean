import Docket.Desk
import Docket.Proofs.Issue.Scope

/-!
# What a request may ask for

* `Forecast.within_preview`, `Forecast.within_dryRun`: forecasts ask about the counter of the day;
* `Request.kind`: the kind of the counters that a request is about;
* **`Desk.within_serve`**: a request keeps within any scope that admits the series of its kind.
-/

namespace Docket

variable {scope : Scope}

namespace Forecast

variable {l : RollSettings}

theorem within_preview (h : scope.Admits (.roll l)) (count : Nat) :
    (preview l count).Within scope := by
  unfold preview
  split
  · trivial
  · refine fun now allowed => ⟨fun _ e => Option.some.inj e ▸ h.keys now allowed, ?_⟩
    rintro (e | c) <;> trivial

theorem within_findCollisions (field : String) (ids : List String) :
    (findCollisions field ids).Within scope := by
  unfold findCollisions
  split
  · trivial
  · exact ⟨nofun, fun _ => trivial⟩

theorem within_dryRun (h : scope.Admits (.roll l)) (count : Nat) :
    (dryRun l count).Within scope := by
  refine (within_preview h count).bind ?_
  rintro (e | simulated)
  · trivial
  · refine (within_findCollisions _ _).bind ?_
    rintro (e | collisions) <;> trivial

end Forecast

def Request.kind : Request → CounterKind
  | .issue kind | .reset kind => kind
  | .reserve _ | .preview _ | .dryRun _ => .rollNumber
  | .invoices _ => .invoice

/-- **A request** asks for nothing outside a scope that admits the series of its kind. -/
theorem Desk.within_serve (d : Desk) {request : Request}
    (h : scope.Admits (d.settings.series request.kind)) : (d.serve request).Within scope := by
  cases request with
  | issue kind => exact (Series.within_issueOne h).bind fun _ => trivial
  | reserve count => exact (Series.within_issueBatch h count).bind fun _ => trivial
  | invoices count =>
    simp only [serve]
    split
    · trivial
    · exact (Series.within_issueBatch h count).bind fun _ => trivial
  | preview count => exact (Forecast.within_preview h count).bind fun _ => trivial
  | dryRun count => exact (Forecast.within_dryRun h count).bind fun _ => trivial
  | reset kind =>
    exact fun now allowed => ⟨fun _ e => Option.some.inj e ▸ h.keys now allowed, fun _ => trivial⟩

end Docket
