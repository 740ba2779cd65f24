import Docket.Ledger.Snapshot
import Docket.Proofs.Calendar.ReadBack
import Docket.Proofs.Json.ReadBack

/-!
# Snapshots read back

* `Snapshot.plain_toJson`: the JSON form of a snapshot reads back as JSON;
* `Mark.ofJson?_toJson`, `Counter.ofJson?_toJson`: marks read back, and counters whose time does;
* **`Snapshot.records_of_ofJson?`**: a snapshot that is read back has the records that were written;
* **`Snapshot.ofJson?_toJson`**: a snapshot whose times read back does so as a whole.
-/

namespace Docket

open Std (ExtTreeMap ExtTreeSet)

/-! ## Maps and sets from their lists -/

theorem ofList_toList_map {α : Type} (m : ExtTreeMap String α) : ExtTreeMap.ofList m.toList = m := by
  refine ExtTreeMap.ext_getElem? fun k => ?_
  cases hk : m[k]? with
  | some v =>
    exact ExtTreeMap.getElem?_ofList_of_mem (Std.ReflCmp.compare_self) ExtTreeMap.distinct_keys_toList
      (ExtTreeMap.mem_toList_iff_getElem?_eq_some.mpr hk)
  | none =>
    have absent : k ∉ m.toList.map Prod.fst := by
      rw [ExtTreeMap.map_fst_toList_eq_keys, ExtTreeMap.mem_keys,
        ExtTreeMap.mem_iff_isSome_getElem?, hk]
      nofun
    refine ExtTreeMap.getElem?_ofList_of_contains_eq_false ?_
    rw [← Bool.not_eq_true, List.contains_iff_mem]
    exact absent

theorem ofList_toList_set (s : ExtTreeSet String) : ExtTreeSet.ofList s.toList = s := by
  refine ExtTreeSet.ext_mem fun k => ?_
  rw [ExtTreeSet.mem_ofList, List.contains_iff_mem, ExtTreeSet.mem_toList]

theorem mapM_map_eq_some {α β : Type} (read : β → Option α) (write : α → β) {as : List α}
    (h : ∀ a ∈ as, read (write a) = some a) : (as.map write).mapM read = some as := by
  induction as with
  | nil => rfl
  | cons a as ih =>
    have others := ih fun b hb => h b (List.mem_cons_of_mem a hb)
    simp only [List.map_cons, List.mapM_cons, h a List.mem_cons_self, others]
    rfl

/-! ## Snapshots -/

theorem Mark.plain_toJson (m : Mark) : m.toJson.Plain := by
  cases m <;> refine .obj ?_ <;> simp only [List.forall_mem_cons, List.not_mem_nil,
    IsEmpty.forall_iff, implies_true, and_true]
  · exact .str _
  · exact ⟨.str _, .nat _⟩
  · exact ⟨.str _, .str _⟩

theorem Counter.plain_toJson (c : Counter) : c.toJson.Plain := by
  refine .obj ?_
  simp only [List.forall_mem_cons, List.not_mem_nil, IsEmpty.forall_iff, implies_true, and_true]
  exact ⟨.str _, .nat _, c.mark.plain_toJson, .str _⟩

theorem Mark.ofJson?_toJson (m : Mark) : ofJson? m.toJson = some m := by
  cases m with
  | plain => rfl
  | digit d =>
    have small : d.toNat < UInt8.size := d.toNat_lt
    show (((Json.nat d.toNat).natBelow? UInt8.size).map fun d => Mark.digit (UInt8.ofNat d)) = _
    rw [Json.natBelow?, if_pos small, Option.map_some, UInt8.ofNat_toNat]
  | lead text => rfl

theorem Counter.ofJson?_toJson {c : Counter} (h : c.written.Exact) : ofJson? c.toJson = some c := by
  have small : c.sequence.toNat < UInt64.size := c.sequence.toNat_lt
  have word : (Json.nat c.sequence.toNat).word? = some c.sequence := by
    rw [Json.word?, Json.natBelow?, if_pos small, Option.map_some, UInt64.ofNat_toNat]
  have fields : c.toJson.fields? ["key", "sequence", "disambiguator", "last_updated"] =
      some [some (.str c.key), some (.nat c.sequence.toNat), some c.mark.toJson,
        some (.str c.written.text)] := rfl
  simp only [ofJson?, fields, word, Mark.ofJson?_toJson, Json.str?, h.read?_text,
    Option.bind_eq_bind, Option.bind_some, Option.pure_def]

namespace Snapshot

theorem plain_toJson (s : Snapshot) : s.toJson.Plain := by
  refine .obj ?_
  simp only [List.forall_mem_cons, List.not_mem_nil, IsEmpty.forall_iff, implies_true, and_true]
  constructor
  · refine .obj (List.forall_mem_map.mpr fun m _ => ?_)
    exact m.2.plain_toJson
  · refine .obj (List.forall_mem_map.mpr fun m _ => ?_)
    exact .arr (List.forall_mem_map.mpr fun value _ => .str value)

theorem readValues_toJson (values : ExtTreeSet String) :
    readValues (.arr (values.toList.map .str)) = some values := by
  have read : (values.toList.map Json.str).mapM Json.str? = some values.toList :=
    mapM_map_eq_some Json.str? Json.str fun _ _ => rfl
  simp only [readValues, read, Option.map_some, ofList_toList_set]

theorem ofJson?_toJson_eq (s : Snapshot) :
    ofJson? s.toJson =
      (readMembers Counter.ofJson? (.obj (s.counters.toList.map fun m => (m.1, m.2.toJson)))).map
        fun counters => ⟨ExtTreeMap.ofList counters, s.records⟩ := by
  obtain ⟨records, parts, read⟩ : ∃ records, s.toJson.fields? ["counters", "records"] =
      some [some (.obj (s.counters.toList.map fun m => (m.1, m.2.toJson))), some (.obj records)] ∧
        readMembers readValues (.obj records) = some s.records.toList := by
    refine ⟨_, rfl, mapM_map_eq_some _ _ fun m _ => ?_⟩
    show (readValues (.arr (m.2.toList.map .str))).map (m.1, ·) = some m
    rw [readValues_toJson]
    rfl
  simp only [ofJson?, parts, Json.fieldOr, read, Option.bind_eq_bind, Option.bind_some,
    ofList_toList_map]
  cases readMembers Counter.ofJson? (.obj (s.counters.toList.map fun m => (m.1, m.2.toJson))) <;>
    rfl

theorem records_of_ofJson? {s s' : Snapshot} (h : ofJson? s.toJson = some s') :
    s'.records = s.records := by
  rw [ofJson?_toJson_eq, Option.map_eq_some_iff] at h
  obtain ⟨counters, -, rfl⟩ := h
  rfl

/-- **A snapshot reads back** if the times in it do. -/
theorem ofJson?_toJson {s : Snapshot} (times : ∀ (key : String) (c : Counter),
    s.counters[key]? = some c → c.written.Exact) : ofJson? s.toJson = some s := by
  have read : readMembers Counter.ofJson?
      (.obj (s.counters.toList.map fun m => (m.1, m.2.toJson))) = some s.counters.toList := by
    refine mapM_map_eq_some _ _ fun m hm => ?_
    have exact := times m.1 m.2 (ExtTreeMap.mem_toList_iff_getElem?_eq_some.mp hm)
    show (Counter.ofJson? m.2.toJson).map (m.1, ·) = some m
    rw [Counter.ofJson?_toJson exact]
    rfl
  rw [ofJson?_toJson_eq, read, Option.map_some, ofList_toList_map]

end Snapshot

end Docket
