import TableGateway.Proofs.Report

/-! # Loading entries

Every entry is judged by itself, and a bad one is reported at its position. One shape is not
reported but ends the whole loading: an entry that is good in every other respect but whose
cross-origin settings give true or a number as their origins. -/

namespace TableGateway

/-! ## Where reading an entry breaks -/

/-- Values that count as given but cannot be gone through. -/
def Json.Itemless : Json → Prop
  | bool b => b = true
  | int n => n ≠ 0
  | float x => x.isZero = false
  | _ => False

theorem Cors.originsOfConfig_error_iff {value : Json} {fault : Fault} :
    originsOfConfig value = .error fault ↔
      value.Itemless ∧ fault = .notIterable value.kind := by
  unfold originsOfConfig
  by_cases hv : value.truthy = true
  · rw [if_pos hv]
    cases value with
    | null => cases hv
    | str s | arr items | obj fields => simp [Json.Itemless, Json.elements]
    | bool b =>
        have hi : (Json.bool b).Itemless := hv
        simp [hi, Json.elements, eq_comm (a := fault)]
    | int n =>
        have hi : (Json.int n).Itemless := by simpa [Json.Itemless, Json.truthy] using hv
        simp [hi, Json.elements, eq_comm (a := fault)]
    | float x =>
        have hi : (Json.float x).Itemless := by simpa [Json.Itemless, Json.truthy] using hv
        simp [hi, Json.elements, eq_comm (a := fault)]
  · rw [if_neg hv]
    cases value <;> simp_all [Json.Itemless, Json.truthy]

theorem Cors.ofFields_error_iff {fields : List (Text × Json)} {fault : Fault} :
    ofFields fields = .error fault ↔
      (Json.field (.obj fields) "origins").Itemless ∧
        fault = .notIterable (Json.field (.obj fields) "origins").kind := by
  rw [← originsOfConfig_error_iff, ofFields]
  cases originsOfConfig (Json.field (.obj fields) "origins") <;> simp [Except.map]

/-- Cross-origin settings break on their origins only; any other bad value is refused. -/
theorem Cors.ofConfig_unexpected_iff {value : Json} {fault : Fault} :
    ofConfig value = .error (.unexpected fault) ↔
      (value.field "origins").Itemless ∧ fault = .notIterable (value.field "origins").kind := by
  cases value with
  | null | bool b | int n | float x | str s | arr items =>
      simp only [Json.field, Json.Itemless, false_and, iff_false]
      unfold ofConfig
      split <;> simp
  | obj fields =>
      rw [← ofFields_error_iff, ofConfig]
      cases fields with
      | nil => simp [Json.truthy, ofFields, originsOfConfig, Json.field, Entries.get?, Except.map]
      | cons first rest =>
          cases ofFields (first :: rest) <;> simp [Json.truthy, Except.map, Except.mapError]

/-- An entry without fields is refused: it has none of those that it needs. -/
theorem Event.ofFields_nil : ofFields [] = .error (.missingFields requiredFields) := rfl

/-- Reading an entry breaks exactly when all but its origins can be read. -/
theorem Event.ofConfig_unexpected_iff {data : Json} {fault : Fault} :
    ofConfig data = .error (.unexpected fault) ↔
      (∃ fields event, data = .obj fields ∧ ofFields fields = .ok event) ∧
        ((data.field "cors").field "origins").Itemless ∧
        fault = .notIterable ((data.field "cors").field "origins").kind := by
  rw [← Cors.ofConfig_unexpected_iff]
  cases data with
  | null => simp [ofConfig, blockFields, ofFields_nil, bind, Except.bind, Except.mapError]
  | bool b | int n | float x | str s | arr items =>
      simp [ofConfig, blockFields, bind, Except.bind, Except.mapError]
  | obj fields =>
      cases hf : ofFields fields with
      | error cause => simp [ofConfig, blockFields, hf, bind, Except.bind, Except.mapError]
      | ok event =>
          cases hc : Cors.ofConfig ((Json.obj fields).field "cors") <;>
            simp [ofConfig, blockFields, hf, hc, bind, Except.bind, Except.mapError, pure,
              Except.pure]

namespace Loaded

/-! ## One entry -/

/-- The origins in the cross-origin settings of an entry. -/
def originsOf (entry : Json) : Json :=
  (((entryData? entry).getD .null).field "cors").field "origins"

/-- Whether an entry ends the loading: all of it can be read but its origins, which count as given
and cannot be gone through. -/
structure Breaks (entry : Json) : Prop where
  read : ∃ fields event, entryData? entry = some (.obj fields) ∧ Event.ofFields fields = .ok event
  origins : (originsOf entry).Itemless

/-- The event of an entry, judged by itself. -/
def accepted? (entry : Json) : Option Event :=
  match (entryData? entry).map Event.ofConfig with
  | some (.ok event) => some event
  | _ => none

/-- The cause why an entry is refused, judged by itself. -/
def refused? (entry : Json) : Option EventError :=
  match (entryData? entry).map Event.ofConfig with
  | some (.error (.rejected cause)) => some cause
  | _ => none

theorem ofConfig_unexpected_iff {entry data : Json} (hd : entryData? entry = some data)
    {fault : Fault} :
    Event.ofConfig data = .error (.unexpected fault) ↔
      Breaks entry ∧ fault = .notIterable (originsOf entry).kind := by
  rw [Event.ofConfig_unexpected_iff]
  have ho : originsOf entry = (data.field "cors").field "origins" := by simp [originsOf, hd]
  constructor
  · rintro ⟨⟨fields, event, rfl, hr⟩, hi, rfl⟩
    exact ⟨⟨⟨fields, event, hd, hr⟩, ho ▸ hi⟩, by rw [ho]⟩
  · rintro ⟨⟨⟨fields, event, hf, hr⟩, hi⟩, rfl⟩
    exact ⟨⟨fields, event, Option.some.inj (hd.symm.trans hf), hr⟩, ho ▸ hi, by rw [ho]⟩

/-- An entry for this service has one event or one cause, unless it breaks. -/
theorem judged {entry : Json} (hd : (entryData? entry).isSome) (hb : ¬ Breaks entry) :
    (∃ event, accepted? entry = some event ∧ refused? entry = none) ∨
      ∃ cause, accepted? entry = none ∧ refused? entry = some cause := by
  obtain ⟨data, hd⟩ := Option.isSome_iff_exists.mp hd
  unfold accepted? refused?
  rw [hd, Option.map_some]
  cases hv : Event.ofConfig data with
  | ok event => exact Or.inl ⟨event, rfl, rfl⟩
  | error failure =>
      cases failure with
      | rejected cause => exact Or.inr ⟨cause, rfl, rfl⟩
      | unexpected fault => exact absurd ((ofConfig_unexpected_iff hd).mp hv).1 hb

theorem passed_over {entry : Json} (hd : entryData? entry = none) :
    accepted? entry = none ∧ refused? entry = none := by
  simp [accepted?, refused?, hd]

/-! ## All entries -/

/-- What entries amount to, each judged by itself and numbered from a position on. -/
def gathered (position : Nat) (entries : List Json) : Loaded where
  events := entries.filterMap accepted?
  rejected := (entries.zipIdx position).filterMap fun numbered =>
    (refused? numbered.1).map (numbered.2, ·)

theorem gathered_cons (position : Nat) (entry : Json) (rest : List Json) :
    gathered position (entry :: rest) =
      ⟨(accepted? entry).toList ++ (gathered (position + 1) rest).events,
        ((refused? entry).map (position, ·)).toList ++
          (gathered (position + 1) rest).rejected⟩ := by
  unfold gathered
  rw [List.zipIdx_cons]
  cases ha : accepted? entry <;> cases hr : refused? entry <;> simp [ha, hr]

theorem ofEntries_cons_of_breaks (position : Nat) {entry : Json} (rest : List Json)
    (h : Breaks entry) :
    ofEntries position (entry :: rest) = .error (.notIterable (originsOf entry).kind) := by
  obtain ⟨fields, event, hd, -⟩ := h.read
  have hv := (ofConfig_unexpected_iff hd).mpr ⟨h, rfl⟩
  simp [ofEntries, hd, hv]

theorem ofEntries_cons_of_not_breaks (position : Nat) {entry : Json} (rest : List Json)
    (h : ¬ Breaks entry) :
    ofEntries position (entry :: rest) =
      (ofEntries (position + 1) rest).map fun more =>
        ⟨(accepted? entry).toList ++ more.events,
          ((refused? entry).map (position, ·)).toList ++ more.rejected⟩ := by
  cases hd : entryData? entry with
  | none =>
      simp only [ofEntries, hd, accepted?, refused?, Option.map_none, Option.toList_none,
        List.nil_append]
      cases ofEntries (position + 1) rest <;> rfl
  | some data =>
      cases hv : Event.ofConfig data with
      | ok event => simp [ofEntries, hd, hv, accepted?, refused?]
      | error failure =>
          cases failure with
          | rejected cause => simp [ofEntries, hd, hv, accepted?, refused?]
          | unexpected fault => exact absurd ((ofConfig_unexpected_iff hd).mp hv).1 h

/-- Either no entry breaks and all are gathered, or the first one that does ends the loading. -/
theorem ofEntries_cases (position : Nat) (entries : List Json) :
    ((∀ entry ∈ entries, ¬ Breaks entry) ∧
      ofEntries position entries = .ok (gathered position entries)) ∨
    ∃ before entry after, entries = before ++ entry :: after ∧
      (∀ e ∈ before, ¬ Breaks e) ∧ Breaks entry ∧
      ofEntries position entries = .error (.notIterable (originsOf entry).kind) := by
  induction entries generalizing position with
  | nil => exact Or.inl ⟨by simp, rfl⟩
  | cons entry rest ih =>
      by_cases hb : Breaks entry
      · exact Or.inr ⟨[], entry, rest, rfl, by simp, hb, ofEntries_cons_of_breaks position rest hb⟩
      · rw [ofEntries_cons_of_not_breaks position rest hb]
        rcases ih (position + 1) with ⟨hall, he⟩ | ⟨before, found, after, rfl, hbefore, hf, he⟩
        · refine Or.inl ⟨by simpa [hb] using hall, ?_⟩
          rw [he, gathered_cons]
          rfl
        · refine Or.inr ⟨entry :: before, found, after, rfl, by simpa [hb] using hbefore, hf, ?_⟩
          rw [he]
          rfl

/-- Entries that are loaded are all gathered, and none of them breaks. -/
theorem eq_gathered {entries : List Json} {loaded : Loaded}
    (h : ofConfig (.arr entries) = .ok loaded) :
    (∀ entry ∈ entries, ¬ Breaks entry) ∧ loaded = gathered 0 entries := by
  have hc : ofConfig (.arr entries) = ofEntries 0 entries := rfl
  rw [hc] at h
  rcases ofEntries_cases 0 entries with ⟨hall, he⟩ | ⟨_, _, _, -, -, -, he⟩
  · rw [he] at h
    exact ⟨hall, (Except.ok.inj h).symm⟩
  · rw [he] at h
    cases h

/-- Entries of which none breaks are loaded. -/
theorem ofConfig_of_not_breaks {entries : List Json} (h : ∀ entry ∈ entries, ¬ Breaks entry) :
    ofConfig (.arr entries) = .ok (gathered 0 entries) := by
  have hc : ofConfig (.arr entries) = ofEntries 0 entries := rfl
  rw [hc]
  rcases ofEntries_cases 0 entries with ⟨-, he⟩ | ⟨before, entry, after, hs, -, hentry, -⟩
  · exact he
  · exact absurd hentry (h entry (by simp [hs]))

/-- What a loading returns: the event or the cause of every entry for this service, in the order of
the entries, with reports that carry the positions. -/
structure Accounted (entries : List Json) (loaded : Loaded) : Prop where
  events : loaded.events = entries.filterMap accepted?
  rejected : loaded.rejected = entries.zipIdx.filterMap fun numbered =>
    (refused? numbered.1).map (numbered.2, ·)
  ours : ∀ entry ∈ entries, (entryData? entry).isSome →
    (∃ event, accepted? entry = some event ∧ refused? entry = none) ∨
      ∃ cause, accepted? entry = none ∧ refused? entry = some cause
  others : ∀ entry ∈ entries, entryData? entry = none →
    accepted? entry = none ∧ refused? entry = none
  reports : ∀ refusal ∈ loaded.rejected,
    (rejectionReport refusal.1 refusal.2).field "index" = .int refusal.1

theorem accounted_gathered {entries : List Json} (h : ∀ entry ∈ entries, ¬ Breaks entry) :
    Accounted entries (gathered 0 entries) where
  events := rfl
  rejected := rfl
  ours := fun entry hm hd => judged hd (h entry hm)
  others := fun _ _ hd => passed_over hd
  reports := by
    rintro ⟨position, cause⟩ -
    rw [rejectionReport_eq]
    exact cause.clear.field_index position

/-- Entries are loaded, each one accounted for, exactly when none of them breaks; otherwise the
first one that does ends the loading with a fault. -/
theorem loads_iff_unbroken (entries : List Json) :
    ((∃ loaded, ofConfig (.arr entries) = .ok loaded) ↔ ∀ entry ∈ entries, ¬ Breaks entry) ∧
    (∀ loaded, ofConfig (.arr entries) = .ok loaded → Accounted entries loaded) ∧
    (∀ fault, ofConfig (.arr entries) = .error fault →
      ∃ before entry after, entries = before ++ entry :: after ∧
        (∀ e ∈ before, ¬ Breaks e) ∧ Breaks entry ∧
        fault = .notIterable (originsOf entry).kind) := by
  have hc : ofConfig (.arr entries) = ofEntries 0 entries := rfl
  rw [hc]
  rcases ofEntries_cases 0 entries with ⟨hall, he⟩ | ⟨before, entry, after, hs, hb, hentry, he⟩
  · rw [he]
    refine ⟨⟨fun _ => hall, fun _ => ⟨_, rfl⟩⟩, ?_, ?_⟩
    · intro loaded hl
      exact Except.ok.inj hl ▸ accounted_gathered hall
    · intro fault hf
      cases hf
  · rw [he]
    refine ⟨⟨?_, ?_⟩, ?_, ?_⟩
    · rintro ⟨loaded, hl⟩
      cases hl
    · intro hall
      exact absurd hentry (hall entry (by simp [hs]))
    · intro loaded hl
      cases hl
    · intro fault hf
      exact ⟨before, entry, after, hs, hb, hentry, (Except.error.inj hf).symm⟩

/-- An entry whose origins are a number, with a good one behind it. -/
def numberedOrigins : List Json :=
  [.obj [("dynamodb", .obj [("path", .str "users"), ("method", .str "get"),
      ("action", .str "GetItem"), ("tableName", .str "Users"),
      ("cors", .obj [("origins", .int 5)])])],
    .obj [("dynamodb", .obj [("path", .str "users"), ("method", .str "post"),
      ("action", .str "PutItem"), ("tableName", .str "Users")])]]

/-- The first of these entries ends the loading, so that the second one is lost as well. -/
theorem not_loads_numberedOrigins :
    ofConfig (.arr numberedOrigins) = .error (.notIterable "int") := by
  decide +kernel

end Loaded

end TableGateway
