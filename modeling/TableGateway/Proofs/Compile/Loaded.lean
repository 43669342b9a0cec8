import TableGateway.Proofs.Compile.Selection
import TableGateway.Proofs.Event.Accepted

/-! # Compiling what was loaded

A loaded event is only skipped because an ID is taken, unless its origins hold an item that is no
text. Such an event passes the loading and then fails with a fault wherever it is compiled. -/

namespace TableGateway.Compile

/-! ## Where errors come from -/

theorem settle_errors_cases (api : Api) (result : Result) (index : Int) (event : Event) :
    (settle api result index event).errors = result.errors ∨
      ∃ failure, Rejected api result.resources event failure ∧
        (settle api result index event).errors = result.errors ++ [⟨index, failure⟩] := by
  unfold settle
  rcases additions_cases api result.resources event with ⟨method, -, he⟩ | ⟨failure, hr, he⟩
  · rw [he]
    exact Or.inl rfl
  · rw [he]
    exact Or.inr ⟨failure, hr, rfl⟩

/-- Every error of a run was there before or comes from an event that was rejected. -/
theorem errors_settleAll {api : Api} {result : Result} {index : Int} {events : List Event}
    {skipped : Skipped} (h : skipped ∈ (settleAll api result index events).errors) :
    skipped ∈ result.errors ∨
      ∃ event ∈ events, ∃ resources, Rejected api resources event skipped.failure := by
  induction events generalizing result index with
  | nil => exact Or.inl h
  | cons event rest ih =>
      rcases ih h with hs | ⟨other, ho, hr⟩
      · rcases settle_errors_cases api result index event with he | ⟨failure, hr, he⟩
        · exact Or.inl (he ▸ hs)
        · rw [he, List.mem_append, List.mem_singleton] at hs
          rcases hs with hs | rfl
          · exact Or.inl hs
          · exact Or.inr ⟨event, by simp, _, hr⟩
      · exact Or.inr ⟨other, List.mem_cons_of_mem _ ho, hr⟩

/-- An event whose method fails is among the errors of every run, with this failure. -/
theorem exists_error_of_notMade {api : Api} (result : Result) (index : Int) {events : List Event}
    {event : Event} (he : event ∈ events) {failure : Failure}
    (hf : MethodResource.ofEvent api event = .error failure) :
    ∃ i, ⟨i, failure⟩ ∈ (settleAll api result index events).errors := by
  induction events generalizing result index with
  | nil => cases he
  | cons first rest ih =>
      rcases List.mem_cons.mp he with rfl | he
      · have hs : settle api result index event = withSkipped result index event failure := by
          simp [settle, additions, hf, bind, Except.bind]
        refine ⟨index, (errors_prefix_settleAll api _ _ rest).subset ?_⟩
        rw [hs]
        simp [withSkipped]
      · exact ih _ _ he

/-! ## Loaded events -/

section Loading

variable {entries : List Json} {loaded : Loaded} {api : Api}

theorem mem_loaded_iff (h : Loaded.ofConfig (.arr entries) = .ok loaded) {event : Event} :
    event ∈ loaded.events ↔ ∃ entry ∈ entries, Loaded.accepted? entry = some event := by
  rw [Loaded.events_eq h, List.mem_filterMap]

/-- A loaded event whose method fails does so for its origins, and the code is that of a fault. -/
theorem code_of_notMade {entry : Json} {event : Event} (ha : Loaded.accepted? entry = some event)
    {failure : Failure} (hf : MethodResource.ofEvent api event = .error failure) :
    ¬ (Loaded.originsOf entry).TextItems ∧ failure.report.code = "INTERNAL_ERROR" := by
  constructor
  · intro ht
    obtain ⟨method, hm⟩ := (Loaded.ofEvent_ok_iff_of_accepted ha api).mpr ht
    rw [hf] at hm
    cases hm
  · obtain ⟨i, kind, rfl⟩ := (Loaded.checked_of_accepted ha).ofEvent_error hf
    rfl

/-- An error on a loaded event is an ID that is taken, or a fault for the origins of its entry. -/
theorem code_of_error (h : Loaded.ofConfig (.arr entries) = .ok loaded) {given : ResourceMap}
    {skipped : Skipped}
    (hs : skipped ∈ (settleAll api { resources := given } 0 loaded.events).errors) :
    skipped.failure.report.code = "LOGICAL_ID_COLLISION" ∨
      skipped.failure.report.code = "INTERNAL_ERROR" ∧
        ∃ entry ∈ entries, (Loaded.accepted? entry).isSome ∧
          ¬ (Loaded.originsOf entry).TextItems := by
  obtain ⟨event, he, resources, hr⟩ := (errors_settleAll hs).resolve_left List.not_mem_nil
  obtain ⟨entry, hentry, ha⟩ := (mem_loaded_iff h).mp he
  rcases hr.notMade_or_taken with hf | ⟨-, hcode⟩
  · obtain ⟨ht, hcode⟩ := code_of_notMade ha hf
    exact Or.inr ⟨hcode, entry, hentry, Option.isSome_iff_exists.mpr ⟨event, ha⟩, ht⟩
  · exact Or.inl hcode

/-- A run of loaded events, on top of any map, has no other errors than IDs that are taken exactly
when the origins of all accepted entries, as far as they are lists, are lists of texts. Any other
error is a fault, and a method is made from all accepted entries but these. -/
theorem loaded_compiles_iff (h : Loaded.ofConfig (.arr entries) = .ok loaded) (api : Api)
    (given : ResourceMap) :
    ∃ result, (compile api false loaded.events given).outcome = .ok result ∧
      ((∀ skipped ∈ result.errors,
          skipped.toJson.field "errorCode" = .str "LOGICAL_ID_COLLISION") ↔
        ∀ entry ∈ entries, (Loaded.accepted? entry).isSome →
          (Loaded.originsOf entry).TextItems) ∧
      (∀ skipped ∈ result.errors,
        skipped.toJson.field "errorCode" = .str "LOGICAL_ID_COLLISION" ∨
          skipped.toJson.field "errorCode" = .str "INTERNAL_ERROR") ∧
      ∀ entry ∈ entries, ∀ event, Loaded.accepted? entry = some event →
        ((∃ method, MethodResource.ofEvent api event = .ok method) ↔
          (Loaded.originsOf entry).TextItems) := by
  refine ⟨_, compile_lenient api loaded.events given, ⟨?_, ?_⟩, ?_,
    fun entry _ event ha => Loaded.ofEvent_ok_iff_of_accepted ha api⟩
  · intro hcodes entry he ha
    obtain ⟨event, ha⟩ := Option.isSome_iff_exists.mp ha
    rw [← Loaded.ofEvent_ok_iff_of_accepted ha api]
    cases hm : MethodResource.ofEvent api event with
    | ok method => exact ⟨method, rfl⟩
    | error failure =>
        have hin : event ∈ loaded.events := (mem_loaded_iff h).mpr ⟨entry, he, ha⟩
        obtain ⟨i, hi⟩ := exists_error_of_notMade { resources := given } 0 hin hm
        have hcode := hcodes _ hi
        rw [Skipped.field_code, Json.str.injEq, (code_of_notMade ha hm).2] at hcode
        exact absurd hcode (by decide)
  · intro htexts skipped hs
    rw [Skipped.field_code]
    rcases code_of_error h hs with hcode | ⟨-, entry, he, ha, ht⟩
    · rw [hcode]
    · exact absurd (htexts entry he ha) ht
  · intro skipped hs
    rw [Skipped.field_code]
    rcases code_of_error h hs with hcode | ⟨hcode, -⟩
    · exact Or.inl (by rw [hcode])
    · exact Or.inr (by rw [hcode])

end Loading

/-- Two entries for one method, both of which allow two origins. -/
def listedTexts : List Json :=
  [.obj [("dynamodb", .obj [("path", .str "users"), ("method", .str "get"),
      ("action", .str "GetItem"), ("tableName", .str "Users"),
      ("cors", .obj [("origins", .arr [.str "https://a.example", .str "https://b.example"])])])],
    .obj [("dynamodb", .obj [("path", .str "/users/"), ("method", .str "GET"),
      ("action", .str "GetItem"), ("tableName", .str "Users"),
      ("cors", .obj [("origins", .arr [.str "https://a.example", .str "https://b.example"])])])]]

/-- Of the two only the second one is skipped, and for its ID. -/
theorem loaded_compiles_iff_listedTexts :
    ∃ loaded, Loaded.ofConfig (.arr listedTexts) = .ok loaded ∧ loaded.events.length = 2 ∧
      ∃ result, (compile Api.own false loaded.events []).outcome = .ok result ∧
        ∀ skipped ∈ result.errors,
          skipped.toJson.field "errorCode" = .str "LOGICAL_ID_COLLISION" := by
  have h : Loaded.ofConfig (.arr listedTexts) = .ok (Loaded.gathered 0 listedTexts) := by
    decide +kernel
  have hlength : (Loaded.gathered 0 listedTexts).events.length = 2 := by decide +kernel
  have htexts : ∀ entry ∈ listedTexts, (Loaded.accepted? entry).isSome →
      (Loaded.originsOf entry).TextItems := by
    intro entry he _
    have ho : Loaded.originsOf entry =
        .arr [.str "https://a.example", .str "https://b.example"] := by
      rcases List.mem_cons.mp he with rfl | he
      · rfl
      · obtain rfl := List.mem_singleton.mp he
        rfl
    rw [ho]
    simp [Json.TextItems]
  obtain ⟨result, hr, hiff, -, -⟩ := loaded_compiles_iff h Api.own []
  exact ⟨_, h, hlength, result, hr, hiff.mpr htexts⟩

/-- An entry whose origins list a number. -/
def listedNumber : List Json :=
  [.obj [("dynamodb", .obj [("path", .str "users"), ("method", .str "get"),
    ("action", .str "GetItem"), ("tableName", .str "Users"),
    ("cors", .obj [("origins", .arr [.int 5])])])]]

/-- The entry is loaded as an event, and compiling the event fails with a fault. -/
theorem not_compiles_listedNumber :
    ∃ loaded event result, Loaded.ofConfig (.arr listedNumber) = .ok loaded ∧
      loaded.events = [event] ∧ (compile Api.own false loaded.events []).outcome = .ok result ∧
      result.errors = [⟨0, .unexpected (.itemNotText 0 "int")⟩] ∧
      ∃ skipped ∈ result.errors, skipped.toJson.field "errorCode" = .str "INTERNAL_ERROR" := by
  have hload : Loaded.ofConfig (.arr listedNumber) = .ok (Loaded.gathered 0 listedNumber) := by
    decide +kernel
  have hevents : ∃ event, (Loaded.gathered 0 listedNumber).events = [event] :=
    List.length_eq_one_iff.mp (by decide +kernel)
  have herrors : (settleAll Api.own { resources := [] } 0
      (Loaded.gathered 0 listedNumber).events).errors =
        [⟨0, .unexpected (.itemNotText 0 "int")⟩] := by
    decide +kernel
  obtain ⟨event, he⟩ := hevents
  refine ⟨_, event, _, hload, he, compile_lenient _ _ _, herrors, ?_⟩
  rw [herrors]
  exact ⟨_, List.mem_singleton_self _, Skipped.field_code _⟩

end TableGateway.Compile
