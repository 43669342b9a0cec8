import TableGateway.Proofs.Event.Accepted

/-! # Malformed entries

The rules of a configuration ask for one report on each element that is no object, and on each entry
for this service whose blocks or overrides do not have their shape. The loader reports such entries,
and the rest loads as if they were not there. But it passes over the elements that are no objects,
and it looks at the shape of an override only when the override counts as given. -/

namespace TableGateway

/-- Whether a value can stand for a block: an object, or null for a missing one. -/
def Json.IsBlock : Json → Prop
  | null | obj _ => True
  | _ => False

/-- Whether a value can stand for an override: text, an object, or null for a missing one. -/
def Json.IsOverride : Json → Prop
  | null | str _ | obj _ => True
  | _ => False

/-- Whether a value passes for an override: it can stand for one, if it counts as given. -/
def Json.PassesForOverride (value : Json) : Prop := value.truthy = true → value.IsOverride

namespace Event

/-! ## Shapes -/

/-- The blocks of an entry. -/
def blockNames : List Text := ["auth", "request", "response"]

/-- Whether some block of an entry, or some part of one, does not have its shape, where `fits` says
which values can stand for an override. -/
inductive Misshapen (fits : Json → Prop) (fields : List (Text × Json)) : Prop
  | block {name : Text} (hname : name ∈ blockNames)
      (hshape : ¬ (Json.field (.obj fields) name).IsBlock)
  | requestTemplate
      (hshape : ¬ ((Json.field (.obj fields) "request").field "template").IsBlock)
  | responseTemplate
      (hshape : ¬ ((Json.field (.obj fields) "response").field "template").IsBlock)
  | override {overrides : List (Text × Json)} {outcome : Text} {template : Json}
      (hfield : (Json.field (.obj fields) "response").field "template" = .obj overrides)
      (hmem : (outcome, template) ∈ overrides) (hshape : ¬ fits template)

def withoutBlocks (fields : List (Text × Json)) : List (Text × Json) :=
  fields.filter fun field => !blockNames.contains field.1

/-- Whether an entry is valid but for the shape of its blocks: without them it would be accepted,
and so would be the scopes of its authorization. -/
structure OtherwiseValid (fields : List (Text × Json)) : Prop where
  rest : ∃ event, ofConfig (.obj (withoutBlocks fields)) = .ok event
  scopes : ∃ scopes, Auth.scopesOfConfig
    ((Json.field (.obj fields) "auth").field "authorizationScopes") = .ok scopes

theorem blockFields_ok_iff {data : Json} {block : Text} :
    (∃ fields, blockFields data block = .ok fields) ↔ data.IsBlock := by
  cases data <;> simp [blockFields, Json.IsBlock]

theorem isTemplate_iff {value : Json} : isTemplate value = true ↔ value.PassesForOverride := by
  cases value <;> simp [isTemplate, Json.PassesForOverride, Json.IsOverride, Json.truthy]

theorem auth_ok_iff {value : Json} :
    (∃ auth, Auth.ofConfig value = .ok auth) ↔ value.IsBlock ∧
      ∃ scopes, Auth.scopesOfConfig (value.field "authorizationScopes") = .ok scopes := by
  simp only [Auth.ofConfig, Auth.ofFields, bind_eq_ok, map_eq_ok]
  constructor
  · rintro ⟨_, fields, hf, scopes, hs, -⟩
    rw [← field_of_blockFields hf] at hs
    exact ⟨blockFields_ok_iff.mp ⟨fields, hf⟩, scopes, hs⟩
  · rintro ⟨hb, scopes, hs⟩
    obtain ⟨fields, hf⟩ := blockFields_ok_iff.mpr hb
    rw [field_of_blockFields hf] at hs
    exact ⟨_, fields, hf, scopes, hs, rfl⟩

/-- The overrides that are read are those of an object or none, and each of them passes. -/
theorem responseOverrides_ok_iff {value : Json} :
    (∃ read, responseOverrides value = .ok read) ↔ value.IsBlock ∧
      ∀ overrides, value = .obj overrides → ∀ entry ∈ overrides, entry.2.PassesForOverride := by
  simp only [responseOverrides, bind_eq_ok, pure_eq_ok]
  constructor
  · rintro ⟨_, fields, hf, ⟨⟩, hc, -⟩
    refine ⟨blockFields_ok_iff.mp ⟨fields, hf⟩, ?_⟩
    rintro overrides rfl entry hm
    obtain rfl := Except.ok.inj hf
    exact isTemplate_iff.mp (checkTemplates_ok_iff.mp hc entry hm)
  · rintro ⟨hb, hshapes⟩
    obtain ⟨fields, hf⟩ := blockFields_ok_iff.mpr hb
    refine ⟨_, fields, hf, (), checkTemplates_ok_iff.mpr ?_, rfl⟩
    intro entry hm
    cases value with
    | obj overrides =>
        obtain rfl := Except.ok.inj hf
        exact isTemplate_iff.mpr (hshapes overrides rfl entry hm)
    | null =>
        obtain rfl := Except.ok.inj hf
        cases hm
    | bool b | int n | float x | str s | arr items => cases hf

theorem not_misshapen_iff {fits : Json → Prop} {fields : List (Text × Json)} :
    ¬ Misshapen fits fields ↔
      (∀ name ∈ blockNames, (Json.field (.obj fields) name).IsBlock) ∧
      ((Json.field (.obj fields) "request").field "template").IsBlock ∧
      ((Json.field (.obj fields) "response").field "template").IsBlock ∧
      ∀ overrides, (Json.field (.obj fields) "response").field "template" = .obj overrides →
        ∀ entry ∈ overrides, fits entry.2 := by
  constructor
  · intro h
    refine ⟨?_, ?_, ?_, ?_⟩
    · intro name hname
      by_contra hshape
      exact h (.block hname hshape)
    · by_contra hshape
      exact h (.requestTemplate hshape)
    · by_contra hshape
      exact h (.responseTemplate hshape)
    · intro overrides hfield entry hmem
      by_contra hshape
      exact h (.override hfield hmem hshape)
  · rintro ⟨hblocks, hrequest, hresponse, hshapes⟩ h
    cases h with
    | block hname hshape => exact hshape (hblocks _ hname)
    | requestTemplate hshape => exact hshape hrequest
    | responseTemplate hshape => exact hshape hresponse
    | override hfield hmem hshape => exact hshape (hshapes _ hfield _ hmem)

/-- What is read is not misshapen. -/
theorem not_misshapen_of_ofFields {fields : List (Text × Json)} {event : Event}
    (h : ofFields fields = .ok event) : ¬ Misshapen Json.PassesForOverride fields := by
  simp only [ofFields, bind_eq_ok] at h
  obtain ⟨-, -, method, -, path, -, request, hrequest, response, hresponse, templates, htemplates,
    action, -, hash, -, range, -, auth, hauth, overrides, hoverrides, -⟩ := h
  -- What is read of a block is the same for a missing one and for one without fields.
  rw [← field_of_blockFields hrequest] at htemplates
  rw [← field_of_blockFields hresponse] at hoverrides
  obtain ⟨hblock, hshapes⟩ := responseOverrides_ok_iff.mp ⟨_, hoverrides⟩
  refine not_misshapen_iff.mpr ⟨?_, blockFields_ok_iff.mp ⟨_, htemplates⟩, hblock, hshapes⟩
  intro name hname
  simp only [blockNames, List.mem_cons, List.not_mem_nil, or_false] at hname
  rcases hname with rfl | rfl | rfl
  · exact (auth_ok_iff.mp ⟨_, hauth⟩).1
  · exact blockFields_ok_iff.mp ⟨_, hrequest⟩
  · exact blockFields_ok_iff.mp ⟨_, hresponse⟩

/-! ## Entries without their blocks -/

theorem field_withoutBlocks {name : Text} (h : name ∉ blockNames) (fields : List (Text × Json)) :
    Json.field (.obj (withoutBlocks fields)) name = Json.field (.obj fields) name := by
  have hkeep : (!blockNames.contains name) = true := by simpa using h
  simp only [Json.field, withoutBlocks]
  rw [Entries.get?_filter (fun name => !blockNames.contains name) hkeep]

theorem checkRequired_withoutBlocks (fields : List (Text × Json)) :
    checkRequired (.obj (withoutBlocks fields)) = checkRequired (.obj fields) := by
  have hmissing : requiredFields.filter (fun name =>
        !(Json.field (.obj (withoutBlocks fields)) name).truthy) =
      requiredFields.filter fun name => !(Json.field (.obj fields) name).truthy := by
    apply List.filter_congr
    intro name hname
    have hb : name ∉ blockNames := by
      revert name
      decide
    rw [field_withoutBlocks hb]
  simp only [checkRequired, hmissing]

/-- What reading an entry checks outside of its blocks. -/
structure Outlined (fields : List (Text × Json)) : Prop where
  required : checkRequired (.obj fields) = .ok ()
  method : ∃ method, methodOfConfig (Json.field (.obj fields) "method") = .ok method
  path : ∃ path, pathOfConfig (Json.field (.obj fields) "path") = .ok path
  action : ∃ action, Action.ofConfig (Json.field (.obj fields) "action") = .ok action
  hashKey : ∃ key, keyOfConfig (Json.field (.obj fields) "hashKey") = .ok key
  rangeKey : ∃ key, keyOfConfig (Json.field (.obj fields) "rangeKey") = .ok key
  cors : ∃ cors, Cors.ofConfig (Json.field (.obj fields) "cors") = .ok cors

theorem outlined_of_ofConfig {fields : List (Text × Json)} {event : Event}
    (h : ofConfig (.obj fields) = .ok event) : Outlined fields := by
  simp only [ofConfig, bind_eq_ok, mapError_eq_ok] at h
  obtain ⟨read, hread, found, hfound, cors, hcors, -⟩ := h
  obtain rfl := Except.ok.inj hread
  simp only [ofFields, bind_eq_ok] at hfound
  obtain ⟨⟨⟩, hrequired, method, hmethod, path, hpath, -, -, -, -, -, -, action, haction, hash,
    hhash, range, hrange, -⟩ := hfound
  exact ⟨hrequired, ⟨method, hmethod⟩, ⟨path, hpath⟩, ⟨action, haction⟩, ⟨hash, hhash⟩,
    ⟨range, hrange⟩, ⟨cors, hcors⟩⟩

/-- None of what is checked outside of the blocks is one of them. -/
theorem OtherwiseValid.outlined {fields : List (Text × Json)} (h : OtherwiseValid fields) :
    Outlined fields := by
  obtain ⟨event, he⟩ := h.rest
  obtain ⟨hrequired, hmethod, hpath, haction, hhash, hrange, hcors⟩ := outlined_of_ofConfig he
  rw [checkRequired_withoutBlocks] at hrequired
  rw [field_withoutBlocks (by decide)] at hmethod hpath haction hhash hrange hcors
  exact ⟨hrequired, hmethod, hpath, haction, hhash, hrange, hcors⟩

/-- An otherwise valid entry that is not misshapen is accepted. -/
theorem OtherwiseValid.accepted {fields : List (Text × Json)} (h : OtherwiseValid fields)
    (hm : ¬ Misshapen Json.PassesForOverride fields) :
    ∃ event, ofConfig (.obj fields) = .ok event := by
  obtain ⟨hrequired, ⟨method, hmethod⟩, ⟨path, hpath⟩, ⟨action, haction⟩, ⟨hash, hhash⟩,
    ⟨range, hrange⟩, ⟨cors, hcors⟩⟩ := h.outlined
  obtain ⟨hblocks, htemplates, hblock, hshapes⟩ := not_misshapen_iff.mp hm
  obtain ⟨auth, hauth⟩ := auth_ok_iff.mpr ⟨hblocks "auth" (by decide), h.scopes⟩
  obtain ⟨request, hrequest⟩ := blockFields_ok_iff.mpr (hblocks "request" (by decide))
  obtain ⟨response, hresponse⟩ := blockFields_ok_iff.mpr (hblocks "response" (by decide))
  obtain ⟨templates, htemplates⟩ := blockFields_ok_iff.mpr htemplates
  obtain ⟨overrides, hoverrides⟩ := responseOverrides_ok_iff.mpr ⟨hblock, hshapes⟩
  rw [field_of_blockFields hrequest] at htemplates
  rw [field_of_blockFields hresponse] at hoverrides
  have hread : ∃ event, ofFields fields = .ok event := by
    simp only [ofFields, bind_eq_ok, pure_eq_ok]
    exact ⟨_, (), hrequired, method, hmethod, path, hpath, request, hrequest, response, hresponse,
      templates, htemplates, action, haction, hash, hhash, range, hrange, auth, hauth, overrides,
      hoverrides, rfl⟩
  obtain ⟨event, hevent⟩ := hread
  simp only [ofConfig, bind_eq_ok, mapError_eq_ok, pure_eq_ok]
  exact ⟨_, fields, rfl, event, hevent, cors, hcors, rfl⟩

/-! ## Codes of refusals -/

section Codes

variable {α β : Type}

/-- Whether all that a step refuses is refused as an invalid event. -/
def RefusesInvalid (step : Except EventError α) : Prop :=
  ∀ cause, step = .error cause → cause.code = "INVALID_EVENT"

theorem refusesInvalid_ok (a : α) : RefusesInvalid (.ok a) := nofun

theorem refusesInvalid_error {cause : EventError} (h : cause.code = "INVALID_EVENT") :
    RefusesInvalid (.error cause : Except EventError α) := by
  rintro _ ⟨⟩
  exact h

theorem RefusesInvalid.bind {step : Except EventError α} {next : α → Except EventError β}
    (h : RefusesInvalid step) (hnext : ∀ a, RefusesInvalid (next a)) :
    RefusesInvalid (step >>= next) := by
  intro cause hc
  rcases bind_eq_error.mp hc with hs | ⟨a, -, ha⟩
  · exact h cause hs
  · exact hnext a cause ha

theorem RefusesInvalid.map {step : Except EventError α} (h : RefusesInvalid step) (f : α → β) :
    RefusesInvalid (step.map f) := by
  cases step with
  | ok a => exact refusesInvalid_ok (f a)
  | error cause => exact refusesInvalid_error (h cause rfl)

end Codes

theorem refusesInvalid_blockFields (data : Json) (block : Text) :
    RefusesInvalid (blockFields data block) := by
  cases data with
  | null | obj given => exact refusesInvalid_ok _
  | bool b | int n | float x | str s | arr items => exact refusesInvalid_error rfl

theorem refusesInvalid_checkRequired (data : Json) : RefusesInvalid (checkRequired data) := by
  unfold checkRequired
  dsimp only
  split
  · exact refusesInvalid_ok _
  · exact refusesInvalid_error rfl

theorem refusesInvalid_methodOfConfig (value : Json) : RefusesInvalid (methodOfConfig value) := by
  unfold methodOfConfig
  dsimp only
  split
  · exact refusesInvalid_ok _
  · exact refusesInvalid_error rfl

theorem refusesInvalid_pathOfConfig (value : Json) : RefusesInvalid (pathOfConfig value) := by
  cases value with
  | str s => exact refusesInvalid_ok _
  | null | bool b | int n | float x | arr items | obj fields => exact refusesInvalid_error rfl

theorem refusesInvalid_keyOfConfig (value : Json) : RefusesInvalid (keyOfConfig value) := by
  unfold keyOfConfig
  split
  · apply RefusesInvalid.map
    cases value with
    | obj fields =>
        unfold KeySource.ofConfig
        dsimp only
        split
        · exact refusesInvalid_ok _
        · exact refusesInvalid_error rfl
    | null | bool b | int n | float x | str s | arr items => exact refusesInvalid_error rfl
  · exact refusesInvalid_ok _

theorem refusesInvalid_auth (value : Json) : RefusesInvalid (Auth.ofConfig value) := by
  refine (refusesInvalid_blockFields value "auth").bind fun fields => ?_
  apply RefusesInvalid.map
  unfold Auth.scopesOfConfig
  split
  · split
    · exact refusesInvalid_ok _
    · exact refusesInvalid_error rfl
  · exact refusesInvalid_ok _

theorem refusesInvalid_responseOverrides (value : Json) :
    RefusesInvalid (responseOverrides value) := by
  refine (refusesInvalid_blockFields value "response.template").bind fun fields => ?_
  refine RefusesInvalid.bind ?_ fun _ => refusesInvalid_ok _
  unfold checkTemplates
  split
  · exact refusesInvalid_ok _
  · exact refusesInvalid_error rfl

/-- Of all that reading an entry checks only its action is refused with another code. -/
theorem refusesInvalid_ofFields {fields : List (Text × Json)} {action : Action}
    (h : Action.ofConfig (Json.field (.obj fields) "action") = .ok action) :
    RefusesInvalid (ofFields fields) := by
  unfold ofFields
  refine (refusesInvalid_checkRequired _).bind fun _ => ?_
  refine (refusesInvalid_methodOfConfig _).bind fun method => ?_
  refine (refusesInvalid_pathOfConfig _).bind fun path => ?_
  refine (refusesInvalid_blockFields _ "request").bind fun request => ?_
  refine (refusesInvalid_blockFields _ "response").bind fun response => ?_
  refine (refusesInvalid_blockFields _ "request.template").bind fun templates => ?_
  rw [h]
  refine (refusesInvalid_ok action).bind fun action => ?_
  refine (refusesInvalid_keyOfConfig _).bind fun hashKey => ?_
  refine (refusesInvalid_keyOfConfig _).bind fun rangeKey => ?_
  refine (refusesInvalid_auth _).bind fun auth => ?_
  exact (refusesInvalid_responseOverrides _).bind fun overrides => refusesInvalid_ok _

/-- A misshapen entry that is otherwise valid is refused as an invalid event. -/
theorem ofConfig_of_misshapen {fields : List (Text × Json)} (hv : OtherwiseValid fields)
    (hm : Misshapen Json.PassesForOverride fields) :
    ∃ cause, ofConfig (.obj fields) = .error (.rejected cause) ∧ cause.code = "INVALID_EVENT" := by
  obtain ⟨action, ha⟩ := hv.outlined.action
  cases hf : ofFields fields with
  | ok event => exact absurd hm (not_misshapen_of_ofFields hf)
  | error cause =>
      refine ⟨cause, ?_, refusesInvalid_ofFields ha cause hf⟩
      simp [ofConfig, blockFields, hf, bind, Except.bind, Except.mapError]

end Event

namespace Loaded

/-! ## Malformed entries in a configuration -/

/-- Whether an entry for this service is malformed: it is no block, or it is misshapen and otherwise
valid, where `fits` says which values can stand for an override. -/
inductive Malformed (fits : Json → Prop) (entry : Json) : Prop
  | noBlock {data : Json} (hdata : entryData? entry = some data) (hshape : ¬ data.IsBlock)
  | misshapen {fields : List (Text × Json)} (hdata : entryData? entry = some (.obj fields))
      (hvalid : Event.OtherwiseValid fields) (hshape : Event.Misshapen fits fields)

/-- Whether an element is one that the rules ask to report: it is no object, or it is malformed. -/
def Irregular (entry : Json) : Prop :=
  (∀ fields, entry ≠ .obj fields) ∨ Malformed Json.IsOverride entry

theorem Malformed.refused {entry : Json} (h : Malformed Json.PassesForOverride entry) :
    ∃ cause, refused? entry = some cause ∧ accepted? entry = none ∧
      cause.code = "INVALID_EVENT" := by
  obtain ⟨data, hdata, cause, hcause, hcode⟩ : ∃ data, entryData? entry = some data ∧
      ∃ cause, Event.ofConfig data = .error (.rejected cause) ∧ cause.code = "INVALID_EVENT" := by
    cases h with
    | @noBlock data hdata hshape =>
        refine ⟨data, hdata, ?_⟩
        cases data with
        | null | obj given => exact absurd trivial hshape
        | bool b | int n | float x | str s | arr items => exact ⟨_, rfl, rfl⟩
    | misshapen hdata hvalid hshape =>
        exact ⟨_, hdata, Event.ofConfig_of_misshapen hvalid hshape⟩
  refine ⟨cause, ?_, ?_, hcode⟩
  · simp [refused?, hdata, hcause]
  · simp [accepted?, hdata, hcause]

theorem entryData?_of_not_obj {entry : Json} (h : ∀ fields, entry ≠ .obj fields) :
    entryData? entry = none := by
  cases entry with
  | obj fields => exact absurd rfl (h fields)
  | null | bool b | int n | float x | str s | arr items => rfl

/-- An irregular element that the loader does not find malformed has no cause. -/
theorem Irregular.not_refused {entry : Json} (h : Irregular entry)
    (hm : ¬ Malformed Json.PassesForOverride entry) : refused? entry = none := by
  rcases h with hobj | ⟨hdata, hshape⟩ | ⟨hdata, hvalid, hshape⟩
  · exact (passed_over (entryData?_of_not_obj hobj)).2
  · exact absurd (.noBlock hdata hshape) hm
  · have hread := hvalid.accepted fun hmisshapen => hm (.misshapen hdata hvalid hmisshapen)
    obtain ⟨event, he⟩ := hread
    simp [refused?, hdata, he]

/-! ## Reports by position -/

theorem le_of_mem_rejected {position : Nat} {entries : List Json} {refusal : Nat × EventError}
    (h : refusal ∈ (gathered position entries).rejected) : position ≤ refusal.1 := by
  obtain ⟨⟨entry, i⟩, hm, hr⟩ := List.mem_filterMap.mp h
  obtain ⟨cause, -, rfl⟩ := Option.map_eq_some_iff.mp hr
  exact (List.mem_zipIdx hm).1

/-- The reports on one position are what is refused of the entry there. -/
theorem rejected_at (position i : Nat) (entries : List Json) :
    (gathered position entries).rejected.filter (·.1 = position + i) =
      ((entries[i]?.bind refused?).map (position + i, ·)).toList := by
  induction entries generalizing position i with
  | nil => rfl
  | cons entry rest ih =>
      rw [gathered_cons]
      cases i with
      | zero =>
          -- The reports of the rest are all on later positions.
          have hrest :
              (gathered (position + 1) rest).rejected.filter (·.1 = position + 0) = [] := by
            rw [List.filter_eq_nil_iff]
            intro refusal hm
            have := le_of_mem_rejected hm
            simp only [decide_eq_true_eq]
            omega
          rw [List.filter_append, hrest]
          cases hr : refused? entry <;> simp [hr]
      | succ i =>
          have hentry : ((refused? entry).map (position, ·)).toList.filter
              (·.1 = position + (i + 1)) = [] := by
            cases refused? entry <;> simp
          have hposition : position + (i + 1) = position + 1 + i := by omega
          rw [List.filter_append, hentry, List.nil_append, hposition, ih]
          rfl

/-- Dropping entries without an event does not change the events. -/
theorem events_filter {entries : List Json} {keep : Json → Bool}
    (h : ∀ entry ∈ entries, keep entry = false → accepted? entry = none) :
    (entries.filter keep).filterMap accepted? = entries.filterMap accepted? := by
  rw [List.filterMap_filter]
  apply List.filterMap_congr
  intro entry hm
  cases hk : keep entry with
  | true => rfl
  | false => simp [h entry hm hk]

/-- Whether there is one report on a position, which shows the position and that the event is
invalid. -/
def ReportedAt (loaded : Loaded) (i : Nat) : Prop :=
  ∃ cause, loaded.rejected.filter (·.1 = i) = [(i, cause)] ∧
    (rejectionReport i cause).field "index" = .int i ∧
    (rejectionReport i cause).field "errorCode" = .str "INVALID_EVENT"

theorem reportedAt_gathered {entries : List Json} {i : Nat} {entry : Json}
    (hi : entries[i]? = some entry) (h : Malformed Json.PassesForOverride entry) :
    ReportedAt (gathered 0 entries) i := by
  obtain ⟨cause, hr, -, hcode⟩ := h.refused
  refine ⟨cause, ?_, ?_, ?_⟩
  · simpa [hi, hr] using rejected_at 0 i entries
  · rw [rejectionReport_eq]
    exact cause.clear.field_index i
  · rw [rejectionReport_eq, cause.clear.field_code]
    exact congrArg Json.str hcode

theorem not_reported_of_not_refused {entries : List Json} {i : Nat} {entry : Json}
    (hi : entries[i]? = some entry) (h : refused? entry = none) :
    (gathered 0 entries).rejected.filter (·.1 = i) = [] := by
  simpa [hi, h] using rejected_at 0 i entries

/-- Of the irregular elements exactly those that the loader finds malformed are reported. -/
theorem Irregular.reportedAt_iff {entry : Json} (h : Irregular entry) {entries : List Json}
    {i : Nat} (hi : entries[i]? = some entry) :
    ReportedAt (gathered 0 entries) i ↔ Malformed Json.PassesForOverride entry := by
  refine ⟨?_, reportedAt_gathered hi⟩
  rintro ⟨cause, hreport, -⟩
  by_contra hm
  rw [not_reported_of_not_refused hi (h.not_refused hm)] at hreport
  cases hreport

theorem exists_rest_gathered {entries : List Json} (hunbroken : ∀ entry ∈ entries, ¬ Breaks entry)
    {keep : Json → Bool} (h : ∀ entry ∈ entries, keep entry = false →
      Malformed Json.PassesForOverride entry ∨ ∀ fields, entry ≠ .obj fields) :
    ∃ rest, ofConfig (.arr (entries.filter keep)) = .ok rest ∧
      rest.events = (gathered 0 entries).events := by
  have hrest : ∀ entry ∈ entries.filter keep, ¬ Breaks entry :=
    fun entry hm => hunbroken entry (List.mem_of_mem_filter hm)
  refine ⟨_, ofConfig_of_not_breaks hrest, events_filter ?_⟩
  intro entry hm hk
  rcases h entry hm hk with hmalformed | hobj
  · obtain ⟨-, -, hnone, -⟩ := hmalformed.refused
    exact hnone
  · exact (passed_over (entryData?_of_not_obj hobj)).1

/-- The rules of a configuration: every irregular element has its report, and without these elements
the others load to the same events. -/
structure RulesKept (entries : List Json) (loaded : Loaded) : Prop where
  reports : ∀ (i : Nat) entry, entries[i]? = some entry → Irregular entry → ReportedAt loaded i
  rest : ∀ keep : Json → Bool, (∀ entry ∈ entries, keep entry = false ↔ Irregular entry) →
    ∃ rest, ofConfig (.arr (entries.filter keep)) = .ok rest ∧ rest.events = loaded.events

/-- Whatever loads, the rules are kept exactly when all elements are objects and no entry is
malformed only through overrides that do not count as given. Of the irregular elements those that
the loader finds malformed have their report at their position, and the others have none. Without
the malformed entries and the elements that are no objects, the rest loads to the same events. -/
theorem rulesKept_iff {entries : List Json} {loaded : Loaded}
    (h : ofConfig (.arr entries) = .ok loaded) :
    (RulesKept entries loaded ↔ ∀ entry ∈ entries, (∃ fields, entry = .obj fields) ∧
      (Malformed Json.IsOverride entry → Malformed Json.PassesForOverride entry)) ∧
    (∀ (i : Nat) entry, entries[i]? = some entry →
      Malformed Json.PassesForOverride entry → ReportedAt loaded i) ∧
    (∀ (i : Nat) entry, entries[i]? = some entry → Irregular entry →
      ¬ Malformed Json.PassesForOverride entry → loaded.rejected.filter (·.1 = i) = []) ∧
    ∀ keep : Json → Bool, (∀ entry ∈ entries, keep entry = false →
        Malformed Json.PassesForOverride entry ∨ ∀ fields, entry ≠ .obj fields) →
      ∃ rest, ofConfig (.arr (entries.filter keep)) = .ok rest ∧ rest.events = loaded.events := by
  obtain ⟨hunbroken, rfl⟩ := eq_gathered h
  refine ⟨⟨?_, ?_⟩, fun _ _ => reportedAt_gathered,
    fun _ _ hi hirregular hm => not_reported_of_not_refused hi (hirregular.not_refused hm),
    fun _ => exists_rest_gathered hunbroken⟩
  · intro hkept entry hmem
    obtain ⟨i, hi⟩ := List.mem_iff_getElem?.mp hmem
    have hfound : Irregular entry → Malformed Json.PassesForOverride entry :=
      fun hirregular => (hirregular.reportedAt_iff hi).mp (hkept.reports i entry hi hirregular)
    refine ⟨?_, fun hm => hfound (Or.inr hm)⟩
    by_contra hobj
    have hno : ∀ fields, entry ≠ .obj fields := not_exists.mp hobj
    obtain ⟨cause, hcause, -⟩ := (hfound (Or.inl hno)).refused
    rw [(passed_over (entryData?_of_not_obj hno)).2] at hcause
    cases hcause
  · intro hall
    have hfound : ∀ entry ∈ entries, Irregular entry → Malformed Json.PassesForOverride entry := by
      intro entry hmem hirregular
      obtain ⟨⟨fields, rfl⟩, hmalformed⟩ := hall entry hmem
      exact hmalformed (hirregular.resolve_left fun hno => hno fields rfl)
    refine ⟨?_, ?_⟩
    · intro i entry hi hirregular
      exact reportedAt_gathered hi (hfound entry (List.mem_of_getElem? hi) hirregular)
    · intro keep hkeep
      apply exists_rest_gathered hunbroken
      intro entry hmem hk
      exact Or.inl (hfound entry hmem ((hkeep entry hmem).mp hk))

/-- The fields of a valid entry. -/
def readUsers : List (Text × Json) :=
  [("path", .str "users"), ("method", .str "get"), ("action", .str "GetItem"),
    ("tableName", .str "Users")]

/-- An entry that is no object, one whose authorization is false, and a valid entry. -/
def oddEntries : List Json :=
  [.obj [("dynamodb", .str "oops")], .obj [("dynamodb", .obj (("auth", .bool false) :: readUsers))],
    .obj [("dynamodb", .obj readUsers)]]

theorem not_irregular_readUsers : ¬ Irregular (.obj [("dynamodb", .obj readUsers)]) := by
  rintro (hobj | ⟨hdata, hshape⟩ | ⟨hdata, -, hshape⟩)
  · exact hobj _ rfl
  · obtain rfl := Option.some.inj hdata
    exact hshape trivial
  · obtain rfl := Json.obj.inj (Option.some.inj hdata)
    have hblocks : ∀ name ∈ Event.blockNames, (Json.field (.obj readUsers) name).IsBlock := by
      intro name hname
      simp only [Event.blockNames, List.mem_cons, List.not_mem_nil, or_false] at hname
      rcases hname with rfl | rfl | rfl <;> trivial
    refine Event.not_misshapen_iff.mpr ⟨hblocks, trivial, trivial, ?_⟩ hshape
    intro overrides hfield
    cases hfield

/-- The rules are kept here: the first two entries are reported, and the third one alone loads to
the same event. -/
theorem rulesKept_oddEntries :
    ∃ loaded, ofConfig (.arr oddEntries) = .ok loaded ∧ RulesKept oddEntries loaded ∧
      ReportedAt loaded 0 ∧ ReportedAt loaded 1 ∧
      ∃ rest, ofConfig (.arr [.obj [("dynamodb", .obj readUsers)]]) = .ok rest ∧
        rest.events = loaded.events ∧ rest.events.length = 1 := by
  have hload : ofConfig (.arr oddEntries) = .ok (gathered 0 oddEntries) := by decide +kernel
  have hnoBlock (fits : Json → Prop) : Malformed fits (.obj [("dynamodb", .str "oops")]) :=
    .noBlock rfl id
  have hmisshapen (fits : Json → Prop) :
      Malformed fits (.obj [("dynamodb", .obj (("auth", .bool false) :: readUsers))]) :=
    .misshapen rfl ⟨⟨_, rfl⟩, _, rfl⟩ (@Event.Misshapen.block _ _ "auth" (by decide) id)
  have hrules : ∀ entry ∈ oddEntries, (∃ fields, entry = .obj fields) ∧
      (Malformed Json.IsOverride entry → Malformed Json.PassesForOverride entry) := by
    intro entry hm
    simp only [oddEntries, List.mem_cons, List.not_mem_nil, or_false] at hm
    rcases hm with rfl | rfl | rfl
    · exact ⟨⟨_, rfl⟩, fun _ => hnoBlock _⟩
    · exact ⟨⟨_, rfl⟩, fun _ => hmisshapen _⟩
    · exact ⟨⟨_, rfl⟩, fun h => absurd (Or.inr h) not_irregular_readUsers⟩
  have hdropped : ∀ entry ∈ oddEntries,
      decide (entry = .obj [("dynamodb", .obj readUsers)]) = false →
        Malformed Json.PassesForOverride entry ∨ ∀ fields, entry ≠ .obj fields := by
    intro entry hm hk
    simp only [oddEntries, List.mem_cons, List.not_mem_nil, or_false] at hm
    rcases hm with rfl | rfl | rfl
    · exact Or.inl (hnoBlock _)
    · exact Or.inl (hmisshapen _)
    · simp at hk
  obtain ⟨hiff, hreports, -, hrest⟩ := rulesKept_iff hload
  obtain ⟨rest, hr, he⟩ := hrest _ hdropped
  refine ⟨_, hload, hiff.mpr hrules, hreports 0 _ rfl (hnoBlock _), hreports 1 _ rfl (hmisshapen _),
    rest, hr, he, ?_⟩
  rw [he]
  decide +kernel

/-- An element that is no object, and an entry with zero as an override. -/
def passedOver : List Json :=
  [.int 5, .obj [("dynamodb",
    .obj (("response", .obj [("template", .obj [("success", .int 0)])]) :: readUsers))]]

/-- Both are irregular, but neither of the two is reported, and the second one is an event. -/
theorem not_reported_passedOver :
    ∃ loaded, ofConfig (.arr passedOver) = .ok loaded ∧ loaded.rejected = [] ∧
      loaded.events.length = 1 ∧ (∀ entry ∈ passedOver, Irregular entry) ∧
      ¬ RulesKept passedOver loaded := by
  have hint : Irregular (.int 5) := Or.inl fun fields he => Json.noConfusion he
  have hoverride : Irregular (.obj [("dynamodb",
      .obj (("response", .obj [("template", .obj [("success", .int 0)])]) :: readUsers))]) :=
    Or.inr (.misshapen rfl ⟨⟨_, rfl⟩, _, rfl⟩ (.override rfl List.mem_cons_self id))
  have hnone : (gathered 0 passedOver).rejected = [] := by decide +kernel
  refine ⟨gathered 0 passedOver, by decide +kernel, hnone, by decide +kernel, ?_, ?_⟩
  · intro entry hm
    simp only [passedOver, List.mem_cons, List.not_mem_nil, or_false] at hm
    rcases hm with rfl | rfl
    · exact hint
    · exact hoverride
  · intro hkept
    obtain ⟨cause, hreport, -⟩ := hkept.reports 0 _ rfl hint
    rw [hnone] at hreport
    cases hreport

end Loaded

end TableGateway
