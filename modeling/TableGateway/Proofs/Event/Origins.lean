import TableGateway.Proofs.Event.Accepted

/-! # The origin that cross-origin settings allow

What a `cors` value says about the allowed origin is read off its shape, and the header should show
just that or the value be refused. Only the shape of the whole value is checked, though. An object
is never refused, so the header is right exactly for the objects whose two fields have a shape that
says something, and an origin that is given as null is not taken for a missing one. -/

namespace TableGateway

/-- Whether a value has nothing in it. -/
def Json.Vacant : Json → Prop
  | null => True
  | str s => s = []
  | arr items => items = []
  | obj fields => fields = []
  | _ => False

/-- Whether a value is text, if there is one. -/
def Json.OptionalText : Json → Prop
  | null | str _ => True
  | _ => False

namespace Cors

/-! ## Shapes -/

/-- The allowed origin that a `cors` value asks for. A list of origins wins over the single origin,
and where neither is given any origin is meant. -/
inductive Asks : Json → Text → Prop
  | any : Asks (.bool true) "*"
  | listed {fields : List (Text × Json)} {texts : List Text}
      (horigins : Json.field (.obj fields) "origins" = .arr (texts.map .str)) (hne : texts ≠ [])
      (horigin : (Json.field (.obj fields) "origin").OptionalText) :
      Asks (.obj fields) (Text.join ',' texts)
  | single {fields : List (Text × Json)} {text : Text}
      (horigins : (Json.field (.obj fields) "origins").Vacant)
      (horigin : Json.field (.obj fields) "origin" = .str text) : Asks (.obj fields) text
  | unnamed {fields : List (Text × Json)}
      (horigins : (Json.field (.obj fields) "origins").Vacant)
      (horigin : Json.field (.obj fields) "origin" = .null) : Asks (.obj fields) "*"

/-- Whether a header shows an origin: as static text, in single quotes. -/
def ShowsOrigin (cors : Cors) (origin : Text) : Prop :=
  ∃ headers, cors.headers = .ok headers ∧
    Entries.get? headers allowOriginHeader = some (.str ("'" ++ origin ++ "'"))

/-- Whether a `cors` value is carried as it asks, or refused. -/
inductive Carried (value : Json) : Prop
  | off (hv : value.truthy = false) (hread : ofConfig value = .ok none)
  | refused {cause : EventError} (hv : value.truthy = true)
      (hread : ofConfig value = .error (.rejected cause)) (hcode : cause.code = "INVALID_EVENT")
  | allowed {settings : Cors} {origin : Text} (hv : value.truthy = true)
      (hread : ofConfig value = .ok (some settings)) (hasks : Asks value origin)
      (hshows : settings.ShowsOrigin origin)

/-- Whether the fields of an object name origins in a shape that is carried: a list of texts, with a
single origin that is text or not given, or no origins and a single origin that is text or missing.
-/
inductive Fits (fields : List (Text × Json)) : Prop
  | listed {texts : List Text}
      (horigins : Json.field (.obj fields) "origins" = .arr (texts.map .str)) (hne : texts ≠ [])
      (horigin : (Json.field (.obj fields) "origin").OptionalText)
  | single {text : Text} (horigins : (Json.field (.obj fields) "origins").Vacant)
      (horigin : Entries.get? fields "origin" = some (.str text))
  | missing (horigins : (Json.field (.obj fields) "origins").Vacant)
      (horigin : Entries.get? fields "origin" = none)

/-! ## Reading origins -/

@[simp] theorem originsOfConfig_arr (items : List Json) :
    originsOfConfig (.arr items) = .ok items := by
  cases items <;> rfl

theorem originsOfConfig_of_vacant {value : Json} (h : value.Vacant) :
    originsOfConfig value = .ok [] := by
  cases value with
  | null => rfl
  | bool b | int n | float x => exact h.elim
  | str s | arr items | obj fields =>
      obtain rfl := h
      rfl

@[simp] theorem originTexts_texts (position : Nat) (texts : List Text) :
    originTexts position (texts.map .str) = .ok texts := by
  induction texts generalizing position with
  | nil => rfl
  | cons text rest ih => simp [originTexts, ih, Except.map]

theorem originText_of_nil {cors : Cors} (h : cors.origins = []) :
    cors.originText = .ok cors.origin.display := by
  simp [originText, h]

theorem originText_of_texts {cors : Cors} {texts : List Text} (h : cors.origins = texts.map .str)
    (hne : texts ≠ []) : cors.originText = .ok (Text.join ',' texts) := by
  simp [originText, h, hne, Except.map]

/-- The header shows the origin that the settings amount to, and no other. -/
theorem showsOrigin_iff {cors : Cors} {origin : Text} :
    cors.ShowsOrigin origin ↔ cors.originText = .ok origin := by
  unfold ShowsOrigin headers
  cases ho : cors.originText with
  | error fault => simp [Except.map]
  | ok text =>
      simp only [Except.map, Except.ok.injEq, exists_eq_left', Entries.get?_cons, if_true,
        Option.some.injEq, Json.str.injEq]
      constructor
      · intro h
        exact List.append_cancel_left (List.append_cancel_right h)
      · rintro rfl
        rfl

/-! ## Reading settings -/

theorem ofConfig_of_not_truthy {value : Json} (h : value.truthy = false) :
    ofConfig value = .ok none := by
  simp [ofConfig, h]

theorem ofConfig_obj {fields : List (Text × Json)} (hne : fields ≠ []) :
    ofConfig (.obj fields) = ((ofFields fields).map some).mapError .unexpected := by
  simp [ofConfig, Json.truthy, hne]

/-- An object is never refused: it is read, or its origins have no items and reading breaks. -/
theorem read_or_breaks {fields : List (Text × Json)} (hne : fields ≠ []) :
    (∃ settings, ofConfig (.obj fields) = .ok (some settings)) ∨
      ∃ kind, ofConfig (.obj fields) = .error (.unexpected (.notIterable kind)) := by
  rw [ofConfig_obj hne]
  cases hf : ofFields fields with
  | ok settings => exact Or.inl ⟨settings, rfl⟩
  | error fault =>
      obtain ⟨-, rfl⟩ := ofFields_error_iff.mp hf
      exact Or.inr ⟨_, rfl⟩

/-- What is read of an object: its origins, and its origin unless that is missing. -/
theorem exists_settings {fields : List (Text × Json)} (hne : fields ≠ []) {origins : List Json}
    (h : originsOfConfig (Json.field (.obj fields) "origins") = .ok origins) :
    ∃ settings, ofConfig (.obj fields) = .ok (some settings) ∧ settings.origins = origins ∧
      settings.origin = (Entries.get? fields "origin").getD (.str "*") := by
  rw [ofConfig_obj hne, ofFields, h]
  exact ⟨_, rfl, rfl, rfl⟩

theorem Fits.carried {fields : List (Text × Json)} (hne : fields ≠ []) (h : Fits fields) :
    Carried (.obj fields) := by
  have hv : (Json.obj fields).truthy = true := by simpa [Json.truthy] using hne
  cases h with
  | listed horigins hnonempty horigin =>
      obtain ⟨settings, hread, hlist, -⟩ :=
        exists_settings hne (horigins ▸ originsOfConfig_arr _)
      exact .allowed hv hread (.listed horigins hnonempty horigin)
        (showsOrigin_iff.mpr (originText_of_texts hlist hnonempty))
  | single horigins horigin =>
      obtain ⟨settings, hread, hlist, hsingle⟩ :=
        exists_settings hne (originsOfConfig_of_vacant horigins)
      refine .allowed hv hread (.single horigins (by rw [Json.field, horigin]; rfl))
        (showsOrigin_iff.mpr ?_)
      rw [originText_of_nil hlist, hsingle, horigin]
      rfl
  | missing horigins horigin =>
      obtain ⟨settings, hread, hlist, hsingle⟩ :=
        exists_settings hne (originsOfConfig_of_vacant horigins)
      refine .allowed hv hread (.unnamed horigins (by rw [Json.field, horigin]; rfl))
        (showsOrigin_iff.mpr ?_)
      rw [originText_of_nil hlist, hsingle, horigin]
      rfl

/-- An origin that is given as null is shown by the word for null, not as any origin. -/
theorem not_showsOrigin_any_of_null {fields : List (Text × Json)} (hne : fields ≠ [])
    (horigins : (Json.field (.obj fields) "origins").Vacant)
    (horigin : Entries.get? fields "origin" = some .null) {settings : Cors}
    (hread : ofConfig (.obj fields) = .ok (some settings)) : ¬ settings.ShowsOrigin "*" := by
  obtain ⟨found, hfound, hlist, hsingle⟩ :=
    exists_settings hne (originsOfConfig_of_vacant horigins)
  obtain rfl : found = settings := by simpa [hfound] using hread
  rw [showsOrigin_iff, originText_of_nil hlist, hsingle, horigin, Except.ok.injEq]
  decide

theorem Carried.fits {fields : List (Text × Json)} (hne : fields ≠ [])
    (h : Carried (.obj fields)) : Fits fields := by
  cases h with
  | off hv => simp [Json.truthy, hne] at hv
  | refused hv hread =>
      rcases read_or_breaks hne with ⟨settings, hr⟩ | ⟨kind, hr⟩ <;> simp [hr] at hread
  | allowed hv hread hasks hshows =>
      cases hasks with
      | listed horigins hnonempty horigin => exact .listed horigins hnonempty horigin
      | single horigins horigin =>
          cases hg : Entries.get? fields "origin" with
          | none => simp [Json.field, hg] at horigin
          | some value =>
              obtain rfl : value = .str _ := by simpa [Json.field, hg] using horigin
              exact .single horigins hg
      | unnamed horigins horigin =>
          cases hg : Entries.get? fields "origin" with
          | none => exact .missing horigins hg
          | some value =>
              obtain rfl : value = .null := by simpa [Json.field, hg] using horigin
              exact absurd hshows (not_showsOrigin_any_of_null hne horigins hg hread)

/-- Values that are no objects are carried as they ask or refused. -/
theorem carried_of_not_obj {value : Json} (h : ∀ fields, value = .obj fields → fields = []) :
    Carried value := by
  by_cases hv : value.truthy = true
  · cases value with
    | null => cases hv
    | bool b =>
        obtain rfl : b = true := hv
        exact .allowed rfl rfl .any (showsOrigin_iff.mpr rfl)
    | int n | float x | str s | arr items =>
        have hread : ofConfig _ = .error (.rejected (.corsNotObject _)) := if_pos hv
        exact .refused hv hread rfl
    | obj fields => simp [Json.truthy, h fields rfl] at hv
  · have hv : value.truthy = false := by simpa using hv
    exact .off hv (ofConfig_of_not_truthy hv)

/-- A `cors` value is carried as it asks, or refused, exactly when it is no object or one whose
origins fit. An object that does not fit is not refused: it is read all the same, or it breaks the
reading with a fault. -/
theorem carried_iff (value : Json) :
    (Carried value ↔ ∀ fields, value = .obj fields → fields ≠ [] → Fits fields) ∧
      (¬ Carried value → (∃ settings, ofConfig value = .ok (some settings)) ∨
        ∃ kind, ofConfig value = .error (.unexpected (.notIterable kind))) := by
  by_cases ho : ∃ fields, value = .obj fields ∧ fields ≠ []
  · obtain ⟨fields, rfl, hne⟩ := ho
    refine ⟨⟨?_, fun h => (h fields rfl hne).carried hne⟩, fun _ => read_or_breaks hne⟩
    rintro h fields ⟨⟩ -
    exact h.fits hne
  · have hobj : ∀ fields, value = .obj fields → fields = [] := by
      intro fields hf
      by_contra hne
      exact ho ⟨fields, hf, hne⟩
    have hcarried := carried_of_not_obj hobj
    exact ⟨⟨fun _ fields hf hne => absurd (hobj fields hf) hne, fun _ => hcarried⟩,
      fun h => absurd hcarried h⟩

/-- Settings whose origins are one text and not a list. -/
def unlistedOrigin : Json := .obj [("origins", .str "https://a.example")]

/-- The text is gone through as if it were a list, so its characters are allowed as origins. -/
theorem not_carried_unlistedOrigin :
    ¬ Carried unlistedOrigin ∧ ∃ settings, ofConfig unlistedOrigin = .ok (some settings) ∧
      settings.ShowsOrigin "h,t,t,p,s,:,/,/,a,.,e,x,a,m,p,l,e" := by
  constructor
  · intro h
    have hfits : Fits [("origins", .str "https://a.example")] := h.fits (by simp)
    cases hfits with
    | listed horigins => cases horigins
    | single horigins => cases horigins
    | missing horigins => cases horigins
  · exact ⟨_, rfl, showsOrigin_iff.mpr (by decide)⟩

end Cors

end TableGateway
