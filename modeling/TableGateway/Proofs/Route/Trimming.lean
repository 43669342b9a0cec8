import TableGateway.Event.Loader
import TableGateway.Proofs.Entries
import TableGateway.Proofs.Outcome
import TableGateway.Proofs.Text.Trim
import TableGateway.Route

/-! # Normal forms of paths

Trimming takes white space off a path and then slashes, each of them once. What is left is the core
of the path where no white space stands inside of its slashes, and only there. -/

namespace TableGateway

namespace Route

/-! ## What surrounds a path -/

def isBlank (c : CodePoint) : Bool := c.isIn Text.isBlank

def isSlash (c : CodePoint) : Bool := c == .char '/'

/-- White space and slashes. -/
def surrounds (c : CodePoint) : Bool := isBlank c || isSlash c

/-- Whether a text stands inside of a path with nothing but white space and slashes around it, in
any mixture. -/
def Within (inner path : Text) : Prop :=
  ∃ front back, Text.AllOf surrounds front ∧ Text.AllOf surrounds back ∧
    path = front ++ inner ++ back

/-- Whether two paths differ in nothing but the white space and the slashes around them. -/
def SameWithin (path other : Text) : Prop := ∃ inner, Within inner path ∧ Within inner other

/-- Whether a path is a text that neither starts nor ends with white space or a slash, then slashes
around it, and then white space around these. -/
inductive Layers : Text → Text → Prop where
  | mk {before front inner back after : Text} (hbefore : Text.AllOf isBlank before)
      (hfront : Text.AllOf isSlash front) (hinner : Text.Trimmed surrounds inner)
      (hback : Text.AllOf isSlash back) (hafter : Text.AllOf isBlank after) :
      Layers inner (before ++ (front ++ inner ++ back) ++ after)

/-- Whether all white space around a path stands outside of the slashes around it. -/
def Layered (path : Text) : Prop := ∃ inner, Layers inner path

theorem not_isBlank_of_isSlash {c : CodePoint} (h : isSlash c = true) : isBlank c = false := by
  obtain rfl : c = .char '/' := by simpa [isSlash] using h
  decide

theorem trimmed_of_slashes {front inner back : Text} (hfront : Text.AllOf isSlash front)
    (hinner : Text.Trimmed surrounds inner) (hback : Text.AllOf isSlash back) :
    Text.Trimmed isBlank (front ++ inner ++ back) := by
  have hends : ∀ c, surrounds c = false → isBlank c = false := by
    intro c hc
    simp only [surrounds, Bool.or_eq_false_iff] at hc
    exact hc.1
  constructor
  · intro c hc
    simp only [List.head?_append, Option.or_eq_some_iff] at hc
    rcases hc with (hc | ⟨-, hc⟩) | ⟨-, hc⟩
    · exact not_isBlank_of_isSlash (hfront c (List.mem_of_mem_head? hc))
    · exact hends c (hinner.head c hc)
    · exact not_isBlank_of_isSlash (hback c (List.mem_of_mem_head? hc))
  · intro c hc
    simp only [List.getLast?_append, Option.or_eq_some_iff] at hc
    rcases hc with hc | ⟨-, hc | ⟨-, hc⟩⟩
    · exact not_isBlank_of_isSlash (hback c (List.mem_of_getLast? hc))
    · exact hends c (hinner.last c hc)
    · exact not_isBlank_of_isSlash (hfront c (List.mem_of_getLast? hc))

theorem Layers.trimPath_eq {inner path : Text} (h : Layers inner path) : trimPath path = inner := by
  obtain ⟨hbefore, hfront, hinner, hback, hafter⟩ := h
  have hslashes : Text.Trimmed isSlash inner := by
    constructor
    · intro c hc
      exact (Bool.or_eq_false_iff.mp (hinner.head c hc)).2
    · intro c hc
      exact (Bool.or_eq_false_iff.mp (hinner.last c hc)).2
  have hstrip := Text.trim_eq_of_surrounded hbefore (trimmed_of_slashes hfront hinner hback) hafter
  have htrim := Text.trim_eq_of_surrounded hfront hslashes hback
  exact (congrArg Text.trimSlashes hstrip).trans htrim

/-- What trimming takes off a path: white space, and then slashes. -/
theorem exists_taken_off (path : Text) :
    ∃ before front back after, Text.AllOf isBlank before ∧ Text.AllOf isSlash front ∧
      Text.AllOf isSlash back ∧ Text.AllOf isBlank after ∧
      path = before ++ (front ++ trimPath path ++ back) ++ after := by
  obtain ⟨before, after, hbefore, hafter, hpath⟩ := Text.exists_trim isBlank path
  obtain ⟨front, back, hfront, hback, hstrip⟩ := Text.exists_trim isSlash (Text.strip path)
  refine ⟨before, front, back, after, hbefore, hfront, hback, hafter, ?_⟩
  calc path = before ++ Text.strip path ++ after := hpath
    _ = before ++ (front ++ trimPath path ++ back) ++ after :=
        congrArg (before ++ · ++ after) hstrip

theorem layers_of_trimmed {path : Text} (h : Text.Trimmed surrounds (trimPath path)) :
    Layers (trimPath path) path := by
  obtain ⟨before, front, back, after, hbefore, hfront, hback, hafter, hpath⟩ :=
    exists_taken_off path
  generalize trimPath path = inner at h hpath ⊢
  rw [hpath]
  exact .mk hbefore hfront h hback hafter

/-- A path reaches its normal form exactly when it is layered. -/
theorem layered_iff {path : Text} : Layered path ↔ Text.Trimmed surrounds (trimPath path) := by
  constructor
  · rintro ⟨inner, h⟩
    rw [h.trimPath_eq]
    obtain ⟨-, -, hinner, -, -⟩ := h
    exact hinner
  · intro h
    exact ⟨_, layers_of_trimmed h⟩

/-! ## The core of a path -/

/-- A path without the white space and the slashes around it. -/
def core (path : Text) : Text := Text.trim surrounds path

theorem Within.core_eq {inner path : Text} (h : Within inner path) : core path = core inner := by
  obtain ⟨front, back, hfront, hback, rfl⟩ := h
  exact Text.trim_append hfront hback inner

theorem SameWithin.core_eq {path other : Text} (h : SameWithin path other) :
    core path = core other := by
  obtain ⟨inner, hpath, hother⟩ := h
  exact hpath.core_eq.trans hother.core_eq.symm

theorem Within.self (path : Text) : Within path path :=
  ⟨[], [], nofun, nofun, by simp⟩

theorem within_core (path : Text) : Within (core path) path := Text.exists_trim surrounds path

theorem allOf_surrounds_of_isBlank {text : Text} (h : Text.AllOf isBlank text) :
    Text.AllOf surrounds text :=
  fun c hc => by simp [surrounds, h c hc]

theorem allOf_surrounds_of_isSlash {text : Text} (h : Text.AllOf isSlash text) :
    Text.AllOf surrounds text :=
  fun c hc => by simp [surrounds, h c hc]

theorem within_trimPath (path : Text) : Within (trimPath path) path := by
  obtain ⟨before, front, back, after, hbefore, hfront, hback, hafter, hpath⟩ :=
    exists_taken_off path
  refine ⟨before ++ front, back ++ after, ?_, ?_, ?_⟩
  · exact List.forall_mem_append.mpr
      ⟨allOf_surrounds_of_isBlank hbefore, allOf_surrounds_of_isSlash hfront⟩
  · exact List.forall_mem_append.mpr
      ⟨allOf_surrounds_of_isSlash hback, allOf_surrounds_of_isBlank hafter⟩
  · simpa using hpath

/-- Trimming leaves the core of a path exactly when the path is layered. -/
theorem trimPath_eq_core_iff {path : Text} : trimPath path = core path ↔ Layered path := by
  rw [layered_iff]
  constructor
  · intro h
    rw [h]
    exact Text.trimmed_trim surrounds path
  · intro h
    have htrim : core (trimPath path) = trimPath path := h.trim_eq
    rw [(within_trimPath path).core_eq, htrim]

theorem layered_core (path : Text) : Layered (core path) := by
  have hcore : Text.Trimmed surrounds (core path) := Text.trimmed_trim surrounds path
  have hlayers := @Layers.mk [] [] (core path) [] [] nofun nofun hcore nofun nofun
  exact ⟨core path, by simpa using hlayers⟩

/-! ## Normal forms -/

/-- Whether a path has reached its normal form once it is trimmed: neither white space nor a slash
is left at its ends, trimming it again changes nothing, and a slash more at an end makes no
difference. -/
structure Settled (path : Text) : Prop where
  ends : Text.Trimmed surrounds (trimPath path)
  again : trimPath (trimPath path) = trimPath path
  front : trimPath (.char '/' :: path) = trimPath path
  back : trimPath (path ++ [.char '/']) = trimPath path

theorem core_front (path : Text) : core (.char '/' :: path) = core path :=
  Within.core_eq ⟨[.char '/'], [], by simp [Text.AllOf, surrounds, isSlash], nofun, by simp⟩

theorem core_back (path : Text) : core (path ++ [.char '/']) = core path :=
  Within.core_eq ⟨[], [.char '/'], nofun, by simp [Text.AllOf, surrounds, isSlash], by simp⟩

theorem settled_iff {path : Text} :
    Settled path ↔
      Layered path ∧ Layered (.char '/' :: path) ∧ Layered (path ++ [.char '/']) := by
  constructor
  · intro h
    have hcore := trimPath_eq_core_iff.mpr (layered_iff.mpr h.ends)
    refine ⟨layered_iff.mpr h.ends, ?_, ?_⟩
    · rw [← trimPath_eq_core_iff, h.front, hcore, core_front]
    · rw [← trimPath_eq_core_iff, h.back, hcore, core_back]
  · rintro ⟨hpath, hfront, hback⟩
    have hcore := trimPath_eq_core_iff.mpr hpath
    refine ⟨layered_iff.mp hpath, ?_, ?_, ?_⟩
    · rw [hcore, trimPath_eq_core_iff.mpr (layered_core path)]
      exact (within_core path).core_eq.symm
    · rw [trimPath_eq_core_iff.mpr hfront, core_front, hcore]
    · rw [trimPath_eq_core_iff.mpr hback, core_back, hcore]

end Route

/-! ## Configured paths -/

theorem Json.field_put_of_ne {key name : Text} (h : name ≠ key) (value : Json)
    (fields : List (Text × Json)) :
    Json.field (.obj (Entries.put key value fields)) name = Json.field (.obj fields) name := by
  simp only [Json.field, Entries.get?_put_of_ne h]

theorem Json.field_put_self (key : Text) (value : Json) (fields : List (Text × Json)) :
    Json.field (.obj (Entries.put key value fields)) key = value := by
  simp only [Json.field, Entries.get?_put_self, Option.getD_some]

namespace Event

/-- Of its path an event shows nothing but what trimming leaves. -/
theorem ofFields_put_path {path other : Text} (hp : path ≠ []) (ho : other ≠ [])
    (h : Route.trimPath path = Route.trimPath other) (fields : List (Text × Json)) :
    ofFields (Entries.put "path" (.str path) fields) =
      ofFields (Entries.put "path" (.str other) fields) := by
  have hfield : ∀ name : Text, name ≠ "path" →
      Json.field (.obj (Entries.put "path" (.str path) fields)) name =
        Json.field (.obj (Entries.put "path" (.str other) fields)) name := by
    intro name hn
    rw [Json.field_put_of_ne hn, Json.field_put_of_ne hn]
  have hgiven : ∀ name : Text,
      (Json.field (.obj (Entries.put "path" (.str path) fields)) name).truthy =
        (Json.field (.obj (Entries.put "path" (.str other) fields)) name).truthy := by
    intro name
    by_cases hn : name = "path"
    · subst hn
      have hpath : path.isEmpty = false := List.isEmpty_eq_false_iff.mpr hp
      have hother : other.isEmpty = false := List.isEmpty_eq_false_iff.mpr ho
      simp only [Json.field_put_self, Json.truthy, hpath, hother]
    · rw [hfield name hn]
  have hrequired : checkRequired (.obj (Entries.put "path" (.str path) fields)) =
      checkRequired (.obj (Entries.put "path" (.str other) fields)) := by
    simp only [checkRequired, hgiven]
  unfold ofFields
  simp (disch := decide) only [hrequired, hfield, Json.field_put_self, pathOfConfig, ok_bind, h]

theorem ofConfig_put_path {path other : Text} (hp : path ≠ []) (ho : other ≠ [])
    (h : Route.trimPath path = Route.trimPath other) (fields : List (Text × Json)) :
    ofConfig (.obj (Entries.put "path" (.str path) fields)) =
      ofConfig (.obj (Entries.put "path" (.str other) fields)) := by
  have hblock : ∀ entries : List (Text × Json),
      (blockFields (.obj entries) "dynamodb").mapError Failure.rejected = .ok entries :=
    fun _ => rfl
  unfold ofConfig
  simp (disch := decide) only [hblock, ok_bind, ofFields_put_path hp ho h fields,
    Json.field_put_of_ne]

end Event

/-! ## Paths that differ in what surrounds them -/

namespace Route

/-- Whether two paths make no difference: the resources below an API are the same, logical IDs and
path parts alike, and an entry with the one as its path gives the event that it gives with the
other. -/
structure Alike (path other : Text) : Prop where
  trimmed : trimPath path = trimPath other
  resources : ∀ api, resources api (trimPath path) = resources api (trimPath other)
  event : ∀ fields, path ≠ [] → other ≠ [] →
    Event.ofConfig (.obj (Entries.put "path" (.str path) fields)) =
      Event.ofConfig (.obj (Entries.put "path" (.str other) fields))

theorem alike_of_trimPath_eq {path other : Text} (h : trimPath path = trimPath other) :
    Alike path other := by
  refine ⟨h, ?_, ?_⟩
  · intro api
    rw [h]
  · intro fields hp ho
    exact Event.ofConfig_put_path hp ho h fields

/-- The paths that are like all layered paths around the same core are the layered paths. -/
theorem layered_iff_alike {path : Text} :
    Layered path ↔ ∀ other, Layered other → SameWithin path other → Alike path other := by
  constructor
  · intro h other hother hsame
    have hpath := trimPath_eq_core_iff.mpr h
    have hcore := trimPath_eq_core_iff.mpr hother
    apply alike_of_trimPath_eq
    rw [hpath, hcore, hsame.core_eq]
  · intro h
    have hsame : SameWithin path (core path) := ⟨core path, within_core path, Within.self _⟩
    have halike := h (core path) (layered_core path) hsame
    rw [← trimPath_eq_core_iff, halike.trimmed, trimPath_eq_core_iff.mpr (layered_core path)]
    exact (within_core path).core_eq.symm

/-- How far trimming takes a path. No slash is ever left at an end. A normal form, which is the same
with a slash more at an end, is reached by exactly the paths whose white space stands outside of
their slashes, with the slash more as well; and of the paths that differ in white space and slashes
around them, in any mixture, these are the ones that make no difference. -/
theorem trimPath_settles_iff (path : Text) :
    Text.Trimmed isSlash (trimPath path) ∧
      (Settled path ↔
        Layered path ∧ Layered (.char '/' :: path) ∧ Layered (path ++ [.char '/'])) ∧
      (Layered path ↔ ∀ other, Layered other → SameWithin path other → Alike path other) :=
  ⟨Text.trimmed_trim isSlash (Text.strip path), settled_iff, layered_iff_alike⟩

/-- White space between the slashes of a path and its text is left where it is: the path has no
normal form, and it is not the path of the text alone. -/
theorem not_settled_spacedUsers :
    trimPath "/ users /" = " users " ∧ ¬ Settled "/ users /" ∧
      SameWithin "/ users /" "users" ∧ ¬ Alike "/ users /" "users" := by
  have htrim : trimPath "/ users /" = " users " := by decide
  refine ⟨htrim, ?_, ?_, ?_⟩
  · intro h
    exact absurd h.again (by decide)
  · refine ⟨"users", ⟨"/ ", " /", ?_, ?_, rfl⟩, Within.self _⟩
    · exact (by decide : ∀ c ∈ ("/ " : Text), surrounds c = true)
    · exact (by decide : ∀ c ∈ (" /" : Text), surrounds c = true)
  · intro h
    exact absurd h.trimmed (by decide)

end Route

end TableGateway
