import TableGateway.Proofs.Account.Lookup

/-! # Pages

A lookup goes through the pages of an account as through one list of items. How the items are cut
into pages makes no difference to what it finds. -/

namespace TableGateway

namespace Account

/-! ## Items of pages -/

/-- The items of pages, one page after another. A page without items adds none. -/
def itemsOn (pages : List Json) : List Json :=
  pages.flatMap fun page => (pageItems page).toOption.getD []

/-- Whether all pages can be gone through. -/
def Readable (pages : List Json) : Prop := ∀ page ∈ pages, (pageItems page).isOk = true

instance (pages : List Json) : Decidable (Readable pages) :=
  inferInstanceAs (Decidable (∀ page ∈ pages, (pageItems page).isOk = true))

theorem itemsOn_cons {page : Json} {items : List Json} (h : pageItems page = .ok items)
    (rest : List Json) : itemsOn (page :: rest) = items ++ itemsOn rest := by
  simp [itemsOn, h, Except.toOption]

section Search

variable {α : Type} {pick : Json → Except Stop (Option α)}

/-- A search goes on behind the first items when these have nothing to pick. -/
theorem firstAmong_append (front back : List Json) :
    firstAmong pick (front ++ back) = match firstAmong pick front with
      | .error stop => .error stop
      | .ok (some found) => .ok (some found)
      | .ok none => firstAmong pick back := by
  induction front with
  | nil => rfl
  | cons item rest ih =>
      rw [List.cons_append, firstAmong, firstAmong]
      cases pick item with
      | error stop => rfl
      | ok picked =>
          cases picked with
          | some value => rfl
          | none => exact ih

/-- Searching pages is searching their items. -/
theorem firstOnPages_eq {pages : List Json} (h : Readable pages) :
    firstOnPages pick pages = firstAmong pick (itemsOn pages) := by
  induction pages with
  | nil => rfl
  | cons page rest ih =>
      have hrest := ih fun other ho => h other (List.mem_cons_of_mem page ho)
      cases hitems : pageItems page with
      | error stop =>
          have hpage := h page List.mem_cons_self
          rw [hitems] at hpage
          cases hpage
      | ok items =>
          have hpage : (pageItems page).bind (firstAmong pick) = firstAmong pick items := by
            rw [hitems]
            rfl
          rw [itemsOn_cons hitems]
          cases hfirst : firstAmong pick items with
          | error stop => simp only [firstOnPages, hpage, hfirst, firstAmong_append]
          | ok picked =>
              cases picked with
              | none => simp only [firstOnPages, hpage, hfirst, firstAmong_append, hrest]
              | some found => simp only [firstOnPages, hpage, hfirst, firstAmong_append]

/-- Where items are picked for a property, the first one with it is picked. -/
theorem firstAmong_eq_find? {property : Json → Bool} {take : Json → Except Stop α}
    {items : List Json}
    (h : ∀ item ∈ items, pick item = if property item then (take item).map some else .ok none) :
    firstAmong pick items = match items.find? property with
      | none => .ok none
      | some item => (take item).map some := by
  induction items with
  | nil => rfl
  | cons item rest ih =>
      have hrest := ih fun other ho => h other (List.mem_cons_of_mem item ho)
      rw [firstAmong, h item List.mem_cons_self]
      by_cases hp : property item = true
      · rw [if_pos hp, List.find?_cons_of_pos hp]
        dsimp only
        cases take item <;> rfl
      · rw [if_neg hp, List.find?_cons_of_neg hp]
        exact hrest

end Search

/-! ## Searching items -/

def isObject : Json → Bool
  | .obj _ => true
  | _ => false

/-- The names of the fields of an object. -/
def fieldNames : Json → List Text
  | .obj fields => Entries.keys fields
  | _ => []

theorem required_of_mem {item : Json} {name : Text} (h : name ∈ fieldNames item) :
    required item name = .ok (item.field name) := by
  cases item with
  | obj fields =>
      obtain ⟨value, hg⟩ := Entries.exists_get?_of_mem_keys h
      simp [required, Json.field, hg]
  | null | bool b | int n | float x | str s | arr items => cases h

theorem required_of_not_mem {item : Json} (ho : isObject item = true) {name : Text}
    (h : name ∉ fieldNames item) :
    required item name = .error (.fault (.missingKey [.str name])) := by
  cases item with
  | obj fields => simp [required, Entries.get?_eq_none_iff.mpr h]
  | null | bool b | int n | float x | str s | arr items => cases ho

theorem pickRoot_eq {resource : Json} (h : isObject resource = true) :
    pickRoot resource = if decide (resource.field "path" = .str "/") then
      (required resource "id").map some else .ok none := by
  cases resource with
  | obj fields => simp [pickRoot]
  | null | bool b | int n | float x | str s | arr items => cases h

theorem pickNamed_eq {api : Json} (h : ("name" : Text) ∈ fieldNames api) (name : Text) :
    pickNamed (.str name) api =
      if api.field "name" = .str name then (pure api : Except Stop Json).map some
      else .ok none := by
  unfold pickNamed
  rw [required_of_mem h]
  by_cases he : api.field "name" = .str name
  · simp [Except.map, he, Json.Same.refl, pure, Except.pure]
  · have hs : ¬ Json.Same (api.field "name") (.str name) := fun hs => he (eq_str_of_same hs)
    simp [Except.map, he, hs]

/-! ## Answers -/

/-- The ID of the first resource with the root path, null if there is none. -/
def rootAmong (resources : List Json) : Except Fault Json :=
  match resources.find? fun resource => resource.field "path" = .str "/" with
  | none => .ok .null
  | some root =>
      if (fieldNames root).contains "id" then .ok (root.field "id")
      else .error (.missingKey [.str "id"])

/-- The IDs of the first API of a name, if there is one; a root that the API does not name is looked
for among its resources. -/
def answerAmong (apis : List Json) (resources : Json → List Json) (name : Text) :
    Except Fault (Option FoundApi) :=
  match apis.find? fun api => api.field "name" = .str name with
  | none => .ok none
  | some api =>
      let id := api.field "id"
      let named := api.field "rootResourceId"
      if named.truthy then .ok (some ⟨id, named⟩)
      else (rootAmong (resources id)).map fun root => some ⟨id, root⟩

/-- Whether an account lists APIs with names and IDs, and objects as their resources, on pages that
can be gone through, and fails no call. -/
structure Orderly (account : Account) : Prop where
  calls : ∀ call, account.call call = .ok ()
  apiPages : Readable account.restApis
  apis : ∀ api ∈ itemsOn account.restApis,
    ("name" : Text) ∈ fieldNames api ∧ ("id" : Text) ∈ fieldNames api
  resourcePages : ∀ id, Readable (account.resourcePages id)
  resources : ∀ id, ∀ resource ∈ itemsOn (account.resourcePages id), isObject resource = true

namespace Orderly

variable {account : Account}

theorem rootResourceId_eq (h : account.Orderly) (id : Json) :
    account.rootResourceId id =
      (rootAmong (itemsOn (account.resourcePages id))).mapError .fault := by
  have hpick := fun resource hm => pickRoot_eq (h.resources id resource hm)
  unfold rootResourceId rootAmong
  rw [h.calls, firstOnPages_eq (h.resourcePages id), firstAmong_eq_find? hpick]
  cases hf : (itemsOn (account.resourcePages id)).find?
      fun resource => decide (resource.field "path" = .str "/") with
  | none => rfl
  | some root =>
      have hobject := h.resources id root (List.mem_of_find?_eq_some hf)
      by_cases hid : ("id" : Text) ∈ fieldNames root
      · simp only [required_of_mem hid, List.contains_iff_mem.mpr hid, if_true]
        rfl
      · simp only [required_of_not_mem hobject hid, List.contains_iff_mem, if_neg hid]
        rfl

theorem findRestApi_eq (h : account.Orderly) (name : Text) :
    account.findRestApi (.str name) =
      answerAmong (itemsOn account.restApis)
        (fun id => itemsOn (account.resourcePages id)) name := by
  have hpick : ∀ api ∈ itemsOn account.restApis,
      pickNamed (.str name) api = if decide (api.field "name" = .str name) then
        (pure api : Except Stop Json).map some else .ok none := by
    intro api hm
    simpa using pickNamed_eq (h.apis api hm).1 name
  unfold findRestApi answerAmong
  rw [h.calls, firstOnPages_eq h.apiPages, firstAmong_eq_find? hpick]
  cases hf : (itemsOn account.restApis).find?
      fun api => decide (api.field "name" = .str name) with
  | none => rfl
  | some api =>
      have hid := required_of_mem (h.apis api (List.mem_of_find?_eq_some hf)).2
      have hids : account.idsOf api = (do
          let root ← if (api.field "rootResourceId").truthy then pure (api.field "rootResourceId")
            else account.rootResourceId (api.field "id")
          return ⟨api.field "id", root⟩) := by
        unfold idsOf
        rw [hid]
        rfl
      change settle ((account.idsOf api).map some) = _
      rw [hids, h.rootResourceId_eq]
      dsimp only
      by_cases hn : (api.field "rootResourceId").truthy = true
      · rw [if_pos hn, if_pos hn]
        rfl
      · rw [if_neg hn, if_neg hn]
        cases rootAmong (itemsOn (account.resourcePages (api.field "id"))) <;> rfl

end Orderly

/-- Whether an account differs from another one in nothing but how items are cut into pages, as far
as REST APIs go. -/
structure Recut (account other : Account) : Prop where
  calls : ∀ call, other.call call = account.call call
  apiPages : Readable other.restApis
  apis : itemsOn other.restApis = itemsOn account.restApis
  resourcePages : ∀ id, Readable (other.resourcePages id)
  resources : ∀ id,
    itemsOn (other.resourcePages id) = itemsOn (account.resourcePages id)

/-- What holds of the pages of every API in the account, and of no pages, holds of the pages of
every API. -/
theorem forall_resourcePages {account : Account} {P : List Json → Prop} (hnil : P [])
    (h : ∀ entry ∈ account.resources, P entry.2) (id : Json) : P (account.resourcePages id) := by
  cases id with
  | str text =>
      cases hg : Entries.get? account.resources text with
      | none => simpa [resourcePages, hg] using hnil
      | some pages => simpa [resourcePages, hg] using h _ (Entries.mem_of_get? hg)
  | null | bool b | int n | float x | arr items | obj fields => exact hnil

theorem Orderly.recut {account other : Account} (h : account.Orderly) (hr : Recut account other) :
    other.Orderly where
  calls := fun call => (hr.calls call).trans (h.calls call)
  apiPages := hr.apiPages
  apis := fun api hm => h.apis api (hr.apis ▸ hm)
  resourcePages := hr.resourcePages
  resources := fun id resource hm => h.resources id resource (hr.resources id ▸ hm)

end Account

namespace LookupSession

/-- Without kept answers, a lookup of a text asks the account. -/
theorem restApi_clearAnswers (session : LookupSession) (environment : Environment)
    (account : Account) (name : Text) :
    (session.clearAnswers.restApi environment account (.str name)).2 =
      account.findRestApi (.str name) := by
  have hk : cacheKey (.str name) = .ok (.str name) := rfl
  have hu : session.clearAnswers.restApis.use? (.str name) = none := rfl
  unfold LookupSession.restApi
  rw [hk]
  dsimp only
  rw [hu]
  dsimp only
  cases account.findRestApi (.str name) <;> rfl

/-- A lookup through a session without kept answers finds what the items of the account have, one
page after another: nothing without an API of the name, and else the IDs of the first one. So it
finds the same in an account with these items on other pages. -/
theorem restApi_eq_answerAmong {account : Account} (h : account.Orderly) (session : LookupSession)
    (environment : Environment) (name : Text) :
    (session.clearAnswers.restApi environment account (.str name)).2 =
        Account.answerAmong (Account.itemsOn account.restApis)
          (fun id => Account.itemsOn (account.resourcePages id)) name ∧
      ∀ (other : Account), Account.Recut account other →
        ∀ (session' : LookupSession) (environment' : Environment),
          (session'.clearAnswers.restApi environment' other (.str name)).2 =
            (session.clearAnswers.restApi environment account (.str name)).2 := by
  refine ⟨?_, ?_⟩
  · rw [restApi_clearAnswers, h.findRestApi_eq]
  · intro other hr session' environment'
    rw [restApi_clearAnswers, restApi_clearAnswers, h.findRestApi_eq, (h.recut hr).findRestApi_eq,
      hr.apis]
    simp only [hr.resources]

/-- An account with two APIs of one name on pages of their own, between pages without items. The
first of them does not name its root, which is on the last page of its resources. -/
def twinApis : Account where
  restApis :=
    [.obj [("position", .str "p1")], .obj [("items", .arr [])],
      .obj [("items", .arr [.obj [("id", .str "x9y8z7"), ("name", .str "orders-api")],
        .obj [("id", .str "a1b2c3"), ("name", .str "users-api")]])],
      .obj [("items", .arr [.obj [("id", .str "e5f6g7"), ("name", .str "users-api"),
        ("rootResourceId", .str "h8i9j0")]])]]
  resources := [("a1b2c3",
    [.obj [("items", .arr [.obj [("id", .str "g7h8i9"), ("path", .str "/users")]])], .obj [],
      .obj [("items", .arr [.obj [("id", .str "d4e5f6"), ("path", .str "/")]])]])]

/-- The same APIs and resources, each on one page. -/
def twinApisOnePage : Account where
  restApis := [.obj [("items", .arr (Account.itemsOn twinApis.restApis))]]
  resources := twinApis.resources.map fun entry =>
    (entry.1, [.obj [("items", .arr (Account.itemsOn entry.2))]])

theorem restApi_eq_answerAmong_twinApis :
    twinApis.Orderly ∧ Account.Recut twinApis twinApisOnePage ∧
      (({} : LookupSession).clearAnswers.restApi [] twinApis (.str "users-api")).2 =
        .ok (some ⟨.str "a1b2c3", .str "d4e5f6"⟩) ∧
      (({} : LookupSession).clearAnswers.restApi [] twinApisOnePage (.str "users-api")).2 =
        .ok (some ⟨.str "a1b2c3", .str "d4e5f6"⟩) := by
  have horderly : twinApis.Orderly := by
    refine ⟨fun call => rfl, by decide, by decide, ?_, ?_⟩
    · exact Account.forall_resourcePages (by decide) (by decide)
    · exact Account.forall_resourcePages
        (P := fun pages => ∀ resource ∈ Account.itemsOn pages, Account.isObject resource = true)
        (by decide) (by decide)
  have hrecut : Account.Recut twinApis twinApisOnePage := by
    refine ⟨fun call => rfl, by decide, by decide, ?_, ?_⟩
    · exact Account.forall_resourcePages (by decide) (by decide)
    · intro id
      cases id with
      | str text =>
          by_cases ht : ("a1b2c3" : Text) = text
          · subst ht
            decide
          · simp [Account.resourcePages, twinApis, twinApisOnePage, Entries.get?_cons, ht]
      | null | bool b | int n | float x | arr items | obj fields => rfl
  obtain ⟨hanswer, hother⟩ := restApi_eq_answerAmong horderly {} [] "users-api"
  have hfound : Account.answerAmong (Account.itemsOn twinApis.restApis)
      (fun id => Account.itemsOn (twinApis.resourcePages id)) "users-api" =
        .ok (some ⟨.str "a1b2c3", .str "d4e5f6"⟩) := by
    decide +kernel
  rw [hfound] at hanswer
  exact ⟨horderly, hrecut, hanswer, (hother _ hrecut {} []).trans hanswer⟩

end LookupSession

end TableGateway
