import TableGateway.Account.Lookup
import TableGateway.Proofs.Account.Cache
import TableGateway.Proofs.Entries
import TableGateway.Proofs.Outcome

/-! # What lookups find

A lookup that finds an API has found one of that name on the pages of the account, with the root
resource that the API or its resources name, if any of them does. Answers that were kept while the
account stood still are answers of the account. -/

namespace TableGateway

namespace Account

/-! ## Searching pages -/

/-- An item stands on one of the pages. -/
def Lists (pages : List Json) (item : Json) : Prop :=
  ∃ page ∈ pages, ∃ items, pageItems page = .ok items ∧ item ∈ items

section Search

variable {α : Type} {pick : Json → Except Stop (Option α)}

theorem exists_of_firstAmong {items : List Json} {found : α}
    (h : firstAmong pick items = .ok (some found)) :
    ∃ item ∈ items, pick item = .ok (some found) := by
  induction items with
  | nil => cases h
  | cons item rest ih =>
      rw [firstAmong] at h
      cases hp : pick item with
      | error stop => simp [hp] at h
      | ok picked =>
          rw [hp] at h
          cases picked with
          | some value =>
              obtain rfl := Option.some.inj (Except.ok.inj h)
              exact ⟨item, by simp, hp⟩
          | none =>
              obtain ⟨other, hm, ho⟩ := ih h
              exact ⟨other, List.mem_cons_of_mem _ hm, ho⟩

theorem pick_of_firstAmong_eq_none {items : List Json} (h : firstAmong pick items = .ok none) :
    ∀ item ∈ items, pick item = .ok none := by
  induction items with
  | nil => simp
  | cons item rest ih =>
      rw [firstAmong] at h
      cases hp : pick item with
      | error stop => simp [hp] at h
      | ok picked =>
          rw [hp] at h
          cases picked with
          | some value => cases Except.ok.inj h
          | none =>
              intro other hm
              rcases List.mem_cons.mp hm with rfl | hm
              · exact hp
              · exact ih h other hm

/-- What is found on the pages was picked from an item of theirs. -/
theorem exists_of_firstOnPages {pages : List Json} {found : α}
    (h : firstOnPages pick pages = .ok (some found)) :
    ∃ item, Lists pages item ∧ pick item = .ok (some found) := by
  induction pages with
  | nil => cases h
  | cons page rest ih =>
      rw [firstOnPages] at h
      cases hp : (pageItems page).bind (firstAmong pick) with
      | error stop => simp [hp] at h
      | ok picked =>
          rw [hp] at h
          cases picked with
          | some value =>
              obtain rfl := Option.some.inj (Except.ok.inj h)
              obtain ⟨items, hi, hf⟩ := bind_eq_ok.mp hp
              obtain ⟨item, hm, hpick⟩ := exists_of_firstAmong hf
              exact ⟨item, ⟨page, by simp, items, hi, hm⟩, hpick⟩
          | none =>
              obtain ⟨item, ⟨other, ho, hitem⟩, hpick⟩ := ih h
              exact ⟨item, ⟨other, List.mem_cons_of_mem _ ho, hitem⟩, hpick⟩

/-- Where nothing is found, nothing is picked from any item. -/
theorem pick_of_firstOnPages_eq_none {pages : List Json} (h : firstOnPages pick pages = .ok none)
    {item : Json} (hl : Lists pages item) : pick item = .ok none := by
  induction pages with
  | nil =>
      obtain ⟨page, hm, -⟩ := hl
      cases hm
  | cons page rest ih =>
      rw [firstOnPages] at h
      cases hp : (pageItems page).bind (firstAmong pick) with
      | error stop => simp [hp] at h
      | ok picked =>
          rw [hp] at h
          cases picked with
          | some value => cases Except.ok.inj h
          | none =>
              obtain ⟨other, ho, items, hi, hm⟩ := hl
              rcases List.mem_cons.mp ho with rfl | ho
              · obtain ⟨found, hf, hfirst⟩ := bind_eq_ok.mp hp
                obtain rfl := Except.ok.inj (hi.symm.trans hf)
                exact pick_of_firstAmong_eq_none hfirst item hm
              · exact ih h ⟨other, ho, items, hi, hm⟩

end Search

/-! ## Found APIs -/

theorem field_of_required {j value : Json} {name : Text} (h : required j name = .ok value) :
    j.field name = value := by
  unfold required at h
  split at h
  · split at h
    · rename_i hg
      obtain rfl := Except.ok.inj h
      simp [Json.field, hg]
    · cases h
  · cases h

/-- The root resource of an API, as it is found: named by the API, or else the one on the pages of
its resources that has the root path, or else null. -/
inductive RootOf (account : Account) (api : Json) (found : FoundApi) : Prop where
  | named (hn : (api.field "rootResourceId").truthy = true)
      (hr : found.rootResourceId = api.field "rootResourceId")
  | listed {resource : Json} (hn : (api.field "rootResourceId").truthy = false)
      (hl : Lists (account.resourcePages found.restApiId) resource)
      (hp : resource.field "path" = .str "/")
      (hr : found.rootResourceId = resource.field "id")
  | missing (hn : (api.field "rootResourceId").truthy = false)
      (hl : ∀ resource, Lists (account.resourcePages found.restApiId) resource →
        resource.field "path" ≠ .str "/")
      (hr : found.rootResourceId = .null)

/-- An account has an API of a name, with the IDs that were found. -/
def Has (account : Account) (name : Text) (found : FoundApi) : Prop :=
  ∃ api, Lists account.restApis api ∧ api.field "name" = .str name ∧
    api.field "id" = found.restApiId ∧ RootOf account api found

theorem pickRoot_eq_some {resource id : Json} (h : pickRoot resource = .ok (some id)) :
    resource.field "path" = .str "/" ∧ resource.field "id" = id := by
  unfold pickRoot at h
  split at h
  · split at h
    · rename_i hp
      obtain ⟨value, hv, he⟩ := map_eq_ok.mp h
      obtain rfl := Option.some.inj he
      exact ⟨hp, field_of_required hv⟩
    · cases h
  · cases h

theorem path_of_pickRoot_eq_none {resource : Json} (h : pickRoot resource = .ok none) :
    resource.field "path" ≠ .str "/" := by
  unfold pickRoot at h
  split at h
  · split at h
    · obtain ⟨value, -, he⟩ := map_eq_ok.mp h
      cases he
    · assumption
  · cases h

theorem rootOf_of_idsOf {account : Account} {api : Json} {found : FoundApi}
    (h : account.idsOf api = .ok found) :
    api.field "id" = found.restApiId ∧ RootOf account api found := by
  obtain ⟨restApiId, hid, h⟩ := bind_eq_ok.mp h
  dsimp only at h
  cases hn : (api.field "rootResourceId").truthy with
  | true =>
      rw [hn, if_pos rfl] at h
      obtain ⟨root, hroot, h⟩ := bind_eq_ok.mp h
      obtain rfl := pure_eq_ok.mp h
      exact ⟨field_of_required hid, .named hn (pure_eq_ok.mp hroot).symm⟩
  | false =>
      rw [hn, if_neg Bool.false_ne_true] at h
      obtain ⟨root, hroot, h⟩ := bind_eq_ok.mp h
      obtain rfl := pure_eq_ok.mp h
      refine ⟨field_of_required hid, ?_⟩
      obtain ⟨-, -, hroot⟩ := bind_eq_ok.mp hroot
      obtain ⟨listed, hfirst, hroot⟩ := bind_eq_ok.mp hroot
      have hvalue := (pure_eq_ok.mp hroot).symm
      cases listed with
      | none =>
          exact .missing hn
            (fun resource hl => path_of_pickRoot_eq_none (pick_of_firstOnPages_eq_none hfirst hl))
            hvalue
      | some id =>
          obtain ⟨resource, hl, hp⟩ := exists_of_firstOnPages hfirst
          obtain ⟨hpath, hid⟩ := pickRoot_eq_some hp
          exact .listed hn hl hpath (hvalue.trans hid.symm)

/-- A text is the same as no other value. -/
theorem eq_str_of_same {value : Json} {text : Text} (h : Json.Same value (.str text)) :
    value = .str text := by
  unfold Json.Same at h
  cases value with
  | str other => simpa [Json.normal] using h
  | float x =>
      simp only [Json.normal] at h
      split at h <;> cases h
  | null | bool b | int n | arr items | obj fields => cases h

theorem pickNamed_eq_some {api found : Json} {name : Text}
    (h : pickNamed (.str name) api = .ok (some found)) :
    found = api ∧ api.field "name" = .str name := by
  obtain ⟨value, hv, he⟩ := map_eq_ok.mp h
  simp only [Option.ite_none_right_eq_some, Option.some.injEq] at he
  obtain ⟨hs, rfl⟩ := he
  exact ⟨rfl, (field_of_required hv).trans (eq_str_of_same hs)⟩

theorem eq_ok_of_settle {α : Type} {search : Except Stop (Option α)} {found : α}
    (h : settle search = .ok (some found)) : search = .ok (some found) := by
  unfold settle at h
  split at h
  · exact congrArg Except.ok (Except.ok.inj h)
  · cases Except.ok.inj h
  · cases h

/-- What a lookup finds is in the account. -/
theorem has_of_findRestApi {account : Account} {name : Text} {found : FoundApi}
    (h : account.findRestApi (.str name) = .ok (some found)) : account.Has name found := by
  obtain ⟨-, -, h⟩ := bind_eq_ok.mp (eq_ok_of_settle h)
  obtain ⟨picked, hfirst, h⟩ := bind_eq_ok.mp h
  cases picked with
  | none => cases pure_eq_ok.mp h
  | some api =>
      obtain ⟨ids, hids, he⟩ := map_eq_ok.mp h
      obtain rfl := Option.some.inj he
      obtain ⟨item, hl, hp⟩ := exists_of_firstOnPages hfirst
      obtain ⟨rfl, hname⟩ := pickNamed_eq_some hp
      obtain ⟨hid, hroot⟩ := rootOf_of_idsOf hids
      exact ⟨api, hl, hname, hid, hroot⟩

end Account

/-! ## Kept answers -/

namespace LookupSession

variable {account : Account} {session : LookupSession}

/-- Every kept answer on APIs is what the account answers under some name with that key. -/
def KeptFrom (account : Account) (session : LookupSession) : Prop :=
  ∀ key answer, (key, answer) ∈ session.restApis.entries →
    ∃ name, cacheKey name = .ok key ∧ account.findRestApi name = .ok answer

theorem keptFrom_empty (account : Account) : ({} : LookupSession).KeptFrom account :=
  fun _ _ hm => absurd hm List.not_mem_nil

/-- A lookup keeps what it was answered, and nothing else is new. -/
theorem KeptFrom.restApi (h : session.KeptFrom account) (environment : Environment)
    (name : Json) : (session.restApi environment account name).1.KeptFrom account := by
  unfold LookupSession.restApi
  cases hk : cacheKey name with
  | error fault => exact h
  | ok key =>
      cases hu : session.restApis.use? key with
      | some kept =>
          obtain ⟨answer, used⟩ := kept
          intro other found hm
          simp only [hu] at hm
          exact h other found ((Cache.mem_of_use? hu).2 _ hm)
      | none =>
          have hclient : (session.withClient environment (.str "apigateway")).restApis =
              session.restApis := by
            unfold withClient
            split <;> rfl
          cases ha : account.findRestApi name with
          | error fault => simpa only [hu, ha, KeptFrom, hclient] using h
          | ok answer =>
              intro other found hm
              simp only [hu, hclient] at hm
              rcases Cache.mem_of_mem_keep hm with he | hm
              · obtain ⟨rfl, rfl⟩ := Prod.mk.inj he
                exact ⟨name, hk, ha⟩
              · exact h other found hm

theorem eq_of_cacheKey_eq_str {name : Json} {text : Text} (h : cacheKey name = .ok (.str text)) :
    name = .str text := by
  cases name with
  | str other => exact Except.ok.inj h
  | null | bool b | int n | float x | arr items | obj fields => cases h

/-- Where all kept answers are those of the account, so is every answer on a text. -/
theorem findRestApi_of_restApi (h : session.KeptFrom account) {environment : Environment}
    {name : Text} {answer : Option FoundApi}
    (hl : (session.restApi environment account (.str name)).2 = .ok answer) :
    account.findRestApi (.str name) = .ok answer := by
  have hk : cacheKey (.str name) = .ok (.str name) := rfl
  unfold LookupSession.restApi at hl
  rw [hk] at hl
  cases hu : session.restApis.use? (.str name) with
  | some kept =>
      obtain ⟨found, used⟩ := kept
      obtain ⟨other, ho, ha⟩ := h _ _ (Cache.mem_of_use? hu).1
      obtain rfl := eq_of_cacheKey_eq_str ho
      simp only [hu, Except.ok.injEq] at hl
      exact hl ▸ ha
  | none =>
      cases ha : account.findRestApi (.str name) with
      | error fault => simp [hu, ha] at hl
      | ok found => simpa [hu, ha] using hl

end LookupSession

end TableGateway
