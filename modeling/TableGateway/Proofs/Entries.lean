import Mathlib.Data.List.Induction
import Mathlib.Data.List.Nodup
import TableGateway.Entries

/-! # Laws of entries

Looking up, writing and merging, seen through `get?` and `keys`. Entries that are merged under new
keys are appended. -/

namespace TableGateway.Entries

variable {α : Type}

/-! ## Keys and lookups -/

@[simp] theorem get?_nil (key : Text) : get? ([] : List (Text × α)) key = none := rfl

theorem get?_cons (k key : Text) (value : α) (entries : List (Text × α)) :
    get? ((k, value) :: entries) key = if k = key then some value else get? entries key := by
  by_cases h : k = key
  · subst h
    simp [get?]
  · have hk : (key == k) = false := by simpa using fun e => h e.symm
    simp [get?, List.lookup_cons, hk, h]

theorem get?_append (entries more : List (Text × α)) (key : Text) :
    get? (entries ++ more) key = (get? entries key).or (get? more key) :=
  List.lookup_append

@[simp] theorem keys_nil : keys ([] : List (Text × α)) = [] := rfl

@[simp] theorem keys_cons (pair : Text × α) (entries : List (Text × α)) :
    keys (pair :: entries) = pair.1 :: keys entries := rfl

@[simp] theorem keys_append (entries more : List (Text × α)) :
    keys (entries ++ more) = keys entries ++ keys more :=
  List.map_append

theorem mem_keys_of_mem {key : Text} {value : α} {entries : List (Text × α)}
    (h : (key, value) ∈ entries) : key ∈ keys entries :=
  List.mem_map_of_mem (f := Prod.fst) h

/-- A key is absent exactly when looking it up finds nothing. -/
theorem get?_eq_none_iff {entries : List (Text × α)} {key : Text} :
    get? entries key = none ↔ key ∉ keys entries := by
  induction entries with
  | nil => simp
  | cons pair rest ih =>
      obtain ⟨k, v⟩ := pair
      rw [get?_cons]
      by_cases h : k = key
      · simp [h]
      · simp [h, ih, Ne.symm h]

theorem exists_get?_of_mem_keys {entries : List (Text × α)} {key : Text}
    (h : key ∈ keys entries) : ∃ value, get? entries key = some value := by
  cases hg : get? entries key with
  | none => exact absurd h (get?_eq_none_iff.mp hg)
  | some value => exact ⟨value, rfl⟩

theorem mem_of_get? {entries : List (Text × α)} {key : Text} {value : α}
    (h : get? entries key = some value) : (key, value) ∈ entries := by
  induction entries with
  | nil => simp at h
  | cons pair rest ih =>
      obtain ⟨k, v⟩ := pair
      rw [get?_cons] at h
      by_cases hk : k = key
      · simp [hk] at h
        simp [hk, h]
      · simp [hk] at h
        exact List.mem_cons_of_mem _ (ih h)

theorem mem_keys_of_get? {entries : List (Text × α)} {key : Text} {value : α}
    (h : get? entries key = some value) : key ∈ keys entries :=
  mem_keys_of_mem (mem_of_get? h)

/-- With distinct keys every entry is found under its key. -/
theorem get?_of_mem {entries : List (Text × α)} {key : Text} {value : α}
    (hn : (keys entries).Nodup) (h : (key, value) ∈ entries) : get? entries key = some value := by
  induction entries with
  | nil => simp at h
  | cons pair rest ih =>
      obtain ⟨k, v⟩ := pair
      rw [keys_cons, List.nodup_cons] at hn
      rw [get?_cons]
      rcases List.mem_cons.mp h with he | hm
      · obtain ⟨rfl, rfl⟩ := Prod.mk.inj he
        simp
      · have hk : k ≠ key := by
          intro e
          subst e
          exact hn.1 (mem_keys_of_mem hm)
        simpa [hk] using ih hn.2 hm

/-- Keeping some keys keeps what is found under them. -/
theorem get?_filter (keep : Text → Bool) {key : Text} (h : keep key = true)
    (entries : List (Text × α)) :
    get? (entries.filter (keep ·.1)) key = get? entries key := by
  induction entries with
  | nil => rfl
  | cons pair rest ih =>
      obtain ⟨k, v⟩ := pair
      by_cases hk : k = key
      · simp [hk, h, get?_cons]
      · cases hkeep : keep k <;> simp [hkeep, get?_cons, hk, ih]

/-! ## Writing one entry -/

theorem get?_put (key other : Text) (value : α) (entries : List (Text × α)) :
    get? (put key value entries) other =
      if other = key then some value else get? entries other := by
  by_cases h : other = key
  · simp [h]
  · simp [h, get?_put_of_ne h]

theorem put_of_not_mem {key : Text} (value : α) {entries : List (Text × α)}
    (h : key ∉ keys entries) : put key value entries = entries ++ [(key, value)] := by
  induction entries with
  | nil => rfl
  | cons pair rest ih =>
      simp only [keys_cons, List.mem_cons, not_or] at h
      simp [put, Ne.symm h.1, ih h.2]

/-- Writing over a key replaces its value in place. -/
theorem put_of_mem {key : Text} (value : α) {entries : List (Text × α)}
    (hn : (keys entries).Nodup) (h : key ∈ keys entries) :
    put key value entries =
      entries.map fun entry => (entry.1, if entry.1 = key then value else entry.2) := by
  induction entries with
  | nil => cases h
  | cons pair rest ih =>
      rw [keys_cons, List.nodup_cons] at hn
      by_cases hk : pair.1 = key
      · have hrest : rest.map (fun entry => (entry.1, if entry.1 = key then value else entry.2)) =
            rest := by
          refine (List.map_congr_left ?_).trans (List.map_id rest)
          intro entry he
          have hne : entry.1 ≠ key := by
            intro hentry
            exact hn.1 (hk ▸ hentry ▸ mem_keys_of_mem he)
          simp [hne]
        simp [put, hk, hrest]
      · have hmem : key ∈ keys rest := by simpa [keys_cons, Ne.symm hk] using h
        simp [put, hk, ih hn.2 hmem]

/-- Writing the value that a key has changes nothing. -/
theorem put_of_get? {key : Text} {value : α} {entries : List (Text × α)}
    (h : get? entries key = some value) : put key value entries = entries := by
  induction entries with
  | nil => cases h
  | cons pair rest ih =>
      obtain ⟨k, v⟩ := pair
      rw [get?_cons] at h
      by_cases hk : k = key
      · rw [if_pos hk, Option.some.injEq] at h
        simp [put, hk, h]
      · rw [if_neg hk] at h
        simp [put, hk, ih h]

/-- Writing leaves the other entries as they are, and in their order. -/
theorem filter_put (keep : Text → Bool) {key : Text} (h : keep key = false) (value : α)
    (entries : List (Text × α)) :
    (put key value entries).filter (keep ·.1) = entries.filter (keep ·.1) := by
  induction entries with
  | nil => simp [put, h]
  | cons pair rest ih =>
      by_cases hk : pair.1 = key
      · simp [put, hk, h]
      · simp [put, hk, List.filter_cons, ih]

theorem mem_of_mem_put {key : Text} {value : α} {entries : List (Text × α)} {entry : Text × α}
    (h : entry ∈ put key value entries) : entry = (key, value) ∨ entry ∈ entries := by
  induction entries with
  | nil => exact Or.inl (List.mem_singleton.mp h)
  | cons pair rest ih =>
      by_cases hk : pair.1 = key
      · rw [put, if_pos hk, List.mem_cons] at h
        exact h.imp_right (List.mem_cons_of_mem pair)
      · rw [put, if_neg hk, List.mem_cons] at h
        rcases h with rfl | h
        · exact Or.inr List.mem_cons_self
        · exact (ih h).imp_right (List.mem_cons_of_mem pair)

theorem mem_keys_put {key other : Text} {value : α} {entries : List (Text × α)} :
    other ∈ keys (put key value entries) ↔ other = key ∨ other ∈ keys entries := by
  rw [keys_put]
  by_cases h : key ∈ keys entries
  · simp only [h, if_true]
    constructor
    · exact Or.inr
    · rintro (rfl | ho)
      · exact h
      · exact ho
  · simp [h, or_comm]

/-- Writing adds an entry for a new key only. -/
theorem length_put (key : Text) (value : α) (entries : List (Text × α)) :
    (put key value entries).length =
      if key ∈ keys entries then entries.length else entries.length + 1 := by
  have h : (keys (put key value entries)).length = _ :=
    congrArg List.length (keys_put key value entries)
  rw [keys, List.length_map] at h
  rw [h]
  split <;> simp [keys]

theorem nodup_keys_put {key : Text} (value : α) {entries : List (Text × α)}
    (h : (keys entries).Nodup) : (keys (put key value entries)).Nodup := by
  rw [keys_put]
  by_cases hk : key ∈ keys entries
  · simpa [hk] using h
  · simpa [hk] using h.concat hk

/-! ## Merging -/

@[simp] theorem merge_nil (base : List (Text × α)) : merge base [] = base := rfl

theorem merge_cons (base newer : List (Text × α)) (pair : Text × α) :
    merge base (pair :: newer) = merge (put pair.1 pair.2 base) newer := rfl

theorem merge_append (base newer last : List (Text × α)) :
    merge base (newer ++ last) = merge (merge base newer) last :=
  List.foldl_append

@[simp] theorem merge_concat (base newer : List (Text × α)) (pair : Text × α) :
    merge base (newer ++ [pair]) = put pair.1 pair.2 (merge base newer) :=
  merge_append base newer [pair]

theorem mem_keys_merge {base newer : List (Text × α)} {key : Text} :
    key ∈ keys (merge base newer) ↔ key ∈ keys base ∨ key ∈ keys newer := by
  induction newer generalizing base with
  | nil => simp
  | cons pair rest ih =>
      rw [merge_cons, ih, mem_keys_put, keys_cons, List.mem_cons]
      tauto

/-- What stands in merged entries was in one of the two lists. -/
theorem mem_or_mem_of_mem_merge {base newer : List (Text × α)} {entry : Text × α}
    (h : entry ∈ merge base newer) : entry ∈ base ∨ entry ∈ newer := by
  induction newer generalizing base with
  | nil => exact Or.inl h
  | cons pair rest ih =>
      rw [merge_cons] at h
      rcases ih h with h | h
      · rcases mem_of_mem_put h with rfl | h
        · exact Or.inr List.mem_cons_self
        · exact Or.inl h
      · exact Or.inr (List.mem_cons_of_mem pair h)

theorem nodup_keys_merge {base : List (Text × α)} (newer : List (Text × α))
    (h : (keys base).Nodup) : (keys (merge base newer)).Nodup := by
  induction newer generalizing base with
  | nil => simpa using h
  | cons pair rest ih => exact ih (nodup_keys_put pair.2 h)

/-- A key that is not merged keeps its value. -/
theorem get?_merge_of_not_mem {base newer : List (Text × α)} {key : Text}
    (h : key ∉ keys newer) : get? (merge base newer) key = get? base key := by
  induction newer generalizing base with
  | nil => simp
  | cons pair rest ih =>
      simp only [keys_cons, List.mem_cons, not_or] at h
      rw [merge_cons, ih h.2, get?_put_of_ne h.1]

/-- A key that is merged once has its new value. -/
theorem get?_merge_of_get? {base newer : List (Text × α)} {key : Text} {value : α}
    (hn : (keys newer).Nodup) (h : get? newer key = some value) :
    get? (merge base newer) key = some value := by
  induction newer generalizing base with
  | nil => simp at h
  | cons pair rest ih =>
      rw [keys_cons, List.nodup_cons] at hn
      rw [merge_cons]
      rw [get?_cons] at h
      by_cases hk : pair.1 = key
      · rw [get?_merge_of_not_mem (hk ▸ hn.1), get?_put]
        simpa [hk] using h
      · exact ih hn.2 (by simpa [hk] using h)

/-- Merging what is there already changes nothing. -/
theorem merge_of_get? {base newer : List (Text × α)}
    (h : ∀ pair ∈ newer, get? base pair.1 = some pair.2) : merge base newer = base := by
  induction newer with
  | nil => rfl
  | cons pair rest ih =>
      rw [merge_cons, put_of_get? (h pair List.mem_cons_self)]
      exact ih fun other ho => h other (List.mem_cons_of_mem pair ho)

/-- Merging leaves the entries of other keys as they are, and in their order. -/
theorem filter_merge (keep : Text → Bool) (base : List (Text × α)) {newer : List (Text × α)}
    (h : ∀ key ∈ keys newer, keep key = false) :
    (merge base newer).filter (keep ·.1) = base.filter (keep ·.1) := by
  induction newer generalizing base with
  | nil => rfl
  | cons pair rest ih =>
      rw [merge_cons, ih _ fun key hk => h key (List.mem_cons_of_mem pair.1 hk),
        filter_put keep (h pair.1 List.mem_cons_self)]

/-- When entries of one key are all the same, merging them keeps them all. -/
theorem get?_merge_nil_iff {newer : List (Text × α)}
    (h : ∀ pair ∈ newer, ∀ other ∈ newer, pair.1 = other.1 → pair = other) {key : Text}
    {value : α} : get? (merge [] newer) key = some value ↔ (key, value) ∈ newer := by
  induction newer using List.reverseRecOn with
  | nil => simp
  | append_singleton newer pair ih =>
      have hpair : pair ∈ newer ++ [pair] := List.mem_append_right _ List.mem_cons_self
      have hnewer : ∀ pair ∈ newer, ∀ other ∈ newer, pair.1 = other.1 → pair = other :=
        fun _ hp _ ho => h _ (List.mem_append_left _ hp) _ (List.mem_append_left _ ho)
      rw [merge_concat, get?_put, List.mem_append, List.mem_singleton]
      by_cases hk : key = pair.1
      · subst hk
        rw [if_pos rfl, Option.some_inj]
        constructor
        · rintro rfl
          exact Or.inr rfl
        · rintro (hm | he)
          · rw [← h _ (List.mem_append_left _ hm) _ hpair rfl]
          · rw [← he]
      · rw [if_neg hk, ih hnewer]
        exact ⟨Or.inl, fun hm => hm.resolve_right fun he => hk (congrArg Prod.fst he)⟩

/-- Merging distinct keys that are all new appends them. -/
theorem merge_eq_append {base newer : List (Text × α)} (hn : (keys newer).Nodup)
    (h : ∀ key ∈ keys newer, key ∉ keys base) : merge base newer = base ++ newer := by
  induction newer generalizing base with
  | nil => simp
  | cons pair rest ih =>
      rw [keys_cons, List.nodup_cons] at hn
      rw [merge_cons, put_of_not_mem pair.2 (h pair.1 (by simp)), ih hn.2]
      · simp
      · intro key hk
        rw [keys_append, List.mem_append, not_or]
        refine ⟨h key (by simp [hk]), ?_⟩
        intro he
        obtain rfl : key = pair.1 := by simpa [keys] using he
        exact hn.1 hk

/-- Merged entries are those of the base, with their new values in place, and then the others in
their order. -/
theorem merge_eq_replaced_append {base newer : List (Text × α)} (hb : (keys base).Nodup)
    (hn : (keys newer).Nodup) :
    merge base newer =
      base.map (fun entry => (entry.1, (get? newer entry.1).getD entry.2)) ++
        newer.filter fun entry => entry.1 ∉ keys base := by
  induction newer generalizing base with
  | nil => simp
  | cons pair rest ih =>
      obtain ⟨key, value⟩ := pair
      rw [keys_cons, List.nodup_cons] at hn
      obtain ⟨hkey, hrest⟩ := hn
      have hnone : get? rest key = none := get?_eq_none_iff.mpr hkey
      rw [merge_cons, ih (nodup_keys_put value hb) hrest]
      by_cases h : key ∈ keys base
      · have hkeys : keys (put key value base) = keys base := by rw [keys_put, if_pos h]
        rw [hkeys, put_of_mem value hb h, List.map_map, List.filter_cons_of_neg (by simpa using h)]
        congr 1
        apply List.map_congr_left
        intro entry _
        by_cases he : entry.1 = key
        · simp [get?_cons, he, hnone]
        · simp [get?_cons, he, Ne.symm he]
      · have hothers : rest.filter (fun entry => entry.1 ∉ keys base ++ [key]) =
            rest.filter fun entry => entry.1 ∉ keys base := by
          apply List.filter_congr
          intro entry he
          have hne : entry.1 ≠ key := fun hentry => hkey (hentry ▸ mem_keys_of_mem he)
          simp [hne]
        have hbase : ∀ entry ∈ base,
            (entry.1, (get? rest entry.1).getD entry.2) =
              (entry.1, (get? ((key, value) :: rest) entry.1).getD entry.2) := by
          intro entry he
          have hne : key ≠ entry.1 := fun hentry => h (hentry ▸ mem_keys_of_mem he)
          simp [get?_cons, hne]
        have hkeys : keys (put key value base) = keys base ++ [key] := by rw [keys_put, if_neg h]
        rw [hkeys, hothers, put_of_not_mem value h, List.filter_cons_of_pos (by simpa using h),
          List.map_append, List.map_congr_left hbase, List.append_assoc]
        simp [hnone]

end TableGateway.Entries
