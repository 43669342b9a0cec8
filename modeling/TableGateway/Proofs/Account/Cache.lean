import TableGateway.Account.Lookup

/-! # Laws of bounded caches

A cache whose answers are those of a search stays so when it is used, when it keeps an answer and
when it loses one, and a search through it has the result of the search itself. -/

namespace TableGateway.Cache

variable {κ α ε : Type} {cache : Cache κ α}

/-- A used answer was kept, and its use brings no other answers in. -/
theorem mem_of_use? [DecidableEq κ] {key : κ} {value : α} {used : Cache κ α}
    (h : cache.use? key = some (value, used)) :
    (key, value) ∈ cache.entries ∧ ∀ entry ∈ used.entries, entry ∈ cache.entries := by
  obtain ⟨found, hl, he⟩ := Option.map_eq_some_iff.mp h
  obtain ⟨rfl, rfl⟩ := Prod.mk.inj he
  obtain ⟨before, after, hs, -⟩ := List.lookup_eq_some_iff.mp hl
  have hm : (key, found) ∈ cache.entries := by simp [hs]
  refine ⟨hm, ?_⟩
  intro entry he
  rcases List.mem_cons.mp he with rfl | he
  · exact hm
  · exact (List.mem_filter.mp he).1

/-- What a cache holds after it has kept an answer is that answer, or was there before. -/
theorem mem_of_mem_keep {key : κ} {value : α} {entry : κ × α}
    (h : entry ∈ (cache.keep key value).entries) : entry = (key, value) ∨ entry ∈ cache.entries :=
  List.mem_cons.mp (List.mem_of_mem_take h)

/-- Every kept answer is what the search finds under its key. -/
def Recalls (find : κ → Except ε α) (cache : Cache κ α) : Prop :=
  ∀ entry ∈ cache.entries, find entry.1 = .ok entry.2

theorem recalls_empty (find : κ → Except ε α) : Recalls find {} :=
  fun _ h => absurd h List.not_mem_nil

/-! ## Searching through a cache -/

variable [DecidableEq κ]

/-- A search whose result is kept, unless it fails. -/
def seek (cache : Cache κ α) (key : κ) (search : Except ε α) : Except ε α × Cache κ α :=
  match cache.use? key with
  | some (value, used) => (.ok value, used)
  | none => match search with
    | .ok value => (.ok value, cache.keep key value)
    | .error failure => (.error failure, cache)

theorem seek_of_use? {key : κ} {value : α} {used : Cache κ α}
    (h : cache.use? key = some (value, used)) (search : Except ε α) :
    cache.seek key search = (.ok value, used) := by
  simp [seek, h]

variable {find : κ → Except ε α}

/-- Nothing shows whether an answer was kept or found anew. -/
theorem Recalls.seek_fst (h : cache.Recalls find) (key : κ) :
    (cache.seek key (find key)).1 = find key := by
  cases hu : cache.use? key with
  | some kept =>
      obtain ⟨value, used⟩ := kept
      rw [seek_of_use? hu]
      exact (h _ (mem_of_use? hu).1).symm
  | none => cases hf : find key <;> simp [seek, hu]

theorem Recalls.seek_snd (h : cache.Recalls find) (key : κ) :
    (cache.seek key (find key)).2.Recalls find := by
  cases hu : cache.use? key with
  | some kept =>
      obtain ⟨value, used⟩ := kept
      rw [seek_of_use? hu]
      exact fun entry he => h entry ((mem_of_use? hu).2 entry he)
  | none =>
      cases hf : find key with
      | error failure => simpa [seek, hu] using h
      | ok value =>
          intro entry he
          simp only [seek, hu] at he
          rcases mem_of_mem_keep he with rfl | he
          · exact hf
          · exact h entry he

end TableGateway.Cache
