import TableGateway.Text.Basic

/-!
# Entries in order of first insertion

A finite map as a list of pairs. Writing to a key that is there replaces its value in place, writing
to a new key appends, so the list shows the order in which the keys were first written.
-/

namespace TableGateway.Entries

variable {α : Type}

def get? (entries : List (Text × α)) (key : Text) : Option α := entries.lookup key

/-- Gives `key` the value `value`, in place when the key is there and at the end otherwise. -/
def put (key : Text) (value : α) : List (Text × α) → List (Text × α)
  | [] => [(key, value)]
  | (k, v) :: rest => if k = key then (key, value) :: rest else (k, v) :: put key value rest

/-- Writes all pairs of `newer` over `base`, from left to right. -/
def merge (base newer : List (Text × α)) : List (Text × α) :=
  newer.foldl (fun entries pair => put pair.1 pair.2 entries) base

def keys (entries : List (Text × α)) : List Text := entries.map Prod.fst

@[simp] theorem get?_put_self (key : Text) (value : α) (entries : List (Text × α)) :
    get? (put key value entries) key = some value := by
  unfold get?
  induction entries with
  | nil => simp [put]
  | cons pair rest ih =>
      obtain ⟨k, v⟩ := pair
      by_cases h : k = key
      · simp [put, h]
      · have h' : (key == k) = false := by simpa using fun e => h e.symm
        simp [put, h, List.lookup_cons, h', ih]

theorem get?_put_of_ne {key other : Text} (h : other ≠ key) (value : α)
    (entries : List (Text × α)) :
    get? (put key value entries) other = get? entries other := by
  unfold get?
  have hk : (other == key) = false := by simpa using h
  induction entries with
  | nil => simp [put, List.lookup_cons, hk]
  | cons pair rest ih =>
      obtain ⟨k, v⟩ := pair
      by_cases he : k = key
      · subst he
        simp [put, List.lookup_cons, hk]
      · simp [put, he, List.lookup_cons, ih]

/-- Writing changes the keys only by appending a new one. -/
theorem keys_put (key : Text) (value : α) (entries : List (Text × α)) :
    keys (put key value entries) =
      if key ∈ keys entries then keys entries else keys entries ++ [key] := by
  induction entries with
  | nil => simp [put, keys]
  | cons pair rest ih =>
      by_cases h : pair.1 = key
      · simp [put, keys, h]
      · have h' : ¬ key = pair.1 := fun e => h e.symm
        simp only [keys] at ih
        by_cases hm : key ∈ List.map Prod.fst rest <;> simp [put, keys, h, h', ih, hm]

end TableGateway.Entries
