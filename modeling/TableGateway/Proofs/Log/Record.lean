import TableGateway.Log.Record
import TableGateway.Proofs.Entries

/-! # What lines show

A line shows the level of its record, and each field whose name is not one of the first entries. -/

namespace TableGateway

/-- Leaving out null entries changes no field of an object. -/
theorem Entries.getD_get?_filter_ne_null {entries : List (Text × Json)}
    (hn : (keys entries).Nodup) (key : Text) :
    (get? (entries.filter fun entry => entry.2 ≠ .null) key).getD .null =
      (get? entries key).getD .null := by
  induction entries with
  | nil => rfl
  | cons entry rest ih =>
      obtain ⟨k, value⟩ := entry
      rw [keys_cons, List.nodup_cons] at hn
      by_cases hv : value = .null
      · subst hv
        rw [List.filter_cons_of_neg (by simp), ih hn.2, get?_cons]
        split
        next hk =>
          rw [get?_eq_none_iff.mpr (hk ▸ hn.1)]
          rfl
        next => rfl
      · rw [List.filter_cons_of_pos (by simpa using hv), get?_cons, get?_cons]
        split
        · rfl
        · exact ih hn.2

namespace Log.Record

/-- Whether the lines of a record show a level and fields, whatever the time and the correlation
ID. -/
structure Shows (record : Record) (level : Level) (fields : List (Text × Json)) : Prop where
  rank : record.level = level
  level : ∀ timestamp correlationId,
    (record.toJson timestamp correlationId).field "level" = .str level.name
  fields : ∀ timestamp correlationId, ∀ field ∈ fields,
    (record.toJson timestamp correlationId).field field.1 = field.2

/-- The names of the entries that every record has. -/
def ownNames : List Text := ["timestamp", "level", "message", "correlationId"]

theorem nodup_keys_entries (record : Record) (timestamp : Text) (correlationId : Json) :
    (Entries.keys (record.entries timestamp correlationId)).Nodup := by
  have hown : ownNames.Nodup := by decide
  exact Entries.nodup_keys_merge record.fields hown

theorem field_toJson (record : Record) (timestamp : Text) (correlationId : Json) (name : Text) :
    (record.toJson timestamp correlationId).field name =
      (Entries.get? (record.entries timestamp correlationId) name).getD .null :=
  Entries.getD_get?_filter_ne_null (nodup_keys_entries record timestamp correlationId) name

/-- A record shows its level, its message and its fields, when these are distinct and none is named
like an entry that every record has. -/
theorem shows_fields (record : Record) (h : (ownNames ++ Entries.keys record.fields).Nodup) :
    record.Shows record.level (("message", record.message) :: record.fields) := by
  obtain ⟨-, hn, hown⟩ := List.nodup_append'.mp h
  refine ⟨rfl, ?_, ?_⟩
  · intro timestamp correlationId
    have hlevel : ("level" : Text) ∉ Entries.keys record.fields := hown (by decide)
    rw [field_toJson, entries, Entries.get?_merge_of_not_mem hlevel]
    rfl
  · intro timestamp correlationId field hfield
    rw [field_toJson, entries]
    rcases List.mem_cons.mp hfield with rfl | hfield
    · have hmessage : ("message" : Text) ∉ Entries.keys record.fields := hown (by decide)
      rw [Entries.get?_merge_of_not_mem hmessage]
      rfl
    · rw [Entries.get?_merge_of_get? hn (Entries.get?_of_mem hn hfield)]
      rfl

theorem Shows.of_subset {record : Record} {level : Level} {fields fewer : List (Text × Json)}
    (h : record.Shows level fields) (hsub : fewer ⊆ fields) : record.Shows level fewer :=
  ⟨h.rank, h.level, fun timestamp correlationId field hfield =>
    h.fields timestamp correlationId field (hsub hfield)⟩

end Log.Record

end TableGateway
