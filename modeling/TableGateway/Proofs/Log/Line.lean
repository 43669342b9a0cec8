import TableGateway.Log.Logger
import TableGateway.Proofs.Json.RoundTrip
import TableGateway.Proofs.Log.Record
import TableGateway.Proofs.Outcome

/-! # What lines decode to

A line is printable ASCII and holds its record as JSON: the time, the level, the message and the
correlation ID, then the fields. So no text of a record can end the line or add another one. -/

namespace TableGateway.Log

namespace Record

/-! ## Entries -/

/-- The entries that a field of their name replaces. -/
def replaceable : List Text := ["timestamp", "correlationId"]

/-- The entries that a record shows: a time and a correlation ID that a field may replace, and the
other fields in their order; none of them is null. -/
def shown (record : Record) (timestamp : Text) (correlationId : Json) : List (Text × Json) :=
  let first : List (Text × Json) :=
    [("timestamp", (Entries.get? record.fields "timestamp").getD (.str timestamp)),
      ("level", .str record.level.name), ("message", record.message),
      ("correlationId", (Entries.get? record.fields "correlationId").getD correlationId)]
  let others := record.fields.filter fun field => !replaceable.contains field.1
  (first ++ others).filter fun entry => entry.2 ≠ .null

/-- Whether a record can be logged and read back: no field has a reserved name, and the message and
the fields are portable. -/
structure Loggable (record : Record) : Prop where
  names : ∀ key ∈ Entries.keys record.fields, key ∉ reservedFields
  message : record.message.Portable
  fields : (Json.obj record.fields).Portable

theorem Loggable.nodup_keys {record : Record} (h : record.Loggable) :
    (Entries.keys record.fields).Nodup := by
  cases h.fields with
  | obj hn _ _ => exact hn

theorem Loggable.record?_eq {record : Record} (h : record.Loggable) :
    record? record.level record.message record.fields = some record := by
  have hnames : (Entries.keys record.fields).any (reservedFields.contains ·) = false := by
    rw [List.any_eq_false]
    intro key hk
    simpa using h.names key hk
  simp only [record?, hnames, Bool.false_eq_true, if_false]

theorem Loggable.toJson_eq_shown {record : Record} (h : record.Loggable) (timestamp : Text)
    (correlationId : Json) :
    record.toJson timestamp correlationId = .obj (record.shown timestamp correlationId) := by
  have hlevel : Entries.get? record.fields "level" = none :=
    Entries.get?_eq_none_iff.mpr fun hk => h.names _ hk (by decide)
  have hmessage : Entries.get? record.fields "message" = none :=
    Entries.get?_eq_none_iff.mpr fun hk => h.names _ hk (by decide)
  have hothers : ∀ field ∈ record.fields,
      decide (field.1 ∉ ownNames) = !replaceable.contains field.1 := by
    intro field hf
    have hname := h.names field.1 (Entries.mem_keys_of_mem hf)
    simp only [reservedFields, List.mem_cons, List.not_mem_nil, or_false, not_or] at hname
    simp [ownNames, replaceable, hname]
  have hown : ownNames.Nodup := by decide
  have hentries : record.entries timestamp correlationId = _ :=
    Entries.merge_eq_replaced_append hown h.nodup_keys
  have hkeys : Entries.keys [("timestamp", Json.str timestamp), ("level", .str record.level.name),
    ("message", record.message), ("correlationId", correlationId)] = ownNames := rfl
  rw [hkeys, List.filter_congr hothers] at hentries
  rw [toJson, hentries]
  simp only [List.map_cons, List.map_nil, hlevel, hmessage, Option.getD_none]
  rfl

/-! ## Lines -/

theorem Loggable.portable_toJson {record : Record} (h : record.Loggable) {timestamp : Text}
    (ht : Text.Scalar timestamp) {correlationId : Json} (hid : correlationId.Portable) :
    (record.toJson timestamp correlationId).Portable := by
  have hown : ∀ name ∈ ownNames, Text.Scalar name := by decide
  have hlevel : Text.Scalar record.level.name := by
    cases record.level <;> decide
  have hentries : ∀ entry ∈ record.entries timestamp correlationId,
      Text.Scalar entry.1 ∧ entry.2.Portable := by
    intro entry he
    rcases Entries.mem_or_mem_of_mem_merge he with he | he
    · simp only [List.mem_cons, List.not_mem_nil, or_false] at he
      rcases he with rfl | rfl | rfl | rfl
      · exact ⟨hown "timestamp" (by decide), .str ht⟩
      · exact ⟨hown "level" (by decide), .str hlevel⟩
      · exact ⟨hown "message" (by decide), h.message⟩
      · exact ⟨hown "correlationId" (by decide), hid⟩
    · cases h.fields with
      | obj _ hk hv => exact ⟨hk entry he, hv entry he⟩
  apply Json.Portable.obj
  · have hn := nodup_keys_entries record timestamp correlationId
    exact (List.filter_sublist.map Prod.fst).nodup hn
  · intro entry he
    exact (hentries entry (List.mem_of_mem_filter he)).1
  · intro entry he
    exact (hentries entry (List.mem_of_mem_filter he)).2

theorem Loggable.parse_line {record : Record} (h : record.Loggable) {timestamp : Text}
    (ht : Text.Scalar timestamp) {correlationId : Json} (hid : correlationId.Portable) :
    Json.parse (record.line timestamp correlationId) =
      .ok (.obj (record.shown timestamp correlationId)) := by
  rw [line, (h.portable_toJson ht hid).parse_render, h.toJson_eq_shown]

theorem Loggable.allPrintable_line {record : Record} (h : record.Loggable) {timestamp : Text}
    (ht : Text.Scalar timestamp) {correlationId : Json} (hid : correlationId.Portable) :
    Json.AllPrintable (record.line timestamp correlationId).toList := by
  rw [line, Json.render, String.toList_ofList]
  exact (h.portable_toJson ht hid).allPrintable

end Record

namespace Session

variable {session : Session} {logger : Logger}

/-- What a logger prints decodes to the records that its level lets through, in their order. -/
theorem mapM_parse_lines {records : List Record} (h : ∀ record ∈ records, record.Loggable)
    (hclock : Text.Scalar session.clock) (hid : logger.correlationId.Portable) :
    (session.lines logger records).mapM Json.parse =
      .ok ((records.filter fun record => session.tree.enabled logger.name record.level).map
        fun record => .obj (record.shown session.clock logger.correlationId)) := by
  rw [lines, List.mapM_map]
  apply mapM_eq_ok_map
  intro record hr
  exact (h record (List.mem_of_mem_filter hr)).parse_line hclock hid

/-- A message that is logged at an enabled level, with fields of which none has a reserved name, is
printed as exactly one line. It is printable, and it decodes to the time, the level, the message and
the correlation ID, in this order, and then the fields. -/
theorem lines_decode {level : Level} {message : Json} {fields : List (Text × Json)}
    (hon : session.tree.enabled logger.name level = true)
    (hnames : ∀ key ∈ Entries.keys fields, key ∉ reservedFields)
    (hmessage : message.Portable) (hfields : (Json.obj fields).Portable)
    (hclock : Text.Scalar session.clock) (hid : logger.correlationId.Portable) :
    ∃ record line, record? level message fields = some record ∧
      session.lines logger [record] = [line] ∧ Json.AllPrintable line.toList ∧
      Json.parse line =
        .ok (.obj (Record.shown ⟨level, message, fields⟩ session.clock logger.correlationId)) := by
  have h : Record.Loggable ⟨level, message, fields⟩ := ⟨hnames, hmessage, hfields⟩
  refine ⟨_, _, h.record?_eq, ?_, h.allPrintable_line hclock hid, h.parse_line hclock hid⟩
  simp [lines, hon]

/-- A session after a logger was opened that lets everything through. -/
def debugging : Session :=
  (openLogger { clock := "2024-05-01T10:00:00+00:00" } (some "DEBUG") (.str "app")
    (.str "pass-1")).1

/-- A message with escapes of every class, and fields that replace the time and the correlation ID:
the one is shown in its place, the other, which is null, is missing. -/
theorem lines_decode_replacedTime :
    ∃ record line,
      record? .warning (.arr [.str "a\"\\\té😀", .null, .int (-12)])
          [("timestamp", .str "late"), ("user", .null), ("correlationId", .null),
            ("nested", .obj [("gone", .null)])] = some record ∧
        debugging.lines ⟨"app", .str "pass-1"⟩ [record] = [line] ∧
        Json.AllPrintable line.toList ∧
        Json.parse line = .ok (.obj [("timestamp", .str "late"), ("level", .str "WARNING"),
          ("message", .arr [.str "a\"\\\té😀", .null, .int (-12)]),
          ("nested", .obj [("gone", .null)])]) := by
  have hmessage : (Json.arr [.str "a\"\\\té😀", .null, .int (-12)]).Portable := by
    apply Json.Portable.arr
    simp only [List.forall_mem_cons]
    exact ⟨.str (by decide), .null, .int (by decide), nofun⟩
  have hnested : (Json.obj [("gone", .null)]).Portable := by
    apply Json.Portable.obj (by decide) (by decide)
    simp only [List.forall_mem_cons]
    exact ⟨.null, nofun⟩
  have hfields : (Json.obj [("timestamp", .str "late"), ("user", .null), ("correlationId", .null),
      ("nested", .obj [("gone", .null)])]).Portable := by
    apply Json.Portable.obj (by decide) (by decide)
    simp only [List.forall_mem_cons]
    exact ⟨.str (by decide), .null, .null, hnested, nofun⟩
  exact @lines_decode debugging ⟨"app", .str "pass-1"⟩ .warning _ _ (by decide) (by decide)
    hmessage hfields (by decide) (.str (by decide))

end Session

end TableGateway.Log
