import TableGateway.Proofs.Compile.Records
import TableGateway.Proofs.Log.Logger
import TableGateway.Proofs.Log.Record
import TableGateway.Proofs.Report

/-! # What a compilation prints

A compilation tells of every event in order, and then of its result. The level of the logger decides
which of these records are printed, and nothing else. -/

namespace TableGateway.Compile

/-! ## Records and results -/

/-- The warnings on an event: one for each key without a source, the hash key first. -/
def Warned (index : Nat) (event : Event) (records : List Log.Record) : Prop :=
  List.Forall₂
    (fun role record => record.Shows .warning
      [("message", .str (Warning.message ⟨index, role⟩)), ("index", .int index)])
    event.unresolvedKeys records

/-- What is told of the event at an index: the warnings on it, and then that it was compiled, or
else the one error that the result has on it. -/
inductive Told (result : Result) (index : Nat) (event : Event) : List Log.Record → Prop where
  | compiled {warnings : List Log.Record} {last : Log.Record}
      (warned : Warned index event warnings)
      (held : ⟨event.methodLogicalId, event⟩ ∈ result.compiled)
      (clean : ∀ skipped ∈ result.errors, skipped.index ≠ index)
      (shown : last.Shows .debug
        [("logicalId", .str event.methodLogicalId), ("index", .int index)]) :
      Told result index event (warnings ++ [last])
  | skipped {warnings : List Log.Record} {last : Log.Record} {skipped : Skipped}
      (warned : Warned index event warnings)
      (held : skipped ∈ result.errors)
      (own : skipped.index = index)
      (only : ∀ other ∈ result.errors, other.index = index → other = skipped)
      (shown : last.Shows .error
        [("index", skipped.toJson.field "index"),
          ("errorCode", skipped.toJson.field "errorCode")]) :
      Told result index event (warnings ++ [last])

/-- What is told of a whole compilation: of each event in order, and last the lengths of the lists
in the result. -/
inductive Narrates (events : List Event) (result : Result) : List Log.Record → Prop where
  | intro {parts : List (List Log.Record)} {summary : Log.Record}
      (told : List.Forall₂ (fun indexed => Told result indexed.2 indexed.1) events.zipIdx parts)
      (shown : summary.Shows .info
        [("methods", .int result.methodIds.length), ("errors", .int result.errors.length),
          ("warnings", .int result.warnings.length)]) :
      Narrates events result (parts.flatten ++ [summary])

theorem warned_warningRecords (index : Nat) (event : Event) :
    Warned index event (warningRecords index event) := by
  unfold Warned warningRecords warningsOf
  rw [List.map_map, List.forall₂_map_right_iff, List.forall₂_same]
  intro role _
  have hshows := (warningRecord event ⟨index, role⟩).shows_fields
    (by simp only [warningRecord, Entries.keys_cons, Entries.keys_nil]; decide)
  apply hshows.of_subset
  simp [warningRecord]

theorem shows_compiledRecord (index : Nat) (logicalId : Text) :
    (compiledRecord index logicalId).Shows .debug
      [("logicalId", .str logicalId), ("index", .int index)] := by
  have hshows := (compiledRecord index logicalId).shows_fields
    (by simp only [compiledRecord, Entries.keys_cons, Entries.keys_nil]; decide)
  exact hshows.of_subset (List.subset_cons_self _ _)

/-- The record on a skipped event shows what the entry on it shows. -/
theorem shows_skippedRecord (skipped : Skipped) :
    (skippedRecord skipped).Shows .error
      [("index", skipped.toJson.field "index"),
        ("errorCode", skipped.toJson.field "errorCode")] := by
  have hshows := (skippedRecord skipped).shows_fields
    (by simp only [skippedRecord, Entries.keys_cons, Entries.keys_nil]; decide)
  rw [skipped.field_index, skipped.field_code]
  exact hshows.of_subset (List.subset_cons_self _ _)

theorem shows_summaryRecord (result : Result) :
    (summaryRecord result).Shows .info
      [("methods", .int result.methodIds.length), ("errors", .int result.errors.length),
        ("warnings", .int result.warnings.length)] := by
  have hshows := (summaryRecord result).shows_fields
    (by simp only [summaryRecord, Entries.keys_cons, Entries.keys_nil]; decide)
  rw [Result.methodIds, List.length_map]
  exact hshows.of_subset (List.subset_cons_self _ _)

section Narrates

variable (api : Api) (events : List Event) (given : ResourceMap)

/-- What is told of an event agrees with what the result holds about it. -/
theorem told_narration {indexed : Event × Nat} (h : indexed ∈ events.zipIdx) :
    Told (settleAll api { resources := given } 0 events) indexed.2 indexed.1
      (narration indexed.2 indexed.1
        ((settleAll api { resources := given } 0 events).failureAt? indexed.2)) := by
  obtain ⟨event, index⟩ := indexed
  have hwarned := warned_warningRecords index event
  cases hf : (settleAll api { resources := given } 0 events).failureAt? index with
  | none =>
      exact .compiled hwarned (mem_compiled_of_failureAt?_eq_none api given events h hf)
        (Result.failureAt?_eq_none_iff.mp hf) (shows_compiledRecord index _)
  | some failure =>
      refine .skipped hwarned (Result.mem_errors_of_failureAt? hf) rfl ?_ (shows_skippedRecord _)
      rintro ⟨other, otherFailure⟩ hm rfl
      have hother := failureAt?_of_mem api given events hm
      rw [hf, Option.some_inj] at hother
      rw [hother]

theorem narrates_compile :
    Narrates events (settleAll api { resources := given } 0 events)
      (compile api false events given).records := by
  rw [records_compile, List.flatMap_def]
  refine .intro ?_ (shows_summaryRecord _)
  rw [List.forall₂_map_right_iff, List.forall₂_same]
  intro indexed hm
  exact told_narration api events given hm

/-- The records of a compilation are no less severe than debugging, no more severe than errors. -/
theorem level_of_mem_records_compile {record : Log.Record}
    (h : record ∈ (compile api false events given).records) :
    record.level ∈ [Log.Level.debug, .info, .warning, .error] := by
  rw [records_compile, List.mem_append, List.mem_flatMap, List.mem_singleton] at h
  rcases h with ⟨⟨event, index⟩, -, hm⟩ | rfl
  · rcases List.mem_append.mp hm with hm | hm
    · obtain ⟨warning, -, rfl⟩ := List.mem_map.mp hm
      simp [warningRecord]
    · split at hm <;> obtain rfl := List.mem_singleton.mp hm <;>
        simp [compiledRecord, skippedRecord]
  · simp [summaryRecord]

end Narrates

/-! ## Levels -/

/-- The lines that a computation prints with a logger that is opened for it, and how it ends. -/
def Run.printed {α : Type} (run : Run α) (session : Log.Session) (word? : Option Text)
    (name correlationId : Json) :
    Except Log.OpenError (List String × Except Failure α) :=
  match session.openLogger word? name correlationId with
  | (_, .error cause) => .error cause
  | (opened, .ok logger) => .ok (opened.lines logger run.records, run.outcome)

/-- The level of its logger filters what a computation prints and does nothing else. -/
theorem Run.printed_of_level {α : Type} (run : Run α) (session : Log.Session)
    {word? : Option Text} {name : Json} {text : Text} {level : Log.Level} (correlationId : Json)
    (hname : Log.loggerName name = .ok text)
    (hword : Log.Level.ofWord? (word?.getD Log.Session.defaultWord) = some level) :
    run.printed session word? name correlationId =
      .ok ((run.records.filter fun record =>
          (session.threshold text level).rank ≤ record.level.rank).map
        fun record => record.line session.clock (session.idFor correlationId), run.outcome) := by
  obtain ⟨issued, hopen⟩ := session.openLogger_of_level correlationId hname hword
  unfold Run.printed
  rw [hopen]
  dsimp only
  rw [session.lines_opened]

/-- The session of a program that has opened a logger of its own. -/
def appSession : Log.Session :=
  (Log.Session.openLogger { clock := "2020-01-01T00:00:00+00:00" } (some "DEBUG") (.str "app")
    .null).1

/-- A logger beside that of the program has none above it but the root. -/
theorem quietAbove_appSession : appSession.tree.QuietAbove "stack" where
  named := by decide
  root := by decide
  unset := by
    intro other level hnamed _ hstart hown
    obtain ⟨node, hnode, -⟩ := Option.map_eq_some_iff.mp hown
    have hkeys : other ∈ [Text.ofString "", Text.ofString "app"] := Entries.mem_keys_of_get? hnode
    rcases List.mem_cons.mp hkeys with rfl | hkeys
    · exact absurd rfl hnamed
    · obtain rfl := List.mem_singleton.mp hkeys
      exact absurd hstart (by decide)

/-- An event with a range key that has no source. -/
def readSourceless : Event :=
  { readUser with rangeKey := some ⟨.str "S", .null, .null, .null, .null⟩ }

end TableGateway.Compile
