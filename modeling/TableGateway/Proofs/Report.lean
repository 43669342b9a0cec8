import TableGateway.Compile.Result
import TableGateway.Event.Loader
import TableGateway.Proofs.Entries

/-! # What reports show

The entry on a refused event shows its position and the code of its failure, for no detail of any
failure is written over them. The details themselves are shown as they are. -/

namespace TableGateway

/-! ## Entries of a report -/

/-- The report as an entry about the event at a position. -/
def Report.entryAt (report : Report) (index : Int) : Json :=
  .obj (Entries.merge [("index", .int index)] report.toFields)

theorem Compile.Skipped.toJson_eq (skipped : Skipped) :
    skipped.toJson = skipped.failure.report.entryAt skipped.index := rfl

theorem Loaded.rejectionReport_eq (position : Nat) (cause : EventError) :
    rejectionReport position cause = cause.report.entryAt position := rfl

/-- Whether the details of a report leave its position and its code as they are. -/
structure Report.Clear (report : Report) : Prop where
  distinct : (Entries.keys report.details).Nodup
  index : ("index" : Text) ∉ Entries.keys report.details
  code : ("errorCode" : Text) ∉ Entries.keys report.details

theorem EventError.clear (cause : EventError) : cause.report.Clear := by
  cases cause <;> refine ⟨?_, ?_, ?_⟩ <;>
    simp only [report, details, Entries.keys_cons, Entries.keys_nil] <;> decide

theorem Failure.clear (failure : Failure) : failure.report.Clear := by
  cases failure with
  | rejected cause => exact cause.clear
  | unexpected fault => exact ⟨List.nodup_nil, List.not_mem_nil, List.not_mem_nil⟩

namespace Report

variable {report : Report}

theorem nodup_keys_toFields (report : Report) : (Entries.keys report.toFields).Nodup := by
  apply Entries.nodup_keys_merge
  simp only [Entries.keys_cons, Entries.keys_nil]
  decide

theorem Clear.field_index (h : report.Clear) (index : Int) :
    (report.entryAt index).field "index" = .int index := by
  have hk : ("index" : Text) ∉ Entries.keys report.toFields := by
    unfold toFields entries
    rw [Entries.mem_keys_merge, not_or]
    refine ⟨?_, h.index⟩
    simp only [Entries.keys_cons, Entries.keys_nil]
    decide
  simp only [entryAt, Json.field]
  rw [Entries.get?_merge_of_not_mem hk]
  rfl

theorem Clear.field_code (h : report.Clear) (index : Int) :
    (report.entryAt index).field "errorCode" = .str report.code := by
  have hg : Entries.get? report.toFields "errorCode" = some (.str report.code) := by
    unfold toFields entries
    rw [Entries.get?_merge_of_not_mem h.code]
    rfl
  simp only [entryAt, Json.field]
  rw [Entries.get?_merge_of_get? report.nodup_keys_toFields hg]
  rfl

/-- A detail is shown with its value. -/
theorem Clear.field_detail (h : report.Clear) (index : Int) {name : Text} {value : Json}
    (hg : Entries.get? report.details name = some value) :
    (report.entryAt index).field name = value := by
  have ht : Entries.get? report.toFields name = some value :=
    Entries.get?_merge_of_get? h.distinct hg
  simp only [entryAt, Json.field]
  rw [Entries.get?_merge_of_get? report.nodup_keys_toFields ht]
  rfl

end Report

namespace Compile.Skipped

/-- The entry on a skipped event shows its position. -/
theorem field_index (skipped : Skipped) :
    skipped.toJson.field "index" = .int skipped.index := by
  rw [toJson_eq]
  exact skipped.failure.clear.field_index skipped.index

theorem field_code (skipped : Skipped) :
    skipped.toJson.field "errorCode" = .str skipped.failure.report.code := by
  rw [toJson_eq]
  exact skipped.failure.clear.field_code skipped.index

end Compile.Skipped

end TableGateway
