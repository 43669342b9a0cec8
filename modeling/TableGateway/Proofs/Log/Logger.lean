import TableGateway.Log.Logger
import TableGateway.Proofs.Log.Tree

/-! # Opened loggers

Nothing is settled about any logger right after the level of one is set. So the lines of a logger
that was just opened are those of the records that reach the level it goes by. -/

namespace TableGateway.Log

namespace Session

/-! ## Sessions that come about -/

/-- The sessions that opening loggers and logging lead to. -/
inductive Reached : Session → Prop where
  | start (clock idStem : Text) : Reached { clock := clock, idStem := idStem }
  | opened {session : Session} (h : Reached session) (word? : Option Text)
      (name correlationId : Json) : Reached (session.openLogger word? name correlationId).1
  | logged {session : Session} (h : Reached session) (logger : Logger) (records : List Record) :
      Reached (session.afterRecords logger records)

theorem linked_openLogger {session : Session} (h : session.tree.Linked) (word? : Option Text)
    (name correlationId : Json) :
    (session.openLogger word? name correlationId).1.tree.Linked := by
  unfold openLogger
  split
  · exact h
  next text _ =>
    dsimp only
    split
    · exact h.add text
    next level _ =>
      split
      · exact (h.add text).setLevel text level
      · exact (h.add text).setLevel text level

theorem linked_afterRecords {session : Session} (h : session.tree.Linked) (logger : Logger)
    (records : List Record) : (session.afterRecords logger records).tree.Linked := by
  change (records.foldl (fun tree record => tree.settle logger.name record.level)
    session.tree).Linked
  generalize session.tree = tree at h ⊢
  induction records generalizing tree with
  | nil => exact h
  | cons record rest ih => exact ih _ (h.settle logger.name record.level)

/-- In every session that comes about the loggers hang together. -/
theorem Reached.linked {session : Session} (h : session.Reached) : session.tree.Linked := by
  induction h with
  | start => exact Tree.linked_start
  | opened _ word? name correlationId ih => exact linked_openLogger ih word? name correlationId
  | logged _ logger records ih => exact linked_afterRecords ih logger records

/-! ## Opening a logger -/

/-- The correlation ID of a logger that is opened: the given one, or the next one that is made. -/
def idFor (session : Session) (given : Json) : Json :=
  if given.truthy then given else session.madeId (session.issued + 1)

/-- The level that a logger goes by once it is opened with a level. -/
def threshold (session : Session) (name : Text) (level : Level) : Level :=
  ((session.tree.add name).setLevel name level).effectiveLevel name

/-- A logger goes by the level that it is opened with. Without one it goes by that of the root,
where no logger above it has one. -/
theorem Reached.threshold_eq {session : Session} (h : session.Reached) {name : Text} {level : Level}
    (hquiet : level = .unset → session.tree.QuietAbove name) :
    session.threshold name level = level.inForce :=
  Tree.effectiveLevel_opened h.linked hquiet

section Open

variable (session : Session) {word? : Option Text} {name : Json} {text : Text} {level : Level}

theorem openLogger_of_level (correlationId : Json) (hname : loggerName name = .ok text)
    (hword : Level.ofWord? (word?.getD defaultWord) = some level) :
    ∃ issued, session.openLogger word? name correlationId =
      ({ session with tree := (session.tree.add text).setLevel text level, issued := issued },
        .ok ⟨text, session.idFor correlationId⟩) := by
  unfold openLogger idFor
  rw [hname]
  dsimp only
  rw [hword]
  by_cases hid : correlationId.truthy = true
  · refine ⟨session.issued, ?_⟩
    simp only [if_pos hid]
  · refine ⟨session.issued + 1, ?_⟩
    simp only [if_neg hid]

/-- An opened logger prints the records that reach the level it goes by, in their order. -/
theorem lines_opened (issued : Nat) (correlationId : Json) (records : List Record) :
    lines { session with
        tree := (session.tree.add text).setLevel text level, issued := issued }
        ⟨text, correlationId⟩ records =
      (records.filter fun record => (session.threshold text level).rank ≤ record.level.rank).map
        fun record => record.line session.clock correlationId := rfl

end Open

end Session

end TableGateway.Log
