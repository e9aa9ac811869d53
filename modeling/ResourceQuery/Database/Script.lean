import ResourceQuery.Database.Basic

/-!
# Scripted databases

A database that gives prepared answers one after the other, whatever the statements ask, and keeps
the statements that were run. When no answer is left a statement fails.
-/
namespace ResourceQuery

/-- The answers still to come, and the statements run so far. -/
structure Script where
  /-- The answers to the next statements. -/
  answers : List (Except DatabaseError (List Json))
  /-- The statements run, the first one first. -/
  log : List Statement

namespace Script

/-- The answer to a statement, and the script after it. -/
def step (script : Script) (statement : Statement) :
    Except DatabaseError (List Json) × Script :=
  let log := script.log ++ [statement]
  match script.answers with
  | [] => (.error (.failed "script" "no answer is left"), ⟨[], log⟩)
  | answer :: rest => (answer, ⟨rest, log⟩)

/-- The database that follows its script. -/
def database : Database Script :=
  ⟨fun statement => ExceptT.mk fun script => script.step statement⟩

end Script

end ResourceQuery
