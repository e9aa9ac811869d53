import ResourceQuery.Plan.Basic
import ResourceQuery.Fault

/-!
# Answers of plans

A source answers a finished plan with the first of its rows, or with all of them and the number
of rows there are without the window. The surplus has left every row.
-/
namespace ResourceQuery.Plan

variable {σ : Type}

/-- The first row of a plan. -/
def item (source : RowSource σ) (plan : Plan) : Outcome σ Json := do
  let plan := plan.finish.take 1
  let rows ← Outcome.ofSession (source.rows plan.query)
  match rows with
  | [] => throw (.notFound plan.entity none)
  | row :: _ => return plan.surplus.strip row

/-- The rows of a plan and the number of rows without the window. -/
def page (source : RowSource σ) (plan : Plan) : Outcome σ (List Json × Nat) := do
  let plan := plan.finish
  let rows ← Outcome.ofSession (source.rows plan.query)
  let total ← Outcome.ofSession (source.total plan.query)
  return (rows.map plan.surplus.strip, total)

end ResourceQuery.Plan
