import ResourceQuery.Proofs.Catalog.Reach

/-!
# Columns of a selection

What adding several columns does: they become selected and no others do
(`Selection.selects_foldl_addColumn`), and nothing else that is asked of the rows changes
(`Selection.foldl_addColumn_eq`).
-/
namespace ResourceQuery.Selection

/-- Adding a column changes nothing but the columns. -/
theorem addColumn_eq (selection : Selection) (column : String) :
    ∃ columns, selection.addColumn column = { selection with columns := columns } := by
  unfold addColumn
  split
  · exact ⟨selection.columns, rfl⟩
  · exact ⟨_, rfl⟩

/-- Adding columns changes nothing but the columns. -/
theorem foldl_addColumn_eq (columns : List String) (selection : Selection) :
    ∃ all, columns.foldl addColumn selection = { selection with columns := all } := by
  induction columns generalizing selection with
  | nil => exact ⟨selection.columns, rfl⟩
  | cons column rest ih =>
    obtain ⟨added, one⟩ := selection.addColumn_eq column
    obtain ⟨all, others⟩ := ih (selection.addColumn column)
    refine ⟨all, ?_⟩
    rw [List.foldl_cons, others, one]

/-- Added columns are selected, and no other columns become so. -/
theorem selects_foldl_addColumn (columns : List String) (selection : Selection) (name : String) :
    (columns.foldl addColumn selection).selects name = true ↔
      selection.selects name = true ∨ name ∈ columns := by
  induction columns generalizing selection with
  | nil => simp
  | cons column rest ih =>
    rw [List.foldl_cons, ih, selects_addColumn, Bool.or_eq_true, beq_iff_eq, List.mem_cons, or_assoc]

/-- Added columns are of the same rows. -/
@[simp] theorem bare_foldl_addColumn (columns : List String) (selection : Selection) :
    (columns.foldl addColumn selection).bare = selection.bare := by
  obtain ⟨all, shape⟩ := foldl_addColumn_eq columns selection
  rw [shape]
  rfl

end ResourceQuery.Selection
