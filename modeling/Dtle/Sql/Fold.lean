import Dtle.Sql.Ddl

/-!
# Dtle.Sql.Fold

The reference fold of section 4.2 on every kind of spec but the two that edit a column's options
(ALTER COLUMN and DROP PRIMARY KEY): RENAME TABLE, DROP COLUMN, CHANGE COLUMN, MODIFY COLUMN, ADD
COLUMN, DROP INDEX, RENAME INDEX and ADD CONSTRAINT. The specs are taken grouped by kind in the
order `mergeAlterToTable` takes them, in statement order within a kind; a spec that finds its
table inconsistent makes the fold return the original (`none`).

This is the merge as the spec describes it, on values: it is stated without slices or pointers,
and `Dtle.Sql.Refine.Table` proves the code computes it on the tables and specs it covers
(`CreateTable.covered`, `AlterSpec.covered`).
-/

namespace Dtle
namespace Ddl

open Ast

/-- The specs of one kind, in statement order. -/
def specsOf (specs : List AlterSpec) (tp : AlterTableType) : List AlterSpec :=
  specs.filter (·.tp == tp)

/-- Whether a column of `cols` is named `l`, ignoring case. -/
def hasColumn (cols : List Column) (l : String) : Bool := cols.any (·.name.l == l)

theorem hasColumn_iff (cols : List Column) (l : String) :
    hasColumn cols l = true ↔ l ∈ cols.map (·.name.l) := by
  simp [hasColumn]

/-- DROP COLUMN: remove the column of that name, ignoring case. -/
def dropColumn (cols : List Column) (spec : AlterSpec) : Option (List Column) :=
  if hasColumn cols spec.oldColumnName.l then
    some (cols.filter (·.name.l != spec.oldColumnName.l))
  else none

/-- Put `new` in place of every column named `l`. -/
def replaceColumn (cols : List Column) (l : String) (new : Column) : List Column :=
  cols.map fun c => if c.name.l == l then new else c

/-- CHANGE COLUMN: the new column in place of the column of the old name. -/
def changeColumn (cols : List Column) (spec : AlterSpec) : Option (List Column) :=
  if hasColumn cols spec.oldColumnName.l then
    some (replaceColumn cols spec.oldColumnName.l (spec.newColumns.headD default))
  else none

/-- MODIFY COLUMN: the new column in place of the column of its name. -/
def modifyColumn (cols : List Column) (spec : AlterSpec) : Option (List Column) :=
  let new := spec.newColumns.headD default
  if hasColumn cols new.name.l then some (replaceColumn cols new.name.l new) else none

/-- ADD COLUMN, one new column: append it unless its name is taken. -/
def addColumn (cols : List Column) (new : Column) : Option (List Column) :=
  if hasColumn cols new.name.l then none else some (cols ++ [new])

/-- ADD COLUMN: the spec's new columns, one after the other. -/
def addColumns (cols : List Column) (spec : AlterSpec) : Option (List Column) :=
  spec.newColumns.foldlM addColumn cols

/-- The columns after the column specs, kind by kind. -/
def foldCols (specs : List AlterSpec) (cols : List Column) : Option (List Column) := do
  let cols ← (specsOf specs .dropColumn).foldlM dropColumn cols
  let cols ← (specsOf specs .changeColumn).foldlM changeColumn cols
  let cols ← (specsOf specs .modifyColumn).foldlM modifyColumn cols
  (specsOf specs .addColumns).foldlM addColumns cols

/-- DROP INDEX: remove the constraint of that name. -/
def dropIndex (cons : List Constraint) (spec : AlterSpec) : Option (List Constraint) :=
  if cons.any (·.name == spec.name) then some (cons.filter (·.name != spec.name)) else none

/-- A constraint after RENAME INDEX `old` TO `new`. -/
def renameConstraint (old new : String) (c : Constraint) : Constraint :=
  if c.name == old then { c with name := new } else c

@[simp] theorem renameConstraint_idem (old new : String) (c : Constraint) :
    renameConstraint old new (renameConstraint old new c) = renameConstraint old new c := by
  unfold renameConstraint
  split <;> simp_all

theorem name_of_renameConstraint {old new : String} {c : Constraint}
    (h : (renameConstraint old new c).name = old) : c.name = old := by
  unfold renameConstraint at h
  split at h <;> simp_all

/-- RENAME INDEX: give every constraint of the old name the new one. -/
def renameIndex (cons : List Constraint) (spec : AlterSpec) : Option (List Constraint) :=
  if cons.any (·.name == spec.fromKey.o) then
    some (cons.map (renameConstraint spec.fromKey.o spec.toKey.o))
  else none

/-- Whether a table has a primary key: a PRIMARY KEY constraint, or a column with a PRIMARY KEY
option. -/
def tableHasPrimaryKey (cols : List Column) (cons : List Constraint) : Bool :=
  cons.any (·.tp == .primaryKey) || cols.any fun c => hasOneInOptions c.options [.primaryKey]

/-- A constraint whose key parts `GetPrimaryKey` can read: it is no PRIMARY KEY, or every part
names a column. -/
def pkPartsNamed (k : Constraint) : Bool := k.tp != .primaryKey || k.keys.all (·.column.isSome)

/-- ADD CONSTRAINT: a PRIMARY KEY unless the table has one, any other constraint unless its name
is taken. -/
def addConstraint (cols : List Column) (cons : List Constraint) (spec : AlterSpec) :
    Option (List Constraint) :=
  let c := spec.constraint.getD default
  let taken := match c.tp with
    | .primaryKey => tableHasPrimaryKey cols cons
    | _ => cons.any (·.name == c.name)
  if taken then none else some (cons ++ [c])

/-- A spec the fold covers, with what its kind needs: not ALTER COLUMN or DROP PRIMARY KEY,
whose loops edit column options; a new column for CHANGE and MODIFY COLUMN; a name for DROP
INDEX; a constraint whose primary key parts name columns for ADD CONSTRAINT. -/
def AlterSpec.covered (v : AlterSpec) : Bool :=
  match v.tp with
  | .alterColumn | .dropPrimaryKey => false
  | .changeColumn | .modifyColumn => !v.newColumns.isEmpty
  | .dropIndex => v.name != ""
  | .addConstraint => v.constraint.any pkPartsNamed
  | _ => true

/-- A table the fold covers: distinct column names ignoring case, distinct names of the named
constraints, and primary key parts that name columns. -/
def CreateTable.covered (c : CreateTable) : Bool :=
  (c.cols.map (·.name.l)).Nodup && ((c.constraints.map (·.name)).filter (· != "")).Nodup &&
    c.constraints.all pkPartsNamed

/-- The constraints after the constraint specs, kind by kind, on a table with the columns
`cols`. -/
def foldCons (specs : List AlterSpec) (cols : List Column) (cons : List Constraint) :
    Option (List Constraint) := do
  let cons ← (specsOf specs .dropIndex).foldlM dropIndex cons
  let cons ← (specsOf specs .renameIndex).foldlM renameIndex cons
  (specsOf specs .addConstraint).foldlM (addConstraint cols) cons

/-- The reference fold on every kind but ALTER COLUMN and DROP PRIMARY KEY. -/
def foldTable (c : CreateTable) (specs : List AlterSpec) : Option CreateTable := do
  let cols ← foldCols specs c.cols
  let cons ← foldCons specs cols c.constraints
  pure ⟨(specsOf specs .renameTable).foldl (fun _ spec => spec.newTable) c.table, cols, cons⟩

theorem pairwise_names_of_nodup {cons : List Constraint}
    (h : ((cons.map (·.name)).filter (· != "")).Nodup) :
    cons.Pairwise fun a b => a.name = b.name → a.name = "" := by
  have hq : (fun x : String => x != "") = fun x => decide (x ≠ "") := by
    funext x; by_cases hx : x = "" <;> simp [hx]
  rw [List.Nodup, hq, List.pairwise_filter, List.pairwise_map] at h
  refine h.imp fun {a b} hab he => ?_
  by_contra hne
  exact hab (by simpa using hne) (by simpa [← he] using hne) he

theorem dropColumn_nodup {cols cols' : List Column} {spec : AlterSpec}
    (hd : (cols.map (·.name.l)).Nodup) (h : dropColumn cols spec = some cols') :
    (cols'.map (·.name.l)).Nodup := by
  unfold dropColumn at h
  split at h
  · cases h; exact hd.sublist ((List.filter_sublist _).map _)
  · cases h

theorem mem_specsOf {vs : List AlterSpec} {tp : AlterTableType} {v : AlterSpec} :
    v ∈ specsOf vs tp ↔ v ∈ vs ∧ v.tp = tp := by
  simp [specsOf]

theorem foldTable_eq (c : CreateTable) (specs : List AlterSpec) :
    foldTable c specs = ((foldCols specs c.cols).bind fun cols =>
      (foldCons specs cols c.constraints).bind fun cons => some (cols, cons)).map fun r =>
        ⟨(specsOf specs .renameTable).foldl (fun _ spec => spec.newTable) c.table, r.1, r.2⟩ := by
  unfold foldTable
  cases foldCols specs c.cols with
  | none => rfl
  | some cols =>
    show (foldCons specs cols c.constraints).bind _ =
      ((foldCons specs cols c.constraints).bind _).map _
    cases foldCons specs cols c.constraints <;> rfl

theorem AlterSpec.tp_ne_of_covered {v : AlterSpec} (h : v.covered) :
    v.tp ≠ .alterColumn ∧ v.tp ≠ .dropPrimaryKey := by
  constructor <;> intro he <;> simp [covered, he] at h

theorem AlterSpec.newColumns_of_covered {v : AlterSpec} (h : v.covered)
    (htp : v.tp = .changeColumn ∨ v.tp = .modifyColumn) : v.newColumns ≠ [] := by
  rcases htp with htp | htp <;> simpa [covered, htp] using h

theorem AlterSpec.name_of_covered {v : AlterSpec} (h : v.covered) (htp : v.tp = .dropIndex) :
    v.name ≠ "" := by
  simpa [covered, htp] using h

theorem AlterSpec.constraint_of_covered {v : AlterSpec} (h : v.covered)
    (htp : v.tp = .addConstraint) :
    v.constraint.isSome ∧ ∀ k ∈ v.constraint, pkPartsNamed k := by
  simp only [covered, htp] at h
  cases hc : v.constraint <;> simp_all

@[simp] theorem pkPartsNamed_renameConstraint (old new : String) (k : Constraint) :
    pkPartsNamed (renameConstraint old new k) = pkPartsNamed k := by
  unfold renameConstraint; split <;> rfl

theorem mem_of_foldlM_dropIndex : ∀ (vs : List AlterSpec) {cons cons' : List Constraint},
    vs.foldlM dropIndex cons = some cons' → ∀ k ∈ cons', k ∈ cons
  | [], _, _, h => by cases h; exact fun _ => id
  | v :: vs, cons, cons', h => by
    simp only [List.foldlM_cons, dropIndex] at h
    split at h
    · exact fun k hk => List.mem_of_mem_filter (mem_of_foldlM_dropIndex vs h k hk)
    · cases h

theorem pkPartsNamed_of_foldlM_renameIndex : ∀ (vs : List AlterSpec) {cons cons' : List Constraint},
    vs.foldlM renameIndex cons = some cons' → (∀ k ∈ cons, pkPartsNamed k) →
      ∀ k ∈ cons', pkPartsNamed k
  | [], _, _, h => by cases h; exact id
  | v :: vs, cons, cons', h => by
    simp only [List.foldlM_cons, renameIndex] at h
    split at h
    · refine fun hpk => pkPartsNamed_of_foldlM_renameIndex vs h fun k hk => ?_
      obtain ⟨k', hk', rfl⟩ := List.mem_map.mp hk
      rw [pkPartsNamed_renameConstraint]
      exact hpk k' hk'
    · cases h

end Ddl
end Dtle
