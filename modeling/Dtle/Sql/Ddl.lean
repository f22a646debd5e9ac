import Dtle.Sql.Merge

/-!
# Dtle.Sql.Ddl

CREATE and ALTER statements as values, as the catalog and the reference fold read them, and
the bridge to the heap: `Heap.allocCreateTable` and `Heap.allocAlterTable` lay a statement out
as the parser does (every object and every array fresh, an empty list as a nil slice), and
`Heap.readTable` reads a table back through its slices and pointers.

`merge c a` runs `mergeAlterToTable` on such a layout and says which pointer came back: the
merged `newTable`, or `oldTable` as it reads after the call.
-/

namespace Dtle
namespace Ddl

open Go Ast

/-- A column definition as a value. -/
structure Column where
  name : CIStr
  tp : String
  options : List ColumnOption
  deriving DecidableEq, Repr, Inhabited

/-- A CREATE TABLE as a value. -/
structure CreateTable where
  table : TableName
  cols : List Column
  constraints : List Constraint
  deriving DecidableEq, Repr, Inhabited

/-- An ALTER TABLE spec as a value. -/
structure AlterSpec where
  tp : AlterTableType
  newTable : TableName := default
  oldColumnName : CIStr := default
  newColumns : List Column := []
  name : String := ""
  fromKey : CIStr := default
  toKey : CIStr := default
  constraint : Option Constraint := none
  deriving DecidableEq, Repr, Inhabited

/-- An ALTER TABLE as a value. -/
structure AlterTable where
  table : TableName
  specs : List AlterSpec
  deriving DecidableEq, Repr, Inhabited

/-- The primary keys of a table: its PRIMARY KEY constraints and its columns' PRIMARY KEY
options, counted together. -/
def CreateTable.pkCount (c : CreateTable) : Nat :=
  (c.constraints.filter (·.tp == .primaryKey)).length +
    ((c.cols.flatMap (·.options)).filter (·.tp == .primaryKey)).length

/-- Column names distinct ignoring case, names of named constraints distinct, at most one
primary key. -/
def CreateTable.wellFormed (c : CreateTable) : Bool :=
  (c.cols.map (·.name.l)).Nodup && ((c.constraints.map (·.name)).filter (· != "")).Nodup &&
    decide (c.pkCount ≤ 1)

/-- Every key part that names a column names a column of the table, ignoring case. -/
def CreateTable.keysNameColumns (c : CreateTable) : Bool :=
  c.constraints.all fun con => con.keys.all fun part =>
    match part.column with
    | some n => c.cols.any (·.name.l == n.l)
    | none => true

/-- Which pointer `mergeAlterToTable` returned, with the table it points to read back. -/
inductive Returned where
  | newTable (t : CreateTable)
  | oldTable (t : CreateTable)
  deriving DecidableEq, Repr

end Ddl

namespace Go.Arrays

variable {α : Type}

/-- A fresh array holding exactly `xs`; no elements give the nil slice. -/
def alloc (st : Arrays α) (xs : List α) : Arrays α × Slice :=
  if xs.isEmpty then (st, Slice.nil) else (st ++ [xs], ⟨some st.length, 0, xs.length, xs.length⟩)

end Go.Arrays

namespace Ast.Heap

open Go Ddl

def empty : Heap := ⟨[], [], [], [], [], []⟩

/-- A fresh `*ColumnDef` with a fresh options array. -/
def allocColumn (h : Heap) (c : Column) : Nat × Heap :=
  let (optArrs, opts) := h.optArrs.alloc c.options
  (h.colDefs.length, { h with optArrs, colDefs := h.colDefs ++ [⟨c.name, c.tp, opts⟩] })

def allocColumns (h : Heap) : List Column → List Nat × Heap
  | [] => ([], h)
  | c :: cs =>
    let (p, h) := h.allocColumn c
    let (ps, h) := h.allocColumns cs
    (p :: ps, h)

/-- A fresh `*Constraint`. -/
def allocConstraint (h : Heap) (c : Constraint) : Nat × Heap :=
  (h.constraints.length, { h with constraints := h.constraints ++ [c] })

def allocConstraints (h : Heap) : List Constraint → List Nat × Heap
  | [] => ([], h)
  | c :: cs =>
    let (p, h) := h.allocConstraint c
    let (ps, h) := h.allocConstraints cs
    (p :: ps, h)

/-- A fresh `*CreateTableStmt` with fresh columns, constraints and arrays. -/
def allocCreateTable (h : Heap) (c : CreateTable) : Nat × Heap :=
  let (colPtrs, h) := h.allocColumns c.cols
  let (colArrs, cols) := h.colArrs.alloc colPtrs
  let (conPtrs, h) := { h with colArrs }.allocConstraints c.constraints
  let (conArrs, constraints) := h.conArrs.alloc conPtrs
  (h.tables.length, { h with conArrs, tables := h.tables ++ [⟨c.table, cols, constraints⟩] })

/-- A spec with its new columns and its constraint allocated. -/
def allocAlterSpec (h : Heap) (s : AlterSpec) : AlterTableSpec × Heap :=
  let (newColumns, h) := h.allocColumns s.newColumns
  let (constraint, h) := match s.constraint with
    | none => (none, h)
    | some c => let (p, h) := h.allocConstraint c; (some p, h)
  (⟨s.tp, s.newTable, s.oldColumnName, newColumns, s.name, s.fromKey, s.toKey, constraint⟩, h)

def allocAlterSpecs (h : Heap) : List AlterSpec → List AlterTableSpec × Heap
  | [] => ([], h)
  | s :: ss =>
    let (spec, h) := h.allocAlterSpec s
    let (specs, h) := h.allocAlterSpecs ss
    (spec :: specs, h)

def allocAlterTable (h : Heap) (a : AlterTable) : AlterTableStmt × Heap :=
  let (specs, h) := h.allocAlterSpecs a.specs
  (⟨a.table, specs⟩, h)

/-- A column read back through its options slice. -/
def readColumn (h : Heap) (p : Nat) : Column :=
  ⟨(h.col p).name, (h.col p).tp, h.optArrs.elems (h.col p).options⟩

/-- A table read back through its slices and pointers. -/
def readTable (h : Heap) (t : CreateTableStmt) : CreateTable :=
  ⟨t.table, (h.colArrs.elems t.cols).map h.readColumn, (h.conArrs.elems t.constraints).map h.con⟩

end Ast.Heap

namespace Ddl

open Go Ast

/-- `mergeAlterToTable` on `c` and `a` laid out as the parser hands them over. -/
def merge (c : CreateTable) (a : AlterTable) : Except Panic Returned :=
  let (p, h) := Heap.empty.allocCreateTable c
  let (alter, h) := h.allocAlterTable a
  match mergeAlterToTable p alter h with
  | .error e => .error e
  | .ok (r, h') =>
    let t := h'.readTable (h'.tables.getD r default)
    .ok (if r = p then .oldTable t else .newTable t)

/-- `ALTER TABLE t DROP COLUMN b, DROP COLUMN zz` on `t(a, b, c)`: the first drop deletes `b`
in the array `oldTable.Cols` shares, the second finds no `zz`, and the `oldTable` handed back
reads `a, c, c`. -/
theorem merge_drop_missing_column_returns_damaged_oldTable :
    merge ⟨⟨⟨"", ""⟩, ⟨"t", "t"⟩⟩,
        [⟨⟨"a", "a"⟩, "int", []⟩, ⟨⟨"b", "b"⟩, "int", []⟩, ⟨⟨"c", "c"⟩, "int", []⟩], []⟩
      ⟨⟨⟨"", ""⟩, ⟨"t", "t"⟩⟩,
        [{ tp := .dropColumn, oldColumnName := ⟨"b", "b"⟩ },
          { tp := .dropColumn, oldColumnName := ⟨"zz", "zz"⟩ }]⟩ =
      .ok (.oldTable ⟨⟨⟨"", ""⟩, ⟨"t", "t"⟩⟩,
        [⟨⟨"a", "a"⟩, "int", []⟩, ⟨⟨"c", "c"⟩, "int", []⟩, ⟨⟨"c", "c"⟩, "int", []⟩], []⟩) := by
  rfl

/-- `ALTER TABLE t ALTER COLUMN a DROP DEFAULT` on `t(a INT DEFAULT 1 DEFAULT 2)`: deleting the
first default moves the second down, the range reads it again at index 1, and `a.Options[2:]`
on the one-element slice panics. -/
theorem merge_drop_default_twice_panics :
    merge ⟨⟨⟨"", ""⟩, ⟨"t", "t"⟩⟩,
        [⟨⟨"a", "a"⟩, "int", [⟨.defaultValue, "1"⟩, ⟨.defaultValue, "2"⟩]⟩], []⟩
      ⟨⟨⟨"", ""⟩, ⟨"t", "t"⟩⟩, [{ tp := .alterColumn, newColumns := [⟨⟨"a", "a"⟩, "int", []⟩] }]⟩ =
      .error (.sliceBoundsOutOfRange 2 1) := by
  rfl

/-- `ALTER TABLE t DROP COLUMN a, ADD COLUMN b INT` on the well-formed `t(a, b)`: the drop moves
`b` down in the array `oldTable.Cols` shares, the add finds `b` taken, and the `oldTable` handed
back reads `b, b`. -/
theorem merge_duplicate_add_returns_malformed_oldTable :
    merge ⟨⟨⟨"", ""⟩, ⟨"t", "t"⟩⟩, [⟨⟨"a", "a"⟩, "int", []⟩, ⟨⟨"b", "b"⟩, "int", []⟩], []⟩
        ⟨⟨⟨"", ""⟩, ⟨"t", "t"⟩⟩,
          [{ tp := .dropColumn, oldColumnName := ⟨"a", "a"⟩ },
            { tp := .addColumns, newColumns := [⟨⟨"b", "b"⟩, "int", []⟩] }]⟩ =
        .ok (.oldTable ⟨⟨⟨"", ""⟩, ⟨"t", "t"⟩⟩,
          [⟨⟨"b", "b"⟩, "int", []⟩, ⟨⟨"b", "b"⟩, "int", []⟩], []⟩) ∧
      CreateTable.wellFormed
        ⟨⟨⟨"", ""⟩, ⟨"t", "t"⟩⟩, [⟨⟨"a", "a"⟩, "int", []⟩, ⟨⟨"b", "b"⟩, "int", []⟩], []⟩ ∧
      CreateTable.wellFormed
        ⟨⟨⟨"", ""⟩, ⟨"t", "t"⟩⟩, [⟨⟨"b", "b"⟩, "int", []⟩, ⟨⟨"b", "b"⟩, "int", []⟩], []⟩ = false :=
  ⟨by rfl, by decide, by decide⟩

/-- `ALTER TABLE t DROP COLUMN b` on `t(a, b, KEY idx(b))`: the column goes, the index stays, and
its key part names the dropped column. -/
theorem merge_drop_indexed_column_keeps_key_part :
    merge ⟨⟨⟨"", ""⟩, ⟨"t", "t"⟩⟩, [⟨⟨"a", "a"⟩, "int", []⟩, ⟨⟨"b", "b"⟩, "int", []⟩],
          [⟨.index, "idx", [⟨some ⟨"b", "b"⟩⟩]⟩]⟩
        ⟨⟨⟨"", ""⟩, ⟨"t", "t"⟩⟩, [{ tp := .dropColumn, oldColumnName := ⟨"b", "b"⟩ }]⟩ =
        .ok (.newTable ⟨⟨⟨"", ""⟩, ⟨"t", "t"⟩⟩, [⟨⟨"a", "a"⟩, "int", []⟩],
          [⟨.index, "idx", [⟨some ⟨"b", "b"⟩⟩]⟩]⟩) ∧
      CreateTable.keysNameColumns ⟨⟨⟨"", ""⟩, ⟨"t", "t"⟩⟩,
        [⟨⟨"a", "a"⟩, "int", []⟩, ⟨⟨"b", "b"⟩, "int", []⟩],
        [⟨.index, "idx", [⟨some ⟨"b", "b"⟩⟩]⟩]⟩ ∧
      CreateTable.keysNameColumns ⟨⟨⟨"", ""⟩, ⟨"t", "t"⟩⟩, [⟨⟨"a", "a"⟩, "int", []⟩],
        [⟨.index, "idx", [⟨some ⟨"b", "b"⟩⟩]⟩]⟩ = false :=
  ⟨by rfl, by decide, by decide⟩

end Ddl
end Dtle
