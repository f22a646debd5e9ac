import Dtle.Sql.Ast

/-!
# Dtle.Sql.Merge

`mergeAlterToTable`, which folds an `ALTER TABLE` into the `CREATE TABLE` the catalog holds.
The code takes the specs grouped by kind, in a fixed order of kinds, and returns `oldTable`
as soon as one spec fails its check. `newTable` starts with `oldTable`'s slice headers, so
every in-place write of the fold (the delete idiom, `Cols[i] = ...`, an `append` within the
capacity) and every write through a shared `*ColumnDef` or `*Constraint` lands in the objects
and arrays `oldTable` reads too.

The model follows the code kind by kind (`dropColumns`, ..., `addConstraints`), each loop a
structural recursion over the range index, and composes the groups with `runPhases`.

`merge` runs it on a CREATE and an ALTER laid out as the parser hands them over (fresh objects
and arrays) and reads the returned table back as a value.
-/

namespace Dtle
namespace Ast

open Go

/-- `spec.NewColumns[i]`: specs are never written, so their slices are lists here. -/
def listIndex {α : Type} (xs : List α) (i : Nat) : Except Panic α :=
  match xs.get? i with
  | some x => .ok x
  | none => .error (.indexOutOfRange i xs.length)

/-- `*p` for a pointer the code may find nil. -/
def deref {α : Type} : Option α → Except Panic α
  | some x => .ok x
  | none => .error .nilPointerDereference

/-- `getAlterTableSpecByTp(specs, ts...)`: the specs in statement order, each once per listed
kind it has. -/
def getAlterTableSpecByTp (specs : List AlterTableSpec) (ts : List AlterTableType) :
    List AlterTableSpec :=
  specs.flatMap fun spec => (ts.filter (spec.tp == ·)).map fun _ => spec

/-- `HasOneInOptions(Options, opTp...)`. -/
def hasOneInOptions (options : List ColumnOption) (opTp : List ColumnOptionType) : Bool :=
  opTp.any fun tp => options.any fun op => tp == op.tp

/-- Insert a key into a Go `map[string]struct{}`, kept as a list without repeats. -/
def mapInsert (m : List String) (k : String) : List String := if k ∈ m then m else m ++ [k]

/-- `GetPrimaryKey`: the columns of the PRIMARY KEY constraints, or else of the columns with a
PRIMARY KEY option, and whether there is one. A key part without a column panics. -/
def getPrimaryKey (h : Heap) (stmt : CreateTableStmt) : Except Panic (List String × Bool) := do
  let pks := ((h.conArrs.elems stmt.constraints).map h.con).filter (·.tp == .primaryKey)
  let names ← (pks.flatMap (·.keys)).mapM fun part => deref (part.column.map (·.l))
  if !pks.isEmpty then return (names.foldl mapInsert [], true)
  let pkCols := ((h.colArrs.elems stmt.cols).map h.col).filter fun col =>
    hasOneInOptions (h.optArrs.elems col.options) [.primaryKey]
  return ((pkCols.map (·.name.l)).foldl mapInsert [], !pkCols.isEmpty)

/-- `hasPrimaryKey`. -/
def hasPrimaryKey (h : Heap) (stmt : CreateTableStmt) : Except Panic Bool :=
  (getPrimaryKey h stmt).map (·.2)

/-- RENAME TABLE: `newTable.Table = spec.NewTable`. -/
def renameTables (specs : List AlterTableSpec) (t : CreateTableStmt) : CreateTableStmt :=
  specs.foldl (fun t spec => { t with table := spec.newTable }) t

/-- DROP COLUMN, one delete-while-ranging loop per spec. -/
def dropColumns : List AlterTableSpec → CreateTableStmt → GoM (Option CreateTableStmt)
  | [], t => pure (some t)
  | spec :: specs, t => do
    let (cols, colExists) ← colsStore.deleteWhere
      (fun h col => (h.col col).name.l == spec.oldColumnName.l) t.cols 0 t.cols.len t.cols false
    if colExists then dropColumns specs { t with cols } else pure none

/-- CHANGE COLUMN: `newTable.Cols[i] = spec.NewColumns[0]` at every column named like the old
one. -/
def changeColumnLoop (spec : AlterTableSpec) (s0 : Slice) : Nat → Nat → Bool → GoM Bool
  | _, 0, colExists => pure colExists
  | i, k + 1, colExists => do
    let col ← colsStore.index s0 i
    if ((← getThe Heap).col col).name.l == spec.oldColumnName.l then
      let newCol ← StateT.lift (listIndex spec.newColumns 0)
      colsStore.setIndex s0 i newCol
      changeColumnLoop spec s0 (i + 1) k true
    else changeColumnLoop spec s0 (i + 1) k colExists

def changeColumns : List AlterTableSpec → CreateTableStmt → GoM (Option CreateTableStmt)
  | [], t => pure (some t)
  | spec :: specs, t => do
    if ← changeColumnLoop spec t.cols 0 t.cols.len false then changeColumns specs t
    else pure none

/-- MODIFY COLUMN: as CHANGE COLUMN, but the column is found by the new column's name, and
`spec.NewColumns[0]` is read in the test of every iteration. -/
def modifyColumnLoop (spec : AlterTableSpec) (s0 : Slice) : Nat → Nat → Bool → GoM Bool
  | _, 0, colExists => pure colExists
  | i, k + 1, colExists => do
    let col ← colsStore.index s0 i
    let newCol ← StateT.lift (listIndex spec.newColumns 0)
    let h ← getThe Heap
    if (h.col col).name.l == (h.col newCol).name.l then
      colsStore.setIndex s0 i newCol
      modifyColumnLoop spec s0 (i + 1) k true
    else modifyColumnLoop spec s0 (i + 1) k colExists

def modifyColumns : List AlterTableSpec → CreateTableStmt → GoM (Option CreateTableStmt)
  | [], t => pure (some t)
  | spec :: specs, t => do
    if ← modifyColumnLoop spec t.cols 0 t.cols.len false then modifyColumns specs t
    else pure none

/-- ALTER COLUMN ... SET DEFAULT on a column that has a default:
`for i, op := range col.Options { if op.Tp == DefaultValue { col.Options[i] = newCol.Options[0] } }`. -/
def setDefaultLoop (col newCol : Nat) (s0 : Slice) : Nat → Nat → GoM Unit
  | _, 0 => pure ()
  | i, k + 1 => do
    let op ← optsStore.index s0 i
    if op.tp == .defaultValue then
      let h ← getThe Heap
      let v ← optsStore.index (h.col newCol).options 0
      optsStore.setIndex (h.col col).options i v
    setDefaultLoop col newCol s0 (i + 1) k

/-- ALTER COLUMN on one matching column: DROP DEFAULT (`newCol.Options == nil`) deletes the
DEFAULT options while ranging over them; SET DEFAULT overwrites them, or appends the new
options when there is none. -/
def alterColumnOptions (col newCol : Nat) : GoM Unit := do
  let h ← getThe Heap
  let opts := (h.col col).options
  if (h.col newCol).options.ptr.isNone then
    let (opts', _) ← optsStore.deleteWhere (fun _ op => op.tp == .defaultValue)
      opts 0 opts.len opts false
    modifyThe Heap (·.setColOptions col opts')
  else if hasOneInOptions (h.optArrs.elems opts) [.defaultValue] then
    setDefaultLoop col newCol opts 0 opts.len
  else
    let opts' ← optsStore.append opts (h.optArrs.elems (h.col newCol).options)
    modifyThe Heap (·.setColOptions col opts')

def alterColumnLoop (newCol : Nat) (s0 : Slice) : Nat → Nat → Bool → GoM Bool
  | _, 0, colExists => pure colExists
  | i, k + 1, colExists => do
    let col ← colsStore.index s0 i
    let h ← getThe Heap
    if (h.col col).name.l == (h.col newCol).name.l then
      alterColumnOptions col newCol
      alterColumnLoop newCol s0 (i + 1) k true
    else alterColumnLoop newCol s0 (i + 1) k colExists

def alterColumns : List AlterTableSpec → CreateTableStmt → GoM (Option CreateTableStmt)
  | [], t => pure (some t)
  | spec :: specs, t => do
    let newCol ← StateT.lift (listIndex spec.newColumns 0)
    if ← alterColumnLoop newCol t.cols 0 t.cols.len false then alterColumns specs t
    else pure none

/-- Whether a column of the slice has the name `l` (lower case). -/
def colNameExists (h : Heap) (cols : Slice) (l : String) : Bool :=
  (h.colArrs.elems cols).any fun p => (h.col p).name.l == l

/-- ADD COLUMN: append each new column unless its name is taken. -/
def addNewColumns : List Nat → CreateTableStmt → GoM (Option CreateTableStmt)
  | [], t => pure (some t)
  | newCol :: rest, t => do
    let h ← getThe Heap
    if colNameExists h t.cols (h.col newCol).name.l then pure none
    else
      let cols ← colsStore.append t.cols [newCol]
      addNewColumns rest { t with cols }

def addColumns : List AlterTableSpec → CreateTableStmt → GoM (Option CreateTableStmt)
  | [], t => pure (some t)
  | spec :: specs, t => do
    match ← addNewColumns spec.newColumns t with
    | none => pure none
    | some t => addColumns specs t

/-- DROP PRIMARY KEY on the columns: delete the PRIMARY KEY options of every column while
ranging over them. -/
def dropPkOptionsLoop (s0 : Slice) : Nat → Nat → GoM Unit
  | _, 0 => pure ()
  | i, k + 1 => do
    let col ← colsStore.index s0 i
    let opts := ((← getThe Heap).col col).options
    let (opts', _) ← optsStore.deleteWhere (fun _ op => op.tp == .primaryKey)
      opts 0 opts.len opts false
    modifyThe Heap (·.setColOptions col opts')
    dropPkOptionsLoop s0 (i + 1) k

def dropPrimaryKeys : List AlterTableSpec → CreateTableStmt → GoM (Option CreateTableStmt)
  | [], t => pure (some t)
  | _ :: specs, t => do
    if !(← StateT.lift (hasPrimaryKey (← getThe Heap) t)) then return none
    let (cons, _) ← consStore.deleteWhere (fun h c => (h.con c).tp == .primaryKey)
      t.constraints 0 t.constraints.len t.constraints false
    dropPkOptionsLoop t.cols 0 t.cols.len
    dropPrimaryKeys specs { t with constraints := cons }

/-- DROP INDEX: delete the constraints of that name while ranging over them. -/
def dropIndexes : List AlterTableSpec → CreateTableStmt → GoM (Option CreateTableStmt)
  | [], t => pure (some t)
  | spec :: specs, t => do
    let (cons, constraintExists) ← consStore.deleteWhere (fun h c => (h.con c).name == spec.name)
      t.constraints 0 t.constraints.len t.constraints false
    if constraintExists then dropIndexes specs { t with constraints := cons } else pure none

/-- RENAME INDEX: `constraint.Name = newName.String()` through every constraint of the old
name. -/
def renameIndexLoop (spec : AlterTableSpec) (s0 : Slice) : Nat → Nat → Bool → GoM Bool
  | _, 0, constraintExists => pure constraintExists
  | i, k + 1, constraintExists => do
    let c ← consStore.index s0 i
    if ((← getThe Heap).con c).name == spec.fromKey.o then
      modifyThe Heap (·.setConName c spec.toKey.o)
      renameIndexLoop spec s0 (i + 1) k true
    else renameIndexLoop spec s0 (i + 1) k constraintExists

def renameIndexes : List AlterTableSpec → CreateTableStmt → GoM (Option CreateTableStmt)
  | [], t => pure (some t)
  | spec :: specs, t => do
    if ← renameIndexLoop spec t.constraints 0 t.constraints.len false then renameIndexes specs t
    else pure none

/-- ADD CONSTRAINT: a PRIMARY KEY unless the table has one, any other constraint unless its
name is taken (the empty name included). -/
def addConstraints : List AlterTableSpec → CreateTableStmt → GoM (Option CreateTableStmt)
  | [], t => pure (some t)
  | spec :: specs, t => do
    let c ← StateT.lift (deref spec.constraint)
    let h ← getThe Heap
    let taken ← match (h.con c).tp with
      | .primaryKey => StateT.lift (hasPrimaryKey h t)
      | _ => pure ((h.conArrs.elems t.constraints).any fun p => (h.con p).name == (h.con c).name)
    if taken then pure none
    else
      let cons ← consStore.append t.constraints [c]
      addConstraints specs { t with constraints := cons }

/-- Run the groups of specs in order until one decides to return `oldTable` (`none`). -/
def runPhases : List (CreateTableStmt → GoM (Option CreateTableStmt)) → CreateTableStmt →
    GoM (Option CreateTableStmt)
  | [], t => pure (some t)
  | f :: fs, t => do
    match ← f t with
    | none => pure none
    | some t => runPhases fs t

/-- The groups of specs in the code's order. -/
def phases (specs : List AlterTableSpec) : List (CreateTableStmt → GoM (Option CreateTableStmt)) :=
  let byTp := fun tp => getAlterTableSpecByTp specs [tp]
  [dropColumns (byTp .dropColumn), changeColumns (byTp .changeColumn),
    modifyColumns (byTp .modifyColumn), alterColumns (byTp .alterColumn),
    addColumns (byTp .addColumns), dropPrimaryKeys (byTp .dropPrimaryKey),
    dropIndexes (byTp .dropIndex), renameIndexes (byTp .renameIndex),
    addConstraints (byTp .addConstraint)]

/-- `mergeAlterToTable(oldTable, alterTable)`: the pointer it returns, `oldTable` itself or the
newly allocated `newTable`. Its `error` result is always nil and is left out. -/
def mergeAlterToTable (oldTable : Nat) (alterTable : AlterTableStmt) : GoM Nat := do
  let h ← getThe Heap
  let old := h.tables.getD oldTable default
  let newTable := renameTables (getAlterTableSpecByTp alterTable.specs [.renameTable])
    { table := old.table, cols := old.cols, constraints := old.constraints }
  match ← runPhases (phases alterTable.specs) newTable with
  | none => pure oldTable
  | some t => fun h => .ok (h.tables.length, { h with tables := h.tables ++ [t] })

end Ast
end Dtle
