import Dtle.Go.Slice

/-!
# Dtle.Sql.Ast

The part of the TiDB parser's AST that `mergeAlterToTable` reads and writes, held the way the
Go program holds it. A `CreateTableStmt` is a struct of slices of pointers; `*ColumnDef` and
`*Constraint` are objects that several slices may point to, and a column's options are a slice
of their own. The heap keeps each kind of object and each kind of backing array in a store of
its own, so a write to one kind leaves the others as they were by construction.

Pointers are indices into their store. The parser never hands the merge a nil `*ColumnDef`,
`*Constraint` or `*ColumnName`, so pointers here are never nil; `spec.Constraint` is the one
pointer the code dereferences that is nil on most specs, and it is an `Option`.

`GoM` is the merge code's monad: it reads and writes the heap and may panic.
-/

namespace Dtle
namespace Ast

open Go

/-- `model.CIStr`: an identifier as written (`O`) and in lower case (`L`). -/
structure CIStr where
  o : String
  l : String
  deriving DecidableEq, Repr, Inhabited

/-- `ast.TableName`, reduced to the schema and the name. -/
structure TableName where
  schema : CIStr
  name : CIStr
  deriving DecidableEq, Repr, Inhabited

/-- `ast.ColumnOptionType`. -/
inductive ColumnOptionType where
  | noOption | primaryKey | notNull | autoIncrement | defaultValue | uniqKey | null | onUpdate
  | fulltext | comment | generated | reference | collate | check | columnFormat | storage
  | autoRandom
  deriving DecidableEq, Repr, Inhabited

/-- `ast.ColumnOption`: its kind and, opaque here, the expression or text it carries. Options are
never written through, so they are values. -/
structure ColumnOption where
  tp : ColumnOptionType
  expr : String
  deriving DecidableEq, Repr, Inhabited

/-- `ast.ConstraintType`. -/
inductive ConstraintType where
  | noConstraint | primaryKey | key | index | uniq | uniqKey | uniqIndex | foreignKey | fulltext
  | check
  deriving DecidableEq, Repr, Inhabited

/-- `ast.IndexPartSpecification`: a key part names a column, or (an expression part) none. -/
structure IndexPartSpecification where
  column : Option CIStr
  deriving DecidableEq, Repr, Inhabited

/-- A `*ast.ColumnDef` object: `Name.Name`, the type (opaque) and the options slice. -/
structure ColumnDef where
  name : CIStr
  tp : String
  options : Slice
  deriving DecidableEq, Repr, Inhabited

/-- A `*ast.Constraint` object. `RENAME INDEX` writes its `Name`. -/
structure Constraint where
  tp : ConstraintType
  name : String
  keys : List IndexPartSpecification
  deriving DecidableEq, Repr, Inhabited

/-- `ast.CreateTableStmt`: the table name and the two slices the merge works on. -/
structure CreateTableStmt where
  table : TableName
  cols : Slice
  constraints : Slice
  deriving DecidableEq, Repr, Inhabited

/-- `ast.AlterTableType`: the ten kinds `mergeAlterToTable` reads, and every other kind. -/
inductive AlterTableType where
  | renameTable | dropColumn | changeColumn | modifyColumn | alterColumn | addColumns
  | dropPrimaryKey | dropIndex | renameIndex | addConstraint
  | other (n : Nat)
  deriving DecidableEq, Repr, Inhabited

/-- `ast.AlterTableSpec`, with the fields the merge reads. `NewColumns` point into the heap. -/
structure AlterTableSpec where
  tp : AlterTableType
  newTable : TableName
  oldColumnName : CIStr
  newColumns : List Nat
  name : String
  fromKey : CIStr
  toKey : CIStr
  constraint : Option Nat
  deriving DecidableEq, Repr, Inhabited

/-- `ast.AlterTableStmt`. -/
structure AlterTableStmt where
  table : TableName
  specs : List AlterTableSpec
  deriving DecidableEq, Repr, Inhabited

/-- The objects and backing arrays of the AST. -/
structure Heap where
  tables : List CreateTableStmt
  colDefs : List ColumnDef
  constraints : List Constraint
  colArrs : Arrays Nat
  conArrs : Arrays Nat
  optArrs : Arrays ColumnOption
  deriving DecidableEq, Repr, Inhabited

/-- The merge code's monad: heap state, and a panic that ends the program. -/
abbrev GoM := StateT Heap (Except Panic)

namespace Heap

/-- `*p` for a column. -/
def col (h : Heap) (p : Nat) : ColumnDef := h.colDefs.getD p default

/-- `*p` for a constraint. -/
def con (h : Heap) (p : Nat) : Constraint := h.constraints.getD p default

/-- `col.Options = s`. -/
def setColOptions (h : Heap) (p : Nat) (s : Slice) : Heap :=
  { h with colDefs := h.colDefs.set p { h.col p with options := s } }

/-- `constraint.Name = n`. -/
def setConName (h : Heap) (p : Nat) (n : String) : Heap :=
  { h with constraints := h.constraints.set p { h.con p with name := n } }

@[simp] theorem setColOptions_constraints (h : Heap) (p : Nat) (s : Slice) :
    (h.setColOptions p s).constraints = h.constraints := rfl
@[simp] theorem setColOptions_colArrs (h : Heap) (p : Nat) (s : Slice) :
    (h.setColOptions p s).colArrs = h.colArrs := rfl
@[simp] theorem setColOptions_conArrs (h : Heap) (p : Nat) (s : Slice) :
    (h.setColOptions p s).conArrs = h.conArrs := rfl
@[simp] theorem setColOptions_optArrs (h : Heap) (p : Nat) (s : Slice) :
    (h.setColOptions p s).optArrs = h.optArrs := rfl
@[simp] theorem setColOptions_tables (h : Heap) (p : Nat) (s : Slice) :
    (h.setColOptions p s).tables = h.tables := rfl
@[simp] theorem setConName_colDefs (h : Heap) (p : Nat) (n : String) :
    (h.setConName p n).colDefs = h.colDefs := rfl
@[simp] theorem setConName_colArrs (h : Heap) (p : Nat) (n : String) :
    (h.setConName p n).colArrs = h.colArrs := rfl
@[simp] theorem setConName_conArrs (h : Heap) (p : Nat) (n : String) :
    (h.setConName p n).conArrs = h.conArrs := rfl
@[simp] theorem setConName_optArrs (h : Heap) (p : Nat) (n : String) :
    (h.setConName p n).optArrs = h.optArrs := rfl
@[simp] theorem setConName_tables (h : Heap) (p : Nat) (n : String) :
    (h.setConName p n).tables = h.tables := rfl

theorem col_setColOptions (h : Heap) (p q : Nat) (s : Slice) (hp : p < h.colDefs.length) :
    (h.setColOptions p s).col q = if q = p then { h.col p with options := s } else h.col q := by
  by_cases hq : q = p
  · subst hq; simp [col, setColOptions, List.getD_eq_getElem?_getD, hp]
  · simp [col, setColOptions, List.getD_eq_getElem?_getD, hq, List.getElem?_set_ne (Ne.symm hq)]

theorem con_setConName (h : Heap) (p q : Nat) (n : String) (hp : p < h.constraints.length) :
    (h.setConName p n).con q = if q = p then { h.con p with name := n } else h.con q := by
  by_cases hq : q = p
  · subst hq; simp [con, setConName, List.getD_eq_getElem?_getD, hp]
  · simp [con, setConName, List.getD_eq_getElem?_getD, hq, List.getElem?_set_ne (Ne.symm hq)]

end Heap

/-- One kind of backing array in the heap, with the law that reading what was written gives it
back. -/
structure Store (α : Type) where
  get : Heap → Arrays α
  set : Heap → Arrays α → Heap
  get_set : ∀ h st, get (set h st) = st

/-- The arrays behind `CreateTableStmt.Cols`. -/
def colsStore : Store Nat := ⟨Heap.colArrs, fun h st => { h with colArrs := st }, fun _ _ => rfl⟩

/-- The arrays behind `CreateTableStmt.Constraints`. -/
def consStore : Store Nat := ⟨Heap.conArrs, fun h st => { h with conArrs := st }, fun _ _ => rfl⟩

/-- The arrays behind `ColumnDef.Options`. -/
def optsStore : Store ColumnOption :=
  ⟨Heap.optArrs, fun h st => { h with optArrs := st }, fun _ _ => rfl⟩

namespace Store

variable {α : Type}

/-- What a header shows, read in the monad. -/
def elems (S : Store α) (s : Slice) : GoM (List α) := fun h => .ok ((S.get h).elems s, h)

/-- `s[i]`. -/
def index [Inhabited α] (S : Store α) (s : Slice) (i : Nat) : GoM α := fun h =>
  ((S.get h).index s i).map (·, h)

/-- `s[i] = x`. -/
def setIndex (S : Store α) (s : Slice) (i : Nat) (x : α) : GoM Unit := fun h =>
  ((S.get h).setIndex s i x).map fun st => ((), S.set h st)

/-- `append(s, xs...)`. -/
def append [Inhabited α] (S : Store α) (s : Slice) (xs : List α) : GoM Slice := fun h =>
  .ok (((S.get h).append s xs).2, S.set h ((S.get h).append s xs).1)

/-- `append(s[:i], s[i+1:]...)`. -/
def deleteAt [Inhabited α] (S : Store α) (s : Slice) (i : Nat) : GoM Slice := fun h =>
  ((S.get h).deleteAt s i).map fun r => (r.2, S.set h r.1)

/-- `for i, x := range s0 { if p x { found = true; s = append(s[:i], s[i+1:]...) } }`, the
delete-while-ranging loop of the merge code: the range keeps the header it started with, so
after a deletion it reads the moved-down tail, and at the end the stale last slot. -/
def deleteWhere [Inhabited α] (S : Store α) (p : Heap → α → Bool) (s0 : Slice) :
    Nat → Nat → Slice → Bool → GoM (Slice × Bool)
  | _, 0, s, found => pure (s, found)
  | i, k + 1, s, found => do
    let x ← S.index s0 i
    if p (← getThe Heap) x then
      let s ← S.deleteAt s i
      S.deleteWhere p s0 (i + 1) k s true
    else S.deleteWhere p s0 (i + 1) k s found

end Store

end Ast
end Dtle
