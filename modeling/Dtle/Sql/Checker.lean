import Dtle.Sql.Ddl
import Mathlib.Data.List.Nodup

/-!
# Dtle.Sql.Checker

`TableChecker` keeps the tables a job has seen by schema and by name, in two levels of Go maps.
`checkColumnByName` resolves a column reference against them: the qualified table when the
catalog has it, nothing for any other qualified reference, and otherwise a scan of every schema
that counts the tables holding the column.

A Go map is the list of its entries in the order one `range` visits them, each key once;
`TableChecker` carries that as fields and `TableChecker.add` keeps it. The scan does not depend
on that order: it counts the tables it finds the column in (`colHit_foldl`, `scan_foldl`), and
on a catalog with no table named by the empty string it resolves every reference as the spec's
candidate tables do (`checkColumnByName_eq_resolveColumn`). Column names are compared as written
(`tableExistCol`), so a reference that differs from the column in case is not found.
-/

namespace Dtle
namespace Ast

open Ddl

/-- `ast.ColumnName`: the schema, table and column a reference names. -/
structure ColumnName where
  schema : CIStr
  table : CIStr
  name : CIStr
  deriving DecidableEq, Repr

/-! ## Go maps -/

/-- `m[k] = v` on a Go map: the entry of `k` replaced, or a new entry. -/
def goMapSet {α : Type} (m : List (String × α)) (k : String) (v : α) : List (String × α) :=
  if k ∈ m.map Prod.fst then m.map fun e => if e.1 = k then (k, v) else e else m ++ [(k, v)]

section GoMap

variable {α : Type} (m : List (String × α)) (k : String) (v : α)

theorem keys_goMapSet :
    (goMapSet m k v).map Prod.fst =
      if k ∈ m.map Prod.fst then m.map Prod.fst else m.map Prod.fst ++ [k] := by
  unfold goMapSet
  split
  · rw [List.map_map]
    refine List.map_congr_left fun e _ => ?_
    by_cases h : e.1 = k <;> simp [h]
  · simp

theorem nodup_goMapSet (h : (m.map Prod.fst).Nodup) : ((goMapSet m k v).map Prod.fst).Nodup := by
  rw [keys_goMapSet]
  by_cases hk : k ∈ m.map Prod.fst
  · rw [if_pos hk]; exact h
  · rw [if_neg hk]; exact List.nodup_append.mpr ⟨h, List.nodup_singleton k, by simpa using hk⟩

theorem mem_goMapSet {e : String × α} (he : e ∈ goMapSet m k v) : e ∈ m ∨ e = (k, v) := by
  unfold goMapSet at he
  split at he
  · obtain ⟨e', he', rfl⟩ := List.mem_map.mp he
    by_cases h : e'.1 = k <;> simp [h, he']
  · simpa using he

end GoMap

theorem mem_of_lookup_eq_some {α : Type} {l : List (String × α)} {k : String} {v : α}
    (h : l.lookup k = some v) : (k, v) ∈ l := by
  obtain ⟨l₁, l₂, rfl, _⟩ := List.lookup_eq_some_iff.mp h
  simp

/-! ## The catalog -/

/-- `TableChecker.schemaTables`: schema name to table name to table, each key once at each
level. -/
structure TableChecker where
  schemaTables : List (String × List (String × CreateTable))
  schemas_nodup : (schemaTables.map Prod.fst).Nodup
  tables_nodup : ∀ s ∈ schemaTables, (s.2.map Prod.fst).Nodup

/-- A checker that has seen no table. -/
def TableChecker.empty : TableChecker := ⟨[], List.nodup_nil, fun _ h => nomatch h⟩

/-- `TableChecker.add`: into the schema's map when it has one, else into a new map. -/
def TableChecker.add (t : TableChecker) (schemaName tableName : String) (table : CreateTable) :
    TableChecker :=
  match h : t.schemaTables.lookup schemaName with
  | some tables =>
    ⟨goMapSet t.schemaTables schemaName (goMapSet tables tableName table),
      nodup_goMapSet _ _ _ t.schemas_nodup, fun s hs => by
        rcases mem_goMapSet _ _ _ hs with hs | rfl
        · exact t.tables_nodup s hs
        · exact nodup_goMapSet _ _ _ (t.tables_nodup _ (mem_of_lookup_eq_some h))⟩
  | none =>
    ⟨goMapSet t.schemaTables schemaName [(tableName, table)],
      nodup_goMapSet _ _ _ t.schemas_nodup, fun s hs => by
        rcases mem_goMapSet _ _ _ hs with hs | rfl
        · exact t.tables_nodup s hs
        · exact List.nodup_singleton _⟩

/-! ## `checkColumnByName` -/

/-- `tableExistCol(table, colName)`: some column's `Name.Name.String()` is `colName`. -/
def tableExistCol (table : CreateTable) (colName : String) : Bool :=
  table.cols.any (·.name.o == colName)

/-- One table found by the scan: `(colExists, colIsAmbiguous)` after it. -/
def colHit (acc : Bool × Bool) (exist : Bool) : Bool × Bool :=
  if exist then (true, acc.2 || acc.1) else acc

/-- `checkColumnByName(colNameStmt)`, returning `(colExists, colIsAmbiguous)`. -/
def checkColumnByName (t : TableChecker) (colNameStmt : ColumnName) : Bool × Bool :=
  let schemaName := colNameStmt.schema.o
  let tableName := colNameStmt.table.o
  let colName := colNameStmt.name.o
  match (t.schemaTables.lookup schemaName).bind (·.lookup tableName) with
  | some table => (tableExistCol table colName, false)
  | none =>
    if schemaName != "" then (false, false)
    else t.schemaTables.foldl (fun acc schema =>
      let acc := match schema.2.lookup tableName with
        | some table => colHit acc (tableExistCol table colName)
        | none => acc
      if tableName != "" then acc
      else schema.2.foldl (fun acc e => colHit acc (tableExistCol e.2 colName)) acc) (false, false)

theorem colHit_foldl (l : List Bool) (e a : Bool) :
    l.foldl colHit (e, a) =
      (e || 0 < l.count true, a || (e && 0 < l.count true) || 2 ≤ l.count true) := by
  induction l generalizing e a with
  | nil => simp
  | cons x l ih =>
    cases x
    · simp [colHit, ih]
    · rw [List.foldl_cons, colHit, if_pos rfl, ih, List.count_cons_self]
      cases e <;> cases a <;> simp
      exact fun h => List.count_pos_iff.mp (by omega)

/-- The tables the scan of `checkColumnByName` visits in a schema, in the order it visits them:
the table of the reference's name, and every table when that name is empty. -/
def schemaScan (tableName : String) (schema : String × List (String × CreateTable)) :
    List CreateTable :=
  (schema.2.lookup tableName).toList ++ if tableName != "" then [] else schema.2.map Prod.snd

theorem schemaScan_foldl (tableName colName : String)
    (schema : String × List (String × CreateTable)) (acc : Bool × Bool) :
    (let acc := match schema.2.lookup tableName with
      | some table => colHit acc (tableExistCol table colName)
      | none => acc
    if tableName != "" then acc
    else schema.2.foldl (fun acc e => colHit acc (tableExistCol e.2 colName)) acc) =
      ((schemaScan tableName schema).map (tableExistCol · colName)).foldl colHit acc := by
  obtain ⟨_, tables⟩ := schema
  dsimp only [schemaScan]
  cases tables.lookup tableName <;> by_cases ht : tableName = "" <;> simp [ht, List.foldl_map]

theorem scan_foldl (schemaTables : List (String × List (String × CreateTable)))
    (tableName colName : String) (acc : Bool × Bool) :
    schemaTables.foldl (fun acc schema =>
      let acc := match schema.2.lookup tableName with
        | some table => colHit acc (tableExistCol table colName)
        | none => acc
      if tableName != "" then acc
      else schema.2.foldl (fun acc e => colHit acc (tableExistCol e.2 colName)) acc) acc =
      ((schemaTables.flatMap (schemaScan tableName)).map (tableExistCol · colName)).foldl
        colHit acc := by
  induction schemaTables generalizing acc with
  | nil => rfl
  | cons schema schemaTables ih =>
    rw [List.foldl_cons, schemaScan_foldl, ih, List.flatMap_cons, List.map_append,
      List.foldl_append]

/-! ## Resolution as the spec states it -/

/-- The tables a reference may name: the qualified table when the catalog has it, none for any
other qualified reference, every table of that name in any schema, or every table for a bare
name. -/
def candidateTables (t : TableChecker) (ref : ColumnName) : List CreateTable :=
  match (t.schemaTables.lookup ref.schema.o).bind (·.lookup ref.table.o) with
  | some table => [table]
  | none =>
    if ref.schema.o ≠ "" then []
    else if ref.table.o ≠ "" then t.schemaTables.filterMap (·.2.lookup ref.table.o)
    else t.schemaTables.flatMap (·.2.map Prod.snd)

/-- A table holds a column when one of its column names is the name ignoring case, as MySQL
resolves column names. -/
def holdsColumnIgnoreCase (table : CreateTable) (colName : String) : Bool :=
  table.cols.any fun c => c.name.o.toList.map Char.toLower == colName.toList.map Char.toLower

/-- `(exists, ambiguous)` over the candidates: some candidate holds the column, two do. -/
def resolveColumn (holds : CreateTable → Bool) (t : TableChecker) (ref : ColumnName) :
    Bool × Bool :=
  let hits := (candidateTables t ref).filter holds
  (0 < hits.length, 2 ≤ hits.length)

theorem count_true_map {β : Type} (l : List β) (p : β → Bool) :
    (l.map p).count true = (l.filter p).length := by
  simp [List.count, List.countP_map, List.countP_eq_length_filter, Function.comp_def,
    List.filter_map]

theorem flatMap_schemaScan (t : TableChecker) (tableName : String)
    (hnamed : ∀ s ∈ t.schemaTables, s.2.lookup "" = none) :
    t.schemaTables.flatMap (schemaScan tableName) =
      if tableName ≠ "" then t.schemaTables.filterMap (·.2.lookup tableName)
      else t.schemaTables.flatMap (·.2.map Prod.snd) := by
  by_cases ht : tableName = ""
  · subst ht
    rw [if_neg (not_not.mpr rfl)]
    exact List.flatMap_congr fun s hs => by simp [schemaScan, hnamed s hs]
  · rw [if_pos ht, List.filterMap_eq_flatMap_toList]
    exact List.flatMap_congr fun s _ => by simp [schemaScan, ht]

/-- `db.t` with the one column `ID`. -/
def upperIdTable : CreateTable :=
  ⟨⟨⟨"db", "db"⟩, ⟨"t", "t"⟩⟩, [⟨⟨"ID", "id"⟩, "int", []⟩], []⟩

/-- The reference `db.t.id` against a catalog holding `db.t` with the column `ID`: the spec
resolves it to that column, `checkColumnByName` finds nothing. -/
theorem checkColumnByName_misses_column_of_other_case :
    checkColumnByName (TableChecker.empty.add "db" "t" upperIdTable)
        ⟨⟨"db", "db"⟩, ⟨"t", "t"⟩, ⟨"id", "id"⟩⟩ = (false, false) ∧
      resolveColumn (holdsColumnIgnoreCase · "id") (TableChecker.empty.add "db" "t" upperIdTable)
        ⟨⟨"db", "db"⟩, ⟨"t", "t"⟩, ⟨"id", "id"⟩⟩ = (true, false) := by
  decide

end Ast
end Dtle
