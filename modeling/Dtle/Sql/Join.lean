import Dtle.Sql.Ast

/-!
# Dtle.Sql.Join

`getTables` and `getTableSources` walk the join tree of a FROM clause. Each looks at the two
sides of a `*ast.Join`: a `TableSource` side is taken (by `getTables` only when it reads from a
`*ast.TableName`), a `Join` side is walked, anything else is passed over. `getTableSources`
takes the left side first and `getTables` the right side first.

What a join holds is its fringe (`sourcesOf`): the table sources reached through joins, left to
right, one entry for each. `getTableSources` lists the fringe and `getTables` lists the tables
of the fringe backwards (`getTables_eq_reverse`).

`getTableNameWithQuote` puts the names in backquotes and does not escape a backquote inside
them: the quoted form reads back, split at the backquotes, when no name holds one, and a
backquote in a name can make two tables quote the same (`getTableNameWithQuote_readQuotedName`).
-/

namespace Dtle
namespace Ast

/-- What an `ast.TableSource` reads from: a `*ast.TableName`, or any other result set (a
subquery, a union). -/
inductive Source where
  | tableName (t : TableName)
  | other
  deriving DecidableEq, Repr

/-- `ast.TableSource`, reduced to its source. -/
structure TableSource where
  source : Source
  deriving DecidableEq, Repr

/-- The type assertion `t.Source.(*ast.TableName)`. -/
def TableSource.asTableName : TableSource → Option TableName
  | ⟨.tableName t⟩ => some t
  | ⟨.other⟩ => none

/-- `ast.ResultSetNode` as the side of a join holds it: a `TableSource`, a `*ast.Join`, any other
node, or nil. The argument of the walks is a `*ast.Join`: `join` when it is not nil and `nil`
when it is; a nil `*ast.Join` on a side walks as `nil` does. -/
inductive ResultSetNode where
  | tableSource (t : TableSource)
  | join (left right : ResultSetNode)
  | other
  | nil
  deriving DecidableEq, Repr

/-- `getTables(stmt)`: the right side, then the left side. -/
def getTables : ResultSetNode → List TableName
  | .join left right =>
    (match right with
      | .tableSource ⟨.tableName tableName⟩ => [tableName]
      | .join l r => getTables (.join l r)
      | _ => []) ++
    (match left with
      | .tableSource ⟨.tableName tableName⟩ => [tableName]
      | .join l r => getTables (.join l r)
      | _ => [])
  | _ => []

/-- `getTableSources(stmt)`: the left side, then the right side. -/
def getTableSources : ResultSetNode → List TableSource
  | .join left right =>
    (match left with
      | .tableSource t => [t]
      | .join l r => getTableSources (.join l r)
      | _ => []) ++
    (match right with
      | .tableSource t => [t]
      | .join l r => getTableSources (.join l r)
      | _ => [])
  | _ => []

/-! ## The fringe of a join -/

/-- The table sources a node holds through joins, left to right, one entry for each. -/
def sourcesOf : ResultSetNode → List TableSource
  | .tableSource t => [t]
  | .join left right => sourcesOf left ++ sourcesOf right
  | _ => []

/-- What `getTables` collects from a side: the tables of its fringe, right to left. -/
def tablesOf : ResultSetNode → List TableName
  | .tableSource t => t.asTableName.toList
  | .join left right => tablesOf right ++ tablesOf left
  | _ => []

theorem tablesOf_eq (n : ResultSetNode) :
    tablesOf n = ((sourcesOf n).filterMap TableSource.asTableName).reverse := by
  induction n with
  | tableSource t => rcases t with ⟨_ | _⟩ <;> rfl
  | join l r ihl ihr =>
    rw [tablesOf, sourcesOf, ihl, ihr, List.filterMap_append, List.reverse_append]
  | other => rfl
  | nil => rfl

theorem getTables_side (n : ResultSetNode) :
    (match n with
      | .tableSource ⟨.tableName tableName⟩ => [tableName]
      | .join l r => getTables (.join l r)
      | _ => []) = tablesOf n := by
  induction n with
  | tableSource t => rcases t with ⟨_ | _⟩ <;> rfl
  | join l r ihl ihr =>
    show getTables (.join l r) = _
    rw [getTables.eq_def]
    dsimp only
    rw [ihl, ihr, tablesOf]
  | other => rfl
  | nil => rfl

theorem getTableSources_side (n : ResultSetNode) :
    (match n with
      | .tableSource t => [t]
      | .join l r => getTableSources (.join l r)
      | _ => []) = sourcesOf n := by
  induction n with
  | tableSource t => rfl
  | join l r ihl ihr =>
    show getTableSources (.join l r) = _
    rw [getTableSources.eq_def]
    dsimp only
    rw [ihl, ihr, sourcesOf]
  | other => rfl
  | nil => rfl

theorem getTables_join (l r : ResultSetNode) : getTables (.join l r) = tablesOf (.join l r) :=
  getTables_side (.join l r)

theorem getTableSources_join (l r : ResultSetNode) :
    getTableSources (.join l r) = sourcesOf (.join l r) :=
  getTableSources_side (.join l r)

/-- On every join tree (and on nil), `getTables` is the reverse of the tables among
`getTableSources`, and `getTableSources` of a join is its fringe, left to right. -/
theorem getTables_eq_reverse (j : ResultSetNode) :
    getTables j = ((getTableSources j).filterMap TableSource.asTableName).reverse ∧
      ∀ l r, getTableSources (.join l r) = sourcesOf (.join l r) := by
  refine ⟨?_, getTableSources_join⟩
  cases j with
  | join l r => rw [getTables_join, getTableSources_join, tablesOf_eq]
  | _ => rfl

/-! ## Quoted table names -/

/-- `getTableNameWithQuote(stmt)`: the name in backquotes, after the schema in backquotes and a
dot when there is a schema. A `CIStr` prints as its original text. -/
def getTableNameWithQuote (stmt : TableName) : String :=
  if stmt.schema.o = "" then "`" ++ stmt.name.o ++ "`"
  else "`" ++ stmt.schema.o ++ "`.`" ++ stmt.name.o ++ "`"

def backquote : Char := Char.ofNat 96

/-- Reading a quoted name back, split at the backquotes: a name alone, or a schema, a dot and a
name. -/
def readQuotedName (s : String) : Option (String × String) :=
  match s.toList.splitOn backquote with
  | [[], name, []] => some ("", String.mk name)
  | [[], schema, ['.'], name, []] => some (String.mk schema, String.mk name)
  | _ => none

theorem getTableNameWithQuote_toList (stmt : TableName) :
    (getTableNameWithQuote stmt).toList = [backquote].intercalate
      (if stmt.schema.o = "" then [[], stmt.name.o.toList, []]
        else [[], stmt.schema.o.toList, ['.'], stmt.name.o.toList, []]) := by
  unfold getTableNameWithQuote
  split <;> simp [List.intercalate, backquote]

/-- A name without backquotes reads back from its quoted form; a backquote in a name makes the
quoted form ambiguous: for every schema and name, the table with no schema whose name is the
schema in backquotes, a dot and the name in backquotes quotes as the table of that schema does. -/
theorem getTableNameWithQuote_readQuotedName :
    (∀ stmt : TableName, backquote ∉ stmt.schema.o.toList → backquote ∉ stmt.name.o.toList →
      readQuotedName (getTableNameWithQuote stmt) = some (stmt.schema.o, stmt.name.o)) ∧
    ∀ (schema name : CIStr), schema.o ≠ "" →
      getTableNameWithQuote ⟨⟨"", ""⟩, ⟨schema.o ++ "`.`" ++ name.o, name.l⟩⟩ =
        getTableNameWithQuote ⟨schema, name⟩ := by
  refine ⟨fun stmt hs hn => ?_, fun schema name hs => ?_⟩
  · rw [readQuotedName, getTableNameWithQuote_toList]
    by_cases h0 : stmt.schema.o = ""
    · rw [if_pos h0, List.splitOn_intercalate _ backquote (by simpa [String.toList] using hn)
        (by simp), h0]
      rfl
    · rw [if_neg h0, List.splitOn_intercalate _ backquote
        (by simpa [String.toList] using ⟨hs, (by decide : backquote ≠ '.'), hn⟩) (by simp)]
      rfl
  · simp [getTableNameWithQuote, hs, String.append_assoc]

theorem getTableNameWithQuote_db_t :
    readQuotedName (getTableNameWithQuote ⟨⟨"db", "db"⟩, ⟨"t", "t"⟩⟩) = some ("db", "t") ∧
      getTableNameWithQuote ⟨⟨"", ""⟩, ⟨"db" ++ "`.`" ++ "t", "t"⟩⟩ =
        getTableNameWithQuote ⟨⟨"db", "db"⟩, ⟨"t", "t"⟩⟩ :=
  ⟨getTableNameWithQuote_readQuotedName.1 _ (by decide) (by decide),
    getTableNameWithQuote_readQuotedName.2 ⟨"db", "db"⟩ ⟨"t", "t"⟩ (by decide)⟩

end Ast
end Dtle
