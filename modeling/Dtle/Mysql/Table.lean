import Dtle.Mysql.Inspect

/-!
# Dtle.Mysql.Table

The table checks of `Inspector.ValidateOriginalTable`: the choice of the unique key the
extractor will use, and `validateTable`.

The key loop checks each candidate (its column types, as `ApplyColumnTypes` sets them, its
nullability, and whether it is the primary key when the binlog row image is not `FULL`), takes
a valid primary key and breaks, and otherwise keeps the first valid key unless one was set on
entry. `selectUniqueKey_eq` reads the loop as a lookup: the first valid primary key, else the
key set on entry, else the first valid key.

`validateTable` asks the server `show table status from <db> like '<tableName>'`, fails on a
row whose comment is `VIEW`, and succeeds on any other row (`validateTable_eq`). The server
reads the table name as a LIKE pattern (`likeMatch`), so what decides is every table whose name
the pattern matches.
-/

namespace Dtle
namespace Mysql

/-! ## The unique key -/

/-- The column types of `umconf` as the key loop tells them apart. -/
inductive ColumnType where
  | float | json | other
  deriving DecidableEq, Repr

/-- `umconf.Column`, reduced to the name and the type. -/
structure Column where
  name : String
  type : ColumnType
  deriving DecidableEq, Repr

/-- `common.UniqueKey`, reduced to what the loop reads. -/
structure UniqueKey where
  name : String
  columns : List Column
  hasNullable : Bool
  deriving DecidableEq, Repr

section KeySelection

-- `UniqueKey.IsPrimary` and `ubase.ApplyColumnTypes`, whose code is not in the repository's
-- files; the second sets the types of a key's columns from the server
variable (isPrimary : UniqueKey → Bool) (applyColumnTypes : List Column → List Column)

/-- `ubase.ApplyColumnTypes(i.db, schema, table, &uk.Columns)`. -/
def withColumnTypes (uk : UniqueKey) : UniqueKey :=
  { uk with columns := applyColumnTypes uk.columns }

/-- The checks of the loop body, in the order the code makes them. -/
def uniqueKeyIsValid (binlogRowImage : String) (uk : UniqueKey) : Bool :=
  let valid := uk.columns.foldl (fun valid column =>
    match column.type with
    | .float => false
    | .json => false
    | _ => valid) true
  let valid := if uk.hasNullable then false else valid
  if !isPrimary uk && "FULL" != binlogRowImage then false else valid

/-- The key selection loop of `ValidateOriginalTable`, from `table.UseUniqueKey` on entry to
`table.UseUniqueKey` on exit. -/
def selectUniqueKey (binlogRowImage : String) :
    List UniqueKey → Option UniqueKey → Option UniqueKey
  | [], useUniqueKey => useUniqueKey
  | uk :: uniqueKeys, useUniqueKey =>
    let uk := withColumnTypes applyColumnTypes uk
    if uniqueKeyIsValid isPrimary binlogRowImage uk then
      if isPrimary uk then some uk
      else selectUniqueKey binlogRowImage uniqueKeys
        (if useUniqueKey.isNone then some uk else useUniqueKey)
    else selectUniqueKey binlogRowImage uniqueKeys useUniqueKey

/-- A valid key: no FLOAT or JSON column, no nullable column, and the primary key or a binlog
row image of `FULL`. -/
def keyValid (binlogRowImage : String) (uk : UniqueKey) : Bool :=
  uk.columns.all (fun c => c.type != .float && c.type != .json) && !uk.hasNullable &&
    (isPrimary uk || binlogRowImage == "FULL")

theorem columnTypes_foldl (cols : List Column) (v : Bool) :
    cols.foldl (fun valid column =>
      match column.type with
      | .float => false
      | .json => false
      | _ => valid) v = (v && cols.all fun c => c.type != .float && c.type != .json) := by
  induction cols generalizing v with
  | nil => simp
  | cons c cols ih =>
    obtain ⟨_, type⟩ := c
    rw [List.foldl_cons, ih]
    cases type <;> cases v <;> rfl

theorem uniqueKeyIsValid_eq (binlogRowImage : String) (uk : UniqueKey) :
    uniqueKeyIsValid isPrimary binlogRowImage uk = keyValid isPrimary binlogRowImage uk := by
  rw [uniqueKeyIsValid, keyValid, columnTypes_foldl]
  by_cases h : binlogRowImage = "FULL"
  · subst h; cases isPrimary uk <;> cases uk.hasNullable <;> simp
  · cases isPrimary uk <;> cases uk.hasNullable <;> simp [h, Ne.symm h]

theorem selectUniqueKey_eq_lookup (binlogRowImage : String) (uniqueKeys : List UniqueKey)
    (u0 : Option UniqueKey) :
    selectUniqueKey isPrimary applyColumnTypes binlogRowImage uniqueKeys u0 =
      (((uniqueKeys.map (withColumnTypes applyColumnTypes)).find?
          fun k => keyValid isPrimary binlogRowImage k && isPrimary k).or u0).or
        ((uniqueKeys.map (withColumnTypes applyColumnTypes)).find?
          (keyValid isPrimary binlogRowImage)) := by
  induction uniqueKeys generalizing u0 with
  | nil => cases u0 <;> rfl
  | cons uk uniqueKeys ih =>
    rw [selectUniqueKey, uniqueKeyIsValid_eq, List.map_cons, List.find?_cons, List.find?_cons]
    by_cases hv : keyValid isPrimary binlogRowImage (withColumnTypes applyColumnTypes uk)
    · by_cases hp : isPrimary (withColumnTypes applyColumnTypes uk)
      · simp [hv, hp]
      · cases u0 <;> simp [hv, hp, ih, Option.or_assoc]
    · simp [hv, ih]

/-- What the loop leaves in `table.UseUniqueKey`: the first valid primary key, else the key on
entry, else the first valid key; a key it chooses from nothing is a valid candidate, and running
the loop again on the same candidates leaves the choice as it is. -/
theorem selectUniqueKey_eq (binlogRowImage : String) (uniqueKeys : List UniqueKey)
    (u0 : Option UniqueKey) :
    selectUniqueKey isPrimary applyColumnTypes binlogRowImage uniqueKeys u0 =
      (((uniqueKeys.map (withColumnTypes applyColumnTypes)).find?
          fun k => keyValid isPrimary binlogRowImage k && isPrimary k).or u0).or
        ((uniqueKeys.map (withColumnTypes applyColumnTypes)).find?
          (keyValid isPrimary binlogRowImage)) ∧
    (u0 = none → ∀ k, selectUniqueKey isPrimary applyColumnTypes binlogRowImage uniqueKeys u0 =
      some k → k ∈ uniqueKeys.map (withColumnTypes applyColumnTypes) ∧
        keyValid isPrimary binlogRowImage k = true) ∧
    selectUniqueKey isPrimary applyColumnTypes binlogRowImage uniqueKeys
        (selectUniqueKey isPrimary applyColumnTypes binlogRowImage uniqueKeys u0) =
      selectUniqueKey isPrimary applyColumnTypes binlogRowImage uniqueKeys u0 := by
  set cands := uniqueKeys.map (withColumnTypes applyColumnTypes)
  have hfind : ∀ {p : UniqueKey → Bool} {k}, cands.find? p = some k → k ∈ cands ∧ p k :=
    fun h => ⟨List.mem_of_find?_eq_some h, List.find?_some h⟩
  refine ⟨selectUniqueKey_eq_lookup _ _ _ _ _, fun h0 k hk => ?_, ?_⟩
  · rw [selectUniqueKey_eq_lookup, h0, Option.or_none] at hk
    cases hP : cands.find? fun k => keyValid isPrimary binlogRowImage k && isPrimary k with
    | some k' =>
      rw [hP, Option.or_some, Option.some_inj] at hk
      subst hk
      obtain ⟨hmem, hvp⟩ := hfind hP
      exact ⟨hmem, (Bool.and_eq_true _ _ ▸ hvp).1⟩
    | none => rw [hP, Option.none_or] at hk; exact hfind hk
  · rw [selectUniqueKey_eq_lookup, selectUniqueKey_eq_lookup]
    cases cands.find? fun k => keyValid isPrimary binlogRowImage k && isPrimary k <;>
      cases u0 <;> cases cands.find? (keyValid isPrimary binlogRowImage) <;> rfl

end KeySelection

/-! ## `validateTable` -/

/-- A row of `show table status`: its `Name` and `Comment` columns. -/
structure TableStatusRow where
  name : String
  comment : String
  deriving DecidableEq, Repr

section ValidateTable

-- `umconf.EscapeName`, whose code is not in the repository's files
variable (escapeName : String → String)

/-- `validateTable(databaseName, tableName)`. The server is handed what the query
`show table status from <EscapeName(databaseName)> like '<tableName>'` names: the database and
the text of the literal. `QueryRowsMap` calls the callback on each row and stops at its first
error. -/
def validateTable (showTableStatus : String → String → Except String (List TableStatusRow))
    (databaseName tableName : String) : Except String Unit := do
  let rows ← showTableStatus databaseName tableName
  let tableFound ← rows.foldlM (fun _ row =>
    if row.comment = "VIEW" then
      throw (escapeName databaseName ++ "." ++ escapeName tableName ++
        " is a VIEW, not a real table. Bailing out")
    else pure true) false
  if !tableFound then
    throw ("Cannot find table " ++ escapeName databaseName ++ "." ++ escapeName tableName ++ "!")

theorem tableFound_foldlM (databaseName tableName : String) (rows : List TableStatusRow)
    (found : Bool) :
    rows.foldlM (m := Except String) (fun _ row =>
      if row.comment = "VIEW" then
        throw (escapeName databaseName ++ "." ++ escapeName tableName ++
          " is a VIEW, not a real table. Bailing out")
      else pure true) found =
      if rows.any (·.comment = "VIEW") then
        .error (escapeName databaseName ++ "." ++ escapeName tableName ++
          " is a VIEW, not a real table. Bailing out")
      else .ok (found || !rows.isEmpty) := by
  induction rows generalizing found with
  | nil => simp; rfl
  | cons row rows ih =>
    rw [List.foldlM_cons]
    by_cases hv : row.comment = "VIEW"
    · simp [hv]; rfl
    · simp [hv, ih]

theorem validateTable_eq (showTableStatus : String → String → Except String (List TableStatusRow))
    (databaseName tableName : String) :
    validateTable escapeName showTableStatus databaseName tableName =
      match showTableStatus databaseName tableName with
      | .error e => .error e
      | .ok rows =>
        if rows.any (·.comment = "VIEW") then
          .error (escapeName databaseName ++ "." ++ escapeName tableName ++
            " is a VIEW, not a real table. Bailing out")
        else if rows.isEmpty then
          .error ("Cannot find table " ++ escapeName databaseName ++ "." ++
            escapeName tableName ++ "!")
        else .ok () := by
  unfold validateTable
  cases showTableStatus databaseName tableName with
  | error e => rfl
  | ok rows =>
    dsimp only [bind, Except.bind]
    rw [tableFound_foldlM]
    by_cases hv : rows.any (·.comment = "VIEW")
    · rw [if_pos hv, if_pos hv]
    · rw [if_neg hv, if_neg hv]
      cases rows <;> rfl

/-! ## The server's side -/

/-- MySQL's LIKE on the characters of a name: `%` matches any run, `_` any one character, `\`
takes the next character as it is, and any other character itself. -/
def likeMatch : List Char → List Char → Bool
  | [], s => s.isEmpty
  | '%' :: p, s => (List.range (s.length + 1)).any fun i => likeMatch p (s.drop i)
  | '_' :: p, s => match s with
    | [] => false
    | _ :: s => likeMatch p s
  | '\\' :: c :: p, s => match s with
    | [] => false
    | d :: s => c == d && likeMatch p s
  | c :: p, s => match s with
    | [] => false
    | d :: s => c == d && likeMatch p s

/-- A table or view of a database: its name, whether it is a view, and its comment. -/
structure TableObject where
  name : String
  isView : Bool
  comment : String
  deriving DecidableEq, Repr

/-- How MySQL answers `show table status from <db> like '<pattern>'`: a row for each table or
view of the database whose name the pattern matches, with the comment `VIEW` for a view. -/
def showTableStatusLike (catalog : String → List TableObject) (databaseName pattern : String) :
    Except String (List TableStatusRow) :=
  .ok (((catalog databaseName).filter fun o => likeMatch pattern.toList o.name.toList).map
    fun o => ⟨o.name, if o.isView then "VIEW" else o.comment⟩)

theorem validateTable_showTableStatusLike (catalog : String → List TableObject)
    (databaseName tableName : String) :
    validateTable escapeName (showTableStatusLike catalog) databaseName tableName =
      let matched := (catalog databaseName).filter
        fun o => likeMatch tableName.toList o.name.toList
      if matched.any (fun o => o.isView || o.comment = "VIEW") then
        .error (escapeName databaseName ++ "." ++ escapeName tableName ++
          " is a VIEW, not a real table. Bailing out")
      else if matched.isEmpty then
        .error ("Cannot find table " ++ escapeName databaseName ++ "." ++
          escapeName tableName ++ "!")
      else .ok () := by
  have hrows : ∀ l : List TableObject,
      (l.map fun o => (⟨o.name, if o.isView then "VIEW" else o.comment⟩ : TableStatusRow)).any
        (·.comment = "VIEW") = l.any fun o => o.isView || o.comment = "VIEW" := by
    intro l
    induction l with
    | nil => rfl
    | cons o l ih => rw [List.map_cons, List.any_cons, List.any_cons, ih]; cases o.isView <;> simp
  have hempty : ∀ (f : TableObject → TableStatusRow) (l : List TableObject),
      (l.map f).isEmpty = l.isEmpty := fun _ l => by cases l <;> rfl
  rw [validateTable_eq, showTableStatusLike]
  simp only [hrows, hempty]

/-- The pattern `a_b` decides on `axb`: with only a base table `axb`, the check of `a_b`
succeeds; with a base table `a_b` and a view `axb`, it fails as a view. -/
theorem validateTable_decided_by_like_match :
    validateTable escapeName (showTableStatusLike fun _ => [⟨"axb", false, ""⟩]) "d" "a_b" =
      .ok () ∧
    validateTable escapeName
        (showTableStatusLike fun _ => [⟨"a_b", false, ""⟩, ⟨"axb", true, ""⟩]) "d" "a_b" =
      .error (escapeName "d" ++ "." ++ escapeName "a_b" ++
        " is a VIEW, not a real table. Bailing out") := by
  constructor <;> rw [validateTable_showTableStatusLike] <;> rfl

end ValidateTable

end Mysql
end Dtle
