import Dtle.Sql.Fold

/-!
# Dtle.Sql.FoldAll

The reference fold of section 4.2 on every kind of spec: `foldTable` with the two kinds that edit
a column's options put where `mergeAlterToTable` takes them, ALTER COLUMN after MODIFY COLUMN
and DROP PRIMARY KEY after ADD COLUMN.

* ALTER COLUMN ... DROP DEFAULT removes the column's DEFAULT options; SET DEFAULT overwrites them
  with the new one, or appends it when there is none (`alterOptions`);
* DROP PRIMARY KEY removes the PRIMARY KEY constraints and every column's PRIMARY KEY options,
  and gives up on a table without a primary key (`dropPrimaryKey`).

The code deletes while it ranges, which is right only where at most one element matches
(`Column.optionsSingle`, `CreateTable.coveredAll`); SET DEFAULT carries one DEFAULT option, as
the parser gives it, and then editing a column twice edits it once (`alterOptions_idem`).

`IsAllInOptions` builds a Go map of the listed types some option has and then asks it for each
listed type; it holds exactly when `HasOneInOptions` holds of each (`isAllInOptions_eq`).
-/

namespace Dtle
namespace Ddl

open Ast

/-- `col.Options[i] = d` at a DEFAULT option. -/
def overwriteDefault (d op : ColumnOption) : ColumnOption :=
  if op.tp == .defaultValue then d else op

/-- ALTER COLUMN on the options of a matching column: no new options (DROP DEFAULT) removes the
DEFAULT options; otherwise the first new option overwrites every DEFAULT option, or, when there
is none, the new options are appended. -/
def alterOptions (options newOptions : List ColumnOption) : List ColumnOption :=
  if newOptions.isEmpty then options.filter (·.tp != .defaultValue)
  else if hasOneInOptions options [.defaultValue] then
    options.map (overwriteDefault (newOptions.headD default))
  else options ++ newOptions

/-- The column after ALTER COLUMN with the new column `new`. -/
def Column.alter (c new : Column) : Column :=
  { c with options := alterOptions c.options new.options }

/-- ALTER COLUMN: edit the options of every column of the new column's name. -/
def alterColumn (cols : List Column) (spec : AlterSpec) : Option (List Column) :=
  let new := spec.newColumns.headD default
  if hasColumn cols new.name.l then
    some (cols.map fun c => if c.name.l == new.name.l then c.alter new else c)
  else none

/-- A column without its PRIMARY KEY options. -/
def Column.dropPk (c : Column) : Column :=
  { c with options := c.options.filter (·.tp != .primaryKey) }

/-- DROP PRIMARY KEY: on a table that has a primary key, the PRIMARY KEY constraints and options
go. -/
def dropPrimaryKey (t : List Column × List Constraint) (_ : AlterSpec) :
    Option (List Column × List Constraint) :=
  if tableHasPrimaryKey t.1 t.2 then some (t.1.map Column.dropPk, t.2.filter (·.tp != .primaryKey))
  else none

/-- The columns after the column specs, ALTER COLUMN included. -/
def foldColsAll (specs : List AlterSpec) (cols : List Column) : Option (List Column) := do
  let cols ← (specsOf specs .dropColumn).foldlM dropColumn cols
  let cols ← (specsOf specs .changeColumn).foldlM changeColumn cols
  let cols ← (specsOf specs .modifyColumn).foldlM modifyColumn cols
  let cols ← (specsOf specs .alterColumn).foldlM alterColumn cols
  (specsOf specs .addColumns).foldlM addColumns cols

/-- The reference fold on every kind of spec. -/
def foldAll (c : CreateTable) (specs : List AlterSpec) : Option CreateTable := do
  let cols ← foldColsAll specs c.cols
  let (cols, cons) ← (specsOf specs .dropPrimaryKey).foldlM dropPrimaryKey (cols, c.constraints)
  let cons ← foldCons specs cols cons
  pure ⟨(specsOf specs .renameTable).foldl (fun _ spec => spec.newTable) c.table, cols, cons⟩

/-! ## What the fold covers -/

/-- Options a range that deletes can edit: at most one DEFAULT and one PRIMARY KEY option. -/
def optionsSingle (options : List ColumnOption) : Bool :=
  decide (options.countP (·.tp == .defaultValue) ≤ 1) &&
    decide (options.countP (·.tp == .primaryKey) ≤ 1)

/-- The options of ALTER COLUMN's new column as the parser gives them: none (DROP DEFAULT) or
one DEFAULT option (SET DEFAULT). -/
def newDefault (options : List ColumnOption) : Bool :=
  decide (options.length ≤ 1) && options.all (·.tp == .defaultValue)

/-- A spec the full fold covers: what `AlterSpec.covered` asks of the other kinds, a new column
with `newDefault` options for ALTER COLUMN, and new columns with `optionsSingle` options. -/
def AlterSpec.coveredAll (v : AlterSpec) : Bool :=
  (match v.tp with
    | .alterColumn => v.newColumns.head?.any fun c => newDefault c.options
    | .dropPrimaryKey => true
    | _ => v.covered) && v.newColumns.all fun c => optionsSingle c.options

/-- A table the full fold covers: what `CreateTable.covered` asks, at most one PRIMARY KEY
constraint, and `optionsSingle` options in every column. -/
def CreateTable.coveredAll (c : CreateTable) : Bool :=
  c.covered && decide (c.constraints.countP (·.tp == .primaryKey) ≤ 1) &&
    c.cols.all fun c => optionsSingle c.options

/-! ## The options of one column -/

theorem hasOneInOptions_default (options : List ColumnOption) :
    hasOneInOptions options [.defaultValue] = options.any (·.tp == .defaultValue) := by
  simp only [hasOneInOptions, List.any_cons, List.any_nil, Bool.or_false]
  exact congrArg options.any (funext fun _ => Bool.beq_comm)

/-- `exists[tp] = true` on a Go `map[ast.ColumnOptionType]bool` that only ever holds `true`:
the map kept as its keys. -/
def setKey (m : List ColumnOptionType) (k : ColumnOptionType) : List ColumnOptionType :=
  if k ∈ m then m else m ++ [k]

/-- `IsAllInOptions(Options, opTp...)`: the loop marks in `exists` each listed type that an option
has, and the check asks the map for every listed type. -/
def isAllInOptions (options : List ColumnOption) (opTp : List ColumnOptionType) : Bool :=
  let existsMap := opTp.foldl (fun m tp =>
    options.foldl (fun m op => if tp == op.tp then setKey m tp else m) m) []
  opTp.all fun tp => tp ∈ existsMap

theorem mem_setKey {m : List ColumnOptionType} {k x : ColumnOptionType} :
    x ∈ setKey m k ↔ x ∈ m ∨ x = k := by
  unfold setKey; split <;> simp_all [or_iff_left_of_imp]

theorem mem_foldl_mark (tp x : ColumnOptionType) :
    ∀ (options : List ColumnOption) (m : List ColumnOptionType),
      x ∈ options.foldl (fun m op => if tp == op.tp then setKey m tp else m) m ↔
        x ∈ m ∨ (x = tp ∧ options.any fun op => tp == op.tp)
  | [], m => by simp
  | op :: options, m => by
    rw [List.foldl_cons, mem_foldl_mark tp x options]
    by_cases h : tp == op.tp
    · simp only [h, if_true, mem_setKey, List.any_cons, Bool.true_or, and_true]; tauto
    · simp [h]

theorem mem_existsMap (options : List ColumnOption) (x : ColumnOptionType) :
    ∀ (opTp : List ColumnOptionType) (m : List ColumnOptionType),
      x ∈ opTp.foldl (fun m tp =>
          options.foldl (fun m op => if tp == op.tp then setKey m tp else m) m) m ↔
        x ∈ m ∨ (x ∈ opTp ∧ options.any fun op => x == op.tp)
  | [], m => by simp
  | tp :: opTp, m => by
    rw [List.foldl_cons, mem_existsMap options x opTp, mem_foldl_mark]
    constructor
    · rintro ((hm | ⟨rfl, ho⟩) | ⟨hx, ho⟩)
      exacts [.inl hm, .inr ⟨List.mem_cons_self _ _, ho⟩, .inr ⟨List.mem_cons_of_mem _ hx, ho⟩]
    · rintro (hm | ⟨hx, ho⟩)
      · exact .inl (.inl hm)
      · rcases List.mem_cons.mp hx with rfl | hx
        exacts [.inl (.inr ⟨rfl, ho⟩), .inr ⟨hx, ho⟩]

/-- `IsAllInOptions` holds exactly when `HasOneInOptions` holds of each listed type: the map the
loop builds marks a listed type exactly when an option has it. -/
theorem isAllInOptions_eq (options : List ColumnOption) (opTp : List ColumnOptionType) :
    isAllInOptions options opTp = opTp.all fun tp => hasOneInOptions options [tp] := by
  rw [isAllInOptions, Bool.eq_iff_iff]
  simp only [List.all_eq_true, decide_eq_true_eq, mem_existsMap, List.not_mem_nil, false_or,
    hasOneInOptions, List.any_cons, List.any_nil, Bool.or_false]
  exact ⟨fun h tp htp => (h tp htp).2, fun h tp htp => ⟨htp, h tp htp⟩⟩

theorem newDefault_cases {options : List ColumnOption} (h : newDefault options) :
    options = [] ∨ ∃ d, options = [d] ∧ d.tp = .defaultValue := by
  match options, h with
  | [], _ => exact .inl rfl
  | [d], h => exact .inr ⟨d, rfl, by simpa [newDefault] using h⟩
  | _ :: _ :: _, h => simp [newDefault] at h

section Overwrite

variable {d : ColumnOption} (hd : d.tp = .defaultValue)
include hd

theorem tp_overwriteDefault (op : ColumnOption) : (overwriteDefault d op).tp = op.tp := by
  unfold overwriteDefault; split <;> simp_all

theorem overwriteDefault_idem (op : ColumnOption) :
    overwriteDefault d (overwriteDefault d op) = overwriteDefault d op := by
  unfold overwriteDefault; split <;> simp_all

theorem any_map_overwriteDefault (options : List ColumnOption) (k : ColumnOptionType) :
    (options.map (overwriteDefault d)).any (·.tp == k) = options.any (·.tp == k) := by
  simp only [List.any_map, Function.comp_def, tp_overwriteDefault hd]

omit hd in
theorem map_overwriteDefault_of_none {options : List ColumnOption}
    (h : options.any (·.tp == .defaultValue) = false) :
    options.map (overwriteDefault d) = options := by
  conv_rhs => rw [← List.map_id options]
  refine List.map_congr_left fun op hop => ?_
  have : op.tp ≠ .defaultValue := by simpa using List.any_eq_false.mp h op hop
  simp [overwriteDefault, this]

end Overwrite

theorem alterOptions_set (options : List ColumnOption) (d : ColumnOption) :
    alterOptions options [d] = if options.any (·.tp == .defaultValue) then
      options.map (overwriteDefault d) else options ++ [d] := by
  simp [alterOptions, hasOneInOptions_default]

theorem alterOptions_idem (options : List ColumnOption) {newOptions : List ColumnOption}
    (hn : newDefault newOptions) :
    alterOptions (alterOptions options newOptions) newOptions =
      alterOptions options newOptions := by
  rcases newDefault_cases hn with rfl | ⟨d, rfl, hd⟩
  · simp [alterOptions, List.filter_filter]
  rw [alterOptions_set options d]
  split_ifs with hany
  · rw [alterOptions_set, if_pos (by rwa [any_map_overwriteDefault hd]), List.map_map]
    exact List.map_congr_left fun op _ => overwriteDefault_idem hd op
  · rw [alterOptions_set, if_pos (by simp [hd]), List.map_append,
      map_overwriteDefault_of_none (Bool.eq_false_iff.mpr hany)]
    simp [overwriteDefault, hd]

theorem optionsSingle_alterOptions {options newOptions : List ColumnOption}
    (ho : optionsSingle options) (hn : newDefault newOptions) :
    optionsSingle (alterOptions options newOptions) := by
  simp only [optionsSingle, Bool.and_eq_true, decide_eq_true_eq] at ho ⊢
  rcases newDefault_cases hn with rfl | ⟨d, rfl, hd⟩
  · simp only [alterOptions, List.isEmpty_nil, if_true, List.countP_filter]
    refine ⟨le_of_eq_of_le (List.countP_eq_zero.mpr fun op _ => by simp) (Nat.zero_le 1), ?_⟩
    exact le_trans (List.countP_mono_left fun op _ h => by simp_all) ho.2
  rw [alterOptions_set]
  split_ifs with hany
  · simp only [List.countP_map, Function.comp_def, tp_overwriteDefault hd]
    exact ho
  · have h0 : options.countP (·.tp == .defaultValue) = 0 :=
      List.countP_eq_zero.mpr fun op hop => by
        simpa using List.any_eq_false.mp (Bool.eq_false_iff.mpr hany) op hop
    simp [List.countP_append, h0, hd, ho.2]

theorem optionsSingle_dropPk {options : List ColumnOption} (ho : optionsSingle options) :
    optionsSingle (options.filter (·.tp != .primaryKey)) := by
  simp only [optionsSingle, Bool.and_eq_true, decide_eq_true_eq] at ho ⊢
  exact ⟨le_trans ((List.filter_sublist _).countP_le _) ho.1,
    le_trans ((List.filter_sublist _).countP_le _) ho.2⟩

theorem AlterSpec.covered_of_coveredAll {v : AlterSpec} (h : v.coveredAll)
    (htp : v.tp ≠ .alterColumn ∧ v.tp ≠ .dropPrimaryKey) : v.covered := by
  unfold coveredAll at h
  cases hv : v.tp <;> simp_all

theorem AlterSpec.newDefault_of_coveredAll {v : AlterSpec} (h : v.coveredAll)
    (htp : v.tp = .alterColumn) : v.newColumns.head?.any fun c => newDefault c.options := by
  simp only [coveredAll, htp, Bool.and_eq_true] at h
  exact h.1

theorem AlterSpec.newColumns_of_coveredAll {v : AlterSpec} (h : v.coveredAll)
    (htp : v.tp = .changeColumn ∨ v.tp = .modifyColumn) : v.newColumns ≠ [] :=
  newColumns_of_covered
    (covered_of_coveredAll h (by rcases htp with htp | htp <;> simp [htp])) htp

theorem foldlM_dropPrimaryKey_sublist :
    ∀ (vs : List AlterSpec) {t r : List Column × List Constraint},
    vs.foldlM dropPrimaryKey t = some r → List.Sublist r.2 t.2
  | [], _, _, h => by cases h; exact List.Sublist.refl _
  | v :: vs, t, r, h => by
    simp only [List.foldlM_cons, dropPrimaryKey] at h
    split at h
    · exact (foldlM_dropPrimaryKey_sublist vs h).trans (List.filter_sublist _)
    · cases h

/-! ## The two folds -/

theorem foldAll_eq (c : CreateTable) (specs : List AlterSpec) :
    foldAll c specs = ((foldColsAll specs c.cols).bind fun cols =>
      ((specsOf specs .dropPrimaryKey).foldlM dropPrimaryKey (cols, c.constraints)).bind fun r =>
        (foldCons specs r.1 r.2).bind fun cons => some (r.1, cons)).map fun r =>
      ⟨(specsOf specs .renameTable).foldl (fun _ spec => spec.newTable) c.table, r.1, r.2⟩ := by
  unfold foldAll
  cases foldColsAll specs c.cols with
  | none => rfl
  | some cols =>
    show Option.bind _ _ = Option.map _ (Option.bind _ _)
    simp only [Option.some_bind]
    cases (specsOf specs .dropPrimaryKey).foldlM dropPrimaryKey (cols, c.constraints) with
    | none => rfl
    | some r =>
      show (foldCons specs r.1 r.2).bind _ = ((foldCons specs r.1 r.2).bind _).map _
      cases foldCons specs r.1 r.2 <;> rfl

end Ddl
end Dtle
