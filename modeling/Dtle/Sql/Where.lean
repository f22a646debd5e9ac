import Dtle.Sql.Checker
import Mathlib

/-!
# Dtle.Sql.Where

`scanWhereStmt` walks a WHERE expression: it calls a visitor on each node, and unless the visitor
asks to skip, goes on into the operands its type switch lists. `whereStmtHasSubQuery` and
`whereStmtHasSpecificColumn` are scans with a visitor that sets a flag and skips below the node
it looks for.

The switch has no case for parentheses, function calls or `CASE`, so the scan reaches a node
only through the operands of the other kinds (`scanOperands`, against all operands,
`operands`). One step of the scan is `scanWhereExpr_eq`; over a whole run, a flag-setting
visitor finds its node exactly when one is reached that way (`scanWhereStmt_flagVisitor`,
`anyNode`). The expression kinds form a nested type (operand lists), so the run lemma is proved
by well-founded recursion on the sizes of the expressions still to visit.

`whereStmtHasOneColumn`'s visitor also skips below a binary operation between two references
that print the same, flag as it is (`pruneVisitor`): the scan then finds a column exactly when a
reference is reached without passing such a comparison (`whereStmtHasOneColumn_eq_pruned_scan`),
so `a = a` alone has no column for it.
-/

namespace Dtle
namespace Ast

/-- `ast.ExprNode`, by the kinds a WHERE clause is built from. A subquery is a leaf; a `CASE`
keeps its operands in order (the value, each `WHEN`'s condition and result, the `ELSE`);
`valueExpr` stands for every other leaf kind. -/
inductive ExprNode where
  | columnName (name : ColumnName)
  | subquery
  | binaryOp (l r : ExprNode)
  | unaryOp (v : ExprNode)
  | isTruth (expr : ExprNode)
  | isNull (expr : ExprNode)
  | compareSubquery (l r : ExprNode)
  | existsSubquery (sel : ExprNode)
  | patternIn (expr : ExprNode) (sel : Option ExprNode) (list : List ExprNode)
  | between (expr left right : ExprNode)
  | patternLike (expr pattern : ExprNode)
  | patternRegexp (expr pattern : ExprNode)
  | row (values : List ExprNode)
  | paren (expr : ExprNode)
  | funcCall (args : List ExprNode)
  | caseExpr (value : Option ExprNode) (whenClauses : List ExprNode) (elseClause : Option ExprNode)
  | valueExpr
  deriving Repr

section Scan

variable {σ : Type}

mutual
/-- The body of `scanWhereStmt`'s loop for one expression: the visitor, then the operands the
switch lists. -/
def scanWhereExpr (fn : ExprNode → σ → Bool × σ) : ExprNode → σ → σ
  | expr, s =>
    let (skip, s) := fn expr s
    if skip then s else
    match expr with
    | .columnName _ => s
    | .subquery => s
    | .binaryOp l r => scanWhereExpr fn r (scanWhereExpr fn l s)
    | .unaryOp v => scanWhereExpr fn v s
    | .isTruth e => scanWhereExpr fn e s
    | .isNull e => scanWhereExpr fn e s
    | .compareSubquery l r => scanWhereExpr fn r (scanWhereExpr fn l s)
    | .existsSubquery sel => scanWhereExpr fn sel s
    | .patternIn e sel list => scanWhereStmt fn list (scanWhereOpt fn sel (scanWhereExpr fn e s))
    | .between e left right =>
      scanWhereExpr fn right (scanWhereExpr fn left (scanWhereExpr fn e s))
    | .patternLike e pattern => scanWhereExpr fn pattern (scanWhereExpr fn e s)
    | .patternRegexp e pattern => scanWhereExpr fn pattern (scanWhereExpr fn e s)
    | .row values => scanWhereStmt fn values s
    | _ => s

/-- The loop's `if expr == nil { continue }`, on an operand that may be nil. -/
def scanWhereOpt (fn : ExprNode → σ → Bool × σ) : Option ExprNode → σ → σ
  | none, s => s
  | some expr, s => scanWhereExpr fn expr s

/-- `scanWhereStmt(fn, exprs...)`; `fn` threads the state its closure captures. -/
def scanWhereStmt (fn : ExprNode → σ → Bool × σ) : List ExprNode → σ → σ
  | [], s => s
  | expr :: exprs, s => scanWhereStmt fn exprs (scanWhereExpr fn expr s)
end

/-- Every operand of a node, in the order of its fields. -/
def operands : ExprNode → List ExprNode
  | .binaryOp l r => [l, r]
  | .unaryOp v => [v]
  | .isTruth e => [e]
  | .isNull e => [e]
  | .compareSubquery l r => [l, r]
  | .existsSubquery sel => [sel]
  | .patternIn e sel list => e :: sel.toList ++ list
  | .between e left right => [e, left, right]
  | .patternLike e pattern => [e, pattern]
  | .patternRegexp e pattern => [e, pattern]
  | .row values => values
  | .paren e => [e]
  | .funcCall args => args
  | .caseExpr value whenClauses elseClause => value.toList ++ whenClauses ++ elseClause.toList
  | _ => []

/-- The operands `scanWhereStmt`'s switch goes into: none of parentheses, a function call or a
`CASE`. -/
def scanOperands : ExprNode → List ExprNode
  | .paren _ => []
  | .funcCall _ => []
  | .caseExpr _ _ _ => []
  | expr => operands expr

theorem scanWhereStmt_append (fn : ExprNode → σ → Bool × σ) (l₁ l₂ : List ExprNode) (s : σ) :
    scanWhereStmt fn (l₁ ++ l₂) s = scanWhereStmt fn l₂ (scanWhereStmt fn l₁ s) := by
  induction l₁ generalizing s with
  | nil => rfl
  | cons e l₁ ih => exact ih _

theorem scanWhereExpr_eq (fn : ExprNode → σ → Bool × σ) (expr : ExprNode) (s : σ) :
    scanWhereExpr fn expr s =
      if (fn expr s).1 then (fn expr s).2 else scanWhereStmt fn (scanOperands expr) (fn expr s).2 := by
  cases expr with
  | patternIn e sel list => cases sel <;> rfl
  | _ => rfl

end Scan

/-! ## What a run reaches -/

theorem sum_sizeOf_lt (es : List ExprNode) : (es.map sizeOf).sum < sizeOf es := by
  induction es with
  | nil => simp
  | cons e es ih => simp only [List.map_cons, List.sum_cons, List.cons.sizeOf_spec]; omega

theorem sum_sizeOf_toList_le (o : Option ExprNode) : (o.toList.map sizeOf).sum ≤ sizeOf o := by
  cases o <;> simp

theorem sizeOf_pos (e : ExprNode) : 0 < sizeOf e := by
  cases e <;> simp

theorem sum_sizeOf_operands_lt (e : ExprNode) : ((operands e).map sizeOf).sum < sizeOf e := by
  cases e with
  | patternIn e sel list =>
    have := sum_sizeOf_toList_le sel
    have := sum_sizeOf_lt list
    simp only [operands, List.cons_append, List.map_cons, List.map_append, List.sum_cons,
      List.sum_append, ExprNode.patternIn.sizeOf_spec]
    omega
  | row values =>
    have := sum_sizeOf_lt values
    simp only [operands, ExprNode.row.sizeOf_spec]
    omega
  | funcCall args =>
    have := sum_sizeOf_lt args
    simp only [operands, ExprNode.funcCall.sizeOf_spec]
    omega
  | caseExpr value whenClauses elseClause =>
    have := sum_sizeOf_toList_le value
    have := sum_sizeOf_toList_le elseClause
    have := sum_sizeOf_lt whenClauses
    simp only [operands, List.map_append, List.sum_append, ExprNode.caseExpr.sizeOf_spec]
    omega
  | _ => simp [operands] <;> omega

theorem sum_sizeOf_scanOperands_le (e : ExprNode) :
    ((scanOperands e).map sizeOf).sum ≤ ((operands e).map sizeOf).sum := by
  cases e <;> simp [scanOperands]

/-- Some node reached from `es` through the operands `kids` lists satisfies `p`; the search stops
below a node that does. -/
def anyNode (kids : ExprNode → List ExprNode)
    (hkids : ∀ e, ((kids e).map sizeOf).sum ≤ ((operands e).map sizeOf).sum)
    (p : ExprNode → Bool) : List ExprNode → Bool
  | [] => false
  | e :: es => (p e || anyNode kids hkids p (kids e)) || anyNode kids hkids p es
termination_by es => (es.map sizeOf).sum
decreasing_by
  · have := hkids e
    have := sum_sizeOf_operands_lt e
    simp only [List.map_cons, List.sum_cons]
    omega
  · have := sizeOf_pos e
    simp only [List.map_cons, List.sum_cons]
    omega

/-- A visitor that sets a flag on the nodes `p` picks and skips below them, and skips below the
nodes `q` picks with the flag as it is. -/
def pruneVisitor (p q : ExprNode → Bool) (expr : ExprNode) (found : Bool) : Bool × Bool :=
  if p expr then (true, true) else if q expr then (true, found) else (false, found)

/-- The operands the scan goes into when its visitor skips below the nodes `q` picks. -/
def prunedOperands (q : ExprNode → Bool) (e : ExprNode) : List ExprNode :=
  if q e then [] else scanOperands e

theorem sum_sizeOf_prunedOperands_le (q : ExprNode → Bool) (e : ExprNode) :
    ((prunedOperands q e).map sizeOf).sum ≤ ((operands e).map sizeOf).sum := by
  unfold prunedOperands
  split
  · exact Nat.zero_le _
  · exact sum_sizeOf_scanOperands_le e

theorem scanWhereStmt_pruneVisitor (p q : ExprNode → Bool) :
    ∀ (es : List ExprNode) (found : Bool), scanWhereStmt (pruneVisitor p q) es found =
      (found || anyNode (prunedOperands q) (sum_sizeOf_prunedOperands_le q) p es)
  | [], found => by simp [scanWhereStmt, anyNode]
  | e :: es, found => by
    rw [scanWhereStmt, scanWhereExpr_eq, anyNode]
    by_cases hp : p e
    · simp [pruneVisitor, hp, scanWhereStmt_pruneVisitor p q es true]
    · by_cases hq : q e
      · simp [pruneVisitor, hp, hq, prunedOperands, anyNode, scanWhereStmt_pruneVisitor p q es]
      · simp [pruneVisitor, hp, hq, prunedOperands,
          scanWhereStmt_pruneVisitor p q (scanOperands e) found,
          scanWhereStmt_pruneVisitor p q es, Bool.or_assoc]
termination_by es => (es.map sizeOf).sum
decreasing_by
  all_goals
    have := sizeOf_pos e
    have := sum_sizeOf_scanOperands_le e
    have := sum_sizeOf_operands_lt e
    simp only [List.map_cons, List.sum_cons]
    omega

theorem anyNode_congr {k k' : ExprNode → List ExprNode} (h : k = k')
    (hk : ∀ e, ((k e).map sizeOf).sum ≤ ((operands e).map sizeOf).sum)
    (hk' : ∀ e, ((k' e).map sizeOf).sum ≤ ((operands e).map sizeOf).sum) (p : ExprNode → Bool)
    (es : List ExprNode) : anyNode k hk p es = anyNode k' hk' p es := by
  subst h; rfl

/-- A visitor that sets a flag on the nodes `p` picks and skips below them. -/
def flagVisitor (p : ExprNode → Bool) (expr : ExprNode) (found : Bool) : Bool × Bool :=
  if p expr then (true, true) else (false, found)

theorem scanWhereStmt_flagVisitor (p : ExprNode → Bool) :
    ∀ (es : List ExprNode) (found : Bool), scanWhereStmt (flagVisitor p) es found =
      (found || anyNode scanOperands sum_sizeOf_scanOperands_le p es) := by
  intro es found
  have hv : flagVisitor p = pruneVisitor p fun _ => false := by
    funext e found; simp [flagVisitor, pruneVisitor]
  have hk : prunedOperands (fun _ => false) = scanOperands := by
    funext e; simp [prunedOperands]
  rw [hv, scanWhereStmt_pruneVisitor, anyNode_congr hk]

/-! ## The two flag scans -/

def isSubquery : ExprNode → Bool
  | .subquery => true
  | _ => false

section ColumnScans

-- Go's `strings.ToLower`, Unicode lower-casing from the standard library
variable (toLower : String → String)

/-- A column reference named `columnName`, ignoring case. -/
def namesColumn (columnName : String) : ExprNode → Bool
  | .columnName cn => cn.name.l == toLower columnName
  | _ => false

/-- `whereStmtHasSubQuery(where)`. -/
def whereStmtHasSubQuery (whereExpr : ExprNode) : Bool :=
  scanWhereStmt (fun expr hasSubQuery =>
    match expr with
    | .subquery => (true, true)
    | _ => (false, hasSubQuery)) [whereExpr] false

/-- `whereStmtHasSpecificColumn(where, columnName)`. -/
def whereStmtHasSpecificColumn (whereExpr : ExprNode) (columnName : String) : Bool :=
  scanWhereStmt (fun expr hasSpecificColumn =>
    match expr with
    | .columnName cn =>
      if cn.name.l = toLower columnName then (true, true) else (false, hasSpecificColumn)
    | _ => (false, hasSpecificColumn)) [whereExpr] false

theorem whereStmtHasSubQuery_visitor :
    (fun expr hasSubQuery =>
      match expr with
      | .subquery => (true, true)
      | _ => (false, hasSubQuery)) = flagVisitor isSubquery := by
  funext expr found
  cases expr <;> rfl

theorem whereStmtHasSpecificColumn_visitor (columnName : String) :
    (fun expr hasSpecificColumn =>
      match expr with
      | .columnName cn =>
        if cn.name.l = toLower columnName then (true, true) else (false, hasSpecificColumn)
      | _ => (false, hasSpecificColumn)) = flagVisitor (namesColumn toLower columnName) := by
  funext expr found
  cases expr <;> simp [flagVisitor, namesColumn]

/-- On every WHERE tree, `whereStmtHasSubQuery` finds a subquery and `whereStmtHasSpecificColumn`
a reference to the column exactly when one is reached through the operands the scan goes into:
never inside parentheses, a function call or a `CASE`. -/
theorem whereStmt_flags_eq_scanned_nodes (whereExpr : ExprNode) (columnName : String) :
    whereStmtHasSubQuery whereExpr =
        anyNode scanOperands sum_sizeOf_scanOperands_le isSubquery [whereExpr] ∧
      whereStmtHasSpecificColumn toLower whereExpr columnName =
        anyNode scanOperands sum_sizeOf_scanOperands_le (namesColumn toLower columnName)
          [whereExpr] := by
  rw [whereStmtHasSubQuery, whereStmtHasSpecificColumn, whereStmtHasSubQuery_visitor,
    whereStmtHasSpecificColumn_visitor, scanWhereStmt_flagVisitor, scanWhereStmt_flagVisitor]
  exact ⟨Bool.false_or _, Bool.false_or _⟩

/-- A subquery in parentheses: the tree holds a subquery, reached through every operand, but
the scan calls its visitor on the parenthesis alone and `whereStmtHasSubQuery` is false. -/
theorem whereStmtHasSubQuery_misses_parenthesised_subquery :
    anyNode operands (fun _ => le_refl _) isSubquery [.paren .subquery] = true ∧
      scanWhereStmt (fun _ calls => (false, calls + 1)) [.paren .subquery] 0 = 1 ∧
      whereStmtHasSubQuery (.paren .subquery) = false := by
  refine ⟨?_, rfl, rfl⟩
  simp [anyNode, operands, isSubquery]

/-! ## `whereStmtHasOneColumn` -/

section OneColumn

-- `ast.ColumnName.String`, whose code is not in the repository's files
variable (nameString : ColumnName → String)

/-- `whereStmtHasOneColumn(where)`: a column reference sets the flag and skips; a binary operation
whose right and left operands are column references that print the same skips, flag as it is. -/
def whereStmtHasOneColumn (whereExpr : ExprNode) : Bool :=
  scanWhereStmt (fun expr hasColumn =>
    match expr with
    | .columnName _ => (true, true)
    | .binaryOp l r =>
      match r with
      | .columnName col1 =>
        match l with
        | .columnName col2 =>
          if nameString col1 = nameString col2 then (true, hasColumn) else (false, hasColumn)
        | _ => (false, hasColumn)
      | _ => (false, hasColumn)
    | _ => (false, hasColumn)) [whereExpr] false

def isColumnName : ExprNode → Bool
  | .columnName _ => true
  | _ => false

/-- A binary operation between two references to columns that print the same. -/
def comparesSameColumn : ExprNode → Bool
  | .binaryOp (.columnName col2) (.columnName col1) => nameString col1 = nameString col2
  | _ => false

theorem whereStmtHasOneColumn_visitor :
    (fun expr hasColumn =>
      match expr with
      | .columnName _ => (true, true)
      | .binaryOp l r =>
        match r with
        | .columnName col1 =>
          match l with
          | .columnName col2 =>
            if nameString col1 = nameString col2 then (true, hasColumn) else (false, hasColumn)
          | _ => (false, hasColumn)
        | _ => (false, hasColumn)
      | _ => (false, hasColumn)) =
      pruneVisitor isColumnName (comparesSameColumn nameString) := by
  funext expr found
  cases expr with
  | binaryOp l r =>
    cases r with
    | columnName col1 =>
      cases l with
      | columnName col2 => simp [pruneVisitor, isColumnName, comparesSameColumn]
      | _ => rfl
    | _ => cases l <;> rfl
  | _ => rfl

/-- On every WHERE tree, `whereStmtHasOneColumn` finds a column exactly when a column reference is
reached through the operands the scan goes into, never below a comparison of two references
that print the same. So a comparison of a column with itself has no column for it, though
`whereStmtHasSpecificColumn` finds the column there. -/
theorem whereStmtHasOneColumn_eq_pruned_scan (whereExpr : ExprNode) :
    whereStmtHasOneColumn nameString whereExpr =
        anyNode (prunedOperands (comparesSameColumn nameString))
          (sum_sizeOf_prunedOperands_le _) isColumnName [whereExpr] ∧
      ∀ (col : ColumnName) (columnName : String), col.name.l = toLower columnName →
        whereStmtHasOneColumn nameString (.binaryOp (.columnName col) (.columnName col)) = false ∧
          whereStmtHasSpecificColumn toLower (.binaryOp (.columnName col) (.columnName col))
            columnName = true := by
  refine ⟨?_, fun col columnName hl => ⟨?_, ?_⟩⟩
  · rw [whereStmtHasOneColumn, whereStmtHasOneColumn_visitor, scanWhereStmt_pruneVisitor]
    exact Bool.false_or _
  · rw [whereStmtHasOneColumn, whereStmtHasOneColumn_visitor, scanWhereStmt_pruneVisitor]
    simp [anyNode, prunedOperands, comparesSameColumn, isColumnName]
  · rw [whereStmtHasSpecificColumn, whereStmtHasSpecificColumn_visitor, scanWhereStmt_flagVisitor]
    simp [anyNode, namesColumn, hl, scanOperands, operands]

end OneColumn

end ColumnScans

theorem whereStmtHasOneColumn_self_comparison :
    let col : ColumnName := ⟨⟨"", ""⟩, ⟨"", ""⟩, ⟨"A", "A".toLower⟩⟩
    col.name.l = "A".toLower ∧
      whereStmtHasOneColumn (·.name.o) (.binaryOp (.columnName col) (.columnName col)) = false ∧
      whereStmtHasSpecificColumn String.toLower (.binaryOp (.columnName col) (.columnName col))
        "A" = true :=
  ⟨rfl,
    (whereStmtHasOneColumn_eq_pruned_scan String.toLower (·.name.o) .valueExpr).2 _ "A" rfl⟩

end Ast
end Dtle
