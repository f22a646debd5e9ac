import Mathlib.Data.List.Basic

/-!
# Dtle.Applier.Apply

`ApplierOracle.ApplyEventQueries`, which replays one bulk-load `DumpEntry` on the destination:
the session statements on every worker connection, then a transaction with the entry's
statements and its rows, batched into `replace into ... values (...),(...)` statements of about
1 MiB. The transaction's `Commit` and the count of replayed rows sit in a deferred function, so
they run on every return after `BeginTx`, the error returns included.

Go strings are byte strings (`Bytes`). The database is a record of answers, call by call
(`Database`), so a run is fixed by the entry, the answers and the helpers of other packages the
function calls (`Helpers`).
-/

namespace Dtle
namespace Applier

/-- A Go string: its bytes. -/
abbrev Bytes := List UInt8

/-- The bytes of a string literal. -/
def bytes (s : String) : Bytes := s.toUTF8.toList

/-- An error the database driver returns, by its text. -/
abbrev DbError := String

/-- The helpers of other packages that `ApplyEventQueries` calls; their code is not in the
repository's files, so they are parameters. -/
structure Helpers where
  /-- `umconf.EscapeName` -/
  escapeName : Bytes → Bytes
  /-- `sql.EscapeValue` -/
  escapeValue : Bytes → Bytes
  /-- `sql.IgnoreError` -/
  ignoreError : DbError → Bool
  /-- `sql.IgnoreExistsError` -/
  ignoreExistsError : DbError → Bool
  /-- `g.StrLim` -/
  strLim : Bytes → Nat → Bytes

/-- `common.DumpEntry`, with the fields `ApplyEventQueries` reads. A cell is `*[]byte`: `none`
is SQL NULL. -/
structure DumpEntry where
  tableSchema : Bytes
  tableName : Bytes
  systemVariablesStatement : Bytes
  sqlMode : Bytes
  dbSQL : Bytes
  tbSQL : List Bytes
  valuesX : List (List (Option Bytes))

/-- How the destination answers: the `n`-th `ExecContext` on a worker connection, `BeginTx`,
the `n`-th `ExecContext` in the transaction, and `Commit`. `none` is success. -/
structure Database where
  workerExec : Nat → Option DbError
  beginTx : Option DbError
  txExec : Nat → Option DbError
  commit : Option DbError

/-- The error `ApplyEventQueries` returns. -/
inductive ApplyError where
  /-- the driver's error, returned as it is -/
  | db (e : DbError)
  /-- `errors.Wrapf(err, "tx.Exec. queryStart %v seq", queryStart)` -/
  | txExec (queryStart : Bytes) (e : DbError)
  deriving DecidableEq, Repr

/-- What the database saw, and what `ApplyEventQueries` did besides returning. -/
structure Replay where
  /-- statements sent on the worker connections -/
  workerStmts : List Bytes
  /-- statements sent in the transaction, the failing one included -/
  txStmts : List Bytes
  /-- statements of the transaction that succeeded, so take effect when it commits -/
  applied : List Bytes
  /-- whether `tx.Commit()` succeeded -/
  committed : Bool
  /-- the errors passed to `a.onError` -/
  onErrors : List DbError
  /-- `a.TotalRowsReplayed` afterwards -/
  totalRowsReplayed : Nat
  deriving DecidableEq, Repr

/-- `BufSizeLimit := 1 * 1024 * 1024`. -/
def bufSizeLimit : Nat := 1 * 1024 * 1024

/-- The statements sent in the transaction so far, and the answers the database gave. -/
structure TxRun where
  sent : List Bytes
  applied : List Bytes

section

variable (H : Helpers) (db : Database)

/-- `tx.ExecContext(a.ctx, q)`: the answer to the next call in the transaction. -/
def TxRun.exec (t : TxRun) (q : Bytes) : Option DbError × TxRun :=
  let e := db.txExec t.sent.length
  (e, { sent := t.sent ++ [q], applied := if e.isNone then t.applied ++ [q] else t.applied })

/-- The closure `execQuery`: an error that `sql.IgnoreError` does not swallow is wrapped and
returned; a swallowed one only logs. -/
def execQuery (t : TxRun) (q : Bytes) : Option ApplyError × TxRun :=
  match t.exec db q with
  | (some e, t) => (if H.ignoreError e then none else some (.txExec (H.strLim q 10) e), t)
  | (none, t) => (none, t)

/-- One row as the loop writes it after `(` or `,(`: the cells, comma separated, `NULL` for a
nil cell and `'EscapeValue(cell)'` otherwise, and the closing `)`. -/
def rowTuple (row : List (Option Bytes)) : Bytes :=
  (List.intercalate (bytes ",") (row.map fun
    | some v => bytes "'" ++ H.escapeValue v ++ bytes "'"
    | none => bytes "NULL")) ++ bytes ")"

/-- The row loop: `buf` holds the statement being built; it is sent when it reaches
`BufSizeLimit` or at the last row, and the loop returns at the first error. -/
def rowsLoop (entry : DumpEntry) : List (List (Option Bytes)) → Bytes → TxRun →
    Option ApplyError × TxRun
  | [], _, t => (none, t)
  | row :: rows, buf, t =>
    let head := if buf.isEmpty then
        bytes "replace into " ++ H.escapeName entry.tableSchema ++ bytes "." ++
          H.escapeName entry.tableName ++ bytes " values ("
      else bytes ",("
    let buf := buf ++ head ++ rowTuple H row
    if rows.isEmpty || bufSizeLimit ≤ buf.length then
      match execQuery H db t buf with
      | (some e, t) => (some e, t)
      | (none, t) => rowsLoop entry rows [] t
    else rowsLoop entry rows buf t

/-- The queries loop: `for _, query := range queries { if query == "" { continue } ... }`. -/
def queriesLoop : List Bytes → TxRun → Option ApplyError × TxRun
  | [], t => (none, t)
  | q :: qs, t =>
    if q.isEmpty then queriesLoop qs t
    else match execQuery H db t q with
      | (some e, t) => (some e, t)
      | (none, t) => queriesLoop qs t

/-- Everything between `BeginTx` and the return: `SET @@session.foreign_key_checks = 0` (its
error returned as it is), the entry's statements, then the rows. -/
def inTx (entry : DumpEntry) : Option ApplyError × TxRun :=
  let queries := [entry.systemVariablesStatement, entry.sqlMode, entry.dbSQL] ++ entry.tbSQL
  match TxRun.exec db ⟨[], []⟩ (bytes "SET @@session.foreign_key_checks = 0") with
  | (some e, t) => (some (.db e), t)
  | (none, t) =>
    match queriesLoop H db queries t with
    | (some e, t) => (some e, t)
    | (none, t) => rowsLoop H db entry entry.valuesX [] t

/-- A session statement on every worker connection, `for i := range a.dbs`, returning at the
first error; `sent` lists the worker calls made so far. -/
def workersLoop (q : Bytes) : Nat → List Bytes → Option DbError × List Bytes
  | 0, sent => (none, sent)
  | k + 1, sent =>
    match db.workerExec sent.length with
    | some e => (some e, sent ++ [q])
    | none => workersLoop q k (sent ++ [q])

/-- `if q != "" { for i := range a.dbs { ... } }`. -/
def sessionStatement (nDbs : Nat) (q : Bytes) (sent : List Bytes) : Option DbError × List Bytes :=
  if q.isEmpty then (none, sent) else workersLoop db q nDbs sent

/-- `ApplyEventQueries(db, entry)` on an applier with `nDbs` worker connections and
`TotalRowsReplayed = total`: the error it returns, with what the database saw. -/
def applyEventQueries (nDbs total : Nat) (entry : DumpEntry) : Option ApplyError × Replay :=
  match sessionStatement db nDbs entry.systemVariablesStatement [] with
  | (some e, sent) => (some (.db e), ⟨sent, [], [], false, [], total⟩)
  | (none, sent) =>
    match sessionStatement db nDbs entry.sqlMode sent with
    | (some e, sent) => (some (.db e), ⟨sent, [], [], false, [], total⟩)
    | (none, sent) =>
      match db.beginTx with
      | some e => (some (.db e), ⟨sent, [], [], false, [], total⟩)
      | none =>
        let (err, t) := inTx H db entry
        -- the deferred function: `tx.Commit()`, `a.onError` on its error, the row count
        (err, ⟨sent, t.sent, t.applied, db.commit.isNone, db.commit.toList,
          total + entry.valuesX.length⟩)

end

/-- The deferred function commits on every return after `BeginTx`. A row statement that fails
with an error `sql.IgnoreError` does not swallow makes the function return that error, and the
`Commit` that follows commits what ran before it and counts the row. When only the `Commit` fails,
the function returns nil, nothing is committed, and the row is counted all the same. -/
theorem applyEventQueries_result_disagrees_with_commit :
    let H : Helpers := ⟨id, id, fun _ => false, fun _ => false, fun q n => q.take n⟩
    let entry : DumpEntry := ⟨bytes "s", bytes "t", [], [], [], [], [[some (bytes "1")]]⟩
    let rowFails := applyEventQueries H
      ⟨fun _ => none, none, fun n => if n = 1 then some "Error 1146" else none, none⟩ 1 0 entry
    let commitFails := applyEventQueries H ⟨fun _ => none, none, fun _ => none, some "Error 1180"⟩
      1 0 entry
    (rowFails.1.isSome ∧ rowFails.2.committed ∧ rowFails.2.totalRowsReplayed = 1) ∧
      (commitFails.1 = none ∧ commitFails.2.committed = false ∧
        commitFails.2.totalRowsReplayed = 1) := by
  decide

end Applier
end Dtle
