import Dtle.Sql.Refine.MergeAll

/-!
# Dtle.Sql.Refine.Aliasing

What the caller's `oldTable` reads once `mergeAlterToTable` has returned. `newTable` starts with
`oldTable`'s slice headers, so the in-place writes of the merge land in what `oldTable` reads
too; `mergeWithOld` is `merge` with that reading added.

* `merge_keepsSlices_oldTable_reads_newTable` — when no spec moves a slice (RENAME TABLE, CHANGE,
  MODIFY and ALTER COLUMN, RENAME INDEX), every phase goes on with `oldTable`'s headers
  (`handsOn_phases`), and `oldTable` reads as the new table under its old name;
* `merge_alterColumn_edits_oldTable` — with ALTER COLUMN alone, that new table is the full fold's,
  and `oldTable` reads as it;
* `merge_dropColumn_damages_oldTable` — DROP COLUMN moves the tail of the shared column array down
  by one, and `oldTable`, whose length stays, reads the columns left and then the last column
  again, whether the merge returns the new table or gives up at the next DROP COLUMN and returns
  `oldTable` itself.
-/

namespace Dtle
namespace Ast

open Go Ddl

/-! ## Phases that write in place -/

theorem getAlterTableSpecByTp_of_ne {specs : List AlterTableSpec} {k : AlterTableType}
    (hk : ∀ s ∈ specs, s.tp = k) {tp : AlterTableType} (htp : tp ≠ k) :
    getAlterTableSpecByTp specs [tp] = [] := by
  rw [getAlterTableSpecByTp_single]
  exact List.filter_eq_nil_iff.mpr fun s hs he => htp ((beq_iff_eq.mp he).symm.trans (hk s hs))

/-- The kinds of spec whose phase goes on with the slice headers it was given: RENAME TABLE,
CHANGE, MODIFY and ALTER COLUMN and RENAME INDEX, which write in place, and the kinds the merge
does not read. -/
def AlterTableType.keepsSlices : AlterTableType → Bool
  | .dropColumn | .addColumns | .dropPrimaryKey | .dropIndex | .addConstraint => false
  | _ => true

/-- A phase that, whenever it goes on, goes on with the header it was given. -/
def HandsOn (f : CreateTableStmt → GoM (Option CreateTableStmt)) : Prop :=
  ∀ t h t' h', f t h = .ok (some t', h') → t' = t

theorem HandsOn.of_skip {f : CreateTableStmt → GoM (Option CreateTableStmt)}
    (hf : ∀ t h, f t h = .ok (some t, h)) : HandsOn f := fun t h t' h' hrun => by
  rw [hf] at hrun; cases hrun; rfl

theorem handsOn_of_loops {F : List AlterTableSpec → CreateTableStmt → GoM (Option CreateTableStmt)}
    (hnil : ∀ t, F [] t = pure (some t))
    (hcons : ∀ spec specs t, ∃ m : GoM Bool,
      F (spec :: specs) t = m >>= fun b => if b then F specs t else pure none) :
    ∀ specs, HandsOn (F specs)
  | [] => fun t h t' h' hrun => by rw [hnil] at hrun; cases hrun; rfl
  | spec :: specs => fun t h t' h' hrun => by
    obtain ⟨m, hm⟩ := hcons spec specs t
    rw [hm] at hrun
    simp only [bind, StateT.bind, Except.bind] at hrun
    cases hl : m h with
    | error e => rw [hl] at hrun; cases hrun
    | ok r =>
      obtain ⟨b, h1⟩ := r
      rw [hl] at hrun
      cases b
      · cases hrun
      · exact handsOn_of_loops hnil hcons specs t h1 t' h' hrun

theorem handsOn_alterColumns : ∀ specs, HandsOn (alterColumns specs)
  | [] => HandsOn.of_skip fun _ _ => rfl
  | spec :: specs => fun t h t' h' hrun => by
    simp only [alterColumns, bind, StateT.bind, StateT.lift, Except.bind] at hrun
    cases hli : listIndex spec.newColumns 0 with
    | error e => rw [hli] at hrun; cases hrun
    | ok newCol =>
      rw [hli] at hrun
      dsimp only [pure, StateT.pure, Except.pure] at hrun
      cases hl : alterColumnLoop newCol t.cols 0 t.cols.len false h with
      | error e => rw [hl] at hrun; cases hrun
      | ok r =>
        obtain ⟨b, h1⟩ := r
        rw [hl] at hrun
        cases b
        · cases hrun
        · exact handsOn_alterColumns specs t h1 t' h' hrun

theorem handsOn_runPhases : ∀ fs : List (CreateTableStmt → GoM (Option CreateTableStmt)),
    (∀ f ∈ fs, HandsOn f) → HandsOn (runPhases fs)
  | [], _ => HandsOn.of_skip fun _ _ => rfl
  | f :: fs, hfs => fun t h t' h' hrun => by
    simp only [runPhases, bind, StateT.bind, Except.bind] at hrun
    cases hf : f t h with
    | error e => rw [hf] at hrun; cases hrun
    | ok r =>
      obtain ⟨o, h1⟩ := r
      rw [hf] at hrun
      cases o with
      | none => cases hrun
      | some t1 =>
        rw [hfs f (List.mem_cons_self _ _) t h t1 h1 hf] at hrun
        exact handsOn_runPhases fs (fun g hg => hfs g (List.mem_cons_of_mem _ hg)) t h1 t' h' hrun

theorem handsOn_phases {specs : List AlterTableSpec} (hk : ∀ s ∈ specs, s.tp.keepsSlices) :
    ∀ f ∈ phases specs, HandsOn f := by
  have hnil : ∀ tp, tp.keepsSlices = false → getAlterTableSpecByTp specs [tp] = [] :=
    fun tp htp => by
      rw [getAlterTableSpecByTp_single]
      exact List.filter_eq_nil_iff.mpr fun s hs he => by
        have := hk s hs
        rw [beq_iff_eq.mp he, htp] at this
        cases this
  simp only [phases, hnil .dropColumn rfl, hnil .addColumns rfl, hnil .dropPrimaryKey rfl,
    hnil .dropIndex rfl, hnil .addConstraint rfl, List.mem_cons, List.mem_singleton,
    List.not_mem_nil, or_false]
  rintro f (rfl | rfl | rfl | rfl | rfl | rfl | rfl | rfl | rfl)
  all_goals first
    | exact HandsOn.of_skip fun _ _ => rfl
    | exact handsOn_alterColumns _
    | exact handsOn_of_loops (fun _ => rfl) (fun _ _ _ => ⟨_, rfl⟩) _

theorem renameTables_eta : ∀ (specs : List AlterTableSpec) (t : CreateTableStmt),
    renameTables specs t = { t with table := (renameTables specs t).table }
  | [], _ => rfl
  | _ :: specs, t => renameTables_eta specs { t with table := _ }

theorem renameTables_cols (specs : List AlterTableSpec) (t : CreateTableStmt) :
    (renameTables specs t).cols = t.cols := by
  rw [renameTables_eta]

theorem mergeAlterToTable_keepsSlices_copy {p : Nat} {alter : AlterTableStmt} {h h' : Heap}
    {r : Nat} (hk : ∀ s ∈ alter.specs, s.tp.keepsSlices) (hp : p < h.tables.length)
    (hrun : mergeAlterToTable p alter h = .ok (r, h')) (hr : r ≠ p) :
    h'.tables.getD p default = h.tables.getD p default ∧
      h'.tables.getD r default = renameTables (getAlterTableSpecByTp alter.specs [.renameTable])
        (h.tables.getD p default) := by
  have hg : (getThe Heap : GoM Heap) h = .ok (h, h) := rfl
  simp only [mergeAlterToTable, bind, StateT.bind, hg, Except.bind] at hrun
  cases ha : runPhases (phases alter.specs) (renameTables
      (getAlterTableSpecByTp alter.specs [.renameTable]) (h.tables.getD p default)) h with
  | error e => rw [ha] at hrun; cases hrun
  | ok res =>
    obtain ⟨t', h''⟩ := res
    rw [ha] at hrun
    cases t' with
    | none => cases hrun; exact absurd rfl hr
    | some t' =>
      cases hrun
      have htab : h''.tables = h.tables := keeps_runPhases
        (keeps_phases (F := Heap.tables) (fun _ _ => rfl) (fun _ _ => rfl) (fun _ _ => rfl)
          (fun _ _ _ => rfl) (fun _ _ _ => rfl) _) _ h _ h'' ha
      rw [handsOn_runPhases _ (handsOn_phases hk) _ _ _ _ ha, htab]
      simp [List.getD_eq_getElem?_getD, List.getElem?_append_left hp, hp]

/-! ## DROP COLUMN -/

theorem Heap.ColsReadAs.drop {h : Heap} {ps : List Nat} {cols : List Column}
    (hr : h.ColsReadAs ps cols) (k : Nat) : h.ColsReadAs (ps.drop k) (cols.drop k) :=
  ⟨fun p hp => hr.1 p (List.mem_of_mem_drop hp), by rw [List.map_drop, hr.2]⟩

theorem deleteWhere_dropColumn_old (h : Heap) (s : Slice) (cols : List Column) (n : CIStr)
    (hc : h.ColsAt s cols) (hd : (cols.map (·.name.l)).Nodup) (hhas : hasColumn cols n.l = true) :
    ∃ st s', colsStore.deleteWhere (fun h col => (h.col col).name.l == n.l) s 0 s.len s false h =
        .ok ((s', true), colsStore.set h st) ∧
      (colsStore.set h st).ColsAt s' (cols.filter (·.name.l != n.l)) ∧
      (colsStore.set h st).ColsAt s
        (cols.filter (·.name.l != n.l) ++ cols.drop (cols.length - 1)) := by
  obtain ⟨hfit, hr⟩ := hc
  have hl := Arrays.elems_length hfit
  have hlen : cols.length = s.len := by rw [← hr.2, List.length_map, hl]
  rw [← hr.names] at hd
  rw [hr.hasColumn] at hhas
  obtain ⟨x, hx, hpx⟩ := List.any_eq_true.mp hhas
  obtain ⟨j, hj, rfl⟩ := List.getElem_of_mem hx
  have huniq : ∀ m (hm : m < (h.colArrs.elems s).length),
      ((h.col (h.colArrs.elems s)[m]).name.l == n.l) = true → m = j := fun m hm hpm => by
    refine (@List.Nodup.getElem_inj_iff _ _ hd m (by simpa using hm) j (by simpa using hj)).mp ?_
    simp only [List.getElem_map, beq_iff_eq] at hpm hpx ⊢
    exact hpm.trans hpx.symm
  obtain ⟨r, hdel, hrun⟩ := Store.deleteWhere_unique colsStore
    (fun h col => (h.col col).name.l == n.l) s h hfit (fun _ _ _ => rfl) (hl ▸ hj)
    (by show ((h.col ((h.colArrs.elems s).getD j default)).name.l == n.l) = true
        rwa [List.getD_eq_getElem _ _ hj]) fun m hm hpm => by
      change ((h.col ((h.colArrs.elems s).getD m default)).name.l == n.l) = true at hpm
      exact huniq m (hl ▸ hm) (by rwa [List.getD_eq_getElem _ _ (hl ▸ hm)] at hpm)
  obtain ⟨-, helems, hfit', -⟩ := Arrays.deleteAt_ok hfit hdel
  obtain ⟨hold, hfitold⟩ := Arrays.deleteAt_range hfit hdel
  have herase : (h.colArrs.elems s).eraseIdx j =
      (h.colArrs.elems s).filter fun p => (h.readColumn p).name.l != n.l :=
    (filter_not_eq_eraseIdx _ (fun p => (h.col p).name.l == n.l) hj hpx huniq).symm
  have hkeep := hr.filter (·.name.l != n.l)
  refine ⟨r.1, r.2, hrun, ⟨hfit', ?_⟩, ⟨hfitold, ?_⟩⟩
  · show h.ColsReadAs (r.1.elems r.2) _
    rw [helems, herase]; exact hkeep
  · show h.ColsReadAs (r.1.elems s) _
    rw [hold, herase, ← hlen]
    exact hkeep.append (hr.drop _)

theorem dropColumns_cons_of_run {spec : AlterTableSpec} {specs : List AlterTableSpec}
    {t : CreateTableStmt} {h h' : Heap} {s' : Slice} {found : Bool}
    (hrun : colsStore.deleteWhere (fun h col => (h.col col).name.l == spec.oldColumnName.l)
      t.cols 0 t.cols.len t.cols false h = .ok ((s', found), h')) :
    dropColumns (spec :: specs) t h =
      if found then dropColumns specs { t with cols := s' } h' else .ok (none, h') := by
  simp only [dropColumns, bind, StateT.bind, hrun, Except.bind]
  cases found <;> rfl

theorem runPhases_cons_of_none {f : CreateTableStmt → GoM (Option CreateTableStmt)}
    (fs : List (CreateTableStmt → GoM (Option CreateTableStmt))) {t : CreateTableStmt}
    {h h' : Heap} (hf : f t h = .ok (none, h')) : runPhases (f :: fs) t h = .ok (none, h') := by
  simp only [runPhases, bind, StateT.bind, hf, Except.bind]; rfl


theorem getAlterTableSpecByTp_cons (s : AlterTableSpec) (specs : List AlterTableSpec)
    (tp : AlterTableType) :
    getAlterTableSpecByTp (s :: specs) [tp] =
      if s.tp = tp then s :: getAlterTableSpecByTp specs [tp] else getAlterTableSpecByTp specs [tp] := by
  simp only [getAlterTableSpecByTp_single, List.filter_cons, beq_iff_eq]

theorem runPhases_dropColumn_head {s : AlterTableSpec} {specs : List AlterTableSpec}
    (htp : s.tp = .dropColumn) {t : CreateTableStmt} {h h' : Heap} {s' : Slice}
    (hrun : colsStore.deleteWhere (fun h col => (h.col col).name.l == s.oldColumnName.l)
      t.cols 0 t.cols.len t.cols false h = .ok ((s', true), h')) :
    runPhases (phases (s :: specs)) t h = runPhases (phases specs) { t with cols := s' } h' := by
  simp only [phases, getAlterTableSpecByTp_cons, htp, if_true, reduceCtorEq, if_false]
  simp only [runPhases, bind, StateT.bind, dropColumns_cons_of_run hrun, if_true]

end Ast

namespace Ddl

open Go Ast

/-- `merge`, with what the caller's `oldTable` reads once `mergeAlterToTable` has returned. -/
def mergeWithOld (c : CreateTable) (a : AlterTable) : Except Panic (Returned × CreateTable) :=
  let (p, h) := Heap.empty.allocCreateTable c
  let (alter, h) := h.allocAlterTable a
  match mergeAlterToTable p alter h with
  | .error e => .error e
  | .ok (r, h') =>
    let t := h'.readTable (h'.tables.getD r default)
    .ok (if r = p then .oldTable t else .newTable t, h'.readTable (h'.tables.getD p default))

/-- An ALTER of ALTER COLUMN specs alone edits the caller's table too: `newTable` starts as a
copy of `oldTable`'s header, so SET and DROP DEFAULT write into the column objects both share,
and once the merge returns, `oldTable` reads as the new table. -/
theorem merge_alterColumn_edits_oldTable (c : CreateTable) (a : AlterTable) (hc : c.coveredAll)
    (ha : ∀ v ∈ a.specs, v.coveredAll) (hk : ∀ v ∈ a.specs, v.tp = .alterColumn) (t : CreateTable)
    (hf : foldAll c a.specs = some t) : mergeWithOld c a = .ok (.newTable t, t) := by
  obtain ⟨p, h1, alter, h2, hA, hB, hs, hp, hsome, -⟩ := layout_agreesAll c a hc ha
  obtain ⟨h', hrun, hread⟩ := hsome t hf
  have hk' : ∀ s ∈ alter.specs, s.tp = .alterColumn := fun s hs' => by
    obtain ⟨v, hv, hr⟩ := forall₂_exists_left hs s hs'
    exact hr.tp.trans (hk v hv)
  have hne : h2.tables.length ≠ p := by omega
  obtain ⟨hold, hcopy⟩ := mergeAlterToTable_keepsSlices_copy
    (fun s hs' => by rw [hk' s hs']; rfl) hp hrun hne
  rw [getAlterTableSpecByTp_of_ne hk' (show AlterTableType.renameTable ≠ _ by decide)] at hcopy
  have hsame : h'.tables.getD h2.tables.length default = h2.tables.getD p default := hcopy
  unfold mergeWithOld
  rw [hA]; dsimp only; rw [hB]; dsimp only
  rw [hrun]; dsimp only; rw [hold, ← hsame, hread, if_neg hne]

theorem merge_alterColumn_edits_oldTable_set_default :
    let c : CreateTable := ⟨⟨⟨"", ""⟩, ⟨"t", "t"⟩⟩, [⟨⟨"a", "a"⟩, "int", []⟩], []⟩
    let a : AlterTable := ⟨c.table,
      [{ tp := .alterColumn, newColumns := [⟨⟨"a", "a"⟩, "", [⟨.defaultValue, "1"⟩]⟩] }]⟩
    let t : CreateTable := ⟨c.table, [⟨⟨"a", "a"⟩, "int", [⟨.defaultValue, "1"⟩]⟩], []⟩
    c.coveredAll ∧ (∀ v ∈ a.specs, v.coveredAll) ∧ (∀ v ∈ a.specs, v.tp = .alterColumn) ∧
      foldAll c a.specs = some t ∧ mergeWithOld c a = .ok (.newTable t, t) := by
  intro c a t
  have hc : c.coveredAll := by decide
  have ha : ∀ v ∈ a.specs, v.coveredAll := by decide
  have hk : ∀ v ∈ a.specs, v.tp = .alterColumn := by decide
  have hf : foldAll c a.specs = some t := by decide
  exact ⟨hc, ha, hk, hf, merge_alterColumn_edits_oldTable c a hc ha hk t hf⟩

theorem layout_readAs (c : CreateTable) (a : AlterTable) :
    ∃ p h1 alter h2, Heap.empty.allocCreateTable c = (p, h1) ∧
      h1.allocAlterTable a = (alter, h2) ∧ List.Forall₂ h2.SpecReadAs alter.specs a.specs ∧
      p < h2.tables.length ∧ h2.TableReadAs (h2.tables.getD p default) c := by
  obtain ⟨-, hp0, hlt, hr⟩ := Heap.allocCreateTable_spec Heap.empty c
  obtain ⟨hg, -, hs⟩ := Heap.allocAlterTable_spec (Heap.empty.allocCreateTable c).2 a
  generalize Heap.empty.allocCreateTable c = A at hp0 hlt hr hg hs
  obtain ⟨p, h1⟩ := A
  dsimp only at hp0 hlt hr hg hs
  subst hp0
  generalize hB : h1.allocAlterTable a = B at hg hs
  obtain ⟨alter, h2⟩ := B
  refine ⟨_, h1, alter, h2, rfl, hB, hs, Nat.lt_of_lt_of_le hlt hg.tables.length_le, ?_⟩
  rw [Heap.getD_of_prefix hg.tables hlt]
  exact hr.grow hg

/-- An ALTER whose specs all keep the slices (RENAME TABLE, CHANGE, MODIFY and ALTER COLUMN,
RENAME INDEX, and the kinds the merge does not read): whenever the merge returns a new table, the
caller's `oldTable` reads as that table under its old name, since every edit went into the arrays
and objects both headers share. -/
theorem merge_keepsSlices_oldTable_reads_newTable (c : CreateTable) (a : AlterTable)
    (hk : ∀ v ∈ a.specs, v.tp.keepsSlices) (t old : CreateTable)
    (hm : mergeWithOld c a = .ok (.newTable t, old)) : old = { t with table := c.table } := by
  obtain ⟨p, h1, alter, h2, hA, hB, hs, hp, hr⟩ := layout_readAs c a
  have hk' : ∀ s ∈ alter.specs, s.tp.keepsSlices := fun s hs' => by
    obtain ⟨v, hv, hsv⟩ := forall₂_exists_left hs s hs'
    rw [hsv.tp]; exact hk v hv
  unfold mergeWithOld at hm
  rw [hA] at hm; dsimp only at hm; rw [hB] at hm; dsimp only at hm
  cases hrun : mergeAlterToTable p alter h2 with
  | error e => rw [hrun] at hm; cases hm
  | ok res =>
    obtain ⟨r, h'⟩ := res
    rw [hrun] at hm
    dsimp only at hm
    by_cases hrp : r = p
    · rw [if_pos hrp] at hm; cases hm
    · rw [if_neg hrp] at hm
      cases hm
      obtain ⟨hold, hcopy⟩ := mergeAlterToTable_keepsSlices_copy hk' hp hrun hrp
      rw [hold, hcopy, renameTables_eta]
      simp only [Heap.readTable, hr.table]

theorem merge_keepsSlices_oldTable_reads_newTable_rename_change :
    let c : CreateTable := ⟨⟨⟨"", ""⟩, ⟨"t", "t"⟩⟩, [⟨⟨"a", "a"⟩, "int", []⟩], []⟩
    let a : AlterTable := ⟨c.table,
      [{ tp := .renameTable, newTable := ⟨⟨"", ""⟩, ⟨"u", "u"⟩⟩ },
        { tp := .changeColumn, oldColumnName := ⟨"a", "a"⟩,
          newColumns := [⟨⟨"a2", "a2"⟩, "bigint", []⟩] }]⟩
    let t : CreateTable := ⟨⟨⟨"", ""⟩, ⟨"u", "u"⟩⟩, [⟨⟨"a2", "a2"⟩, "bigint", []⟩], []⟩
    let old : CreateTable := { t with table := c.table }
    (∀ v ∈ a.specs, v.tp.keepsSlices) ∧ mergeWithOld c a = .ok (.newTable t, old) ∧
      old = { t with table := c.table } := by
  intro c a t old
  have hk : ∀ v ∈ a.specs, v.tp.keepsSlices := by decide
  have hm : mergeWithOld c a = .ok (.newTable t, old) := by rfl
  exact ⟨hk, hm, merge_keepsSlices_oldTable_reads_newTable c a hk t old hm⟩

/-- DROP COLUMN deletes in the column array `oldTable.Cols` shares: on a table with distinct
column names, dropping one of its columns leaves `oldTable`, whose length stays, reading the
columns left and then the last column again. The merge then returns the new table when the drop
is its only spec, and `oldTable` itself when the next DROP COLUMN names no column left. -/
theorem merge_dropColumn_damages_oldTable (c : CreateTable) (hd : (c.cols.map (·.name.l)).Nodup)
    (tn : TableName) (n : CIStr) (hn : hasColumn c.cols n.l = true) :
    mergeWithOld c ⟨tn, [{ tp := .dropColumn, oldColumnName := n }]⟩ =
        .ok (.newTable ⟨c.table, c.cols.filter (·.name.l != n.l), c.constraints⟩,
          ⟨c.table, c.cols.filter (·.name.l != n.l) ++ c.cols.drop (c.cols.length - 1),
            c.constraints⟩) ∧
      ∀ (m : CIStr) (rest : List AlterSpec),
        hasColumn (c.cols.filter (·.name.l != n.l)) m.l = false →
        mergeWithOld c ⟨tn, { tp := .dropColumn, oldColumnName := n } ::
            { tp := .dropColumn, oldColumnName := m } :: rest⟩ =
          .ok (.oldTable ⟨c.table, c.cols.filter (·.name.l != n.l) ++
              c.cols.drop (c.cols.length - 1), c.constraints⟩,
            ⟨c.table, c.cols.filter (·.name.l != n.l) ++ c.cols.drop (c.cols.length - 1),
              c.constraints⟩) := by
  constructor
  · obtain ⟨p, h1, alter, h2, hA, hB, hs, hp, hr⟩ :=
      layout_readAs c ⟨tn, [{ tp := .dropColumn, oldColumnName := n }]⟩
    obtain ⟨tn', specs⟩ := alter
    obtain ⟨s1, rfl, hs1⟩ : ∃ s1, specs = [s1] ∧
        h2.SpecReadAs s1 { tp := .dropColumn, oldColumnName := n } := by
      cases hs with | cons h t => cases t; exact ⟨_, rfl, h⟩
    obtain ⟨st, s', hrun, hnew, hold⟩ :=
      deleteWhere_dropColumn_old h2 _ c.cols n ⟨hr.colsFit, hr.cols⟩ hd hn
    have hg : (getThe Heap : GoM Heap) h2 = .ok (h2, h2) := rfl
    have hm : mergeAlterToTable p ⟨tn', [s1]⟩ h2 = .ok (h2.tables.length,
        { colsStore.set h2 st with tables := h2.tables ++ [⟨(h2.tables.getD p default).table, s',
          (h2.tables.getD p default).constraints⟩] }) := by
      simp only [mergeAlterToTable, bind, StateT.bind, hg, Except.bind, getAlterTableSpecByTp_cons,
        hs1.tp, reduceCtorEq, if_false, renameTables, List.foldl_nil]
      rw [runPhases_dropColumn_head hs1.tp (by rw [hs1.oldColumnName]; exact hrun)]
      rfl
    unfold mergeWithOld
    rw [hA]; dsimp only; rw [hB]; dsimp only; rw [hm]; dsimp only
    rw [if_neg (by omega), List.getD_append _ _ _ _ hp, List.getD_append_right _ _ _ _ le_rfl,
      Nat.sub_self]
    have hrnew : (colsStore.set h2 st).TableReadAs ⟨(h2.tables.getD p default).table, s',
        (h2.tables.getD p default).constraints⟩ ⟨c.table, c.cols.filter (·.name.l != n.l),
          c.constraints⟩ := ⟨hr.table, hnew.1, hnew.2, hr.consFit, hr.cons⟩
    have hrold : (colsStore.set h2 st).TableReadAs (h2.tables.getD p default)
        ⟨c.table, c.cols.filter (·.name.l != n.l) ++ c.cols.drop (c.cols.length - 1),
          c.constraints⟩ := ⟨hr.table, hold.1, hold.2, hr.consFit, hr.cons⟩
    rw [← hrnew.readTable, ← hrold.readTable]
    rfl
  · intro m rest hm
    obtain ⟨p, h1, alter, h2, hA, hB, hs, hp, hr⟩ := layout_readAs c ⟨tn,
      { tp := .dropColumn, oldColumnName := n } :: { tp := .dropColumn, oldColumnName := m } :: rest⟩
    obtain ⟨tn', specs⟩ := alter
    obtain ⟨s1, s2, specs', rfl, hs1, hs2⟩ : ∃ s1 s2 specs', specs = s1 :: s2 :: specs' ∧
        h2.SpecReadAs s1 { tp := .dropColumn, oldColumnName := n } ∧
        h2.SpecReadAs s2 { tp := .dropColumn, oldColumnName := m } := by
      cases hs with | cons h t => cases t with | cons h' _ => exact ⟨_, _, _, rfl, h, h'⟩
    obtain ⟨st, s', hrun, hnew, hold⟩ :=
      deleteWhere_dropColumn_old h2 _ c.cols n ⟨hr.colsFit, hr.cols⟩ hd hn
    have hmiss := (deleteWhere_dropColumn (colsStore.set h2 st) s' _ m hnew
      (((List.filter_sublist _).map _).nodup hd)).2 hm
    have hg : (getThe Heap : GoM Heap) h2 = .ok (h2, h2) := rfl
    have hm' : mergeAlterToTable p ⟨tn', s1 :: s2 :: specs'⟩ h2 = .ok (p, colsStore.set h2 st) := by
      simp only [mergeAlterToTable, bind, StateT.bind, hg, Except.bind]
      rw [runPhases_dropColumn_head hs1.tp (by rw [renameTables_cols, hs1.oldColumnName]; exact hrun)]
      simp only [phases, getAlterTableSpecByTp_cons s2, hs2.tp, if_true]
      rw [runPhases_cons_of_none _ (by rw [dropColumns_cons_of_run (by rw [hs2.oldColumnName]; exact hmiss)]; rfl)]
      rfl
    have hrold : (colsStore.set h2 st).TableReadAs (h2.tables.getD p default)
        ⟨c.table, c.cols.filter (·.name.l != n.l) ++ c.cols.drop (c.cols.length - 1),
          c.constraints⟩ := ⟨hr.table, hold.1, hold.2, hr.consFit, hr.cons⟩
    unfold mergeWithOld
    rw [hA]; dsimp only; rw [hB]; dsimp only; rw [hm']; dsimp only
    rw [if_pos rfl]
    have e : (colsStore.set h2 st).tables = h2.tables := rfl
    rw [e, hrold.readTable]


theorem merge_dropColumn_damages_oldTable_drop_b :
    let c : CreateTable := ⟨⟨⟨"", ""⟩, ⟨"t", "t"⟩⟩,
      [⟨⟨"a", "a"⟩, "int", []⟩, ⟨⟨"b", "b"⟩, "int", []⟩, ⟨⟨"c", "c"⟩, "int", []⟩], []⟩
    let n : CIStr := ⟨"b", "b"⟩
    (c.cols.map (·.name.l)).Nodup ∧ hasColumn c.cols n.l = true ∧
      (mergeWithOld c ⟨c.table, [{ tp := .dropColumn, oldColumnName := n }]⟩ =
          .ok (.newTable ⟨c.table, c.cols.filter (·.name.l != n.l), c.constraints⟩,
            ⟨c.table, c.cols.filter (·.name.l != n.l) ++ c.cols.drop (c.cols.length - 1),
              c.constraints⟩) ∧
        ∀ (m : CIStr) (rest : List AlterSpec),
          hasColumn (c.cols.filter (·.name.l != n.l)) m.l = false →
          mergeWithOld c ⟨c.table, { tp := .dropColumn, oldColumnName := n } ::
              { tp := .dropColumn, oldColumnName := m } :: rest⟩ =
            .ok (.oldTable ⟨c.table, c.cols.filter (·.name.l != n.l) ++
                c.cols.drop (c.cols.length - 1), c.constraints⟩,
              ⟨c.table, c.cols.filter (·.name.l != n.l) ++ c.cols.drop (c.cols.length - 1),
                c.constraints⟩)) := by
  intro c n
  have hd : (c.cols.map (·.name.l)).Nodup := by decide
  have hn : hasColumn c.cols n.l = true := by decide
  exact ⟨hd, hn, merge_dropColumn_damages_oldTable c hd c.table n hn⟩

end Ddl

end Dtle
