import Dtle.Sql.Layout
import Dtle.Sql.Fold
import Dtle.Sql.Range
import Mathlib.Data.List.GetD
import Mathlib.Data.List.Nodup

/-!
# Dtle.Sql.Refine.Columns

The column phases of `mergeAlterToTable` compute the reference fold of `Dtle.Sql.Fold` on the
columns of a table whose column names are distinct.

A phase's run from a heap and a table header `Agrees` with the fold's value for that phase: both
give up, or the header the phase hands on shows, through the column array and the column
objects, the columns the fold computes. The phases write only the column arrays, so the column
objects, the constraints and the specs read as they did (`Heap.SpecReadAs.setCols`). DROP COLUMN
rests on `Store.deleteWhere_atMostOne`: with distinct names the one column it deletes is the only
match, whatever the loop reads after the deletion.

* `dropColumns_agrees`, `changeColumns_agrees`, `modifyColumns_agrees`, `addColumns_agrees` —
  one phase, by induction over its specs;
* `runPhases_cons` — a column phase followed by the phases after it.
-/

namespace Dtle
namespace Ast

open Go Ddl

namespace Heap

/-- The header `s` shows, through its array and pointers, the columns `cols`. -/
def ColsAt (h : Heap) (s : Slice) (cols : List Column) : Prop :=
  h.colArrs.Fits s ∧ h.ColsReadAs (h.colArrs.elems s) cols

theorem ColsReadAs.names {h : Heap} {ps : List Nat} {cols : List Column}
    (hr : h.ColsReadAs ps cols) : ps.map (fun p => (h.col p).name.l) = cols.map (·.name.l) := by
  rw [← hr.2, List.map_map]; rfl

theorem ColsReadAs.hasColumn {h : Heap} {ps : List Nat} {cols : List Column}
    (hr : h.ColsReadAs ps cols) (l : String) :
    hasColumn cols l = ps.any fun p => (h.col p).name.l == l := by
  rw [← hr.2]; simp [Ddl.hasColumn, List.any_eq, readColumn]

theorem ColsReadAs.filter {h : Heap} {ps : List Nat} {cols : List Column} (q : Column → Bool)
    (hr : h.ColsReadAs ps cols) :
    h.ColsReadAs (ps.filter fun p => q (h.readColumn p)) (cols.filter q) :=
  ⟨fun p hp => hr.1 p (List.mem_of_mem_filter hp), by rw [← hr.2, List.filter_map]; rfl⟩

theorem SpecReadAs.setCols {h : Heap} {s : AlterTableSpec} {v : AlterSpec} (st : Arrays Nat)
    (hr : h.SpecReadAs s v) : (colsStore.set h st).SpecReadAs s v :=
  ⟨hr.1, hr.2, hr.3, hr.4, hr.5, hr.6, hr.7, hr.8⟩

end Heap

/-- A run of a phase from `h` and `t` agrees with the value result `r`: both give up, or the
phase's table shows the columns `r` gives, with the name and constraints of `t`. Either way only
the column arrays were written. -/
def Agrees (t : CreateTableStmt) (h : Heap) :
    Except Panic (Option CreateTableStmt × Heap) → Option (List Column) → Prop
  | run, none => ∃ st, run = .ok (none, colsStore.set h st)
  | run, some cols => ∃ st t', run = .ok (some t', colsStore.set h st) ∧ t'.table = t.table ∧
      t'.constraints = t.constraints ∧ (colsStore.set h st).ColsAt t'.cols cols

theorem Agrees.pure {t : CreateTableStmt} {h : Heap} {cols : List Column}
    (hc : h.ColsAt t.cols cols) : Agrees t h (.ok (some t, h)) (some cols) :=
  ⟨h.colArrs, t, rfl, rfl, rfl, hc⟩

theorem Agrees.none {t : CreateTableStmt} {h : Heap} : Agrees t h (.ok (none, h)) none :=
  ⟨h.colArrs, rfl⟩

theorem Agrees.from_set {t t' : CreateTableStmt} {h : Heap} {st : Arrays Nat}
    {run : Except Panic (Option CreateTableStmt × Heap)} {r : Option (List Column)}
    (ha : Agrees t' (colsStore.set h st) run r) (ht : t'.table = t.table)
    (hk : t'.constraints = t.constraints) : Agrees t h run r := by
  cases r with
  | none => obtain ⟨st', hrun⟩ := ha; exact ⟨st', hrun⟩
  | some cols =>
    obtain ⟨st', t'', hrun, h1, h2, hc⟩ := ha
    exact ⟨st', t'', hrun, h1.trans ht, h2.trans hk, hc⟩

/-! ## DROP COLUMN -/

theorem deleteWhere_dropColumn (h : Heap) (s : Slice) (cols : List Column) (n : CIStr)
    (hc : h.ColsAt s cols) (hd : (cols.map (·.name.l)).Nodup) :
    (hasColumn cols n.l = true → ∃ st s',
        colsStore.deleteWhere (fun h col => (h.col col).name.l == n.l) s 0 s.len s false h =
          .ok ((s', true), colsStore.set h st) ∧
        (colsStore.set h st).ColsAt s' (cols.filter (·.name.l != n.l))) ∧
    (hasColumn cols n.l = false → colsStore.deleteWhere (fun h col => (h.col col).name.l == n.l)
        s 0 s.len s false h = .ok ((s, false), h)) := by
  obtain ⟨hfit, hr⟩ := hc
  rw [← hr.names] at hd
  obtain ⟨hyes, hno⟩ := Store.deleteWhere_atMostOne colsStore
    (fun h col => (h.col col).name.l == n.l) s h hfit (fun _ _ _ => rfl)
    fun m j hm hj hpm hpj => by
      refine (@List.Nodup.getElem_inj_iff _ _ hd m (by simpa using hm) j (by simpa using hj)).mp ?_
      simp only [List.getElem_map, beq_iff_eq] at hpm hpj ⊢
      exact hpm.trans hpj.symm
  rw [hr.hasColumn]
  refine ⟨fun hhas => ?_, hno⟩
  obtain ⟨r, hrun, hfit', helems⟩ := hyes hhas
  refine ⟨r.1, r.2, hrun, hfit', ?_⟩
  show h.ColsReadAs (r.1.elems r.2) _
  rw [helems]
  exact hr.filter (·.name.l != n.l)

theorem dropColumns_agrees (specs : List AlterTableSpec) : ∀ (vs : List AlterSpec) (h : Heap)
    (t : CreateTableStmt) (cols : List Column), List.Forall₂ h.SpecReadAs specs vs →
    h.ColsAt t.cols cols → (cols.map (·.name.l)).Nodup →
    Agrees t h (dropColumns specs t h) (vs.foldlM dropColumn cols) := by
  induction specs with
  | nil =>
    intro vs h t cols hs hc _
    cases hs
    exact Agrees.pure hc
  | cons spec specs ih =>
    intro vs h t cols hs hc hd
    cases hs with
    | cons hsv hs =>
    rename_i v vs
    obtain ⟨hyes, hno⟩ := deleteWhere_dropColumn h t.cols cols spec.oldColumnName hc hd
    rw [hsv.oldColumnName] at hyes hno
    cases hhas : hasColumn cols v.oldColumnName.l
    · have hv : dropColumn cols v = none := by simp [dropColumn, hhas]
      simp only [dropColumns, bind, StateT.bind, hsv.oldColumnName, hno hhas, List.foldlM_cons,
        hv]
      exact Agrees.none
    · obtain ⟨st, s', hdel, hc'⟩ := hyes hhas
      have hv : dropColumn cols v = some (cols.filter (·.name.l != v.oldColumnName.l)) := by
        simp [dropColumn, hhas]
      simp only [dropColumns, bind, StateT.bind, hsv.oldColumnName, hdel, List.foldlM_cons, hv]
      exact (ih vs _ { t with cols := s' } _ (hs.imp fun _ _ hr => hr.setCols st) hc'
        (dropColumn_nodup hd hv)).from_set rfl rfl

/-! ## CHANGE COLUMN and MODIFY COLUMN -/

theorem Heap.ColsReadAs.replace {h : Heap} {ps : List Nat} {cols : List Column} {x : Nat}
    {new : Column} (l : String) (hr : h.ColsReadAs ps cols) (hx : h.ColsReadAs [x] [new]) :
    h.ColsReadAs (ps.map fun p => if (h.col p).name.l == l then x else p)
      (replaceColumn cols l new) := by
  refine ⟨fun p hp => ?_, ?_⟩
  · obtain ⟨q, hq, rfl⟩ := List.mem_map.mp hp
    split
    · exact hx.1 x (List.mem_singleton_self x)
    · exact hr.1 q hq
  · have hnew : h.readColumn x = new := List.singleton_inj.mp hx.2
    rw [← hr.2, replaceColumn, List.map_map, List.map_map, List.map_inj_left]
    intro p _
    simp only [Function.comp]
    split <;> simp_all [Heap.readColumn]

theorem ReplaceLoop.columns {L : Nat → Nat → Bool → GoM Bool} {h : Heap} {s : Slice}
    {cols : List Column} {x : Nat} {new : Column} {l : String}
    (hL : ReplaceLoop L (fun p => (h.col p).name.l == l) x s h) (hc : h.ColsAt s cols)
    (hx : h.ColsReadAs [x] [new]) :
    ∃ st, L 0 s.len false h = .ok (hasColumn cols l, colsStore.set h st) ∧
      (colsStore.set h st).ColsAt s (replaceColumn cols l new) := by
  obtain ⟨st, hrun, he, hfit⟩ := hL.run (h.colArrs.elems s) (Arrays.elems_length hc.1) s.len 0
    false h.colArrs (by omega) hc.1 (by simp)
  refine ⟨st, ?_, hfit, ?_⟩
  · rw [Bool.false_or, List.drop_zero] at hrun
    rw [hc.2.hasColumn]
    exact hrun
  · show h.ColsReadAs (st.elems s) _
    rw [he]; exact hc.2.replace l hx

theorem Heap.ColsReadAs.head {h : Heap} {ps : List Nat} {cols : List Column}
    (hr : h.ColsReadAs ps cols) (hne : cols ≠ []) :
    ∃ x rest, ps = x :: rest ∧ h.ColsReadAs [x] [cols.headD default] := by
  obtain ⟨hm, hmap⟩ := hr
  cases ps with
  | nil => exact absurd hmap.symm hne
  | cons x rest =>
    subst hmap
    exact ⟨x, rest, rfl, fun p hp => hm p (by simp_all), rfl⟩

theorem changeColumns_agrees (specs : List AlterTableSpec) : ∀ (vs : List AlterSpec) (h : Heap)
    (t : CreateTableStmt) (cols : List Column), List.Forall₂ h.SpecReadAs specs vs →
    (∀ v ∈ vs, v.newColumns ≠ []) → h.ColsAt t.cols cols →
    Agrees t h (changeColumns specs t h) (vs.foldlM changeColumn cols) := by
  induction specs with
  | nil =>
    intro vs h t cols hs _ hc
    cases hs
    exact Agrees.pure hc
  | cons spec specs ih =>
    intro vs h t cols hs hne hc
    cases hs with
    | cons hsv hs =>
    rename_i v vs
    obtain ⟨x, rest, hx, hxr⟩ := hsv.newColumns.head (hne v (List.mem_cons_self _ _))
    obtain ⟨st, hrun, hc'⟩ := (changeColumnLoop_replaceLoop spec t.cols h hx).columns hc hxr
    rw [hsv.oldColumnName] at hrun hc'
    have hrun' : changeColumnLoop spec t.cols 0 t.cols.len false h = _ := hrun
    simp only [changeColumns, bind, StateT.bind, hrun', List.foldlM_cons, changeColumn]
    cases hasColumn cols v.oldColumnName.l
    · exact ⟨st, rfl⟩
    · exact (ih vs _ t _ (hs.imp fun _ _ hr => hr.setCols st)
        (fun v hv => hne v (List.mem_cons_of_mem _ hv)) hc').from_set rfl rfl

theorem modifyColumns_agrees (specs : List AlterTableSpec) : ∀ (vs : List AlterSpec) (h : Heap)
    (t : CreateTableStmt) (cols : List Column), List.Forall₂ h.SpecReadAs specs vs →
    (∀ v ∈ vs, v.newColumns ≠ []) → h.ColsAt t.cols cols →
    Agrees t h (modifyColumns specs t h) (vs.foldlM modifyColumn cols) := by
  induction specs with
  | nil =>
    intro vs h t cols hs _ hc
    cases hs
    exact Agrees.pure hc
  | cons spec specs ih =>
    intro vs h t cols hs hne hc
    cases hs with
    | cons hsv hs =>
    rename_i v vs
    obtain ⟨x, rest, hx, hxr⟩ := hsv.newColumns.head (hne v (List.mem_cons_self _ _))
    have hname : (h.col x).name.l = (v.newColumns.headD default).name.l := by
      rw [← List.singleton_inj.mp hxr.2]; rfl
    obtain ⟨st, hrun, hc'⟩ := (modifyColumnLoop_replaceLoop spec t.cols h hx).columns hc hxr
    rw [hname] at hrun hc'
    have hrun' : modifyColumnLoop spec t.cols 0 t.cols.len false h = _ := hrun
    simp only [modifyColumns, bind, StateT.bind, hrun', List.foldlM_cons, modifyColumn]
    cases hasColumn cols (v.newColumns.headD default).name.l
    · exact ⟨st, rfl⟩
    · exact (ih vs _ t _ (hs.imp fun _ _ hr => hr.setCols st)
        (fun v hv => hne v (List.mem_cons_of_mem _ hv)) hc').from_set rfl rfl

/-! ## ADD COLUMN -/

theorem addNewColumns_agrees : ∀ (ps : List Nat) (news : List Column) (h : Heap)
    (t : CreateTableStmt) (cols : List Column), h.ColsReadAs ps news → h.ColsAt t.cols cols →
    Agrees t h (addNewColumns ps t h) (news.foldlM addColumn cols)
  | [], news, h, t, cols, hr, hc => by
    obtain rfl : news = [] := hr.2.symm
    exact Agrees.pure hc
  | x :: rest, news, h, t, cols, hr, hc => by
    obtain ⟨hm, rfl⟩ := hr
    have hg : ∀ h : Heap, (getThe Heap : GoM Heap) h = .ok (h, h) := fun _ => rfl
    have hex : colNameExists h t.cols (h.col x).name.l =
        hasColumn cols (h.readColumn x).name.l :=
      (hc.2.hasColumn _).symm
    simp only [addNewColumns, bind, StateT.bind, hg, Except.bind, hex, List.map_cons,
      List.foldlM_cons, addColumn]
    cases hasColumn cols (h.readColumn x).name.l
    · obtain ⟨he, hfit⟩ := Arrays.elems_append [x] hc.1
      have hrest : h.ColsReadAs rest (rest.map h.readColumn) :=
        ⟨fun p hp => hm p (List.mem_cons_of_mem _ hp), rfl⟩
      have hx : h.ColsReadAs [x] [h.readColumn x] :=
        ⟨fun p hp => hm p (by simp_all), rfl⟩
      exact (addNewColumns_agrees rest _ (colsStore.set h (h.colArrs.append t.cols [x]).1)
        { t with cols := (h.colArrs.append t.cols [x]).2 } (cols ++ [h.readColumn x]) hrest
        ⟨hfit, by
          show h.ColsReadAs
            ((h.colArrs.append t.cols [x]).1.elems (h.colArrs.append t.cols [x]).2) _
          rw [he]; exact hc.2.append hx⟩).from_set rfl rfl
    · exact Agrees.none

theorem addColumns_agrees (specs : List AlterTableSpec) : ∀ (vs : List AlterSpec) (h : Heap)
    (t : CreateTableStmt) (cols : List Column), List.Forall₂ h.SpecReadAs specs vs →
    h.ColsAt t.cols cols →
    Agrees t h (Ast.addColumns specs t h) (vs.foldlM Ddl.addColumns cols) := by
  induction specs with
  | nil =>
    intro vs h t cols hs hc
    cases hs
    exact Agrees.pure hc
  | cons spec specs ih =>
    intro vs h t cols hs hc
    cases hs with
    | cons hsv hs =>
    rename_i v vs
    have ha := addNewColumns_agrees spec.newColumns v.newColumns h t cols hsv.newColumns hc
    simp only [Ast.addColumns, bind, StateT.bind, List.foldlM_cons, Ddl.addColumns]
    cases hv : v.newColumns.foldlM addColumn cols with
    | none =>
      rw [hv] at ha
      obtain ⟨st, hrun⟩ := ha
      simp only [hrun, Option.none_bind]
      exact ⟨st, rfl⟩
    | some cols' =>
      rw [hv] at ha
      obtain ⟨st, t', hrun, ht, hk, hc'⟩ := ha
      simp only [hrun, Option.some_bind]
      exact (ih vs _ t' _ (hs.imp fun _ _ hr => hr.setCols st) hc').from_set ht hk

theorem runPhases_cons {β : Type}
    {R : Except Panic (Option CreateTableStmt × Heap) → Option β → Prop}
    {f : CreateTableStmt → GoM (Option CreateTableStmt)}
    {fs : List (CreateTableStmt → GoM (Option CreateTableStmt))} {t : CreateTableStmt} {h : Heap}
    {r : Option (List Column)} {k : List Column → Option β}
    (ha : Agrees t h (f t h) r) (hnone : ∀ h', R (.ok (none, h')) none)
    (hrest : ∀ st t' cols, r = some cols → t'.table = t.table → t'.constraints = t.constraints →
      (colsStore.set h st).ColsAt t'.cols cols →
      R (runPhases fs t' (colsStore.set h st)) (k cols)) :
    R (runPhases (f :: fs) t h) (r.bind k) := by
  cases r with
  | none =>
    obtain ⟨st, hrun⟩ := ha
    simp only [runPhases, bind, StateT.bind, hrun, Except.bind, Option.none_bind]
    exact hnone _
  | some cols =>
    obtain ⟨st, t', hrun, ht, hk, hc⟩ := ha
    simp only [runPhases, bind, StateT.bind, hrun, Except.bind, Option.some_bind]
    exact hrest st t' cols rfl ht hk hc

end Ast
end Dtle
