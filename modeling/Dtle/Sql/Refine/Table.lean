import Dtle.Sql.Refine.Constraints

/-!
# Dtle.Sql.Refine.Table

`mergeAlterToTable` computes the reference fold `foldTable` of `Dtle.Sql.Fold`, on every table
and every ALTER the fold covers.

The column phases (`Dtle.Sql.Refine.Columns`) run first and write only the column arrays; the
constraint phases (`Dtle.Sql.Refine.Constraints`) then write the constraint arrays and objects
and leave the columns. A whole run `TableAgrees` with the fold: both give up, or the table the
phases hand on reads as the fold's columns and constraints.

* `runPhases_agrees` — the phases in the code's order;
* `mergeAlterToTable_agrees` — on any heap where the old table and the specs read as values;
* `merge_refines_foldTable` — on a CREATE and an ALTER laid out as the parser does, the merge
  returns the fold's table as `newTable`, or `oldTable` where the fold gives up.
-/

namespace Dtle
namespace Ast

open Go Ddl

theorem getAlterTableSpecByTp_single (specs : List AlterTableSpec) (tp : AlterTableType) :
    getAlterTableSpecByTp specs [tp] = specs.filter (·.tp == tp) := by
  induction specs with
  | nil => rfl
  | cons s ss ih =>
    rw [List.filter_cons, ← ih]
    by_cases he : s.tp = tp <;> simp [getAlterTableSpecByTp, he]

theorem forall₂_specsOf {h : Heap} {specs : List AlterTableSpec} {vs : List AlterSpec}
    (hs : List.Forall₂ h.SpecReadAs specs vs) (tp : AlterTableType) :
    List.Forall₂ h.SpecReadAs (getAlterTableSpecByTp specs [tp]) (specsOf vs tp) := by
  rw [getAlterTableSpecByTp_single]
  induction hs with
  | nil => exact .nil
  | cons hr _ ih =>
    simp only [specsOf, List.filter_cons, hr.tp] at ih ⊢
    split
    · exact .cons hr ih
    · exact ih

theorem getAlterTableSpecByTp_eq_nil {h : Heap} {specs : List AlterTableSpec}
    {vs : List AlterSpec} (hs : List.Forall₂ h.SpecReadAs specs vs) {tp : AlterTableType}
    (htp : ∀ v ∈ vs, v.tp ≠ tp) : getAlterTableSpecByTp specs [tp] = [] := by
  have hv : specsOf vs tp = [] :=
    List.filter_eq_nil_iff.mpr fun v hv he => htp v hv (beq_iff_eq.mp he)
  have := forall₂_specsOf hs tp
  rw [hv] at this
  exact List.forall₂_nil_right_iff.mp this

theorem runPhases_skip {f : CreateTableStmt → GoM (Option CreateTableStmt)}
    (hf : ∀ t h, f t h = .ok (some t, h))
    (fs : List (CreateTableStmt → GoM (Option CreateTableStmt))) (t : CreateTableStmt)
    (h : Heap) :
    runPhases (f :: fs) t h = runPhases fs t h := by
  simp only [runPhases, bind, StateT.bind, hf, Except.bind]

/-- A run of phases agrees with the fold's columns and constraints `r`: both give up, or the
phases hand on a table that reads as `r`'s columns and constraints under the name `name`, with
the heap's tables `tables` as they were. -/
def TableAgrees (name : TableName) (tables : List CreateTableStmt)
    (run : Except Panic (Option CreateTableStmt × Heap)) :
    Option (List Column × List Constraint) → Prop
  | none => ∃ h', run = .ok (none, h')
  | some (cols, cons) => ∃ h' t', run = .ok (some t', h') ∧ h'.tables = tables ∧
      h'.TableReadAs t' ⟨name, cols, cons⟩

theorem conPhases_agrees {N : Nat} (h : Heap) (specs : List AlterTableSpec) (vs : List AlterSpec)
    (t : CreateTableStmt) (cols : List Column) (cons : List Constraint)
    (hs : List.Forall₂ h.SpecReadAs specs vs) (hN : ∀ s ∈ specs, ∀ p ∈ s.constraint, N ≤ p)
    (hv : ∀ v ∈ vs, v.covered) (hc : h.ColsAt t.cols cols)
    (hk : h.ConsAt (· < N) t.constraints cons)
    (hd : cons.Pairwise fun a b => a.name = b.name → a.name = "")
    (hpk : ∀ k ∈ cons, pkPartsNamed k) :
    TableAgrees t.table h.tables
      (runPhases [dropIndexes (getAlterTableSpecByTp specs [.dropIndex]),
        renameIndexes (getAlterTableSpecByTp specs [.renameIndex]),
        addConstraints (getAlterTableSpecByTp specs [.addConstraint])] t h)
      ((foldCons vs cols cons).bind fun cons => some (cols, cons)) := by
  have hNtp : ∀ tp, ∀ s ∈ getAlterTableSpecByTp specs [tp], ∀ p ∈ s.constraint, N ≤ p :=
    fun tp s hs => hN s (List.mem_of_mem_filter (getAlterTableSpecByTp_single specs tp ▸ hs))
  have hkind : ∀ tp, ∀ v ∈ specsOf vs tp, v.covered ∧ v.tp = tp := fun tp v hm =>
    let ⟨hm, htp⟩ := mem_specsOf.mp hm; ⟨hv v hm, htp⟩
  simp only [foldCons, Option.bind_eq_bind, Option.bind_assoc]
  refine runPhases_cons_con (dropIndexes_agrees (N := N) _ _ h t cons (forall₂_specsOf hs _)
    (fun v hm => AlterSpec.name_of_covered (hkind _ v hm).1 (hkind _ v hm).2) hk hd)
    (fun h' => ⟨h', rfl⟩) fun h1 t1 cons1 hr1 hf1 ht1 hc1 hk1 => ?_
  refine runPhases_cons_con (renameIndexes_agrees (fun _ hp => hp) _ _ h1 t1 cons1
    (Heap.forall₂_frame hf1 (hNtp _) (forall₂_specsOf hs _)) (hNtp _) hk1)
    (fun h' => ⟨h', rfl⟩) fun h2 t2 cons2 hr2 hf2 ht2 hc2 hk2 => ?_
  have hf12 := hf1.trans hf2
  refine runPhases_cons_con (addConstraints_agrees (N := N) _ _ h2 t2 cols cons2
    (Heap.forall₂_frame hf12 (hNtp _) (forall₂_specsOf hs _))
    (fun v hm => (AlterSpec.constraint_of_covered (hkind _ v hm).1 (hkind _ v hm).2).1)
    (fun v hm => (AlterSpec.constraint_of_covered (hkind _ v hm).1 (hkind _ v hm).2).2)
    (by rw [hc2, hc1]; exact hc.frame hf12) (hk2.mono fun _ _ => trivial)
    (pkPartsNamed_of_foldlM_renameIndex _ hr2 fun k hk =>
      hpk k (mem_of_foldlM_dropIndex _ hr1 k hk)))
    (fun h' => ⟨h', rfl⟩) fun h3 t3 cons3 _ hf3 ht3 hc3 hk3 => ?_
  have hc' : h3.ColsAt t3.cols cols := by rw [hc3, hc2, hc1]; exact hc.frame (hf12.trans hf3)
  exact ⟨h3, t3, rfl, (hf12.trans hf3).tables,
    ⟨by rw [ht3, ht2, ht1], hc'.1, hc'.2, hk3.1, hk3.2.1⟩⟩

theorem runPhases_agrees {N : Nat} (h : Heap) (specs : List AlterTableSpec) (vs : List AlterSpec)
    (t : CreateTableStmt) (cols : List Column) (cons : List Constraint)
    (hs : List.Forall₂ h.SpecReadAs specs vs) (hN : ∀ s ∈ specs, ∀ p ∈ s.constraint, N ≤ p)
    (hv : ∀ v ∈ vs, v.covered) (hc : h.ColsAt t.cols cols)
    (hk : h.ConsAt (· < N) t.constraints cons) (hd : (cols.map (·.name.l)).Nodup)
    (hcn : cons.Pairwise fun a b => a.name = b.name → a.name = "")
    (hpk : ∀ k ∈ cons, pkPartsNamed k) :
    TableAgrees t.table h.tables (runPhases (phases specs) t h)
      ((foldCols vs cols).bind fun cols =>
        (foldCons vs cols cons).bind fun cons => some (cols, cons)) := by
  have hsk := fun tp (htp : ∀ v ∈ vs, v.tp ≠ tp) => getAlterTableSpecByTp_eq_nil hs htp
  have hnew : ∀ tp, (tp = .changeColumn ∨ tp = .modifyColumn) → ∀ v ∈ specsOf vs tp,
      v.newColumns ≠ [] := fun tp htp v hm =>
    let ⟨hm, he⟩ := mem_specsOf.mp hm
    AlterSpec.newColumns_of_covered (hv v hm) (he ▸ htp)
  simp only [phases, hsk .alterColumn fun v hm => (AlterSpec.tp_ne_of_covered (hv v hm)).1,
    hsk .dropPrimaryKey fun v hm => (AlterSpec.tp_ne_of_covered (hv v hm)).2, foldCols,
    Option.bind_eq_bind, Option.bind_assoc]
  refine runPhases_cons (dropColumns_agrees _ _ h t cols (forall₂_specsOf hs _) hc hd)
    (fun h' => ⟨h', rfl⟩) fun st1 t1 cols1 _ ht1 hk1 hc1 => ?_
  refine runPhases_cons (changeColumns_agrees _ _ _ t1 cols1
    ((forall₂_specsOf hs _).imp fun _ _ hr => hr.setCols st1) (hnew _ (.inl rfl)) hc1)
    (fun h' => ⟨h', rfl⟩) fun st2 t2 cols2 _ ht2 hk2 hc2 => ?_
  refine runPhases_cons (modifyColumns_agrees _ _ _ t2 cols2
    ((forall₂_specsOf hs _).imp fun _ _ hr => hr.setCols st2) (hnew _ (.inr rfl)) hc2)
    (fun h' => ⟨h', rfl⟩) fun st3 t3 cols3 _ ht3 hk3 hc3 => ?_
  rw [runPhases_skip (f := alterColumns []) fun _ _ => rfl]
  refine runPhases_cons (addColumns_agrees _ _ _ t3 cols3
    ((forall₂_specsOf hs _).imp fun _ _ hr => hr.setCols st3) hc3)
    (fun h' => ⟨h', rfl⟩) fun st4 t4 cols4 _ ht4 hk4 hc4 => ?_
  rw [runPhases_skip (f := dropPrimaryKeys []) fun _ _ => rfl]
  have := conPhases_agrees _ specs vs t4 cols4 cons
    (hs.imp fun _ _ hr => ((((hr.setCols st1).setCols st2).setCols st3).setCols st4)) hN hv hc4
    (by rw [hk4, hk3, hk2, hk1]; exact hk) hcn hpk
  rwa [ht4, ht3, ht2, ht1] at this

theorem renameTables_eq {h : Heap} {specs : List AlterTableSpec} {vs : List AlterSpec}
    (hs : List.Forall₂ h.SpecReadAs specs vs) (t : CreateTableStmt) :
    renameTables specs t = { t with table := vs.foldl (fun _ v => v.newTable) t.table } := by
  induction hs generalizing t with
  | nil => rfl
  | cons hr _ ih =>
    simp only [renameTables, List.foldl_cons] at ih ⊢
    rw [ih, hr.newTable]

theorem mergeAlterToTable_agrees {N : Nat} (h : Heap) (p : Nat) (alter : AlterTableStmt)
    (c : CreateTable) (vs : List AlterSpec) (ht : h.TableReadAs (h.tables.getD p default) c)
    (hlt : ∀ q ∈ h.conArrs.elems (h.tables.getD p default).constraints, q < N)
    (hs : List.Forall₂ h.SpecReadAs alter.specs vs)
    (hN : ∀ s ∈ alter.specs, ∀ q ∈ s.constraint, N ≤ q) (hc : c.covered)
    (hv : ∀ v ∈ vs, v.covered) :
    (∀ c', foldTable c vs = some c' → ∃ h', mergeAlterToTable p alter h =
        .ok (h.tables.length, h') ∧
        h'.readTable (h'.tables.getD h.tables.length default) = c') ∧
      (foldTable c vs = none → ∃ h', mergeAlterToTable p alter h = .ok (p, h')) := by
  have hg : ∀ h : Heap, (getThe Heap : GoM Heap) h = .ok (h, h) := fun _ => rfl
  simp only [CreateTable.covered, Bool.and_eq_true, decide_eq_true_eq, List.all_eq_true] at hc
  obtain ⟨⟨hd, hcn⟩, hpk⟩ := hc
  set old := h.tables.getD p default
  have hag := runPhases_agrees h alter.specs vs
    { table := (specsOf vs .renameTable).foldl (fun _ v => v.newTable) old.table, cols := old.cols,
      constraints := old.constraints } c.cols c.constraints hs hN hv ⟨ht.colsFit, ht.cols⟩
    ⟨ht.consFit, ht.cons, hlt⟩ hd (pairwise_names_of_nodup hcn) hpk
  simp only [mergeAlterToTable, bind, StateT.bind, hg, Except.bind,
    renameTables_eq (forall₂_specsOf hs .renameTable)]
  rw [foldTable_eq]
  cases hf : (foldCols vs c.cols).bind fun cols =>
      (foldCons vs cols c.constraints).bind fun cons => some (cols, cons) with
  | none =>
    rw [hf] at hag
    obtain ⟨h', hrun⟩ := hag
    refine ⟨fun _ hc' => by simp at hc', fun _ => ⟨h', ?_⟩⟩
    rw [hrun]; rfl
  | some r =>
    obtain ⟨cols', cons'⟩ := r
    rw [hf] at hag
    obtain ⟨h', t', hrun, htables, hread⟩ := hag
    refine ⟨fun c' hc' => ⟨_, by rw [hrun]; dsimp only; rw [htables], ?_⟩, fun hc' => by
      simp at hc'⟩
    simp only [Option.map_some', Option.some.injEq] at hc'
    subst hc'
    have hget : (h.tables ++ [t']).getD h.tables.length default = t' := by simp
    show Heap.readTable _ ((h.tables ++ [t']).getD h.tables.length default) = _
    rw [hget]
    refine Heap.TableReadAs.readTable ⟨?_, hread.colsFit, hread.cols, hread.consFit, hread.cons⟩
    rw [hread.table]
    show List.foldl _ old.table _ = List.foldl _ c.table _
    rw [ht.table]

end Ast

namespace Ddl

open Go Ast

/-- The merge of a table the fold covers (distinct column names, distinct names of the named
constraints, primary key parts that name columns) with an ALTER of specs the fold covers (every
kind but ALTER COLUMN and DROP PRIMARY KEY, each with what its kind needs) is the reference fold:
the merged table when the fold applies, `oldTable` when a spec makes it give up. -/
theorem merge_refines_foldTable (c : CreateTable) (a : AlterTable) (hc : c.covered)
    (ha : ∀ v ∈ a.specs, v.covered) :
    (∀ t, foldTable c a.specs = some t → merge c a = .ok (.newTable t)) ∧
      (foldTable c a.specs = none → ∃ t, merge c a = .ok (.oldTable t)) := by
  obtain ⟨-, hp0, hlt, hr⟩ := Heap.allocCreateTable_spec Heap.empty c
  have hN := Heap.allocAlterSpecs_constraint_ge (Heap.empty.allocCreateTable c).2 a.specs
  obtain ⟨hg, -, hs⟩ := Heap.allocAlterTable_spec (Heap.empty.allocCreateTable c).2 a
  unfold merge
  generalize Heap.empty.allocCreateTable c = A at hp0 hlt hr hg hs hN
  obtain ⟨p, h1⟩ := A
  dsimp only at hp0 hlt hr hg hs hN ⊢
  rw [← hp0] at hr
  have hN' : ∀ s ∈ (h1.allocAlterTable a).1.specs, ∀ q ∈ s.constraint,
      h1.constraints.length ≤ q := hN
  generalize h1.allocAlterTable a = B at hg hs hN'
  obtain ⟨alter, h2⟩ := B
  dsimp only at hg hs hN' ⊢
  have hget := Heap.getD_of_prefix hg.tables hlt (d := default)
  have ht : h2.TableReadAs (h2.tables.getD p default) c := by rw [hget]; exact hr.grow hg
  have hbound : ∀ q ∈ h2.conArrs.elems (h2.tables.getD p default).constraints,
      q < h1.constraints.length := by
    rw [hget, (Arrays.elems_of_prefix hg.conArrs hr.consFit).1]; exact hr.cons.1
  have hp : p < h2.tables.length := Nat.lt_of_lt_of_le hlt hg.tables.length_le
  obtain ⟨hsome, hnone⟩ := mergeAlterToTable_agrees h2 p alter c a.specs ht hbound hs hN' hc ha
  constructor
  · intro t hf
    obtain ⟨h', hrun, hread⟩ := hsome t hf
    rw [hrun]; dsimp only; rw [hread, if_neg (by omega)]
  · intro hf
    obtain ⟨h', hrun⟩ := hnone hf
    rw [hrun]; simp

theorem merge_refines_foldTable_rename_add_key :
    let c : CreateTable :=
      ⟨⟨⟨"", ""⟩, ⟨"t", "t"⟩⟩, [⟨⟨"a", "a"⟩, "int", []⟩, ⟨⟨"b", "b"⟩, "int", []⟩],
        [⟨.uniqKey, "uk_b", [⟨some ⟨"b", "b"⟩⟩]⟩]⟩
    let a : AlterTable := ⟨c.table, [{ tp := .dropColumn, oldColumnName := ⟨"a", "a"⟩ },
      { tp := .addColumns, newColumns := [⟨⟨"c", "c"⟩, "int", []⟩] },
      { tp := .renameIndex, fromKey := ⟨"uk_b", "uk_b"⟩, toKey := ⟨"uk_b2", "uk_b2"⟩ },
      { tp := .addConstraint, constraint := some ⟨.primaryKey, "", [⟨some ⟨"c", "c"⟩⟩]⟩ }]⟩
    let t : CreateTable :=
      ⟨c.table, [⟨⟨"b", "b"⟩, "int", []⟩, ⟨⟨"c", "c"⟩, "int", []⟩],
        [⟨.uniqKey, "uk_b2", [⟨some ⟨"b", "b"⟩⟩]⟩, ⟨.primaryKey, "", [⟨some ⟨"c", "c"⟩⟩]⟩]⟩
    c.covered ∧ (∀ v ∈ a.specs, v.covered) ∧ foldTable c a.specs = some t ∧
      merge c a = .ok (.newTable t) := by
  intro c a t
  have hc : c.covered := by decide
  have ha : ∀ v ∈ a.specs, v.covered := by decide
  have hf : foldTable c a.specs = some t := by decide
  exact ⟨hc, ha, hf, (merge_refines_foldTable c a hc ha).1 t hf⟩

end Ddl

end Dtle
