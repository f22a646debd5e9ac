import Dtle.Sql.Ddl

/-!
# Dtle.Sql.Layout

The parser's layout of a statement, read back. `allocCreateTable` and `allocAlterTable` give every
column, constraint and array a slot of its own at the end of its store, and no layout writes an
older slot, so what a statement reads as stays put while later statements are laid out
(`Grows`).

* `readTable_allocCreateTable` — a CREATE laid out and read back is the statement itself;
* `allocCreateTable_spec`, `allocAlterTable_spec` — the table and the specs read as the values
  they were laid out from, in every heap that grows from there.
-/

namespace Dtle

namespace Go.Arrays

variable {α : Type}

theorem alloc_prefix (st : Arrays α) (xs : List α) : st <+: (st.alloc xs).1 := by
  unfold alloc; split
  · exact List.prefix_refl st
  · exact List.prefix_append _ _

theorem alloc_elems (st : Arrays α) (xs : List α) :
    (st.alloc xs).1.elems (st.alloc xs).2 = xs ∧ (st.alloc xs).1.Fits (st.alloc xs).2 := by
  unfold alloc; split
  · next he => simp [List.isEmpty_iff.mp he, Slice.nil, elems, Fits]
  · simp [elems, Fits, array, List.getD_eq_getElem?_getD]

end Go.Arrays

namespace Ast.Heap

open Go Ddl

/-- `h'` only adds objects and arrays to those of `h`. -/
structure Grows (h h' : Heap) : Prop where
  tables : h.tables <+: h'.tables
  colDefs : h.colDefs <+: h'.colDefs
  constraints : h.constraints <+: h'.constraints
  colArrs : h.colArrs <+: h'.colArrs
  conArrs : h.conArrs <+: h'.conArrs
  optArrs : h.optArrs <+: h'.optArrs

theorem Grows.refl (h : Heap) : Grows h h :=
  ⟨List.prefix_refl _, List.prefix_refl _, List.prefix_refl _, List.prefix_refl _,
    List.prefix_refl _, List.prefix_refl _⟩

theorem Grows.trans {h₁ h₂ h₃ : Heap} (a : Grows h₁ h₂) (b : Grows h₂ h₃) :
    Grows h₁ h₃ :=
  ⟨a.tables.trans b.tables, a.colDefs.trans b.colDefs, a.constraints.trans b.constraints,
    a.colArrs.trans b.colArrs, a.conArrs.trans b.conArrs, a.optArrs.trans b.optArrs⟩

theorem getD_of_prefix {α : Type} {l l' : List α} (hl : l <+: l') {p : Nat} (hp : p < l.length)
    (d : α) : l'.getD p d = l.getD p d := by
  obtain ⟨t, rfl⟩ := hl
  simp [List.getElem?_append_left hp]

/-- The column objects `ps` of `h`, whose options fit their arrays, read back as `cs`. -/
def ColsReadAs (h : Heap) (ps : List Nat) (cs : List Column) : Prop :=
  (∀ p ∈ ps, p < h.colDefs.length ∧ h.optArrs.Fits (h.col p).options) ∧
    ps.map h.readColumn = cs

/-- The constraint objects `ps` of `h` read back as `cs`. -/
def ConsReadAs (h : Heap) (ps : List Nat) (cs : List Constraint) : Prop :=
  (∀ p ∈ ps, p < h.constraints.length) ∧ ps.map h.con = cs

theorem ColsReadAs.grow {h h' : Heap} {ps : List Nat} {cs : List Column} (hg : Grows h h')
    (hr : h.ColsReadAs ps cs) : h'.ColsReadAs ps cs := by
  have hcol : ∀ p ∈ ps, h'.col p = h.col p := fun p hp =>
    getD_of_prefix hg.colDefs (hr.1 p hp).1 default
  refine ⟨fun p hp => ⟨?_, ?_⟩, ?_⟩
  · exact Nat.lt_of_lt_of_le (hr.1 p hp).1 hg.colDefs.length_le
  · rw [hcol p hp]; exact (Arrays.elems_of_prefix hg.optArrs (hr.1 p hp).2).2
  · rw [← hr.2, List.map_inj_left]
    intro p hp
    simp only [readColumn, hcol p hp, (Arrays.elems_of_prefix hg.optArrs (hr.1 p hp).2).1]

theorem ConsReadAs.grow {h h' : Heap} {ps : List Nat} {cs : List Constraint} (hg : Grows h h')
    (hr : h.ConsReadAs ps cs) : h'.ConsReadAs ps cs := by
  refine ⟨fun p hp => Nat.lt_of_lt_of_le (hr.1 p hp) hg.constraints.length_le, ?_⟩
  rw [← hr.2, List.map_inj_left]
  exact fun p hp => getD_of_prefix hg.constraints (hr.1 p hp) default

theorem ColsReadAs.append {h : Heap} {ps qs : List Nat} {cs ds : List Column}
    (hp : h.ColsReadAs ps cs) (hq : h.ColsReadAs qs ds) : h.ColsReadAs (ps ++ qs) (cs ++ ds) :=
  ⟨fun p hm => (List.mem_append.mp hm).elim (hp.1 p) (hq.1 p), by
    rw [List.map_append, hp.2, hq.2]⟩

theorem ConsReadAs.append {h : Heap} {ps qs : List Nat} {cs ds : List Constraint}
    (hp : h.ConsReadAs ps cs) (hq : h.ConsReadAs qs ds) : h.ConsReadAs (ps ++ qs) (cs ++ ds) :=
  ⟨fun p hm => (List.mem_append.mp hm).elim (hp.1 p) (hq.1 p), by
    rw [List.map_append, hp.2, hq.2]⟩

/-! ## Objects -/

theorem allocColumn_grows (h : Heap) (c : Column) : Grows h (h.allocColumn c).2 :=
  ⟨List.prefix_refl _, List.prefix_append _ _, List.prefix_refl _, List.prefix_refl _,
    List.prefix_refl _, Arrays.alloc_prefix _ _⟩

theorem allocColumn_readAs (h : Heap) (c : Column) :
    (h.allocColumn c).2.ColsReadAs [(h.allocColumn c).1] [c] := by
  have hcol : (h.allocColumn c).2.col (h.allocColumn c).1 =
      ⟨c.name, c.tp, (h.optArrs.alloc c.options).2⟩ := by
    simp [allocColumn, col]
  have ha := Arrays.alloc_elems h.optArrs c.options
  refine ⟨fun p hp => ?_, ?_⟩
  · rw [List.mem_singleton.mp hp, hcol]
    exact ⟨by simp [allocColumn], ha.2⟩
  · simp only [List.map_singleton, readColumn, hcol, List.singleton_inj]
    exact (by simp only [allocColumn]; rw [ha.1])

theorem allocColumns_cons (h : Heap) (c : Column) (cs : List Column) :
    h.allocColumns (c :: cs) = ((h.allocColumn c).1 :: ((h.allocColumn c).2.allocColumns cs).1,
      ((h.allocColumn c).2.allocColumns cs).2) := rfl

theorem allocColumns_frame (h : Heap) (cs : List Column) :
    (h.allocColumns cs).2 = { h with colDefs := (h.allocColumns cs).2.colDefs,
                                     optArrs := (h.allocColumns cs).2.optArrs } := by
  induction cs generalizing h with
  | nil => rfl
  | cons c cs ih => exact ih _

theorem allocColumns_spec (h : Heap) (cs : List Column) :
    Grows h (h.allocColumns cs).2 ∧
      (h.allocColumns cs).2.ColsReadAs (h.allocColumns cs).1 cs := by
  induction cs generalizing h with
  | nil => exact ⟨Grows.refl h, fun _ hp => absurd hp (List.not_mem_nil _), rfl⟩
  | cons c cs ih =>
    obtain ⟨hg, hr⟩ := ih (h.allocColumn c).2
    rw [allocColumns_cons]
    exact ⟨(allocColumn_grows h c).trans hg, ((allocColumn_readAs h c).grow hg).append hr⟩

theorem allocConstraint_grows (h : Heap) (c : Constraint) : Grows h (h.allocConstraint c).2 :=
  ⟨List.prefix_refl _, List.prefix_refl _, List.prefix_append _ _, List.prefix_refl _,
    List.prefix_refl _, List.prefix_refl _⟩

theorem allocConstraint_readAs (h : Heap) (c : Constraint) :
    (h.allocConstraint c).2.ConsReadAs [(h.allocConstraint c).1] [c] :=
  ⟨fun p hp => by rw [List.mem_singleton.mp hp]; simp [allocConstraint], by
    simp [allocConstraint, con]⟩

theorem allocConstraints_frame (h : Heap) (cs : List Constraint) :
    (h.allocConstraints cs).2 =
      { h with constraints := (h.allocConstraints cs).2.constraints } := by
  induction cs generalizing h with
  | nil => rfl
  | cons c cs ih => exact ih _

theorem allocConstraints_spec (h : Heap) (cs : List Constraint) :
    Grows h (h.allocConstraints cs).2 ∧
      (h.allocConstraints cs).2.ConsReadAs (h.allocConstraints cs).1 cs := by
  induction cs generalizing h with
  | nil => exact ⟨Grows.refl h, fun _ hp => absurd hp (List.not_mem_nil _), rfl⟩
  | cons c cs ih =>
    obtain ⟨hg, hr⟩ := ih (h.allocConstraint c).2
    exact ⟨(allocConstraint_grows h c).trans hg,
      ((allocConstraint_readAs h c).grow hg).append hr⟩

/-! ## Statements -/

/-- The header `t` reads as the CREATE `c` in `h`: its name, and its slices through their arrays
and pointers. -/
structure TableReadAs (h : Heap) (t : CreateTableStmt) (c : CreateTable) : Prop where
  table : t.table = c.table
  colsFit : h.colArrs.Fits t.cols
  cols : h.ColsReadAs (h.colArrs.elems t.cols) c.cols
  consFit : h.conArrs.Fits t.constraints
  cons : h.ConsReadAs (h.conArrs.elems t.constraints) c.constraints

theorem TableReadAs.readTable {h : Heap} {t : CreateTableStmt} {c : CreateTable}
    (hr : h.TableReadAs t c) : h.readTable t = c := by
  obtain ⟨_, _, _⟩ := c
  simp only [Heap.readTable, hr.table, hr.cols.2, hr.cons.2]

theorem TableReadAs.grow {h h' : Heap} {t : CreateTableStmt} {c : CreateTable} (hg : Grows h h')
    (hr : h.TableReadAs t c) : h'.TableReadAs t c := by
  obtain ⟨hc, hcf⟩ := Arrays.elems_of_prefix hg.colArrs hr.colsFit
  obtain ⟨hk, hkf⟩ := Arrays.elems_of_prefix hg.conArrs hr.consFit
  exact ⟨hr.table, hcf, hc ▸ hr.cols.grow hg, hkf, hk ▸ hr.cons.grow hg⟩

theorem allocCreateTable_spec (h : Heap) (c : CreateTable) :
    Grows h (h.allocCreateTable c).2 ∧ (h.allocCreateTable c).1 = h.tables.length ∧
      (h.allocCreateTable c).1 < (h.allocCreateTable c).2.tables.length ∧
      (h.allocCreateTable c).2.TableReadAs
        ((h.allocCreateTable c).2.tables.getD h.tables.length default) c := by
  obtain ⟨hg1, hr1⟩ := allocColumns_spec h c.cols
  have hf1 := allocColumns_frame h c.cols
  unfold allocCreateTable
  generalize h.allocColumns c.cols = A at hg1 hr1 hf1
  obtain ⟨ps, h1⟩ := A
  dsimp only
  have hB := Arrays.alloc_elems h1.colArrs ps
  have hgB := Arrays.alloc_prefix h1.colArrs ps
  generalize h1.colArrs.alloc ps = B at hB hgB
  obtain ⟨colArrs, cols⟩ := B
  dsimp only
  obtain ⟨hg3, hr3⟩ := allocConstraints_spec { h1 with colArrs } c.constraints
  have hf3 := allocConstraints_frame { h1 with colArrs } c.constraints
  generalize ({ h1 with colArrs } : Heap).allocConstraints c.constraints = C at hg3 hr3 hf3
  obtain ⟨qs, h3⟩ := C
  dsimp only
  have hD := Arrays.alloc_elems h3.conArrs qs
  have hgD := Arrays.alloc_prefix h3.conArrs qs
  generalize h3.conArrs.alloc qs = D at hD hgD
  obtain ⟨conArrs, cons⟩ := D
  dsimp only at hg1 hr1 hf1 hB hg3 hr3 hf3 hD ⊢
  have ht : h3.tables = h.tables := by rw [hf3, hf1]
  have hg2 : Grows h1 { h1 with colArrs } := ⟨List.prefix_refl _, List.prefix_refl _,
    List.prefix_refl _, hgB, List.prefix_refl _, List.prefix_refl _⟩
  have hg4 : Grows h3 { h3 with conArrs, tables := h3.tables ++ [⟨c.table, cols, cons⟩] } :=
    ⟨List.prefix_append _ _, List.prefix_refl _, List.prefix_refl _, List.prefix_refl _, hgD,
      List.prefix_refl _⟩
  have hg := (hg2.trans hg3).trans hg4
  have hcA : h3.colArrs = colArrs := by rw [hf3]
  have hget : (h3.tables ++ [(⟨c.table, cols, cons⟩ : CreateTableStmt)]).getD h.tables.length
      default =
      ⟨c.table, cols, cons⟩ := by
    rw [← ht]; simp
  refine ⟨hg1.trans hg, by rw [ht], by simp, ?_⟩
  rw [hget]
  refine ⟨rfl, ?_, ?_, hD.2, ?_⟩
  · simp only [hcA]; exact hB.2
  · have := hr1.grow hg
    simp only [hcA, hB.1] at this ⊢; exact this
  · simp only [hD.1]; exact hr3.grow hg4

theorem readTable_allocCreateTable (h : Heap) (c : CreateTable) :
    (h.allocCreateTable c).2.readTable
      ((h.allocCreateTable c).2.tables.getD (h.allocCreateTable c).1 default) = c := by
  obtain ⟨-, hp, -, hr⟩ := allocCreateTable_spec h c
  rw [hp]; exact hr.readTable

/-- A spec laid out in `h` reads as the value spec `v`. -/
structure SpecReadAs (h : Heap) (s : AlterTableSpec) (v : AlterSpec) : Prop where
  tp : s.tp = v.tp
  newTable : s.newTable = v.newTable
  oldColumnName : s.oldColumnName = v.oldColumnName
  newColumns : h.ColsReadAs s.newColumns v.newColumns
  name : s.name = v.name
  fromKey : s.fromKey = v.fromKey
  toKey : s.toKey = v.toKey
  constraint : h.ConsReadAs s.constraint.toList v.constraint.toList

theorem SpecReadAs.grow {h h' : Heap} {s : AlterTableSpec} {v : AlterSpec} (hg : Grows h h')
    (hr : h.SpecReadAs s v) : h'.SpecReadAs s v :=
  { hr with newColumns := hr.newColumns.grow hg, constraint := hr.constraint.grow hg }

theorem allocAlterSpec_spec (h : Heap) (v : AlterSpec) :
    Grows h (h.allocAlterSpec v).2 ∧
      (h.allocAlterSpec v).2.SpecReadAs (h.allocAlterSpec v).1 v := by
  obtain ⟨hg1, hr1⟩ := allocColumns_spec h v.newColumns
  unfold allocAlterSpec
  generalize h.allocColumns v.newColumns = A at hg1 hr1
  obtain ⟨ps, h1⟩ := A
  obtain ⟨tp, newTable, oldColumnName, newColumns, name, fromKey, toKey, constraint⟩ := v
  cases constraint with
  | none =>
    exact ⟨hg1, rfl, rfl, rfl, hr1, rfl, rfl, rfl,
      fun _ hp => absurd hp (List.not_mem_nil _), rfl⟩
  | some c =>
    have hg2 := allocConstraint_grows h1 c
    exact ⟨hg1.trans hg2, rfl, rfl, rfl, hr1.grow hg2, rfl, rfl, rfl,
      allocConstraint_readAs h1 c⟩

theorem allocAlterSpecs_spec (h : Heap) (vs : List AlterSpec) :
    Grows h (h.allocAlterSpecs vs).2 ∧
      List.Forall₂ (h.allocAlterSpecs vs).2.SpecReadAs (h.allocAlterSpecs vs).1 vs := by
  induction vs generalizing h with
  | nil => exact ⟨Grows.refl h, .nil⟩
  | cons v vs ih =>
    obtain ⟨hg1, hr1⟩ := allocAlterSpec_spec h v
    obtain ⟨hg2, hr2⟩ := ih (h.allocAlterSpec v).2
    exact ⟨hg1.trans hg2, .cons (hr1.grow hg2) hr2⟩

theorem allocAlterSpecs_constraint_ge (h : Heap) (vs : List AlterSpec) :
    ∀ s ∈ (h.allocAlterSpecs vs).1, ∀ p ∈ s.constraint, h.constraints.length ≤ p := by
  induction vs generalizing h with
  | nil => intro s hs; cases hs
  | cons v vs ih =>
    intro s hs p hp
    have hle := (allocAlterSpec_spec h v).1.constraints.length_le
    rcases List.mem_cons.mp hs with rfl | hs
    · have hf := allocColumns_frame h v.newColumns
      cases hc : v.constraint with
      | none => simp [hc] at hp
      | some c =>
        simp only [hc, allocConstraint, Option.mem_def, Option.some.injEq] at hp
        rw [← hp, hf]
    · exact Nat.le_trans hle (ih _ s hs p hp)

theorem allocAlterTable_spec (h : Heap) (a : AlterTable) :
    Grows h (h.allocAlterTable a).2 ∧ (h.allocAlterTable a).1.table = a.table ∧
      List.Forall₂ (h.allocAlterTable a).2.SpecReadAs (h.allocAlterTable a).1.specs a.specs :=
  ⟨(allocAlterSpecs_spec h a.specs).1, rfl, (allocAlterSpecs_spec h a.specs).2⟩

end Ast.Heap

end Dtle
