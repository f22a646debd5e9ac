import Dtle.Sql.Ddl

/-!
# Dtle.Sql.Frame

What `mergeAlterToTable` leaves alone. `Keeps F m` says that the computation `m` leaves the
observation `F` of the heap as it was on every run that does not panic. It composes through
`bind`, so it follows, phase by phase, from what each kind of write leaves alone: a write to the
column, constraint or option arrays, `col.Options = ...`, `constraint.Name = ...`, and the new
table.

The merge writes a constraint object only through `RENAME INDEX`, which sets its name, so the key
parts of every constraint object are those the parser laid out (`keeps_conKeys`). Read back as a
value: every key part of the merged table, or of the `oldTable` handed back, is a key part of a
constraint of the input or of one an ALTER spec carries (`merge_key_parts_from_input`). No phase
edits an index, so `DROP COLUMN` and `CHANGE COLUMN` leave the key parts naming the old column,
and `ADD CONSTRAINT` does not check the columns it names
(`merge_key_parts_name_input_columns`).
-/

namespace Dtle
namespace Ast

open Go

/-- `m` leaves the observation `F` of the heap as it was, on every run that does not panic. -/
def Keeps {β α : Type} (F : Heap → β) (m : GoM α) : Prop :=
  ∀ h a h', m h = .ok (a, h') → F h' = F h

namespace Keeps

variable {β α γ : Type} {F : Heap → β}

theorem pure (a : α) : Keeps F (Pure.pure a : GoM α) := by
  intro h b h' hm
  cases hm; rfl

theorem bind {m : GoM α} {f : α → GoM γ} (hm : Keeps F m) (hf : ∀ a, Keeps F (f a)) :
    Keeps F (m >>= f) := by
  intro h b h'' hrun
  cases hmh : m h with
  | error e => simp [Bind.bind, StateT.bind, hmh, Except.bind] at hrun
  | ok p =>
    obtain ⟨a, h1⟩ := p
    simp only [Bind.bind, StateT.bind, hmh, Except.bind] at hrun
    exact (hf a h1 b h'' hrun).trans (hm h a h1 hmh)

theorem getThe : Keeps F (getThe Heap) := by
  intro h b h' hm
  cases hm; rfl

theorem modifyThe {g : Heap → Heap} (hg : ∀ h, F (g h) = F h) : Keeps F (modifyThe Heap g) := by
  intro h b h' hm
  cases hm; exact hg h

theorem lift (x : Except Panic α) : Keeps F (StateT.lift x : GoM α) := by
  intro h b h' hm
  cases x with
  | error e => cases hm
  | ok a => cases hm; rfl

end Keeps

section

variable {β α : Type} {F : Heap → β}

namespace Store

theorem keeps_index [Inhabited α] (S : Store α) (s : Slice) (i : Nat) : Keeps F (S.index s i) := by
  intro h b h' hm
  simp only [index] at hm
  cases hx : (S.get h).index s i <;> simp [hx, Except.map] at hm
  exact hm.2 ▸ rfl

theorem keeps_setIndex (S : Store α) (hS : ∀ h st, F (S.set h st) = F h) (s : Slice) (i : Nat)
    (x : α) : Keeps F (S.setIndex s i x) := by
  intro h b h' hm
  simp only [setIndex] at hm
  cases hx : (S.get h).setIndex s i x <;> simp [hx, Except.map] at hm
  exact hm ▸ hS h _

theorem keeps_append [Inhabited α] (S : Store α) (hS : ∀ h st, F (S.set h st) = F h) (s : Slice)
    (xs : List α) : Keeps F (S.append s xs) := by
  intro h b h' hm
  cases hm
  exact hS h _

theorem keeps_deleteAt [Inhabited α] (S : Store α) (hS : ∀ h st, F (S.set h st) = F h)
    (s : Slice) (i : Nat) : Keeps F (S.deleteAt s i) := by
  intro h b h' hm
  simp only [deleteAt] at hm
  cases hx : (S.get h).deleteAt s i <;> simp [hx, Except.map] at hm
  exact hm.2 ▸ hS h _

theorem keeps_deleteWhere [Inhabited α] (S : Store α) (hS : ∀ h st, F (S.set h st) = F h)
    (p : Heap → α → Bool) (s0 : Slice) :
    ∀ i k s found, Keeps F (S.deleteWhere p s0 i k s found)
  | _, 0, _, _ => Keeps.pure _
  | i, k + 1, s, found => by
    simp only [deleteWhere]
    refine (S.keeps_index s0 i).bind fun x => Keeps.getThe.bind fun h => ?_
    split
    · exact (S.keeps_deleteAt hS s i).bind fun s => keeps_deleteWhere S hS p s0 _ k _ _
    · exact keeps_deleteWhere S hS p s0 _ k _ _

end Store

/-! ## The phases -/

section

variable (hcols : ∀ h st, F (colsStore.set h st) = F h)
include hcols

theorem keeps_dropColumns : ∀ specs t, Keeps F (dropColumns specs t)
  | [], _ => Keeps.pure _
  | spec :: specs, t => by
    simp only [dropColumns]
    refine (colsStore.keeps_deleteWhere hcols _ _ _ _ _ _).bind fun ⟨cols, b⟩ => ?_
    split
    · exact keeps_dropColumns specs _
    · exact Keeps.pure _

theorem keeps_changeColumnLoop (spec : AlterTableSpec) (s0 : Slice) :
    ∀ i k b, Keeps F (changeColumnLoop spec s0 i k b)
  | _, 0, _ => Keeps.pure _
  | i, k + 1, b => by
    simp only [changeColumnLoop]
    refine (colsStore.keeps_index _ _).bind fun _ => Keeps.getThe.bind fun _ => ?_
    split
    · exact (Keeps.lift _).bind fun _ => (colsStore.keeps_setIndex hcols _ _ _).bind fun _ =>
        keeps_changeColumnLoop spec s0 _ k _
    · exact keeps_changeColumnLoop spec s0 _ k _

theorem keeps_changeColumns : ∀ specs t, Keeps F (changeColumns specs t)
  | [], _ => Keeps.pure _
  | spec :: specs, t => by
    simp only [changeColumns]
    refine (keeps_changeColumnLoop hcols spec _ _ _ _).bind fun _ => ?_
    split
    · exact keeps_changeColumns specs t
    · exact Keeps.pure _

theorem keeps_modifyColumnLoop (spec : AlterTableSpec) (s0 : Slice) :
    ∀ i k b, Keeps F (modifyColumnLoop spec s0 i k b)
  | _, 0, _ => Keeps.pure _
  | i, k + 1, b => by
    simp only [modifyColumnLoop]
    refine (colsStore.keeps_index _ _).bind fun _ => (Keeps.lift _).bind fun _ =>
      Keeps.getThe.bind fun _ => ?_
    split
    · exact (colsStore.keeps_setIndex hcols _ _ _).bind fun _ =>
        keeps_modifyColumnLoop spec s0 _ k _
    · exact keeps_modifyColumnLoop spec s0 _ k _

theorem keeps_modifyColumns : ∀ specs t, Keeps F (modifyColumns specs t)
  | [], _ => Keeps.pure _
  | spec :: specs, t => by
    simp only [modifyColumns]
    refine (keeps_modifyColumnLoop hcols spec _ _ _ _).bind fun _ => ?_
    split
    · exact keeps_modifyColumns specs t
    · exact Keeps.pure _

theorem keeps_addNewColumns : ∀ newCols t, Keeps F (addNewColumns newCols t)
  | [], _ => Keeps.pure _
  | newCol :: rest, t => by
    simp only [addNewColumns]
    refine Keeps.getThe.bind fun _ => ?_
    split
    · exact Keeps.pure _
    · exact (colsStore.keeps_append hcols _ _).bind fun _ => keeps_addNewColumns rest _

theorem keeps_addColumns : ∀ specs t, Keeps F (addColumns specs t)
  | [], _ => Keeps.pure _
  | spec :: specs, t => by
    simp only [addColumns]
    refine (keeps_addNewColumns hcols _ _).bind fun r => ?_
    split
    · exact Keeps.pure _
    · exact keeps_addColumns specs _

end

section

variable (hopts : ∀ h st, F (optsStore.set h st) = F h)
  (hcol : ∀ h p s, F (h.setColOptions p s) = F h)
include hopts hcol

omit hcol in
theorem keeps_setDefaultLoop (col newCol : Nat) (s0 : Slice) :
    ∀ i k, Keeps F (setDefaultLoop col newCol s0 i k)
  | _, 0 => Keeps.pure _
  | i, k + 1 => by
    simp only [setDefaultLoop]
    refine (optsStore.keeps_index _ _).bind fun _ => ?_
    split
    · exact Keeps.getThe.bind fun _ => (optsStore.keeps_index _ _).bind fun _ =>
        (optsStore.keeps_setIndex hopts _ _ _).bind fun _ => keeps_setDefaultLoop col newCol s0 _ k
    · exact keeps_setDefaultLoop col newCol s0 _ k

theorem keeps_alterColumnOptions (col newCol : Nat) : Keeps F (alterColumnOptions col newCol) := by
  simp only [alterColumnOptions]
  refine Keeps.getThe.bind fun _ => ?_
  split
  · exact (optsStore.keeps_deleteWhere hopts _ _ _ _ _ _).bind fun _ => Keeps.modifyThe (hcol · _ _)
  · split
    · exact keeps_setDefaultLoop hopts _ _ _ _ _
    · exact (optsStore.keeps_append hopts _ _).bind fun _ => Keeps.modifyThe (hcol · _ _)

theorem keeps_alterColumnLoop (newCol : Nat) (s0 : Slice) :
    ∀ i k b, Keeps F (alterColumnLoop newCol s0 i k b)
  | _, 0, _ => Keeps.pure _
  | i, k + 1, b => by
    simp only [alterColumnLoop]
    refine (colsStore.keeps_index _ _).bind fun _ => Keeps.getThe.bind fun _ => ?_
    split
    · exact (keeps_alterColumnOptions hopts hcol _ _).bind fun _ =>
        keeps_alterColumnLoop newCol s0 _ k _
    · exact keeps_alterColumnLoop newCol s0 _ k _

theorem keeps_alterColumns : ∀ specs t, Keeps F (alterColumns specs t)
  | [], _ => Keeps.pure _
  | spec :: specs, t => by
    simp only [alterColumns]
    refine (Keeps.lift _).bind fun _ =>
      (keeps_alterColumnLoop hopts hcol _ _ _ _ _).bind fun _ => ?_
    split
    · exact keeps_alterColumns specs t
    · exact Keeps.pure _

theorem keeps_dropPkOptionsLoop (s0 : Slice) : ∀ i k, Keeps F (dropPkOptionsLoop s0 i k)
  | _, 0 => Keeps.pure _
  | i, k + 1 => by
    simp only [dropPkOptionsLoop]
    exact (colsStore.keeps_index _ _).bind fun _ => Keeps.getThe.bind fun _ =>
      (optsStore.keeps_deleteWhere hopts _ _ _ _ _ _).bind fun _ =>
      (Keeps.modifyThe (hcol · _ _)).bind fun _ => keeps_dropPkOptionsLoop s0 _ k

end

section

variable (hcons : ∀ h st, F (consStore.set h st) = F h)
include hcons

theorem keeps_dropPrimaryKeys (hopts : ∀ h st, F (optsStore.set h st) = F h)
    (hcol : ∀ h p s, F (h.setColOptions p s) = F h) :
    ∀ specs t, Keeps F (dropPrimaryKeys specs t)
  | [], _ => Keeps.pure _
  | _ :: specs, t => by
    simp only [dropPrimaryKeys]
    refine Keeps.getThe.bind fun _ => (Keeps.lift _).bind fun _ => ?_
    split
    · exact Keeps.pure _
    · exact (Keeps.pure _).bind fun _ =>
        (consStore.keeps_deleteWhere hcons _ _ _ _ _ _).bind fun _ =>
        (keeps_dropPkOptionsLoop hopts hcol _ _ _).bind fun _ =>
        keeps_dropPrimaryKeys hopts hcol specs _

theorem keeps_dropIndexes : ∀ specs t, Keeps F (dropIndexes specs t)
  | [], _ => Keeps.pure _
  | spec :: specs, t => by
    simp only [dropIndexes]
    refine (consStore.keeps_deleteWhere hcons _ _ _ _ _ _).bind fun ⟨cons, b⟩ => ?_
    split
    · exact keeps_dropIndexes specs _
    · exact Keeps.pure _

theorem keeps_addConstraints : ∀ specs t, Keeps F (addConstraints specs t)
  | [], _ => Keeps.pure _
  | spec :: specs, t => by
    simp only [addConstraints]
    refine (Keeps.lift _).bind fun _ => Keeps.getThe.bind fun _ => ?_
    split <;> refine Keeps.bind ?_ fun _ => ?_
    all_goals first
      | exact Keeps.lift _
      | exact Keeps.pure _
      | split
        · exact Keeps.pure _
        · exact (consStore.keeps_append hcons _ _).bind fun _ => keeps_addConstraints specs _

end

section

variable (hcon : ∀ h p n, F (h.setConName p n) = F h)
include hcon

theorem keeps_renameIndexLoop (spec : AlterTableSpec) (s0 : Slice) :
    ∀ i k b, Keeps F (renameIndexLoop spec s0 i k b)
  | _, 0, _ => Keeps.pure _
  | i, k + 1, b => by
    simp only [renameIndexLoop]
    refine (consStore.keeps_index _ _).bind fun _ => Keeps.getThe.bind fun _ => ?_
    split
    · exact (Keeps.modifyThe (hcon · _ _)).bind fun _ => keeps_renameIndexLoop spec s0 _ k _
    · exact keeps_renameIndexLoop spec s0 _ k _

theorem keeps_renameIndexes : ∀ specs t, Keeps F (renameIndexes specs t)
  | [], _ => Keeps.pure _
  | spec :: specs, t => by
    simp only [renameIndexes]
    refine (keeps_renameIndexLoop hcon spec _ _ _ _).bind fun _ => ?_
    split
    · exact keeps_renameIndexes specs t
    · exact Keeps.pure _

end

theorem keeps_runPhases {fs : List (CreateTableStmt → GoM (Option CreateTableStmt))}
    (hfs : ∀ f ∈ fs, ∀ t, Keeps F (f t)) (t : CreateTableStmt) : Keeps F (runPhases fs t) := by
  induction fs generalizing t with
  | nil => exact Keeps.pure _
  | cons f fs ih =>
    simp only [runPhases]
    refine (hfs f (List.mem_cons_self _ _) t).bind fun r => ?_
    split
    · exact Keeps.pure _
    · exact ih (fun g hg => hfs g (List.mem_cons_of_mem _ hg)) _

section

variable (hcols : ∀ h st, F (colsStore.set h st) = F h)
  (hcons : ∀ h st, F (consStore.set h st) = F h) (hopts : ∀ h st, F (optsStore.set h st) = F h)
  (hcol : ∀ h p s, F (h.setColOptions p s) = F h) (hcon : ∀ h p n, F (h.setConName p n) = F h)
include hcols hcons hopts hcol hcon

theorem keeps_phases (specs : List AlterTableSpec) : ∀ f ∈ phases specs, ∀ t, Keeps F (f t) := by
  simp only [phases, List.mem_cons, List.mem_singleton, List.not_mem_nil, or_false]
  rintro f (rfl | rfl | rfl | rfl | rfl | rfl | rfl | rfl | rfl) t
  · exact keeps_dropColumns hcols _ _
  · exact keeps_changeColumns hcols _ _
  · exact keeps_modifyColumns hcols _ _
  · exact keeps_alterColumns hopts hcol _ _
  · exact keeps_addColumns hcols _ _
  · exact keeps_dropPrimaryKeys hcons hopts hcol _ _
  · exact keeps_dropIndexes hcons _ _
  · exact keeps_renameIndexes hcon _ _
  · exact keeps_addConstraints hcons _ _

theorem keeps_mergeAlterToTable (htab : ∀ (h : Heap) t, F { h with tables := h.tables ++ [t] } = F h)
    (p : Nat) (a : AlterTableStmt) : Keeps F (mergeAlterToTable p a) := by
  simp only [mergeAlterToTable]
  refine Keeps.getThe.bind fun _ =>
    (keeps_runPhases (keeps_phases hcols hcons hopts hcol hcon _) _).bind fun r => ?_
  split
  · exact Keeps.pure _
  · intro h b h' hm
    cases hm
    exact htab h _

end

end

end Ast

namespace Ast.Heap

open Ddl

theorem keys_setConName (h : Heap) (p q : Nat) (n : String) :
    ((h.setConName p n).con q).keys = (h.con q).keys := by
  by_cases hp : p < h.constraints.length
  · rw [con_setConName h p q n hp]
    split <;> simp_all
  · simp [setConName, con, List.set_eq_of_length_le (not_lt.mp hp)]

/-- The key parts of every constraint object, by pointer. -/
def conKeys (h : Heap) (p : Nat) : List IndexPartSpecification := (h.con p).keys

theorem keeps_conKeys (p : Nat) (a : AlterTableStmt) : Keeps conKeys (mergeAlterToTable p a) :=
  @keeps_mergeAlterToTable _ conKeys (fun _ _ => rfl) (fun _ _ => rfl) (fun _ _ => rfl)
    (fun _ _ _ => rfl) (fun h p n => funext (keys_setConName h p · n)) (fun _ _ => rfl) p a

theorem allocColumns_constraints (h : Heap) (cs : List Column) :
    (h.allocColumns cs).2.constraints = h.constraints := by
  induction cs generalizing h with
  | nil => rfl
  | cons c cs ih => exact ih _

theorem allocConstraints_constraints (h : Heap) (cs : List Constraint) :
    (h.allocConstraints cs).2.constraints = h.constraints ++ cs := by
  induction cs generalizing h with
  | nil => simp [allocConstraints]
  | cons c cs ih => simp [allocConstraints, allocConstraint, ih]

theorem allocCreateTable_constraints (h : Heap) (c : CreateTable) :
    (h.allocCreateTable c).2.constraints = h.constraints ++ c.constraints := by
  simp [allocCreateTable, allocConstraints_constraints, allocColumns_constraints]

theorem allocAlterTable_constraints (h : Heap) (a : AlterTable) :
    (h.allocAlterTable a).2.constraints = h.constraints ++ a.specs.filterMap (·.constraint) := by
  suffices ∀ (specs : List AlterSpec) (h : Heap), (h.allocAlterSpecs specs).2.constraints =
      h.constraints ++ specs.filterMap (·.constraint) from this a.specs h
  intro specs
  induction specs with
  | nil => simp [allocAlterSpecs]
  | cons s ss ih =>
    intro h
    cases hc : s.constraint <;>
      simp [allocAlterSpecs, allocAlterSpec, hc, ih, allocColumns_constraints, allocConstraint]

end Ast.Heap

namespace Ddl

open Go Ast

/-- The table read back, whichever pointer it came through. -/
def Returned.table : Returned → CreateTable
  | .newTable t | .oldTable t => t

theorem getD_mem_or_eq {α : Type} (l : List α) (n : Nat) (d : α) :
    l.getD n d ∈ l ∨ l.getD n d = d := by
  rw [List.getD_eq_getElem?_getD]
  cases h : l[n]? with
  | none => exact .inr rfl
  | some x => exact .inl (List.getElem?_mem h)

theorem merge_key_parts_from_input {c : CreateTable} {a : AlterTable} {r : Returned}
    (h : merge c a = .ok r) : ∀ con ∈ r.table.constraints, ∀ part ∈ con.keys,
      (∃ con' ∈ c.constraints, part ∈ con'.keys) ∨
        ∃ spec ∈ a.specs, ∃ con' ∈ spec.constraint, part ∈ con'.keys := by
  simp only [merge] at h
  split at h
  · cases h
  · rename_i res h' hm
    have hk := congrFun (Heap.keeps_conKeys _ _ _ _ _ hm)
    injection h with h
    subst h
    intro con hcon part hpart
    have hcon : con ∈ (h'.conArrs.elems (h'.tables.getD res default).constraints).map h'.con := by
      split at hcon <;> exact hcon
    obtain ⟨q, -, rfl⟩ := List.mem_map.1 hcon
    have hq : (h'.con q).keys = _ := hk q
    rw [hq] at hpart
    simp only [Heap.conKeys, Heap.con, Heap.allocAlterTable_constraints,
      Heap.allocCreateTable_constraints] at hpart
    have hm := getD_mem_or_eq (Heap.empty.constraints ++ c.constraints ++
      a.specs.filterMap (·.constraint)) q default
    generalize (Heap.empty.constraints ++ c.constraints ++
      a.specs.filterMap (·.constraint)).getD q default = con' at hpart hm
    rcases hm with hm | rfl
    · simp only [Heap.empty, List.nil_append, List.mem_append, List.mem_filterMap] at hm
      rcases hm with hm | ⟨spec, hspec, hs⟩
      · exact .inl ⟨_, hm, hpart⟩
      · exact .inr ⟨spec, hspec, _, hs, hpart⟩
    · simp [default] at hpart

/-- For a table whose key parts name only its own columns, every column named in a key part of
the table handed back is a column of the input, dropped or not, or is named in a key part of a
constraint an ALTER spec carries. -/
theorem merge_key_parts_name_input_columns {c : CreateTable} {a : AlterTable} {r : Returned}
    (hc : c.keysNameColumns) (h : merge c a = .ok r) :
    ∀ con ∈ r.table.constraints, ∀ part ∈ con.keys, ∀ n, part.column = some n →
      c.cols.any (·.name.l == n.l) ∨
        ∃ spec ∈ a.specs, ∃ con' ∈ spec.constraint, part ∈ con'.keys := by
  intro con hcon part hpart n hn
  rcases merge_key_parts_from_input h con hcon part hpart with ⟨con', hc', hp'⟩ | hs
  · simp only [CreateTable.keysNameColumns, List.all_eq_true] at hc
    have := hc con' hc' part hp'
    rw [hn] at this
    exact .inl this
  · exact .inr hs

theorem merge_key_parts_name_input_columns_rename_index :
    let c : CreateTable :=
      ⟨⟨⟨"", ""⟩, ⟨"t", "t"⟩⟩, [⟨⟨"a", "a"⟩, "int", []⟩], [⟨.index, "idx", [⟨some ⟨"a", "a"⟩⟩]⟩]⟩
    let a : AlterTable :=
      ⟨c.table, [{ tp := .renameIndex, fromKey := ⟨"idx", "idx"⟩, toKey := ⟨"k", "k"⟩ }]⟩
    let r : Returned := .newTable ⟨c.table, c.cols, [⟨.index, "k", [⟨some ⟨"a", "a"⟩⟩]⟩]⟩
    c.keysNameColumns ∧ merge c a = .ok r ∧
      ∀ con ∈ r.table.constraints, ∀ part ∈ con.keys, ∀ n, part.column = some n →
        c.cols.any (·.name.l == n.l) ∨
          ∃ spec ∈ a.specs, ∃ con' ∈ spec.constraint, part ∈ con'.keys := by
  intro c a r
  have hc : c.keysNameColumns := by decide
  have hm : merge c a = .ok r := by rfl
  exact ⟨hc, hm, merge_key_parts_name_input_columns hc hm⟩

end Ddl
end Dtle
