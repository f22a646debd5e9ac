import Dtle.Sql.Refine.Columns
import Mathlib.Data.List.Pairwise

/-!
# Dtle.Sql.Refine.Pointers

Where the column pointers of the table the column phases hand on come from. The option phases
write through these pointers, so the full refinement needs to know which column objects they
can be.

* `Store.deleteWhere_sublist` — a delete-while-ranging loop hands on a header that shows a
  sublist of what it started with, whatever it matched;
* `dropColumns_ptrs` — DROP COLUMN keeps some of the table's pointers;
* `changeColumns_ptrs`, `modifyColumns_ptrs` — CHANGE COLUMN and MODIFY COLUMN put a spec's
  new column in place of some;
* `addColumns_ptrs` — ADD COLUMN appends new columns of its specs.

Each is stated for a set `T` of pointers that holds the table's pointers and the specs' new
columns: the table the phase hands on has its pointers in `T` too. On the parser's layout no
pointer repeats (`fresh_of_nodup`), so a spec's new column found in the table came with its own
spec (`InTable.kind`).
-/

namespace Dtle
namespace Ast

open Go

/-- The header `s` fits the column arrays of `h`, and every pointer it shows is in `T`. -/
def PtrsIn (T : Nat → Prop) (h : Heap) (s : Slice) : Prop :=
  h.colArrs.Fits s ∧ ∀ p ∈ h.colArrs.elems s, T p

theorem PtrsIn.mono {T T' : Nat → Prop} {h : Heap} {s : Slice} (hT : ∀ p, T p → T' p)
    (hp : PtrsIn T h s) : PtrsIn T' h s :=
  ⟨hp.1, fun p hm => hT p (hp.2 p hm)⟩

namespace Store

variable {α : Type} [Inhabited α] (S : Store α) (p : Heap → α → Bool) (s0 : Slice)

theorem deleteWhere_sublist : ∀ i k (s : Slice) found (h : Heap) r h', i + k ≤ s0.len →
    (S.get h).Fits s → S.deleteWhere p s0 i k s found h = .ok (r, h') →
    List.Sublist ((S.get h').elems r.1) ((S.get h).elems s) ∧ (S.get h').Fits r.1
  | _, 0, s, found, h, r, h', _, hfit, hrun => by
    cases hrun; exact ⟨List.Sublist.refl _, hfit⟩
  | i, k + 1, s, found, h, r, h', hik, hfit, hrun => by
    rw [deleteWhere_succ S p s0 h k s found (by omega)] at hrun
    split at hrun
    · split at hrun
      · next r' hd =>
        obtain ⟨-, he, hfit', -⟩ := Arrays.deleteAt_ok hfit hd
        obtain ⟨hsub, hfit''⟩ := deleteWhere_sublist (i + 1) k r'.2 true _ r h' (by omega)
          (by rw [S.get_set]; exact hfit') hrun
        rw [S.get_set, he] at hsub
        exact ⟨hsub.trans (List.eraseIdx_sublist _ _), hfit''⟩
      · cases hrun
    · exact deleteWhere_sublist (i + 1) k s found h r h' (by omega) hfit hrun

end Store

theorem dropColumns_ptrs {T : Nat → Prop} : ∀ (specs : List AlterTableSpec) (t t' : CreateTableStmt)
    (h h' : Heap), PtrsIn T h t.cols → dropColumns specs t h = .ok (some t', h') →
    PtrsIn T h' t'.cols
  | [], t, t', h, h', hp, hrun => by cases hrun; exact hp
  | spec :: specs, t, t', h, h', hp, hrun => by
    simp only [dropColumns, bind, StateT.bind, Except.bind] at hrun
    split at hrun
    · cases hrun
    · next v hdel =>
      obtain ⟨hsub, hfit⟩ := Store.deleteWhere_sublist colsStore _ t.cols 0 _ t.cols false h _ _
        (by omega) hp.1 hdel
      split at hrun
      · exact dropColumns_ptrs specs { t with cols := v.1.1 } t' v.2 h'
          ⟨hfit, fun q hq => hp.2 q (hsub.subset hq)⟩ hrun
      · cases hrun

theorem ReplaceLoop.ptrs {L : Nat → Nat → Bool → GoM Bool} {P : Nat → Bool} {x : Nat}
    {s : Slice} {h : Heap} {T : Nat → Prop} (hL : ReplaceLoop L P x s h) (hp : PtrsIn T h s)
    (hx : T x) : ∃ b st, L 0 s.len false h = .ok (b, colsStore.set h st) ∧
      PtrsIn T (colsStore.set h st) s := by
  obtain ⟨st, hrun, he, hfit⟩ := hL.run (h.colArrs.elems s) (Arrays.elems_length hp.1) s.len 0
    false h.colArrs (by omega) hp.1 (by simp)
  refine ⟨_, st, hrun, hfit, fun q hq => ?_⟩
  have hq : q ∈ st.elems s := hq
  rw [he] at hq
  obtain ⟨q', hq', rfl⟩ := List.mem_map.mp hq
  split
  · exact hx
  · exact hp.2 q' hq'

theorem changeColumns_ptrs {T : Nat → Prop} : ∀ (specs : List AlterTableSpec)
    (t t' : CreateTableStmt) (h h' : Heap), (∀ s ∈ specs, s.newColumns ≠ []) →
    (∀ s ∈ specs, ∀ p ∈ s.newColumns, T p) → PtrsIn T h t.cols →
    changeColumns specs t h = .ok (some t', h') → PtrsIn T h' t'.cols
  | [], t, t', h, h', _, _, hp, hrun => by cases hrun; exact hp
  | spec :: specs, t, t', h, h', hne, hT, hp, hrun => by
    obtain ⟨x, rest, hx⟩ : ∃ x rest, spec.newColumns = x :: rest := by
      cases hc : spec.newColumns with
      | nil => exact absurd hc (hne spec (List.mem_cons_self _ _))
      | cons x rest => exact ⟨x, rest, rfl⟩
    obtain ⟨b, st, hloop, hp'⟩ := (changeColumnLoop_replaceLoop spec t.cols h hx).ptrs hp
      (hT spec (List.mem_cons_self _ _) x (by rw [hx]; exact List.mem_cons_self _ _))
    have hloop' : changeColumnLoop spec t.cols 0 t.cols.len false h = _ := hloop
    simp only [changeColumns, bind, StateT.bind, hloop', Except.bind] at hrun
    split at hrun
    · exact changeColumns_ptrs specs t t' _ h' (fun s hs => hne s (List.mem_cons_of_mem _ hs))
        (fun s hs => hT s (List.mem_cons_of_mem _ hs)) hp' hrun
    · cases hrun

theorem modifyColumns_ptrs {T : Nat → Prop} : ∀ (specs : List AlterTableSpec)
    (t t' : CreateTableStmt) (h h' : Heap), (∀ s ∈ specs, s.newColumns ≠ []) →
    (∀ s ∈ specs, ∀ p ∈ s.newColumns, T p) → PtrsIn T h t.cols →
    modifyColumns specs t h = .ok (some t', h') → PtrsIn T h' t'.cols
  | [], t, t', h, h', _, _, hp, hrun => by cases hrun; exact hp
  | spec :: specs, t, t', h, h', hne, hT, hp, hrun => by
    obtain ⟨x, rest, hx⟩ : ∃ x rest, spec.newColumns = x :: rest := by
      cases hc : spec.newColumns with
      | nil => exact absurd hc (hne spec (List.mem_cons_self _ _))
      | cons x rest => exact ⟨x, rest, rfl⟩
    obtain ⟨b, st, hloop, hp'⟩ := (modifyColumnLoop_replaceLoop spec t.cols h hx).ptrs hp
      (hT spec (List.mem_cons_self _ _) x (by rw [hx]; exact List.mem_cons_self _ _))
    have hloop' : modifyColumnLoop spec t.cols 0 t.cols.len false h = _ := hloop
    simp only [modifyColumns, bind, StateT.bind, hloop', Except.bind] at hrun
    split at hrun
    · exact modifyColumns_ptrs specs t t' _ h' (fun s hs => hne s (List.mem_cons_of_mem _ hs))
        (fun s hs => hT s (List.mem_cons_of_mem _ hs)) hp' hrun
    · cases hrun

theorem addNewColumns_ptrs {T : Nat → Prop} : ∀ (ps : List Nat) (t t' : CreateTableStmt)
    (h h' : Heap), (∀ p ∈ ps, T p) → PtrsIn T h t.cols →
    addNewColumns ps t h = .ok (some t', h') → PtrsIn T h' t'.cols
  | [], t, t', h, h', _, hp, hrun => by cases hrun; exact hp
  | x :: rest, t, t', h, h', hT, hp, hrun => by
    have hg : (getThe Heap : GoM Heap) h = .ok (h, h) := rfl
    simp only [addNewColumns, bind, StateT.bind, hg, Except.bind] at hrun
    split at hrun
    · cases hrun
    · obtain ⟨he, hfit⟩ := Arrays.elems_append [x] hp.1
      refine addNewColumns_ptrs rest _ t' _ h' (fun p hp => hT p (List.mem_cons_of_mem _ hp))
        ⟨hfit, fun q hq => ?_⟩ hrun
      rcases List.mem_append.mp (show q ∈ h.colArrs.elems t.cols ++ [x] from he ▸ hq) with hq | hq
      · exact hp.2 q hq
      · exact List.mem_singleton.mp hq ▸ hT x (List.mem_cons_self _ _)

theorem addColumns_ptrs {T : Nat → Prop} : ∀ (specs : List AlterTableSpec)
    (t t' : CreateTableStmt) (h h' : Heap), (∀ s ∈ specs, ∀ p ∈ s.newColumns, T p) →
    PtrsIn T h t.cols → addColumns specs t h = .ok (some t', h') → PtrsIn T h' t'.cols
  | [], t, t', h, h', _, hp, hrun => by cases hrun; exact hp
  | spec :: specs, t, t', h, h', hT, hp, hrun => by
    cases hadd : addNewColumns spec.newColumns t h with
    | error e => simp [addColumns, bind, StateT.bind, Except.bind, hadd] at hrun
    | ok r =>
      obtain ⟨_ | t1, h1⟩ := r
      · simp [addColumns, bind, StateT.bind, Except.bind, hadd, pure, StateT.pure,
          Except.pure] at hrun
      · simp only [addColumns, bind, StateT.bind, Except.bind, hadd] at hrun
        exact addColumns_ptrs specs t1 t' h1 h' (fun s hs => hT s (List.mem_cons_of_mem _ hs))
          (addNewColumns_ptrs spec.newColumns t t1 h h1 (hT spec (List.mem_cons_self _ _)) hp
            hadd) hrun

/-! ## The layout's pointers -/

theorem fresh_of_nodup {old : List Nat} {specs : List AlterTableSpec}
    (hnd : (old ++ specs.flatMap (·.newColumns)).Nodup) {s : AlterTableSpec} (hs : s ∈ specs)
    {x : Nat} (hx : x ∈ s.newColumns) : x ∉ old ∧ ∀ s' ∈ specs, x ∈ s'.newColumns → s' = s := by
  have hxs : x ∈ specs.flatMap (·.newColumns) := List.mem_flatMap.mpr ⟨s, hs, hx⟩
  refine ⟨fun ho => List.disjoint_of_nodup_append hnd ho hxs, fun s' hs' hx' => ?_⟩
  by_contra hne
  have hsym : Symmetric (List.Disjoint on fun s : AlterTableSpec => s.newColumns) :=
    fun _ _ hd _ h1 h2 => hd h2 h1
  exact (List.nodup_flatMap.mp (List.Nodup.of_append_right hnd)).2.forall hsym hs' hs hne hx' hx

/-- Where a pointer of the table can be after some of the column phases: an old pointer, or a new
column of a spec of a kind `K` picks. -/
def InTable (old : List Nat) (specs : List AlterTableSpec) (K : AlterTableType → Prop)
    (p : Nat) : Prop :=
  p ∈ old ∨ ∃ s ∈ specs, K s.tp ∧ p ∈ s.newColumns

theorem InTable.mono {old : List Nat} {specs : List AlterTableSpec} {K K' : AlterTableType → Prop}
    (hK : ∀ tp, K tp → K' tp) {p : Nat} (h : InTable old specs K p) : InTable old specs K' p :=
  h.imp id fun ⟨s, hs, hk, hp⟩ => ⟨s, hs, hK _ hk, hp⟩

theorem InTable.kind {old : List Nat} {specs : List AlterTableSpec} {K : AlterTableType → Prop}
    (hnd : (old ++ specs.flatMap (·.newColumns)).Nodup) {s : AlterTableSpec} (hs : s ∈ specs)
    {x : Nat} (hx : x ∈ s.newColumns) (hT : InTable old specs K x) : K s.tp := by
  obtain ⟨hx0, hsame⟩ := fresh_of_nodup hnd hs hx
  rcases hT with hT | ⟨s', hs', hk, hx'⟩
  · exact absurd hT hx0
  · rwa [← hsame s' hs' hx']

namespace Heap

open Ddl

theorem allocColumns_ptrs (h : Heap) (cs : List Column) :
    (h.allocColumns cs).1 = List.range' h.colDefs.length cs.length ∧
      (h.allocColumns cs).2.colDefs.length = h.colDefs.length + cs.length := by
  induction cs generalizing h with
  | nil => simp [allocColumns]
  | cons c cs ih =>
    have hl : (h.allocColumn c).2.colDefs.length = h.colDefs.length + 1 := by simp [allocColumn]
    obtain ⟨h1, h2⟩ := ih (h.allocColumn c).2
    rw [allocColumns_cons, h1, h2, hl, List.length_cons, List.range'_succ]
    exact ⟨rfl, by omega⟩

theorem allocAlterSpecs_ptrs (h : Heap) (vs : List AlterSpec) :
    (h.allocAlterSpecs vs).1.flatMap (·.newColumns) =
        List.range' h.colDefs.length (vs.flatMap (·.newColumns)).length ∧
      (h.allocAlterSpecs vs).2.colDefs.length =
        h.colDefs.length + (vs.flatMap (·.newColumns)).length := by
  induction vs generalizing h with
  | nil => simp [allocAlterSpecs]
  | cons v vs ih =>
    obtain ⟨hp, hl⟩ := allocColumns_ptrs h v.newColumns
    have hf := allocColumns_frame h v.newColumns
    have hs : (h.allocAlterSpec v).1.newColumns = (h.allocColumns v.newColumns).1 := by
      unfold allocAlterSpec; cases v.constraint <;> rfl
    have hl' : (h.allocAlterSpec v).2.colDefs.length = h.colDefs.length + v.newColumns.length := by
      unfold allocAlterSpec
      cases v.constraint
      · exact hl
      · simp only [allocConstraint]; exact hl
    obtain ⟨hp', hl''⟩ := ih (h.allocAlterSpec v).2
    simp only [allocAlterSpecs, List.flatMap_cons, List.length_append, hs, hp, hp', hl', hl'']
    rw [List.range'_append_1]
    exact ⟨by rw [Nat.add_comm], by omega⟩

theorem allocCreateTable_ptrs (h : Heap) (c : CreateTable) :
    (h.allocCreateTable c).2.colArrs.elems
        ((h.allocCreateTable c).2.tables.getD h.tables.length default).cols =
      List.range' h.colDefs.length c.cols.length ∧
    (h.allocCreateTable c).2.colDefs.length = h.colDefs.length + c.cols.length := by
  obtain ⟨hp, hl⟩ := allocColumns_ptrs h c.cols
  have hf1 := allocColumns_frame h c.cols
  unfold allocCreateTable
  generalize h.allocColumns c.cols = A at hp hl hf1
  obtain ⟨ps, h1⟩ := A
  dsimp only at hp hl hf1 ⊢
  have hB := Arrays.alloc_elems h1.colArrs ps
  generalize h1.colArrs.alloc ps = B at hB
  obtain ⟨colArrs, cols⟩ := B
  have hf3 := allocConstraints_frame { h1 with colArrs } c.constraints
  generalize ({ h1 with colArrs } : Heap).allocConstraints c.constraints = C at hf3
  obtain ⟨qs, h3⟩ := C
  dsimp only at hB hf3 ⊢
  have ht : h3.tables = h.tables := by rw [hf3, hf1]
  have hget : (h3.tables ++ [(⟨c.table, cols, (h3.conArrs.alloc qs).2⟩ : CreateTableStmt)]).getD
      h.tables.length default = ⟨c.table, cols, (h3.conArrs.alloc qs).2⟩ := by rw [← ht]; simp
  have hc3 : h3.colArrs = colArrs := by rw [hf3]
  have hd3 : h3.colDefs = h1.colDefs := by rw [hf3]
  rw [hget]
  exact ⟨by rw [hc3, hB.1, hp], by rw [hd3, hl]⟩

end Heap

end Ast
end Dtle
