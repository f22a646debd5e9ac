import Dtle.Sql.Refine.Options
import Dtle.Sql.Refine.Pointers
import Dtle.Sql.Refine.Table

/-!
# Dtle.Sql.Refine.MergeAll

`mergeAlterToTable` computes the full reference fold `foldAll` of `Dtle.Sql.FoldAll`, ALTER
COLUMN and DROP PRIMARY KEY included, on every table and every ALTER the fold covers.

The option phases write through the table's column pointers, into column objects the specs may
share: what keeps them to the table is where those pointers come from (`Dtle.Sql.Refine.Pointers`)
and how the parser lays the objects out (`Heap.Fresh`).

* `Heap.Fresh` — the parser's column objects: options arrays of their own, a nil options header
  exactly for no options, at most one DEFAULT and one PRIMARY KEY option; every layout keeps it;
* `runPhases_agreesAll` — the nine phases in the code's order;
* `mergeAlterToTable_agreesAll` — on any heap where the old table and the specs read as values;
* `layout_agreesAll` — the CREATE and the ALTER laid out as the parser does meet those conditions;
* `merge_refines_foldAll` — on a CREATE and an ALTER laid out as the parser does, the merge
  returns the full fold's table as `newTable`, or `oldTable` where the fold gives up.
-/

namespace Dtle
namespace Ast

open Go Ddl

namespace Heap

/-- The column objects as the parser lays them out: options arrays of their own, a nil options
header when there are no options, and at most one DEFAULT and one PRIMARY KEY option. -/
structure Fresh (h : Heap) : Prop where
  sep : h.OptsSep
  nil : ∀ p, (h.col p).options.ptr.isSome → (h.readColumn p).options ≠ []
  single : h.AllSingle

theorem readColumn_of_length_le {h : Heap} {p : Nat} (hp : h.colDefs.length ≤ p) :
    h.readColumn p = ⟨default, default, []⟩ := by
  simp [readColumn, col_of_length_le hp, Arrays.elems, Arrays.array]; exact ⟨rfl, rfl⟩

theorem Fresh.grow {h h' : Heap} (hf : h.Fresh) (hg : Grows h h') (hc : h'.colDefs = h.colDefs) :
    h'.Fresh := by
  have hcol : h'.col = h.col := funext fun p => by simp only [col, hc]
  have hread : ∀ p, h'.readColumn p = h.readColumn p := fun p => by
    by_cases hp : p < h.colDefs.length
    · simp only [readColumn, hcol, (Arrays.elems_of_prefix hg.optArrs (hf.sep.fits p hp)).1]
    · rw [readColumn_of_length_le (by rw [hc]; omega), readColumn_of_length_le (by omega)]
  refine ⟨⟨fun p hp => ?_, fun p hp a ha => ?_, fun p hp q hq => ?_⟩, fun p => ?_, fun p => ?_⟩
  · rw [hc] at hp; rw [hcol]; exact (Arrays.elems_of_prefix hg.optArrs (hf.sep.fits p hp)).2
  · rw [hc] at hp; rw [hcol] at ha
    exact Nat.lt_of_lt_of_le (hf.sep.valid p hp a ha) hg.optArrs.length_le
  · rw [hc] at hp hq; rw [hcol]; exact hf.sep.unshared p hp q hq
  · rw [hcol, hread]; exact hf.nil p
  · rw [hread]; exact hf.single p

theorem alloc_ptr {α : Type} (st : Arrays α) (xs : List α) {a : Nat}
    (ha : (st.alloc xs).2.ptr = some a) : a = st.length ∧ xs ≠ [] := by
  unfold Arrays.alloc at ha; split at ha
  · cases ha
  · next hx => exact ⟨(Option.some.inj ha).symm, fun he => hx (by simp [he])⟩

theorem length_alloc {α : Type} (st : Arrays α) (xs : List α) :
    st.length ≤ (st.alloc xs).1.length ∧ (xs ≠ [] → st.length < (st.alloc xs).1.length) := by
  unfold Arrays.alloc; split
  · next hx => exact ⟨le_rfl, fun hne => absurd (List.isEmpty_iff.mp hx) hne⟩
  · simp

theorem allocColumn_col_ne {h : Heap} (c : Column) {p : Nat} (hp : p ≠ h.colDefs.length) :
    (h.allocColumn c).2.col p = h.col p := by
  by_cases hlt : p < h.colDefs.length
  · exact getD_of_prefix (allocColumn_grows h c).colDefs hlt default
  · have hlen : (h.allocColumn c).2.colDefs.length = h.colDefs.length + 1 := by
      show (h.colDefs ++ [_]).length = _; simp
    rw [col_of_length_le (by omega), col_of_length_le (by omega)]

theorem allocColumn_options_self (h : Heap) (c : Column) :
    ((h.allocColumn c).2.col h.colDefs.length).options = (h.optArrs.alloc c.options).2 := by
  show ((h.colDefs ++ [(⟨c.name, c.tp, (h.optArrs.alloc c.options).2⟩ : ColumnDef)]).getD
    h.colDefs.length default).options = _
  simp

theorem OptsSep.allocColumn {h : Heap} (hs : h.OptsSep) (c : Column) :
    (h.allocColumn c).2.OptsSep := by
  set n := h.colDefs.length
  have hlen : (h.allocColumn c).2.colDefs.length = n + 1 := by
    show (h.colDefs ++ [_]).length = n + 1; simp [n]
  have hfitn := ((allocColumn_readAs h c).1 n (List.mem_singleton_self n)).2
  have hcoln := allocColumn_options_self h c
  have hgrow : h.optArrs.length ≤ (h.allocColumn c).2.optArrs.length := (length_alloc _ _).1
  -- the new header is over the one array past the old ones, or nil
  have hnew : ∀ a, ((h.allocColumn c).2.col n).options.ptr = some a → a = h.optArrs.length :=
    fun a ha => (alloc_ptr _ _ (hcoln ▸ ha)).1
  refine ⟨fun p hp => ?_, fun p hp a ha => ?_, fun p hp q hq hpq a ha => ?_⟩
  · by_cases hpn : p = n
    · subst hpn; exact hfitn
    · rw [allocColumn_col_ne c hpn]
      exact (Arrays.elems_of_prefix (allocColumn_grows h c).optArrs (hs.fits p (by omega))).2
  · by_cases hpn : p = n
    · subst hpn; rw [hcoln] at ha
      obtain ⟨rfl, hne⟩ := alloc_ptr _ _ ha
      exact (length_alloc _ _).2 hne
    · rw [allocColumn_col_ne c hpn] at ha
      exact Nat.lt_of_lt_of_le (hs.valid p (by omega) a ha) hgrow
  · by_cases hpn : p = n
    · subst hpn; obtain rfl := hnew a ha
      rw [allocColumn_col_ne c (Ne.symm hpq)]
      exact fun he => absurd (hs.valid q (by omega) _ he) (lt_irrefl _)
    · rw [allocColumn_col_ne c hpn] at ha
      by_cases hqn : q = n
      · subst hqn
        exact fun he => absurd (hs.valid p (by omega) _ (hnew a he ▸ ha)) (lt_irrefl _)
      · rw [allocColumn_col_ne c hqn]
        exact hs.unshared p (by omega) q (by omega) hpq a ha

theorem Fresh.allocColumn {h : Heap} (hf : h.Fresh) (c : Column) (hc : optionsSingle c.options) :
    (h.allocColumn c).2.Fresh := by
  set n := h.colDefs.length
  have hread : ∀ p, p ≠ n → (h.allocColumn c).2.readColumn p = h.readColumn p := fun p hp => by
    by_cases hlt : p < n
    · simp only [readColumn, allocColumn_col_ne c hp,
        (Arrays.elems_of_prefix (allocColumn_grows h c).optArrs (hf.sep.fits p hlt)).1]
    · have hlen : (h.allocColumn c).2.colDefs.length = n + 1 := by
        show (h.colDefs ++ [_]).length = n + 1; simp [n]
      rw [readColumn_of_length_le (by omega), readColumn_of_length_le (by omega)]
  have hreadn : (h.allocColumn c).2.readColumn n = c :=
    List.singleton_inj.mp (allocColumn_readAs h c).2
  refine ⟨hf.sep.allocColumn c, fun p => ?_, fun p => ?_⟩
  · by_cases hpn : p = n
    · subst hpn; rw [allocColumn_options_self, hreadn]
      intro hs
      obtain ⟨a, ha⟩ := Option.isSome_iff_exists.mp hs
      exact (alloc_ptr _ _ ha).2
    · rw [allocColumn_col_ne c hpn, hread p hpn]; exact hf.nil p
  · by_cases hpn : p = n
    · subst hpn; rw [hreadn]; exact hc
    · rw [hread p hpn]; exact hf.single p

theorem Fresh.allocColumns {h : Heap} (hf : h.Fresh) (cs : List Column)
    (hc : ∀ c ∈ cs, optionsSingle c.options) : (h.allocColumns cs).2.Fresh := by
  induction cs generalizing h with
  | nil => exact hf
  | cons c cs ih =>
    rw [allocColumns_cons]
    exact ih (hf.allocColumn c (hc c (List.mem_cons_self _ _)))
      fun c' hc' => hc c' (List.mem_cons_of_mem _ hc')

theorem Fresh.allocConstraints {h : Heap} (hf : h.Fresh) (cs : List Constraint) :
    (h.allocConstraints cs).2.Fresh :=
  hf.grow (allocConstraints_spec h cs).1 (by rw [allocConstraints_frame])

theorem Fresh.colsStore {h : Heap} (hf : h.Fresh) (st : Arrays Nat) : (colsStore.set h st).Fresh :=
  ⟨⟨hf.sep.fits, hf.sep.valid, hf.sep.unshared⟩, hf.nil, hf.single⟩

theorem Fresh.allocCreateTable {h : Heap} (hf : h.Fresh) (c : CreateTable)
    (hc : ∀ col ∈ c.cols, optionsSingle col.options) : (h.allocCreateTable c).2.Fresh := by
  have h1 := hf.allocColumns c.cols hc
  unfold Ast.Heap.allocCreateTable
  generalize h.allocColumns c.cols = A at h1
  obtain ⟨ps, h1'⟩ := A
  dsimp only at h1 ⊢
  have hB := Arrays.alloc_prefix h1'.colArrs ps
  generalize h1'.colArrs.alloc ps = B at hB
  obtain ⟨colArrs, cols⟩ := B
  have h2 : ({ h1' with colArrs } : Heap).Fresh := h1.grow ⟨List.prefix_refl _,
    List.prefix_refl _, List.prefix_refl _, hB, List.prefix_refl _, List.prefix_refl _⟩ rfl
  have h3 := h2.allocConstraints c.constraints
  generalize ({ h1' with colArrs } : Heap).allocConstraints c.constraints = C at h3
  obtain ⟨qs, h3'⟩ := C
  dsimp only at h3 ⊢
  exact h3.grow ⟨List.prefix_append _ _, List.prefix_refl _, List.prefix_refl _,
    List.prefix_refl _, Arrays.alloc_prefix _ _, List.prefix_refl _⟩ rfl

theorem Fresh.allocAlterSpecs {h : Heap} (hf : h.Fresh) (vs : List AlterSpec)
    (hv : ∀ v ∈ vs, ∀ c ∈ v.newColumns, optionsSingle c.options) :
    (h.allocAlterSpecs vs).2.Fresh := by
  induction vs generalizing h with
  | nil => exact hf
  | cons v vs ih =>
    have h1 : (h.allocAlterSpec v).2.Fresh := by
      have h1 := hf.allocColumns v.newColumns (hv v (List.mem_cons_self _ _))
      unfold Ast.Heap.allocAlterSpec
      generalize h.allocColumns v.newColumns = A at h1
      obtain ⟨ps, h1'⟩ := A
      cases v.constraint with
      | none => exact h1
      | some k => exact h1.grow (allocConstraint_grows h1' k) rfl
    exact ih h1 fun v' hv' => hv v' (List.mem_cons_of_mem _ hv')

end Heap

theorem Agrees.phase {t : CreateTableStmt} {h : Heap}
    {run : Except Panic (Option CreateTableStmt × Heap)} {r : Option (List Column)}
    (ha : Agrees t h run r) :
    PhaseAgrees (fun h' t' cols => ∃ st, h' = colsStore.set h st ∧ t'.table = t.table ∧
      t'.constraints = t.constraints ∧ h'.ColsAt t'.cols cols) run r := by
  cases r with
  | none => obtain ⟨st, hrun⟩ := ha; exact ⟨_, hrun⟩
  | some cols =>
    obtain ⟨st, t', hrun, ht, hk, hc⟩ := ha
    exact ⟨_, t', hrun, st, rfl, ht, hk, hc⟩

/-! ## The constraint kinds -/

/-- The kinds the constraint phases take. -/
def conKind (tp : AlterTableType) : Bool :=
  tp == .dropIndex || tp == .renameIndex || tp == .addConstraint

theorem ne_of_conKind {tp : AlterTableType} (hk : conKind tp) :
    tp ≠ .changeColumn ∧ tp ≠ .modifyColumn ∧ tp ≠ .addColumns ∧ tp ≠ .alterColumn ∧
      tp ≠ .dropPrimaryKey := by
  refine ⟨?_, ?_, ?_, ?_, ?_⟩ <;> rintro rfl <;> simp [conKind] at hk

theorem filter_conKind {α : Type} (tpOf : α → AlterTableType) (l : List α) (tp : AlterTableType)
    (htp : conKind tp) :
    (l.filter fun s => conKind (tpOf s)).filter (tpOf · == tp) = l.filter (tpOf · == tp) := by
  rw [List.filter_filter]
  congr 1; funext s
  by_cases hs : tpOf s = tp <;> simp [hs, htp]

theorem forall₂_filter {h : Heap} {specs : List AlterTableSpec} {vs : List AlterSpec}
    (hs : List.Forall₂ h.SpecReadAs specs vs) (q : AlterTableType → Bool) :
    List.Forall₂ h.SpecReadAs (specs.filter (q ·.tp)) (vs.filter (q ·.tp)) := by
  induction hs with
  | nil => exact .nil
  | cons hr _ ih =>
    simp only [List.filter_cons, hr.tp]
    split
    · exact .cons hr ih
    · exact ih

theorem foldCons_conKind (vs : List AlterSpec) (cols : List Column) (cons : List Constraint) :
    foldCons (vs.filter (conKind ·.tp)) cols cons = foldCons vs cols cons := by
  simp only [foldCons, specsOf, filter_conKind AlterSpec.tp vs .dropIndex rfl,
    filter_conKind AlterSpec.tp vs .renameIndex rfl,
    filter_conKind AlterSpec.tp vs .addConstraint rfl]

theorem getAlterTableSpecByTp_conKind (specs : List AlterTableSpec) (tp : AlterTableType)
    (htp : conKind tp) :
    getAlterTableSpecByTp (specs.filter (conKind ·.tp)) [tp] =
      getAlterTableSpecByTp specs [tp] := by
  rw [getAlterTableSpecByTp_single, getAlterTableSpecByTp_single]
  exact filter_conKind AlterTableSpec.tp specs tp htp

theorem mem_getAlterTableSpecByTp {specs : List AlterTableSpec} {tp : AlterTableType}
    {s : AlterTableSpec} (hm : s ∈ getAlterTableSpecByTp specs [tp]) : s ∈ specs ∧ s.tp = tp := by
  rw [getAlterTableSpecByTp_single] at hm; simpa using hm

theorem Heap.ConsAt.of_eq {P : Nat → Prop} {h h' : Heap} {s : Slice} {cons : List Constraint}
    (hk : h.ConsAt P s cons) (hc : h'.conArrs = h.conArrs) (hcon : h'.constraints = h.constraints) :
    h'.ConsAt P s cons := by
  have : h'.con = h.con := funext fun p => by simp only [Heap.con, hcon]
  unfold Heap.ConsAt Heap.ConsReadAs at hk ⊢
  rw [hc, hcon, this]; exact hk

theorem forall₂_exists_left {α β : Type} {R : α → β → Prop} {l : List α} {u : List β}
    (h : List.Forall₂ R l u) : ∀ a ∈ l, ∃ b ∈ u, R a b := by
  induction h with
  | nil => intro a ha; cases ha
  | cons hab _ ih =>
    intro a ha
    rcases List.mem_cons.mp ha with rfl | ha
    · exact ⟨_, List.mem_cons_self _ _, hab⟩
    · obtain ⟨b, hb, hr⟩ := ih a ha
      exact ⟨b, List.mem_cons_of_mem _ hb, hr⟩

/-! ## The whole merge -/

theorem runPhases_agreesAll {N : Nat} (h : Heap) (specs : List AlterTableSpec)
    (vs : List AlterSpec) (t : CreateTableStmt) (cols : List Column) (cons : List Constraint)
    (hs : List.Forall₂ h.SpecReadAs specs vs) (hN : ∀ s ∈ specs, ∀ p ∈ s.constraint, N ≤ p)
    (hv : ∀ v ∈ vs, v.coveredAll) (hc : h.ColsAt t.cols cols)
    (hk : h.ConsAt (· < N) t.constraints cons) (hd : (cols.map (·.name.l)).Nodup)
    (hcn : cons.Pairwise fun a b => a.name = b.name → a.name = "")
    (hpk : ∀ k ∈ cons, pkPartsNamed k) (hkc : cons.countP (·.tp == .primaryKey) ≤ 1)
    (hfr : h.Fresh) (hnd : (h.colArrs.elems t.cols ++ specs.flatMap (·.newColumns)).Nodup) :
    TableAgrees t.table h.tables (runPhases (phases specs) t h)
      ((foldColsAll vs cols).bind fun cols =>
        ((specsOf vs .dropPrimaryKey).foldlM dropPrimaryKey (cols, cons)).bind fun r =>
          (foldCons vs r.1 r.2).bind fun cons => some (r.1, cons)) := by
  set T0 := h.colArrs.elems t.cols
  have hvk : ∀ tp, ∀ v ∈ specsOf vs tp, v.coveredAll ∧ v.tp = tp := fun tp v hm =>
    let ⟨hm, htp⟩ := mem_specsOf.mp hm; ⟨hv v hm, htp⟩
  -- where the table's pointers can be: after CHANGE and MODIFY COLUMN, and after ADD COLUMN
  let CM := InTable T0 specs fun tp => tp = .changeColumn ∨ tp = .modifyColumn
  let CMA := InTable T0 specs fun tp => tp = .changeColumn ∨ tp = .modifyColumn ∨ tp = .addColumns
  have hnew : ∀ tp, (tp = .changeColumn ∨ tp = .modifyColumn) → ∀ v ∈ specsOf vs tp,
      v.newColumns ≠ [] := fun tp htp v hm =>
    AlterSpec.newColumns_of_coveredAll (hvk tp v hm).1 ((hvk tp v hm).2 ▸ htp)
  have hnewS : ∀ tp, (tp = .changeColumn ∨ tp = .modifyColumn) →
      ∀ s ∈ getAlterTableSpecByTp specs [tp], s.newColumns ≠ [] := fun tp htp s hm he => by
    obtain ⟨v, hv', hr⟩ := forall₂_exists_left (forall₂_specsOf hs tp) s hm
    exact hnew tp htp v hv' (by rw [← hr.newColumns.2, he]; rfl)
  simp only [phases, foldColsAll, Option.bind_eq_bind, Option.bind_assoc]
  -- DROP COLUMN
  refine runPhases_cons_of (dropColumns_agrees _ _ h t cols (forall₂_specsOf hs _) hc hd).phase
    (fun h' => ⟨h', rfl⟩) fun h1 t1 cols1 _ hrun1 ⟨st1, he1, ht1, hk1, hc1⟩ => ?_
  subst he1
  have hp1 : PtrsIn CM (colsStore.set h st1) t1.cols :=
    dropColumns_ptrs _ t t1 h _ ⟨hc.1, fun p hp => Or.inl hp⟩ hrun1
  -- CHANGE COLUMN
  refine runPhases_cons_of (changeColumns_agrees _ _ _ t1 cols1
    ((forall₂_specsOf hs _).imp fun _ _ hr => hr.setCols st1) (hnew _ (.inl rfl)) hc1).phase
    (fun h' => ⟨h', rfl⟩) fun h2 t2 cols2 _ hrun2 ⟨st2, he2, ht2, hk2, hc2⟩ => ?_
  subst he2
  have hp2 : PtrsIn CM _ t2.cols := changeColumns_ptrs _ t1 t2 _ _ (hnewS _ (.inl rfl))
    (fun s hs p hp => let hm := mem_getAlterTableSpecByTp hs; .inr ⟨s, hm.1, .inl hm.2, hp⟩) hp1
    hrun2
  -- MODIFY COLUMN
  refine runPhases_cons_of (modifyColumns_agrees _ _ _ t2 cols2
    ((forall₂_specsOf hs _).imp fun _ _ hr => (hr.setCols st1).setCols st2) (hnew _ (.inr rfl))
    hc2).phase (fun h' => ⟨h', rfl⟩) fun h3 t3 cols3 _ hrun3 ⟨st3, he3, ht3, hk3, hc3⟩ => ?_
  subst he3
  have hp3 : PtrsIn CM _ t3.cols := modifyColumns_ptrs _ t2 t3 _ _ (hnewS _ (.inr rfl))
    (fun s hs p hp => let hm := mem_getAlterTableSpecByTp hs; .inr ⟨s, hm.1, .inr hm.2, hp⟩) hp2
    hrun3
  set h3 := colsStore.set (colsStore.set (colsStore.set h st1) st2) st3
  have hfr3 : h3.Fresh := ((hfr.colsStore st1).colsStore st2).colsStore st3
  have hs3 : ∀ tp, List.Forall₂ h3.SpecReadAs (getAlterTableSpecByTp specs [tp]) (specsOf vs tp) :=
    fun tp => (forall₂_specsOf hs tp).imp fun _ _ hr => ((hr.setCols st1).setCols st2).setCols st3
  have hout3 : ∀ s ∈ specs, s.tp ≠ .changeColumn → s.tp ≠ .modifyColumn → ∀ x ∈ s.newColumns,
      x ∉ h3.colArrs.elems t3.cols := fun s hs h1 h2 x hx hin =>
    ((hp3.2 x hin).kind hnd hs hx).elim h1 h2
  -- ALTER COLUMN
  refine runPhases_cons_of (alterColumns_agrees _ _ h3 t3 cols3 (hs3 _)
    (fun v hm => AlterSpec.newDefault_of_coveredAll (hvk _ v hm).1 (hvk _ v hm).2)
    (fun s hs x hx => let hm := mem_getAlterTableSpecByTp hs
      ⟨hout3 s hm.1 (by simp [hm.2]) (by simp [hm.2]) x hx, hfr3.nil x⟩) hfr3.sep hfr3.single hc3)
    (fun h' => ⟨h', rfl⟩) fun h4 t4 cols4 _ hrun4 ⟨he4, hf4, hall4, hc4⟩ => ?_
  subst he4
  have hcon4 : h4.conArrs = h3.conArrs := keeps_alterColumns (F := Heap.conArrs) (fun _ _ => rfl)
    (fun _ _ _ => rfl) _ _ h3 _ h4 hrun4
  -- ADD COLUMN
  have hs4 : List.Forall₂ h4.SpecReadAs (getAlterTableSpecByTp specs [.addColumns])
      (specsOf vs .addColumns) :=
    forall₂_imp_mem (fun s hs => hs) (hs3 _) fun s _ hsm hr => hr.optFrame hf4 fun p hp =>
      let hm := mem_getAlterTableSpecByTp hsm
      hout3 s hm.1 (by simp [hm.2]) (by simp [hm.2]) p hp
  have hp4 : PtrsIn CMA h4 t4.cols := by
    unfold PtrsIn; rw [hf4.colArrs]
    exact hp3.mono fun p hp => hp.mono fun _ k => k.elim .inl (.inr ∘ .inl)
  refine runPhases_cons_of (addColumns_agrees _ _ h4 t4 cols4 hs4 hc4).phase
    (fun h' => ⟨h', rfl⟩) fun h5 t5 cols5 _ hrun5 ⟨st5, he5, ht5, hk5, hc5⟩ => ?_
  subst he5
  have hp5 : PtrsIn CMA _ t5.cols := addColumns_ptrs _ t4 t5 h4 _
    (fun s hs p hp => let hm := mem_getAlterTableSpecByTp hs; .inr ⟨s, hm.1, .inr (.inr hm.2), hp⟩)
    hp4 hrun5
  -- DROP PRIMARY KEY
  have hk5' : (colsStore.set h4 st5).ConsAt (· < N) t5.constraints cons := by
    rw [hk5, hk3, hk2, hk1]
    exact hk.of_eq hcon4 hf4.constraints
  refine runPhases_cons_of (dropPrimaryKeys_agrees (P := (· < N)) _ _ _ t5 cols5 cons
    (forall₂_specsOf hs _).length_eq ⟨hf4.sep.fits, hf4.sep.valid, hf4.sep.unshared⟩
    (fun p => hall4 p) hc5 hk5' hkc hpk)
    (fun h' => ⟨h', rfl⟩) fun h6 t6 r6 hr6 _ ⟨ht6, _, hf6, _, hcols6, hcons6⟩ => ?_
  -- the constraint phases
  have hsub := foldlM_dropPrimaryKey_sublist _ hr6
  have hcon : ∀ s ∈ specs.filter (conKind ·.tp), s ∈ specs ∧ s.tp ≠ .changeColumn ∧
      s.tp ≠ .modifyColumn ∧ s.tp ≠ .addColumns := fun s hs =>
    let ⟨hs, hk⟩ := List.mem_filter.mp hs
    let hne := ne_of_conKind hk
    ⟨hs, hne.1, hne.2.1, hne.2.2.1⟩
  have hsC : List.Forall₂ h6.SpecReadAs (specs.filter (conKind ·.tp)) (vs.filter (conKind ·.tp)) :=
    forall₂_imp_mem hcon (forall₂_filter hs _) fun s _ ⟨hsm, h1, h2, h3⟩ hr =>
      ((((((hr.setCols st1).setCols st2).setCols st3).optFrame hf4 fun p hp =>
        hout3 s hsm h1 h2 p hp).setCols st5).optFrame hf6 fun p hp hin =>
          ((hp5.2 p hin).kind hnd hsm hp).elim h1 fun h' => h'.elim h2 h3)
  have hvC : ∀ v ∈ vs.filter (conKind ·.tp), v.covered := fun v hv' =>
    let ⟨hv', hk⟩ := List.mem_filter.mp hv'
    let hne := ne_of_conKind hk
    AlterSpec.covered_of_coveredAll (hv v hv') ⟨hne.2.2.2.1, hne.2.2.2.2⟩
  have := conPhases_agrees (N := N) _ _ _ t6 r6.1 r6.2 hsC
    (fun s hs => hN s (List.mem_of_mem_filter hs)) hvC hcols6 hcons6 (hcn.sublist hsub)
    (fun k hk => hpk k (hsub.subset hk))
  rw [getAlterTableSpecByTp_conKind specs .dropIndex rfl,
    getAlterTableSpecByTp_conKind specs .renameIndex rfl,
    getAlterTableSpecByTp_conKind specs .addConstraint rfl, foldCons_conKind, hf6.tables,
    ht6, ht5, ht3, ht2, ht1] at this
  rwa [show (colsStore.set h4 st5).tables = h.tables from hf4.tables] at this

theorem mergeAlterToTable_agreesAll {N : Nat} (h : Heap) (p : Nat) (alter : AlterTableStmt)
    (c : CreateTable) (vs : List AlterSpec) (ht : h.TableReadAs (h.tables.getD p default) c)
    (hlt : ∀ q ∈ h.conArrs.elems (h.tables.getD p default).constraints, q < N)
    (hs : List.Forall₂ h.SpecReadAs alter.specs vs)
    (hN : ∀ s ∈ alter.specs, ∀ q ∈ s.constraint, N ≤ q) (hc : c.coveredAll)
    (hv : ∀ v ∈ vs, v.coveredAll) (hfr : h.Fresh)
    (hnd : (h.colArrs.elems (h.tables.getD p default).cols ++
      alter.specs.flatMap (·.newColumns)).Nodup) :
    (∀ c', foldAll c vs = some c' → ∃ h', mergeAlterToTable p alter h =
        .ok (h.tables.length, h') ∧
        h'.readTable (h'.tables.getD h.tables.length default) = c') ∧
      (foldAll c vs = none → ∃ h', mergeAlterToTable p alter h = .ok (p, h')) := by
  have hg : ∀ h : Heap, (getThe Heap : GoM Heap) h = .ok (h, h) := fun _ => rfl
  simp only [CreateTable.coveredAll, CreateTable.covered, Bool.and_eq_true, decide_eq_true_eq,
    List.all_eq_true] at hc
  obtain ⟨⟨⟨⟨hd, hcn⟩, hpk⟩, hkc⟩, -⟩ := hc
  set old := h.tables.getD p default
  have hag := runPhases_agreesAll h alter.specs vs
    { table := (specsOf vs .renameTable).foldl (fun _ v => v.newTable) old.table, cols := old.cols,
      constraints := old.constraints } c.cols c.constraints hs hN hv ⟨ht.colsFit, ht.cols⟩
    ⟨ht.consFit, ht.cons, hlt⟩ hd (pairwise_names_of_nodup hcn) hpk hkc hfr hnd
  simp only [mergeAlterToTable, bind, StateT.bind, hg, Except.bind,
    renameTables_eq (forall₂_specsOf hs .renameTable)]
  rw [foldAll_eq]
  cases hf : (foldColsAll vs c.cols).bind fun cols =>
      ((specsOf vs .dropPrimaryKey).foldlM dropPrimaryKey (cols, c.constraints)).bind fun r =>
        (foldCons vs r.1 r.2).bind fun cons => some (r.1, cons) with
  | none =>
    rw [hf] at hag
    obtain ⟨h', hrun⟩ := hag
    refine ⟨fun _ hc' => by simp at hc', fun _ => ⟨h', ?_⟩⟩
    rw [hrun]; rfl
  | some r =>
    obtain ⟨cols', cons'⟩ := r
    rw [hf] at hag
    obtain ⟨h', t', hrun, htables, hread⟩ := hag
    refine ⟨fun c' hc' => ⟨_, by rw [hrun]; dsimp only; rw [htables], ?_⟩, fun hc' => by
      simp at hc'⟩
    simp only [Option.map_some', Option.some.injEq] at hc'
    subst hc'
    have hget : (h.tables ++ [t']).getD h.tables.length default = t' := by simp
    show Heap.readTable _ ((h.tables ++ [t']).getD h.tables.length default) = _
    rw [hget]
    refine Heap.TableReadAs.readTable ⟨?_, hread.colsFit, hread.cols, hread.consFit, hread.cons⟩
    rw [hread.table]
    show List.foldl _ old.table _ = List.foldl _ c.table _
    rw [ht.table]

theorem Heap.fresh_empty : Heap.empty.Fresh :=
  ⟨⟨fun _ hp => absurd hp (Nat.not_lt_zero _), fun _ hp => absurd hp (Nat.not_lt_zero _),
    fun _ hp => absurd hp (Nat.not_lt_zero _)⟩,
    fun p hp => absurd hp (by
      rw [Heap.options_ptr_of_length_le (show Heap.empty.colDefs.length ≤ p from Nat.zero_le p)]
      decide),
    fun p => by rw [Heap.readColumn_of_length_le (Nat.zero_le p)]; rfl⟩

end Ast

namespace Ddl

open Go Ast

theorem layout_agreesAll (c : CreateTable) (a : AlterTable) (hc : c.coveredAll)
    (ha : ∀ v ∈ a.specs, v.coveredAll) :
    ∃ p h1 alter h2, Heap.empty.allocCreateTable c = (p, h1) ∧
      h1.allocAlterTable a = (alter, h2) ∧ List.Forall₂ h2.SpecReadAs alter.specs a.specs ∧
      p < h2.tables.length ∧
      (∀ t, foldAll c a.specs = some t → ∃ h', mergeAlterToTable p alter h2 =
        .ok (h2.tables.length, h') ∧ h'.readTable (h'.tables.getD h2.tables.length default) = t) ∧
      (foldAll c a.specs = none → ∃ h', mergeAlterToTable p alter h2 = .ok (p, h')) := by
  have hcols : ∀ col ∈ c.cols, optionsSingle col.options := by
    simp only [CreateTable.coveredAll, Bool.and_eq_true, List.all_eq_true] at hc; exact hc.2
  have hnew : ∀ v ∈ a.specs, ∀ col ∈ v.newColumns, optionsSingle col.options := fun v hv => by
    have := ha v hv
    simp only [AlterSpec.coveredAll, Bool.and_eq_true, List.all_eq_true] at this; exact this.2
  obtain ⟨-, hp0, hlt, hr⟩ := Heap.allocCreateTable_spec Heap.empty c
  obtain ⟨hptr1, hlen1⟩ := Heap.allocCreateTable_ptrs Heap.empty c
  have hfr1 := Heap.fresh_empty.allocCreateTable c hcols
  have hN := Heap.allocAlterSpecs_constraint_ge (Heap.empty.allocCreateTable c).2 a.specs
  obtain ⟨hg, -, hs⟩ := Heap.allocAlterTable_spec (Heap.empty.allocCreateTable c).2 a
  have hptr2 : ((Heap.empty.allocCreateTable c).2.allocAlterTable a).1.specs.flatMap
      (·.newColumns) = List.range' (Heap.empty.allocCreateTable c).2.colDefs.length
        (a.specs.flatMap (·.newColumns)).length :=
    (Heap.allocAlterSpecs_ptrs (Heap.empty.allocCreateTable c).2 a.specs).1
  have hfr2 : ((Heap.empty.allocCreateTable c).2.allocAlterTable a).2.Fresh :=
    hfr1.allocAlterSpecs a.specs hnew
  generalize Heap.empty.allocCreateTable c = A at hp0 hlt hr hg hs hN hptr1 hlen1 hptr2 hfr2
  obtain ⟨p, h1⟩ := A
  dsimp only at hp0 hlt hr hg hs hN hptr1 hlen1 hptr2 hfr2
  rw [← hp0] at hr hptr1
  have hN' : ∀ s ∈ (h1.allocAlterTable a).1.specs, ∀ q ∈ s.constraint,
      h1.constraints.length ≤ q := hN
  generalize hB : h1.allocAlterTable a = B at hg hs hN' hptr2 hfr2
  obtain ⟨alter, h2⟩ := B
  dsimp only at hg hs hN' hptr2 hfr2
  have hget := Heap.getD_of_prefix hg.tables hlt (d := default)
  have ht : h2.TableReadAs (h2.tables.getD p default) c := by rw [hget]; exact hr.grow hg
  have hbound : ∀ q ∈ h2.conArrs.elems (h2.tables.getD p default).constraints,
      q < h1.constraints.length := by
    rw [hget, (Arrays.elems_of_prefix hg.conArrs hr.consFit).1]; exact hr.cons.1
  have hnd : (h2.colArrs.elems (h2.tables.getD p default).cols ++
      alter.specs.flatMap (·.newColumns)).Nodup := by
    rw [hget, (Arrays.elems_of_prefix hg.colArrs hr.colsFit).1, hptr1, hptr2, hlen1]
    simp only [Heap.empty, List.length_nil, Nat.zero_add]
    have e := List.range'_append_1 0 c.cols.length (a.specs.flatMap (·.newColumns)).length
    rw [Nat.zero_add] at e
    rw [e]; exact List.nodup_range' _ _
  exact ⟨p, h1, alter, h2, rfl, hB, hs, Nat.lt_of_lt_of_le hlt hg.tables.length_le,
    mergeAlterToTable_agreesAll h2 p alter c a.specs ht hbound hs hN' hc ha hfr2 hnd⟩

/-- The merge of a table the full fold covers (what `CreateTable.covered` asks, at most one
PRIMARY KEY constraint, at most one DEFAULT and one PRIMARY KEY option per column) with an ALTER
of specs the full fold covers (every kind, ALTER COLUMN with no option or one DEFAULT option as
the parser gives it, new columns with at most one DEFAULT and one PRIMARY KEY option) is the full
reference fold: the merged table when the fold applies, `oldTable` when a spec makes it give up. -/
theorem merge_refines_foldAll (c : CreateTable) (a : AlterTable) (hc : c.coveredAll)
    (ha : ∀ v ∈ a.specs, v.coveredAll) :
    (∀ t, foldAll c a.specs = some t → merge c a = .ok (.newTable t)) ∧
      (foldAll c a.specs = none → ∃ t, merge c a = .ok (.oldTable t)) := by
  obtain ⟨p, h1, alter, h2, hA, hB, -, hp, hsome, hnone⟩ := layout_agreesAll c a hc ha
  unfold merge
  rw [hA]; dsimp only; rw [hB]; dsimp only
  constructor
  · intro t hf
    obtain ⟨h', hrun, hread⟩ := hsome t hf
    rw [hrun]; dsimp only; rw [hread, if_neg (by omega)]
  · intro hf
    obtain ⟨h', hrun⟩ := hnone hf
    rw [hrun]; simp

theorem merge_refines_foldAll_set_drop_default :
    let c : CreateTable :=
      ⟨⟨⟨"", ""⟩, ⟨"t", "t"⟩⟩,
        [⟨⟨"a", "a"⟩, "int", [⟨.primaryKey, ""⟩, ⟨.defaultValue, "0"⟩]⟩, ⟨⟨"b", "b"⟩, "int", []⟩],
        []⟩
    let a : AlterTable := ⟨c.table,
      [{ tp := .alterColumn, newColumns := [⟨⟨"b", "b"⟩, "", [⟨.defaultValue, "1"⟩]⟩] },
        { tp := .alterColumn, newColumns := [⟨⟨"a", "a"⟩, "", []⟩] }, { tp := .dropPrimaryKey }]⟩
    let t : CreateTable :=
      ⟨c.table, [⟨⟨"a", "a"⟩, "int", []⟩, ⟨⟨"b", "b"⟩, "int", [⟨.defaultValue, "1"⟩]⟩], []⟩
    c.coveredAll ∧ (∀ v ∈ a.specs, v.coveredAll) ∧ foldAll c a.specs = some t ∧
      merge c a = .ok (.newTable t) := by
  intro c a t
  have hc : c.coveredAll := by decide
  have ha : ∀ v ∈ a.specs, v.coveredAll := by decide
  have hf : foldAll c a.specs = some t := by decide
  exact ⟨hc, ha, hf, (merge_refines_foldAll c a hc ha).1 t hf⟩

end Ddl

end Dtle
