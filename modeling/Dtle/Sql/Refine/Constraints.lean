import Dtle.Sql.Refine.Columns

/-!
# Dtle.Sql.Refine.Constraints

The constraint phases of `mergeAlterToTable` (DROP INDEX, RENAME INDEX, ADD CONSTRAINT) compute
the reference fold of `Dtle.Sql.Fold` on the constraints.

Unlike the column phases these write objects: RENAME INDEX sets `constraint.Name` through the
table's pointers. A run `ConAgrees` with the fold when, besides handing on a header that shows
the fold's constraints, it leaves a `Heap.ConFrame`: the columns as they were, and every
constraint object from `N` on, where the specs' own constraints are, since the table's pointers
are all below `N`. RENAME INDEX is proved for any aliasing of those pointers: each object is
renamed once, and renaming is idempotent (`renameIndexLoop_run`).

* `dropIndexes_agrees`, `renameIndexes_agrees`, `addConstraints_agrees` — one phase, by induction
  over its specs;
* `hasPrimaryKey_eq` — the primary key check of ADD CONSTRAINT PRIMARY KEY, which panics on a key
  part without a column, answers as `tableHasPrimaryKey` when every part names one;
* `runPhases_cons_con` — a constraint phase followed by the phases after it.
-/

namespace Dtle
namespace Ast

open Go Ddl

namespace Heap

/-- The header `s` shows, through its array and pointers, the constraints `cons`, all of them
objects that satisfy `P`. -/
def ConsAt (P : Nat → Prop) (h : Heap) (s : Slice) (cons : List Constraint) : Prop :=
  h.conArrs.Fits s ∧ h.ConsReadAs (h.conArrs.elems s) cons ∧ ∀ p ∈ h.conArrs.elems s, P p

/-- What a constraint phase leaves alone: the tables, the columns, and every constraint object
from `N` on, where the specs' constraints are. -/
structure ConFrame (N : Nat) (h h' : Heap) : Prop where
  tables : h'.tables = h.tables
  colArrs : h'.colArrs = h.colArrs
  colDefs : h'.colDefs = h.colDefs
  optArrs : h'.optArrs = h.optArrs
  length : h'.constraints.length = h.constraints.length
  con : ∀ p, N ≤ p → h'.con p = h.con p

theorem ConFrame.refl (N : Nat) (h : Heap) : ConFrame N h h :=
  ⟨rfl, rfl, rfl, rfl, rfl, fun _ _ => rfl⟩

theorem ConFrame.trans {N : Nat} {h₁ h₂ h₃ : Heap} (a : ConFrame N h₁ h₂)
    (b : ConFrame N h₂ h₃) : ConFrame N h₁ h₃ :=
  ⟨b.1.trans a.1, b.2.trans a.2, b.3.trans a.3, b.4.trans a.4, b.5.trans a.5,
    fun p hp => (b.6 p hp).trans (a.6 p hp)⟩

theorem ConFrame.consStore {N : Nat} (h : Heap) (st : Arrays Nat) :
    ConFrame N h (consStore.set h st) :=
  ⟨rfl, rfl, rfl, rfl, rfl, fun _ _ => rfl⟩

theorem ColsReadAs.frame {N : Nat} {h h' : Heap} {ps : List Nat} {cols : List Column}
    (hf : ConFrame N h h') (hr : h.ColsReadAs ps cols) : h'.ColsReadAs ps cols := by
  have hcol : h'.col = h.col :=
    funext fun p => show h'.colDefs.getD p default = _ by rw [hf.colDefs]; rfl
  refine ⟨fun p hp => ?_, ?_⟩
  · rw [hf.colDefs, hcol, hf.optArrs]; exact hr.1 p hp
  · rw [← hr.2, List.map_inj_left]
    intro p _
    simp only [readColumn, hcol, hf.optArrs]

theorem ColsAt.frame {N : Nat} {h h' : Heap} {s : Slice} {cols : List Column}
    (hf : ConFrame N h h') (hc : h.ColsAt s cols) : h'.ColsAt s cols := by
  unfold ColsAt; rw [hf.colArrs]; exact ⟨hc.1, hc.2.frame hf⟩

theorem SpecReadAs.frame {N : Nat} {h h' : Heap} {s : AlterTableSpec} {v : AlterSpec}
    (hf : ConFrame N h h') (hN : ∀ p ∈ s.constraint, N ≤ p) (hr : h.SpecReadAs s v) :
    h'.SpecReadAs s v := by
  refine { hr with newColumns := hr.newColumns.frame hf, constraint := ⟨fun p hp => ?_, ?_⟩ }
  · rw [hf.length]; exact hr.constraint.1 p hp
  · rw [← hr.constraint.2, List.map_inj_left]
    exact fun p hp => hf.con p (hN p (by simpa using hp))


theorem ConsReadAs.any {h : Heap} {ps : List Nat} {cons : List Constraint}
    (hr : h.ConsReadAs ps cons) (q : Constraint → Bool) :
    cons.any q = ps.any fun p => q (h.con p) := by
  rw [← hr.2]; simp [List.any_eq]

theorem ConsReadAs.filter {h : Heap} {ps : List Nat} {cons : List Constraint}
    (q : Constraint → Bool) (hr : h.ConsReadAs ps cons) :
    h.ConsReadAs (ps.filter fun p => q (h.con p)) (cons.filter q) :=
  ⟨fun p hp => hr.1 p (List.mem_of_mem_filter hp), by rw [← hr.2, List.filter_map]; rfl⟩

theorem SpecReadAs.setCons {h : Heap} {s : AlterTableSpec} {v : AlterSpec} (st : Arrays Nat)
    (hr : h.SpecReadAs s v) : (consStore.set h st).SpecReadAs s v :=
  ⟨hr.1, hr.2, hr.3, hr.4, hr.5, hr.6, hr.7, hr.8⟩

theorem ConsAt.mono {P Q : Nat → Prop} {h : Heap} {s : Slice} {cons : List Constraint}
    (hPQ : ∀ p, P p → Q p) (hc : h.ConsAt P s cons) : h.ConsAt Q s cons :=
  ⟨hc.1, hc.2.1, fun p hp => hPQ p (hc.2.2 p hp)⟩

end Heap

/-- A run of a constraint phase from `h` and `t` agrees with the value result `r`: both give up,
or the phase's table shows the constraints `r` gives, every pointer satisfying `P`, with the name
and the columns of `t`. Either way the phase wrote nothing of the columns and nothing of the
constraint objects from `N` on. -/
def ConAgrees (N : Nat) (P : Nat → Prop) (t : CreateTableStmt) (h : Heap) :
    Except Panic (Option CreateTableStmt × Heap) → Option (List Constraint) → Prop
  | run, none => ∃ h', run = .ok (none, h') ∧ Heap.ConFrame N h h'
  | run, some cons => ∃ h' t', run = .ok (some t', h') ∧ Heap.ConFrame N h h' ∧
      t'.table = t.table ∧ t'.cols = t.cols ∧ h'.ConsAt P t'.constraints cons

section ConAgrees

variable {N : Nat} {P : Nat → Prop} {t : CreateTableStmt} {h : Heap}

theorem ConAgrees.pure {cons : List Constraint} (hc : h.ConsAt P t.constraints cons) :
    ConAgrees N P t h (.ok (some t, h)) (some cons) :=
  ⟨h, t, rfl, .refl N h, rfl, rfl, hc⟩

theorem ConAgrees.none : ConAgrees N P t h (.ok (none, h)) none :=
  ⟨h, rfl, .refl N h⟩

theorem ConAgrees.from_frame {t' : CreateTableStmt} {h' : Heap}
    {run : Except Panic (Option CreateTableStmt × Heap)} {r : Option (List Constraint)}
    (ha : ConAgrees N P t' h' run r) (hf : Heap.ConFrame N h h') (ht : t'.table = t.table)
    (hc : t'.cols = t.cols) : ConAgrees N P t h run r := by
  cases r with
  | none => obtain ⟨h'', hrun, hf'⟩ := ha; exact ⟨h'', hrun, hf.trans hf'⟩
  | some cons =>
    obtain ⟨h'', t'', hrun, hf', h1, h2, hc'⟩ := ha
    exact ⟨h'', t'', hrun, hf.trans hf', h1.trans ht, h2.trans hc, hc'⟩

end ConAgrees

/-! ## DROP INDEX -/

theorem deleteWhere_dropIndex {P : Nat → Prop} (h : Heap) (s : Slice) (cons : List Constraint)
    {n : String} (hc : h.ConsAt P s cons)
    (hd : cons.Pairwise fun a b => a.name = b.name → a.name = "") (hn : n ≠ "") :
    (cons.any (·.name == n) = true → ∃ st s',
        consStore.deleteWhere (fun h c => (h.con c).name == n) s 0 s.len s false h =
          .ok ((s', true), consStore.set h st) ∧
        (consStore.set h st).ConsAt P s' (cons.filter (·.name != n))) ∧
    (cons.any (·.name == n) = false → consStore.deleteWhere (fun h c => (h.con c).name == n)
        s 0 s.len s false h = .ok ((s, false), h)) := by
  obtain ⟨hfit, hr, hP⟩ := hc
  have hd' := hr.2 ▸ hd
  rw [List.pairwise_map] at hd'
  obtain ⟨hyes, hno⟩ := Store.deleteWhere_atMostOne consStore
    (fun h c => (h.con c).name == n) s h hfit (fun _ _ _ => rfl)
    fun m j hm hj hpm hpj => by
      simp only [beq_iff_eq] at hpm hpj
      by_contra hne
      rcases Nat.lt_or_gt_of_ne hne with hlt | hlt
      · exact hn (hpm ▸ List.pairwise_iff_getElem.mp hd' m j hm hj hlt (hpm.trans hpj.symm))
      · exact hn (hpj ▸ List.pairwise_iff_getElem.mp hd' j m hj hm hlt (hpj.trans hpm.symm))
  rw [hr.any]
  refine ⟨fun hhas => ?_, hno⟩
  obtain ⟨r, hrun, hfit', helems⟩ := hyes hhas
  refine ⟨r.1, r.2, hrun, hfit', ?_, ?_⟩
  · show h.ConsReadAs (r.1.elems r.2) _
    rw [helems]
    exact hr.filter (·.name != n)
  · show ∀ p ∈ r.1.elems r.2, P p
    rw [helems]
    exact fun p hp => hP p (List.mem_of_mem_filter hp)

theorem dropIndexes_agrees {N : Nat} {P : Nat → Prop} (specs : List AlterTableSpec) :
    ∀ (vs : List AlterSpec) (h : Heap) (t : CreateTableStmt) (cons : List Constraint),
    List.Forall₂ h.SpecReadAs specs vs → (∀ v ∈ vs, v.name ≠ "") →
    h.ConsAt P t.constraints cons → cons.Pairwise (fun a b => a.name = b.name → a.name = "") →
    ConAgrees N P t h (dropIndexes specs t h) (vs.foldlM dropIndex cons) := by
  induction specs with
  | nil =>
    intro vs h t cons hs _ hc _
    cases hs
    exact ConAgrees.pure hc
  | cons spec specs ih =>
    intro vs h t cons hs hn hc hd
    cases hs with
    | cons hsv hs =>
    rename_i v vs
    obtain ⟨hyes, hno⟩ := deleteWhere_dropIndex h t.constraints cons hc hd
      (hsv.name ▸ hn v (List.mem_cons_self _ _))
    rw [hsv.name] at hyes hno
    cases hhas : cons.any (·.name == v.name)
    · have hv : dropIndex cons v = none := by simp [dropIndex, hhas]
      simp only [dropIndexes, bind, StateT.bind, hsv.name, hno hhas, List.foldlM_cons, hv]
      exact ConAgrees.none
    · obtain ⟨st, s', hdel, hc'⟩ := hyes hhas
      have hv : dropIndex cons v = some (cons.filter (·.name != v.name)) := by
        simp [dropIndex, hhas]
      simp only [dropIndexes, bind, StateT.bind, hsv.name, hdel, List.foldlM_cons, hv]
      exact (ih vs _ { t with constraints := s' } _ (hs.imp fun _ _ hr => hr.setCons st)
        (fun v hv => hn v (List.mem_cons_of_mem _ hv)) hc' (hd.filter _)).from_frame
        (Heap.ConFrame.consStore h st) rfl rfl

/-! ## RENAME INDEX -/

theorem renameIndexLoop_succ (spec : AlterTableSpec) (s0 : Slice) (h : Heap) {i : Nat} (k : Nat)
    (found : Bool) (hi : i < s0.len) :
    renameIndexLoop spec s0 i (k + 1) found h =
      if (h.con ((h.conArrs.elems s0).getD i default)).name == spec.fromKey.o then
        renameIndexLoop spec s0 (i + 1) k true
          (h.setConName ((h.conArrs.elems s0).getD i default) spec.toKey.o)
      else renameIndexLoop spec s0 (i + 1) k found h := by
  have hx : consStore.index s0 i h = .ok ((h.conArrs.elems s0).getD i default, h) := by
    unfold Store.index; rw [Arrays.index_eq hi, Arrays.getD_elems _ hi]; rfl
  have hg : (getThe Heap : GoM Heap) h = .ok (h, h) := rfl
  simp only [renameIndexLoop, bind, StateT.bind, hx, hg, Except.bind]
  split <;> rfl

/-- The constraint objects `cs` are those of `h0`, with the ones `S` points to passed through
`g`. -/
def RenamedAt (g : Constraint → Constraint) (h0 : Heap) (S : List Nat) (cs : List Constraint) :
    Prop :=
  cs.length = h0.constraints.length ∧
    ∀ q, cs.getD q default = if q ∈ S then g (h0.con q) else h0.con q

theorem RenamedAt.snoc {g : Constraint → Constraint} {h0 : Heap} {S : List Nat}
    {cs : List Constraint} {p : Nat} (hr : RenamedAt g h0 S cs)
    (hcs : cs.getD p default = g (h0.con p)) : RenamedAt g h0 (S ++ [p]) cs := by
  refine ⟨hr.1, fun q => ?_⟩
  by_cases hq : q = p
  · subst hq; rw [hcs]; simp
  · rw [hr.2 q]; simp [hq]

theorem RenamedAt.set {g : Constraint → Constraint} {h0 : Heap} {S : List Nat}
    {cs : List Constraint} {p : Nat} (hr : RenamedAt g h0 S cs) (hp : p < cs.length) :
    RenamedAt g h0 (S ++ [p]) (cs.set p (g (h0.con p))) := by
  refine ⟨by rw [List.length_set, hr.1], fun q => ?_⟩
  by_cases hq : q = p
  · subst hq; simp [hp]
  · rw [List.getD_eq_getElem?_getD, List.getElem?_set_ne (Ne.symm hq),
      ← List.getD_eq_getElem?_getD, hr.2 q]
    simp [hq]

theorem renameIndexLoop_run (spec : AlterTableSpec) (s0 : Slice) (h0 : Heap) (A : List Nat)
    (hA : h0.conArrs.elems s0 = A) (hl : A.length = s0.len)
    (hlt : ∀ p ∈ A, p < h0.constraints.length) :
    ∀ k i found cs, i + k = A.length →
      RenamedAt (renameConstraint spec.fromKey.o spec.toKey.o) h0 (A.take i) cs →
      ((A.take i).any (fun p => (h0.con p).name == spec.fromKey.o) = true → found = true) →
      ∃ cs', renameIndexLoop spec s0 i k found { h0 with constraints := cs } =
          .ok (found || (A.drop i).any (fun p => (h0.con p).name == spec.fromKey.o),
            { h0 with constraints := cs' }) ∧
        RenamedAt (renameConstraint spec.fromKey.o spec.toKey.o) h0 A cs' := by
  intro k
  induction k with
  | zero =>
    intro i found cs hik hr _
    rw [Nat.add_zero] at hik
    subst hik
    refine ⟨cs, ?_, by rwa [List.take_length] at hr⟩
    simp [renameIndexLoop]; rfl
  | succ k ih =>
    intro i found cs hik hr hf
    have hi : i < A.length := by omega
    have hcon : ∀ q, ({ h0 with constraints := cs } : Heap).con q = cs.getD q default :=
      fun _ => rfl
    have hconArrs : ({ h0 with constraints := cs } : Heap).conArrs = h0.conArrs := rfl
    have hget : (h0.conArrs.elems s0).getD i default = A[i] := by
      rw [hA, List.getD_eq_getElem _ _ hi]
    rw [renameIndexLoop_succ spec s0 _ k found (hl ▸ hi), hconArrs, hget, hcon]
    have htake : A.take (i + 1) = A.take i ++ [A[i]] := by
      rw [List.take_succ, List.getElem?_eq_getElem hi]; rfl
    have hdrop : A.drop i = A[i] :: A.drop (i + 1) := List.drop_eq_getElem_cons hi
    have hcur := hr.2 A[i]
    have hp : A[i] < cs.length := hr.1 ▸ hlt _ (List.getElem_mem _)
    have hgcur : renameConstraint spec.fromKey.o spec.toKey.o (cs.getD A[i] default) =
        renameConstraint spec.fromKey.o spec.toKey.o (h0.con A[i]) := by
      rw [hcur]; split <;> simp
    split
    · -- the object has the old name: the loop renames it
      rename_i hm
      have hm0 : (h0.con A[i]).name = spec.fromKey.o := by
        rw [hcur] at hm
        split at hm
        · exact name_of_renameConstraint (beq_iff_eq.mp hm)
        · exact beq_iff_eq.mp hm
      have hset : ({ h0 with constraints := cs } : Heap).setConName A[i] spec.toKey.o =
          { h0 with
            constraints := cs.set A[i] (renameConstraint spec.fromKey.o spec.toKey.o (h0.con A[i])) } := by
        rw [← hgcur, renameConstraint, if_pos hm]; rfl
      obtain ⟨cs', hrun, hr'⟩ := ih (i + 1) true _ (by omega) (htake ▸ hr.set hp) fun _ => rfl
      refine ⟨cs', ?_, hr'⟩
      rw [hset, hrun, hdrop, List.any_cons, hm0, beq_self_eq_true, Bool.true_or, Bool.or_true]
    · -- it has not: it already reads renamed, and the flag already counts it
      rename_i hm
      have hcs : cs.getD A[i] default = renameConstraint spec.fromKey.o spec.toKey.o (h0.con A[i]) := by
        rw [← hgcur, renameConstraint, if_neg hm]
      have hm0 : (h0.con A[i]).name = spec.fromKey.o → found = true := fun he => hf <| by
        by_cases hin : A[i] ∈ A.take i
        · exact List.any_eq_true.mpr ⟨A[i], hin, by simp [he]⟩
        · rw [hcur, if_neg hin] at hm; simp [he] at hm
      obtain ⟨cs', hrun, hr'⟩ := ih (i + 1) found cs (by omega) (htake ▸ hr.snoc hcs)
        fun hany => by
          rw [htake, List.any_append, Bool.or_eq_true] at hany
          rcases hany with hany | hany
          · exact hf hany
          · exact hm0 (by simpa using hany)
      refine ⟨cs', hrun.trans ?_, hr'⟩
      rw [hdrop, List.any_cons]
      cases he : (h0.con A[i]).name == spec.fromKey.o
      · rfl
      · simp [hm0 (beq_iff_eq.mp he)]

theorem Heap.forall₂_frame {N : Nat} {h h' : Heap} {specs : List AlterTableSpec}
    {vs : List AlterSpec} (hf : Heap.ConFrame N h h') (hN : ∀ s ∈ specs, ∀ p ∈ s.constraint, N ≤ p)
    (hs : List.Forall₂ h.SpecReadAs specs vs) : List.Forall₂ h'.SpecReadAs specs vs := by
  induction hs with
  | nil => exact .nil
  | cons hr _ ih =>
    exact .cons (hr.frame hf (hN _ (List.mem_cons_self _ _)))
      (ih fun s hs => hN s (List.mem_cons_of_mem _ hs))

theorem renameIndexLoop_agrees {N : Nat} {P : Nat → Prop} (hPN : ∀ p, P p → p < N)
    (spec : AlterTableSpec) (h : Heap) (s : Slice) (cons : List Constraint)
    (hc : h.ConsAt P s cons) :
    ∃ h', renameIndexLoop spec s 0 s.len false h = .ok (cons.any (·.name == spec.fromKey.o), h') ∧
      Heap.ConFrame N h h' ∧
      h'.ConsAt P s (cons.map (renameConstraint spec.fromKey.o spec.toKey.o)) := by
  obtain ⟨hfit, hr, hP⟩ := hc
  obtain ⟨cs', hrun, hr'⟩ := renameIndexLoop_run spec s h _ rfl (Arrays.elems_length hfit) hr.1
    s.len 0 false h.constraints (by rw [Nat.zero_add, Arrays.elems_length hfit])
    ⟨rfl, fun q => by rw [List.take_zero, if_neg (List.not_mem_nil q)]; rfl⟩
    fun hany => by simp at hany
  have hrun' : renameIndexLoop spec s 0 s.len false h = _ := hrun
  refine ⟨{ h with constraints := cs' }, by rw [hrun', hr.any]; simp, ⟨rfl, rfl, rfl, rfl, hr'.1,
    fun p hp => ?_⟩, hfit, ⟨fun p hp => hr'.1 ▸ hr.1 p hp, ?_⟩, hP⟩
  · show cs'.getD p default = _
    rw [hr'.2, if_neg fun hin => absurd (hPN p (hP p hin)) (by omega)]
  · show (h.conArrs.elems s).map (fun p => cs'.getD p default) = _
    rw [← hr.2, List.map_map]
    exact List.map_congr_left fun p hp => by rw [hr'.2, if_pos hp]; rfl

theorem renameIndexes_agrees {N : Nat} {P : Nat → Prop} (hPN : ∀ p, P p → p < N)
    (specs : List AlterTableSpec) :
    ∀ (vs : List AlterSpec) (h : Heap) (t : CreateTableStmt) (cons : List Constraint),
    List.Forall₂ h.SpecReadAs specs vs → (∀ s ∈ specs, ∀ p ∈ s.constraint, N ≤ p) →
    h.ConsAt P t.constraints cons →
    ConAgrees N P t h (renameIndexes specs t h) (vs.foldlM renameIndex cons) := by
  induction specs with
  | nil =>
    intro vs h t cons hs _ hc
    cases hs
    exact ConAgrees.pure hc
  | cons spec specs ih =>
    intro vs h t cons hs hN hc
    cases hs with
    | cons hsv hs =>
    rename_i v vs
    have hN' : ∀ s ∈ specs, ∀ p ∈ s.constraint, N ≤ p := fun s hs => hN s (List.mem_cons_of_mem _ hs)
    obtain ⟨h', hrun, hf, hc'⟩ := renameIndexLoop_agrees hPN spec h t.constraints cons hc
    rw [hsv.fromKey] at hrun hc'
    rw [hsv.toKey] at hc'
    simp only [renameIndexes, bind, StateT.bind, hrun, List.foldlM_cons, renameIndex]
    cases cons.any (·.name == v.fromKey.o)
    · exact ⟨h', rfl, hf⟩
    · exact (ih vs h' t _ (Heap.forall₂_frame hf hN' hs) hN' hc').from_frame hf rfl rfl

/-! ## ADD CONSTRAINT -/

theorem mapM_deref_ok : ∀ (parts : List IndexPartSpecification), (∀ x ∈ parts, x.column.isSome) →
    ∃ names, parts.mapM (fun part => deref (part.column.map (·.l))) = .ok names
  | [], _ => ⟨[], rfl⟩
  | x :: xs, hx => by
    obtain ⟨n, hn⟩ := Option.isSome_iff_exists.mp (hx x (List.mem_cons_self _ _))
    obtain ⟨names, hnames⟩ := mapM_deref_ok xs fun y hy => hx y (List.mem_cons_of_mem _ hy)
    exact ⟨n.l :: names, by simp only [List.mapM_cons, hnames, hn]; rfl⟩

theorem not_isEmpty_filter {α : Type} (l : List α) (q : α → Bool) :
    (!(l.filter q).isEmpty) = l.any q := by
  induction l with
  | nil => rfl
  | cons x xs ih => by_cases hx : q x <;> simp [List.filter_cons, hx, ih]

theorem hasPrimaryKey_eq {P : Nat → Prop} {h : Heap} {t : CreateTableStmt} {cols : List Column}
    {cons : List Constraint} (hc : h.ColsAt t.cols cols) (hk : h.ConsAt P t.constraints cons)
    (hpk : ∀ k ∈ cons, pkPartsNamed k) :
    hasPrimaryKey h t = .ok (tableHasPrimaryKey cols cons) := by
  obtain ⟨names, hnames⟩ := mapM_deref_ok ((cons.filter (·.tp == .primaryKey)).flatMap (·.keys))
    fun x hx => by
      obtain ⟨k, hk, hx⟩ := List.mem_flatMap.mp hx
      obtain ⟨hk, htp⟩ := List.mem_filter.mp hk
      have := hpk k hk
      simp only [pkPartsNamed, beq_iff_eq.mp htp, bne_self_eq_false, Bool.false_or,
        List.all_eq_true] at this
      exact this x hx
  have hcols : ((h.colArrs.elems t.cols).map h.col).any
      (fun col => hasOneInOptions (h.optArrs.elems col.options) [.primaryKey]) =
      cols.any fun c => hasOneInOptions c.options [.primaryKey] := by
    rw [← hc.2.2]; simp [List.any_eq, Heap.readColumn]
  simp only [hasPrimaryKey, getPrimaryKey, hk.2.1.2, hnames, not_isEmpty_filter, hcols,
    tableHasPrimaryKey]
  cases cons.any (·.tp == .primaryKey) <;> rfl

theorem addConstraints_agrees {N : Nat} (specs : List AlterTableSpec) :
    ∀ (vs : List AlterSpec) (h : Heap) (t : CreateTableStmt) (cols : List Column)
      (cons : List Constraint),
    List.Forall₂ h.SpecReadAs specs vs → (∀ v ∈ vs, v.constraint.isSome) →
    (∀ v ∈ vs, ∀ k ∈ v.constraint, pkPartsNamed k) → h.ColsAt t.cols cols →
    h.ConsAt (fun _ => True) t.constraints cons → (∀ k ∈ cons, pkPartsNamed k) →
    ConAgrees N (fun _ => True) t h (addConstraints specs t h)
      (vs.foldlM (addConstraint cols) cons) := by
  induction specs with
  | nil =>
    intro vs h t cols cons hs _ _ _ hk _
    cases hs
    exact ConAgrees.pure hk
  | cons spec specs ih =>
    intro vs h t cols cons hs hsome hpkv hc hk hpk
    cases hs with
    | cons hsv hs =>
    rename_i v vs
    obtain ⟨c, hsc, hvc, hcl⟩ : ∃ c, spec.constraint = some c ∧ v.constraint = some (h.con c) ∧
        c < h.constraints.length := by
      obtain ⟨hb, hm⟩ := hsv.constraint
      obtain ⟨vc, hv⟩ := Option.isSome_iff_exists.mp (hsome v (List.mem_cons_self _ _))
      rw [hv] at hm ⊢
      cases hsc : spec.constraint with
      | none => rw [hsc] at hm; cases hm
      | some c =>
        rw [hsc] at hm hb
        exact ⟨c, rfl, by simpa using hm.symm, hb c (List.mem_singleton_self c)⟩
    have hg : ∀ h : Heap, (getThe Heap : GoM Heap) h = .ok (h, h) := fun _ => rfl
    simp only [addConstraints, bind, StateT.bind, hsc, hg, List.foldlM_cons, addConstraint, hvc,
      Option.getD_some, deref, StateT.lift, Except.bind, pure, Except.pure]
    have hcont : ∀ b : Bool, ConAgrees N (fun _ => True) t h
        ((if b = true then StateT.pure none else
          StateT.bind (consStore.append t.constraints [c]) fun cons =>
            addConstraints specs { t with constraints := cons }) h)
        ((if b = true then none else some (cons ++ [h.con c])).bind fun a =>
          vs.foldlM (addConstraint cols) a) := by
      intro b
      cases b
      · obtain ⟨he, hfit⟩ := Arrays.elems_append [c] hk.1
        refine (ih vs (consStore.set h (h.conArrs.append t.constraints [c]).1)
          { t with constraints := (h.conArrs.append t.constraints [c]).2 } cols _
          (hs.imp fun _ _ hr => hr.setCons _)
          (fun v hv => hsome v (List.mem_cons_of_mem _ hv))
          (fun v hv => hpkv v (List.mem_cons_of_mem _ hv)) hc
          ⟨hfit, ?_, fun _ _ => trivial⟩ fun k hk => ?_).from_frame
          (Heap.ConFrame.consStore h _) rfl rfl
        · show h.ConsReadAs ((h.conArrs.append t.constraints [c]).1.elems _) _
          rw [he]
          exact hk.2.1.append ⟨by simpa using hcl, rfl⟩
        · rcases List.mem_append.mp hk with hk | hk
          · exact hpk k hk
          · rw [List.mem_singleton.mp hk]
            exact hpkv v (List.mem_cons_self _ _) _ hvc
      · exact ConAgrees.none
    cases htp : (h.con c).tp
    case primaryKey =>
      rw [hasPrimaryKey_eq hc hk hpk]
      exact hcont _
    all_goals
      rw [← hk.2.1.any (·.name == (h.con c).name)]
      exact hcont _

theorem runPhases_cons_con {β : Type} {N : Nat} {P : Nat → Prop}
    {R : Except Panic (Option CreateTableStmt × Heap) → Option β → Prop}
    {f : CreateTableStmt → GoM (Option CreateTableStmt)}
    {fs : List (CreateTableStmt → GoM (Option CreateTableStmt))} {t : CreateTableStmt} {h : Heap}
    {r : Option (List Constraint)} {k : List Constraint → Option β}
    (ha : ConAgrees N P t h (f t h) r) (hnone : ∀ h', R (.ok (none, h')) none)
    (hrest : ∀ h' t' cons, r = some cons → Heap.ConFrame N h h' → t'.table = t.table →
      t'.cols = t.cols → h'.ConsAt P t'.constraints cons → R (runPhases fs t' h') (k cons)) :
    R (runPhases (f :: fs) t h) (r.bind k) := by
  cases r with
  | none =>
    obtain ⟨h', hrun, -⟩ := ha
    simp only [runPhases, bind, StateT.bind, hrun, Except.bind, Option.none_bind]
    exact hnone _
  | some cons =>
    obtain ⟨h', t', hrun, hf, ht, hc, hk⟩ := ha
    simp only [runPhases, bind, StateT.bind, hrun, Except.bind, Option.some_bind]
    exact hrest h' t' cons rfl hf ht hc hk

end Ast
end Dtle
