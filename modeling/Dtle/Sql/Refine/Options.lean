import Dtle.Sql.Refine.Constraints
import Dtle.Sql.FoldAll
import Dtle.Sql.Frame

/-!
# Dtle.Sql.Refine.Options

ALTER COLUMN and DROP PRIMARY KEY compute the full fold of `Dtle.Sql.FoldAll` on the columns and
constraints of a table.

These phases write through the table's `*ColumnDef` pointers: `col.Options = ...`, and the
option arrays in place (the delete idiom, `col.Options[i] = ...`, an `append` within the
capacity). What keeps such a write to one column is that no two column objects share an option
array (`Heap.OptsSep`); then a write to one column's options leaves every other column object,
and what it reads as, alone (`Heap.OptFrame`).

* `Heap.OptsSep.write` — one write through a column's options header;
* `alterColumnOptions_spec` — DROP DEFAULT and SET DEFAULT on one column;
* `EditLoop.run` — a loop that edits the columns of a slice it picks, whatever the aliasing of
  the slice's pointers, for an idempotent edit;
* `PhaseAgrees` — a phase of `runPhases` against a step of the fold: both give up, or the phase
  hands on a table that relates to the fold's value;
* `alterColumns_agrees`, `dropPrimaryKeys_agrees` — the two phases, by induction over their
  specs, on a heap where every column reads with at most one DEFAULT and one PRIMARY KEY option
  (`Heap.AllSingle`).
-/

namespace Dtle
namespace Ast

open Go Ddl

namespace Heap

/-- The options headers of the column objects: each fits its array and is over an array of the
store, and no two objects share an array. -/
structure OptsSep (h : Heap) : Prop where
  fits : ∀ p < h.colDefs.length, h.optArrs.Fits (h.col p).options
  valid : ∀ p < h.colDefs.length, ∀ a, (h.col p).options.ptr = some a → a < h.optArrs.length
  unshared : ∀ p < h.colDefs.length, ∀ q < h.colDefs.length, p ≠ q →
    ∀ a, (h.col p).options.ptr = some a → (h.col q).options.ptr ≠ some a

/-- What a run of the option phases leaves: the tables, the column arrays and the constraint
objects, the name and type of every column, every column object outside `S` with what it reads
as, and separate options. -/
structure OptFrame (S : Nat → Prop) (h h' : Heap) : Prop where
  tables : h'.tables = h.tables
  colArrs : h'.colArrs = h.colArrs
  constraints : h'.constraints = h.constraints
  length : h'.colDefs.length = h.colDefs.length
  sep : h'.OptsSep
  name : ∀ p, (h'.col p).name = (h.col p).name ∧ (h'.col p).tp = (h.col p).tp
  other : ∀ p, ¬ S p → h'.col p = h.col p ∧ h'.readColumn p = h.readColumn p

theorem OptFrame.refl (S : Nat → Prop) {h : Heap} (hs : h.OptsSep) : OptFrame S h h :=
  ⟨rfl, rfl, rfl, rfl, ⟨hs.fits, hs.valid, hs.unshared⟩, fun _ => ⟨rfl, rfl⟩, fun _ _ => ⟨rfl, rfl⟩⟩

theorem OptFrame.trans {S : Nat → Prop} {h₁ h₂ h₃ : Heap} (a : OptFrame S h₁ h₂)
    (b : OptFrame S h₂ h₃) : OptFrame S h₁ h₃ :=
  ⟨b.1.trans a.1, b.2.trans a.2, b.3.trans a.3, b.4.trans a.4, b.5,
    fun p => ⟨(b.6 p).1.trans (a.6 p).1, (b.6 p).2.trans (a.6 p).2⟩,
    fun p hp => ⟨(b.7 p hp).1.trans (a.7 p hp).1, (b.7 p hp).2.trans (a.7 p hp).2⟩⟩

theorem OptFrame.mono {S T : Nat → Prop} {h h' : Heap} (hST : ∀ p, S p → T p)
    (a : OptFrame S h h') : OptFrame T h h' :=
  { a with other := fun p hp => a.other p fun hs => hp (hST p hs) }

theorem col_of_length_le {h : Heap} {p : Nat} (hp : h.colDefs.length ≤ p) : h.col p = default := by
  simp [col, List.getD_eq_getElem?_getD, List.getElem?_eq_none hp]

theorem options_ptr_of_length_le {h : Heap} {p : Nat} (hp : h.colDefs.length ≤ p) :
    (h.col p).options.ptr = none := by
  rw [col_of_length_le hp]; rfl

theorem OptsSep.elems_other {h : Heap} (hs : h.OptsSep) {q r : Nat} (hq : q < h.colDefs.length)
    (hrq : r ≠ q) {st : Arrays ColumnOption} {s' : Slice}
    (hw : Arrays.Rewrites h.optArrs st (h.col q).options s') :
    st.elems (h.col r).options = h.optArrs.elems (h.col r).options ∧ st.Fits (h.col r).options := by
  by_cases hrl : r < h.colDefs.length
  · cases hp : (h.col r).options.ptr with
    | none =>
      have := Arrays.elems_of_array_nil (hs.fits r hrl) (by rw [hp]; rfl)
      exact ⟨(this st).1.trans (this h.optArrs).1.symm, (this st).2⟩
    | some a =>
      exact hw.frame _ (fun he => hs.unshared r hrl q hq hrq a hp (he ▸ hp)) (hs.fits r hrl)
  · rw [col_of_length_le (not_lt.mp hrl)]
    exact ⟨rfl, ⟨Nat.le_refl 0, Nat.le_refl _⟩⟩

theorem OptsSep.write {h : Heap} (hs : h.OptsSep) {q : Nat} (hq : q < h.colDefs.length)
    {st : Arrays ColumnOption} {s' : Slice}
    (hw : Arrays.Rewrites h.optArrs st (h.col q).options s') :
    OptFrame (· = q) h (({ h with optArrs := st } : Heap).setColOptions q s') ∧
      (({ h with optArrs := st } : Heap).setColOptions q s').readColumn q =
        { h.readColumn q with options := st.elems s' } := by
  have hcol : ∀ r, (({ h with optArrs := st } : Heap).setColOptions q s').col r =
      if r = q then { h.col q with options := s' } else h.col r :=
    fun r => col_setColOptions { h with optArrs := st } q r s' hq
  have hq' : ∀ r, r ≠ q → ∀ a, (h.col r).options.ptr = some a → (h.col q).options.ptr ≠ some a ∧
      (a < h.optArrs.length) := fun r hrq a hp => by
    have hrl : r < h.colDefs.length := by
      by_contra hl; rw [options_ptr_of_length_le (not_lt.mp hl)] at hp; cases hp
    exact ⟨fun he => hs.unshared r hrl q hq hrq a hp he, hs.valid r hrl a hp⟩
  have hlen : (({ h with optArrs := st } : Heap).setColOptions q s').colDefs.length =
      h.colDefs.length := by simp [setColOptions]
  refine ⟨⟨rfl, rfl, rfl, hlen,
    ⟨fun r hr => ?_, fun r hr a ha => ?_, fun r hr r' hr' hne a ha => ?_⟩,
    fun r => by rw [hcol]; split <;> simp_all, fun r hrq => ?_⟩, ?_⟩
  · rw [hcol]; split
    · exact hw.fits
    · exact (hs.elems_other hq (by assumption) hw).2
  · rw [hlen] at hr
    show a < st.length
    rw [hcol] at ha; split at ha
    · rcases hw.ptr with hp | ⟨b, hp, -, hb⟩
      · exact Nat.lt_of_lt_of_le (hs.valid q hq a (hp ▸ ha)) hw.length
      · rw [hp] at ha; cases ha; exact hb
    · exact Nat.lt_of_lt_of_le (hq' r (by assumption) a ha).2 hw.length
  · rw [hcol] at ha; rw [hcol]
    have hfresh : ∀ r, r ≠ q → ∀ a, (h.col r).options.ptr = some a → s'.ptr ≠ some a := by
      intro r hrq a hp hs'
      rcases hw.ptr with hp' | ⟨b, hp', hb, -⟩
      · exact (hq' r hrq a hp).1 (hp' ▸ hs')
      · rw [hp'] at hs'; obtain rfl := Option.some.inj hs'
        exact absurd (hq' r hrq b hp).2 (by omega)
    split at ha <;> split
    · subst_vars; exact absurd rfl hne
    · exact fun he => hfresh r' (by assumption) a he ha
    · exact fun he => hfresh r (by assumption) a ha he
    · exact hs.unshared r (by simpa [hlen] using hr) r' (by simpa [hlen] using hr') hne a ha
  · have hr' := hs.elems_other hq hrq hw
    rw [hcol, if_neg hrq]
    exact ⟨rfl, by simp only [readColumn, hcol, if_neg hrq, setColOptions_optArrs, hr'.1]⟩
  · simp only [readColumn, hcol, setColOptions_optArrs, ite_true]

theorem setColOptions_self {h : Heap} {q : Nat} (hq : q < h.colDefs.length) :
    h.setColOptions q (h.col q).options = h := by
  have : h.colDefs.set q (h.col q) = h.colDefs := List.ext_getElem (by simp) fun j _ _ => by
    by_cases hj : q = j
    · subst hj; simp [col, List.getD_eq_getElem?_getD, hq]
    · simp [List.getElem_set, hj]
  simp only [setColOptions, this]

end Heap

/-! ## The options of one column -/

theorem eq_of_countP_le_one {α : Type} (q : α → Bool) :
    ∀ (l : List α) (m j : Nat) (hm : m < l.length) (hj : j < l.length), l.countP q ≤ 1 →
      q l[m] → q l[j] → m = j
  | _ :: _, 0, 0, _, _, _, _, _ => rfl
  | x :: l, 0, j + 1, _, hj, hc, hm, hq => by
    have : 0 < l.countP q := List.countP_pos_iff.mpr ⟨_, List.getElem_mem (by simpa using hj), hq⟩
    rw [List.countP_cons_of_pos q l (a := x) hm] at hc; omega
  | x :: l, m + 1, 0, hm', _, hc, hm, hq => by
    have : 0 < l.countP q := List.countP_pos_iff.mpr ⟨_, List.getElem_mem (by simpa using hm'), hm⟩
    rw [List.countP_cons_of_pos q l (a := x) hq] at hc; omega
  | x :: l, m + 1, j + 1, hm', hj, hc, hm, hq => by
    rw [List.countP_cons] at hc
    exact congrArg (· + 1) (eq_of_countP_le_one q l m j (by simpa using hm') (by simpa using hj)
      (by omega) hm hq)

theorem optsStore_deleteWhere_rewrites (p : Heap → ColumnOption → Bool) (s0 : Slice) :
    ∀ i k (s : Slice) found (h : Heap) r h', i + k ≤ s0.len → h.optArrs.Fits s →
      optsStore.deleteWhere p s0 i k s found h = .ok (r, h') →
      h' = { h with optArrs := h'.optArrs } ∧ Arrays.Rewrites h.optArrs h'.optArrs s r.1
  | _, 0, s, found, h, r, h', _, hfit, hrun => by
    cases hrun; exact ⟨rfl, .refl hfit⟩
  | i, k + 1, s, found, h, r, h', hik, hfit, hrun => by
    rw [Store.deleteWhere_succ optsStore p s0 h k s found (by omega)] at hrun
    split at hrun
    · split at hrun
      · next r' hd =>
        have hw := Arrays.Rewrites.deleteAt hfit hd
        obtain ⟨he, hr⟩ :=
          optsStore_deleteWhere_rewrites p s0 (i + 1) k r'.2 true _ r h' (by omega) hw.fits hrun
        exact ⟨he, hw.trans hr⟩
      · cases hrun
    · exact optsStore_deleteWhere_rewrites p s0 (i + 1) k s found h r h' (by omega) hfit hrun

namespace Heap

theorem OptsSep.deleteKind {h : Heap} (hs : h.OptsSep) {q : Nat} (hq : q < h.colDefs.length)
    (k : ColumnOptionType) (hk : (h.readColumn q).options.countP (·.tp == k) ≤ 1) :
    ∃ st s' b, optsStore.deleteWhere (fun _ op => op.tp == k) (h.col q).options 0
        (h.col q).options.len (h.col q).options false h = .ok ((s', b), { h with optArrs := st }) ∧
      Arrays.Rewrites h.optArrs st (h.col q).options s' ∧
      st.elems s' = (h.readColumn q).options.filter (·.tp != k) := by
  have hfit := hs.fits q hq
  obtain ⟨hyes, hno⟩ := Store.deleteWhere_atMostOne optsStore (fun _ op => op.tp == k)
    (h.col q).options h hfit (fun _ _ _ => rfl) fun m j hm hj =>
      eq_of_countP_le_one (·.tp == k) _ m j hm hj hk
  cases hany : (h.optArrs.elems (h.col q).options).any (·.tp == k)
  · refine ⟨h.optArrs, _, false, hno hany, .refl hfit, ?_⟩
    rw [List.filter_eq_self.mpr fun op hop => by
      simpa using List.any_eq_false.mp hany op hop]; rfl
  · obtain ⟨r, hrun, -, he⟩ := hyes hany
    refine ⟨r.1, r.2, true, hrun, ?_, he⟩
    exact (optsStore_deleteWhere_rewrites _ _ 0 _ _ false h _ _ (by omega) hfit hrun).2

theorem optsStore_index (h : Heap) {s : Slice} {i : Nat} (hi : i < s.len) :
    optsStore.index s i h = .ok ((h.optArrs.elems s).getD i default, h) := by
  rw [Arrays.getD_elems _ hi]; simp [Store.index, optsStore, Arrays.index_eq hi, Except.map]

theorem OptsSep.setDefaultLoop_run {h0 : Heap} (hs : h0.OptsSep) {q x : Nat}
    (hq : q < h0.colDefs.length) (hxq : x ≠ q) {d : ColumnOption}
    (hd : (h0.readColumn x).options.head? = some d) :
    ∀ k i st, i + k = (h0.col q).options.len →
      Arrays.Rewrites h0.optArrs st (h0.col q).options (h0.col q).options →
      st.elems (h0.col q).options = ((h0.readColumn q).options.map (overwriteDefault d)).take i ++
        (h0.readColumn q).options.drop i →
      ∃ st', setDefaultLoop q x (h0.col q).options i k { h0 with optArrs := st } =
          .ok ((), { h0 with optArrs := st' }) ∧
        Arrays.Rewrites h0.optArrs st' (h0.col q).options (h0.col q).options ∧
        st'.elems (h0.col q).options = (h0.readColumn q).options.map (overwriteDefault d)
  | 0, i, st, hk, hw, he => by
    have hA := Arrays.elems_length (hs.fits q hq)
    refine ⟨st, rfl, hw, ?_⟩
    rw [he, List.drop_eq_nil_of_le (by simp [readColumn]; omega), List.append_nil,
      List.take_of_length_le (by simp [readColumn]; omega)]
  | k + 1, i, st, hk, hw, he => by
    have hA : (h0.readColumn q).options.length = (h0.col q).options.len :=
      Arrays.elems_length (hs.fits q hq)
    have hi : i < (h0.readColumn q).options.length := by omega
    have hread : (st.elems (h0.col q).options).getD i default = (h0.readColumn q).options[i] := by
      rw [he, List.drop_eq_getElem_cons hi, List.getD_eq_getElem?_getD,
        List.getElem?_append_right (List.length_take_le _ _)]
      simp [show i - min i (h0.readColumn q).options.length = 0 by omega,
        List.getElem?_eq_getElem hi]
    obtain ⟨hx, hxfit⟩ := hs.elems_other hq hxq hw
    have hnew : optsStore.index (h0.col x).options 0 { h0 with optArrs := st } =
        .ok (d, { h0 with optArrs := st }) := by
      obtain ⟨t, ht⟩ := List.head?_eq_some_iff.mp hd
      have ht' : h0.optArrs.elems (h0.col x).options = d :: t := ht
      have hlen := Arrays.elems_length hxfit
      rw [optsStore_index _ (by rw [← hlen, hx, ht']; simp)]
      simp only [hx, ht']; rfl
    simp only [setDefaultLoop, bind, StateT.bind,
      optsStore_index _ (show i < (h0.col q).options.len by omega), hread, Except.bind]
    by_cases hdef : (h0.readColumn q).options[i].tp = .defaultValue
    · have hset : st.setIndex (h0.col q).options i d = .ok (st.write (h0.col q).options.ptr
          ((h0.col q).options.off + i) [d]) := by
        simp [Arrays.setIndex, show i < (h0.col q).options.len by omega]
      obtain ⟨st', hrun, hw', he'⟩ := hs.setDefaultLoop_run hq hxq hd k (i + 1) _ (by omega)
        (hw.trans (Arrays.Rewrites.setIndex hw.fits hset)) (by
          rw [(Arrays.setIndex_ok hw.fits hset).2.1, he, ← set_take_map_append_drop _ _ hi]
          simp [overwriteDefault, hdef])
      refine ⟨st', ?_, hw', he'⟩
      simp only [hdef, beq_self_eq_true, if_true, StateT.bind]
      show (Except.bind (optsStore.index (h0.col x).options 0 { h0 with optArrs := st }) _) = _
      rw [hnew]
      simp only [Except.bind, StateT.bind, Store.setIndex]
      show Except.bind (Except.map _ (st.setIndex (h0.col q).options i d)) _ = _
      rw [hset]; exact hrun
    · obtain ⟨st', hrun, hw', he'⟩ := hs.setDefaultLoop_run hq hxq hd k (i + 1) st (by omega) hw (by
        rw [he, take_map_succ _ _ hi, List.drop_eq_getElem_cons hi]
        simp [overwriteDefault, hdef])
      exact ⟨st', by simpa [hdef] using hrun, hw', he'⟩

theorem OptsSep.alterColumnOptions_spec {h : Heap} (hs : h.OptsSep) {q x : Nat}
    (hq : q < h.colDefs.length) (hxq : x ≠ q)
    (hx : (h.col x).options.ptr.isSome → (h.readColumn x).options ≠ [])
    (hk : (h.readColumn q).options.countP (·.tp == .defaultValue) ≤ 1) :
    ∃ h', alterColumnOptions q x h = .ok ((), h') ∧ OptFrame (· = q) h h' ∧
      h'.readColumn q = (h.readColumn q).alter (h.readColumn x) := by
  have hg : (getThe Heap : GoM Heap) h = .ok (h, h) := rfl
  cases hp : (h.col x).options.ptr with
  | none =>
    have hnil : (h.readColumn x).options = [] := by
      simp [readColumn, Arrays.elems, Arrays.array, hp]
    obtain ⟨st, s', b, hrun, hw, he⟩ := hs.deleteKind hq .defaultValue hk
    obtain ⟨hf, hr⟩ := hs.write hq hw
    refine ⟨_, ?_, hf, by rw [hr, he]; simp [Column.alter, alterOptions, hnil]⟩
    simp only [alterColumnOptions, bind, StateT.bind, hg, Except.bind, hp, Option.isNone_none,
      if_true, hrun]
    rfl
  | some a =>
    obtain ⟨d, t, hdt⟩ : ∃ d t, h.optArrs.elems (h.col x).options = d :: t := by
      cases hc : (h.readColumn x).options with
      | nil => exact absurd hc (hx (by simp [hp]))
      | cons d t => exact ⟨d, t, hc⟩
    by_cases hdef : hasOneInOptions (h.optArrs.elems (h.col q).options) [.defaultValue]
    · obtain ⟨st, hrun, hw, he⟩ := hs.setDefaultLoop_run hq hxq (d := d) (by simp [readColumn, hdt])
        (h.col q).options.len 0 h.optArrs (by omega) (.refl (hs.fits q hq)) (by simp [readColumn])
      obtain ⟨hf, hr⟩ := hs.write hq hw
      have hself : ({ h with optArrs := st } : Heap).setColOptions q (h.col q).options =
          { h with optArrs := st } := setColOptions_self (h := { h with optArrs := st }) hq
      rw [hself] at hf hr
      refine ⟨_, ?_, hf, by
        rw [hr, he]; simp [Column.alter, alterOptions, hdt, readColumn, hdef]⟩
      simp only [alterColumnOptions, bind, StateT.bind, hg, Except.bind, hp, Option.isNone_some,
        if_false, Bool.false_eq_true, hdef, if_true]
      exact hrun
    · have hw := Arrays.Rewrites.append (hs.fits q hq) (h.optArrs.elems (h.col x).options)
      obtain ⟨hf, hr⟩ := hs.write hq hw
      refine ⟨_, ?_, hf, by
        rw [hr, (Arrays.elems_append _ (hs.fits q hq)).1]
        simp [Column.alter, alterOptions, hdt, readColumn, hdef]⟩
      simp only [alterColumnOptions, bind, StateT.bind, hg, Except.bind, hp, Option.isNone_some,
        if_false, Bool.false_eq_true, hdef]
      rfl

end Heap

/-! ## Loops that edit the columns of a slice -/

section EditLoop

variable {γ : Type}

/-- A loop that ranges over the column slice `s0` and runs the edit `E` on every pointer that
passes `P`, updating its flag by `g`: the range over the columns of ALTER COLUMN and of DROP
PRIMARY KEY. -/
def EditLoop (L : Nat → Nat → γ → GoM γ) (P : Heap → Nat → Bool) (E : Nat → GoM Unit)
    (g : γ → γ) (s0 : Slice) : Prop :=
  (∀ i b h, L i 0 b h = .ok (b, h)) ∧
  ∀ i k b h, i < s0.len → L i (k + 1) b h =
    if P h ((h.colArrs.array s0.ptr).getD (s0.off + i) default) then
      (E ((h.colArrs.array s0.ptr).getD (s0.off + i) default) >>= fun _ => L (i + 1) k (g b)) h
    else L (i + 1) k b h

variable {L : Nat → Nat → γ → GoM γ} {P : Heap → Nat → Bool} {E : Nat → GoM Unit} {g : γ → γ}
  {s0 : Slice} {h0 : Heap} {A : List Nat} {U : Column → Column} {Q : Column → Prop}

theorem EditLoop.run (hL : EditLoop L P E g s0) (hfit : h0.colArrs.Fits s0)
    (hA : h0.colArrs.elems s0 = A)
    (hP : ∀ h, Heap.OptFrame (· ∈ A) h0 h → ∀ p, P h p = P h0 p)
    (hE : ∀ h, Heap.OptFrame (· ∈ A) h0 h → ∀ p ∈ A, Q (h.readColumn p) →
      ∃ h', E p h = .ok ((), h') ∧ Heap.OptFrame (· = p) h h' ∧
        h'.readColumn p = U (h.readColumn p))
    (hQ : ∀ p ∈ A, Q (h0.readColumn p)) (hupd : ∀ c, Q c → Q (U c))
    (hidem : ∀ c, Q c → U (U c) = U c) :
    ∀ k i b h, i + k = s0.len → Heap.OptFrame (· ∈ A) h0 h →
      (∀ p, h.readColumn p =
        if p ∈ A.take i ∧ P h0 p then U (h0.readColumn p) else h0.readColumn p) →
      ∃ h', L i k b h = .ok ((A.drop i).foldl (fun b p => if P h0 p then g b else b) b, h') ∧
        Heap.OptFrame (· ∈ A) h0 h' ∧
        ∀ p, h'.readColumn p = if p ∈ A ∧ P h0 p then U (h0.readColumn p) else h0.readColumn p
  | 0, i, b, h, hk, hf, hr => by
    have hi : A.length ≤ i := by rw [← hA, Arrays.elems_length hfit]; omega
    exact ⟨h, by rw [hL.1, List.drop_eq_nil_of_le hi]; rfl, hf, fun p => by
      rw [hr, List.take_of_length_le hi]⟩
  | k + 1, i, b, h, hk, hf, hr => by
    have hi : i < A.length := by rw [← hA, Arrays.elems_length hfit]; omega
    have hread : (h.colArrs.array s0.ptr).getD (s0.off + i) default = A[i] := by
      rw [hf.colArrs, ← Arrays.getD_elems _ (by omega), hA, List.getD_eq_getElem _ _ hi]
    have htake : ∀ p, p ∈ A.take (i + 1) ↔ p ∈ A.take i ∨ p = A[i] := fun p => by
      rw [List.take_succ, List.getElem?_eq_getElem hi, Option.toList_some, List.mem_append,
        List.mem_singleton]
    rw [hL.2 i k b h (by omega), hread, hP h hf, List.drop_eq_getElem_cons hi, List.foldl_cons]
    by_cases hp : P h0 A[i]
    · have hQp : Q (h.readColumn A[i]) := by
        rw [hr]; split
        · exact hupd _ (hQ _ (List.getElem_mem hi))
        · exact hQ _ (List.getElem_mem hi)
      obtain ⟨h1, hE1, hf1, hr1⟩ := hE h hf A[i] (List.getElem_mem hi) hQp
      obtain ⟨h', hrun, hf', hr'⟩ := EditLoop.run hL hfit hA hP hE hQ hupd hidem k (i + 1) (g b) h1
        (by omega) (hf.trans (hf1.mono fun p (hp : p = A[i]) => hp ▸ List.getElem_mem hi))
        fun p => by
          by_cases hpi : p = A[i]
          · subst hpi
            rw [hr1, hr]
            by_cases hin : A[i] ∈ A.take i
            · simp only [hin, hp, and_self, if_true, htake, true_or]
              exact hidem _ (hQ _ (List.getElem_mem hi))
            · simp [hin, hp, htake]
          · rw [(hf1.other p hpi).2, hr]; simp [htake, hpi]
      refine ⟨h', ?_, hf', hr'⟩
      simp only [hp, if_true, bind, StateT.bind, hE1, Except.bind]
      exact hrun
    · obtain ⟨h', hrun, hf', hr'⟩ := EditLoop.run hL hfit hA hP hE hQ hupd hidem k (i + 1) b h
        (by omega) hf fun p => by
          rw [hr]
          by_cases hpi : p = A[i]
          · subst hpi; simp [hp]
          · simp [htake, hpi]
      exact ⟨h', by simpa [hp] using hrun, hf', hr'⟩

end EditLoop

theorem index_colsStore (h : Heap) {s : Slice} {i : Nat} (hi : i < s.len) :
    colsStore.index s i h = .ok ((h.colArrs.array s.ptr).getD (s.off + i) default, h) := by
  simp [Store.index, colsStore, Arrays.index_eq hi, Except.map]

theorem alterColumnLoop_editLoop (x : Nat) (s0 : Slice) :
    EditLoop (alterColumnLoop x s0) (fun h p => (h.col p).name.l == (h.col x).name.l)
      (fun p => alterColumnOptions p x) (fun _ => true) s0 := by
  refine ⟨fun _ _ _ => rfl, fun i k b h hi => ?_⟩
  have hg : (getThe Heap : GoM Heap) h = .ok (h, h) := rfl
  simp only [alterColumnLoop, bind, StateT.bind, index_colsStore h hi, hg, Except.bind]
  split_ifs <;> rfl

/-- The body of DROP PRIMARY KEY's range over the columns, on column `col`: delete its PRIMARY KEY
options while ranging over them. -/
def dropPkOptions (col : Nat) : GoM Unit := do
  let opts := ((← getThe Heap).col col).options
  let (opts', _) ← optsStore.deleteWhere (fun _ op => op.tp == .primaryKey)
    opts 0 opts.len opts false
  modifyThe Heap (·.setColOptions col opts')

theorem dropPkOptionsLoop_editLoop (s0 : Slice) :
    EditLoop (fun i k (_ : Unit) => dropPkOptionsLoop s0 i k) (fun _ _ => true) dropPkOptions id
      s0 := by
  refine ⟨fun _ _ _ => rfl, fun i k b h hi => ?_⟩
  have hg : (getThe Heap : GoM Heap) h = .ok (h, h) := rfl
  simp only [dropPkOptionsLoop, dropPkOptions, bind, StateT.bind, index_colsStore h hi, if_true,
    Except.bind, hg]
  cases optsStore.deleteWhere _ _ _ _ _ _ h <;> rfl

namespace Heap

theorem OptsSep.dropPkOptions_spec {h : Heap} (hs : h.OptsSep) {q : Nat}
    (hq : q < h.colDefs.length)
    (hk : (h.readColumn q).options.countP (·.tp == .primaryKey) ≤ 1) :
    ∃ h', dropPkOptions q h = .ok ((), h') ∧ OptFrame (· = q) h h' ∧
      h'.readColumn q = (h.readColumn q).dropPk := by
  have hg : (getThe Heap : GoM Heap) h = .ok (h, h) := rfl
  obtain ⟨st, s', b, hrun, hw, he⟩ := hs.deleteKind hq .primaryKey hk
  obtain ⟨hf, hr⟩ := hs.write hq hw
  refine ⟨_, ?_, hf, by rw [hr, he]; rfl⟩
  simp only [dropPkOptions, bind, StateT.bind, hg, Except.bind, hrun]
  rfl

/-- Every column object has at most one DEFAULT and one PRIMARY KEY option. -/
def AllSingle (h : Heap) : Prop := ∀ p, optionsSingle (h.readColumn p).options

theorem ColsReadAs.optFrame {S : Nat → Prop} {h h' : Heap} {ps : List Nat} {cols : List Column}
    (hf : OptFrame S h h') (hS : ∀ p ∈ ps, ¬ S p) (hr : h.ColsReadAs ps cols) :
    h'.ColsReadAs ps cols := by
  refine ⟨fun p hp => ?_, ?_⟩
  · have hl := hf.length ▸ (hr.1 p hp).1
    exact ⟨hl, hf.sep.fits p hl⟩
  · rw [← hr.2]; exact List.map_congr_left fun p hp => (hf.other p (hS p hp)).2

theorem SpecReadAs.optFrame {S : Nat → Prop} {h h' : Heap} {s : AlterTableSpec} {v : AlterSpec}
    (hf : OptFrame S h h') (hS : ∀ p ∈ s.newColumns, ¬ S p) (hr : h.SpecReadAs s v) :
    h'.SpecReadAs s v := by
  have hcon : h'.con = h.con := funext fun p => by simp only [con, hf.constraints]
  refine { hr with newColumns := hr.newColumns.optFrame hf hS, constraint := ?_ }
  unfold ConsReadAs; rw [hf.constraints, hcon]; exact hr.constraint

end Heap

theorem forall₂_imp_mem {α β : Type} {R S : α → β → Prop} {p : α → Prop} {l : List α}
    {u : List β} (hp : ∀ a ∈ l, p a) (h : List.Forall₂ R l u)
    (himp : ∀ a b, p a → R a b → S a b) : List.Forall₂ S l u :=
  ((List.forall₂_and_left l u).mpr ⟨hp, h⟩).imp fun a b hab => himp a b hab.1 hab.2

theorem foldl_flag (P : Nat → Bool) : ∀ (l : List Nat) (b : Bool),
    l.foldl (fun b p => if P p then true else b) b = (b || l.any P)
  | [], b => by simp
  | p :: l, b => by
    rw [List.foldl_cons, foldl_flag P l, List.any_cons]
    cases P p <;> simp

/-! ## The two phases -/

/-- A phase's run against the value result `r`: both give up, or the phase hands on a table for
which `Good` holds, with the heap it leaves and `r`'s value. -/
def PhaseAgrees {α : Type} (Good : Heap → CreateTableStmt → α → Prop)
    (run : Except Panic (Option CreateTableStmt × Heap)) : Option α → Prop
  | none => ∃ h', run = .ok (none, h')
  | some a => ∃ h' t', run = .ok (some t', h') ∧ Good h' t' a

theorem PhaseAgrees.mono {α : Type} {Good Good' : Heap → CreateTableStmt → α → Prop}
    {run : Except Panic (Option CreateTableStmt × Heap)} {r : Option α}
    (hG : ∀ h' t' a, Good h' t' a → Good' h' t' a) (ha : PhaseAgrees Good run r) :
    PhaseAgrees Good' run r := by
  cases r with
  | none => exact ha
  | some a => obtain ⟨h', t', hrun, hg⟩ := ha; exact ⟨h', t', hrun, hG h' t' a hg⟩

theorem runPhases_cons_of {α β : Type} {Good : Heap → CreateTableStmt → α → Prop}
    {R : Except Panic (Option CreateTableStmt × Heap) → Option β → Prop}
    {f : CreateTableStmt → GoM (Option CreateTableStmt)}
    {fs : List (CreateTableStmt → GoM (Option CreateTableStmt))} {t : CreateTableStmt} {h : Heap}
    {r : Option α} {k : α → Option β}
    (ha : PhaseAgrees Good (f t h) r) (hnone : ∀ h', R (.ok (none, h')) none)
    (hrest : ∀ h' t' a, r = some a → f t h = .ok (some t', h') → Good h' t' a →
      R (runPhases fs t' h') (k a)) :
    R (runPhases (f :: fs) t h) (r.bind k) := by
  cases r with
  | none =>
    obtain ⟨h', hrun⟩ := ha
    simp only [runPhases, bind, StateT.bind, hrun, Except.bind, Option.none_bind]
    exact hnone _
  | some a =>
    obtain ⟨h', t', hrun, hg⟩ := ha
    simp only [runPhases, bind, StateT.bind, hrun, Except.bind, Option.some_bind]
    exact hrest h' t' a rfl hrun hg

theorem alterColumnLoop_run {h : Heap} {t : CreateTableStmt} {cols : List Column} {x : Nat}
    {new : Column} (hsep : h.OptsSep) (hall : h.AllSingle) (hc : h.ColsAt t.cols cols)
    (hnewx : h.readColumn x = new) (hnd : newDefault new.options)
    (hxA : x ∉ h.colArrs.elems t.cols)
    (hnil : (h.col x).options.ptr.isSome → (h.readColumn x).options ≠ []) :
    ∃ h1, alterColumnLoop x t.cols 0 t.cols.len false h = .ok (hasColumn cols new.name.l, h1) ∧
      Heap.OptFrame (· ∈ h.colArrs.elems t.cols) h h1 ∧
      ∀ p, h1.readColumn p =
        if p ∈ h.colArrs.elems t.cols ∧ (h.col p).name.l == (h.col x).name.l then
          (h.readColumn p).alter new
        else h.readColumn p := by
  set A := h.colArrs.elems t.cols with hA
  obtain ⟨h1, hrun, hf1, hr1⟩ := EditLoop.run (Q := fun c => optionsSingle c.options)
    (U := fun c => c.alter new) (alterColumnLoop_editLoop x t.cols) hc.1 hA.symm
    (fun h' hf p => by simp only [(hf.name p).1, (hf.name x).1])
    (fun h' hf p hp hq => by
      obtain ⟨hcolx, hreadx⟩ := hf.other x hxA
      obtain ⟨h'', hrun, hf', hr'⟩ := hf.sep.alterColumnOptions_spec
        (by rw [hf.length]; exact (hc.2.1 p hp).1) (fun (e : x = p) => hxA (e ▸ hp))
        (by rw [hcolx, hreadx]; exact hnil)
        (by simp only [optionsSingle, Bool.and_eq_true, decide_eq_true_eq] at hq; exact hq.1)
      exact ⟨h'', hrun, hf', by rw [hr', hreadx, hnewx]⟩)
    (fun p _ => hall p) (fun c hq => optionsSingle_alterOptions hq hnd)
    (fun c _ => by simp only [Column.alter, alterOptions_idem _ hnd])
    t.cols.len 0 false h (by omega) (.refl _ hsep) (fun p => by simp)
  rw [List.drop_zero, foldl_flag, Bool.false_or] at hrun
  have hany : (A.any fun p => (h.col p).name.l == (h.col x).name.l) =
      hasColumn cols new.name.l := by
    rw [hc.2.hasColumn, ← hnewx]; rfl
  exact ⟨h1, hany ▸ hrun, hf1, hr1⟩

theorem alterColumns_agrees (specs : List AlterTableSpec) :
    ∀ (vs : List AlterSpec) (h : Heap) (t : CreateTableStmt) (cols : List Column),
    List.Forall₂ h.SpecReadAs specs vs →
    (∀ v ∈ vs, v.newColumns.head?.any fun c => newDefault c.options) →
    (∀ s ∈ specs, ∀ x ∈ s.newColumns, x ∉ h.colArrs.elems t.cols ∧
      ((h.col x).options.ptr.isSome → (h.readColumn x).options ≠ [])) →
    h.OptsSep → h.AllSingle → h.ColsAt t.cols cols →
    PhaseAgrees (fun h' t' cols' => t' = t ∧ Heap.OptFrame (· ∈ h.colArrs.elems t.cols) h h' ∧
        h'.AllSingle ∧ h'.ColsAt t.cols cols')
      (alterColumns specs t h) (vs.foldlM alterColumn cols) := by
  induction specs with
  | nil =>
    intro vs h t cols hs _ _ hsep hall hc
    cases hs
    exact ⟨h, t, rfl, rfl, .refl _ hsep, hall, hc⟩
  | cons spec specs ih =>
    intro vs h t cols hs hv hx hsep hall hc
    cases hs with
    | cons hsv hs =>
    rename_i v vs
    obtain ⟨new, hnew, hnd⟩ : ∃ new, v.newColumns.head? = some new ∧ newDefault new.options := by
      have := hv v (List.mem_cons_self _ _)
      cases hh : v.newColumns.head? with
      | none => rw [hh] at this; cases this
      | some new => rw [hh] at this; exact ⟨new, rfl, by simpa using this⟩
    obtain ⟨x, rest, hsx, hxr⟩ := hsv.newColumns.head (by
      intro he; rw [he] at hnew; cases hnew)
    have hnewx : h.readColumn x = new := by
      have := List.singleton_inj.mp hxr.2
      rw [this, List.headD_eq_head?_getD, hnew]; rfl
    obtain ⟨hxA, hnil⟩ :=
      hx spec (List.mem_cons_self _ _) x (by rw [hsx]; exact List.mem_cons_self _ _)
    obtain ⟨h1, hrun, hf1, hr1⟩ := alterColumnLoop_run hsep hall hc hnewx hnd hxA hnil
    set A := h.colArrs.elems t.cols
    simp only [Ast.alterColumns, bind, StateT.bind, StateT.lift, listIndex, hsx, List.get?,
      Except.bind, pure, Except.pure, hrun, List.foldlM_cons, alterColumn,
      List.headD_eq_head?_getD, hnew, Option.getD_some]
    cases hhas : hasColumn cols new.name.l
    · exact ⟨h1, rfl⟩
    · simp only [if_true, Option.some_bind]
      have hA1 : h1.colArrs.elems t.cols = A := by rw [hf1.colArrs]
      have hx1 : ∀ y, y ∉ A → h1.col y = h.col y ∧ h1.readColumn y = h.readColumn y :=
        fun y hy => hf1.other y hy
      refine (ih vs h1 t _ (forall₂_imp_mem (fun s hs' => hx s (List.mem_cons_of_mem _ hs')) hs
          fun s v' hxs hr => hr.optFrame hf1 fun p hp => (hxs p hp).1)
        (fun v hv' => hv v (List.mem_cons_of_mem _ hv'))
        (fun s hs' y hy => ?_) hf1.sep (fun p => ?_) ⟨hf1.colArrs ▸ hc.1, ?_, ?_⟩).mono
        fun h' t' cols' ⟨ht', hf', hall', hc'⟩ => ⟨ht', hf1.trans (hA1 ▸ hf'), hall', hc'⟩
      · obtain ⟨hyA, hyn⟩ := hx s (List.mem_cons_of_mem _ hs') y hy
        rw [hA1, (hx1 y hyA).1, (hx1 y hyA).2]; exact ⟨hyA, hyn⟩
      · rw [hr1 p]; split
        · exact optionsSingle_alterOptions (hall p) hnd
        · exact hall p
      · rw [hA1]; exact fun p hp => ⟨hf1.length ▸ (hc.2.1 p hp).1,
          hf1.sep.fits p (hf1.length ▸ (hc.2.1 p hp).1)⟩
      · rw [hA1, ← hc.2.2, List.map_map]
        refine List.map_congr_left fun p hp => ?_
        rw [Function.comp_apply, hr1 p, ← hnewx]
        simp only [hp, true_and]; rfl

theorem deleteWhere_dropPk {P : Nat → Prop} (h : Heap) (s : Slice) (cons : List Constraint)
    (hc : h.ConsAt P s cons) (hk : cons.countP (·.tp == .primaryKey) ≤ 1) :
    ∃ st s' b, consStore.deleteWhere (fun h c => (h.con c).tp == .primaryKey) s 0 s.len s false h =
        .ok ((s', b), consStore.set h st) ∧
      (consStore.set h st).ConsAt P s' (cons.filter (·.tp != .primaryKey)) := by
  obtain ⟨hfit, hr, hP⟩ := hc
  have hk' : ((h.conArrs.elems s).map h.con).countP (·.tp == .primaryKey) ≤ 1 := hr.2 ▸ hk
  obtain ⟨hyes, hno⟩ := Store.deleteWhere_atMostOne consStore
    (fun h c => (h.con c).tp == .primaryKey) s h hfit (fun _ _ _ => rfl)
    fun m j hm hj hpm hpj => eq_of_countP_le_one _ _ m j (by simpa using hm) (by simpa using hj)
      hk' (by simpa using hpm) (by simpa using hpj)
  cases hany : (h.conArrs.elems s).any fun c => (h.con c).tp == .primaryKey
  · refine ⟨h.conArrs, s, false, hno hany, hfit, ?_, hP⟩
    rw [List.filter_eq_self.mpr fun c hc => by
      simpa using List.any_eq_false.mp ((hr.any (·.tp == .primaryKey)).trans hany) c hc]
    exact hr
  · obtain ⟨r, hrun, hfit', helems⟩ := hyes hany
    refine ⟨r.1, r.2, true, hrun, hfit', ?_, ?_⟩
    · show h.ConsReadAs (r.1.elems r.2) _
      rw [helems]; exact hr.filter (·.tp != .primaryKey)
    · show ∀ p ∈ r.1.elems r.2, P p
      rw [helems]; exact fun p hp => hP p (List.mem_of_mem_filter hp)

theorem Heap.OptFrame.consStore {S : Nat → Prop} {h : Heap} (hs : h.OptsSep) (st : Arrays Nat) :
    Heap.OptFrame S h (consStore.set h st) :=
  ⟨rfl, rfl, rfl, rfl, ⟨hs.fits, hs.valid, hs.unshared⟩, fun _ => ⟨rfl, rfl⟩, fun _ _ => ⟨rfl, rfl⟩⟩

theorem dropPkOptionsLoop_run {h : Heap} {s : Slice} {cols : List Column} (hsep : h.OptsSep)
    (hall : h.AllSingle) (hc : h.ColsAt s cols) :
    ∃ h2, dropPkOptionsLoop s 0 s.len h = .ok ((), h2) ∧
      Heap.OptFrame (· ∈ h.colArrs.elems s) h h2 ∧ h2.conArrs = h.conArrs ∧ h2.AllSingle ∧
      h2.ColsAt s (cols.map Column.dropPk) := by
  obtain ⟨h2, hrun, hf2, hr2⟩ := EditLoop.run (Q := fun c => optionsSingle c.options)
    (U := Column.dropPk) (dropPkOptionsLoop_editLoop s) hc.1 rfl (fun _ _ _ => rfl)
    (fun h' hf p hp hq => hf.sep.dropPkOptions_spec (by rw [hf.length]; exact (hc.2.1 p hp).1)
      (by simp only [optionsSingle, Bool.and_eq_true, decide_eq_true_eq] at hq; exact hq.2))
    (fun p _ => hall p) (fun c hq => optionsSingle_dropPk hq)
    (fun c _ => by simp [Column.dropPk, List.filter_filter])
    s.len 0 () h (by omega) (.refl _ hsep) (fun p => by simp)
  have hrun' : dropPkOptionsLoop s 0 s.len h = .ok ((), h2) := hrun
  refine ⟨h2, hrun', hf2, keeps_dropPkOptionsLoop (F := Heap.conArrs) (fun _ _ => rfl)
    (fun _ _ _ => rfl) s 0 s.len _ () h2 hrun', fun p => ?_, hf2.colArrs ▸ hc.1, ?_, ?_⟩
  · rw [hr2 p]; split
    · exact optionsSingle_dropPk (hall p)
    · exact hall p
  · exact fun p hp => ⟨hf2.length ▸ (hc.2.1 p (hf2.colArrs ▸ hp)).1,
      hf2.sep.fits p (hf2.length ▸ (hc.2.1 p (hf2.colArrs ▸ hp)).1)⟩
  · show (h2.colArrs.elems s).map h2.readColumn = cols.map Column.dropPk
    rw [hf2.colArrs, ← hc.2.2, List.map_map]
    exact List.map_congr_left fun p hp => by
      rw [Function.comp_apply, hr2 p, if_pos ⟨hp, rfl⟩]

theorem dropPrimaryKeys_agrees {P : Nat → Prop} (specs : List AlterTableSpec) :
    ∀ (vs : List AlterSpec) (h : Heap) (t : CreateTableStmt) (cols : List Column)
      (cons : List Constraint),
    specs.length = vs.length → h.OptsSep → h.AllSingle → h.ColsAt t.cols cols →
    h.ConsAt P t.constraints cons → cons.countP (·.tp == .primaryKey) ≤ 1 →
    (∀ k ∈ cons, pkPartsNamed k) →
    PhaseAgrees (fun h' t' r => t'.table = t.table ∧ t'.cols = t.cols ∧
        Heap.OptFrame (· ∈ h.colArrs.elems t.cols) h h' ∧ h'.AllSingle ∧ h'.ColsAt t'.cols r.1 ∧
        h'.ConsAt P t'.constraints r.2)
      (dropPrimaryKeys specs t h) (vs.foldlM dropPrimaryKey (cols, cons)) := by
  induction specs with
  | nil =>
    intro vs h t cols cons hl hsep hall hc hk _ _
    cases vs with
    | nil => exact ⟨h, t, rfl, rfl, rfl, .refl _ hsep, hall, hc, hk⟩
    | cons _ _ => cases hl
  | cons spec specs ih =>
    intro vs h t cols cons hl hsep hall hc hk hkc hpk
    cases vs with
    | nil => cases hl
    | cons v vs =>
    have hg : (getThe Heap : GoM Heap) h = .ok (h, h) := rfl
    simp only [dropPrimaryKeys, bind, StateT.bind, hg, StateT.lift, hasPrimaryKey_eq hc hk hpk,
      Except.bind, List.foldlM_cons, dropPrimaryKey]
    cases htp : tableHasPrimaryKey cols cons
    · exact ⟨h, rfl⟩
    obtain ⟨st, s', b, hdel, hk1⟩ := deleteWhere_dropPk h t.constraints cons hk hkc
    obtain ⟨h2, hrun, hf2, hconArrs, hall2, hc2⟩ :=
      dropPkOptionsLoop_run (h := consStore.set h st) ⟨hsep.fits, hsep.valid, hsep.unshared⟩
        hall hc
    simp only [pure, Except.pure, Bool.not_true, if_true, if_false, Bool.false_eq_true,
      StateT.bind, StateT.pure, bind, Except.bind, hdel, hrun, Option.some_bind]
    have hcon2 : h2.con = h.con := funext fun p => by simp only [Heap.con, hf2.constraints]; rfl
    refine (ih vs h2 { t with constraints := s' } _ _ (Nat.succ.inj hl) hf2.sep hall2 hc2 ?_ ?_
        fun k hk => hpk k (List.mem_of_mem_filter hk)).mono
      fun h' t' r ⟨ht', hc', hf', hall', hcols', hcons'⟩ =>
        ⟨ht', hc', ((Heap.OptFrame.consStore hsep st).trans hf2).trans (hf2.colArrs ▸ hf'), hall',
          hcols', hcons'⟩
    · unfold Heap.ConsAt Heap.ConsReadAs at hk1 ⊢
      rw [hconArrs, hf2.constraints, hcon2]; exact hk1
    · rw [List.countP_eq_zero.mpr fun c hc => by simp_all]; omega

end Ast
end Dtle
