import Dtle.Sql.Merge
import Mathlib.Data.List.GetD

/-!
# Dtle.Sql.Range

The range loops of the merge code as whole runs.

The delete-while-ranging loop `Store.deleteWhere` keeps the header it started with, so once it
has deleted an element it reads the array the delete idiom left: the tail moved down by one and
the old last element still in the last slot.

* `deleteWhere_none` — a range that finds no match changes nothing;
* `deleteWhere_unique` — a range whose one match is at `j` deletes exactly that element, once:
  what follows in the array is no match either, the moved-down tail and the stale slot alike.

The CHANGE COLUMN and MODIFY COLUMN loops write in place and never move an element:

* `ReplaceLoop.run` — such a loop puts the new column at every match and reports whether there
  was one; `changeColumnLoop_replaceLoop` and `modifyColumnLoop_replaceLoop` say both loops are
  of this kind.
-/

namespace Dtle
namespace Ast

open Go

variable {α : Type}

theorem filter_not_eq_eraseIdx (l : List α) (p : α → Bool) {j : Nat} (hj : j < l.length)
    (hp : p l[j]) (huniq : ∀ m (hm : m < l.length), p l[m] → m = j) :
    l.filter (fun x => !p x) = l.eraseIdx j := by
  have hfalse : ∀ m (hm : m < l.length), m ≠ j → p l[m] = false := fun m hm hne => by
    cases h : p l[m]
    · rfl
    · exact absurd (huniq m hm h) hne
  rw [List.eraseIdx_eq_take_drop_succ]
  conv_lhs => rw [← List.take_append_drop (j + 1) l, List.take_succ, List.getElem?_eq_getElem hj]
  simp only [List.filter_append, Option.toList_some, List.filter_singleton, hp, Bool.not_true,
    cond_false, List.append_nil]
  congr 1
  · rw [List.filter_eq_self]
    intro x hx
    obtain ⟨m, hm, rfl⟩ := List.getElem_of_mem hx
    simp only [List.length_take] at hm
    rw [List.getElem_take, hfalse m _ (by omega)]; rfl
  · rw [List.filter_eq_self]
    intro x hx
    obtain ⟨m, hm, rfl⟩ := List.getElem_of_mem hx
    simp only [List.length_drop] at hm
    rw [List.getElem_drop, hfalse _ _ (by omega)]; rfl

theorem getElem?_eraseIdx_append_drop (l : List α) {j m : Nat} (hjm : j < m) (hm : m < l.length) :
    ∃ m', j < m' ∧ m' < l.length ∧ (l.eraseIdx j ++ l.drop (l.length - 1))[m]? = l[m']? := by
  have hlen : (l.eraseIdx j).length = l.length - 1 := List.length_eraseIdx_of_lt (by omega)
  by_cases h : m + 1 < l.length
  · refine ⟨m + 1, by omega, h, ?_⟩
    rw [List.getElem?_append_left (by omega), List.getElem?_eraseIdx_of_ge _ _ _ (by omega)]
  · refine ⟨l.length - 1, by omega, by omega, ?_⟩
    rw [List.getElem?_append_right (by omega), List.getElem?_drop, hlen]
    congr 1; omega

namespace Store

variable [Inhabited α] (S : Store α) (p : Heap → α → Bool) (s0 : Slice)

theorem deleteWhere_succ (h : Heap) {i : Nat} (k : Nat) (s : Slice) (found : Bool)
    (hi : i < s0.len) :
    S.deleteWhere p s0 i (k + 1) s found h =
      if p h (((S.get h).array s0.ptr).getD (s0.off + i) default) then
        match (S.get h).deleteAt s i with
        | .ok r => S.deleteWhere p s0 (i + 1) k r.2 true (S.set h r.1)
        | .error e => .error e
      else S.deleteWhere p s0 (i + 1) k s found h := by
  have hx : S.index s0 i h = .ok (((S.get h).array s0.ptr).getD (s0.off + i) default, h) := by
    simp [Store.index, Arrays.index_eq hi, Except.map]
  have hg : (getThe Heap : GoM Heap) h = .ok (h, h) := rfl
  simp only [deleteWhere, bind, StateT.bind, hx, hg, Except.bind]
  split
  · simp only [StateT.bind, deleteAt]
    cases (S.get h).deleteAt s i <;> rfl
  · rfl

theorem deleteWhere_skip (h : Heap) (s : Slice) (found : Bool) (k' : Nat) :
    ∀ i k, i + k ≤ s0.len →
      (∀ m, i ≤ m → m < i + k →
        p h (((S.get h).array s0.ptr).getD (s0.off + m) default) = false) →
      S.deleteWhere p s0 i (k + k') s found h = S.deleteWhere p s0 (i + k) k' s found h
  | i, 0, _, _ => by simp
  | i, k + 1, hk, hm => by
    rw [Nat.add_right_comm, deleteWhere_succ S p s0 h _ _ _ (by omega),
      if_neg (Bool.eq_false_iff.mp (hm i le_rfl (by omega))),
      deleteWhere_skip h s found k' (i + 1) k (by omega) fun m h1 h2 => hm m (by omega) (by omega),
      Nat.add_right_comm, Nat.add_assoc]

theorem deleteWhere_none (h : Heap) (s : Slice) (found : Bool)
    (hnone : ∀ m, m < s0.len → p h (((S.get h).elems s0).getD m default) = false) :
    S.deleteWhere p s0 0 s0.len s found h = .ok ((s, found), h) := by
  have := deleteWhere_skip S p s0 h s found 0 0 s0.len (by omega) fun m _ hm => by
    rw [← Arrays.getD_elems _ (by omega)]; exact hnone m (by omega)
  rw [Nat.add_zero, Nat.zero_add] at this
  rw [this]; rfl

theorem deleteWhere_unique (h : Heap) (hfit : (S.get h).Fits s0)
    (hpS : ∀ h st x, p (S.set h st) x = p h x) {j : Nat} (hj : j < s0.len)
    (hpj : p h (((S.get h).elems s0).getD j default))
    (huniq : ∀ m, m < s0.len → p h (((S.get h).elems s0).getD m default) → m = j) :
    ∃ r, (S.get h).deleteAt s0 j = .ok r ∧
      S.deleteWhere p s0 0 s0.len s0 false h = .ok ((r.2, true), S.set h r.1) := by
  have hl := Arrays.elems_length hfit
  obtain ⟨r, hr⟩ : ∃ r, (S.get h).deleteAt s0 j = .ok r :=
    ⟨_, Arrays.deleteAt_eq _ hj hfit.1⟩
  refine ⟨r, hr, ?_⟩
  have hbefore := deleteWhere_skip S p s0 h s0 false (s0.len - j) 0 j (by omega) fun m _ hm => by
    rw [← Arrays.getD_elems _ (by omega)]
    exact Bool.eq_false_iff.mpr fun hq => absurd (huniq m (by omega) hq) (by omega)
  have hafter := deleteWhere_skip S p s0 (S.set h r.1) r.2 true 0 (j + 1) (s0.len - (j + 1))
    (by omega) fun m h1 h2 => by
      obtain ⟨m', hjm', hm', he⟩ :=
        getElem?_eraseIdx_append_drop ((S.get h).elems s0) (j := j) (m := m) (by omega) (by omega)
      rw [S.get_set, ← Arrays.getD_elems _ (by omega), hpS, (Arrays.deleteAt_range hfit hr).1,
        List.getD_eq_getElem?_getD, ← hl, he, ← List.getD_eq_getElem?_getD]
      exact Bool.eq_false_iff.mpr fun hq => absurd (huniq m' (by omega) hq) (by omega)
  rw [Nat.zero_add, Nat.add_sub_cancel' hj.le] at hbefore
  rw [hbefore, show s0.len - j = s0.len - (j + 1) + 1 by omega, deleteWhere_succ S p s0 h _ _ _ hj,
    if_pos (by rwa [← Arrays.getD_elems (S.get h) hj default]), hr]
  exact hafter.trans rfl

theorem deleteWhere_atMostOne (h : Heap) (hfit : (S.get h).Fits s0)
    (hpS : ∀ h st x, p (S.set h st) x = p h x)
    (huniq : ∀ m j (hm : m < ((S.get h).elems s0).length) (hj : j < ((S.get h).elems s0).length),
      p h ((S.get h).elems s0)[m] → p h ((S.get h).elems s0)[j] → m = j) :
    (((S.get h).elems s0).any (p h) = true → ∃ r : Arrays α × Slice,
        S.deleteWhere p s0 0 s0.len s0 false h = .ok ((r.2, true), S.set h r.1) ∧
        r.1.Fits r.2 ∧ r.1.elems r.2 = ((S.get h).elems s0).filter fun x => !p h x) ∧
    (((S.get h).elems s0).any (p h) = false →
        S.deleteWhere p s0 0 s0.len s0 false h = .ok ((s0, false), h)) := by
  have hl := Arrays.elems_length hfit
  constructor
  · intro hany
    obtain ⟨x, hx, hpx⟩ := List.any_eq_true.mp hany
    obtain ⟨j, hj, rfl⟩ := List.getElem_of_mem hx
    obtain ⟨r, hdel, hrun⟩ := deleteWhere_unique S p s0 h hfit hpS (hl ▸ hj)
      (by rwa [List.getD_eq_getElem _ _ hj]) fun m hm hpm =>
        huniq m j (hl ▸ hm) hj (by rwa [List.getD_eq_getElem _ _ (hl ▸ hm)] at hpm) hpx
    obtain ⟨-, helems, hfit', -⟩ := Arrays.deleteAt_ok hfit hdel
    exact ⟨r, hrun, hfit', by
      rw [helems, filter_not_eq_eraseIdx _ (p h) hj hpx fun m hm hpm => huniq m j hm hj hpm hpx]⟩
  · intro hno
    refine deleteWhere_none S p s0 h s0 false fun m hm => ?_
    rw [List.getD_eq_getElem _ _ (hl ▸ hm)]
    exact Bool.eq_false_iff.mpr fun hq =>
      absurd hno (Bool.not_eq_false _ ▸ List.any_eq_true.mpr ⟨_, List.getElem_mem _, hq⟩)

end Store

/-! ## CHANGE COLUMN and MODIFY COLUMN

Both loops write `Cols[i]` in place as they range, and never move an element, so the range reads
every column as it was before the loop: the loop puts the new column at every match. -/

theorem take_map_succ (A : List α) (f : α → α) {i : Nat} (hi : i < A.length) :
    (A.map f).take (i + 1) ++ A.drop (i + 1) = (A.map f).take i ++ f A[i] :: A.drop (i + 1) := by
  rw [List.take_succ, List.getElem?_map, List.getElem?_eq_getElem hi]; simp

theorem set_take_map_append_drop (A : List α) (f : α → α) {i : Nat}
    (hi : i < A.length) :
    ((A.map f).take i ++ A.drop i).set i (f A[i]) = (A.map f).take (i + 1) ++ A.drop (i + 1) := by
  rw [take_map_succ A f hi, List.set_append_right _ _ (List.length_take_le _ _)]
  simp only [List.length_take, List.length_map, show i - min i A.length = 0 by omega]
  rw [List.drop_eq_getElem_cons hi]; rfl

section ReplaceLoop

variable (L : Nat → Nat → Bool → GoM Bool) (P : Nat → Bool) (x : Nat) (s0 : Slice)
  (h0 : Heap)

/-- A loop that ranges over `s0` and sets `s0[i] = x` where `P` holds, ending with whether it
did; `st` is the column arrays it has written so far. -/
def ReplaceLoop : Prop :=
  (∀ i b st, L i 0 b (colsStore.set h0 st) = .ok (b, colsStore.set h0 st)) ∧
  ∀ i k b st, i < s0.len → L i (k + 1) b (colsStore.set h0 st) =
    if P ((st.array s0.ptr).getD (s0.off + i) default) then
      match st.setIndex s0 i x with
      | .ok st' => L (i + 1) k true (colsStore.set h0 st')
      | .error e => .error e
    else L (i + 1) k b (colsStore.set h0 st)

variable {L P x s0 h0}

theorem ReplaceLoop.run (hL : ReplaceLoop L P x s0 h0) (A : List Nat) (hA : A.length = s0.len) :
    ∀ k i b st, i + k = s0.len → st.Fits s0 →
      st.elems s0 = (A.map fun p => if P p then x else p).take i ++ A.drop i →
      ∃ st', L i k b (colsStore.set h0 st) = .ok (b || (A.drop i).any P, colsStore.set h0 st') ∧
        st'.elems s0 = A.map (fun p => if P p then x else p) ∧ st'.Fits s0
  | 0, i, b, st, hk, hfit, he => by
    refine ⟨st, by rw [hL.1, List.drop_eq_nil_of_le (by omega)]; simp, ?_, hfit⟩
    rw [he, List.drop_eq_nil_of_le (by omega), List.append_nil,
      List.take_of_length_le (by simp; omega)]
  | k + 1, i, b, st, hk, hfit, he => by
    have hi : i < A.length := by omega
    have hread : (st.array s0.ptr).getD (s0.off + i) default = A[i] := by
      rw [← Arrays.getD_elems _ (by omega), he, List.drop_eq_getElem_cons hi,
        List.getD_eq_getElem?_getD, List.getElem?_append_right (List.length_take_le _ _)]
      simp [show i - min i A.length = 0 by omega, List.getElem?_eq_getElem hi]
    rw [hL.2 i k b st (by omega), hread, List.drop_eq_getElem_cons hi, List.any_cons]
    split
    · next hp =>
      obtain ⟨st', hset⟩ : ∃ st', st.setIndex s0 i x = .ok st' :=
        ⟨st.write s0.ptr (s0.off + i) [x], by simp [Arrays.setIndex, show i < s0.len by omega]⟩
      obtain ⟨-, he', hfit'⟩ := Arrays.setIndex_ok hfit hset
      obtain ⟨st'', hrun, hres⟩ := hL.run A hA k (i + 1) true st' (by omega) hfit' (by
        rw [he', he, ← set_take_map_append_drop A _ hi]; simp [hp])
      refine ⟨st'', ?_, hres⟩
      rw [hset]; dsimp only; rw [hrun, hp]; simp
    · next hp =>
      obtain ⟨st'', hrun, hres⟩ := hL.run A hA k (i + 1) b st (by omega) hfit (by
        rw [he, take_map_succ A _ hi, List.drop_eq_getElem_cons hi]
        simp [hp])
      exact ⟨st'', by rw [hrun]; simp [hp], hres⟩

end ReplaceLoop


theorem colsStore_index (h0 : Heap) (st : Arrays Nat) {s0 : Slice} {i : Nat} (hi : i < s0.len) :
    colsStore.index s0 i (colsStore.set h0 st) =
      .ok ((st.array s0.ptr).getD (s0.off + i) default, colsStore.set h0 st) := by
  simp [Store.index, colsStore, Arrays.index_eq hi, Except.map]

@[simp] theorem col_colsStore_set (h : Heap) (st : Arrays Nat) : (colsStore.set h st).col = h.col :=
  rfl

theorem changeColumnLoop_replaceLoop (spec : AlterTableSpec) (s0 : Slice) (h0 : Heap) {x : Nat}
    {rest : List Nat} (hx : spec.newColumns = x :: rest) :
    ReplaceLoop (changeColumnLoop spec s0) (fun p => (h0.col p).name.l == spec.oldColumnName.l) x
      s0 h0 := by
  refine ⟨fun _ _ _ => rfl, fun i k b st hi => ?_⟩
  have hg : ∀ h : Heap, (getThe Heap : GoM Heap) h = .ok (h, h) := fun _ => rfl
  simp only [changeColumnLoop, bind, StateT.bind, colsStore_index h0 st hi, hg, Except.bind,
    col_colsStore_set]
  split_ifs
  · simp only [StateT.lift, listIndex, hx, List.get?, Store.setIndex, colsStore, bind, StateT.bind,
      Except.bind, Except.map, pure, Except.pure]
    cases st.setIndex s0 i x <;> rfl
  · rfl

theorem modifyColumnLoop_replaceLoop (spec : AlterTableSpec) (s0 : Slice) (h0 : Heap) {x : Nat}
    {rest : List Nat} (hx : spec.newColumns = x :: rest) :
    ReplaceLoop (modifyColumnLoop spec s0) (fun p => (h0.col p).name.l == (h0.col x).name.l) x
      s0 h0 := by
  refine ⟨fun _ _ _ => rfl, fun i k b st hi => ?_⟩
  have hg : ∀ h : Heap, (getThe Heap : GoM Heap) h = .ok (h, h) := fun _ => rfl
  simp only [modifyColumnLoop, bind, StateT.bind, colsStore_index h0 st hi, hg, Except.bind,
    StateT.lift, listIndex, hx, List.get?, pure, Except.pure, col_colsStore_set]
  split_ifs
  · simp only [Store.setIndex, colsStore, bind, StateT.bind, Except.bind, Except.map]
    cases st.setIndex s0 i x <;> rfl
  · rfl

end Ast
end Dtle
