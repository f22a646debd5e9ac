import Dtle.Sql.Merge
import Mathlib.Data.List.Basic

/-!
# Dtle.Sql.Dedup

The string-list helpers of the merge code's package: `RemoveArrayRepeat` (a nested scan of the
output), `removeDuplicate` (a Go map whose growth decides what is kept) and `getDuplicate` (a
pairwise scan, then `removeDuplicate`).

`keepFirst` says what the first two compute: the first occurrence of each value, in order. It is
defined the way the order reads, the head and then the first occurrences of the tail other than
the head, and both loops are proved to compute it by induction over the input, one element at a
time, as they range (`removeArrayRepeat_eq`, `removeDuplicate_eq`). `getDuplicate` is read off
the runs its pairwise loop appends (`dupRuns`).
-/

namespace Dtle
namespace Ast

/-! ## The spec -/

/-- The first occurrence of each value of a list, in the order of those occurrences. -/
def keepFirst : List String → List String
  | [] => []
  | x :: l => x :: (keepFirst l).filter (· != x)

@[simp] theorem mem_keepFirst {c : List String} {v : String} : v ∈ keepFirst c ↔ v ∈ c := by
  induction c with
  | nil => rfl
  | cons x l ih =>
    by_cases hv : v = x <;> simp [keepFirst, ih, hv]

theorem nodup_keepFirst (c : List String) : (keepFirst c).Nodup := by
  induction c with
  | nil => exact List.nodup_nil
  | cons x l ih =>
    refine List.nodup_cons.mpr ⟨fun hx => ?_, ih.filter _⟩
    simpa using (List.mem_filter.mp hx).2

theorem keepFirst_sublist (c : List String) : (keepFirst c).Sublist c := by
  induction c with
  | nil => exact List.Sublist.slnil
  | cons x l ih => exact ((List.filter_sublist _).trans ih).cons₂ x

theorem keepFirst_concat (l : List String) (x : String) :
    keepFirst (l ++ [x]) = keepFirst l ++ if x ∈ l then [] else [x] := by
  induction l with
  | nil => rfl
  | cons y l ih =>
    rw [List.cons_append, keepFirst, keepFirst, ih, List.filter_append, List.cons_append]
    congr 2
    by_cases hx : x = y
    · subst hx; simp
    · by_cases hl : x ∈ l <;> simp [hx, hl]

theorem keepFirst_filter (p : String → Bool) (c : List String) :
    keepFirst (c.filter p) = (keepFirst c).filter p := by
  induction c with
  | nil => rfl
  | cons x l ih =>
    rw [keepFirst, List.filter_cons, List.filter_cons, List.filter_filter]
    by_cases hx : p x
    · rw [if_pos hx, if_pos hx, keepFirst, ih, List.filter_filter]
      simp only [Bool.and_comm]
    · rw [if_neg hx, if_neg hx, ih]
      refine List.filter_congr fun v _ => ?_
      by_cases hv : v = x <;> simp_all

/-! ## `RemoveArrayRepeat` and `removeDuplicate` -/

/-- `RemoveArrayRepeat(input)`: append each string unless the output already holds it. -/
def removeArrayRepeat (input : List String) : List String :=
  input.foldl (fun output i => if output.any (i == ·) then output else output ++ [i]) []

/-- `removeDuplicate(c)`: insert each string into the map and append it when the map grew. -/
def removeDuplicate (c : List String) : List String :=
  (c.foldl (fun (acc : List String × List String) v =>
    let beforeLen := acc.1.length
    let tmpMap := mapInsert acc.1 v
    if beforeLen ≠ tmpMap.length then (tmpMap, acc.2 ++ [v]) else (tmpMap, acc.2)) ([], [])).2

theorem removeArrayRepeat_eq (c : List String) : removeArrayRepeat c = keepFirst c := by
  induction c using List.reverseRecOn with
  | nil => rfl
  | append_singleton l x ih =>
    unfold removeArrayRepeat at ih ⊢
    rw [List.foldl_append, ih, keepFirst_concat]
    by_cases hx : x ∈ l <;> simp [hx]

theorem removeDuplicate_foldl (c : List String) :
    c.foldl (fun (acc : List String × List String) v =>
      let beforeLen := acc.1.length
      let tmpMap := mapInsert acc.1 v
      if beforeLen ≠ tmpMap.length then (tmpMap, acc.2 ++ [v]) else (tmpMap, acc.2)) ([], []) =
      (keepFirst c, keepFirst c) := by
  induction c using List.reverseRecOn with
  | nil => rfl
  | append_singleton l x ih =>
    rw [List.foldl_append, ih, keepFirst_concat]
    by_cases hx : x ∈ l <;> simp [mapInsert, hx]

theorem removeDuplicate_eq (c : List String) : removeDuplicate c = keepFirst c := by
  rw [removeDuplicate, removeDuplicate_foldl]

/-- `RemoveArrayRepeat` and `removeDuplicate` return the same list, nil and empty alike: the
first occurrence of each value, in order, each value once, and every value of the input. -/
theorem removeArrayRepeat_eq_removeDuplicate (c : List String) :
    removeArrayRepeat c = removeDuplicate c ∧ removeDuplicate c = keepFirst c ∧
      (keepFirst c).Nodup ∧ ∀ v, v ∈ keepFirst c ↔ v ∈ c :=
  ⟨(removeArrayRepeat_eq c).trans (removeDuplicate_eq c).symm, removeDuplicate_eq c,
    nodup_keepFirst c, fun _ => mem_keepFirst⟩

/-! ## `getDuplicate` -/

/-- `getDuplicate(c)`: for every pair `i < j` of positions holding the same string, append it;
then `removeDuplicate`. -/
def getDuplicate (c : List String) : List String :=
  removeDuplicate (c.enum.foldl (fun d (i, v1) =>
    c.enum.foldl (fun d (j, v2) => if i ≥ j then d else if v1 == v2 then d ++ [v1] else d) d) [])

/-- The strings the pairwise loop appends, position by position: each one as often as it occurs
after that position. -/
def dupRuns : List String → List String
  | [] => []
  | x :: l => List.replicate (l.count x) x ++ dupRuns l

theorem getDuplicate_inner (i : Nat) (v1 : String) :
    ∀ (c : List String) (n : Nat) (d : List String),
      (c.enumFrom n).foldl (fun d (j, v2) => if i ≥ j then d else if v1 == v2 then d ++ [v1] else d)
        d = d ++ List.replicate ((c.drop (i + 1 - n)).count v1) v1
  | [], _, d => by simp
  | v2 :: c, n, d => by
    rw [List.enumFrom_cons, List.foldl_cons, getDuplicate_inner i v1 c (n + 1)]
    dsimp only
    by_cases hin : i ≥ n
    · rw [if_pos hin, show i + 1 - n = (i - n) + 1 by omega, List.drop_succ_cons,
        show i + 1 - (n + 1) = i - n by omega]
    · rw [if_neg hin, show i + 1 - n = 0 by omega, show i + 1 - (n + 1) = 0 by omega,
        List.drop_zero, List.drop_zero, List.count_cons]
      by_cases he : v1 = v2
      · subst he; simp [List.replicate_succ]
      · simp [he, Ne.symm he]

theorem getDuplicate_outer (c : List String) :
    ∀ (s : List String) (k : Nat) (d : List String), c.drop k = s →
      (s.enumFrom k).foldl (fun d (i, v1) => d ++ List.replicate ((c.drop (i + 1)).count v1) v1)
        d = d ++ dupRuns s
  | [], _, d, _ => by simp [dupRuns]
  | x :: s, k, d, hs => by
    have hk : c.drop (k + 1) = s := by rw [← List.drop_drop, hs]; rfl
    rw [List.enumFrom_cons, List.foldl_cons, getDuplicate_outer c s (k + 1) _ hk]
    dsimp only
    rw [hk, dupRuns, List.append_assoc]

theorem getDuplicate_eq_runs (c : List String) : getDuplicate c = keepFirst (dupRuns c) := by
  rw [getDuplicate, removeDuplicate_eq]
  congr 1
  have hinner : ∀ d (iv : Nat × String), c.enum.foldl
      (fun d (j, v2) => if iv.1 ≥ j then d else if iv.2 == v2 then d ++ [iv.2] else d) d =
      d ++ List.replicate ((c.drop (iv.1 + 1)).count iv.2) iv.2 :=
    fun d iv => getDuplicate_inner iv.1 iv.2 c 0 d
  simp only [hinner]
  exact getDuplicate_outer c c 0 [] rfl

theorem keepFirst_dupRuns (c : List String) :
    keepFirst (dupRuns c) = (keepFirst c).filter fun v => 2 ≤ c.count v := by
  induction c with
  | nil => rfl
  | cons x l ih =>
    have hcount : ∀ v, v ≠ x → (x :: l).count v = l.count v := fun v hv => by
      simp [List.count_cons, Ne.symm hv]
    have hrest : ((keepFirst l).filter (· != x)).filter (fun v => 2 ≤ (x :: l).count v) =
        ((keepFirst l).filter fun v => 2 ≤ l.count v).filter (· != x) := by
      rw [List.filter_filter, List.filter_filter]
      refine List.filter_congr fun v _ => ?_
      by_cases hv : v = x
      · simp [hv]
      · simp [hv, hcount v hv, Bool.and_comm]
    rcases Nat.eq_zero_or_pos (l.count x) with h0 | hpos
    · -- `x` occurs once: no run, and it is filtered out
      have hx : x ∉ l := List.count_eq_zero.mp h0
      have hself : ((keepFirst l).filter fun v => 2 ≤ l.count v).filter (· != x) =
          (keepFirst l).filter fun v => 2 ≤ l.count v :=
        List.filter_eq_self.mpr fun v hv => by
          have : v ∈ l := mem_keepFirst.mp (List.mem_filter.mp hv).1
          simpa using fun h : v = x => hx (h ▸ this)
      rw [dupRuns, h0, List.replicate_zero, List.nil_append, ih, keepFirst, List.filter_cons,
        if_neg (by simp [List.count_cons, h0]), hrest, hself]
    · -- `x` occurs again: its run starts the list, and it is kept
      obtain ⟨k, hk⟩ : ∃ k, l.count x = k + 1 := ⟨l.count x - 1, by omega⟩
      have hdrop : (List.replicate k x ++ dupRuns l).filter (· != x) =
          (dupRuns l).filter (· != x) := by
        rw [List.filter_append, List.filter_eq_nil_iff.mpr (by simp), List.nil_append]
      rw [dupRuns, hk, List.replicate_succ, List.cons_append, keepFirst, ← keepFirst_filter,
        hdrop, keepFirst_filter, ih, keepFirst, List.filter_cons,
        if_pos (by simp [List.count_cons, hk]), hrest]

/-- `getDuplicate(c)` lists each string that occurs at least twice in `c`, once, in the order of
its first occurrence. -/
theorem getDuplicate_eq (c : List String) :
    getDuplicate c = (keepFirst c).filter (fun v => 2 ≤ c.count v) ∧
      (getDuplicate c).Nodup ∧ ∀ v, v ∈ getDuplicate c ↔ 2 ≤ c.count v := by
  rw [getDuplicate_eq_runs, keepFirst_dupRuns]
  refine ⟨rfl, (nodup_keepFirst c).filter _, fun v => ?_⟩
  simp only [List.mem_filter, mem_keepFirst, decide_eq_true_eq, and_iff_right_iff_imp]
  intro h
  exact List.count_pos_iff.mp (by omega)

end Ast
end Dtle
