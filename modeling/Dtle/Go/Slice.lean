import Mathlib.Data.List.Basic

/-!
# Dtle.Go.Slice

Go slices as the runtime has them: a header (backing array, offset, length, capacity) over an
array that other headers may share. `append` writes in place while the capacity allows and
copies into a new array otherwise; `append(s[:i], s[i+1:]...)`, the idiom the merge code uses to
delete, moves the tail of the array down by one and leaves the last slot as it was.

The arrays of one element type are a list indexed by allocation order (`Arrays`). A write
touches one array, so every header over another array reads as before (`elems_write_ne`).

* `elems_append`: appending shows the old elements followed by the new ones.
* `elems_deleteAt`: the delete idiom shows the old elements with the `i`-th erased.
* `elems_setIndex`: `s[i] = x` shows the old elements with the `i`-th replaced.
-/

namespace Dtle
namespace Go

/-- A run-time panic. The merge code never recovers, so a panic ends the program. -/
inductive Panic where
  /-- `index out of range [i] with length n` -/
  | indexOutOfRange (i n : Nat)
  /-- `slice bounds out of range`: the bound `i` is above `n` (the capacity for `s[:i]`,
  the length for `s[i:]`). -/
  | sliceBoundsOutOfRange (i n : Nat)
  /-- `invalid memory address or nil pointer dereference` -/
  | nilPointerDereference
  deriving DecidableEq, Repr, Inhabited

/-- A slice header. `ptr = none` is the nil slice. -/
structure Slice where
  ptr : Option Nat
  off : Nat
  len : Nat
  cap : Nat
  deriving DecidableEq, Repr, Inhabited

def Slice.nil : Slice := ⟨none, 0, 0, 0⟩

/-- `s[:i]`: bounded by the capacity, not the length. -/
def Slice.sliceTo (s : Slice) (i : Nat) : Except Panic Slice :=
  if i ≤ s.cap then .ok { s with len := i } else .error (.sliceBoundsOutOfRange i s.cap)

/-- `s[i:]`. -/
def Slice.sliceFrom (s : Slice) (i : Nat) : Except Panic Slice :=
  if i ≤ s.len then .ok { s with off := s.off + i, len := s.len - i, cap := s.cap - i }
  else .error (.sliceBoundsOutOfRange i s.len)

/-- The capacity `append` gives a new array (`runtime.growslice` without the rounding up to an
allocator size class): double a small slice, grow a large one by a quarter and 192 elements,
never below the length needed. -/
def growslice (oldCap newLen : Nat) : Nat :=
  if 2 * oldCap < newLen then newLen
  else if oldCap < 256 then 2 * oldCap
  else max newLen (oldCap + (oldCap + 768) / 4)

theorem le_growslice (oldCap newLen : Nat) : newLen ≤ growslice oldCap newLen := by
  unfold growslice; split_ifs <;> omega

/-- The backing arrays of one element type, addressed by allocation order. -/
abbrev Arrays (α : Type) := List (List α)

namespace Arrays

variable {α : Type}

/-- The array a header points to; a nil slice has none. -/
def array (st : Arrays α) : Option Nat → List α
  | none => []
  | some p => st.getD p []

/-- The elements a header shows. -/
def elems (st : Arrays α) (s : Slice) : List α := ((st.array s.ptr).drop s.off).take s.len

/-- The header stays inside its array: `len ≤ cap` and `off + cap` within the array. -/
def Fits (st : Arrays α) (s : Slice) : Prop := s.len ≤ s.cap ∧ s.off + s.cap ≤ (st.array s.ptr).length

/-- Overwrite array `p` from position `k` on with `xs`. -/
def write (st : Arrays α) (p : Option Nat) (k : Nat) (xs : List α) : Arrays α :=
  match p with
  | none => st
  | some p => st.set p ((st.getD p []).take k ++ xs ++ (st.getD p []).drop (k + xs.length))

/-- `s[i]`. -/
def index [Inhabited α] (st : Arrays α) (s : Slice) (i : Nat) : Except Panic α :=
  if i < s.len then .ok ((st.array s.ptr).getD (s.off + i) default)
  else .error (.indexOutOfRange i s.len)

/-- `s[i] = x`. -/
def setIndex (st : Arrays α) (s : Slice) (i : Nat) (x : α) : Except Panic (Arrays α) :=
  if i < s.len then .ok (st.write s.ptr (s.off + i) [x]) else .error (.indexOutOfRange i s.len)

/-- `append(s, xs...)`: in place while the capacity allows, else into a new array of
capacity `growslice`. -/
def append [Inhabited α] (st : Arrays α) (s : Slice) (xs : List α) : Arrays α × Slice :=
  if xs.isEmpty then (st, s)
  else if s.ptr.isSome ∧ s.len + xs.length ≤ s.cap then
    (st.write s.ptr (s.off + s.len) xs, { s with len := s.len + xs.length })
  else
    let n := s.len + xs.length
    let c := growslice s.cap n
    (st ++ [st.elems s ++ xs ++ List.replicate (c - n) default], ⟨some st.length, 0, n, c⟩)

/-- `append(s[:i], s[i+1:]...)`. -/
def deleteAt [Inhabited α] (st : Arrays α) (s : Slice) (i : Nat) : Except Panic (Arrays α × Slice) := do
  let front ← s.sliceTo i
  let back ← s.sliceFrom (i + 1)
  pure (st.append front (st.elems back))


theorem elems_length {st : Arrays α} {s : Slice} (h : st.Fits s) : (st.elems s).length = s.len := by
  simp only [elems, List.length_take, List.length_drop]; unfold Fits at h; omega

theorem elems_of_len_zero (st : Arrays α) {s : Slice} (h : s.len = 0) : st.elems s = [] := by
  simp [elems, h]

theorem take_drop_write (a xs : List α) (off n : Nat) (h : off + n ≤ a.length) :
    ((a.take (off + n) ++ xs ++ a.drop (off + n + xs.length)).drop off).take (n + xs.length) =
      (a.drop off).take n ++ xs := by
  rw [List.append_assoc, List.drop_append_of_le_length (by simp; omega),
    List.take_append_eq_append_take, List.drop_take, List.take_append_eq_append_take]
  simp only [List.length_take, List.length_drop, List.take_take]
  have h1 : min (off + n - off) (a.length - off) = n := by omega
  rw [h1, show n + xs.length - n = xs.length by omega, List.take_of_length_le (le_refl _)]
  simp [show off + n - off = n by omega]

theorem take_drop_write_erase (a : List α) {off i n : Nat} (hi : i < n)
    (hn : off + n ≤ a.length) :
    ((a.take (off + i) ++ (a.drop (off + (i + 1))).take (n - (i + 1)) ++
        a.drop (off + i + (n - (i + 1)))).drop off).take n =
      ((a.drop off).take n).eraseIdx i ++ ((a.drop off).take n).drop (n - 1) := by
  have hoff : (a.take off).length = off := by simp; omega
  rw [Nat.add_assoc off i, List.take_add, ← List.drop_drop (i + 1) off a,
    ← List.drop_drop (i + (n - (i + 1))) off a, List.append_assoc, List.append_assoc,
    List.drop_left' hoff]
  have hb : n ≤ (a.drop off).length := by simp; omega
  generalize a.drop off = b at hb ⊢
  rw [show i + (n - (i + 1)) = n - 1 by omega, ← List.append_assoc,
    List.take_append_eq_append_take,
    List.take_of_length_le (by simp; omega), List.eraseIdx_eq_take_drop_succ, List.take_take,
    List.drop_take, List.drop_take, Nat.min_eq_left hi.le]
  congr 2
  simp; omega

theorem array_write_ne (st : Arrays α) {p q : Option Nat} (k : Nat) (xs : List α) (h : q ≠ p) :
    (st.write p k xs).array q = st.array q := by
  cases p with
  | none => rfl
  | some p =>
    cases q with
    | none => rfl
    | some q =>
      simp only [write, array, List.getD_eq_getElem?_getD]
      rw [List.getElem?_set_ne (by intro e; exact h (by rw [e]))]

theorem array_write_self (st : Arrays α) (p : Nat) (k : Nat) (xs : List α) (hp : p < st.length) :
    (st.write (some p) k xs).array (some p) =
      (st.array (some p)).take k ++ xs ++ (st.array (some p)).drop (k + xs.length) := by
  simp [write, array, List.getD_eq_getElem?_getD, hp]

theorem lt_length_of_fits {st : Arrays α} {s : Slice} {p : Nat} (hs : s.ptr = some p)
    (h : st.Fits s) (hc : 0 < s.cap) : p < st.length := by
  by_contra hp
  have : st.array (some p) = [] := by
    simp [array, List.getD_eq_getElem?_getD, List.getElem?_eq_none (not_lt.mp hp)]
  unfold Fits at h; rw [hs, this] at h; simp at h; omega

theorem elems_append [Inhabited α] {st : Arrays α} {s : Slice} (xs : List α) (h : st.Fits s) :
    (st.append s xs).1.elems (st.append s xs).2 = st.elems s ++ xs ∧
      (st.append s xs).1.Fits (st.append s xs).2 := by
  unfold append
  split_ifs with he hin
  · simp [List.isEmpty_iff.mp he, h]
  · obtain ⟨hsome, hk⟩ := hin
    obtain ⟨p, hp⟩ := Option.isSome_iff_exists.mp hsome
    have hx : 0 < xs.length := List.length_pos.mpr (fun e => he (by simp [e]))
    have hlt := lt_length_of_fits hp h (by omega)
    unfold Fits at h
    rw [hp] at h ⊢
    simp only [elems, Fits, hp, array_write_self st p _ _ hlt]
    refine ⟨take_drop_write _ _ _ _ (by omega), hk, ?_⟩
    simp; omega
  · have hl := elems_length h
    have hg := le_growslice s.cap (s.len + xs.length)
    have hA : (st ++ [st.elems s ++ xs ++ List.replicate (growslice s.cap (s.len + xs.length) -
        (s.len + xs.length)) default]).array (some st.length) =
        st.elems s ++ xs ++ List.replicate (growslice s.cap (s.len + xs.length) -
        (s.len + xs.length)) default := by
      simp [array, List.getD_eq_getElem?_getD]
    refine ⟨?_, hg, ?_⟩
    · show (((st ++ [_]).array (some st.length)).drop 0).take (s.len + xs.length) = _
      rw [hA, List.drop_zero]; exact List.take_left' (by simp [hl])
    · show 0 + _ ≤ ((st ++ [_]).array (some st.length)).length
      rw [hA]; simp [hl]; omega

theorem getD_elems (st : Arrays α) {s : Slice} {i : Nat} (hi : i < s.len) (d : α) :
    (st.elems s).getD i d = (st.array s.ptr).getD (s.off + i) d := by
  simp only [elems, List.getD_eq_getElem?_getD, List.getElem?_take_of_lt hi, List.getElem?_drop]

theorem index_eq [Inhabited α] {st : Arrays α} {s : Slice} {i : Nat} (hi : i < s.len) :
    st.index s i = .ok ((st.array s.ptr).getD (s.off + i) default) := by
  simp [index, hi]

theorem elems_write_ne (st : Arrays α) {p : Option Nat} (k : Nat) (xs : List α) {t : Slice}
    (h : t.ptr ≠ p) : (st.write p k xs).elems t = st.elems t ∧
      ((st.write p k xs).Fits t ↔ st.Fits t) := by
  simp only [elems, Fits, array_write_ne st k xs h, iff_self, and_self]

theorem elems_of_prefix {st st' : Arrays α} {t : Slice} (hst : st <+: st') (h : st.Fits t) :
    st'.elems t = st.elems t ∧ st'.Fits t := by
  obtain ⟨As, rfl⟩ := hst
  cases hp : t.ptr with
  | none => simp_all [elems, Fits, array]; omega
  | some j =>
    by_cases hj : j < st.length
    · have : (st ++ As).array (some j) = st.array (some j) := by
        simp [array, List.getD_eq_getElem?_getD, List.getElem?_append_left hj]
      simp_all [elems, Fits]
    · have h0 : st.array (some j) = [] := by
        simp [array, List.getD_eq_getElem?_getD, List.getElem?_eq_none (not_lt.mp hj)]
      unfold Fits at h; rw [hp, h0] at h; simp at h
      simp [elems, Fits, hp, show t.len = 0 by omega, show t.off = 0 by omega, show t.cap = 0 by omega]

theorem elems_append_ne [Inhabited α] {st : Arrays α} {s t : Slice} (xs : List α) (h : st.Fits t)
    (hp : t.ptr ≠ s.ptr) : (st.append s xs).1.elems t = st.elems t ∧ (st.append s xs).1.Fits t := by
  unfold append
  split_ifs
  · exact ⟨rfl, h⟩
  · exact ⟨(elems_write_ne st _ xs hp).1, (elems_write_ne st _ xs hp).2.mpr h⟩
  · exact elems_of_prefix (List.prefix_append _ _) h

theorem eraseIdx_eq_elems (st : Arrays α) (s : Slice) (i : Nat) (hi : i + 1 ≤ s.len) :
    (st.elems s).eraseIdx i =
      (st.elems { s with len := i }) ++ st.elems { s with off := s.off + (i + 1), len := s.len - (i + 1), cap := s.cap - (i + 1) } := by
  simp only [elems, List.eraseIdx_eq_take_drop_succ, List.take_take, List.drop_take, List.drop_drop]
  congr 1; congr 1; omega

theorem deleteAt_ok [Inhabited α] {st : Arrays α} {s : Slice} {i : Nat} {r : Arrays α × Slice}
    (h : st.Fits s) (hd : st.deleteAt s i = .ok r) :
    i + 1 ≤ s.len ∧ r.1.elems r.2 = (st.elems s).eraseIdx i ∧ r.1.Fits r.2 ∧
      r.2.ptr = s.ptr ∧ r.2.off = s.off ∧ r.2.cap = s.cap := by
  unfold Fits at h
  simp only [deleteAt, Slice.sliceTo, Slice.sliceFrom] at hd
  split_ifs at hd with h1 h2
  · simp only [bind, Except.bind, pure, Except.pure, Except.ok.injEq] at hd
    subst hd
    have hf : st.Fits { s with len := i } := ⟨by simp; omega, by simpa using h.2⟩
    have ha := elems_append (st.elems { s with off := s.off + (i + 1), len := s.len - (i + 1), cap := s.cap - (i + 1) }) hf
    refine ⟨h2, by rw [ha.1, eraseIdx_eq_elems st s i h2], ha.2, ?_⟩
    have hb : st.Fits { s with off := s.off + (i + 1), len := s.len - (i + 1), cap := s.cap - (i + 1) } :=
      ⟨by simp; omega, by simp; omega⟩
    have hk := elems_length hb
    unfold append
    split_ifs with he hin
    · simp
    · simp
    · exfalso; apply hin
      refine ⟨?_, by simp [hk]; omega⟩
      cases hp : s.ptr with
      | none => rw [hp] at h; simp [array] at h; omega
      | some _ => rfl
  all_goals simp [bind, Except.bind] at hd

theorem deleteAt_eq [Inhabited α] (st : Arrays α) {s : Slice} {i : Nat} (hi : i < s.len)
    (hc : s.len ≤ s.cap) :
    st.deleteAt s i = .ok (st.append { s with len := i }
      (st.elems { s with off := s.off + (i + 1), len := s.len - (i + 1), cap := s.cap - (i + 1) })) := by
  simp only [deleteAt, Slice.sliceTo, Slice.sliceFrom, if_pos (show i ≤ s.cap by omega),
    if_pos (show i + 1 ≤ s.len by omega)]
  rfl

theorem eraseIdx_append_drop (l : List α) {i : Nat} (hi : i + 1 = l.length) :
    l.eraseIdx i ++ l.drop i = l := by
  rw [List.eraseIdx_eq_take_drop_succ, List.drop_eq_nil_of_le (by omega), List.append_nil,
    List.take_append_drop]

theorem deleteAt_range [Inhabited α] {st : Arrays α} {s : Slice} {i : Nat}
    {r : Arrays α × Slice} (h : st.Fits s) (hd : st.deleteAt s i = .ok r) :
    r.1.elems s = (st.elems s).eraseIdx i ++ (st.elems s).drop (s.len - 1) ∧ r.1.Fits s := by
  obtain ⟨hi, -, -, -, -, -⟩ := deleteAt_ok h hd
  rw [deleteAt_eq st (by omega) h.1, Except.ok.injEq] at hd
  subst hd
  have hl := elems_length h
  unfold Fits at h
  unfold append
  split_ifs with he hin
  · -- the erased element was the last one: nothing moves
    have : s.len = i + 1 := by
      have := List.isEmpty_iff.mp he
      simp [elems] at this; omega
    refine ⟨?_, h⟩
    rw [show s.len - 1 = i by omega, eraseIdx_append_drop _ (by omega)]
  · obtain ⟨hsome, -⟩ := hin
    simp only at hsome
    obtain ⟨p, hp⟩ := Option.isSome_iff_exists.mp hsome
    have hlt := lt_length_of_fits hp ⟨h.1, h.2⟩ (by omega)
    rw [hp] at h
    obtain ⟨hc1, hc2⟩ := h
    have hxs : (((st.array (some p)).drop (s.off + (i + 1))).take (s.len - (i + 1))).length =
        s.len - (i + 1) := by
      simp; omega
    simp only [elems, Fits, hp, array_write_self st p _ _ hlt]
    rw [hxs]
    refine ⟨@take_drop_write_erase α (st.array (some p)) s.off i s.len (by omega) (by omega),
      ?_⟩
    simp; omega
  · exfalso; apply hin
    refine ⟨?_, by simp [elems]; omega⟩
    cases hp : s.ptr with
    | none => rw [hp] at h; simp [array] at h; omega
    | some _ => rfl
theorem deleteAt_frame [Inhabited α] {st : Arrays α} {s t : Slice} {i : Nat} {r : Arrays α × Slice}
    (hd : st.deleteAt s i = .ok r) (ht : st.Fits t) (hp : t.ptr ≠ s.ptr) :
    r.1.elems t = st.elems t ∧ r.1.Fits t := by
  simp only [deleteAt, Slice.sliceTo, Slice.sliceFrom] at hd
  split_ifs at hd
  · simp only [bind, Except.bind, pure, Except.pure, Except.ok.injEq] at hd
    subst hd
    exact elems_append_ne _ ht hp
  all_goals simp [bind, Except.bind] at hd

theorem setIndex_ok {st st' : Arrays α} {s : Slice} {i : Nat} {x : α} (h : st.Fits s)
    (hs : st.setIndex s i x = .ok st') :
    i < s.len ∧ st'.elems s = (st.elems s).set i x ∧ st'.Fits s := by
  unfold setIndex at hs
  split_ifs at hs with hi
  · cases hs
    unfold Fits at h
    cases hp : s.ptr with
    | none => rw [hp] at h; simp [array] at h; omega
    | some p =>
      have hlt := lt_length_of_fits hp ⟨h.1, h.2⟩ (by omega)
      rw [hp] at h
      simp only [elems, Fits, hp, array_write_self st p _ _ hlt]
      refine ⟨hi, ?_, by simp; omega⟩
      apply List.ext_getElem (by simp; omega)
      intro j h1 h2
      simp only [List.getElem_take, List.getElem_drop, List.getElem_set]
      simp only [List.getElem_append, List.length_append, List.length_take, List.length_singleton,
        List.getElem_take, List.getElem_drop, List.getElem_singleton]
      split_ifs <;> first | omega | rfl | (congr 1; omega)

/-! ## Writes through one header -/

/-- `st'` and the header `s'` come from `st` and `s` by writes into `s`'s array or into a new
array at the end: every header over another array reads as before, and `s'` is over `s`'s
array or over the new one. -/
structure Rewrites (st st' : Arrays α) (s s' : Slice) : Prop where
  frame : ∀ t : Slice, t.ptr ≠ s.ptr → st.Fits t → st'.elems t = st.elems t ∧ st'.Fits t
  length : st.length ≤ st'.length
  ptr : s'.ptr = s.ptr ∨ ∃ a, s'.ptr = some a ∧ st.length ≤ a ∧ a < st'.length
  fits : st'.Fits s'

theorem length_write (st : Arrays α) (p : Option Nat) (k : Nat) (xs : List α) :
    (st.write p k xs).length = st.length := by
  cases p <;> simp [write]

theorem elems_of_array_nil {st : Arrays α} {t : Slice} (h : st.Fits t) (he : st.array t.ptr = [])
    (st' : Arrays α) : st'.elems t = [] ∧ st'.Fits t := by
  unfold Fits at h; rw [he] at h; simp at h
  simp [elems, Fits, show t.len = 0 by omega, show t.off = 0 by omega, show t.cap = 0 by omega]

theorem array_of_length_le (st : Arrays α) {a : Nat} (ha : st.length ≤ a) : st.array (some a) = [] := by
  simp [array, List.getD_eq_getElem?_getD, List.getElem?_eq_none ha]

theorem Rewrites.refl {st : Arrays α} {s : Slice} (h : st.Fits s) : Rewrites st st s s :=
  ⟨fun _ _ ht => ⟨rfl, ht⟩, le_rfl, .inl rfl, h⟩

theorem Rewrites.trans {st st' st'' : Arrays α} {s s' s'' : Slice} (h₁ : Rewrites st st' s s')
    (h₂ : Rewrites st' st'' s' s'') : Rewrites st st'' s s'' := by
  refine ⟨fun t hts ht => ?_, h₁.length.trans h₂.length, ?_, h₂.fits⟩
  · obtain ⟨he, hf⟩ := h₁.frame t hts ht
    by_cases hts' : t.ptr = s'.ptr
    · rcases h₁.ptr with hp | ⟨a, hp, ha, -⟩
      · exact absurd (hts'.trans hp) hts
      · have hnil := elems_of_array_nil ht (by rw [hts', hp]; exact array_of_length_le st ha)
        exact ⟨(hnil st'').1.trans (hnil st).1.symm, (hnil st'').2⟩
    · obtain ⟨he', hf'⟩ := h₂.frame t hts' hf
      exact ⟨he'.trans he, hf'⟩
  · rcases h₂.ptr with hp | ⟨b, hp, hb, hb'⟩
    · rcases h₁.ptr with hp' | ⟨a, hp', ha, ha'⟩
      · exact .inl (hp.trans hp')
      · exact .inr ⟨a, hp.trans hp', ha, Nat.lt_of_lt_of_le ha' h₂.length⟩
    · exact .inr ⟨b, hp, h₁.length.trans hb, hb'⟩

theorem Rewrites.setIndex {st st' : Arrays α} {s : Slice} {i : Nat} {x : α} (h : st.Fits s)
    (hs : st.setIndex s i x = .ok st') : Rewrites st st' s s := by
  have hw : st' = st.write s.ptr (s.off + i) [x] := by
    unfold Arrays.setIndex at hs; split_ifs at hs; cases hs; rfl
  subst hw
  exact ⟨fun t ht hf => ⟨(elems_write_ne st _ _ ht).1, (elems_write_ne st _ _ ht).2.mpr hf⟩,
    (length_write st _ _ _).ge, .inl rfl, (setIndex_ok h hs).2.2⟩

theorem Rewrites.append [Inhabited α] {st : Arrays α} {s : Slice} (h : st.Fits s) (xs : List α) :
    Rewrites st (st.append s xs).1 s (st.append s xs).2 := by
  refine ⟨fun t ht hf => elems_append_ne xs hf ht, ?_, ?_, (elems_append xs h).2⟩ <;>
    unfold Arrays.append <;> split_ifs
  · exact le_rfl
  · exact (length_write st _ _ _).ge
  · simp
  · exact .inl rfl
  · exact .inl rfl
  · exact .inr ⟨st.length, rfl, le_rfl, by simp⟩

theorem Rewrites.deleteAt [Inhabited α] {st : Arrays α} {s : Slice} {i : Nat} {r : Arrays α × Slice}
    (h : st.Fits s) (hd : st.deleteAt s i = .ok r) : Rewrites st r.1 s r.2 := by
  obtain ⟨hi, -, hfit, hp, -, -⟩ := deleteAt_ok h hd
  have hr := hd
  rw [deleteAt_eq st (by omega) h.1, Except.ok.injEq] at hr
  have hlen : st.length ≤ r.1.length := by
    rw [← hr]
    exact (Rewrites.append (s := { s with len := i }) ⟨by unfold Fits at h; simp; omega, h.2⟩ _).length
  exact ⟨fun t ht hf => deleteAt_frame hd hf ht, hlen, .inl hp, hfit⟩

end Arrays

end Go
end Dtle
