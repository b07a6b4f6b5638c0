import PeerStreamer.Foundation.SortedList

/-!
# `ord_set`: an array kept sorted by a comparison function

The container of `nhx/ord_set.c`: endpoints are kept in one (by node) and the packets of a bucket
in another (by packet id).  The comparison function is a parameter of every operation, as it is a
field of the C structure that never changes; `n_elements` is the length of `elements`.

`ordSetCheckPos` is the binary search of the source, loop and all, and `ordSetCheckPos_eq_rank`
says that on a sorted array under a lawful comparison it ends at `rank`.  From there each
operation gets one membership lemma (`ordSetFind_eq_some`, `mem_ordSetInsert`,
`mem_ordSetRemove`, `mem_ordSetWrite`) and one lemma saying that it keeps the array sorted; callers
use these and never the search.
-/

namespace PeerStreamer

/-- `struct ord_set`, without the comparison function. -/
structure OrdSet (α : Type) where
  size : ℕ
  elements : List α
  deriving DecidableEq

variable {α : Type}

def ORD_SET_INC_SIZE : ℕ := 10

/-- `ord_set_new`, for the positive sizes it accepts. -/
def ordSetNew (size : ℕ) : OrdSet α := ⟨size, []⟩

/-- The loop of `ord_set_check_pos`, on the bounds `a` and `b`; `c i` is the verdict of the probe
against `elements[i]`.  The three tests of the body look at the same `i`. -/
def ordSetCheckPosLoop (c : ℕ → ℤ) : (fuel a b : ℕ) → ℕ
  | 0, a, b => (b + a) / 2
  | fuel + 1, a, b =>
      let i := (b + a) / 2
      if b > a then
        let a' := if c i > 0 then i + 1 else a
        let b' := if c i < 0 then (if i ≠ 0 then i - 1 else 0) else b
        if c i = 0 then ordSetCheckPosLoop c fuel i i else ordSetCheckPosLoop c fuel a' b'
      else i

/-- `ord_set_check_pos`: where `n` is, or where it belongs. -/
def ordSetCheckPos (cmp : α → α → ℤ) (h : OrdSet α) (n : α) : ℕ :=
  let c := fun i => (h.elements[i]?).elim 0 (cmp n)
  if h.elements.length > 0 then
    -- each round shrinks `b - a`, so as many rounds as there are elements are enough
    let i := ordSetCheckPosLoop c h.elements.length 0 (h.elements.length - 1)
    if c i > 0 then i + 1 else i
  else 0

/-- `ord_set_find`. -/
def ordSetFind (cmp : α → α → ℤ) (os : OrdSet α) (el : α) : Option α :=
  match os.elements[ordSetCheckPos cmp os el]? with
  | some x => if cmp x el = 0 then some x else none
  | none => none

/-- `ord_set_remove` on a set that does not own its elements (`free_element = 0`). -/
def ordSetRemove (cmp : α → α → ℤ) (os : OrdSet α) (el : α) : OrdSet α × ℕ :=
  let i := ordSetCheckPos cmp os el
  match os.elements[i]? with
  | some x =>
      if cmp x el = 0 then
        ({ os with elements := os.elements.take i ++ os.elements.drop (i + 1) }, 0)
      else (os, 1)
  | none => (os, 1)

/-- `ord_set_insert`: the new set and the element then in it. -/
def ordSetInsert (cmp : α → α → ℤ) (os : OrdSet α) (el : α) (override : Bool) : OrdSet α × α :=
  let i := ordSetCheckPos cmp os el
  let grown : OrdSet α :=
    { size := if os.elements.length + 1 ≥ os.size then os.size + ORD_SET_INC_SIZE else os.size
      elements := os.elements.take i ++ el :: os.elements.drop i }
  match os.elements[i]? with
  | none => (grown, el)
  | some x =>
      if cmp x el ≠ 0 then (grown, el)
      else if override then ({ os with elements := os.elements.set i el }, el)
      else (os, x)

/-- A store through the pointer to the element equivalent to `el`: what the set holds after the
caller of `ord_set_find` has updated the element it found. -/
def ordSetWrite (cmp : α → α → ℤ) (os : OrdSet α) (el : α) : OrdSet α :=
  { os with elements := os.elements.map fun x => if cmp x el = 0 then el else x }

/-- The array is strictly increasing. -/
def OrdSet.Sorted (cmp : α → α → ℤ) (os : OrdSet α) : Prop := SortedBy cmp os.elements

lemma ordSetNew_sorted (cmp : α → α → ℤ) (size : ℕ) : (ordSetNew size).Sorted cmp :=
  List.Pairwise.nil

/-! ## The binary search -/

/-- The invariant of the loop: everything before `a` is below the probe, everything after `b`
above it, and the bounds have crossed by at most one. -/
structure CheckPosInv (c : ℕ → ℤ) (n a b : ℕ) : Prop where
  below : ∀ j, j < a → 0 < c j
  above : ∀ j, b < j → j < n → c j < 0
  a_lt : a < n
  b_lt : b < n
  cross : a ≤ b + 1

/-- What the search promises: the verdicts change at `r`. -/
def SplitsAt (c : ℕ → ℤ) (n r : ℕ) : Prop :=
  r ≤ n ∧ (∀ j, j < r → 0 < c j) ∧ ∀ j, r ≤ j → j < n → c j ≤ 0

variable {c : ℕ → ℤ} {n a b : ℕ}

/-- Once the bounds have met, the final comparison of `ord_set_check_pos` settles the position. -/
lemma CheckPosInv.exit (h : CheckPosInv c n a b) (hab : ¬ b > a)
    (hmono : ∀ i j, i < j → j < n → c i ≤ 0 → c j < 0) :
    SplitsAt c n (if c ((b + a) / 2) > 0 then (b + a) / 2 + 1 else (b + a) / 2) := by
  obtain ⟨hbelow, habove, ha, hb, hcross⟩ := h
  -- either `a = b`, or `b` has been moved just below `a`
  rcases Nat.lt_or_eq_of_le (Nat.le_of_not_lt hab) with hlt | rfl
  · have hi : (b + a) / 2 = b := by omega
    have hba : b + 1 = a := by omega
    rw [hi, if_pos (hbelow b hlt)]
    exact ⟨by omega, fun j hj => hbelow j (by omega), fun j hj hjn => (habove j hj hjn).le⟩
  · have hi : (b + b) / 2 = b := by omega
    rw [hi]
    split_ifs with hc
    · refine ⟨by omega, fun j hj => ?_, fun j hj hjn => (habove j (by omega) hjn).le⟩
      rcases Nat.lt_or_eq_of_le (Nat.le_of_lt_succ hj) with hlt | rfl
      · exact hbelow j hlt
      · exact hc
    · refine ⟨by omega, hbelow, fun j hj hjn => ?_⟩
      rcases Nat.lt_or_eq_of_le hj with hlt | rfl
      · exact (hmono b j hlt hjn (by omega)).le
      · omega

/-- The loop, followed by the final comparison, finds the split, given as many rounds as the
bounds are apart. -/
lemma ordSetCheckPosLoop_splits (hmono : ∀ i j, i < j → j < n → c i ≤ 0 → c j < 0)
    (fuel : ℕ) (h : CheckPosInv c n a b) (hfuel : b - a ≤ fuel) :
    SplitsAt c n (if c (ordSetCheckPosLoop c fuel a b) > 0
      then ordSetCheckPosLoop c fuel a b + 1 else ordSetCheckPosLoop c fuel a b) := by
  induction fuel generalizing a b with
  | zero => exact h.exit (by omega) hmono
  | succ fuel ih =>
      rw [ordSetCheckPosLoop]
      by_cases hab : b > a
      · simp only [hab, if_true]
        obtain ⟨hbelow, habove, ha, hb, hcross⟩ := h
        set i := (b + a) / 2 with hi
        have hbound : a ≤ i ∧ i < b := by omega
        -- whatever is at or after a probe that is not above is above
        rcases lt_trichotomy (c i) 0 with hc | hc | hc
        · simp only [hc, not_lt.mpr hc.le, hc.ne, if_true, if_false, gt_iff_lt]
          refine ih ⟨hbelow, fun j hj hjn => ?_, ha, by split_ifs <;> omega,
            by split_ifs <;> omega⟩ (by split_ifs <;> omega)
          rcases Nat.lt_or_ge i j with hlt | hge
          · exact hmono i j hlt hjn hc.le
          · have hji : j = i := by split_ifs at hj <;> omega
            rwa [hji]
        · simp only [hc, if_true]
          refine ih ⟨fun j hj => ?_, fun j hj hjn => hmono i j hj hjn hc.le, by omega, by omega,
            by omega⟩ (by omega)
          by_contra hneg
          have := hmono j i hj (by omega) (by omega)
          omega
        · simp only [hc, not_lt.mpr hc.le, hc.ne', if_true, if_false, gt_iff_lt]
          refine ih ⟨fun j hj => ?_, habove, by omega, hb, by omega⟩ (by omega)
          rcases Nat.lt_or_eq_of_le (Nat.le_of_lt_succ hj) with hlt | rfl
          · by_contra hneg
            have := hmono j i hlt (by omega) (by omega)
            omega
          · exact hc
      · simp only [hab, if_false]
        exact h.exit hab hmono

variable {cmp : α → α → ℤ} {os : OrdSet α}

/-- **The search ends at the rank.**  On a sorted array under a lawful comparison,
`ord_set_check_pos` returns the number of elements below the probe. -/
theorem ordSetCheckPos_eq_rank (hc : LawfulCmp cmp) (hs : os.Sorted cmp) (el : α) :
    ordSetCheckPos cmp os el = rank cmp el os.elements := by
  rw [ordSetCheckPos]
  set c := fun i : ℕ => (os.elements[i]?).elim 0 (cmp el) with hcdef
  have hval : ∀ i (hi : i < os.elements.length), c i = cmp el os.elements[i] := by
    intro i hi
    simp [hcdef, List.getElem?_eq_getElem hi]
  have hmono : ∀ i j, i < j → j < os.elements.length → c i ≤ 0 → c j < 0 := by
    intro i j hij hj hi
    rw [hval i (by omega)] at hi
    rw [hval j hj]
    exact hc.lt_of_le_of_lt hi (List.pairwise_iff_getElem.mp hs i j (by omega) hj hij)
  by_cases hn : os.elements.length > 0
  · have hstart : CheckPosInv c os.elements.length 0 (os.elements.length - 1) :=
      ⟨fun j hj => by omega, fun j hj hjn => by omega, hn, by omega, by omega⟩
    have hsplit := ordSetCheckPosLoop_splits hmono os.elements.length hstart (by omega)
    simp only [hn, if_true]
    obtain ⟨hle, hbelow, habove⟩ := hsplit
    refine eq_rank hc hs hle (fun i hi hir => ?_) (fun i hi hri => ?_)
    · have := hbelow i hir
      rw [hval i hi] at this
      exact (hc.swap _ _).mpr this
    · have := habove i hri hi
      rw [hval i hi] at this
      have := hc.swap os.elements[i] el
      omega
  · have hnil : os.elements = [] := List.length_eq_zero_iff.mp (by omega)
    simp [hnil, rank]

/-! ## What each operation does -/

/-- `ord_set_find` returns the equivalent element exactly when there is one. -/
theorem ordSetFind_eq_some (hc : LawfulCmp cmp) (hs : os.Sorted cmp) {el x : α} :
    ordSetFind cmp os el = some x ↔ x ∈ os.elements ∧ cmp x el = 0 := by
  rw [ordSetFind, ordSetCheckPos_eq_rank hc hs, ← getElem?_rank_eq_some hc hs]
  cases os.elements[rank cmp el os.elements]? with
  | none => simp
  | some y =>
      by_cases hy : cmp y el = 0
      · simp only [hy, if_true, Option.some.injEq]
        exact ⟨fun h => ⟨h, h ▸ hy⟩, fun h => h.1⟩
      · simp only [hy, if_false, reduceCtorEq, Option.some.injEq, false_iff, not_and]
        rintro rfl
        exact hy

lemma ordSetFind_eq_none (hc : LawfulCmp cmp) (hs : os.Sorted cmp) (el : α) :
    ordSetFind cmp os el = none ↔ ∀ x ∈ os.elements, cmp x el ≠ 0 := by
  constructor
  · intro h x hx hxe
    rw [(ordSetFind_eq_some hc hs).mpr ⟨hx, hxe⟩] at h
    cases h
  · intro h
    cases hf : ordSetFind cmp os el with
    | none => rfl
    | some x =>
        obtain ⟨hx, hxe⟩ := (ordSetFind_eq_some hc hs).mp hf
        exact absurd hxe (h x hx)

/-- An element equivalent to none present goes in at its rank. -/
lemma ordSetInsert_elements (hc : LawfulCmp cmp) (hs : os.Sorted cmp) {el : α} {ov : Bool}
    (hnew : ordSetFind cmp os el = none) :
    (ordSetInsert cmp os el ov).1.elements
      = os.elements.take (rank cmp el os.elements)
        ++ el :: os.elements.drop (rank cmp el os.elements) := by
  have hne := (ordSetFind_eq_none hc hs el).mp hnew
  simp only [ordSetInsert, ordSetCheckPos_eq_rank hc hs]
  cases hx : os.elements[rank cmp el os.elements]? with
  | none => rfl
  | some x => simp [hne x (List.mem_of_getElem? hx)]

lemma mem_ordSetInsert (hc : LawfulCmp cmp) (hs : os.Sorted cmp) {el x : α} {ov : Bool}
    (hnew : ordSetFind cmp os el = none) :
    x ∈ (ordSetInsert cmp os el ov).1.elements ↔ x = el ∨ x ∈ os.elements := by
  rw [ordSetInsert_elements hc hs hnew, List.mem_append, List.mem_cons]
  conv_rhs => rw [← List.take_append_drop (rank cmp el os.elements) os.elements, List.mem_append]
  tauto

lemma ordSetInsert_sorted (hc : LawfulCmp cmp) (hs : os.Sorted cmp) {el : α} (ov : Bool)
    (hnew : ordSetFind cmp os el = none) : (ordSetInsert cmp os el ov).1.Sorted cmp := by
  rw [OrdSet.Sorted, ordSetInsert_elements hc hs hnew]
  exact SortedBy.insertIdx_rank hc hs ((ordSetFind_eq_none hc hs el).mp hnew)

/-- `ord_set_remove` deletes exactly the equivalent element. -/
theorem ordSetRemove_elements (hc : LawfulCmp cmp) (hs : os.Sorted cmp) (el : α) :
    (ordSetRemove cmp os el).1.elements = os.elements.filter fun x => cmp x el ≠ 0 := by
  simp only [ordSetRemove, ordSetCheckPos_eq_rank hc hs]
  have hnone : (∀ x ∈ os.elements, cmp x el ≠ 0) →
      os.elements.filter (fun x => cmp x el ≠ 0) = os.elements := fun h =>
    List.filter_eq_self.mpr fun x hx => by simpa using h x hx
  have habsent := ordSetFind_eq_none hc hs el
  rw [ordSetFind, ordSetCheckPos_eq_rank hc hs] at habsent
  cases hx : os.elements[rank cmp el os.elements]? with
  | none =>
      simp only [hx, true_iff] at habsent
      exact (hnone habsent).symm
  | some x =>
      by_cases hxe : cmp x el = 0
      · simp only [hxe, if_true]
        exact (SortedBy.filter_ne hc hs hx hxe).symm
      · simp only [hx, hxe, if_false, true_iff] at habsent ⊢
        exact (hnone habsent).symm

lemma mem_ordSetRemove (hc : LawfulCmp cmp) (hs : os.Sorted cmp) {el x : α} :
    x ∈ (ordSetRemove cmp os el).1.elements ↔ x ∈ os.elements ∧ cmp x el ≠ 0 := by
  rw [ordSetRemove_elements hc hs, List.mem_filter]
  simp

lemma ordSetRemove_sorted (hc : LawfulCmp cmp) (hs : os.Sorted cmp) (el : α) :
    (ordSetRemove cmp os el).1.Sorted cmp := by
  rw [OrdSet.Sorted, ordSetRemove_elements hc hs]
  exact hs.sublist List.filter_sublist

/-- A store through a found pointer replaces that element and no other. -/
lemma mem_ordSetWrite {el x : α} :
    x ∈ (ordSetWrite cmp os el).elements
      ↔ (x = el ∧ ∃ y ∈ os.elements, cmp y el = 0) ∨ (x ∈ os.elements ∧ cmp x el ≠ 0) := by
  simp only [ordSetWrite, List.mem_map]
  constructor
  · rintro ⟨y, hy, rfl⟩
    by_cases h : cmp y el = 0
    · rw [if_pos h]
      exact Or.inl ⟨rfl, y, hy, h⟩
    · rw [if_neg h]
      exact Or.inr ⟨hy, h⟩
  · rintro (⟨rfl, y, hy, h⟩ | ⟨hx, h⟩)
    · exact ⟨y, hy, if_pos h⟩
    · exact ⟨x, hx, if_neg h⟩

lemma ordSetWrite_sorted (hc : LawfulCmp cmp) (hs : os.Sorted cmp) (el : α) :
    (ordSetWrite cmp os el).Sorted cmp := by
  refine SortedBy.map_equiv hc hs fun x _ => ?_
  split_ifs with h
  · exact hc.eq_comm.mp h
  · exact hc.refl x

/-! ## Equivalent elements -/

/-- Where an equivalent element is present, the search ends at it. -/
lemma ordSetFind_position (hc : LawfulCmp cmp) (hs : os.Sorted cmp) {el x : α}
    (hfind : ordSetFind cmp os el = some x) :
    os.elements[ordSetCheckPos cmp os el]? = some x ∧ cmp x el = 0 := by
  rw [ordSetCheckPos_eq_rank hc hs]
  exact (getElem?_rank_eq_some hc hs).mpr ((ordSetFind_eq_some hc hs).mp hfind)

/-- In place of an equivalent element the new one is stored, or nothing happens. -/
lemma ordSetInsert_present (hc : LawfulCmp cmp) (hs : os.Sorted cmp) {el x : α} {ov : Bool}
    (hfind : ordSetFind cmp os el = some x) :
    ordSetInsert cmp os el ov = if ov then (ordSetWrite cmp os el, el) else (os, x) := by
  obtain ⟨hx, hxe⟩ := ordSetFind_position hc hs hfind
  simp only [ordSetInsert, hx, hxe, ne_eq, not_true_eq_false, if_false]
  refine if_congr Iff.rfl (Prod.ext ?_ rfl) rfl
  -- no other element is equivalent, so the store is the only change
  refine congrArg (OrdSet.mk os.size) (List.ext_getElem (by simp) fun j hj hj' => ?_)
  rw [List.length_set] at hj
  rw [List.getElem_set, List.getElem_map]
  obtain ⟨hi, hxi⟩ := List.getElem?_eq_some_iff.mp hx
  by_cases hij : ordSetCheckPos cmp os el = j
  · subst hij
    rw [if_pos rfl, if_pos (by rw [hxi, hxe])]
  · rw [if_neg hij, if_neg]
    intro hje
    have hsame := hs.eq_of_mem hc (List.getElem_mem hj) (List.getElem_mem hi)
      (hc.eq_trans hje (hc.eq_comm.mp (by rwa [hxi])))
    exact hij ((List.Nodup.getElem_inj_iff (SortedBy.nodup hc hs)).mp hsame).symm

/-- What `ord_set_insert` returns for a new element. -/
lemma ordSetInsert_absent {el : α} {ov : Bool} (hfind : ordSetFind cmp os el = none) :
    (ordSetInsert cmp os el ov).2 = el := by
  rw [ordSetFind] at hfind
  rw [ordSetInsert]
  cases hx : os.elements[ordSetCheckPos cmp os el]? with
  | none => rfl
  | some x =>
      rw [hx] at hfind
      have hxe : cmp x el ≠ 0 := fun hxe => by simp [hxe] at hfind
      simp only [hxe, ne_eq, not_false_eq_true, if_true]

/-- `ord_set_remove` answers 0 if there is something to remove. -/
lemma ordSetRemove_present {el x : α} (hfind : ordSetFind cmp os el = some x) :
    (ordSetRemove cmp os el).2 = 0 := by
  rw [ordSetFind] at hfind
  rw [ordSetRemove]
  cases hx : os.elements[ordSetCheckPos cmp os el]? with
  | none => simp [hx] at hfind
  | some y =>
      rw [hx] at hfind
      have hye : cmp y el = 0 := by
        by_contra hne
        simp [hne] at hfind
      simp only [hye, if_true]

/-- Otherwise it answers 1 and does nothing. -/
lemma ordSetRemove_absent {el : α} (hfind : ordSetFind cmp os el = none) :
    ordSetRemove cmp os el = (os, 1) := by
  rw [ordSetFind] at hfind
  rw [ordSetRemove]
  cases hx : os.elements[ordSetCheckPos cmp os el]? with
  | none => rfl
  | some x =>
      rw [hx] at hfind
      have hxe : cmp x el ≠ 0 := fun hxe => by simp [hxe] at hfind
      simp only [hxe, if_false]

/-! ## Lookups after an update -/

lemma ordSetFind_insert (hc : LawfulCmp cmp) (hs : os.Sorted cmp) {el k : α} {ov : Bool}
    (hnew : ordSetFind cmp os el = none) :
    ordSetFind cmp (ordSetInsert cmp os el ov).1 k
      = if cmp el k = 0 then some el else ordSetFind cmp os k := by
  have hs' := ordSetInsert_sorted hc hs ov hnew
  have habs := (ordSetFind_eq_none hc hs el).mp hnew
  ext x
  rw [ordSetFind_eq_some hc hs', mem_ordSetInsert hc hs hnew]
  split_ifs with h
  · rw [Option.some.injEq]
    constructor
    · rintro ⟨rfl | hx, hxk⟩
      · rfl
      · exact absurd (hc.eq_trans hxk (hc.eq_comm.mp h)) (habs x hx)
    · rintro rfl
      exact ⟨Or.inl rfl, h⟩
  · rw [ordSetFind_eq_some hc hs]
    constructor
    · rintro ⟨rfl | hx, hxk⟩
      · exact absurd hxk h
      · exact ⟨hx, hxk⟩
    · rintro ⟨hx, hxk⟩
      exact ⟨Or.inr hx, hxk⟩

lemma ordSetFind_remove (hc : LawfulCmp cmp) (hs : os.Sorted cmp) {el k : α} :
    ordSetFind cmp (ordSetRemove cmp os el).1 k
      = if cmp el k = 0 then none else ordSetFind cmp os k := by
  have hs' := ordSetRemove_sorted hc hs el
  ext x
  rw [ordSetFind_eq_some hc hs', mem_ordSetRemove hc hs]
  split_ifs with h
  · simp only [iff_false]
    rintro ⟨⟨-, hxe⟩, hxk⟩
    exact hxe (hc.eq_trans hxk (hc.eq_comm.mp h))
  · rw [ordSetFind_eq_some hc hs]
    constructor
    · rintro ⟨⟨hx, -⟩, hxk⟩
      exact ⟨hx, hxk⟩
    · rintro ⟨hx, hxk⟩
      exact ⟨⟨hx, fun hxe => h (hc.eq_trans (hc.eq_comm.mp hxe) hxk)⟩, hxk⟩

lemma ordSetFind_write (hc : LawfulCmp cmp) (hs : os.Sorted cmp) (el k : α) :
    ordSetFind cmp (ordSetWrite cmp os el) k
      = if cmp el k = 0 then (ordSetFind cmp os k).map fun _ => el else ordSetFind cmp os k := by
  have hs' := ordSetWrite_sorted hc hs el
  ext x
  rw [ordSetFind_eq_some hc hs', mem_ordSetWrite]
  split_ifs with h
  · simp only [Option.map_eq_some_iff, ordSetFind_eq_some hc hs]
    constructor
    · rintro ⟨⟨rfl, y, hy, hye⟩ | ⟨hx, hxe⟩, hxk⟩
      · exact ⟨y, ⟨hy, hc.eq_trans hye h⟩, rfl⟩
      · exact absurd (hc.eq_trans hxk (hc.eq_comm.mp h)) hxe
    · rintro ⟨y, ⟨hy, hyk⟩, rfl⟩
      exact ⟨Or.inl ⟨rfl, y, hy, hc.eq_trans hyk (hc.eq_comm.mp h)⟩, h⟩
  · rw [ordSetFind_eq_some hc hs]
    constructor
    · rintro ⟨⟨rfl, -⟩ | ⟨hx, -⟩, hxk⟩
      · exact absurd hxk h
      · exact ⟨hx, hxk⟩
    · rintro ⟨hx, hxk⟩
      exact ⟨Or.inr ⟨hx, fun hxe => h (hc.eq_trans (hc.eq_comm.mp hxe) hxk)⟩, hxk⟩

/-! ## Sums over the elements -/

section Sums

variable {A : Type} [AddCommMonoid A] (r : α → A)

lemma sum_ordSetInsert (hc : LawfulCmp cmp) (hs : os.Sorted cmp) {el : α} {ov : Bool}
    (hnew : ordSetFind cmp os el = none) :
    ((ordSetInsert cmp os el ov).1.elements.map r).sum = r el + (os.elements.map r).sum := by
  rw [ordSetInsert_elements hc hs hnew]
  conv_rhs => rw [← List.take_append_drop (rank cmp el os.elements) os.elements]
  simp only [List.map_append, List.map_cons, List.sum_append, List.sum_cons]
  exact add_left_comm _ _ _

/-- The element found is one summand: a removal takes it away, and a store exchanges it. -/
lemma sum_ordSetFind (hc : LawfulCmp cmp) (hs : os.Sorted cmp) {k x : α}
    (hfind : ordSetFind cmp os k = some x) :
    ∃ rest, (os.elements.map r).sum = r x + rest ∧ ∀ el, cmp el k = 0 →
      ((ordSetRemove cmp os el).1.elements.map r).sum = rest
        ∧ ((ordSetWrite cmp os el).elements.map r).sum = r el + rest := by
  obtain ⟨hx, hxk⟩ := (ordSetFind_eq_some hc hs).mp hfind
  obtain ⟨l₁, l₂, hl⟩ := List.append_of_mem hx
  refine ⟨(l₁.map r).sum + (l₂.map r).sum, ?_, fun el hel => ?_⟩
  · rw [hl]
    simp only [List.map_append, List.map_cons, List.sum_append, List.sum_cons]
    exact add_left_comm _ _ _
  · have hxel : cmp x el = 0 := hc.eq_trans hxk (hc.eq_comm.mp hel)
    -- in a sorted array no other element is equivalent to `x`
    have hsorted : SortedBy cmp (l₁ ++ x :: l₂) := hl ▸ hs
    obtain ⟨-, hsorted₂, hsorted₁⟩ := List.pairwise_append.mp hsorted
    have h₁ : ∀ y ∈ l₁, cmp y el ≠ 0 := fun y hy hye => by
      have hlt := hsorted₁ y hy x List.mem_cons_self
      have heq := hc.eq_trans hye (hc.eq_comm.mp hxel)
      omega
    have h₂ : ∀ y ∈ l₂, cmp y el ≠ 0 := fun y hy hye => by
      have hlt := (List.pairwise_cons.mp hsorted₂).1 y hy
      have heq := hc.eq_trans hxel (hc.eq_comm.mp hye)
      omega
    have hmap : ∀ l : List α, (∀ y ∈ l, cmp y el ≠ 0) →
        (l.map fun y => if cmp y el = 0 then el else y) = l := fun l h =>
      (List.map_congr_left fun y hy => if_neg (h y hy)).trans (List.map_id' l)
    constructor
    · rw [ordSetRemove_elements hc hs, hl, List.filter_append,
        List.filter_cons_of_neg (by simpa using hxel),
        List.filter_eq_self.mpr fun y hy => by simpa using h₁ y hy,
        List.filter_eq_self.mpr fun y hy => by simpa using h₂ y hy, List.map_append,
        List.sum_append]
    · simp only [ordSetWrite, hl, List.map_append, List.map_cons, hmap l₁ h₁, hmap l₂ h₂,
        if_pos hxel, List.sum_append, List.sum_cons]
      exact add_left_comm _ _ _

end Sums

end PeerStreamer
