import Mathlib.Data.List.Basic
import Mathlib.Tactic

/-!
# Lists sorted by a C comparison function

A C comparison function answers with a number whose *sign* is the verdict.  `LawfulCmp` says that
the verdicts are those of a total preorder, and `SortedBy` is the strictly increasing list.

The one notion the rest needs is `rank cmp n l`, the number of elements below `n`: in a sorted
list these are exactly the first `rank cmp n l` of them (`lt_rank_iff`), so it is where a binary
search must end, where an equivalent element sits if there is one (`getElem?_rank_eq_some`) and
where a new one belongs (`SortedBy.insertIdx_rank`).
-/

namespace PeerStreamer

variable {α : Type} {cmp : α → α → ℤ}

/-! ## Lawful comparison functions -/

/-- The signs of `cmp` are the verdicts of a total preorder. -/
structure LawfulCmp (cmp : α → α → ℤ) : Prop where
  swap : ∀ a b, cmp a b < 0 ↔ 0 < cmp b a
  trans : ∀ a b c, cmp a b ≤ 0 → cmp b c ≤ 0 → cmp a c ≤ 0

namespace LawfulCmp

lemma refl (h : LawfulCmp cmp) (a : α) : cmp a a = 0 := by
  have := h.swap a a
  omega

lemma eq_comm (h : LawfulCmp cmp) {a b : α} : cmp a b = 0 ↔ cmp b a = 0 := by
  have h₁ := h.swap a b
  have h₂ := h.swap b a
  omega

lemma lt_of_lt_of_le (h : LawfulCmp cmp) {a b c : α} (hab : cmp a b < 0) (hbc : cmp b c ≤ 0) :
    cmp a c < 0 := by
  by_contra hac
  have hca : cmp c a ≤ 0 := by have := h.swap a c; have := h.swap c a; omega
  have hba : cmp b a ≤ 0 := h.trans b c a hbc hca
  have := h.swap a b
  omega

lemma lt_of_le_of_lt (h : LawfulCmp cmp) {a b c : α} (hab : cmp a b ≤ 0) (hbc : cmp b c < 0) :
    cmp a c < 0 := by
  by_contra hac
  have hca : cmp c a ≤ 0 := by have := h.swap a c; have := h.swap c a; omega
  have hcb : cmp c b ≤ 0 := h.trans c a b hca hab
  have := h.swap b c
  omega

lemma lt_trans (h : LawfulCmp cmp) {a b c : α} (hab : cmp a b < 0) (hbc : cmp b c < 0) :
    cmp a c < 0 :=
  h.lt_of_lt_of_le hab hbc.le

lemma eq_trans (h : LawfulCmp cmp) {a b c : α} (hab : cmp a b = 0) (hbc : cmp b c = 0) :
    cmp a c = 0 := by
  have h₁ := h.trans a b c hab.le hbc.le
  have h₂ := h.trans c b a (h.eq_comm.mp hbc).le (h.eq_comm.mp hab).le
  have := h.swap a c
  have := h.swap c a
  omega

end LawfulCmp

/-! ## Sorted lists -/

/-- Strictly increasing for `cmp`. -/
def SortedBy (cmp : α → α → ℤ) (l : List α) : Prop := l.Pairwise fun a b => cmp a b < 0

/-- How many elements of `l` lie below `n`. -/
def rank (cmp : α → α → ℤ) (n : α) (l : List α) : ℕ := l.countP fun x => cmp x n < 0

lemma rank_le_length (n : α) (l : List α) : rank cmp n l ≤ l.length := List.countP_le_length

/-- In a sorted list the elements below `n` are the first `rank cmp n l`. -/
lemma lt_rank_iff (hc : LawfulCmp cmp) {l : List α} (hl : SortedBy cmp l) (n : α) {i : ℕ}
    (hi : i < l.length) : i < rank cmp n l ↔ cmp l[i] n < 0 := by
  induction l generalizing i with
  | nil => simp at hi
  | cons x l ih =>
      obtain ⟨hx, hl'⟩ := List.pairwise_cons.mp hl
      by_cases hxn : cmp x n < 0
      · rw [rank, List.countP_cons_of_pos (by simpa using hxn)]
        cases i with
        | zero => simpa using hxn
        | succ i => simpa [rank] using ih hl' (i := i) (by simpa using hi)
      · -- nothing at or after an element that is not below `n` is below `n`
        have hnone : ∀ y ∈ l, ¬ cmp y n < 0 := fun y hy h => hxn (hc.lt_trans (hx y hy) h)
        have hrank : rank cmp n (x :: l) = 0 := by
          rw [rank, List.countP_eq_zero]
          intro y hy
          rcases List.mem_cons.mp hy with rfl | hy
          · simpa using hxn
          · simpa using hnone y hy
        rw [hrank]
        cases i with
        | zero => simpa using hxn
        | succ i => simpa using hnone _ (List.getElem_mem (by simpa using hi))

/-- `rank` is the only position that separates the elements below `n` from the others. -/
lemma eq_rank (hc : LawfulCmp cmp) {l : List α} (hl : SortedBy cmp l) {n : α} {r : ℕ}
    (hr : r ≤ l.length) (hbelow : ∀ i (hi : i < l.length), i < r → cmp l[i] n < 0)
    (habove : ∀ i (hi : i < l.length), r ≤ i → ¬ cmp l[i] n < 0) : r = rank cmp n l := by
  have hle : rank cmp n l ≤ l.length := rank_le_length n l
  rcases Nat.lt_trichotomy r (rank cmp n l) with h | h | h
  · exact absurd ((lt_rank_iff hc hl n (by omega)).mp h) (habove r (by omega) le_rfl)
  · exact h
  · have hi : rank cmp n l < l.length := by omega
    exact absurd ((lt_rank_iff hc hl n hi).mpr (hbelow _ hi h)) (lt_irrefl _)

/-- Two equivalent elements of a sorted list are the same element. -/
lemma SortedBy.eq_of_mem (hc : LawfulCmp cmp) {l : List α} (hl : SortedBy cmp l) {x y : α}
    (hx : x ∈ l) (hy : y ∈ l) (hxy : cmp x y = 0) : x = y := by
  induction l with
  | nil => simp at hx
  | cons a l ih =>
      obtain ⟨ha, hl'⟩ := List.pairwise_cons.mp hl
      have hyx := hc.eq_comm.mp hxy
      rcases List.mem_cons.mp hx with hxa | hx' <;> rcases List.mem_cons.mp hy with hya | hy'
      · rw [hxa, hya]
      · have := ha y hy'; rw [← hxa] at this; omega
      · have := ha x hx'; rw [← hya] at this; omega
      · exact ih hl' hx' hy'

lemma SortedBy.nodup (hc : LawfulCmp cmp) {l : List α} (hl : SortedBy cmp l) : l.Nodup :=
  hl.imp fun {a b} hab hne => by
    have := hc.refl a
    rw [← hne] at hab
    omega

/-- What sits at the rank of `n` is the element equivalent to `n`, if the list has one. -/
lemma getElem?_rank_eq_some (hc : LawfulCmp cmp) {l : List α} (hl : SortedBy cmp l) {n x : α} :
    (l[rank cmp n l]? = some x ∧ cmp x n = 0) ↔ x ∈ l ∧ cmp x n = 0 := by
  constructor
  · rintro ⟨h, hx⟩
    exact ⟨List.mem_of_getElem? h, hx⟩
  · rintro ⟨h, hx⟩
    obtain ⟨i, hi, rfl⟩ := List.getElem_of_mem h
    refine ⟨?_, hx⟩
    have hir : i = rank cmp n l := by
      refine eq_rank hc hl hi.le (fun j hj hji => ?_) (fun j hj hij => ?_)
      · exact hc.lt_of_lt_of_le (List.pairwise_iff_getElem.mp hl j i hj hi hji) hx.le
      · rcases Nat.lt_or_eq_of_le hij with h | rfl
        · have hlt := hc.lt_of_le_of_lt (hc.eq_comm.mp hx).le
            (List.pairwise_iff_getElem.mp hl i j hi hj h)
          have := hc.swap n l[j]
          omega
        · omega
    rw [← hir, List.getElem?_eq_getElem hi]

/-- Without the elements equivalent to `n`, where there is one: no other element is. -/
lemma SortedBy.filter_ne (hc : LawfulCmp cmp) {l : List α} (hl : SortedBy cmp l) {n x : α} {i : ℕ}
    (hx : l[i]? = some x) (hxn : cmp x n = 0) :
    l.filter (fun y => cmp y n ≠ 0) = l.take i ++ l.drop (i + 1) := by
  obtain ⟨hi, rfl⟩ := List.getElem?_eq_some_iff.mp hx
  have hsplit : l = l.take i ++ l[i] :: l.drop (i + 1) := by
    rw [List.cons_getElem_drop_succ, List.take_append_drop]
  have hrest : ∀ y ∈ l.take i ++ l.drop (i + 1), cmp y n ≠ 0 := by
    intro y hy hyn
    have hnodup : l.Nodup := hl.nodup hc
    rw [hsplit] at hnodup
    have hmem : y ∈ l := by
      rcases List.mem_append.mp hy with h | h
      · exact List.mem_of_mem_take h
      · exact List.mem_of_mem_drop h
    obtain rfl := hl.eq_of_mem hc hmem (List.getElem_mem hi)
      (hc.eq_trans hyn (hc.eq_comm.mp hxn))
    exact (List.nodup_middle.mp hnodup).notMem hy
  conv_lhs => rw [hsplit]
  rw [List.filter_append, List.filter_cons_of_neg (by simpa using hxn), ← List.filter_append,
    List.filter_eq_self]
  intro y hy
  simpa using hrest y hy

/-- A new element goes in at its rank. -/
lemma SortedBy.insertIdx_rank (hc : LawfulCmp cmp) {l : List α} (hl : SortedBy cmp l) {n : α}
    (hn : ∀ x ∈ l, cmp x n ≠ 0) :
    SortedBy cmp (l.take (rank cmp n l) ++ n :: l.drop (rank cmp n l)) := by
  have hbelow : ∀ x ∈ l.take (rank cmp n l), cmp x n < 0 := by
    intro x hx
    obtain ⟨i, hi, rfl⟩ := List.mem_take_iff_getElem.mp hx
    exact (lt_rank_iff hc hl n (by omega)).mp (by omega)
  have habove : ∀ x ∈ l.drop (rank cmp n l), cmp n x < 0 := by
    intro x hx
    obtain ⟨i, hi, rfl⟩ := List.mem_drop_iff_getElem.mp hx
    have hi' : rank cmp n l + i < l.length := by omega
    have hne := hn _ (List.getElem_mem hi')
    have hge := mt (lt_rank_iff hc hl n hi').mpr (by omega)
    have := hc.swap n l[rank cmp n l + i]
    omega
  refine List.pairwise_append.mpr ⟨hl.sublist (List.take_sublist _ _), ?_, ?_⟩
  · exact List.pairwise_cons.mpr ⟨habove, hl.sublist (List.drop_sublist _ _)⟩
  · intro x hx y hy
    rcases List.mem_cons.mp hy with rfl | hy
    · exact hbelow x hx
    · exact hc.lt_trans (hbelow x hx) (habove y hy)

/-- Replacing an element by an equivalent one keeps the order. -/
lemma SortedBy.map_equiv (hc : LawfulCmp cmp) {l : List α} (hl : SortedBy cmp l) {g : α → α}
    (hg : ∀ x ∈ l, cmp (g x) x = 0) : SortedBy cmp (l.map g) := by
  refine List.pairwise_map.mpr (List.Pairwise.imp_of_mem ?_ hl)
  intro a b ha hb hab
  exact hc.lt_of_le_of_lt (hg a ha).le
    (hc.lt_of_lt_of_le hab (hc.eq_comm.mp (hg b hb)).le)

end PeerStreamer
