import Mathlib.Data.List.Basic
import Mathlib.Data.List.TakeWhile
import Mathlib.Tactic

/-!
# Facts about lists

The few facts about `List` the development needs beyond Mathlib.
-/

namespace PeerStreamer

variable {α : Type}

/-- `takeWhile` only asks its predicate about members. -/
lemma takeWhile_congr_mem {p p' : α → Bool} {l : List α} (h : ∀ x ∈ l, p x = p' x) :
    l.takeWhile p = l.takeWhile p' := by
  induction l with
  | nil => rfl
  | cons x l ih =>
      have hl : l.takeWhile p = l.takeWhile p' := ih fun y hy => h y (List.mem_cons_of_mem x hy)
      rw [List.takeWhile_cons, List.takeWhile_cons, h x List.mem_cons_self, hl]

/-- Erasing an element that occurs at most once filters it out. -/
lemma erase_eq_filter_of_count_le_one [DecidableEq α] {a : α} {l : List α}
    (h : l.count a ≤ 1) : l.erase a = l.filter (· ≠ a) := by
  induction l with
  | nil => rfl
  | cons x l ih =>
      by_cases hx : x = a
      · subst hx
        have hnot : x ∉ l := by
          rw [List.count_cons_self] at h
          exact List.count_eq_zero.mp (by omega)
        rw [List.erase_cons_head, List.filter_cons_of_neg (by simp), List.filter_eq_self.mpr]
        intro y hy
        have hyx : y ≠ x := fun he => hnot (he ▸ hy)
        simpa using hyx
      · rw [List.count_cons_of_ne hx] at h
        rw [List.erase_cons_tail (by simpa using hx), List.filter_cons_of_pos (by simpa using hx),
          ih h]

lemma getElem?_concat_eq_some {l : List α} {a x : α} {i : ℕ} :
    (l ++ [a])[i]? = some x ↔ l[i]? = some x ∨ i = l.length ∧ x = a := by
  rcases lt_trichotomy i l.length with h | rfl | h
  · simp [List.getElem?_append_left h, h.ne]
  · simp [eq_comm]
  · rw [List.getElem?_eq_none (by simpa using h), List.getElem?_eq_none h.le]
    simp [h.ne']

/-- In a list keyed by `k` at most one element has a given key, and `find?` finds it. -/
lemma filter_eq_toList_find? {κ : Type} [DecidableEq κ] {k : α → κ} {l : List α}
    (h : (l.map k).Nodup) (a : κ) : l.filter (k · = a) = (l.find? (k · = a)).toList := by
  induction l with
  | nil => rfl
  | cons x l ih =>
      rw [List.map_cons, List.nodup_cons] at h
      by_cases hx : k x = a
      · have hl : ∀ y ∈ l, k y ≠ a := by
          rintro y hy rfl
          exact h.1 (hx ▸ List.mem_map_of_mem hy)
        simpa [hx] using hl
      · simpa [hx] using ih h.2

/-- In a list keyed by `k` no second element has the key of the one that is taken out. -/
lemma key_ne_of_mem_eraseP {κ : Type} [DecidableEq κ] {k : α → κ} {l : List α}
    (h : (l.map k).Nodup) {a : κ} {x : α} (hx : x ∈ l.eraseP (k · = a)) : k x ≠ a := by
  induction l with
  | nil => simp at hx
  | cons y l ih =>
      rw [List.map_cons, List.nodup_cons] at h
      by_cases hy : k y = a
      · rw [List.eraseP_cons_of_pos (by simpa using hy)] at hx
        rintro rfl
        exact h.1 (hy ▸ List.mem_map_of_mem hx)
      · rw [List.eraseP_cons_of_neg (by simpa using hy)] at hx
        rcases List.mem_cons.mp hx with rfl | hx
        · exact hy
        · exact ih h.2 hx

/-- The first `k` of a decreasing list are those with fewer than `k` above them. -/
lemma mem_take_iff_of_decreasing [LinearOrder α] {l : List α} (h : l.Pairwise fun a b => b < a)
    (k : ℕ) (x : α) : x ∈ l.take k ↔ x ∈ l ∧ (l.filter (x < ·)).length < k := by
  induction l generalizing k with
  | nil => simp
  | cons a l ih =>
      obtain ⟨hbelow, hl⟩ := List.pairwise_cons.mp h
      cases k with
      | zero => simp
      | succ k =>
          rw [List.take_succ_cons, List.mem_cons, List.mem_cons, ih hl]
          by_cases hx : x = a
          · subst hx
            have hnone : l.filter (x < ·) = [] :=
              List.filter_eq_nil_iff.mpr fun y hy => by simpa using (hbelow y hy).le
            simp [hnone]
          · have hcons : x ∈ l → (a :: l).filter (x < ·) = a :: l.filter (x < ·) := fun hmem =>
              List.filter_cons_of_pos (by simpa using hbelow x hmem)
            constructor
            · rintro (he | ⟨hmem, hlt⟩)
              · exact absurd he hx
              · rw [hcons hmem, List.length_cons]
                exact ⟨Or.inr hmem, Nat.succ_lt_succ hlt⟩
            · rintro ⟨he | hmem, hlt⟩
              · exact absurd he hx
              · rw [hcons hmem, List.length_cons] at hlt
                exact Or.inr ⟨hmem, Nat.lt_of_succ_lt_succ hlt⟩

variable {β : Type} (f : α → Option β)

lemma filterMap_singleton (a : α) : [a].filterMap f = (f a).toList := by
  cases h : f a with
  | none => simp [h]
  | some b => simp [h]

/-- Erasing an element takes its image out of a `filterMap`. -/
lemma count_filterMap_erase [BEq α] [LawfulBEq α] [BEq β] [LawfulBEq β] {a : α} {l : List α}
    (h : a ∈ l) (b : β) :
    (l.filterMap f).count b = (f a).toList.count b + ((l.erase a).filterMap f).count b := by
  rw [((List.perm_cons_erase h).filterMap f).count_eq b, ← List.singleton_append,
    List.filterMap_append, filterMap_singleton, List.count_append]

/-- What holds of any two elements of a list, in order, holds along a zip with it. -/
lemma pairwise_zip_fst {α β : Type} {R : α → α → Prop} {l : List α} (h : l.Pairwise R)
    (l' : List β) : (l.zip l').Pairwise fun p q => R p.1 q.1 := by
  induction h generalizing l' with
  | nil => simp
  | cons hx _ ih =>
      cases l' with
      | nil => simp
      | cons y l' =>
          rw [List.zip_cons_cons, List.pairwise_cons]
          exact ⟨fun p hp => hx p.1 (List.of_mem_zip hp).1, ih l'⟩

/-- One element of a list is one summand, and is exchanged by itself. -/
lemma sum_map_set {α A : Type} [AddCommMonoid A] (r : α → A) {l : List α} {i : ℕ} {x : α}
    (h : l[i]? = some x) :
    ∃ rest, (l.map r).sum = r x + rest ∧ ∀ y, ((l.set i y).map r).sum = r y + rest := by
  induction l generalizing i with
  | nil => simp at h
  | cons a l ih =>
      cases i with
      | zero =>
          obtain rfl : a = x := by simpa using h
          exact ⟨(l.map r).sum, by simp, fun y => by simp⟩
      | succ i =>
          obtain ⟨rest, hsum, hset⟩ := ih (by simpa using h)
          refine ⟨r a + rest, ?_, fun y => ?_⟩
          · rw [List.map_cons, List.sum_cons, hsum, add_left_comm]
          · rw [List.set_cons_succ, List.map_cons, List.sum_cons, hset, add_left_comm]

end PeerStreamer
