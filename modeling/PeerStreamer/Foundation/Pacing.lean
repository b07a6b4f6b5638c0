import Mathlib.Algebra.Order.Field.Basic
import Mathlib.Data.List.Pairwise
import Mathlib.Tactic

/-!
# Departures at a bounded rate

A sequence of departures is a list of pairs of a time and a size, in the order of time.  Two ways to
say that it keeps to a rate `r` from the time `t₀` on:

* `RateBounded r t₀ l` — what has departed by any time `t` comes to no more than `r * (t - t₀)`, up
  to the last departure.  This is what an observer can measure.
* `Paced r t₀ l` — each departure waits until the rate has covered what departed before it.  This is
  what a sender can see to.

They are the same (`rateBounded_iff_paced`).
-/

namespace PeerStreamer

variable {K : Type} [Field K] [LinearOrder K] [IsStrictOrderedRing K]

/-- The departures up to the time `t`. -/
def upTo (t : K) (l : List (K × K)) : List (K × K) := l.filter (·.1 ≤ t)

/-- The sizes of all departures together. -/
def totalSize (l : List (K × K)) : K := (l.map Prod.snd).sum

/-- The size of the last departure. -/
def lastSize (l : List (K × K)) : K := (l.getLast?.map Prod.snd).getD 0

/-- What has departed by any time is covered by the rate, up to the last departure. -/
def RateBounded (r t₀ : K) (l : List (K × K)) : Prop :=
  ∀ t, t₀ ≤ t → totalSize (upTo t l) ≤ r * (t - t₀) + lastSize (upTo t l)

/-- Each departure is at a time when the rate covers `sent` and the departures before it. -/
def PacedFrom (r t₀ : K) : K → List (K × K) → Prop
  | _, [] => True
  | sent, (t, size) :: l => sent ≤ r * (t - t₀) ∧ PacedFrom r t₀ (sent + size) l

/-- Each departure waits for the rate to cover the ones before it. -/
def Paced (r t₀ : K) (l : List (K × K)) : Prop := PacedFrom r t₀ 0 l

instance PacedFrom.decidable (r t₀ : K) :
    (sent : K) → (l : List (K × K)) → Decidable (PacedFrom r t₀ sent l)
  | _, [] => isTrue trivial
  | sent, (t, size) :: l =>
      have : Decidable (PacedFrom r t₀ (sent + size) l) := PacedFrom.decidable r t₀ (sent + size) l
      inferInstanceAs (Decidable (sent ≤ r * (t - t₀) ∧ PacedFrom r t₀ (sent + size) l))

instance (r t₀ : K) (l : List (K × K)) : Decidable (Paced r t₀ l) :=
  inferInstanceAs (Decidable (PacedFrom r t₀ 0 l))

section Sizes

variable {K : Type} [Field K] {x : K × K} {l : List (K × K)}

@[simp] lemma totalSize_nil : totalSize ([] : List (K × K)) = 0 := rfl

@[simp] lemma totalSize_cons : totalSize (x :: l) = x.2 + totalSize l := List.sum_cons

lemma totalSize_append (l l' : List (K × K)) :
    totalSize (l ++ l') = totalSize l + totalSize l' := by
  simp [totalSize]

@[simp] lemma lastSize_nil : lastSize ([] : List (K × K)) = 0 := rfl

@[simp] lemma lastSize_singleton : lastSize [x] = x.2 := rfl

lemma lastSize_cons (hl : l ≠ []) : lastSize (x :: l) = lastSize l := by
  rw [lastSize, lastSize, List.getLast?_cons_of_ne_nil hl]

end Sizes

section Times

variable {K : Type} [LinearOrder K] {t : K} {x : K × K} {l : List (K × K)}

lemma upTo_cons_of_le (h : x.1 ≤ t) : upTo t (x :: l) = x :: upTo t l := by
  simp [upTo, h]

/-- If the first departure is later than `t`, so are all others. -/
lemma upTo_eq_nil (hsorted : (x :: l).Pairwise (·.1 ≤ ·.1)) (h : t < x.1) :
    upTo t (x :: l) = [] := by
  refine List.filter_eq_nil_iff.mpr fun y hy => ?_
  rcases List.mem_cons.mp hy with rfl | hy
  · simpa using h
  · simpa using h.trans_le (List.rel_of_pairwise_cons hsorted hy)

end Times

section Parts

variable {K : Type} [Field K] [LinearOrder K] {r t₀ sent : K} {l l' : List (K × K)}

/-- A sequence is kept to if its first part is, and then the rest from what that part took. -/
lemma pacedFrom_append :
    PacedFrom r t₀ sent (l ++ l')
      ↔ PacedFrom r t₀ sent l ∧ PacedFrom r t₀ (sent + totalSize l) l' := by
  induction l generalizing sent with
  | nil => simp [PacedFrom]
  | cons x l ih =>
      rw [List.cons_append, PacedFrom, PacedFrom, ih, totalSize_cons, add_assoc, and_assoc]

end Parts

variable {r t₀ t sent : K} {x : K × K} {l : List (K × K)}

lemma totalSize_nonneg (hpos : ∀ x ∈ l, 0 ≤ x.2) : 0 ≤ totalSize l :=
  List.sum_nonneg fun y hy => by
    obtain ⟨x, hx, rfl⟩ := List.mem_map.mp hy
    exact hpos x hx

/-- No departure is larger than all of them together. -/
lemma lastSize_le_totalSize (hpos : ∀ x ∈ l, 0 ≤ x.2) : lastSize l ≤ totalSize l := by
  induction l with
  | nil => simp
  | cons x l ih =>
      have hx : 0 ≤ x.2 := hpos x List.mem_cons_self
      have hl := ih fun y hy => hpos y (List.mem_cons_of_mem x hy)
      rcases eq_or_ne l [] with rfl | hne
      · simp
      · rw [lastSize_cons hne, totalSize_cons]
        linarith

/-- The two conditions from any point of the sequence on. -/
lemma pacedFrom_iff (hr : 0 ≤ r) (hsorted : l.Pairwise (·.1 ≤ ·.1)) (hpos : ∀ x ∈ l, 0 ≤ x.2)
    (hstart : ∀ x ∈ l, t₀ ≤ x.1) :
    PacedFrom r t₀ sent l ↔ ∀ t, t₀ ≤ t → upTo t l ≠ [] →
      sent + totalSize (upTo t l) ≤ r * (t - t₀) + lastSize (upTo t l) := by
  induction l generalizing sent with
  | nil => simp [PacedFrom, upTo]
  | cons x l ih =>
      have hl := @ih (sent + x.2) hsorted.of_cons
        (fun y hy => hpos y (List.mem_cons_of_mem x hy))
        (fun y hy => hstart y (List.mem_cons_of_mem x hy))
      rw [PacedFrom, hl]
      constructor
      · rintro ⟨hx, hrest⟩ t ht hne
        have hxt : x.1 ≤ t := le_of_not_gt fun h => hne (upTo_eq_nil hsorted h)
        rw [upTo_cons_of_le hxt, totalSize_cons]
        rcases eq_or_ne (upTo t l) [] with hnil | hnil
        · have hmono : r * (x.1 - t₀) ≤ r * (t - t₀) := by gcongr
          rw [hnil, totalSize_nil, lastSize_singleton]
          linarith
        · have := hrest t ht hnil
          rw [lastSize_cons hnil]
          linarith
      · intro h
        refine ⟨?_, fun t ht hne => ?_⟩
        · -- whatever departs together with `x` is behind it
          have hnow := h x.1 (hstart x List.mem_cons_self)
          rw [upTo_cons_of_le le_rfl, totalSize_cons] at hnow
          have hbound := hnow (List.cons_ne_nil _ _)
          have hsizes : ∀ y ∈ upTo x.1 l, 0 ≤ y.2 := fun y hy =>
            hpos y (List.mem_cons_of_mem x (List.mem_of_mem_filter hy))
          have hlast := lastSize_le_totalSize hsizes
          rcases eq_or_ne (upTo x.1 l) [] with hnil | hnil
          · rw [hnil, totalSize_nil, lastSize_singleton] at hbound
            linarith
          · have hx := hpos x List.mem_cons_self
            rw [lastSize_cons hnil] at hbound
            linarith
        · have hxt : x.1 ≤ t := by
            obtain ⟨y, hy⟩ := List.exists_mem_of_ne_nil _ hne
            obtain ⟨hy, hyt⟩ := List.mem_filter.mp hy
            exact (List.rel_of_pairwise_cons hsorted hy).trans (by simpa using hyt)
          have hbound := h t ht
          rw [upTo_cons_of_le hxt, totalSize_cons, lastSize_cons hne] at hbound
          have := hbound (List.cons_ne_nil _ _)
          linarith

/-- **The rate is kept exactly when the departures are paced.** -/
theorem rateBounded_iff_paced (hr : 0 ≤ r) (hsorted : l.Pairwise (·.1 ≤ ·.1))
    (hpos : ∀ x ∈ l, 0 ≤ x.2) (hstart : ∀ x ∈ l, t₀ ≤ x.1) :
    RateBounded r t₀ l ↔ Paced r t₀ l := by
  rw [Paced, pacedFrom_iff hr hsorted hpos hstart, RateBounded]
  refine forall₂_congr fun t ht => ?_
  rw [zero_add]
  rcases eq_or_ne (upTo t l) [] with hnil | hnil
  · have : 0 ≤ r * (t - t₀) := mul_nonneg hr (sub_nonneg.mpr ht)
    simp [hnil, this]
  · exact ⟨fun h _ => h, fun h => h hnil⟩

/-- **How many departures** there are at most, if they are all of one size. -/
lemma RateBounded.length_le {c : K} (h : RateBounded r t₀ l) (hc : ∀ x ∈ l, x.2 = c) (hpos : 0 ≤ c)
    (ht : t₀ ≤ t) : (upTo t l).length * c ≤ r * (t - t₀) + c := by
  have hsizes : ∀ x ∈ upTo t l, x.2 = c := fun x hx => hc x (List.mem_of_mem_filter hx)
  have htotal : totalSize (upTo t l) = (upTo t l).length * c := by
    rw [totalSize, List.map_eq_replicate_iff.mpr hsizes, List.sum_replicate, nsmul_eq_mul]
  have hlast : lastSize (upTo t l) ≤ c := by
    rw [lastSize]
    cases hl : (upTo t l).getLast? with
    | none => simpa using hpos
    | some x => simpa using (hsizes x (List.mem_of_getLast? hl)).le
  have hbound := h t ht
  rw [htotal] at hbound
  linarith

end PeerStreamer
