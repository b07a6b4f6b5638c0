import Mathlib.Algebra.BigOperators.Group.Finset.Basic
import Mathlib.Algebra.Order.BigOperators.Group.Finset
import Mathlib.Data.Prod.Lex
import Mathlib.Tactic

/-!
# Selective repeat

A packet is sent in pieces, of which the receiver asks for those it misses.  What matters of such an
exchange is where each piece is: held by the receiver, about to be asked for, asked for, queued
again, or under way.  This file is about the exchange alone, over arbitrary packets.

* `Step` says what can happen.  Every piece that arrives makes the receiver ask for all it misses of
  the packet, from the moment its last piece has arrived; the last piece itself is never asked for.
* `Step.tracked` — while nothing is lost, no piece is forgotten.
* `Bounded.rank_lt` — if nothing new is sent, the exchange gets closer to its end with every step,
  in whatever order they come and whatever is lost.
* `comes_to_rest` — so it comes to rest.
-/

namespace PeerStreamer

/-! ## Coming to rest -/

/-- **A sequence that changes only to get closer to its end comes to rest.** -/
theorem comes_to_rest {σ α : Type} [Preorder α] [WellFoundedLT α] (μ : σ → α) {s : ℕ → σ}
    (h : ∀ k, s (k + 1) = s k ∨ μ (s (k + 1)) < μ (s k)) : ∃ K, ∀ k, K ≤ k → s k = s K := by
  -- from the state with the least measure on
  obtain ⟨-, ⟨K, rfl⟩, hmin⟩ :=
    (wellFounded_lt (α := α)).has_min (Set.range fun k => μ (s k)) ⟨_, Set.mem_range_self 0⟩
  refine ⟨K, fun k hk => ?_⟩
  induction k, hk using Nat.le_induction with
  | base => rfl
  | succ k hk ih =>
      rcases h k with hsame | hlt
      · rw [hsame, ih]
      · rw [ih] at hlt
        exact absurd hlt (hmin _ ⟨k + 1, rfl⟩)

/-! ## The exchange -/

/-- Where the pieces are; a piece is a packet and a position. -/
structure SelectiveRepeat (π : Type) where
  held : π × ℕ → Bool
  requested : List (π × ℕ)
  asked : List (π × ℕ)
  queued : List (π × ℕ)
  sent : List (π × ℕ)

namespace SelectiveRepeat

/-- What can happen; a request that is not forwarded may be lost at once. -/
inductive Event (π : Type)
  | send
  | transmit
  | deliver (x : π × ℕ)
  | request (forwarded : Bool)
  | answer (x : π × ℕ)
  | lose (x : π × ℕ)
  | loseRequest (x : π × ℕ)
  | take (p : π)

/-- Something is lost. -/
def Event.Loses {π : Type} : Event π → Prop
  | .lose _ => True
  | .loseRequest _ => True
  | .request forwarded => forwarded = false
  | _ => False

variable {π : Type}

/-- The last piece of a packet. -/
def IsLast (size : π → ℕ) (x : π × ℕ) : Prop := x.2 + 1 = size x.1

instance (size : π → ℕ) (x : π × ℕ) : Decidable (IsLast size x) :=
  inferInstanceAs (Decidable (_ = _))

variable {size : π → ℕ} {s s' : SelectiveRepeat π} {e : Event π} {x : π × ℕ}

/-- Where a piece is. -/
inductive Tracked (s : SelectiveRepeat π) (x : π × ℕ) : Prop
  | held (h : s.held x = true)
  | requested (h : x ∈ s.requested)
  | asked (h : x ∈ s.asked)
  | queued (h : x ∈ s.queued)
  | sent (h : x ∈ s.sent)

/-- Nothing is going on any more. -/
structure Rest (s : SelectiveRepeat π) : Prop where
  requested : s.requested = []
  asked : s.asked = []
  queued : s.queued = []
  sent : s.sent = []

/-- What is kept track of when nothing is going on is held. -/
lemma Tracked.held_of_rest (h : Tracked s x) (hs : Rest s) : s.held x = true := by
  cases h with
  | held h => exact h
  | requested h => simp [hs.requested] at h
  | asked h => simp [hs.asked] at h
  | queued h => simp [hs.queued] at h
  | sent h => simp [hs.sent] at h

variable [DecidableEq π]

/-- What the receiver asks for when `x` has arrived and it holds `held`. -/
structure Asks (size : π → ℕ) (held : π × ℕ → Bool) (x : π × ℕ) (xs : List (π × ℕ)) : Prop where
  missing : ∀ y ∈ xs, y.1 = x.1 ∧ y.2 + 1 < size y.1 ∧ held y = false
  all : held (x.1, size x.1 - 1) = true → ∀ i < size x.1, held (x.1, i) = false → (x.1, i) ∈ xs

/-- One step of the exchange, in which the packet `p` has `size p` pieces. -/
inductive Step (size : π → ℕ) : SelectiveRepeat π → Event π → SelectiveRepeat π → Prop
  | send {s : SelectiveRepeat π} (xs : List (π × ℕ)) :
      Step size s .send { s with queued := xs ++ s.queued }
  | transmit {s : SelectiveRepeat π} {x : π × ℕ} {queued : List (π × ℕ)}
      (h : s.queued = x :: queued) :
      Step size s .transmit { s with queued, sent := s.sent ++ [x] }
  | deliver {s : SelectiveRepeat π} {x : π × ℕ} {xs sent : List (π × ℕ)}
      (h : s.sent.Perm (x :: sent)) (hxs : Asks size (Function.update s.held x true) x xs) :
      Step size s (.deliver x)
        { s with held := Function.update s.held x true, requested := xs ++ s.requested, sent }
  | request {s : SelectiveRepeat π} {x : π × ℕ} {requested : List (π × ℕ)} {forwarded : Bool}
      (h : s.requested = x :: requested) :
      Step size s (.request forwarded) { s with requested, asked := s.asked ++ [x] }
  | drop {s : SelectiveRepeat π} {x : π × ℕ} {requested : List (π × ℕ)}
      (h : s.requested = x :: requested) : Step size s (.request false) { s with requested }
  | answer {s : SelectiveRepeat π} {x : π × ℕ} {asked : List (π × ℕ)}
      (h : s.asked.Perm (x :: asked)) :
      Step size s (.answer x) { s with asked, queued := s.queued ++ [x] }
  | ignore {s : SelectiveRepeat π} {x : π × ℕ} {asked : List (π × ℕ)}
      (h : s.asked.Perm (x :: asked)) (hqueued : x ∈ s.queued) :
      Step size s (.answer x) { s with asked }
  | lose {s : SelectiveRepeat π} {x : π × ℕ} {sent : List (π × ℕ)}
      (h : s.sent.Perm (x :: sent)) : Step size s (.lose x) { s with sent }
  | loseRequest {s : SelectiveRepeat π} {x : π × ℕ} {asked : List (π × ℕ)}
      (h : s.asked.Perm (x :: asked)) : Step size s (.loseRequest x) { s with asked }
  | take {s : SelectiveRepeat π} {p : π} {i : ℕ} (h : s.held (p, i) = true)
      (hlast : IsLast size (p, i)) :
      Step size s (.take p) { s with held := fun x => s.held x && decide (x.1 ≠ p) }

/-! ## Nothing is forgotten -/

/-- **While nothing is lost**, a piece is forgotten only when its packet is taken. -/
theorem Step.tracked (h : Step size s e s') (hlose : ¬ e.Loses) (htake : e ≠ .take x.1)
    (hx : Tracked s x) : Tracked s' x := by
  cases h with
  | send xs =>
      cases hx with
      | queued hx => exact .queued (List.mem_append_right _ hx)
      | held hx => exact .held hx
      | requested hx => exact .requested hx
      | asked hx => exact .asked hx
      | sent hx => exact .sent hx
  | transmit hq =>
      cases hx with
      | queued hx =>
          rw [hq] at hx
          rcases List.mem_cons.mp hx with rfl | hx
          · exact .sent (by simp)
          · exact .queued hx
      | held hx => exact .held hx
      | requested hx => exact .requested hx
      | asked hx => exact .asked hx
      | sent hx => exact .sent (List.mem_append_left _ hx)
  | @deliver y xs sent hy hxs =>
      have hheld : ∀ z, s.held z = true → Function.update s.held y true z = true := by
        intro z hz
        by_cases hzy : z = y
        · rw [hzy, Function.update_self]
        · rwa [Function.update_of_ne hzy]
      cases hx with
      | sent hx =>
          rcases List.mem_cons.mp (hy.mem_iff.mp hx) with rfl | hx
          · exact .held (Function.update_self ..)
          · exact .sent hx
      | held hx => exact .held (hheld x hx)
      | requested hx => exact .requested (List.mem_append_right _ hx)
      | asked hx => exact .asked hx
      | queued hx => exact .queued hx
  | request hr =>
      cases hx with
      | requested hx =>
          rw [hr] at hx
          rcases List.mem_cons.mp hx with rfl | hx
          · exact .asked (by simp)
          · exact .requested hx
      | held hx => exact .held hx
      | asked hx => exact .asked (List.mem_append_left _ hx)
      | queued hx => exact .queued hx
      | sent hx => exact .sent hx
  | drop hr => exact absurd rfl hlose
  | answer hy =>
      cases hx with
      | asked hx =>
          rcases List.mem_cons.mp (hy.mem_iff.mp hx) with rfl | hx
          · exact .queued (by simp)
          · exact .asked hx
      | held hx => exact .held hx
      | requested hx => exact .requested hx
      | queued hx => exact .queued (List.mem_append_left _ hx)
      | sent hx => exact .sent hx
  | ignore hy hq =>
      cases hx with
      | asked hx =>
          rcases List.mem_cons.mp (hy.mem_iff.mp hx) with rfl | hx
          · exact .queued hq
          · exact .asked hx
      | held hx => exact .held hx
      | requested hx => exact .requested hx
      | queued hx => exact .queued hx
      | sent hx => exact .sent hx
  | lose hy => exact absurd trivial hlose
  | loseRequest hy => exact absurd trivial hlose
  | @take p i hi hlast =>
      cases hx with
      | held hx => exact .held (by simpa [hx] using fun hp => htake (by rw [hp]))
      | requested hx => exact .requested hx
      | asked hx => exact .asked hx
      | queued hx => exact .queued hx
      | sent hx => exact .sent hx

lemma Step.held_of_deliver (h : Step size s (.deliver x) s') :
    s'.held = Function.update s.held x true := by
  cases h with
  | deliver hx hxs => rfl

/-- **An arrival brings everything back to mind**, once the last piece is there. -/
theorem Step.tracked_of_deliver (h : Step size s (.deliver x) s')
    (hlast : s'.held (x.1, size x.1 - 1) = true) {i : ℕ} (hi : i < size x.1) :
    Tracked s' (x.1, i) := by
  cases h with
  | deliver hx hxs =>
      by_cases hheld : Function.update s.held x true (x.1, i) = true
      · exact .held hheld
      · have hnot := Bool.eq_false_of_not_eq_true hheld
        exact .requested (List.mem_append_left _ (hxs.all hlast i hi hnot))

/-! ## It comes to rest -/

/-- The pieces of the packets `ps`. -/
def pieces (size : π → ℕ) (ps : Finset π) : Finset (π × ℕ) :=
  ps.biUnion fun p => (Finset.range (size p)).image (p, ·)

@[simp] lemma mem_pieces {ps : Finset π} : x ∈ pieces size ps ↔ x.1 ∈ ps ∧ x.2 < size x.1 := by
  simp only [pieces, Finset.mem_biUnion, Finset.mem_image, Finset.mem_range]
  constructor
  · rintro ⟨p, hp, i, hi, rfl⟩
    exact ⟨hp, hi⟩
  · rintro ⟨hp, hi⟩
    exact ⟨x.1, hp, x.2, hi, rfl⟩

/-- All pieces that are asked for, or queued, or under way. -/
def moving (s : SelectiveRepeat π) : List (π × ℕ) := s.requested ++ s.asked ++ s.queued ++ s.sent

/-- All pieces are of the packets `ps`, and no last one is asked for. -/
structure Bounded (size : π → ℕ) (ps : Finset π) (s : SelectiveRepeat π) : Prop where
  held : ∀ x, s.held x = true → x ∈ pieces size ps
  moving : ∀ x ∈ s.moving, x ∈ pieces size ps
  notLast : ∀ x ∈ s.requested ++ s.asked, ¬ IsLast size x

variable (size : π → ℕ) (ps : Finset π)

/-- How many places the last pieces are in. -/
def lastPlaces (s : SelectiveRepeat π) : ℕ :=
  ∑ x ∈ pieces size ps with IsLast size x,
    ((s.held x).toNat + s.queued.count x + s.sent.count x)

/-- How many pieces are missing. -/
def missing (s : SelectiveRepeat π) : ℕ := {x ∈ pieces size ps | s.held x = false}.card

/-- How many pieces that the receiver holds will reach it again. -/
def repeats (s : SelectiveRepeat π) : ℕ := s.moving.countP s.held

/-- How much is still to be done about the pieces that are not at rest. -/
def work (s : SelectiveRepeat π) : ℕ :=
  4 * s.requested.length + 3 * s.asked.length + 2 * s.queued.length + s.sent.length

/-- How far the exchange is from its end. -/
def rank (s : SelectiveRepeat π) : ℕ ×ₗ ℕ ×ₗ ℕ ×ₗ ℕ :=
  toLex (s.lastPlaces size ps, toLex (s.missing size ps, toLex (s.repeats, s.work)))

variable {size ps}

/-- What makes the rank smaller. -/
lemma rank_lt_of (h : s'.lastPlaces size ps < s.lastPlaces size ps
    ∨ s'.lastPlaces size ps ≤ s.lastPlaces size ps
      ∧ (s'.missing size ps < s.missing size ps
        ∨ s'.missing size ps ≤ s.missing size ps
          ∧ (s'.repeats < s.repeats ∨ s'.repeats ≤ s.repeats ∧ s'.work < s.work))) :
    s'.rank size ps < s.rank size ps := by
  simp only [rank, Prod.Lex.toLex_lt_toLex]
  omega

lemma lastPlaces_le (h : ∀ x, IsLast size x →
    (s'.held x).toNat + s'.queued.count x + s'.sent.count x
      ≤ (s.held x).toNat + s.queued.count x + s.sent.count x) :
    s'.lastPlaces size ps ≤ s.lastPlaces size ps :=
  Finset.sum_le_sum fun x hx => h x (Finset.mem_filter.mp hx).2

lemma missing_le (h : ∀ x, s.held x = true → s'.held x = true) :
    s'.missing size ps ≤ s.missing size ps := by
  refine Finset.card_le_card fun x hx => ?_
  rw [Finset.mem_filter] at hx ⊢
  refine ⟨hx.1, Bool.eq_false_of_not_eq_true fun hheld => ?_⟩
  rw [h x hheld] at hx
  exact absurd hx.2 (by simp)

/-- A step in which nothing arrives and nothing is taken. -/
lemma rank_lt_of_work (hheld : s'.held = s.held)
    (hlast : ∀ x, IsLast size x →
      s'.queued.count x + s'.sent.count x ≤ s.queued.count x + s.sent.count x)
    (hrepeats : s'.repeats ≤ s.repeats) (hwork : s'.work < s.work) :
    s'.rank size ps < s.rank size ps := by
  refine rank_lt_of (Or.inr ⟨lastPlaces_le fun x hx => ?_, Or.inr ⟨missing_le fun x hx => ?_,
    Or.inr ⟨hrepeats, hwork⟩⟩⟩)
  · have hle := hlast x hx
    rw [hheld]
    omega
  · rwa [hheld]

/-- **Every step brings the end nearer**, if nothing new is sent. -/
theorem Bounded.rank_lt (h : Bounded size ps s) (hs : Step size s e s') (he : e ≠ .send) :
    s'.rank size ps < s.rank size ps := by
  cases hs with
  | send xs => exact absurd rfl he
  | transmit hq =>
      refine rank_lt_of_work rfl (fun y _ => ?_) ?_ ?_
      · simp only [hq, List.count_append, List.count_cons, List.count_nil]
        omega
      · simp only [repeats, SelectiveRepeat.moving, hq, List.countP_append, List.countP_cons,
          List.countP_nil]
        omega
      · simp only [work, hq, List.length_append, List.length_cons, List.length_nil]
        omega
  | @deliver x xs sent hx hxs =>
      refine rank_lt_of (Or.inr ⟨lastPlaces_le fun y _ => ?_, ?_⟩)
      · dsimp only
        by_cases hyx : y = x
        · rw [hyx, Function.update_self, hx.count_eq, List.count_cons_self, Bool.toNat_true]
          omega
        · rw [Function.update_of_ne hyx, hx.count_eq, List.count_cons_of_ne (Ne.symm hyx)]
      · cases hheld : s.held x with
        | false =>
            -- a piece that was missing
            refine Or.inl (Finset.card_lt_card (Finset.ssubset_iff_of_subset ?_ |>.mpr ⟨x, ?_, ?_⟩))
            · intro y hy
              rw [Finset.mem_filter] at hy ⊢
              refine ⟨hy.1, ?_⟩
              by_cases hyx : y = x
              · rwa [hyx]
              · rw [← hy.2]
                exact (Function.update_of_ne hyx ..).symm
            · rw [Finset.mem_filter]
              exact ⟨h.moving x (List.mem_append_right _ (hx.mem_iff.mpr List.mem_cons_self)),
                hheld⟩
            · simp
        | true =>
            -- a piece that was held already, so that nothing changes but what is asked for
            have hsame : Function.update s.held x true = s.held :=
              Function.update_eq_self_iff.mpr hheld.symm
            have hnone : xs.countP s.held = 0 := by
              rw [List.countP_eq_zero]
              intro y hy
              rw [← hsame, (hxs.missing y hy).2.2]
              exact Bool.false_ne_true
            refine Or.inr ⟨missing_le fun y hy => ?_, Or.inl ?_⟩
            · dsimp only
              rwa [hsame]
            · simp only [repeats, SelectiveRepeat.moving, hsame, List.countP_append, hnone,
                hx.countP_eq, List.countP_cons, hheld, if_true]
              omega
  | request hr =>
      refine rank_lt_of_work rfl (fun y _ => le_rfl) ?_ ?_
      · simp only [repeats, SelectiveRepeat.moving, hr, List.countP_append, List.countP_cons,
          List.countP_nil]
        omega
      · simp only [work, hr, List.length_append, List.length_cons, List.length_nil]
        omega
  | drop hr =>
      refine rank_lt_of_work rfl (fun y _ => le_rfl) ?_ ?_
      · simp only [repeats, SelectiveRepeat.moving, hr, List.countP_append, List.countP_cons]
        omega
      · simp only [work, hr, List.length_cons]
        omega
  | @answer x asked hx =>
      refine rank_lt_of_work rfl (fun y hy => ?_) ?_ ?_
      · have hne : y ≠ x := by
          rintro rfl
          exact h.notLast y (List.mem_append_right _ (hx.mem_iff.mpr List.mem_cons_self)) hy
        simp [List.count_append, Ne.symm hne]
      · simp only [repeats, SelectiveRepeat.moving, List.countP_append, hx.countP_eq,
          List.countP_cons, List.countP_nil]
        omega
      · simp only [work, hx.length_eq, List.length_append, List.length_cons, List.length_nil]
        omega
  | ignore hx hq =>
      refine rank_lt_of_work rfl (fun y _ => le_rfl) ?_ ?_
      · simp only [repeats, SelectiveRepeat.moving, List.countP_append, hx.countP_eq,
          List.countP_cons]
        omega
      · simp only [work, hx.length_eq, List.length_cons]
        omega
  | lose hx =>
      refine rank_lt_of_work rfl (fun y _ => ?_) ?_ ?_
      · rw [hx.count_eq, List.count_cons]
        dsimp only
        omega
      · simp only [repeats, SelectiveRepeat.moving, List.countP_append, hx.countP_eq,
          List.countP_cons]
        omega
      · simp only [work, hx.length_eq, List.length_cons]
        omega
  | loseRequest hx =>
      refine rank_lt_of_work rfl (fun y _ => le_rfl) ?_ ?_
      · simp only [repeats, SelectiveRepeat.moving, List.countP_append, hx.countP_eq,
          List.countP_cons]
        omega
      · simp only [work, hx.length_eq, List.length_cons]
        omega
  | @take p i hi hlast =>
      refine rank_lt_of (Or.inl (Finset.sum_lt_sum (fun y _ => ?_) ⟨(p, i), ?_, ?_⟩))
      · have hle : (s.held y && decide (y.1 ≠ p)).toNat ≤ (s.held y).toNat := by
          cases s.held y with
          | false => simp
          | true => exact Bool.toNat_le _
        dsimp only
        omega
      · rw [Finset.mem_filter]
        exact ⟨h.held _ hi, hlast⟩
      · simp [hi]

end SelectiveRepeat

end PeerStreamer
