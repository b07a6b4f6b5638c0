import Mathlib.Data.List.Basic
import Mathlib.Tactic

/-!
# Leases

A table of leases: entries with a key and the time they were taken at, which lapse when more than
`T` has passed.  A clock is read afresh for every entry that is looked at, and never goes backwards.

`sweep` removes the entries that have lapsed, the last one first.  What is followed through a run is
whether a lease on `k` taken at `t` is `Settled`: its entry is still in the table, or it has lapsed
by the time of the next reading.  Sweeping and taking other leases keep this, and giving up a lease
keeps it for other keys.
-/

namespace PeerStreamer

/-- The readings of a clock that never goes backwards. -/
structure Clock where
  reading : ℕ → ℤ
  mono : Monotone reading

/-- A clock that advances by `d` with every reading. -/
def Clock.ticking (d : ℕ) : Clock :=
  ⟨fun n => d * n, fun _ _ h => mul_le_mul_of_nonneg_left (by simpa using h) (by simp)⟩

namespace Lease

variable {α κ : Type}

/-- Remove the entries that have lapsed.  `n` is the number of the next reading, and there is one
for every entry. -/
def sweep (clk : Clock) (stamp : α → ℤ) (T : ℤ) : List α → ℕ → List α × ℕ
  | [], n => ([], n)
  | a :: l, n =>
      let (l, n) := sweep clk stamp T l n
      (if stamp a + T < clk.reading n then l else a :: l, n + 1)

/-- The lease on `k` taken at `t` is in the table, or it has lapsed. -/
def Settled (clk : Clock) (key : α → κ) (stamp : α → ℤ) (T : ℤ) (k : κ) (t : ℤ) (l : List α)
    (n : ℕ) : Prop :=
  (∃ a ∈ l, key a = k ∧ stamp a = t) ∨ t + T < clk.reading n

variable {clk : Clock} {key : α → κ} {stamp : α → ℤ} {T t : ℤ} {k : κ} {l l' : List α} {n n' : ℕ}

lemma sweep_sublist : (sweep clk stamp T l n).1.Sublist l := by
  induction l with
  | nil => simp [sweep]
  | cons a l ih =>
      rw [sweep]
      dsimp only
      split_ifs
      · exact ih.trans (List.sublist_cons_self a l)
      · exact ih.cons_cons a

lemma le_sweep_snd : n ≤ (sweep clk stamp T l n).2 := by
  induction l with
  | nil => simp [sweep]
  | cons a l ih => exact Nat.le_succ_of_le ih

lemma sweep_cons (a : α) : sweep clk stamp T (a :: l) n
    = (if stamp a + T < clk.reading (sweep clk stamp T l n).2 then (sweep clk stamp T l n).1
        else a :: (sweep clk stamp T l n).1, (sweep clk stamp T l n).2 + 1) := rfl

/-- The last entry is looked at first. -/
lemma sweep_concat (a : α) : sweep clk stamp T (l ++ [a]) n
    = ((sweep clk stamp T l (n + 1)).1 ++ (if stamp a + T < clk.reading n then [] else [a]),
      (sweep clk stamp T l (n + 1)).2) := by
  induction l with
  | nil => rfl
  | cons b l ih =>
      rw [List.cons_append, sweep_cons, ih, sweep_cons]
      dsimp only
      by_cases hb : stamp b + T < clk.reading (sweep clk stamp T l (n + 1)).2
      · rw [if_pos hb, if_pos hb]
      · rw [if_neg hb, if_neg hb, List.cons_append]

/-- A sweep reads the clock once for every entry. -/
lemma sweep_snd (l : List α) : (sweep clk stamp T l n).2 = n + l.length := by
  induction l with
  | nil => rfl
  | cons a l ih =>
      rw [sweep_cons, ih, List.length_cons]
      rfl

/-- A sweep at one moment. -/
lemma sweep_at {now : ℤ} (h : ∀ m, n ≤ m → m < n + l.length → clk.reading m = now) :
    (sweep clk stamp T l n).1 = l.filter fun a => now ≤ stamp a + T := by
  induction l with
  | nil => rfl
  | cons a l ih =>
      rw [List.length_cons] at h
      have hlast : clk.reading (sweep clk stamp T l n).2 = now := by
        rw [sweep_snd]
        exact h _ (Nat.le_add_right n _) (by omega)
      rw [sweep_cons, hlast, ih fun m hn hm => h m hn (by omega), List.filter_cons]
      by_cases hle : now ≤ stamp a + T
      · rw [if_neg (not_lt.mpr hle), if_pos (by simpa using hle)]
      · rw [if_pos (not_le.mp hle), if_neg (by simpa using hle)]

/-- What a sweep leaves had not lapsed at one of its readings. -/
lemma exists_reading_of_mem_sweep {a : α} (ha : a ∈ (sweep clk stamp T l n).1) :
    ∃ m, n ≤ m ∧ m < (sweep clk stamp T l n).2 ∧ clk.reading m ≤ stamp a + T := by
  induction l with
  | nil => simp [sweep] at ha
  | cons b l ih =>
      rw [sweep_cons] at ha ⊢
      dsimp only at ha ⊢
      split_ifs at ha with hlapsed
      · obtain ⟨m, hn, hm, hle⟩ := ih ha
        exact ⟨m, hn, Nat.lt_succ_of_lt hm, hle⟩
      · rcases List.mem_cons.mp ha with rfl | ha
        · exact ⟨_, le_sweep_snd, Nat.lt_succ_self _, not_lt.mp hlapsed⟩
        · obtain ⟨m, hn, hm, hle⟩ := ih ha
          exact ⟨m, hn, Nat.lt_succ_of_lt hm, hle⟩

/-- What a sweep does not leave had lapsed at one of its readings. -/
lemma mem_sweep_or_lapsed {a : α} (ha : a ∈ l) :
    a ∈ (sweep clk stamp T l n).1
      ∨ ∃ m < (sweep clk stamp T l n).2, stamp a + T < clk.reading m := by
  induction l with
  | nil => cases ha
  | cons b l ih =>
      rw [sweep_cons]
      dsimp only
      rcases List.mem_cons.mp ha with rfl | ha
      · split_ifs with hlapsed
        · exact Or.inr ⟨_, Nat.lt_succ_self _, hlapsed⟩
        · exact Or.inl List.mem_cons_self
      · rcases ih ha with hmem | ⟨m, hm, hlapsed⟩
        · refine Or.inl ?_
          split_ifs
          · exact hmem
          · exact List.mem_cons_of_mem b hmem
        · exact Or.inr ⟨m, Nat.lt_succ_of_lt hm, hlapsed⟩

lemma Settled.mono (h : Settled clk key stamp T k t l n) (hl : ∀ a ∈ l, a ∈ l') (hn : n ≤ n') :
    Settled clk key stamp T k t l' n' := by
  rcases h with ⟨a, ha, hk⟩ | hlapsed
  · exact Or.inl ⟨a, hl a ha, hk⟩
  · exact Or.inr (hlapsed.trans_le (clk.mono hn))

/-- **A sweep** only removes leases that have lapsed. -/
lemma Settled.sweep (h : Settled clk key stamp T k t l n) :
    Settled clk key stamp T k t (sweep clk stamp T l n).1 (sweep clk stamp T l n).2 := by
  rcases h with ⟨a, ha, hk, ht⟩ | hlapsed
  · induction l with
    | nil => simp at ha
    | cons b l ih =>
        rw [Lease.sweep]
        dsimp only
        rcases List.mem_cons.mp ha with rfl | ha
        · split_ifs with hlapsed
          · rw [ht] at hlapsed
            exact Or.inr (hlapsed.trans_le (clk.mono (Nat.le_succ _)))
          · exact Or.inl ⟨a, by simp, hk, ht⟩
        · refine (ih ha).mono (fun c hc => ?_) (Nat.le_succ _)
          split_ifs
          · exact hc
          · exact List.mem_cons_of_mem b hc
  · exact Or.inr (hlapsed.trans_le (clk.mono le_sweep_snd))

/-- A lease that is given up leaves those on other keys alone. -/
lemma Settled.eraseP [DecidableEq κ] {k' : κ} (h : Settled clk key stamp T k t l n) (hne : k ≠ k') :
    Settled clk key stamp T k t (l.eraseP (key · = k')) n := by
  refine h.imp_left ?_
  rintro ⟨a, ha, rfl, ht⟩
  exact ⟨a, (List.mem_eraseP_of_neg (by simpa using hne)).mpr ha, rfl, ht⟩

/-- When there is no lease on the key, an earlier one has lapsed. -/
lemma Settled.lapsed (h : Settled clk key stamp T k t l n) (hfree : ∀ a ∈ l, key a ≠ k) :
    t + T < clk.reading n := by
  rcases h with ⟨a, ha, hk, -⟩ | hlapsed
  · exact absurd hk (hfree a ha)
  · exact hlapsed

end Lease

end PeerStreamer
