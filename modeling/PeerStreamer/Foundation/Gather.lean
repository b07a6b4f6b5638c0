import Mathlib.Data.Finset.Range
import Mathlib.Tactic

/-!
# Gathering numbered pieces

What a reassembly buffer is for, apart from any buffer.  Things are sent in numbered pieces, in any
order and with repetitions; for every key the machine keeps the ids it has received, and reports
when they have become all of `0, …, size key - 1`, after which the key starts afresh.

`gather` is that machine, over arbitrary keys.  `Unfinished` is its invariant: between two arrivals
no key that has pieces at all has received all of them.
-/

namespace PeerStreamer

variable {κ : Type}

/-- For every key, the ids received since it was last complete. -/
abbrev Gathered (κ : Type) : Type := κ → Finset ℕ

/-- The piece `id` of `key` arrives; the answer tells whether it completes the ids. -/
def gather [DecidableEq κ] (size : κ → ℕ) (g : Gathered κ) (key : κ) (id : ℕ) : Gathered κ × Bool :=
  let ids := insert id (g key)
  if ids = Finset.range (size key) then (Function.update g key ∅, true)
  else (Function.update g key ids, false)

/-- No key has all its ids, and none has an id that is no piece. -/
def Unfinished (size : κ → ℕ) (g : Gathered κ) : Prop :=
  ∀ key, 0 < size key → g key ⊂ Finset.range (size key)

variable {size : κ → ℕ} {g : Gathered κ} {key key' : κ} {id : ℕ}

lemma unfinished_empty (size : κ → ℕ) : Unfinished size fun _ => ∅ := by
  intro key h
  rw [Finset.empty_ssubset, Finset.nonempty_range_iff]
  exact h.ne'

variable [DecidableEq κ]

/-- An arrival leaves the other keys alone. -/
lemma gather_of_ne (h : key' ≠ key) : (gather size g key id).1 key' = g key' := by
  rw [gather]
  split_ifs <;> exact Function.update_of_ne h _ _

lemma gather_complete (h : insert id (g key) = Finset.range (size key)) :
    gather size g key id = (Function.update g key ∅, true) := if_pos h

lemma gather_incomplete (h : insert id (g key) ≠ Finset.range (size key)) :
    gather size g key id = (Function.update g key (insert id (g key)), false) := if_neg h

/-- **The invariant is kept** by the arrival of a piece there is. -/
theorem Unfinished.gather (h : Unfinished size g) (hid : id < size key) :
    Unfinished size (gather size g key id).1 := by
  intro key' hpos
  by_cases hkey : key' = key
  · subst hkey
    have hsub : insert id (g key') ⊆ Finset.range (size key') :=
      Finset.insert_subset (Finset.mem_range.mpr hid) (h key' hpos).subset
    by_cases hc : insert id (g key') = Finset.range (size key')
    · simp only [gather_complete hc, Function.update_self]
      rw [Finset.empty_ssubset, Finset.nonempty_range_iff]
      omega
    · simp only [gather_incomplete hc, Function.update_self]
      exact hsub.ssubset_of_ne hc
  · rw [gather_of_ne hkey]
    exact h key' hpos

end PeerStreamer
