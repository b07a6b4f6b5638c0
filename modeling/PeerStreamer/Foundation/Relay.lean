import Mathlib.Data.List.Sort
import Mathlib.Logic.Function.Iterate
import Mathlib.Tactic

/-!
# Items that are passed on

Nodes `ι` pass items `α` on to each other.  An item comes into the system at some node (`origin`),
is carried from one node to another by a message (`carried`), and may change when it arrives
(`arrive`).  `Travelled origin carried arrive x₀ n k x` says that the item that came in as `x₀` is
`x` at the node `n`, `k` hops from there.

`Relayed` is the invariant of a system that makes nothing up: whatever a node holds or has sent has
travelled there.  `Relayed.step` is its rule: a step keeps it if a node gets hold only of what comes
in there or arrives, and sends only what it holds.
-/

namespace PeerStreamer

variable {ι α : Type}

/-- The item `x₀` has come to the node `n` as `x`, in `k` hops. -/
inductive Travelled (origin : ι → α → Prop) (carried : ι → ι → α → Prop) (arrive : α → α → Prop)
    (x₀ : α) : ι → ℕ → α → Prop
  | origin {n : ι} : origin n x₀ → Travelled origin carried arrive x₀ n 0 x₀
  | hop {m n : ι} {k : ℕ} {x y : α} : Travelled origin carried arrive x₀ m k x → carried m n x →
      arrive x y → Travelled origin carried arrive x₀ n (k + 1) y

/-- Every item that a node holds or has sent has travelled there. -/
structure Relayed (origin : ι → α → Prop) (carried : ι → ι → α → Prop) (arrive : α → α → Prop)
    (held : ι → α → Prop) : Prop where
  held : ∀ n x, held n x → ∃ x₀ k, Travelled origin carried arrive x₀ n k x
  sent : ∀ m n x, carried m n x → ∃ x₀ k, Travelled origin carried arrive x₀ m k x

section Travelled

variable {origin origin' : ι → α → Prop} {carried carried' : ι → ι → α → Prop}
  {arrive : α → α → Prop} {held held' : ι → α → Prop} {x₀ x : α} {n : ι} {k : ℕ}

lemma Travelled.mono (horigin : ∀ n x, origin n x → origin' n x)
    (hcarried : ∀ m n x, carried m n x → carried' m n x)
    (h : Travelled origin carried arrive x₀ n k x) :
    Travelled origin' carried' arrive x₀ n k x := by
  induction h with
  | origin ho => exact .origin (horigin _ _ ho)
  | hop _ hc ha ih => exact .hop ih (hcarried _ _ _ hc) ha

/-- What has travelled has come in somewhere. -/
lemma Travelled.exists_origin (h : Travelled origin carried arrive x₀ n k x) :
    ∃ m, origin m x₀ := by
  induction h with
  | origin ho => exact ⟨_, ho⟩
  | hop _ _ _ ih => exact ih

/-- **The rule for what is true on the way.**  What holds of an item that comes in, and is kept by
every arrival, holds of it wherever it is. -/
theorem Travelled.keeps {P : ℕ → α → Prop} (h : Travelled origin carried arrive x₀ n k x)
    (h₀ : P 0 x₀) (hstep : ∀ k x y, P k x → arrive x y → P (k + 1) y) : P k x := by
  induction h with
  | origin _ => exact h₀
  | hop _ _ ha ih => exact hstep _ _ _ ih ha

/-- **One step** of a system that makes nothing up. -/
theorem Relayed.step (h : Relayed origin carried arrive held)
    (horigin : ∀ n x, origin n x → origin' n x)
    (hcarried : ∀ m n x, carried m n x → carried' m n x)
    (hheld : ∀ n x, held' n x → held n x ∨ origin' n x ∨ ∃ m y, carried m n y ∧ arrive y x)
    (hsent : ∀ m n x, carried' m n x → carried m n x ∨ held' m x) :
    Relayed origin' carried' arrive held' := by
  have hnow : ∀ n x, held' n x → ∃ x₀ k, Travelled origin' carried' arrive x₀ n k x := by
    intro n x hx
    rcases hheld n x hx with hx | hx | ⟨m, y, hy, ha⟩
    · obtain ⟨x₀, k, ht⟩ := h.held n x hx
      exact ⟨x₀, k, ht.mono horigin hcarried⟩
    · exact ⟨x, 0, .origin hx⟩
    · obtain ⟨x₀, k, ht⟩ := h.sent m n y hy
      exact ⟨x₀, k + 1, .hop (ht.mono horigin hcarried) (hcarried m n y hy) ha⟩
  refine ⟨hnow, fun m n x hx => ?_⟩
  rcases hsent m n x hx with hx | hx
  · obtain ⟨x₀, k, ht⟩ := h.sent m n x hx
    exact ⟨x₀, k, ht.mono horigin hcarried⟩
  · exact hnow m x hx

end Travelled

/-! ## Streams -/

/-- **A viewer's stream.**  Items that all occur in a list whose keys increase, in the order of
their keys, are a subsequence of it. -/
theorem sublist_of_increasing (key : α → ℤ) {l l' : List α}
    (hl : (l.map key).Pairwise (· < ·)) (hl' : (l'.map key).Pairwise (· < ·))
    (hmem : ∀ x ∈ l', x ∈ l) : l'.Sublist l := by
  rw [List.pairwise_map] at hl hl'
  have hanti : Std.Antisymm fun x y : α => key x < key y :=
    ⟨fun _ _ h h' => absurd (h.trans h') (lt_irrefl _)⟩
  have hnodup : l'.Nodup := hl'.imp fun h he => absurd (he ▸ h) (lt_irrefl _)
  exact List.sublist_of_subperm_of_pairwise (List.subperm_of_subset hnodup hmem) hl' hl

end PeerStreamer
