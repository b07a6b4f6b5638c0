import PeerStreamer.Foundation.Eval

/-!
# Reference counts

Objects shared by counting: whoever keeps a pointer to one counts it up, gives it back by counting
it down, and whoever brings the counter to zero releases the object.  A counter is kept modulo `m`.

* `RefOp.count`, `countAll` — what the operations do to the counters, undefined on an object that
  is not allocated;
* `Moves M ops M'` — the references themselves, a multiset: each of `ops` can be made when its turn
  comes, and together they turn the references `M` into `M'`;
* `Fits m M ops` — at no moment of that has an object `m` references or more.

`Counts.countAll` is the rule for both: as long as the references fit, the counters follow them, and
nothing is released before its last reference is gone.  `countAll_dups` says what the counters hold
when they do not fit, and `Counts.overflow` how an object is then released too early.  Objects may
be some among others (`Moves.map`, `countAll_map`).
-/

namespace PeerStreamer

/-- An operation on the counter of the object `p`. -/
inductive RefOp (α : Type)
  | create (p : α)
  | dup (p : α)
  | free (p : α)
  deriving DecidableEq, Repr

/-- The counter of each object, `none` if it is not allocated. -/
abbrev Counters (α : Type) := α → Option ℕ

variable {α β : Type} [DecidableEq α]

/-! ## Counting -/

/-- One operation on counters modulo `m`. -/
def RefOp.count (m : ℕ) (c : Counters α) : RefOp α → Eval (Counters α)
  | .create p => .ok (Function.update c p (some 1))
  | .dup p =>
      match c p with
      | none => .error .useAfterFree
      | some k => .ok (Function.update c p (some ((k + 1) % m)))
  | .free p =>
      match c p with
      | none => .error .useAfterFree
      | some k =>
          let k' := (k + (m - 1)) % m
          .ok (Function.update c p (if k' = 0 then none else some k'))

/-- Operations one after the other. -/
def countAll (m : ℕ) : Counters α → List (RefOp α) → Eval (Counters α)
  | c, [] => .ok c
  | c, op :: ops => do
      let c ← op.count m c
      countAll m c ops

lemma countAll_append (m : ℕ) (c : Counters α) (ops ops' : List (RefOp α)) :
    countAll m c (ops ++ ops') = countAll m c ops >>= fun c => countAll m c ops' := by
  induction ops generalizing c with
  | nil => rfl
  | cons op ops ih =>
      rw [List.cons_append, countAll, countAll]
      cases op.count m c with
      | error u => rfl
      | ok c => exact ih c

/-! ## References -/

/-- The references after an operation. -/
def RefOp.after (M : Multiset α) : RefOp α → Multiset α
  | .create p => p ::ₘ M
  | .dup p => p ::ₘ M
  | .free p => M.erase p

/-- An operation that may be made: an object is created once, and used while it is referenced. -/
def RefOp.InOrder (M : Multiset α) : RefOp α → Prop
  | .create p => p ∉ M
  | .dup p => p ∈ M
  | .free p => p ∈ M

instance (M : Multiset α) : (op : RefOp α) → Decidable (op.InOrder M)
  | .create p => inferInstanceAs (Decidable (p ∉ M))
  | .dup p => inferInstanceAs (Decidable (p ∈ M))
  | .free p => inferInstanceAs (Decidable (p ∈ M))

/-- The operations may be made one after the other, and turn the references `M` into `M'`. -/
def Moves : Multiset α → List (RefOp α) → Multiset α → Prop
  | M, [], M' => M = M'
  | M, op :: ops, M' => op.InOrder M ∧ Moves (op.after M) ops M'

/-- At no moment has an object `m` references or more. -/
def Fits (m : ℕ) : Multiset α → List (RefOp α) → Prop
  | _, [] => True
  | M, op :: ops => (∀ p ∈ op.after M, (op.after M).count p < m) ∧ Fits m (op.after M) ops

instance Fits.decidable (m : ℕ) : (M : Multiset α) → (ops : List (RefOp α)) →
    Decidable (Fits m M ops)
  | _, [] => isTrue trivial
  | M, op :: ops =>
      have : Decidable (Fits m (op.after M) ops) := Fits.decidable m (op.after M) ops
      inferInstanceAs (Decidable ((∀ p ∈ op.after M, (op.after M).count p < m) ∧ _))

section Moves

variable {M M' M'' : Multiset α} {ops ops' : List (RefOp α)} {p : α}

lemma Moves.nil : Moves M [] M := rfl

/-- The references may be written in another way. -/
lemma Moves.of_eq {N N' : Multiset α} (hN : N = M) (hN' : N' = M') (h : Moves M ops M') :
    Moves N ops N' := by
  subst hN hN'
  exact h

lemma Moves.append (h : Moves M ops M') (h' : Moves M' ops' M'') : Moves M (ops ++ ops') M'' := by
  induction ops generalizing M with
  | nil =>
      obtain rfl : M = M' := h
      exact h'
  | cons op ops ih => exact ⟨h.1, ih h.2⟩

lemma Moves.create (h : p ∉ M) : Moves M [.create p] (p ::ₘ M) := ⟨h, rfl⟩

lemma Moves.dup (h : p ∈ M) : Moves M [.dup p] (p ::ₘ M) := ⟨h, rfl⟩

lemma Moves.free : Moves (p ::ₘ M) [.free p] M :=
  ⟨Multiset.mem_cons_self p M, Multiset.erase_cons_head p M⟩

/-- References taken for each element of a list, by operations that only need what `M` has. -/
lemma Moves.flatMap_take {g : β → List (RefOp α)} {r : β → Multiset α} {l : List β}
    (h : ∀ x ∈ l, ∀ M', M ≤ M' → Moves M' (g x) (M' + r x)) :
    Moves M (l.flatMap g) (M + (l.map r).sum) := by
  induction l generalizing M with
  | nil => simp [Moves]
  | cons x l ih =>
      have hx := h x List.mem_cons_self M le_rfl
      have hl := @ih (M + r x) fun y hy M' hM' =>
        h y (List.mem_cons_of_mem x hy) M' ((Multiset.le_add_right M (r x)).trans hM')
      rw [List.flatMap_cons, List.map_cons, List.sum_cons, ← add_assoc]
      exact hx.append hl

/-- References given back for each element of a list. -/
lemma Moves.flatMap_drop {g : β → List (RefOp α)} {r : β → Multiset α}
    (h : ∀ x M, Moves (M + r x) (g x) M) (l : List β) :
    Moves (M + (l.map r).sum) (l.flatMap g) M := by
  induction l with
  | nil => simp [Moves]
  | cons x l ih =>
      rw [List.flatMap_cons, List.map_cons, List.sum_cons, add_comm (r x), ← add_assoc]
      exact (h x _).append ih

/-- An operation adds at most one reference. -/
lemma RefOp.card_after (op : RefOp α) (M : Multiset α) : (op.after M).card ≤ M.card + 1 := by
  cases op with
  | create p => simp [RefOp.after]
  | dup p => simp [RefOp.after]
  | free p => exact (Multiset.card_le_card (Multiset.erase_le p M)).trans (Nat.le_succ _)

/-- Few references and few operations fit. -/
lemma fits_of_card {m : ℕ} (h : M.card + ops.length < m) : Fits m M ops := by
  induction ops generalizing M with
  | nil => trivial
  | cons op ops ih =>
      have hcard := op.card_after M
      rw [List.length_cons] at h
      refine ⟨fun p _ => ?_, ih (by omega)⟩
      have := Multiset.count_le_card p (op.after M)
      omega

/-- References given back fit if they did before. -/
lemma fits_frees {m : ℕ} (h : ∀ p, M.count p < m) (hfree : ∀ op ∈ ops, ∃ p, op = .free p) :
    Fits m M ops := by
  induction ops generalizing M with
  | nil => trivial
  | cons op ops ih =>
      obtain ⟨q, rfl⟩ := hfree op List.mem_cons_self
      have hafter : ∀ p, (M.erase q).count p < m := fun p =>
        (Multiset.count_le_of_le p (Multiset.erase_le q M)).trans_lt (h p)
      exact ⟨fun p _ => hafter p, ih hafter fun op hop => hfree op (List.mem_cons_of_mem _ hop)⟩

/-- References taken fit if they do in the end. -/
lemma fits_dups {m : ℕ} {l : List α} (h : ∀ p, M.count p + l.count p < m) :
    Fits m M (l.map .dup) := by
  induction l generalizing M with
  | nil => trivial
  | cons q l ih =>
      have hafter : ∀ p, (q ::ₘ M).count p + l.count p < m := fun p => by
        have hp := h p
        rw [List.count_cons] at hp
        rw [Multiset.count_cons]
        simp only [beq_iff_eq, eq_comm (a := q)] at hp
        omega
      exact ⟨fun p _ => Nat.lt_of_add_right_lt (hafter p), ih hafter⟩

end Moves

/-! ## Counters that follow the references -/

/-- Every counter is the number of references, and exactly the objects referenced are allocated. -/
structure Counts (m : ℕ) (c : Counters α) (M : Multiset α) : Prop where
  fits : ∀ p, M.count p < m
  counter : ∀ p, c p = if p ∈ M then some (M.count p) else none

section Counts

variable {m : ℕ} {c : Counters α} {M M' : Multiset α} {ops : List (RefOp α)}

lemma counts_empty (hm : 0 < m) : Counts m (fun _ => none) (0 : Multiset α) where
  fits p := by simpa using hm
  counter p := by simp

/-- One operation that is in order, and fits. -/
lemma Counts.count (h : Counts m c M) {op : RefOp α} (hop : op.InOrder M)
    (hfits : ∀ p ∈ op.after M, (op.after M).count p < m) :
    ∃ c', op.count m c = .ok c' ∧ Counts m c' (op.after M) := by
  have hm : 0 < m := by
    cases op with
    | create p => exact (Nat.zero_le _).trans_lt (h.fits p)
    | dup p => exact (Nat.zero_le _).trans_lt (h.fits p)
    | free p => exact (Nat.zero_le _).trans_lt (h.fits p)
  have hlt : ∀ p, (op.after M).count p < m := by
    intro p
    by_cases hp : p ∈ op.after M
    · exact hfits p hp
    · rwa [Multiset.count_eq_zero_of_notMem hp]
  cases op with
  | create p =>
      refine ⟨_, rfl, hlt, fun q => ?_⟩
      have hp : p ∉ M := hop
      rcases eq_or_ne q p with rfl | hq
      · simp [RefOp.after, hp]
      · simp [RefOp.after, hq, h.counter]
  | dup p =>
      have hp : p ∈ M := hop
      have hc : c p = some (M.count p) := by rw [h.counter, if_pos hp]
      have hk : M.count p + 1 < m := by simpa [RefOp.after] using hlt p
      refine ⟨Function.update c p (some (M.count p + 1)), ?_, hlt, fun q => ?_⟩
      · rw [RefOp.count, hc]
        simp only [Nat.mod_eq_of_lt hk]
      · rcases eq_or_ne q p with rfl | hq
        · simp [RefOp.after]
        · simp [RefOp.after, hq, h.counter]
  | free p =>
      have hp : p ∈ M := hop
      have hc : c p = some (M.count p) := by rw [h.counter, if_pos hp]
      have hpos : 0 < M.count p := Multiset.count_pos.mpr hp
      have hk : (M.count p + (m - 1)) % m = M.count p - 1 := by
        have hsum : M.count p + (m - 1) = M.count p - 1 + m := by omega
        rw [hsum, Nat.add_mod_right, Nat.mod_eq_of_lt]
        have := h.fits p
        omega
      refine ⟨Function.update c p (if M.count p - 1 = 0 then none else some (M.count p - 1)),
        ?_, hlt, fun q => ?_⟩
      · rw [RefOp.count, hc]
        simp only [hk]
      · rcases eq_or_ne q p with rfl | hq
        · have hmem : q ∈ M.erase q ↔ ¬ M.count q - 1 = 0 := by
            rw [← Multiset.count_ne_zero, Multiset.count_erase_self]
          simp only [Function.update_self, RefOp.after, hmem, Multiset.count_erase_self, ite_not]
        · simp [RefOp.after, hq, h.counter, Multiset.mem_erase_of_ne hq,
            Multiset.count_erase_of_ne hq]

/-- **The counters follow the references**, as long as these fit. -/
theorem Counts.countAll (h : Counts m c M) (hmoves : Moves M ops M') (hfits : Fits m M ops) :
    ∃ c', countAll m c ops = .ok c' ∧ Counts m c' M' := by
  induction ops generalizing c M with
  | nil =>
      obtain rfl : M = M' := hmoves
      exact ⟨c, rfl, h⟩
  | cons op ops ih =>
      obtain ⟨c₁, hc₁, h₁⟩ := h.count hmoves.1 hfits.1
      obtain ⟨c', hc', h'⟩ := ih h₁ hmoves.2 hfits.2
      exact ⟨c', by rw [PeerStreamer.countAll, hc₁]; exact hc', h'⟩

end Counts

/-! ## Counters that overflow -/

/-- After any number of references taken the counters are right modulo `m`. -/
theorem countAll_dups {m : ℕ} {c : Counters α} (l : List α) (hlive : ∀ p ∈ l, c p ≠ none)
    (hlt : ∀ p, ∀ k ∈ c p, k < m) :
    countAll m c (l.map .dup) = .ok fun p => (c p).map fun k => (k + l.count p) % m := by
  induction l generalizing c with
  | nil =>
      refine congrArg Except.ok (funext fun p => ?_)
      cases hp : c p with
      | none => rfl
      | some k => simp [Nat.mod_eq_of_lt (hlt p k hp)]
  | cons q l ih =>
      obtain ⟨k, hk⟩ := Option.ne_none_iff_exists'.mp (hlive q List.mem_cons_self)
      have hm : 0 < m := (Nat.zero_le k).trans_lt (hlt q k hk)
      rw [List.map_cons, countAll, RefOp.count, hk]
      simp only [Eval.ok_bind]
      rw [ih]
      · refine congrArg Except.ok (funext fun p => ?_)
        rcases eq_or_ne p q with rfl | hp
        · simp [hk, Nat.add_assoc, Nat.add_comm 1]
        · simp [hp, List.count_cons_of_ne (Ne.symm hp)]
      · intro p hp
        rcases eq_or_ne p q with rfl | hpq
        · simp
        · rw [Function.update_of_ne hpq]
          exact hlive p (List.mem_cons_of_mem q hp)
      · intro p k'
        rcases eq_or_ne p q with rfl | hpq
        · rw [Function.update_self, Option.mem_some_iff]
          rintro rfl
          exact Nat.mod_lt _ hm
        · rw [Function.update_of_ne hpq]
          exact hlt p k'

/-- **A counter that has gone round**: references are taken until it is at 1 again, and the next one
that is given back releases the object. -/
theorem Counts.overflow {m : ℕ} {c : Counters α} {M : Multiset α} (h : Counts m c M) {l : List α}
    (hl : ∀ p ∈ l, p ∈ M) {a b : α} (hne : a ≠ b) (ha : a ∈ M) (hb : b ∈ M)
    (hround : (M.count b + l.count b) % m = 1) (ops : List (RefOp α)) :
    PeerStreamer.countAll m c (l.map .dup ++ .free a :: .free b :: .dup b :: ops)
      = .error .useAfterFree := by
  have hlive : ∀ p ∈ M, c p = some (M.count p) := fun p hp => by rw [h.counter, if_pos hp]
  have hlt : ∀ p, ∀ k ∈ c p, k < m := fun p k hk => by
    rw [h.counter] at hk
    split_ifs at hk
    · obtain rfl := Option.mem_some_iff.mp hk
      exact h.fits p
    · cases hk
  have hzero : (1 + (m - 1)) % m = 0 := by
    rw [Nat.add_sub_cancel' ((Nat.zero_le _).trans_lt (h.fits b)), Nat.mod_self]
  rw [countAll_append, countAll_dups _ (fun p hp => by simp [hlive p (hl p hp)]) hlt, Eval.ok_bind]
  simp [PeerStreamer.countAll, RefOp.count, hlive a ha, hlive b hb, Ne.symm hne, hround, hzero]

/-! ## Objects among others -/

/-- An operation on the object that stands for `p` among others. -/
def RefOp.map (g : α → β) : RefOp α → RefOp β
  | .create p => .create (g p)
  | .dup p => .dup (g p)
  | .free p => .free (g p)

section Embedding

variable [DecidableEq β] {m : ℕ} {g : α → β} {M M' : Multiset α} {N : Multiset β}
  {ops : List (RefOp α)}

lemma RefOp.after_map (hg : Function.Injective g) {op : RefOp α}
    (hop : op.InOrder M) : (op.map g).after (M.map g + N) = (op.after M).map g + N := by
  cases op with
  | create p => rw [RefOp.map, RefOp.after, RefOp.after, Multiset.map_cons, Multiset.cons_add]
  | dup p => rw [RefOp.map, RefOp.after, RefOp.after, Multiset.map_cons, Multiset.cons_add]
  | free p =>
      have hp : p ∈ M := hop
      have hmem : g p ∈ M.map g := Multiset.mem_map_of_mem g hp
      rw [RefOp.map, RefOp.after, RefOp.after, Multiset.erase_add_left_pos _ hmem,
        Multiset.map_erase g hg]

omit [DecidableEq α] [DecidableEq β] in
lemma RefOp.InOrder.map (hg : Function.Injective g) (hN : ∀ p, g p ∉ N) {op : RefOp α}
    (hop : op.InOrder M) : (op.map g).InOrder (M.map g + N) := by
  cases op with
  | create p =>
      have hp : p ∉ M := hop
      change g p ∉ M.map g + N
      rw [Multiset.mem_add, Multiset.mem_map_of_injective hg, not_or]
      exact ⟨hp, hN p⟩
  | dup p => exact Multiset.mem_add.mpr (Or.inl (Multiset.mem_map_of_mem g hop))
  | free p => exact Multiset.mem_add.mpr (Or.inl (Multiset.mem_map_of_mem g hop))

/-- References are moved among other objects as they are moved alone. -/
theorem Moves.map (hg : Function.Injective g) (hN : ∀ p, g p ∉ N) (h : Moves M ops M') :
    Moves (M.map g + N) (ops.map (RefOp.map g)) (M'.map g + N) := by
  induction ops generalizing M with
  | nil => exact congrArg (fun M => Multiset.map g M + N) h
  | cons op ops ih =>
      refine ⟨h.1.map hg hN, ?_⟩
      rw [RefOp.after_map hg h.1]
      exact ih h.2

/-- And they fit if those of the others do. -/
theorem Fits.map (hg : Function.Injective g) (hN : ∀ p, g p ∉ N) (hfits : ∀ p, N.count p < m)
    (hmoves : Moves M ops M') (h : Fits m M ops) :
    Fits m (M.map g + N) (ops.map (RefOp.map g)) := by
  induction ops generalizing M with
  | nil => trivial
  | cons op ops ih =>
      rw [List.map_cons, PeerStreamer.Fits, RefOp.after_map hg hmoves.1]
      refine ⟨fun q hq => ?_, ih hmoves.2 h.2⟩
      rw [Multiset.count_add]
      by_cases hmem : q ∈ (op.after M).map g
      · obtain ⟨p, hp, rfl⟩ := Multiset.mem_map.mp hmem
        rw [Multiset.count_map_eq_count' g _ hg, Multiset.count_eq_zero_of_notMem (hN p)]
        exact h.1 p hp
      · rw [Multiset.count_eq_zero_of_notMem hmem, zero_add]
        exact hfits q

/-- The counters of the objects alone. -/
lemma Counts.comp {c : Counters β} (hg : Function.Injective g) (hN : ∀ p, g p ∉ N)
    (h : Counts m c (M.map g + N)) : Counts m (c ∘ g) M := by
  have hcount : ∀ p, (M.map g + N).count (g p) = M.count p := fun p => by
    rw [Multiset.count_add, Multiset.count_map_eq_count' g _ hg,
      Multiset.count_eq_zero_of_notMem (hN p), add_zero]
  have hmem : ∀ p, g p ∈ M.map g + N ↔ p ∈ M := fun p => by
    rw [← Multiset.count_pos, hcount, Multiset.count_pos]
  refine ⟨fun p => hcount p ▸ h.fits (g p), fun p => ?_⟩
  rw [Function.comp_apply, h.counter, hcount]
  simp only [hmem]

lemma RefOp.count_map {c : Counters β} (hg : Function.Injective g) (op : RefOp α) :
    ((op.map g).count m c).map (· ∘ g) = op.count m (c ∘ g) := by
  cases op with
  | create p =>
      simp only [RefOp.map, RefOp.count, Except.map, Function.update_comp_eq_of_injective _ hg]
  | dup p =>
      simp only [RefOp.map, RefOp.count, Function.comp_apply]
      cases c (g p) with
      | none => rfl
      | some k => simp only [Except.map, Function.update_comp_eq_of_injective _ hg]
  | free p =>
      simp only [RefOp.map, RefOp.count, Function.comp_apply]
      cases c (g p) with
      | none => rfl
      | some k => simp only [Except.map, Function.update_comp_eq_of_injective _ hg]

/-- Counting among other objects is counting alone. -/
theorem countAll_map {c : Counters β} (hg : Function.Injective g) (ops : List (RefOp α)) :
    (countAll m c (ops.map (RefOp.map g))).map (· ∘ g) = countAll m (c ∘ g) ops := by
  induction ops generalizing c with
  | nil => rfl
  | cons op ops ih =>
      rw [List.map_cons, countAll, countAll, ← RefOp.count_map hg]
      cases (op.map g).count m c with
      | error u => rfl
      | ok c' => exact ih

end Embedding

/-- Objects of two kinds, each for itself. -/
lemma exists_map_inl_add_map_inr {α β : Type} (M : Multiset (α ⊕ β)) :
    ∃ (L : Multiset α) (R : Multiset β), M = L.map Sum.inl + R.map Sum.inr := by
  induction M using Multiset.induction_on with
  | empty => exact ⟨0, 0, rfl⟩
  | cons x M ih =>
      obtain ⟨L, R, rfl⟩ := ih
      cases x with
      | inl a => exact ⟨a ::ₘ L, R, by rw [Multiset.map_cons, Multiset.cons_add]⟩
      | inr b => exact ⟨L, b ::ₘ R, by rw [Multiset.map_cons, Multiset.add_cons]⟩

end PeerStreamer
