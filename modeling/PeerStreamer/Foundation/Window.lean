import Mathlib.Tactic

/-!
# Items waiting for their turn

Items arrive under integer ids, in any order, and leave in the order of their ids.  What waits is a
partial function of the id; `emit` lists the items waiting in a range of ids, and `waitingFrom` is
what is left when everything below an id has gone.

`Turn` is one arrival at such a waiting room that holds `width` ids: everything below some id
leaves, and an id is passed over only when the item that arrives is `width` or more ids further.
`InOrder` is what holds of all the items that have arrived and left, and `InOrder.turn` is the
induction step.
-/

namespace PeerStreamer

variable {α : Type}

/-! ## Ranges of ids -/

/-- The items waiting under the ids from `a` up to `b`, without `b`, in order. -/
def emit (waiting : ℤ → Option α) (a b : ℤ) : List α :=
  (List.range (b - a).toNat).filterMap fun k : ℕ => waiting (a + k)

/-- What is left when the ids below `n` have gone. -/
def waitingFrom (waiting : ℤ → Option α) (n : ℤ) : ℤ → Option α :=
  fun i => if i < n then none else waiting i

variable {waiting : ℤ → Option α} {a b c : ℤ}

@[simp] lemma emit_self (waiting : ℤ → Option α) (a : ℤ) : emit waiting a a = [] := by
  simp [emit]

lemma emit_succ (h : a ≤ b) : emit waiting a (b + 1) = emit waiting a b ++ (waiting b).toList := by
  obtain ⟨n, rfl⟩ := Int.le.dest h
  have h₁ : (a + n + 1 - a).toNat = n + 1 := by omega
  have h₂ : (a + n - a).toNat = n := by omega
  rw [emit, emit, h₁, h₂, List.range_succ, List.filterMap_append]
  cases hw : waiting (a + n) with
  | none => simp [hw]
  | some x => simp [hw]

@[simp] lemma emit_one (waiting : ℤ → Option α) (a : ℤ) :
    emit waiting a (a + 1) = (waiting a).toList := by
  simp [emit_succ le_rfl]

/-- Ranges that meet are emitted one after the other. -/
lemma emit_append (hab : a ≤ b) (hbc : b ≤ c) :
    emit waiting a b ++ emit waiting b c = emit waiting a c := by
  induction c, hbc using Int.leInduction with
  | base => simp
  | succ c hbc ih => rw [emit_succ hbc, emit_succ (hab.trans hbc), ← List.append_assoc, ih]

lemma mem_emit {x : α} : x ∈ emit waiting a b ↔ ∃ i, a ≤ i ∧ i < b ∧ waiting i = some x := by
  simp only [emit, List.mem_filterMap, List.mem_range]
  constructor
  · rintro ⟨k, hk, hx⟩
    exact ⟨a + k, by omega, by omega, hx⟩
  · rintro ⟨i, hai, hib, hx⟩
    refine ⟨(i - a).toNat, by omega, ?_⟩
    rwa [Int.toNat_of_nonneg (by omega), add_sub_cancel]

lemma emit_congr {waiting' : ℤ → Option α} (h : ∀ i, a ≤ i → i < b → waiting i = waiting' i) :
    emit waiting a b = emit waiting' a b := by
  refine List.filterMap_congr fun k hk => ?_
  have hk' := List.mem_range.mp hk
  exact h (a + k) (by omega) (by omega)

lemma emit_map {β : Type} (f : α → β) :
    emit (fun i => (waiting i).map f) a b = (emit waiting a b).map f := by
  rw [emit, emit, List.map_filterMap]

/-- Dropping ids below the range changes nothing in it. -/
lemma emit_waitingFrom {n : ℤ} (h : n ≤ a) : emit (waitingFrom waiting n) a b = emit waiting a b :=
  emit_congr fun i hi _ => if_neg (by omega)

lemma waitingFrom_waitingFrom {m n : ℤ} (h : m ≤ n) :
    waitingFrom (waitingFrom waiting m) n = waitingFrom waiting n := by
  funext i
  simp only [waitingFrom]
  split_ifs <;> first | rfl | omega

variable {key : α → ℤ}

/-- Items that wait under their own ids leave in the order of their ids. -/
lemma emit_sorted (hkey : ∀ i x, waiting i = some x → key x = i) (a b : ℤ) :
    ((emit waiting a b).map key).Pairwise (· < ·) := by
  rw [List.pairwise_map, emit, List.pairwise_filterMap]
  refine List.pairwise_lt_range.imp fun {j k} hjk x hx y hy => ?_
  rw [hkey _ _ hx, hkey _ _ hy]
  omega

/-! ## One arrival -/

/-- `x` takes its place, unless an item with its id waits already. -/
def place (key : α → ℤ) (waiting : ℤ → Option α) (x : α) : ℤ → Option α :=
  Function.update waiting (key x) (some ((waiting (key x)).getD x))

/-- Taking a place does not touch the ids below it. -/
lemma place_waitingFrom {x : α} {n : ℤ} (h : n ≤ key x) :
    place key (waitingFrom waiting n) x = waitingFrom (place key waiting x) n := by
  funext i
  by_cases hi : i = key x
  · have hlt : ¬ i < n := by omega
    simp [place, waitingFrom, ← hi, hlt]
  · simp [place, waitingFrom, hi]

/-- One arrival: `x` takes its place, everything below `n'` leaves, and an id is passed over only
when `x` is `width` or more ids further. -/
structure Turn (key : α → ℤ) (width : ℤ) (n : ℤ) (waiting : ℤ → Option α) (x : α) (n' : ℤ)
    (waiting' : ℤ → Option α) (left : List α) : Prop where
  le : n ≤ n'
  leaves : left = emit (place key waiting x) n n'
  stays : waiting' = waitingFrom (place key waiting x) n'
  forced : ∀ m, n ≤ m → m < n' → place key waiting x m = none → m + width ≤ key x

/-- A turn seen through a map that keeps the ids. -/
lemma Turn.map {β : Type} (key' : β → ℤ) (f : α → β) (hf : ∀ x, key' (f x) = key x)
    {width n n' : ℤ} {waiting' : ℤ → Option α} {x : α} {left : List α}
    (h : Turn key width n waiting x n' waiting' left) :
    Turn key' width n (fun i => (waiting i).map f) (f x) n' (fun i => (waiting' i).map f)
      (left.map f) := by
  have hplace : place key' (fun i => (waiting i).map f) (f x)
      = fun i => (place key waiting x i).map f := by
    funext i
    by_cases hi : i = key x
    · rw [place, hf, hi, place, Function.update_self, Function.update_self]
      cases waiting (key x) <;> rfl
    · rw [place, hf, place, Function.update_of_ne hi, Function.update_of_ne hi]
  refine ⟨h.le, ?_, ?_, fun m hm hlt hnone => ?_⟩
  · rw [h.leaves, hplace, emit_map]
  · funext i
    rw [h.stays, hplace]
    simp only [waitingFrom]
    split_ifs <;> rfl
  · rw [hf]
    rw [hplace] at hnone
    exact h.forced m hm hlt (Option.map_eq_none_iff.mp hnone)

/-! ## All arrivals -/

/-- After the arrivals `arrived`, of which the first had the id `start`: what has left is in order
and complete up to `n`, apart from ids that were passed over, and what waits is the rest. -/
structure InOrder (key : α → ℤ) (width start : ℤ) (arrived left : List α) (n : ℤ)
    (waiting : ℤ → Option α) : Prop where
  start_le : start ≤ n
  sorted : (left.map key).Pairwise (· < ·)
  below : ∀ x ∈ left, key x < n
  above : ∀ i x, waiting i = some x → n ≤ i ∧ key x = i
  first : ∀ x, x ∈ left ∨ waiting (key x) = some x → arrived.find? (key · = key x) = some x
  kept : ∀ x ∈ arrived, key x ∈ left.map key ∨ (waiting (key x)).isSome
  passed : ∀ m, start ≤ m → m < n → m ∉ left.map key → ∃ x ∈ arrived, m + width ≤ key x

lemma inOrder_start (key : α → ℤ) (width start : ℤ) :
    InOrder key width start [] [] start fun _ => none where
  start_le := le_rfl
  sorted := List.Pairwise.nil
  below x hx := by simp at hx
  above i x hx := by simp at hx
  first x hx := by simp at hx
  kept x hx := by simp at hx
  passed m h₁ h₂ := by omega

section Turn

variable {width start n n' : ℤ} {arrived left left' : List α} {waiting' : ℤ → Option α} {x : α}

lemma place_eq_some {i : ℤ} {y : α} :
    place key waiting x i = some y
      ↔ waiting i = some y ∨ (i = key x ∧ waiting i = none ∧ y = x) := by
  by_cases hi : i = key x
  · subst hi
    cases hw : waiting (key x) with
    | none => simp [place, hw, eq_comm]
    | some z => simp [place, hw]
  · simp [place, hi]

/-- Items wait under their own ids, also the one that has just come. -/
lemma InOrder.key_of_place (h : InOrder key width start arrived left n waiting) {i : ℤ} {y : α}
    (hy : place key waiting x i = some y) : key y = i := by
  rcases place_eq_some.mp hy with hy | ⟨rfl, -, rfl⟩
  · exact (h.above i y hy).2
  · rfl

/-- What leaves in a turn. -/
lemma InOrder.mem_left (h : InOrder key width start arrived left n waiting)
    (ht : Turn key width n waiting x n' waiting' left') {y : α} :
    y ∈ left' ↔ n ≤ key y ∧ key y < n' ∧ place key waiting x (key y) = some y := by
  rw [ht.leaves, mem_emit]
  constructor
  · rintro ⟨i, h₁, h₂, hy⟩
    obtain rfl := h.key_of_place hy
    exact ⟨h₁, h₂, hy⟩
  · rintro ⟨h₁, h₂, hy⟩
    exact ⟨key y, h₁, h₂, hy⟩

/-- What waits after a turn. -/
lemma Turn.waiting_eq_some (ht : Turn key width n waiting x n' waiting' left') {i : ℤ} {y : α} :
    waiting' i = some y ↔ n' ≤ i ∧ place key waiting x i = some y := by
  rw [ht.stays, waitingFrom]
  split_ifs with hi
  · simp [hi]
  · simp [not_lt.mp hi]

/-- An id that is not passed yet, and under which nothing waits, has not come. -/
lemma InOrder.not_arrived (h : InOrder key width start arrived left n waiting) {i : ℤ} (hi : n ≤ i)
    (hnone : waiting i = none) : arrived.find? (key · = i) = none := by
  refine List.find?_eq_none.mpr fun z hz hzi => ?_
  have hzi : key z = i := by simpa using hzi
  rcases h.kept z hz with hl | hw
  · obtain ⟨w, hw, hwz⟩ := List.mem_map.mp hl
    have hlt := h.below w hw
    omega
  · rw [hzi, hnone] at hw
    cases hw

/-- What has left or waits after a turn has left or waited before it, or has just come. -/
lemma InOrder.origin (h : InOrder key width start arrived left n waiting)
    (ht : Turn key width n waiting x n' waiting' left') {y : α}
    (hy : y ∈ left ++ left' ∨ waiting' (key y) = some y) :
    (y ∈ left ∨ waiting (key y) = some y)
      ∨ (key y = key x ∧ waiting (key y) = none ∧ y = x) := by
  rcases hy with hy | hy
  · rcases List.mem_append.mp hy with hy | hy
    · exact Or.inl (Or.inl hy)
    · exact (place_eq_some.mp ((h.mem_left ht).mp hy).2.2).imp_left Or.inr
  · exact (place_eq_some.mp (ht.waiting_eq_some.mp hy).2).imp_left Or.inr

/-- Under the id of what has come, something has left, or is in its place. -/
lemma InOrder.placed (h : InOrder key width start arrived left n waiting) {y : α}
    (hy : y ∈ arrived ++ [x]) :
    (∃ z ∈ left, key z = key y) ∨ ∃ z, place key waiting x (key y) = some z := by
  rcases List.mem_append.mp hy with hy | hy
  · rcases h.kept y hy with hl | hw
    · exact Or.inl (List.mem_map.mp hl)
    · obtain ⟨z, hz⟩ := Option.isSome_iff_exists.mp hw
      exact Or.inr ⟨z, place_eq_some.mpr (Or.inl hz)⟩
  · obtain rfl := List.mem_singleton.mp hy
    exact Or.inr ⟨_, Function.update_self _ _ _⟩

/-- What is in its place leaves in the turn, or waits after it. -/
lemma InOrder.place_cases (h : InOrder key width start arrived left n waiting) (hx : n ≤ key x)
    (ht : Turn key width n waiting x n' waiting' left') {i : ℤ} {z : α}
    (hz : place key waiting x i = some z) : z ∈ left' ∨ waiting' i = some z := by
  have hzi := h.key_of_place hz
  have hle : n ≤ i := by
    rcases place_eq_some.mp hz with hw | ⟨rfl, -, -⟩
    · exact (h.above _ _ hw).1
    · exact hx
  rcases lt_or_ge i n' with hlt | hge
  · left
    rw [h.mem_left ht, hzi]
    exact ⟨hle, hlt, hz⟩
  · exact Or.inr (ht.waiting_eq_some.mpr ⟨hge, hz⟩)

/-- **The induction step**: an arrival that is not late. -/
theorem InOrder.turn (h : InOrder key width start arrived left n waiting) (hx : n ≤ key x)
    (ht : Turn key width n waiting x n' waiting' left') :
    InOrder key width start (arrived ++ [x]) (left ++ left') n' waiting' := by
  refine ⟨h.start_le.trans ht.le, ?_, ?_, ?_, ?_, ?_, ?_⟩
  · rw [List.map_append, List.pairwise_append]
    refine ⟨h.sorted, ?_, ?_⟩
    · rw [ht.leaves]
      exact emit_sorted (fun i y => h.key_of_place) n n'
    · intro i hi j hj
      obtain ⟨y, hy, rfl⟩ := List.mem_map.mp hi
      obtain ⟨z, hz, rfl⟩ := List.mem_map.mp hj
      exact (h.below y hy).trans_le ((h.mem_left ht).mp hz).1
  · intro y hy
    rcases List.mem_append.mp hy with hy | hy
    · exact (h.below y hy).trans_le ht.le
    · exact ((h.mem_left ht).mp hy).2.1
  · intro i y hy
    obtain ⟨h₁, h₂⟩ := ht.waiting_eq_some.mp hy
    exact ⟨h₁, h.key_of_place h₂⟩
  · intro y hy
    rw [List.find?_append]
    rcases h.origin ht hy with hold | ⟨-, hnone, rfl⟩
    · rw [h.first y hold]
      rfl
    · simp [h.not_arrived hx hnone]
  · intro y hy
    rcases h.placed hy with ⟨z, hz, hzy⟩ | ⟨z, hz⟩
    · exact Or.inl (List.mem_map.mpr ⟨z, List.mem_append_left _ hz, hzy⟩)
    · rcases h.place_cases hx ht hz with hleft | hwaits
      · exact Or.inl (List.mem_map.mpr ⟨z, List.mem_append_right _ hleft, h.key_of_place hz⟩)
      · exact Or.inr (Option.isSome_iff_exists.mpr ⟨z, hwaits⟩)
  · intro m hm hlt hnot
    rw [List.map_append, List.mem_append, not_or] at hnot
    by_cases hmn : m < n
    · obtain ⟨y, hy, hle⟩ := h.passed m hm hmn hnot.1
      exact ⟨y, List.mem_append_left _ hy, hle⟩
    · refine ⟨x, by simp, ht.forced m (not_lt.mp hmn) hlt ?_⟩
      cases hp : place key waiting x m with
      | none => rfl
      | some z =>
          rcases h.place_cases hx ht hp with hleft | hwaits
          · exact absurd (List.mem_map.mpr ⟨z, hleft, h.key_of_place hp⟩) hnot.2
          · exact absurd hlt (not_lt.mpr (ht.waiting_eq_some.mp hwaits).1)

end Turn

end PeerStreamer
