import PeerStreamer.Foundation.Run
import PeerStreamer.NetHelper.PacketBucket

/-!
# `ord_set` with sizes of 32 bits

The sizes and positions of an `ord_set` are of type `uint32_t`, so the sum of the two bounds of the
binary search is taken modulo `2 ^ 32`, and so is the size after an increment.  Here are the
functions of `ord_set.c` with that arithmetic.

As long as a set has at most `2 ^ 31` elements they do what those without it do
(`insert_eq`, `remove_eq`, `find_eq`), and every call does what it should (`ordSet_exact`).  With
one element more the search for the last one goes astray: the bounds meet at `2 ^ 31`, and half of
their sum is 0 (`not_ordSet_exact`).

The loop of the search need not end then, so it is given a number of rounds.
-/

namespace PeerStreamer

/-- How a search can fail. -/
inductive SearchError
  | outOfBounds
  | unfinished
  deriving DecidableEq, Repr

/-- The values of `ord_set_size`. -/
def ORD_SET_SIZE_MOD : ℕ := 2 ^ 32

namespace OrdSet

variable {α : Type} (cmp : α → α → ℤ)

/-! ## The functions -/

/-- The loop of `ord_set_check_pos`.  The three tests of the body look at the same `i`. -/
def checkPosLoop (h : OrdSet α) (n : α) : (rounds a b : ℕ) → Except SearchError ℕ
  | 0, _, _ => .error .unfinished
  | rounds + 1, a, b =>
      let i := (b + a) % ORD_SET_SIZE_MOD / 2
      if b > a then
        match h.elements[i]? with
        | none => .error .outOfBounds
        | some x =>
            let a' := if cmp n x > 0 then i + 1 else a
            let b' := if cmp n x < 0 then (if i ≠ 0 then i - 1 else 0) else b
            if cmp n x = 0 then h.checkPosLoop n rounds i i else h.checkPosLoop n rounds a' b'
      else return i

/-- `ord_set_check_pos` -/
def checkPos (rounds : ℕ) (h : OrdSet α) (n : α) : Except SearchError ℕ :=
  if h.elements.length > 0 then do
    let i ← h.checkPosLoop cmp n rounds 0 (h.elements.length - 1)
    match h.elements[i]? with
    | none => .error .outOfBounds
    | some x => return if cmp n x > 0 then i + 1 else i
  else return 0

/-- `ord_set_find` -/
def find (rounds : ℕ) (os : OrdSet α) (el : α) : Except SearchError (Option α) := do
  let i ← os.checkPos cmp rounds el
  match os.elements[i]? with
  | some x => return if cmp x el = 0 then some x else none
  | none => return none

/-- `ord_set_remove` on a set that does not own its elements. -/
def remove (rounds : ℕ) (os : OrdSet α) (el : α) : Except SearchError (OrdSet α × ℕ) := do
  let i ← os.checkPos cmp rounds el
  match os.elements[i]? with
  | some x =>
      if cmp x el = 0 then
        return (⟨os.size, os.elements.take i ++ os.elements.drop (i + 1)⟩, 0)
      else return (os, 1)
  | none => return (os, 1)

/-- A new element at position `i`: the array is enlarged first if it is nearly full, and has to
have room for the elements that are moved then. -/
def putAt (os : OrdSet α) (i : ℕ) (el : α) : Except SearchError (OrdSet α) :=
  let size :=
    if (os.elements.length + 1) % ORD_SET_SIZE_MOD ≥ os.size then
      (os.size + ORD_SET_INC_SIZE) % ORD_SET_SIZE_MOD
    else os.size
  if os.elements.length + 1 ≤ size then
    return ⟨size, os.elements.take i ++ el :: os.elements.drop i⟩
  else .error .outOfBounds

/-- `ord_set_insert` -/
def insert (rounds : ℕ) (os : OrdSet α) (el : α) (override : Bool) :
    Except SearchError (OrdSet α × α) := do
  let i ← os.checkPos cmp rounds el
  match os.elements[i]? with
  | none => do
      let os ← os.putAt i el
      return (os, el)
  | some x =>
      if cmp x el ≠ 0 then do
        let os ← os.putAt i el
        return (os, el)
      else if override then return (⟨os.size, os.elements.set i el⟩, el)
      else return (os, x)

/-! ## Up to `2 ^ 31` elements -/

section Small

variable {cmp} {h os : OrdSet α} {n el : α} {a b rounds : ℕ}

/-- The search stays among the elements. -/
lemma ordSetCheckPosLoop_lt {c : ℕ → ℤ} {len fuel : ℕ} (ha : a < len) (hb : b < len) :
    ordSetCheckPosLoop c fuel a b < len := by
  induction fuel generalizing a b with
  | zero =>
      rw [ordSetCheckPosLoop]
      omega
  | succ fuel ih =>
      have hi : b > a → (b + a) / 2 + 1 < len + 1 := by omega
      rw [ordSetCheckPosLoop]
      split_ifs
      all_goals first
        | exact ih (by omega) (by omega)
        | omega

/-- The sum of the bounds does not wrap. -/
lemma checkPosLoop_eq (hlen : h.elements.length ≤ 2 ^ 31) (fuel : ℕ) (ha : a < h.elements.length)
    (hb : b < h.elements.length) (hfuel : b - a ≤ fuel) (hrounds : b - a < rounds) :
    h.checkPosLoop cmp n rounds a b
      = .ok (ordSetCheckPosLoop (fun i => (h.elements[i]?).elim 0 (cmp n)) fuel a b) := by
  have hmod : ∀ {a b : ℕ}, a < h.elements.length → b < h.elements.length →
      (b + a) % ORD_SET_SIZE_MOD = b + a := fun {a b} ha hb =>
    Nat.mod_eq_of_lt (by rw [ORD_SET_SIZE_MOD]; omega)
  induction fuel generalizing rounds a b with
  | zero =>
      obtain ⟨k, rfl⟩ : ∃ k, rounds = k + 1 := ⟨rounds - 1, by omega⟩
      have hab : ¬b > a := by omega
      simp only [checkPosLoop, hmod ha hb, hab, if_false, ordSetCheckPosLoop,
        Eval.pure_eq_ok]
  | succ fuel ih =>
      obtain ⟨k, rfl⟩ : ∃ k, rounds = k + 1 := ⟨rounds - 1, by omega⟩
      rw [checkPosLoop, ordSetCheckPosLoop]
      simp only [hmod ha hb]
      by_cases hab : b > a
      · have hi : (b + a) / 2 < h.elements.length := by omega
        have hget : h.elements[(b + a) / 2]? = some h.elements[(b + a) / 2] :=
          List.getElem?_eq_getElem hi
        simp only [hab, if_true, hget, Option.elim_some]
        by_cases hzero : cmp n h.elements[(b + a) / 2] = 0
        · simp only [hzero, if_true]
          exact ih hi hi (by omega) (by omega)
        · simp only [hzero, if_false]
          refine ih ?_ ?_ ?_ ?_ <;> split_ifs <;> omega
      · simp only [hab, if_false, Eval.pure_eq_ok]

/-- The search of a set of at most `2 ^ 31` elements. -/
lemma checkPos_eq (hlen : h.elements.length ≤ 2 ^ 31) (hrounds : h.elements.length ≤ rounds)
    (n : α) : h.checkPos cmp rounds n = .ok (ordSetCheckPos cmp h n) := by
  rw [checkPos, ordSetCheckPos]
  by_cases hpos : h.elements.length > 0
  · simp only [hpos, if_true]
    rw [checkPosLoop_eq hlen h.elements.length hpos (by omega) (by omega) (by omega),
      Eval.ok_bind]
    set i := ordSetCheckPosLoop (fun i => (h.elements[i]?).elim 0 (cmp n)) h.elements.length 0
      (h.elements.length - 1)
    have hlt : i < h.elements.length := ordSetCheckPosLoop_lt hpos (by omega)
    simp only [List.getElem?_eq_getElem hlt, Option.elim_some, Eval.pure_eq_ok]
  · simp only [hpos, if_false, Eval.pure_eq_ok]

/-- Neither does the size of the array, if it has not so far. -/
lemma putAt_eq (hlen : os.elements.length ≤ 2 ^ 31) (hfits : os.elements.length ≤ os.size)
    (i : ℕ) (el : α) : os.putAt i el
      = .ok ⟨if os.elements.length + 1 ≥ os.size then os.size + ORD_SET_INC_SIZE else os.size,
        os.elements.take i ++ el :: os.elements.drop i⟩ := by
  have hn : (os.elements.length + 1) % ORD_SET_SIZE_MOD = os.elements.length + 1 :=
    Nat.mod_eq_of_lt (by rw [ORD_SET_SIZE_MOD]; omega)
  rw [putAt]
  simp only [hn]
  by_cases hfull : os.elements.length + 1 ≥ os.size
  · have hsize : (os.size + ORD_SET_INC_SIZE) % ORD_SET_SIZE_MOD = os.size + ORD_SET_INC_SIZE :=
      Nat.mod_eq_of_lt (by rw [ORD_SET_SIZE_MOD, ORD_SET_INC_SIZE]; omega)
    have hroom : os.elements.length + 1 ≤ os.size + ORD_SET_INC_SIZE := by
      rw [ORD_SET_INC_SIZE]
      omega
    simp only [hfull, if_true, hsize, hroom, Eval.pure_eq_ok]
  · have hroom : os.elements.length + 1 ≤ os.size := by omega
    simp only [hfull, if_false, hroom, if_true, Eval.pure_eq_ok]

theorem find_eq (hlen : os.elements.length ≤ 2 ^ 31) (hrounds : os.elements.length ≤ rounds)
    (el : α) : os.find cmp rounds el = .ok (ordSetFind cmp os el) := by
  rw [find, checkPos_eq hlen hrounds, Eval.ok_bind, ordSetFind]
  cases os.elements[ordSetCheckPos cmp os el]? <;> rfl

theorem remove_eq (hlen : os.elements.length ≤ 2 ^ 31) (hrounds : os.elements.length ≤ rounds)
    (el : α) : os.remove cmp rounds el = .ok (ordSetRemove cmp os el) := by
  rw [remove, checkPos_eq hlen hrounds, Eval.ok_bind, ordSetRemove]
  cases os.elements[ordSetCheckPos cmp os el]? with
  | none => rfl
  | some x =>
      by_cases hx : cmp x el = 0 <;> simp only [hx, if_true, if_false, Eval.pure_eq_ok]

theorem insert_eq (hlen : os.elements.length ≤ 2 ^ 31) (hrounds : os.elements.length ≤ rounds)
    (hfits : os.elements.length ≤ os.size) (el : α) (override : Bool) :
    os.insert cmp rounds el override = .ok (ordSetInsert cmp os el override) := by
  rw [insert, checkPos_eq hlen hrounds, Eval.ok_bind, ordSetInsert]
  cases os.elements[ordSetCheckPos cmp os el]? with
  | none => simp only [putAt_eq hlen hfits, Eval.ok_bind, Eval.pure_eq_ok]
  | some x =>
      by_cases hx : cmp x el = 0
      · simp only [hx, ne_eq, not_true_eq_false, if_false]
        cases override <;> rfl
      · simp only [hx, ne_eq, not_false_eq_true, if_true, putAt_eq hlen hfits,
          Eval.ok_bind, Eval.pure_eq_ok]

end Small

/-! ## Operations -/

/-- What is done with a set. -/
inductive Op (α : Type)
  | find (el : α)
  | insert (el : α) (override : Bool)
  | remove (el : α)
  deriving DecidableEq

/-- What is answered. -/
inductive Answer (α : Type)
  | element (found : Option α)
  | status (res : ℕ)
  deriving DecidableEq

/-- One operation. -/
def step (rounds : ℕ) (os : OrdSet α) : Op α → Except SearchError (OrdSet α × Answer α)
  | .find el => do
      let found ← os.find cmp rounds el
      return (os, .element found)
  | .insert el override => do
      let (os, x) ← os.insert cmp rounds el override
      return (os, .element (some x))
  | .remove el => do
      let (os, res) ← os.remove cmp rounds el
      return (os, .status res)

/-- A set with an element equivalent to `el`. -/
def Present (os : OrdSet α) (el : α) : Prop := ∃ y ∈ os.elements, cmp y el = 0

/-- **What an operation promises.**  `find` returns the equivalent element if there is one; `insert`
adds the element if there is none, and otherwise replaces it exactly if `override` is set, and
returns the element that is there then; `remove` deletes the equivalent element and returns 0, or
returns 1 and changes nothing. -/
def Promised (os os' : OrdSet α) : Op α → Answer α → Prop
  | .find el, .element found =>
      os' = os ∧ ∀ x, found = some x ↔ x ∈ os.elements ∧ cmp x el = 0
  | .insert el override, .element (some x) =>
      if override then x = el ∧ ∀ y, y ∈ os'.elements ↔ y = el ∨ (y ∈ os.elements ∧ cmp y el ≠ 0)
      else (os.Present cmp el → os' = os ∧ x ∈ os.elements ∧ cmp x el = 0)
        ∧ (¬os.Present cmp el → x = el ∧ ∀ y, y ∈ os'.elements ↔ y = el ∨ y ∈ os.elements)
  | .remove el, .status res =>
      (os.Present cmp el → res = 0 ∧ ∀ y, y ∈ os'.elements ↔ y ∈ os.elements ∧ cmp y el ≠ 0)
        ∧ (¬os.Present cmp el → res = 1 ∧ os' = os)
  | _, _ => False

/-- An operation succeeds and does what it promises, and leaves a set that is strictly increasing
and fits its array. -/
def Served (rounds : ℕ) (os : OrdSet α) (op : Op α) : Prop :=
  ∃ os' answer, os.step cmp rounds op = .ok (os', answer) ∧ os'.Sorted cmp
    ∧ os'.elements.length ≤ os'.size ∧ os.Promised cmp os' op answer

section Runs

variable {cmp} {os : OrdSet α} {rounds : ℕ}

lemma present_iff (hc : LawfulCmp cmp) (hs : os.Sorted cmp) (el : α) :
    os.Present cmp el ↔ ordSetFind cmp os el ≠ none := by
  rw [ne_eq, ordSetFind_eq_none hc hs]
  simp [Present]

/-- The array has room for what is in it. -/
lemma ordSetInsert_fits (hfits : os.elements.length ≤ os.size) (el : α) (ov : Bool) :
    (ordSetInsert cmp os el ov).1.elements.length ≤ (ordSetInsert cmp os el ov).1.size := by
  have hgrown : ∀ i, (os.elements.take i ++ el :: os.elements.drop i).length
      ≤ if os.elements.length + 1 ≥ os.size then os.size + ORD_SET_INC_SIZE else os.size := by
    intro i
    rw [List.length_append, List.length_cons, List.length_take, List.length_drop,
      ORD_SET_INC_SIZE]
    split_ifs <;> omega
  rw [ordSetInsert]
  cases os.elements[ordSetCheckPos cmp os el]? with
  | none => exact hgrown _
  | some x =>
      by_cases hx : cmp x el = 0
      · simp only [hx, ne_eq, not_true_eq_false, if_false]
        cases ov
        · exact hfits
        · simpa using hfits
      · simp only [hx, ne_eq, not_false_eq_true, if_true]
        exact hgrown _

lemma insert_promised (hc : LawfulCmp cmp) (hs : os.Sorted cmp) (el : α) (ov : Bool) :
    (ordSetInsert cmp os el ov).1.Sorted cmp
      ∧ os.Promised cmp (ordSetInsert cmp os el ov).1 (.insert el ov)
        (.element (some (ordSetInsert cmp os el ov).2)) := by
  rw [Promised]
  cases hfind : ordSetFind cmp os el with
  | none =>
      have hmem : ∀ y, y ∈ (ordSetInsert cmp os el ov).1.elements ↔ y = el ∨ y ∈ os.elements :=
        fun y => mem_ordSetInsert hc hs hfind
      have hne := (ordSetFind_eq_none hc hs el).mp hfind
      refine ⟨ordSetInsert_sorted hc hs ov hfind, ?_⟩
      split_ifs
      · refine ⟨ordSetInsert_absent hfind, fun y => ?_⟩
        rw [hmem]
        exact or_congr_right ⟨fun hy => ⟨hy, hne y hy⟩, And.left⟩
      · refine ⟨fun hpres => absurd hfind ((present_iff hc hs el).mp hpres), fun _ => ?_⟩
        exact ⟨ordSetInsert_absent hfind, hmem⟩
  | some z =>
      rw [ordSetInsert_present hc hs hfind]
      obtain ⟨hz, hze⟩ := (ordSetFind_eq_some hc hs).mp hfind
      cases ov with
      | true =>
          refine ⟨ordSetWrite_sorted hc hs el, rfl, fun y => ?_⟩
          rw [if_pos rfl, mem_ordSetWrite]
          exact or_congr_left ⟨And.left, fun hy => ⟨hy, z, hz, hze⟩⟩
      | false =>
          refine ⟨hs, fun _ => ⟨rfl, hz, hze⟩, fun habs => absurd ⟨z, hz, hze⟩ habs⟩

lemma remove_promised (hc : LawfulCmp cmp) (hs : os.Sorted cmp) (el : α) :
    os.Promised cmp (ordSetRemove cmp os el).1 (.remove el)
      (.status (ordSetRemove cmp os el).2) := by
  rw [Promised, present_iff hc hs]
  cases hfind : ordSetFind cmp os el with
  | none =>
      rw [ordSetRemove_absent hfind]
      exact ⟨fun h => absurd rfl h, fun _ => ⟨rfl, rfl⟩⟩
  | some z =>
      refine ⟨fun _ => ⟨ordSetRemove_present hfind, fun y => mem_ordSetRemove hc hs⟩, fun h => ?_⟩
      exact absurd (Option.some_ne_none z) h

lemma ordSetRemove_fits (hc : LawfulCmp cmp) (hs : os.Sorted cmp)
    (hfits : os.elements.length ≤ os.size) (el : α) :
    (ordSetRemove cmp os el).1.elements.length ≤ (ordSetRemove cmp os el).1.size := by
  have hsize : (ordSetRemove cmp os el).1.size = os.size := by
    rw [ordSetRemove]
    cases os.elements[ordSetCheckPos cmp os el]? with
    | none => rfl
    | some x => by_cases hx : cmp x el = 0 <;> simp only [hx, if_true, if_false]
  rw [hsize, ordSetRemove_elements hc hs]
  exact (List.length_filter_le _ _).trans hfits

/-- **One operation** on a set of at most `2 ^ 31` elements. -/
theorem served_of_small (hc : LawfulCmp cmp) (hs : os.Sorted cmp)
    (hfits : os.elements.length ≤ os.size) (hlen : os.elements.length ≤ 2 ^ 31)
    (hrounds : 2 ^ 31 ≤ rounds) (op : Op α) : os.Served cmp rounds op := by
  have henough : os.elements.length ≤ rounds := hlen.trans hrounds
  cases op with
  | find el =>
      refine ⟨os, .element (ordSetFind cmp os el), ?_, hs, hfits, ?_⟩
      · rw [step, find_eq hlen henough]
        rfl
      · exact ⟨rfl, fun x => ordSetFind_eq_some hc hs⟩
  | insert el ov =>
      obtain ⟨hsorted, hpromised⟩ := insert_promised hc hs el ov
      refine ⟨_, _, ?_, hsorted, ordSetInsert_fits hfits el ov, hpromised⟩
      rw [step, insert_eq hlen henough hfits]
      rfl
  | remove el =>
      refine ⟨_, _, ?_, ordSetRemove_sorted hc hs el, ordSetRemove_fits hc hs hfits el,
        remove_promised hc hs el⟩
      rw [step, remove_eq hlen henough]
      rfl

/-- Such an operation leaves a sorted set that fits its array. -/
lemma step_keeps (hc : LawfulCmp cmp) (hrounds : 2 ^ 31 ≤ rounds) {os' : OrdSet α} {op : Op α}
    {answer : Answer α} (h : os.Sorted cmp ∧ os.elements.length ≤ os.size)
    (hlen : os.elements.length ≤ 2 ^ 31) (hstep : os.step cmp rounds op = .ok (os', answer)) :
    os'.Sorted cmp ∧ os'.elements.length ≤ os'.size := by
  obtain ⟨os₁, answer₁, hstep₁, hs₁, hfits₁, -⟩ := served_of_small hc h.1 h.2 hlen hrounds op
  obtain ⟨rfl, -⟩ := ok_unique hstep₁ hstep
  exact ⟨hs₁, hfits₁⟩

/-- **The ordered set.**  For every comparison function that is a total preorder, every operation of
every sequence from `ord_set_new` on does what it promises, as long as it is called on a set of at
most `2 ^ 31` elements. -/
theorem ordSet_exact (hc : LawfulCmp cmp) (hrounds : 2 ^ 31 ≤ rounds) {size : ℕ}
    {ops : List (Op α)}
    (hsmall : Along (step cmp rounds) (fun os _ => os.elements.length ≤ 2 ^ 31) (ordSetNew size)
      ops) : Along (step cmp rounds) (Served cmp rounds) (ordSetNew size) ops := by
  refine along_imp (J := fun os => os.Sorted cmp ∧ os.elements.length ≤ os.size) ?_ ?_
    ⟨ordSetNew_sorted cmp size, Nat.zero_le _⟩ hsmall
  · rintro os op ⟨hs, hfits⟩ hlen
    exact served_of_small hc hs hfits hlen hrounds op
  · intro os op os' answer h hlen hstep
    exact step_keeps hc hrounds h hlen hstep

/-- **The sets such sequences make** are sorted. -/
theorem sorted_of_exec (hc : LawfulCmp cmp) (hrounds : 2 ^ 31 ≤ rounds) {size : ℕ}
    {ops : List (Op α)} {answers : List (Answer α)}
    (hsmall : Along (step cmp rounds) (fun os _ => os.elements.length ≤ 2 ^ 31) (ordSetNew size)
      ops) (hexec : exec (step cmp rounds) (ordSetNew size) ops = .ok (os, answers)) :
    os.Sorted cmp :=
  (exec_along hexec hsmall ⟨ordSetNew_sorted cmp size, Nat.zero_le _⟩
    fun _ _ _ _ h hlen hstep => step_keeps hc hrounds h hlen hstep).1

end Runs

/-- Two packets, one of which is replaced, found and removed. -/
def packetOps : List (Op FragmentedPacket) :=
  [.insert (packetKey 7) false, .insert (packetKey 3) false, .insert ⟨7, 5, []⟩ true,
    .find (packetKey 7), .remove (packetKey 7), .remove (packetKey 7)]

theorem ordSet_exact_packets :
    Along (step packetCmp (2 ^ 31)) (Served packetCmp (2 ^ 31)) (ordSetNew 1) packetOps :=
  ordSet_exact packetCmp_lawful le_rfl (by decide +kernel)

/-! ## One element more -/

section Astray

variable {cmp} {os : OrdSet α} {l : List α} {x : α}

/-- The elements before the last one are below it. -/
lemma cmp_last_pos (hc : LawfulCmp cmp) (hs : os.Sorted cmp) (hel : os.elements = l ++ [x]) {i : ℕ}
    (hi : i < l.length) : ∃ y, os.elements[i]? = some y ∧ cmp x y > 0 ∧ cmp y x ≠ 0 := by
  have hlt : cmp l[i] x < 0 := by
    rw [Sorted, SortedBy, hel] at hs
    exact (List.pairwise_append.mp hs).2.2 _ (List.getElem_mem hi) _ (List.mem_singleton_self x)
  refine ⟨l[i], ?_, (hc.swap _ _).mp hlt, hlt.ne⟩
  rw [hel, List.getElem?_append_left hi, List.getElem?_eq_getElem hi]

/-- **The search for the last of more than `2 ^ 31` elements** ends at the first, if it ends: the
probes stay below `2 ^ 31`, and the lower bound with them. -/
lemma checkPosLoop_last_astray (hc : LawfulCmp cmp) (hs : os.Sorted cmp)
    (hel : os.elements = l ++ [x]) (hlen : 2 ^ 31 ≤ l.length) {rounds a i : ℕ} (ha : a ≤ 2 ^ 31)
    (hi : os.checkPosLoop cmp x rounds a l.length = .ok i) : i = 0 := by
  induction rounds generalizing a with
  | zero => cases hi
  | succ rounds ih =>
      rw [checkPosLoop] at hi
      by_cases hab : l.length > a
      · have hprobe : (l.length + a) % ORD_SET_SIZE_MOD / 2 < 2 ^ 31 := by
          rw [ORD_SET_SIZE_MOD]
          omega
        obtain ⟨y, hget, hpos, -⟩ := cmp_last_pos hc hs hel (hprobe.trans_le hlen)
        simp only [hab, if_true, hget, hpos, hpos.ne', not_lt.mpr hpos.le, if_false] at hi
        exact ih hprobe hi
      · have hwrap : (l.length + a) % ORD_SET_SIZE_MOD / 2 = 0 := by
          rw [ORD_SET_SIZE_MOD]
          omega
        simp only [hab, if_false, hwrap, Eval.pure_eq_ok, Except.ok.injEq] at hi
        exact hi.symm

/-- So the position found for it is that of the second one. -/
lemma checkPos_last_astray (hc : LawfulCmp cmp) (hs : os.Sorted cmp)
    (hel : os.elements = l ++ [x]) (hlen : 2 ^ 31 ≤ l.length) {rounds i : ℕ}
    (hi : os.checkPos cmp rounds x = .ok i) : i = 1 := by
  have hlength : os.elements.length = l.length + 1 := by
    rw [hel, List.length_append, List.length_singleton]
  rw [checkPos, hlength, if_pos (Nat.succ_pos _), Nat.add_sub_cancel] at hi
  obtain ⟨j, hloop, hi⟩ := Eval.bind_eq_ok.mp hi
  obtain rfl := checkPosLoop_last_astray hc hs hel hlen (Nat.zero_le _) hloop
  obtain ⟨y, hget, hpos, -⟩ := cmp_last_pos hc hs hel (i := 0) (by omega)
  simp only [hget, hpos, if_true, Eval.pure_eq_ok, Except.ok.injEq] at hi
  exact hi.symm

/-- **The last one** is there and is not found. -/
lemma find_last_astray (hc : LawfulCmp cmp) (hs : os.Sorted cmp) (hel : os.elements = l ++ [x])
    (hlen : 2 ^ 31 ≤ l.length) {rounds : ℕ} {found : Option α}
    (hfind : os.find cmp rounds x = .ok found) : found = none := by
  obtain ⟨i, hpos, hfind⟩ := Eval.bind_eq_ok.mp hfind
  obtain rfl := checkPos_last_astray hc hs hel hlen hpos
  obtain ⟨y, hget, -, hne⟩ := cmp_last_pos hc hs hel (i := 1) (by omega)
  simp only [hget, hne, if_false, Eval.pure_eq_ok, Except.ok.injEq] at hfind
  exact hfind.symm

/-- Nor is it removed. -/
lemma remove_last_astray (hc : LawfulCmp cmp) (hs : os.Sorted cmp) (hel : os.elements = l ++ [x])
    (hlen : 2 ^ 31 ≤ l.length) {rounds : ℕ} {removed : OrdSet α × ℕ}
    (hremove : os.remove cmp rounds x = .ok removed) : removed = (os, 1) := by
  obtain ⟨i, hpos, hremove⟩ := Eval.bind_eq_ok.mp hremove
  obtain rfl := checkPos_last_astray hc hs hel hlen hpos
  obtain ⟨y, hget, -, hne⟩ := cmp_last_pos hc hs hel (i := 1) (by omega)
  simp only [hget, hne, if_false, Eval.pure_eq_ok, Except.ok.injEq] at hremove
  exact hremove.symm

end Astray

/-! ## The numbers in order -/

/-- A comparison of numbers. -/
def natCmp (a b : ℕ) : ℤ := if a = b then 0 else if a > b then 1 else -1

lemma natCmp_neg {a b : ℕ} : natCmp a b < 0 ↔ a < b := by
  rw [natCmp]
  split_ifs <;> omega

lemma natCmp_lawful : LawfulCmp natCmp := by
  constructor
  · intro a b
    simp only [natCmp]
    split_ifs <;> omega
  · intro a b c
    simp only [natCmp]
    split_ifs <;> omega

/-- A sorted set of the numbers up to `n`. -/
lemma elements_eq_range {os : OrdSet ℕ} {n : ℕ} (hs : os.Sorted natCmp)
    (hmem : ∀ y, y ∈ os.elements ↔ y < n) : os.elements = List.range n := by
  have hperm : os.elements.Perm (List.range n) :=
    (List.perm_ext_iff_of_nodup (SortedBy.nodup natCmp_lawful hs) List.nodup_range).mpr fun y => by
      rw [hmem, List.mem_range]
  have hlt : os.elements.Pairwise (· < ·) := hs.imp natCmp_neg.mp
  exact hperm.eq_of_pairwise (fun a b _ _ h₁ h₂ => absurd h₁ h₂.asymm) hlt List.pairwise_lt_range

/-- The next number goes in. -/
lemma mem_of_insert_next {os os₁ : OrdSet ℕ} {j : ℕ} {answer : Answer ℕ}
    (hmem : ∀ y, y ∈ os.elements ↔ y < j)
    (hpromised : os.Promised natCmp os₁ (.insert j false) answer) (y : ℕ) :
    y ∈ os₁.elements ↔ y < j + 1 := by
  have hnew : ¬os.Present natCmp j := by
    rintro ⟨y, hy, hyj⟩
    have hlt := (hmem y).mp hy
    simp only [natCmp] at hyj
    split_ifs at hyj <;> omega
  match answer, hpromised with
  | .element (some x), hpromised =>
      rw [(hpromised.2 hnew).2, hmem]
      omega

/-- The numbers from `j` on go in in order. -/
lemma ascending_served {rounds n m j : ℕ} {os : OrdSet ℕ} (hs : os.Sorted natCmp)
    (hmem : ∀ y, y ∈ os.elements ↔ y < j)
    (hserved : Along (step natCmp rounds) (Served natCmp rounds) os
      ((List.range' j m).map (Op.insert · false) ++ [.find n])) :
    ∃ os' : OrdSet ℕ, os'.Sorted natCmp ∧ (∀ y, y ∈ os'.elements ↔ y < j + m)
      ∧ os'.Served natCmp rounds (.find n) := by
  induction m generalizing os j with
  | zero => exact ⟨os, hs, hmem, hserved.1⟩
  | succ m ih =>
      obtain ⟨⟨os₁, answer, hstep, hs₁, -, hpromised⟩, hrest⟩ := hserved
      have hmem₁ := mem_of_insert_next hmem hpromised
      obtain ⟨os', hs', hmem', hfind⟩ := ih hs₁ hmem₁ (hrest os₁ answer hstep)
      exact ⟨os', hs', fun y => by rw [hmem']; omega, hfind⟩

/-- The numbers from 0 to `2 ^ 31` go in, and the last one is looked for. -/
theorem not_ordSet_exact :
    ¬∀ (size : ℕ) (ops : List (Op ℕ)), 0 < size → size < ORD_SET_SIZE_MOD →
      ∃ rounds, Along (step natCmp rounds) (Served natCmp rounds) (ordSetNew size) ops := by
  intro hall
  obtain ⟨n, hn⟩ : ∃ n, n = 2 ^ 31 := ⟨_, rfl⟩
  obtain ⟨rounds, hserved⟩ := hall 10
    ((List.range' 0 (n + 1)).map (Op.insert · false) ++ [.find n]) (by decide) (by decide)
  obtain ⟨os, hs, hmem, os', answer, hstep, -, -, hpromised⟩ :=
    ascending_served (ordSetNew_sorted natCmp 10) (fun y => by simp [ordSetNew]) hserved
  have hel : os.elements = List.range n ++ [n] := by
    rw [← List.range_succ]
    exact elements_eq_range hs fun y => by rw [hmem, Nat.zero_add]
  have hlen : 2 ^ 31 ≤ (List.range n).length := by rw [List.length_range, hn]
  have hlast : n ∈ os.elements ∧ natCmp n n = 0 := by
    refine ⟨?_, if_pos rfl⟩
    rw [hmem]
    omega
  obtain ⟨found, hfind, hanswer⟩ := Eval.bind_eq_ok.mp hstep
  -- nothing is found, although the last element is there
  obtain rfl := find_last_astray natCmp_lawful hs hel hlen hfind
  cases hanswer
  cases (hpromised.2 n).mpr hlast

end OrdSet

end PeerStreamer
