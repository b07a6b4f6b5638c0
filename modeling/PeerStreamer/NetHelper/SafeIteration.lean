import PeerStreamer.NetHelper.OrdSetWidth

/-!
# Safe iteration

`ord_set_for_each_safe` goes through a set from the largest element to the smallest.  Where the
iteration variable is NULL it starts with the last element there is; otherwise it goes on with the
predecessor saved in `tmp`, which it looks for in the array as the body has left it.  Both end at
the same element (`iterSafe_eq`): what is left to visit is a prefix of the array, and `tmp` is its
last element whenever the variable is kept.

The search that `ord_set_remove` and the iterator rest on is right up to `2 ^ 31` elements.  In a
larger set the last element is not found, so that it is not removed either and comes again
(`iteratesSafely_iff_of_sorted`).
-/

namespace PeerStreamer

namespace OrdSet

variable {α : Type} (cmp : α → α → ℤ)

/-! ## The loop -/

/-- `ord_set_iter_safe`: what it returns, and what it leaves in `tmp`. -/
def iterSafe (rounds : ℕ) (os : OrdSet α) (iter tmp : Option α) :
    Except SearchError (Option α × Option α) :=
  match iter with
  | some _ =>
      match tmp with
      | none => return (none, none)
      | some t => do
          let i ← os.checkPos cmp rounds t
          if i > 0 then
            match os.elements[i - 1]? with
            | none => .error .outOfBounds
            | some x => return (some t, some x)
          else return (some t, none)
  | none =>
      return (if os.elements.length > 0 then os.elements[os.elements.length - 1]? else none,
        if os.elements.length > 1 then os.elements[os.elements.length - 2]? else none)

/-- What a body does in its `k`-th round, with the set and the current element: the set, and the
iteration variable. -/
abbrev Body (α : Type) := ℕ → OrdSet α → α → Except SearchError (OrdSet α × Option α)

/-- `ord_set_for_each_safe`, from the `k`-th round on: the set it leaves, and the elements
visited. -/
def forEachSafe (rounds : ℕ) (body : Body α) :
    (fuel k : ℕ) → OrdSet α → (iter tmp : Option α) → Except SearchError (OrdSet α × List α)
  | 0, _, _, _, _ => .error .unfinished
  | fuel + 1, k, os, iter, tmp => do
      let (iter, tmp) ← os.iterSafe cmp rounds iter tmp
      match iter with
      | none => return (os, [])
      | some x => do
          let (os, iter) ← body k os x
          let (os, visited) ← forEachSafe rounds body fuel (k + 1) os iter tmp
          return (os, x :: visited)

/-- The current element is removed, and the variable set to NULL in the rounds `forget` says. -/
def removing (rounds : ℕ) (forget : ℕ → Bool) : Body α := fun k os x => do
  let (os, _) ← os.remove cmp rounds x
  return (os, if forget k then none else some x)

/-- Nothing is changed. -/
def keeping : Body α := fun _ os x => return (os, some x)

/-- **What is promised of the loop.**  It ends, and has visited every element once, from the largest
to the smallest: with the elements removed on the way, in whichever rounds the variable is set to
NULL, so that the set is empty then; and with nothing changed. -/
def IteratesSafely (os : OrdSet α) : Prop :=
  (∀ forget, ∃ rounds fuel,
    os.forEachSafe cmp rounds (removing cmp rounds forget) fuel 0 none none
      = .ok (⟨os.size, []⟩, os.elements.reverse))
    ∧ ∃ rounds fuel, os.forEachSafe cmp rounds keeping fuel 0 none none
      = .ok (os, os.elements.reverse)

/-! ## From the end -/

section Last

variable {cmp} {os : OrdSet α} {rounds : ℕ}

/-- The last two elements, as the iterator reads them. -/
lemma getElem?_last (l : List α) :
    (if l.length > 0 then l[l.length - 1]? else none) = l.getLast?
      ∧ (if l.length > 1 then l[l.length - 2]? else none) = l.dropLast.getLast? := by
  rw [List.getLast?_eq_getElem?, List.getLast?_eq_getElem?, List.getElem?_dropLast,
    List.length_dropLast]
  constructor
  · split_ifs with hpos
    · rfl
    · rw [List.getElem?_eq_none (by omega)]
  · split_ifs with hpos hprev
    · rfl
    · omega
    · rw [List.getElem?_eq_none (by omega)]
    · rfl

/-- From a variable that is NULL, the iterator starts with the last element. -/
lemma iterSafe_null (tmp : Option α) :
    os.iterSafe cmp rounds none tmp
      = .ok (os.elements.getLast?, os.elements.dropLast.getLast?) := by
  obtain ⟨hlast, hprev⟩ := getElem?_last os.elements
  rw [iterSafe, hlast, hprev]
  rfl

end Last

/-! ## Up to `2 ^ 31` elements -/

section Small

variable {cmp} {os : OrdSet α} {l r : List α} {t x : α} {iter tmp : Option α} {rounds : ℕ}

/-- An element is found where it is. -/
lemma checkPos_self (hc : LawfulCmp cmp) (hs : os.Sorted cmp) (hlen : os.elements.length ≤ 2 ^ 31)
    (hrounds : os.elements.length ≤ rounds) (hel : os.elements = l ++ t :: r) :
    os.checkPos cmp rounds t = .ok l.length := by
  have hmem : t ∈ os.elements := by simp [hel]
  have hlt : l.length < os.elements.length := by simp [hel]
  obtain ⟨hget, -⟩ := ordSetFind_position hc hs ((ordSetFind_eq_some hc hs).mpr ⟨hmem, hc.refl t⟩)
  obtain ⟨hpos, hget⟩ := List.getElem?_eq_some_iff.mp hget
  have hself : os.elements[l.length] = t := by simp [hel]
  rw [checkPos_eq hlen hrounds,
    (List.Nodup.getElem_inj_iff (SortedBy.nodup hc hs)).mp (hget.trans hself.symm)]

/-- The last element is removed. -/
lemma remove_last (hc : LawfulCmp cmp) (hs : os.Sorted cmp) (hlen : os.elements.length ≤ 2 ^ 31)
    (hrounds : os.elements.length ≤ rounds) (hel : os.elements = l ++ [x]) :
    os.remove cmp rounds x = .ok (⟨os.size, l⟩, 0) := by
  rw [remove, checkPos_self hc hs hlen hrounds hel, Eval.ok_bind]
  simp [hel, hc.refl x]

/-- **One call.**  When `l` is left to visit, and the variable is NULL or `tmp` is the last element
of `l`, the iterator returns that element and saves its predecessor. -/
lemma iterSafe_eq (hc : LawfulCmp cmp) (hs : os.Sorted cmp) (hlen : os.elements.length ≤ 2 ^ 31)
    (hrounds : os.elements.length ≤ rounds) (hel : os.elements = l ++ r)
    (hnext : iter = none ∧ r = [] ∨ iter ≠ none ∧ tmp = l.getLast?) :
    os.iterSafe cmp rounds iter tmp = .ok (l.getLast?, l.dropLast.getLast?) := by
  cases iter with
  | none =>
      obtain ⟨-, rfl⟩ := hnext.resolve_right fun h => h.1 rfl
      rw [iterSafe_null, hel, List.append_nil]
  | some y =>
      obtain ⟨-, rfl⟩ := hnext.resolve_left fun h => by cases h.1
      induction l using List.reverseRecOn with
      | nil => rfl
      | append_singleton l t _ =>
          rw [List.append_assoc, List.singleton_append] at hel
          rw [List.getLast?_concat, List.dropLast_concat]
          simp only [iterSafe, checkPos_self hc hs hlen hrounds hel, Eval.ok_bind]
          cases l using List.reverseRecOn with
          | nil => rfl
          | append_singleton l p =>
              have hprev : os.elements[(l ++ [p]).length - 1]? = some p := by
                simp [hel]
              have hpos : (l ++ [p]).length > 0 := by simp
              simp only [hpos, if_true, hprev, List.getLast?_concat, Eval.pure_eq_ok]

/-- The same when everything is left to visit, as in a loop that removes what it has visited. -/
lemma iterSafe_whole (hc : LawfulCmp cmp) (hs : os.Sorted cmp) (hlen : os.elements.length ≤ 2 ^ 31)
    (hrounds : os.elements.length ≤ rounds) (hnext : iter = none ∨ tmp = os.elements.getLast?) :
    os.iterSafe cmp rounds iter tmp
      = .ok (os.elements.getLast?, os.elements.dropLast.getLast?) := by
  refine iterSafe_eq hc hs hlen hrounds (List.append_nil os.elements).symm ?_
  rcases eq_or_ne iter none with h | h
  · exact Or.inl ⟨h, rfl⟩
  · exact Or.inr ⟨h, hnext.resolve_left h⟩

/-- **A loop that removes** what it visits. -/
lemma forEachSafe_removing (hc : LawfulCmp cmp) (size : ℕ) (hs : Sorted cmp ⟨size, l⟩)
    (hlen : l.length ≤ 2 ^ 31) (hrounds : l.length ≤ rounds) (forget : ℕ → Bool) (k : ℕ)
    (hnext : iter = none ∨ tmp = l.getLast?) :
    forEachSafe cmp rounds (removing cmp rounds forget) (l.length + 1) k ⟨size, l⟩ iter tmp
      = .ok (⟨size, []⟩, l.reverse) := by
  induction l using List.reverseRecOn generalizing k iter tmp with
  | nil =>
      rw [List.length_nil, forEachSafe, iterSafe_whole hc hs hlen hrounds hnext]
      rfl
  | append_singleton l x ih =>
      have hremove := remove_last hc hs hlen hrounds rfl
      have hs' : Sorted cmp ⟨size, l⟩ := hs.sublist (List.sublist_append_left l [x])
      have hcall := iterSafe_whole hc hs hlen hrounds hnext
      rw [List.length_append, List.length_singleton] at hlen hrounds ⊢
      -- what is saved is the last of the elements left, whether the variable is kept or not
      have hrest : forEachSafe cmp rounds (removing cmp rounds forget) (l.length + 1) (k + 1)
          ⟨size, l⟩ (if forget k then none else some x) l.getLast? = .ok (⟨size, []⟩, l.reverse) :=
        ih hs' (by omega) (by omega) (k + 1) (Or.inr rfl)
      rw [forEachSafe, hcall]
      simp only [Eval.ok_bind, List.getLast?_concat, List.dropLast_concat, removing, hremove,
        Eval.pure_eq_ok, hrest, List.reverse_append, List.reverse_singleton,
        List.singleton_append]

/-- **A loop that changes nothing**: the elements behind those left to visit are where they were. -/
lemma forEachSafe_keeping (hc : LawfulCmp cmp) (hs : os.Sorted cmp)
    (hlen : os.elements.length ≤ 2 ^ 31) (hrounds : os.elements.length ≤ rounds) (k : ℕ)
    (hel : os.elements = l ++ r)
    (hnext : iter = none ∧ r = [] ∨ iter ≠ none ∧ tmp = l.getLast?) :
    os.forEachSafe cmp rounds keeping (l.length + 1) k iter tmp = .ok (os, l.reverse) := by
  induction l using List.reverseRecOn generalizing r k iter tmp with
  | nil =>
      rw [List.length_nil, forEachSafe, iterSafe_eq hc hs hlen hrounds hel hnext]
      rfl
  | append_singleton l x ih =>
      have hrest : os.forEachSafe cmp rounds keeping (l.length + 1) (k + 1) (some x) l.getLast?
          = .ok (os, l.reverse) :=
        ih (k + 1) (r := x :: r) (by simp [hel]) (Or.inr ⟨by simp, rfl⟩)
      rw [List.length_append, List.length_singleton, forEachSafe,
        iterSafe_eq hc hs hlen hrounds hel hnext]
      simp only [Eval.ok_bind, List.getLast?_concat, List.dropLast_concat, keeping,
        Eval.pure_eq_ok, hrest, List.reverse_append, List.reverse_singleton,
        List.singleton_append]

end Small

/-! ## More elements -/

section Astray

variable {cmp} {os os' : OrdSet α} {l visited : List α} {x : α} {tmp : Option α} {rounds : ℕ}

/-- A loop from a variable that is NULL visits the last element first, and goes on from what the
body has made of the set and the variable. -/
lemma forEachSafe_visits_last {body : Body α} (hel : os.elements = l ++ [x]) {fuel k : ℕ}
    (h : os.forEachSafe cmp rounds body fuel k none tmp = .ok (os', visited)) :
    ∃ fuel' os₁ iter₁ tmp₁ visited', body k os x = .ok (os₁, iter₁)
      ∧ os₁.forEachSafe cmp rounds body fuel' (k + 1) iter₁ tmp₁ = .ok (os', visited')
      ∧ visited = x :: visited' := by
  cases fuel with
  | zero => cases h
  | succ fuel =>
      rw [forEachSafe, iterSafe_null, hel, List.getLast?_concat, List.dropLast_concat] at h
      simp only [Eval.ok_bind] at h
      obtain ⟨⟨os₁, iter₁⟩, hbody, h⟩ := Eval.bind_eq_ok.mp h
      obtain ⟨⟨os₂, visited'⟩, hrest, h⟩ := Eval.bind_eq_ok.mp h
      cases h
      exact ⟨fuel, os₁, iter₁, l.getLast?, visited', hbody, hrest, rfl⟩

/-- **The last of more than `2 ^ 31` elements** is not removed: if the variable is set to NULL, it
is visited again. -/
lemma not_iteratesSafely_of_large (hc : LawfulCmp cmp) (hs : os.Sorted cmp)
    (hel : os.elements = l ++ [x]) (hlen : 2 ^ 31 ≤ l.length) : ¬os.IteratesSafely cmp := by
  intro hsafe
  obtain ⟨rounds, fuel, h⟩ := hsafe.1 fun _ => true
  obtain ⟨fuel₁, os₁, iter₁, tmp₁, visited₁, hbody, h₁, hvisited⟩ := forEachSafe_visits_last hel h
  obtain ⟨rfl, rfl⟩ : os₁ = os ∧ iter₁ = none := by
    obtain ⟨removed, hremove, hbody⟩ := Eval.bind_eq_ok.mp hbody
    obtain rfl := remove_last_astray hc hs hel hlen hremove
    cases hbody
    exact ⟨rfl, rfl⟩
  obtain ⟨-, -, -, -, visited₂, -, -, hvisited₁⟩ := forEachSafe_visits_last hel h₁
  have hnodup : os₁.elements.reverse.Nodup := List.nodup_reverse.mpr (SortedBy.nodup hc hs)
  rw [hvisited, hvisited₁] at hnodup
  exact (List.nodup_cons.mp hnodup).1 List.mem_cons_self

end Astray

/-! ## The loop over a set -/

section Sets

variable {cmp} {os : OrdSet α}

/-- **Sorted sets** are iterated safely exactly up to `2 ^ 31` elements. -/
lemma iteratesSafely_iff_of_sorted (hc : LawfulCmp cmp) (hs : os.Sorted cmp) :
    os.IteratesSafely cmp ↔ os.elements.length ≤ 2 ^ 31 := by
  constructor
  · intro hsafe
    by_contra hlen
    obtain ⟨l, x, hel⟩ : ∃ l x, os.elements = l ++ [x] := by
      refine (List.eq_nil_or_concat' os.elements).resolve_left fun hnil => hlen ?_
      rw [hnil]
      exact Nat.zero_le _
    have hlength : os.elements.length = l.length + 1 := by
      rw [hel, List.length_append, List.length_singleton]
    exact not_iteratesSafely_of_large hc hs hel (by omega) hsafe
  · intro hlen
    refine ⟨fun forget => ?_, ?_⟩
    · exact ⟨_, _, forEachSafe_removing hc os.size hs hlen le_rfl forget 0 (Or.inl rfl)⟩
    · exact ⟨_, _, forEachSafe_keeping hc hs hlen le_rfl 0 (List.append_nil os.elements).symm
        (Or.inl ⟨rfl, rfl⟩)⟩

/-- **Safe iteration.**  A sorted set is iterated safely if and only if it has at most `2 ^ 31`
elements; and sorted are all sets made from `ord_set_new` on by operations on such sets. -/
theorem iteratesSafely_iff (hc : LawfulCmp cmp) :
    (∀ os : OrdSet α, os.Sorted cmp → (os.IteratesSafely cmp ↔ os.elements.length ≤ 2 ^ 31))
      ∧ ∀ (rounds size : ℕ) (ops : List (Op α)) (os : OrdSet α) (answers : List (Answer α)),
        2 ^ 31 ≤ rounds →
        Along (step cmp rounds) (fun os _ => os.elements.length ≤ 2 ^ 31) (ordSetNew size) ops →
        exec (step cmp rounds) (ordSetNew size) ops = .ok (os, answers) → os.Sorted cmp :=
  ⟨fun _ hs => iteratesSafely_iff_of_sorted hc hs,
    fun _ _ _ _ _ hrounds hsmall hexec => sorted_of_exec hc hrounds hsmall hexec⟩

end Sets

/-- Two packets, as `packet_bucket_destroy` visits them. -/
theorem iteratesSafely_packets :
    IteratesSafely packetCmp ⟨10, [packetKey 3, packetKey 7]⟩ :=
  ((iteratesSafely_iff packetCmp_lawful).1 _ (by
    rw [Sorted, SortedBy]
    decide)).mpr (by decide)

/-! ## One element too many -/

/-- Up to `2 ^ 31 + 1` numbers go in in order. -/
lemma exec_ascending {rounds m j : ℕ} {os : OrdSet ℕ} (hrounds : 2 ^ 31 ≤ rounds)
    (hs : os.Sorted natCmp) (hfits : os.elements.length ≤ os.size)
    (hmem : ∀ y, y ∈ os.elements ↔ y < j) (hj : j + m ≤ 2 ^ 31 + 1) :
    ∃ os' answers, exec (step natCmp rounds) os ((List.range' j m).map (Op.insert · false))
        = .ok (os', answers)
      ∧ os'.Sorted natCmp ∧ ∀ y, y ∈ os'.elements ↔ y < j + m := by
  induction m generalizing os j with
  | zero => exact ⟨os, [], rfl, hs, hmem⟩
  | succ m ih =>
      have hlen : os.elements.length ≤ 2 ^ 31 := by
        rw [elements_eq_range hs hmem, List.length_range]
        omega
      obtain ⟨os₁, answer, hstep, hs₁, hfits₁, hpromised⟩ :=
        served_of_small natCmp_lawful hs hfits hlen hrounds (.insert j false)
      obtain ⟨os', answers, hexec, hs', hmem'⟩ :=
        ih hs₁ hfits₁ (mem_of_insert_next hmem hpromised) (by omega)
      refine ⟨os', answer :: answers, ?_, hs', fun y => by rw [hmem']; omega⟩
      exact (exec_cons_of_ok hstep).mpr ⟨answers, hexec, rfl⟩

/-- The set of the numbers from 0 to `2 ^ 31`, made by inserting them. -/
theorem not_iteratesSafely :
    ¬∀ (rounds : ℕ) (ops : List (Op ℕ)) (os : OrdSet ℕ) (answers : List (Answer ℕ)),
      exec (step natCmp rounds) (ordSetNew 10) ops = .ok (os, answers)
        → os.IteratesSafely natCmp := by
  intro hall
  obtain ⟨n, hn⟩ : ∃ n, n = 2 ^ 31 := ⟨_, rfl⟩
  obtain ⟨os, answers, hexec, hs, hmem⟩ := exec_ascending (m := n + 1) (j := 0) hn.ge
    (ordSetNew_sorted natCmp 10) (Nat.zero_le _) (fun y => by simp [ordSetNew]) (by omega)
  have hel : os.elements = List.range n ++ [n] := by
    rw [← List.range_succ]
    exact elements_eq_range hs fun y => by rw [hmem, Nat.zero_add]
  exact not_iteratesSafely_of_large natCmp_lawful hs hel (by rw [List.length_range, hn])
    (hall n _ os answers hexec)

end OrdSet

end PeerStreamer
