import Mathlib.Data.List.Basic
import Mathlib.Logic.Function.Basic
import Mathlib.Tactic

/-!
# Doubly linked lists in memory

Memory is a partial function from addresses to cells, and a cell holds a value and two links.
`Linked c prev l next` says that the cells of `l` are linked in its order, after `prev` and before
`next`; it splits along `++` (`linked_append`), depends on its own cells only (`Linked.congr`), and
each end can be linked anew by one store (`Linked.linkForward`, `Linked.linkBackward`).

`DoublyLinked c head l` is a whole list with nothing else in memory.  That it has no cycle follows
from the links (`Linked.nodup`), and so does what one usually asks of them (`DoublyLinked.links`).
A cell is put in front by `DoublyLinked.push` and taken out of any place by `DoublyLinked.unlink`.
-/

namespace PeerStreamer

/-- A cell of a doubly linked list. -/
structure Cell (α : Type) where
  val : α
  backward : Option ℕ
  forward : Option ℕ
  deriving DecidableEq, Repr

/-- The cells that are allocated. -/
abbrev Cells (α : Type) := ℕ → Option (Cell α)

variable {α : Type}

/-- The address of the first cell of a list that `next` follows. -/
def firstOf : List (ℕ × α) → Option ℕ → Option ℕ
  | [], next => next
  | (p, _) :: _, _ => some p

/-- The address of the last cell of a list that follows `prev`. -/
def lastOf : Option ℕ → List (ℕ × α) → Option ℕ
  | prev, [] => prev
  | _, (p, _) :: l => lastOf (some p) l

/-- The cells of a list are linked in its order. -/
def Linked (c : Cells α) : (prev : Option ℕ) → List (ℕ × α) → (next : Option ℕ) → Prop
  | _, [], _ => True
  | prev, (p, v) :: l, next => c p = some ⟨v, prev, firstOf l next⟩ ∧ Linked c (some p) l next

/-- A store to a link of an allocated cell. -/
def Cells.setForward (c : Cells α) (p : ℕ) (next : Option ℕ) : Cells α :=
  Function.update c p ((c p).map fun e => { e with forward := next })

def Cells.setBackward (c : Cells α) (p : ℕ) (prev : Option ℕ) : Cells α :=
  Function.update c p ((c p).map fun e => { e with backward := prev })

/-- The cell at `prev`, if there is one, is linked to `next`. -/
def Cells.linkForward (c : Cells α) : (prev next : Option ℕ) → Cells α
  | none, _ => c
  | some p, next => c.setForward p next

/-- The cell at `next`, if there is one, is linked back to `prev`. -/
def Cells.linkBackward (c : Cells α) : (next prev : Option ℕ) → Cells α
  | none, _ => c
  | some p, prev => c.setBackward p prev

section Linked

variable {c c' : Cells α} {prev next : Option ℕ} {l l₁ l₂ : List (ℕ × α)} {p q : ℕ} {v w : α}

@[simp] lemma firstOf_nil : firstOf ([] : List (ℕ × α)) next = next := rfl

@[simp] lemma firstOf_cons : firstOf ((p, v) :: l) next = some p := rfl

@[simp] lemma lastOf_nil : lastOf prev ([] : List (ℕ × α)) = prev := rfl

@[simp] lemma lastOf_cons : lastOf prev ((p, v) :: l) = lastOf (some p) l := rfl

@[simp] lemma linked_nil : Linked c prev [] next := trivial

@[simp] lemma linked_cons :
    Linked c prev ((p, v) :: l) next
      ↔ c p = some ⟨v, prev, firstOf l next⟩ ∧ Linked c (some p) l next := Iff.rfl

lemma firstOf_append : firstOf (l₁ ++ l₂) next = firstOf l₁ (firstOf l₂ next) := by
  cases l₁ <;> rfl

@[simp] lemma lastOf_concat : lastOf prev (l ++ [(p, v)]) = some p := by
  induction l generalizing prev with
  | nil => rfl
  | cons e l ih => exact ih

lemma lastOf_eq_none : lastOf none l = none ↔ l = [] := by
  rcases List.eq_nil_or_concat l with rfl | ⟨l, ⟨q, w⟩, rfl⟩
  · simp
  · simp

/-- Two lists linked one after the other. -/
lemma linked_append :
    Linked c prev (l₁ ++ l₂) next
      ↔ Linked c prev l₁ (firstOf l₂ next) ∧ Linked c (lastOf prev l₁) l₂ next := by
  induction l₁ generalizing prev with
  | nil => simp
  | cons e l₁ ih =>
      obtain ⟨p, v⟩ := e
      rw [List.cons_append, linked_cons, linked_cons, ih, lastOf_cons, firstOf_append, and_assoc]

/-- Only its own cells matter to a list. -/
lemma Linked.congr (h : Linked c prev l next) (hsame : ∀ p ∈ l.map Prod.fst, c' p = c p) :
    Linked c' prev l next := by
  induction l generalizing prev with
  | nil => trivial
  | cons e l ih =>
      obtain ⟨p, v⟩ := e
      refine ⟨(hsame p (by simp)).trans h.1, ih h.2 fun q hq => hsame q (by simp [hq])⟩

lemma Linked.cell (h : Linked c prev (l₁ ++ (p, v) :: l₂) next) :
    c p = some ⟨v, lastOf prev l₁, firstOf l₂ next⟩ :=
  (linked_append.mp h).2.1

lemma Linked.lastOf_live (h : Linked c none l next) (hp : lastOf none l = some p) : c p ≠ none := by
  rcases List.eq_nil_or_concat l with rfl | ⟨l, ⟨q, w⟩, rfl⟩
  · cases hp
  · rw [List.concat_eq_append] at h hp
    rw [lastOf_concat, Option.some.injEq] at hp
    rw [← hp, h.cell]
    exact Option.some_ne_none _

lemma Linked.firstOf_live (h : Linked c prev l next) (hp : firstOf l none = some p) :
    c p ≠ none := by
  cases l with
  | nil => cases hp
  | cons e l =>
      obtain rfl : e.1 = p := Option.some.inj hp
      rw [h.1]
      exact Option.some_ne_none _

/-- Lists that start at the same cell and end the same way are the same list. -/
lemma Linked.determined {prev' : Option ℕ} (h₁ : Linked c prev l₁ none)
    (h₂ : Linked c prev' l₂ none) (hfirst : firstOf l₁ none = firstOf l₂ none) : l₁ = l₂ := by
  induction l₁ generalizing l₂ prev prev' with
  | nil =>
      cases l₂ with
      | nil => rfl
      | cons e l₂ => cases hfirst
  | cons e l₁ ih =>
      obtain ⟨p, v⟩ := e
      cases l₂ with
      | nil => cases hfirst
      | cons e' l₂ =>
          obtain ⟨q, w⟩ := e'
          obtain rfl : p = q := Option.some.inj hfirst
          have hcell := h₁.1.symm.trans h₂.1
          simp only [Option.some.injEq, Cell.mk.injEq] at hcell
          obtain ⟨rfl, -, hnext⟩ := hcell
          rw [ih h₁.2 h₂.2 hnext]

/-- **There is no cycle.** -/
lemma Linked.nodup (h : Linked c prev l none) : (l.map Prod.fst).Nodup := by
  induction l generalizing prev with
  | nil => exact List.nodup_nil
  | cons e l ih =>
      obtain ⟨p, v⟩ := e
      refine List.nodup_cons.mpr ⟨fun hmem => ?_, ih h.2⟩
      obtain ⟨⟨q, w⟩, hq, rfl⟩ := List.mem_map.mp hmem
      obtain ⟨l₁, l₂, rfl⟩ := List.append_of_mem hq
      -- a list that came back to its first cell would be a part of itself
      have hback := (linked_append.mp h.2).2
      have hsame := Linked.determined h hback rfl
      have hlen := congrArg List.length hsame
      simp only [List.length_cons, List.length_append] at hlen
      omega

/-- A store to a link allocates nothing and frees nothing. -/
@[simp] lemma setForward_eq_none : c.setForward p next q = none ↔ c q = none := by
  rw [Cells.setForward]
  by_cases hq : q = p
  · simp [hq]
  · rw [Function.update_of_ne hq]

@[simp] lemma setBackward_eq_none : c.setBackward p prev q = none ↔ c q = none := by
  rw [Cells.setBackward]
  by_cases hq : q = p
  · simp [hq]
  · rw [Function.update_of_ne hq]

lemma linkForward_of_notMem (hp : p ∉ l.map Prod.fst) :
    (c.linkForward (lastOf none l) next) p = c p := by
  rcases List.eq_nil_or_concat l with rfl | ⟨l, ⟨q, w⟩, rfl⟩
  · rfl
  · rw [List.concat_eq_append] at hp ⊢
    rw [lastOf_concat]
    refine Function.update_of_ne ?_ _ _
    rintro rfl
    simp at hp

lemma linkBackward_of_notMem (hp : p ∉ l.map Prod.fst) :
    (c.linkBackward (firstOf l none) prev) p = c p := by
  cases l with
  | nil => rfl
  | cons e l =>
      refine Function.update_of_ne ?_ _ _
      rintro rfl
      simp at hp

/-- The last cell is linked to another successor. -/
lemma Linked.linkForward (h : Linked c none l next) (hl : (l.map Prod.fst).Nodup)
    (next' : Option ℕ) : Linked (c.linkForward (lastOf none l) next') none l next' := by
  rcases List.eq_nil_or_concat l with rfl | ⟨l, ⟨p, v⟩, rfl⟩
  · trivial
  · rw [List.concat_eq_append] at h hl ⊢
    rw [lastOf_concat]
    obtain ⟨hinit, hlast, -⟩ := linked_append.mp h
    refine linked_append.mpr ⟨hinit.congr fun q hq => ?_, ?_, trivial⟩
    · refine Function.update_of_ne ?_ _ _
      rintro rfl
      rw [List.map_append, List.nodup_append] at hl
      exact hl.2.2 q hq q (by simp) rfl
    · rw [Cells.linkForward, Cells.setForward, Function.update_self, hlast]
      rfl

/-- The first cell is linked to another predecessor. -/
lemma Linked.linkBackward (h : Linked c prev l none) (hl : (l.map Prod.fst).Nodup)
    (prev' : Option ℕ) : Linked (c.linkBackward (firstOf l none) prev') prev' l none := by
  cases l with
  | nil => trivial
  | cons e l =>
      obtain ⟨p, v⟩ := e
      refine ⟨?_, h.2.congr fun q hq => ?_⟩
      · rw [firstOf_cons, Cells.linkBackward, Cells.setBackward, Function.update_self, h.1]
        rfl
      · refine Function.update_of_ne ?_ _ _
        rintro rfl
        exact (List.nodup_cons.mp hl).1 hq

end Linked

/-! ## A whole list -/

/-- A doubly linked list with the elements `l`, and nothing else in memory. -/
structure DoublyLinked (c : Cells α) (head : Option ℕ) (l : List (ℕ × α)) : Prop where
  head : head = firstOf l none
  linked : Linked c none l none
  allocated : ∀ p, c p ≠ none → p ∈ l.map Prod.fst

/-- What is usually asked of the links: they are mutually inverse and lead to allocated cells only,
and there is none from the head backwards. -/
structure WellLinked (c : Cells α) (head : Option ℕ) : Prop where
  head : ∀ p, head = some p → ∃ e, c p = some e ∧ e.backward = none
  forward : ∀ p q e, c p = some e → e.forward = some q → ∃ e', c q = some e' ∧ e'.backward = some p
  backward : ∀ p q e, c p = some e → e.backward = some q → ∃ e', c q = some e' ∧ e'.forward = some p

section DoublyLinked

variable {c : Cells α} {head : Option ℕ} {l l₁ l₂ : List (ℕ × α)} {p : ℕ} {v : α}

lemma DoublyLinked.nodup (h : DoublyLinked c head l) : (l.map Prod.fst).Nodup := h.linked.nodup

/-- The cells in memory are those of the list. -/
lemma DoublyLinked.split (h : DoublyLinked c head l) {e : Cell α} (he : c p = some e) :
    ∃ l₁ l₂, l = l₁ ++ (p, e.val) :: l₂ ∧ e = ⟨e.val, lastOf none l₁, firstOf l₂ none⟩ := by
  obtain ⟨⟨q, w⟩, hq, rfl⟩ := List.mem_map.mp (h.allocated p (by simp [he]))
  obtain ⟨l₁, l₂, rfl⟩ := List.append_of_mem hq
  have hcell := h.linked.cell.symm.trans he
  obtain rfl := Option.some.inj hcell
  exact ⟨l₁, l₂, rfl, rfl⟩

/-- **The links of a list** are as they should be. -/
theorem DoublyLinked.links (h : DoublyLinked c head l) : WellLinked c head := by
  refine ⟨fun p hp => ?_, fun p q e he hq => ?_, fun p q e he hq => ?_⟩
  · cases l with
    | nil =>
        rw [h.head] at hp
        cases hp
    | cons e l =>
        rw [h.head] at hp
        obtain rfl := Option.some.inj hp
        exact ⟨_, h.linked.1, rfl⟩
  · obtain ⟨l₁, l₂, rfl, heq⟩ := h.split he
    rw [heq] at hq
    cases l₂ with
    | nil => cases hq
    | cons e' l₂ =>
        obtain ⟨q', w⟩ := e'
        obtain rfl : q' = q := Option.some.inj hq
        exact ⟨_, (linked_append.mp h.linked).2.2.1, rfl⟩
  · obtain ⟨l₁, l₂, rfl, heq⟩ := h.split he
    rw [heq] at hq
    rcases List.eq_nil_or_concat l₁ with rfl | ⟨l₁, ⟨q', w⟩, rfl⟩
    · cases hq
    · rw [List.concat_eq_append] at hq h
      simp only [lastOf_concat, Option.some.injEq] at hq
      obtain rfl := hq
      have hlinked := h.linked
      rw [List.append_assoc] at hlinked
      exact ⟨_, hlinked.cell, rfl⟩

/-- **A cell is put in front** of the list. -/
theorem DoublyLinked.push (h : DoublyLinked c head l) (hp : c p = none) :
    DoublyLinked (Function.update (c.linkBackward head (some p)) p (some ⟨v, none, head⟩)) (some p)
      ((p, v) :: l) := by
  have hnew : p ∉ l.map Prod.fst := by
    intro hmem
    obtain ⟨⟨q, w⟩, hq, rfl⟩ := List.mem_map.mp hmem
    obtain ⟨l₁, l₂, rfl⟩ := List.append_of_mem hq
    rw [h.linked.cell] at hp
    cases hp
  refine ⟨rfl, ⟨by rw [Function.update_self, h.head], ?_⟩, fun q hq => ?_⟩
  · rw [h.head]
    refine (h.linked.linkBackward h.nodup (some p)).congr fun q hq => Function.update_of_ne ?_ _ _
    rintro rfl
    exact hnew hq
  · by_cases hqp : q = p
    · simp [hqp]
    · rw [Function.update_of_ne hqp, h.head] at hq
      by_contra hmem
      have hql : q ∉ l.map Prod.fst := fun hm => hmem (List.mem_cons_of_mem _ hm)
      rw [linkBackward_of_notMem hql] at hq
      exact hql (h.allocated q hq)

/-- **A value is changed** where it is. -/
theorem DoublyLinked.setVal (h : DoublyLinked c head (l₁ ++ (p, v) :: l₂)) (w : α) :
    DoublyLinked (Function.update c p (some ⟨w, lastOf none l₁, firstOf l₂ none⟩)) head
      (l₁ ++ (p, w) :: l₂) := by
  have hnodup := h.nodup
  rw [List.map_append, List.map_cons] at hnodup
  obtain ⟨hout, -⟩ := List.nodup_cons.mp (List.nodup_middle.mp hnodup)
  obtain ⟨hout₁, hout₂⟩ := not_or.mp (mt List.mem_append.mpr hout)
  obtain ⟨hlinked₁, -, hlinked₂⟩ := linked_append.mp h.linked
  refine ⟨?_, linked_append.mpr ⟨?_, Function.update_self _ _ _, ?_⟩, fun q hq => ?_⟩
  · rw [h.head, firstOf_append, firstOf_append]
    rfl
  · refine Linked.congr (c := c) hlinked₁ fun q hq => Function.update_of_ne ?_ _ _
    rintro rfl
    exact hout₁ hq
  · refine hlinked₂.congr fun q hq => Function.update_of_ne ?_ _ _
    rintro rfl
    exact hout₂ hq
  · by_cases hqp : q = p
    · simp [hqp]
    · rw [Function.update_of_ne hqp] at hq
      simpa using h.allocated q hq

/-- **A cell is taken out**: its neighbours are linked to each other, and it is freed. -/
theorem DoublyLinked.unlink (h : DoublyLinked c head (l₁ ++ (p, v) :: l₂)) :
    DoublyLinked (Function.update ((c.linkForward (lastOf none l₁) (firstOf l₂ none)).linkBackward
      (firstOf l₂ none) (lastOf none l₁)) p none) (firstOf (l₁ ++ l₂) none) (l₁ ++ l₂) := by
  have hnodup := h.nodup
  rw [List.map_append, List.map_cons] at hnodup
  obtain ⟨hout, hrest⟩ := List.nodup_cons.mp (List.nodup_middle.mp hnodup)
  obtain ⟨hout₁, hout₂⟩ := not_or.mp (mt List.mem_append.mpr hout)
  obtain ⟨hl₁, hl₂, hdisj⟩ := List.nodup_append.mp hrest
  obtain ⟨hlinked₁, -, hlinked₂⟩ := linked_append.mp h.linked
  refine ⟨rfl, linked_append.mpr ⟨?_, ?_⟩, fun q hq => ?_⟩
  · refine (hlinked₁.linkForward hl₁ (firstOf l₂ none)).congr fun q hq => ?_
    rw [Function.update_of_ne (by rintro rfl; exact hout₁ hq)]
    exact linkBackward_of_notMem fun hq' => hdisj q hq q hq' rfl
  · have hsame : Linked (c.linkForward (lastOf none l₁) (firstOf l₂ none)) (some p) l₂ none :=
      hlinked₂.congr fun q hq => linkForward_of_notMem fun hq' => hdisj q hq' q hq rfl
    refine (hsame.linkBackward hl₂ (lastOf none l₁)).congr fun q hq => Function.update_of_ne ?_ _ _
    rintro rfl
    exact hout₂ hq
  · have hqp : q ≠ p := by
      rintro rfl
      rw [Function.update_self] at hq
      exact hq rfl
    rw [Function.update_of_ne hqp] at hq
    by_contra hmem
    rw [List.map_append, List.mem_append, not_or] at hmem
    rw [linkBackward_of_notMem hmem.2, linkForward_of_notMem hmem.1] at hq
    have := h.allocated q hq
    simp only [List.map_append, List.map_cons, List.mem_append, List.mem_cons] at this
    tauto

end DoublyLinked

end PeerStreamer
