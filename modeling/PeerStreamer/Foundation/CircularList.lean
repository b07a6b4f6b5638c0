import Mathlib.Data.List.Basic
import Mathlib.Logic.Function.Basic
import Mathlib.Tactic

/-!
# Circular lists in memory

The nodes of a circular list carry two links and nothing else, and the list is entered at a node of
its own, its head, which is linked to itself when the list is empty.  A node that is on no list may
have both links cleared, so that one can tell.

`Segment m a l b` says that the nodes of `l` are linked in its order after `a` and before `b`; it
splits along `++` (`segment_append`) and its end can be linked to another node
(`Segment.redirect`).

`Laid m S` says that memory looks as the use `S` of every node demands: whatever is allocated, where
each list is and which nodes are cleared.  What changes a few lists only has to be looked at there
(`Laid.replace`).
-/

namespace PeerStreamer

/-- The nodes that are allocated and what their links hold; `none` is NULL. -/
structure LinkMemory (A : Type) where
  live : A → Bool
  next : A → Option A
  prev : A → Option A

/-- What a node is used for: it is not allocated, its links hold anything, they are cleared, it is
the head of a list, or it is on the list with that head. -/
inductive NodeUse (A : Type)
  | absent
  | raw
  | off
  | head (l : List A)
  | on (h : A)
  deriving DecidableEq, Repr

/-- The use of every node. -/
abbrev NodeUses (A : Type) := A → NodeUse A

variable {A : Type}

namespace LinkMemory

/-! ## Segments -/

/-- The nodes of `l` are linked in its order, after `a` and before `b`. -/
def Segment (m : LinkMemory A) : (a : A) → (l : List A) → (b : A) → Prop
  | a, [], b => m.next a = some b ∧ m.prev b = some a
  | a, x :: l, b => (m.next a = some x ∧ m.prev x = some a) ∧ Segment m x l b

/-- The nodes of `l` are linked in its order, from the first one on and before `b`. -/
def Rest (m : LinkMemory A) : (l : List A) → (b : A) → Prop
  | [], _ => True
  | x :: l, b => m.Segment x l b

section Segment

variable {m m' : LinkMemory A} {a b x : A} {l l' : List A}

/-- A segment is a link to its first node, and the rest. -/
lemma segment_iff : m.Segment a l b
    ↔ (m.next a = some (l.headD b) ∧ m.prev (l.headD b) = some a) ∧ m.Rest l b := by
  cases l with
  | nil => exact (and_iff_left trivial).symm
  | cons x l => rfl

lemma segment_append :
    m.Segment a (l ++ x :: l') b ↔ m.Segment a l x ∧ m.Segment x l' b := by
  induction l generalizing a with
  | nil => rfl
  | cons y l ih => rw [List.cons_append, Segment, Segment, ih, and_assoc (a := _ ∧ _)]

/-- A segment ends where the rest of it begins. -/
lemma segment_append_rest :
    m.Segment a (l ++ l') b ↔ m.Segment a l (l'.headD b) ∧ m.Rest l' b := by
  cases l' with
  | nil => rw [List.append_nil]; exact (and_iff_left trivial).symm
  | cons x l' => exact segment_append

/-- A segment depends on the links between its nodes only. -/
lemma Segment.congr (h : m.Segment a l b) (hnext : ∀ y ∈ a :: l, m'.next y = m.next y)
    (hprev : ∀ y ∈ l ++ [b], m'.prev y = m.prev y) : m'.Segment a l b := by
  induction l generalizing a with
  | nil =>
      obtain ⟨hn, hp⟩ := h
      exact ⟨by rw [hnext a (by simp), hn], by rw [hprev b (by simp), hp]⟩
  | cons y l ih =>
      obtain ⟨⟨hn, hp⟩, hrest⟩ := h
      refine ⟨⟨by rw [hnext a (by simp), hn], by rw [hprev y (by simp), hp]⟩, ?_⟩
      exact ih hrest (fun z hz => hnext z (List.mem_cons_of_mem a hz))
        fun z hz => hprev z (by rw [List.cons_append]; exact List.mem_cons_of_mem y hz)

lemma Segment.next_first (h : m.Segment a l b) : m.next a = some (l.headD b) := by
  cases l with
  | nil => exact h.1
  | cons x l => exact h.1.1

lemma Segment.prev_last (h : m.Segment a l b) : m.prev b = some (l.getLastD a) := by
  induction l generalizing a with
  | nil => exact h.2
  | cons x l ih =>
      rw [List.getLastD_cons]
      exact ih h.2

/-- From one node of a segment to the next. -/
lemma Segment.next_of_split (h : m.Segment a (l ++ x :: l') b) : m.next x = some (l'.headD b) :=
  (segment_append.mp h).2.next_first

lemma Segment.prev_of_split (h : m.Segment a (l ++ x :: l') b) : m.prev x = some (l.getLastD a) :=
  (segment_append.mp h).1.prev_last

end Segment

lemma getLastD_mem (l : List A) (a : A) : l.getLastD a ∈ a :: l := by
  induction l generalizing a with
  | nil => simp
  | cons x l ih =>
      rw [List.getLastD_cons]
      exact List.mem_cons_of_mem a (ih x)

lemma headD_mem (l : List A) (b : A) : l.headD b ∈ l ++ [b] := by
  cases l <;> simp

variable [DecidableEq A]

/-- The node `a` is linked to `b`, and `b` back to `a`. -/
def link (m : LinkMemory A) (a b : A) : LinkMemory A :=
  { m with next := Function.update m.next a (some b), prev := Function.update m.prev b (some a) }

/-- Both links of a node are cleared. -/
def clear (m : LinkMemory A) (a : A) : LinkMemory A :=
  { m with next := Function.update m.next a none, prev := Function.update m.prev a none }

section Link

variable {m : LinkMemory A} {a b c d : A} {l : List A}

@[simp] lemma link_live : (m.link a b).live = m.live := rfl

@[simp] lemma clear_live : (m.clear a).live = m.live := rfl

lemma link_next_of_ne (h : c ≠ a) : (m.link a b).next c = m.next c := Function.update_of_ne h _ _

lemma link_prev_of_ne (h : c ≠ b) : (m.link a b).prev c = m.prev c := Function.update_of_ne h _ _

@[simp] lemma link_next_self : (m.link a b).next a = some b := Function.update_self ..

@[simp] lemma link_prev_self : (m.link a b).prev b = some a := Function.update_self ..

lemma clear_next_of_ne (h : c ≠ a) : (m.clear a).next c = m.next c := Function.update_of_ne h _ _

lemma clear_prev_of_ne (h : c ≠ a) : (m.clear a).prev c = m.prev c := Function.update_of_ne h _ _

@[simp] lemma clear_next_self : (m.clear a).next a = none := Function.update_self ..

@[simp] lemma clear_prev_self : (m.clear a).prev a = none := Function.update_self ..

/-- A link elsewhere leaves a segment alone. -/
lemma Segment.link (h : m.Segment a l b) (hc : c ∉ a :: l) (hd : d ∉ l ++ [b]) :
    (m.link c d).Segment a l b :=
  h.congr (fun _ hy => link_next_of_ne fun he => hc (he ▸ hy))
    fun _ hy => link_prev_of_ne fun he => hd (he ▸ hy)

lemma Segment.clear (h : m.Segment a l b) (hc : c ∉ a :: l) (hd : c ∉ l ++ [b]) :
    (m.clear c).Segment a l b :=
  h.congr (fun _ hy => clear_next_of_ne fun he => hc (he ▸ hy))
    fun _ hy => clear_prev_of_ne fun he => hd (he ▸ hy)

lemma Rest.link (h : m.Rest l b) (hc : c ∉ l) (hd : l ≠ [] → d ∉ l.tail ++ [b]) :
    (m.link c d).Rest l b := by
  cases l with
  | nil => trivial
  | cons x l => exact Segment.link h hc (hd (List.cons_ne_nil x l))

lemma Rest.clear (h : m.Rest l b) (hc : c ∉ l ++ [b]) : (m.clear c).Rest l b := by
  cases l with
  | nil => trivial
  | cons x l =>
      exact Segment.clear h (fun hm => hc (List.mem_append_left _ hm))
        fun hm => hc (List.mem_cons_of_mem x hm)

/-- **The end of a segment** is linked to another node. -/
lemma Segment.redirect (h : m.Segment a l b) (hnd : (a :: l).Nodup) (hc : c ∉ l) :
    (m.link (l.getLastD a) c).Segment a l c := by
  induction l generalizing a with
  | nil => exact ⟨link_next_self, link_prev_self⟩
  | cons x l ih =>
      obtain ⟨ha, hnd⟩ := List.nodup_cons.mp hnd
      obtain ⟨⟨hn, hp⟩, hrest⟩ := h
      have hlast : a ≠ l.getLastD x := fun he => ha (he ▸ getLastD_mem l x)
      have hx : x ≠ c := fun he => hc (he ▸ List.mem_cons_self)
      rw [List.getLastD_cons]
      refine ⟨⟨?_, ?_⟩, ih hrest hnd fun hm => hc (List.mem_cons_of_mem x hm)⟩
      · rw [link_next_of_ne hlast, hn]
      · rw [link_prev_of_ne hx, hp]

end Link

end LinkMemory

/-! ## The use of memory -/

section Laid

variable {m m' : LinkMemory A} {S S' : NodeUses A}

/-- The nodes of `T` are laid out in memory as their use demands. -/
structure LaidIn (T : A → Prop) (m : LinkMemory A) (S : NodeUses A) : Prop where
  off : ∀ x, T x → S x = .off → m.next x = none ∧ m.prev x = none
  ring : ∀ h l, T h → S h = .head l → m.Segment h l h
  nodup : ∀ h l, T h → S h = .head l → l.Nodup
  mem : ∀ h l, T h → S h = .head l → ∀ x, x ∈ l ↔ T x ∧ S x = .on h
  headed : ∀ x h, T x → S x = .on h → T h ∧ ∃ l, S h = .head l

/-- All of memory is laid out as the use of every node demands. -/
structure Laid (m : LinkMemory A) (S : NodeUses A) : Prop where
  live : ∀ x, m.live x = true ↔ S x ≠ .absent
  off : ∀ x, S x = .off → m.next x = none ∧ m.prev x = none
  ring : ∀ h l, S h = .head l → m.Segment h l h
  nodup : ∀ h l, S h = .head l → l.Nodup
  mem : ∀ h l, S h = .head l → ∀ x, x ∈ l ↔ S x = .on h
  headed : ∀ x h, S x = .on h → ∃ l, S h = .head l

/-- Whole lists only. -/
def ClosedUnder (S : NodeUses A) (T : A → Prop) : Prop :=
  ∀ x h, S x = .on h → (T x ↔ T h)

/-- Loose nodes and whole lists. -/
lemma Laid.closedUnder {T : A → Prop} (h : Laid m S)
    (hT : ∀ x, T x → (∃ l, S x = .head l ∧ ∀ y ∈ l, T y) ∨ (∃ a, S x = .on a ∧ T a)
      ∨ (∀ a, S x ≠ .on a) ∧ ∀ l, S x = .head l → l = []) : ClosedUnder S T := by
  intro x a hx
  obtain ⟨l, hl⟩ := h.headed x a hx
  have hm := (h.mem a l hl x).mpr hx
  constructor
  · intro hTx
    rcases hT x hTx with ⟨l', hl', -⟩ | ⟨b, hb, hTb⟩ | ⟨hne, -⟩
    · rw [hx] at hl'
      cases hl'
    · rw [hx] at hb
      cases hb
      exact hTb
    · exact absurd hx (hne a)
  · intro hTa
    rcases hT a hTa with ⟨l', hl', hTl⟩ | ⟨b, hb, -⟩ | ⟨-, hnil⟩
    · rw [hl] at hl'
      cases hl'
      exact hTl x hm
    · rw [hl] at hb
      cases hb
    · rw [hnil l hl] at hm
      exact absurd hm List.not_mem_nil

lemma Laid.head_notMem (h : Laid m S) {a : A} {l : List A} (ha : S a = .head l) : a ∉ l := by
  intro hm
  rw [h.mem a l ha, ha] at hm
  cases hm

/-- The head and the nodes of a list are all different. -/
lemma Laid.nodup_cons (h : Laid m S) {a : A} {l : List A} (ha : S a = .head l) : (a :: l).Nodup :=
  List.nodup_cons.mpr ⟨h.head_notMem ha, h.nodup a l ha⟩

/-- **The frame rule.**  What happens within `T`, which takes whole lists only, has to be looked at
only there. -/
theorem Laid.replace {T : A → Prop} (h : Laid m S) (hclosed : ClosedUnder S T)
    (hlive : ∀ x, m'.live x = true ↔ S' x ≠ .absent) (hsame : ∀ x, ¬T x → S' x = S x)
    (hnext : ∀ x, ¬T x → m'.next x = m.next x) (hprev : ∀ x, ¬T x → m'.prev x = m.prev x)
    (hin : LaidIn T m' S') : Laid m' S' := by
  -- the nodes of a list whose head is outside are outside
  have hout : ∀ a l, ¬T a → S a = .head l → ∀ x ∈ l, ¬T x := fun a l ha hl x hx => by
    rwa [hclosed x a ((h.mem a l hl x).mp hx)]
  refine ⟨hlive, fun x hx => ?_, fun a l hl => ?_, fun a l hl => ?_, fun a l hl x => ?_,
    fun x a hx => ?_⟩
  · by_cases hT : T x
    · exact hin.off x hT hx
    · rw [hnext x hT, hprev x hT]
      exact h.off x (hsame x hT ▸ hx)
  · by_cases hT : T a
    · exact hin.ring a l hT hl
    · rw [hsame a hT] at hl
      refine (h.ring a l hl).congr (fun y hy => hnext y ?_) fun y hy => hprev y ?_
      · rcases List.mem_cons.mp hy with rfl | hy
        · exact hT
        · exact hout a l hT hl y hy
      · rcases List.mem_append.mp hy with hy | hy
        · exact hout a l hT hl y hy
        · rwa [List.mem_singleton.mp hy]
  · by_cases hT : T a
    · exact hin.nodup a l hT hl
    · exact h.nodup a l (hsame a hT ▸ hl)
  · by_cases hT : T a
    · rw [hin.mem a l hT hl]
      refine and_iff_right_of_imp fun hx => ?_
      by_contra hxT
      rw [hsame x hxT] at hx
      exact hxT ((hclosed x a hx).mpr hT)
    · rw [hsame a hT] at hl
      by_cases hxT : T x
      · refine iff_of_false (fun hx => hout a l hT hl x hx hxT) fun hx => ?_
        exact hT (hin.headed x a hxT hx).1
      · rw [hsame x hxT]
        exact h.mem a l hl x
  · by_cases hT : T x
    · exact (hin.headed x a hT hx).2
    · rw [hsame x hT] at hx
      obtain ⟨l, hl⟩ := h.headed x a hx
      exact ⟨l, by rwa [hsame a (by rwa [← hclosed x a hx])]⟩

/-- A node that is linked to no other one. -/
def NodeUse.Loose (u : NodeUse A) : Prop := u = .absent ∨ u = .raw ∨ u = .off ∨ u = .head []

lemma NodeUse.Loose.ne_on {u : NodeUse A} (h : u.Loose) (a : A) : u ≠ .on a := by
  rintro rfl
  rcases h with h | h | h | h <;> cases h

lemma NodeUse.Loose.eq_nil {l : List A} (h : (NodeUse.head l).Loose) : l = [] := by
  rcases h with h | h | h | h <;> cases h
  rfl

/-- A node on no list is on none of those there are. -/
lemma Laid.notMem_of_loose (h : Laid m S) {a x : A} {l : List A} (ha : S a = .head l)
    (hx : (S x).Loose) : x ∉ l := fun hm => hx.ne_on a ((h.mem a l ha x).mp hm)

/-- **One list is made** of the nodes in `T`, and what is left of them is no longer used or
cleared. -/
lemma Laid.relist {T : A → Prop} {a : A} {l : List A} (h : Laid m S) (hclosed : ClosedUnder S T)
    (hlive : ∀ x, m'.live x = true ↔ S' x ≠ .absent) (hsame : ∀ x, ¬T x → S' x = S x)
    (hnext : ∀ x, ¬T x → m'.next x = m.next x) (hprev : ∀ x, ¬T x → m'.prev x = m.prev x)
    (ha : T a) (hhead : S' a = .head l) (hring : m'.Segment a l a) (hnodup : l.Nodup)
    (hon : ∀ x ∈ l, T x ∧ S' x = .on a)
    (hleft : ∀ x, T x → x = a ∨ x ∈ l ∨ S' x = .raw
      ∨ S' x = .off ∧ m'.next x = none ∧ m'.prev x = none) : Laid m' S' := by
  have honly : ∀ b l', T b → S' b = .head l' → b = a ∧ l' = l := fun b l' hT hb => by
    rcases hleft b hT with rfl | hm | hraw | ⟨hoff, -⟩
    · rw [hhead] at hb
      cases hb
      exact ⟨rfl, rfl⟩
    · rw [(hon b hm).2] at hb
      cases hb
    · rw [hraw] at hb
      cases hb
    · rw [hoff] at hb
      cases hb
  have hmem : ∀ x b, T x → S' x = .on b → x ∈ l ∧ b = a := fun x b hT hx => by
    rcases hleft x hT with rfl | hm | hraw | ⟨hoff, -⟩
    · rw [hhead] at hx
      cases hx
    · rw [(hon x hm).2] at hx
      cases hx
      exact ⟨hm, rfl⟩
    · rw [hraw] at hx
      cases hx
    · rw [hoff] at hx
      cases hx
  refine h.replace hclosed hlive hsame hnext hprev ⟨?_, ?_, ?_, ?_, ?_⟩
  · intro x hT hx
    rcases hleft x hT with rfl | hm | hraw | ⟨-, hclear⟩
    · rw [hhead] at hx
      cases hx
    · rw [(hon x hm).2] at hx
      cases hx
    · rw [hraw] at hx
      cases hx
    · exact hclear
  · intro b l' hT hb
    obtain ⟨rfl, rfl⟩ := honly b l' hT hb
    exact hring
  · intro b l' hT hb
    obtain ⟨rfl, rfl⟩ := honly b l' hT hb
    exact hnodup
  · intro b l' hT hb x
    obtain ⟨rfl, rfl⟩ := honly b l' hT hb
    exact ⟨hon x, fun hx => (hmem x b hx.1 hx.2).1⟩
  · intro x b hT hx
    obtain ⟨-, rfl⟩ := hmem x b hT hx
    exact ⟨ha, l, hhead⟩

/-- **Loose nodes** can be put to another use by themselves. -/
lemma Laid.loosely {T : A → Prop} (h : Laid m S) (hloose : ∀ x, T x → (S x).Loose)
    (hloose' : ∀ x, T x → (S' x).Loose) (hlive : ∀ x, m'.live x = true ↔ S' x ≠ .absent)
    (hsame : ∀ x, ¬T x → S' x = S x) (hnext : ∀ x, ¬T x → m'.next x = m.next x)
    (hprev : ∀ x, ¬T x → m'.prev x = m.prev x)
    (hoff : ∀ x, T x → S' x = .off → m'.next x = none ∧ m'.prev x = none)
    (hring : ∀ x, T x → S' x = .head [] → m'.next x = some x ∧ m'.prev x = some x) :
    Laid m' S' := by
  have hclosed : ClosedUnder S T := h.closedUnder fun x hT =>
    Or.inr (Or.inr ⟨(hloose x hT).ne_on, fun l hl => (hl ▸ hloose x hT :).eq_nil⟩)
  have hempty : ∀ a l, T a → S' a = .head l → l = [] := fun a l hT hl =>
    (hl ▸ hloose' a hT : (NodeUse.head l).Loose).eq_nil
  refine h.replace hclosed hlive hsame hnext hprev ⟨hoff, ?_, ?_, ?_, ?_⟩
  · intro a l hT hl
    obtain rfl := hempty a l hT hl
    exact hring a hT hl
  · intro a l hT hl
    obtain rfl := hempty a l hT hl
    exact List.nodup_nil
  · intro a l hT hl x
    obtain rfl := hempty a l hT hl
    exact iff_of_false List.not_mem_nil fun hx => (hloose' x hx.1).ne_on a hx.2
  · exact fun x a hT hx => absurd hx ((hloose' x hT).ne_on a)

end Laid

/-! ## Lists that change -/

namespace LinkMemory

variable {m : LinkMemory A} {h t f x : A} {l l₁ l₂ r : List A}

lemma headD_notMem_tail (hnd : (h :: l).Nodup) (hne : l ≠ []) : l.headD h ∉ l.tail ++ [h] := by
  cases l with
  | nil => exact absurd rfl hne
  | cons n r =>
      simp only [List.nodup_cons, List.mem_cons, not_or] at hnd
      simp only [List.headD_cons, List.tail_cons, List.mem_append, List.mem_singleton, not_or]
      exact ⟨hnd.2.1, fun he => hnd.1.1 he.symm⟩

/-- The last node before a place in a list is not behind it, and the first one behind it not
before. -/
lemma ends_notMem (hnd : (h :: (l₁ ++ l₂)).Nodup) : l₁.getLastD h ∉ l₂ ∧ l₂.headD h ∉ l₁ := by
  have hlast := getLastD_mem l₁ h
  have hhead := headD_mem l₂ h
  simp only [List.nodup_cons, List.mem_append, not_or, List.nodup_append] at hnd
  constructor
  · rintro hm
    rcases List.mem_cons.mp hlast with he | hl
    · exact hnd.1.2 (he ▸ hm)
    · exact hnd.2.2.2 _ hl _ hm rfl
  · rintro hm
    rcases List.mem_append.mp hhead with hl | he
    · exact hnd.2.2.2 _ hm _ hl rfl
    · exact hnd.1.1 (List.mem_singleton.mp he ▸ hm)

section Segments

variable [DecidableEq A]

/-- A node is put between two nodes of a list. -/
lemma Segment.insert (hs : m.Segment h (l₁ ++ l₂) h) (hnd : (h :: (l₁ ++ l₂)).Nodup)
    (hx : x ∉ h :: (l₁ ++ l₂)) :
    ((m.link (l₁.getLastD h) x).link x (l₂.headD h)).Segment h (l₁ ++ x :: l₂) h := by
  obtain ⟨hbefore, hafter⟩ := segment_append_rest.mp hs
  obtain ⟨hlast, hhead⟩ := ends_notMem hnd
  have hheadx : l₂.headD h ≠ x := by
    have := headD_mem l₂ h
    grind
  have hnd₁ : (h :: l₁).Nodup := hnd.sublist (by simp)
  have hnd₂ : (h :: l₂).Nodup := hnd.sublist (by simp)
  rw [segment_append, segment_iff (a := x)]
  refine ⟨?_, ⟨link_next_self, link_prev_self⟩, ?_⟩
  · refine Segment.link (hbefore.redirect hnd₁ ?_) ?_ ?_ <;> grind
  · refine Rest.link (Rest.link hafter hlast fun _ => ?_) ?_ ?_
    · grind [List.mem_of_mem_tail]
    · grind
    · exact headD_notMem_tail hnd₂

/-- A node is taken out of a list. -/
lemma Segment.unlink (hs : m.Segment h (l₁ ++ x :: l₂) h) (hnd : (h :: (l₁ ++ x :: l₂)).Nodup) :
    ((m.link (l₁.getLastD h) (l₂.headD h)).clear x).Segment h (l₁ ++ l₂) h := by
  obtain ⟨hbefore, hafter⟩ := segment_append.mp hs
  have hnd' : (h :: (l₁ ++ l₂)).Nodup := hnd.sublist (by simp)
  obtain ⟨hlast, hhead⟩ := ends_notMem hnd'
  have hnd₁ : (h :: l₁).Nodup := hnd.sublist (by simp)
  have hnd₂ : (h :: l₂).Nodup := hnd'.sublist (by simp)
  have hx : x ∉ h :: (l₁ ++ l₂) := by grind
  rw [segment_append_rest]
  refine ⟨?_, ?_⟩
  · refine Segment.clear (hbefore.redirect hnd₁ hhead) ?_ ?_
    · grind
    · have := headD_mem l₂ h
      grind
  · refine Rest.clear (Rest.link (segment_iff.mp hafter).2 hlast (headD_notMem_tail hnd₂)) ?_
    grind

/-- A list is put in front of another one. -/
lemma Segment.splice (ht : m.Segment t (f :: r) t) (hs : m.Segment h l h)
    (hnd : (t :: (f :: r ++ h :: l)).Nodup) :
    ((m.link h f).link (r.getLastD f) (l.headD h)).Segment h (f :: r ++ l) h := by
  have hlast := getLastD_mem r f
  have hhead := headD_mem l h
  have hnd₁ : (f :: r).Nodup := hnd.sublist (by simp)
  have hnd₂ : (h :: l).Nodup := hnd.sublist ((List.sublist_append_right (f :: r) _).cons t)
  rw [segment_append_rest]
  refine ⟨⟨⟨?_, ?_⟩, ?_⟩, ?_⟩
  · rw [link_next_of_ne (by grind), link_next_self]
  · rw [link_prev_of_ne (by grind), link_prev_self]
  · refine Segment.redirect (Segment.link ht.2 ?_ ?_) hnd₁ ?_ <;> grind
  · refine Rest.link (Rest.link (segment_iff.mp hs).2 ?_ ?_) ?_ (headD_notMem_tail hnd₂)
    · grind
    · intro _
      grind [List.mem_of_mem_tail]
    · grind
end Segments

end LinkMemory

section Change

open LinkMemory

variable [DecidableEq A] {m : LinkMemory A} {S : NodeUses A} {h t x y : A} {l l₁ l₂ : List A}

/-- The nodes `xs` are put to the use `u`. -/
def NodeUses.setAll (S : NodeUses A) (xs : List A) (u : NodeUse A) : NodeUses A :=
  fun x => if x ∈ xs then u else S x

/-- The list of `h` is now `l`, and the nodes `xs` are put to the use `u`. -/
def NodeUses.relist (S : NodeUses A) (h : A) (l xs : List A) (u : NodeUse A) : NodeUses A :=
  fun x => if x = h then .head l else if x ∈ xs then u else S x

/-- The nodes of `t` are on the list of `h`, which is now `l`. -/
def NodeUses.splice (S : NodeUses A) (t h : A) (l : List A) : NodeUses A := fun x =>
  if x = t then .raw else if x = h then .head l else if S x = .on t then .on h else S x

section Relist

variable {xs : List A} {u : NodeUse A}

@[simp] lemma NodeUses.relist_head : S.relist h l xs u h = .head l := if_pos rfl

lemma NodeUses.relist_of_mem (hy : y ∈ xs) (hh : y ≠ h) : S.relist h l xs u y = u := by
  rw [NodeUses.relist, if_neg hh, if_pos hy]

lemma NodeUses.relist_of_notMem (hy : y ∉ xs) (hh : y ≠ h) : S.relist h l xs u y = S y := by
  rw [NodeUses.relist, if_neg hh, if_neg hy]

end Relist

/-! ### Loose nodes -/

/-- The nodes `xs` are allocated; their links hold what memory held there before. -/
def LinkMemory.allocate (m : LinkMemory A) (xs : List A) : LinkMemory A :=
  { m with live := fun x => m.live x || decide (x ∈ xs) }

/-- The nodes `xs` are given back. -/
def LinkMemory.release (m : LinkMemory A) (xs : List A) : LinkMemory A :=
  { m with live := fun x => m.live x && decide (x ∉ xs) }

lemma Laid.allocate {xs : List A} (hS : Laid m S) (hxs : ∀ x ∈ xs, S x = .absent) :
    Laid (m.allocate xs) (S.setAll xs .raw) := by
  refine hS.loosely (T := (· ∈ xs)) (fun x hx => Or.inl (hxs x hx)) (fun x hx => ?_) (fun x => ?_)
    (fun x hx => if_neg hx) (fun _ _ => rfl) (fun _ _ => rfl) (fun x hx he => ?_) fun x hx he => ?_
  · exact Or.inr (Or.inl (if_pos hx))
  · have hlive := hS.live x
    simp only [LinkMemory.allocate, NodeUses.setAll]
    split_ifs with hx <;> simp [hx, hlive]
  all_goals
    rw [NodeUses.setAll, if_pos hx] at he
    cases he

lemma Laid.release {xs : List A} (hS : Laid m S) (hxs : ∀ x ∈ xs, (S x).Loose) :
    Laid (m.release xs) (S.setAll xs .absent) := by
  refine hS.loosely (T := (· ∈ xs)) hxs (fun x hx => ?_) (fun x => ?_)
    (fun x hx => if_neg hx) (fun _ _ => rfl) (fun _ _ => rfl) (fun x hx he => ?_) fun x hx he => ?_
  · exact Or.inl (if_pos hx)
  · have hlive := hS.live x
    simp only [LinkMemory.release, NodeUses.setAll]
    split_ifs with hx <;> simp [hx, hlive]
  all_goals
    rw [NodeUses.setAll, if_pos hx] at he
    cases he

/-- A loose node is cleared. -/
lemma Laid.clear (hS : Laid m S) (hx : (S x).Loose) (hlive : S x ≠ .absent) :
    Laid (m.clear x) (Function.update S x .off) := by
  refine hS.loosely (T := (· = x)) (fun y hy => hy ▸ hx) (fun y hy => ?_) (fun y => ?_)
    (fun y hy => Function.update_of_ne hy _ _) (fun y hy => clear_next_of_ne hy)
    (fun y hy => clear_prev_of_ne hy) (fun y hy _ => ?_) fun y hy he => ?_
  · rw [hy, Function.update_self]
    exact Or.inr (Or.inr (Or.inl rfl))
  · rw [clear_live, hS.live]
    by_cases hy : y = x
    · subst hy
      simp [hlive]
    · rw [Function.update_of_ne hy]
  · rw [hy]
    exact ⟨clear_next_self, clear_prev_self⟩
  · rw [hy, Function.update_self] at he
    cases he

/-- A loose node is made the head of an empty list. -/
lemma Laid.init (hS : Laid m S) (hx : (S x).Loose) (hlive : S x ≠ .absent) :
    Laid (m.link x x) (Function.update S x (.head [])) := by
  refine hS.loosely (T := (· = x)) (fun y hy => hy ▸ hx) (fun y hy => ?_) (fun y => ?_)
    (fun y hy => Function.update_of_ne hy _ _) (fun y hy => link_next_of_ne hy)
    (fun y hy => link_prev_of_ne hy) (fun y hy he => ?_) fun y hy _ => ?_
  · rw [hy, Function.update_self]
    exact Or.inr (Or.inr (Or.inr rfl))
  · rw [link_live, hS.live]
    by_cases hy : y = x
    · subst hy
      simp [hlive]
    · rw [Function.update_of_ne hy]
  · rw [hy, Function.update_self] at he
    cases he
  · rw [hy]
    exact ⟨link_next_self, link_prev_self⟩

/-- What a list looks like need not be known any more. -/
lemma Laid.forget (hS : Laid m S) (hh : S h = .head l) : Laid m (S.setAll (h :: l) .raw) := by
  have hclosed : ClosedUnder S (· ∈ h :: l) := hS.closedUnder fun y hy => by
    rcases List.mem_cons.mp hy with rfl | hy
    · exact Or.inl ⟨l, hh, fun z hz => List.mem_cons_of_mem y hz⟩
    · exact Or.inr (Or.inl ⟨h, (hS.mem h l hh y).mp hy, List.mem_cons_self⟩)
  have hraw : ∀ y ∈ h :: l, S.setAll (h :: l) .raw y = .raw := fun y hy => if_pos hy
  refine hS.replace hclosed (fun y => ?_) (fun y hy => if_neg hy) (fun _ _ => rfl)
    (fun _ _ => rfl) ⟨fun y hy he => ?_, fun y l' hy he => ?_, fun y l' hy he => ?_,
      fun y l' hy he => ?_, fun y a hy he => ?_⟩
  · rw [hS.live, NodeUses.setAll]
    split_ifs with hy
    · rcases List.mem_cons.mp hy with rfl | hy
      · simp [hh]
      · simp [(hS.mem h l hh y).mp hy]
    · rfl
  all_goals
    rw [hraw y hy] at he
    cases he

/-! ### Nodes on lists -/

/-- **A loose node is put between two nodes of a list.** -/
theorem Laid.insert (hS : Laid m S) (hh : S h = .head (l₁ ++ l₂)) (hx : (S x).Loose)
    (hlive : S x ≠ .absent) (hne : x ≠ h) :
    Laid ((m.link (l₁.getLastD h) x).link x (l₂.headD h))
      (S.relist h (l₁ ++ x :: l₂) [x] (.on h)) := by
  have hnd := hS.nodup_cons hh
  have hxl : x ∉ h :: (l₁ ++ l₂) :=
    List.not_mem_cons_of_ne_of_not_mem hne (hS.notMem_of_loose hh hx)
  have hlast := getLastD_mem l₁ h
  have hhead := headD_mem l₂ h
  have hon : ∀ y ∈ l₁ ++ l₂, S.relist h (l₁ ++ x :: l₂) [x] (.on h) y = .on h := fun y hy => by
    rw [NodeUses.relist_of_notMem (by grind) (by grind)]
    exact (hS.mem h _ hh y).mp hy
  have hclosed : ClosedUnder S (· ∈ x :: h :: (l₁ ++ l₂)) := hS.closedUnder fun y hy => by
    rcases List.mem_cons.mp hy with rfl | hy
    · exact Or.inr (Or.inr ⟨hx.ne_on, fun l hl => (hl ▸ hx :).eq_nil⟩)
    · rcases List.mem_cons.mp hy with rfl | hy
      · exact Or.inl ⟨_, hh, fun z hz => by simp [hz]⟩
      · exact Or.inr (Or.inl ⟨h, (hS.mem h _ hh y).mp hy, by simp⟩)
  refine hS.relist hclosed ?_ ?_ ?_ ?_ (by simp) NodeUses.relist_head
    ((hS.ring h _ hh).insert hnd hxl) ?_ ?_ ?_
  · intro y
    rw [link_live, link_live, hS.live]
    by_cases hy : y = x
    · subst hy
      simp [hlive, NodeUses.relist_of_mem, hne]
    · by_cases hyh : y = h
      · subst hyh
        simp [hh]
      · rw [NodeUses.relist_of_notMem (by simpa using hy) hyh]
  · intro y hy
    exact NodeUses.relist_of_notMem (by grind) (by grind)
  · intro y hy
    rw [link_next_of_ne (by grind), link_next_of_ne (by grind)]
  · intro y hy
    rw [link_prev_of_ne (by grind), link_prev_of_ne (by grind)]
  · grind
  · intro y hy
    rcases List.mem_append.mp hy with hy | hy
    · exact ⟨by simp [hy], hon y (List.mem_append_left _ hy)⟩
    · rcases List.mem_cons.mp hy with rfl | hy
      · exact ⟨List.mem_cons_self, NodeUses.relist_of_mem (by simp) hne⟩
      · exact ⟨by simp [hy], hon y (List.mem_append_right _ hy)⟩
  · intro y hy
    simp only [List.mem_cons, List.mem_append] at hy ⊢
    tauto

/-- **A node is taken out of a list** and cleared. -/
theorem Laid.remove (hS : Laid m S) (hh : S h = .head (l₁ ++ x :: l₂)) :
    Laid ((m.link (l₁.getLastD h) (l₂.headD h)).clear x) (S.relist h (l₁ ++ l₂) [x] .off) := by
  have hnd := hS.nodup_cons hh
  have hlast := getLastD_mem l₁ h
  have hhead := headD_mem l₂ h
  have hx : S x = .on h := (hS.mem h _ hh x).mp (by simp)
  have hne : x ≠ h := by grind
  have hon : ∀ y ∈ l₁ ++ l₂, S.relist h (l₁ ++ l₂) [x] .off y = .on h := fun y hy => by
    rw [NodeUses.relist_of_notMem (by grind) (by grind)]
    exact (hS.mem h _ hh y).mp (by grind)
  have hclosed : ClosedUnder S (· ∈ h :: (l₁ ++ x :: l₂)) := hS.closedUnder fun y hy => by
    rcases List.mem_cons.mp hy with rfl | hy
    · exact Or.inl ⟨_, hh, fun z hz => List.mem_cons_of_mem y hz⟩
    · exact Or.inr (Or.inl ⟨h, (hS.mem h _ hh y).mp hy, List.mem_cons_self⟩)
  refine hS.relist hclosed ?_ ?_ ?_ ?_ List.mem_cons_self NodeUses.relist_head
    ((hS.ring h _ hh).unlink hnd) ?_ ?_ ?_
  · intro y
    rw [clear_live, link_live, hS.live]
    by_cases hy : y = x
    · subst hy
      simp [hx, NodeUses.relist_of_mem, hne]
    · by_cases hyh : y = h
      · subst hyh
        simp [hh]
      · rw [NodeUses.relist_of_notMem (by simpa using hy) hyh]
  · intro y hy
    exact NodeUses.relist_of_notMem (by grind) (by grind)
  · intro y hy
    rw [clear_next_of_ne (by grind), link_next_of_ne (by grind)]
  · intro y hy
    rw [clear_prev_of_ne (by grind), link_prev_of_ne (by grind)]
  · grind
  · intro y hy
    exact ⟨by grind, hon y hy⟩
  · intro y hy
    by_cases hyx : y = x
    · subst hyx
      exact Or.inr (Or.inr (Or.inr
        ⟨NodeUses.relist_of_mem (by simp) hne, clear_next_self, clear_prev_self⟩))
    · simp only [List.mem_cons, List.mem_append] at hy ⊢
      tauto

/-- **A list is put in front of another one.**  Its head is no longer used. -/
theorem Laid.splice {f : A} {r : List A} (hS : Laid m S) (ht : S t = .head (f :: r))
    (hh : S h = .head l) (hne : t ≠ h) :
    Laid ((m.link h f).link (r.getLastD f) (l.headD h)) (S.splice t h (f :: r ++ l)) := by
  have hlast := getLastD_mem r f
  have hhead := headD_mem l h
  have hont : ∀ y ∈ f :: r, S y = .on t := fun y hy => (hS.mem t _ ht y).mp hy
  have honh : ∀ y ∈ l, S y = .on h := fun y hy => (hS.mem h _ hh y).mp hy
  have hndt := hS.nodup_cons ht
  have hndh := hS.nodup_cons hh
  have hdisjoint : ∀ y ∈ t :: f :: r, y ∉ h :: l := fun y hy hm => by
    rcases List.mem_cons.mp hy with rfl | hy <;> rcases List.mem_cons.mp hm with rfl | hm
    · exact hne rfl
    · rw [honh y hm] at ht
      cases ht
    · rw [hont y hy] at hh
      cases hh
    · have he := (hont y hy).symm.trans (honh y hm)
      cases he
      exact hne rfl
  have hnd : (t :: (f :: r ++ h :: l)).Nodup := by
    rw [← List.cons_append]
    exact List.nodup_append.mpr ⟨hndt, hndh, fun a ha b hb he => hdisjoint a ha (he ▸ hb)⟩
  have hhead' : S.splice t h (f :: r ++ l) h = .head (f :: r ++ l) := by
    simp [NodeUses.splice, hne.symm]
  have hon : ∀ y ∈ f :: r ++ l, S.splice t h (f :: r ++ l) y = .on h := fun y hy => by
    have hyt : y ≠ t := by grind
    have hyh : y ≠ h := by grind
    rw [NodeUses.splice, if_neg hyt, if_neg hyh]
    rcases List.mem_append.mp hy with hy | hy
    · rw [if_pos (hont y hy)]
    · rw [honh y hy, if_neg]
      rintro he
      cases he
      exact hne rfl
  have hclosed : ClosedUnder S (· ∈ t :: (f :: r ++ h :: l)) := hS.closedUnder fun y hy => by
    rcases List.mem_cons.mp hy with rfl | hy
    · exact Or.inl ⟨_, ht, fun z hz => by grind⟩
    · rcases List.mem_append.mp hy with hy | hy
      · exact Or.inr (Or.inl ⟨t, hont y hy, List.mem_cons_self⟩)
      · rcases List.mem_cons.mp hy with rfl | hy
        · exact Or.inl ⟨_, hh, fun z hz => by grind⟩
        · exact Or.inr (Or.inl ⟨h, honh y hy, by simp⟩)
  have hother : ∀ y, y ∉ t :: (f :: r ++ h :: l) → S.splice t h (f :: r ++ l) y = S y :=
    fun y hy => by
      have hyt : S y ≠ .on t := fun he => hy (by
        have := (hS.mem t _ ht y).mpr he
        grind)
      rw [NodeUses.splice, if_neg (by grind), if_neg (by grind), if_neg hyt]
  refine hS.relist hclosed ?_ hother ?_ ?_ (by simp) hhead'
    ((hS.ring t _ ht).splice (hS.ring h _ hh) hnd) (by grind) ?_ ?_
  · intro y
    rw [link_live, link_live, hS.live]
    simp only [NodeUses.splice]
    split_ifs with hyt hyh hy
    · simp [hyt, ht]
    · simp [hyh, hh]
    · simp [hy]
    · rfl
  · intro y hy
    rw [link_next_of_ne (by grind), link_next_of_ne (by grind)]
  · intro y hy
    rw [link_prev_of_ne (by grind), link_prev_of_ne (by grind)]
  · intro y hy
    exact ⟨by grind, hon y hy⟩
  · intro y hy
    by_cases hyt : y = t
    · exact Or.inr (Or.inr (Or.inl (by simp [NodeUses.splice, hyt])))
    · grind


end Change

end PeerStreamer
