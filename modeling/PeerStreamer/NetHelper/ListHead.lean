import PeerStreamer.Foundation.CircularList
import PeerStreamer.Foundation.Eval
import PeerStreamer.Foundation.Run

/-!
# List heads

`list.h`: circular lists whose nodes, of type `struct list_head`, are embedded in what is on the
list.  A node that has been taken off a list by `list_del` has NULL links, and so has one that has
been cleared with `memset`; `list_element_notadded` relies on this.

A `ListCall` is a call of one of these functions, or one that allocates or frees nodes, and
`Does S t S'` says that the calls of `t` can be made whatever memory looks like, as long as it is
laid out as `S` demands, that they answer what `t` says and that memory is laid out as `S'` demands
after them.
-/

namespace PeerStreamer

variable {A : Type} [DecidableEq A]

namespace LinkMemory

/-! ## The functions -/

/-- Following a pointer. -/
def deref (m : LinkMemory A) : Option A → Eval A
  | none => .error .nullDereference
  | some a => if m.live a then .ok a else .error .useAfterFree

/-- `ptr->next` -/
def loadNext (m : LinkMemory A) (ptr : Option A) : Eval (Option A) := do
  let a ← m.deref ptr
  return m.next a

/-- `ptr->prev` -/
def loadPrev (m : LinkMemory A) (ptr : Option A) : Eval (Option A) := do
  let a ← m.deref ptr
  return m.prev a

/-- `ptr->next = value` -/
def storeNext (m : LinkMemory A) (ptr value : Option A) : Eval (LinkMemory A) := do
  let a ← m.deref ptr
  return { m with next := Function.update m.next a value }

/-- `ptr->prev = value` -/
def storePrev (m : LinkMemory A) (ptr value : Option A) : Eval (LinkMemory A) := do
  let a ← m.deref ptr
  return { m with prev := Function.update m.prev a value }

/-- `INIT_LIST_HEAD` -/
def initListHead (m : LinkMemory A) (ptr : Option A) : Eval (LinkMemory A) := do
  let m ← m.storeNext ptr ptr
  m.storePrev ptr ptr

/-- `memset` of a whole node to zero. -/
def memsetLinks (m : LinkMemory A) (ptr : Option A) : Eval (LinkMemory A) := do
  let m ← m.storeNext ptr none
  m.storePrev ptr none

/-- `__list_add` -/
def listAdd' (m : LinkMemory A) (new prev next : Option A) : Eval (LinkMemory A) := do
  let m ← m.storePrev next new
  let m ← m.storeNext new next
  let m ← m.storePrev new prev
  m.storeNext prev new

/-- `list_add_tail` -/
def listAddTail (m : LinkMemory A) (new head : Option A) : Eval (LinkMemory A) := do
  let prev ← m.loadPrev head
  m.listAdd' new prev head

/-- `__list_del` -/
def listDel' (m : LinkMemory A) (prev next : Option A) : Eval (LinkMemory A) := do
  let m ← m.storePrev next prev
  m.storeNext prev next

/-- `list_del` -/
def listDel (m : LinkMemory A) (entry : Option A) : Eval (LinkMemory A) := do
  let prev ← m.loadPrev entry
  let next ← m.loadNext entry
  let m ← if prev.isSome && next.isSome then m.listDel' prev next else pure m
  let m ← m.storeNext entry none
  m.storePrev entry none

/-- `list_empty` -/
def listEmpty (m : LinkMemory A) (head : Option A) : Eval Bool := do
  let next ← m.loadNext head
  return next = head

/-- `__list_splice` -/
def listSplice' (m : LinkMemory A) (list head : Option A) : Eval (LinkMemory A) := do
  let first ← m.loadNext list
  let last ← m.loadPrev list
  let at' ← m.loadNext head
  let m ← m.storePrev first head
  let m ← m.storeNext head first
  let m ← m.storeNext last at'
  m.storePrev at' last

/-- `list_splice` -/
def listSplice (m : LinkMemory A) (list head : Option A) : Eval (LinkMemory A) := do
  if ← m.listEmpty list then return m
  else m.listSplice' list head

/-- `list_pop` -/
def listPop (m : LinkMemory A) (head : Option A) : Eval (LinkMemory A × Option A) := do
  if head.isNone then return (m, none)
  else if ← m.listEmpty head then return (m, none)
  else
    let pos ← m.loadNext head
    let m ← m.listDel pos
    return (m, pos)

/-- `list_element_notadded` -/
def listElementNotadded (m : LinkMemory A) (el : Option A) : Eval Bool := do
  let next ← m.loadNext el
  return next.isNone

end LinkMemory

/-! ## What the functions do -/

namespace LinkMemory

section Load

variable {A : Type} {m : LinkMemory A} {a : A}

lemma loadNext_eq (h : m.live a = true) : m.loadNext (some a) = .ok (m.next a) := by
  simp [loadNext, deref, h]

lemma loadPrev_eq (h : m.live a = true) : m.loadPrev (some a) = .ok (m.prev a) := by
  simp [loadPrev, deref, h]

end Load

variable {m : LinkMemory A} {n p x : A}

lemma initListHead_eq (h : m.live x = true) : m.initListHead (some x) = .ok (m.link x x) := by
  simp [initListHead, storeNext, storePrev, deref, h, link]

lemma memsetLinks_eq (h : m.live x = true) : m.memsetLinks (some x) = .ok (m.clear x) := by
  simp [memsetLinks, storeNext, storePrev, deref, h, clear]

/-- `__list_add` is two links. -/
lemma listAdd'_eq (hx : m.live x = true) (hp : m.live p = true) (hn : m.live n = true)
    (hxp : x ≠ p) (hxn : x ≠ n) :
    m.listAdd' (some x) (some p) (some n) = .ok ((m.link p x).link x n) := by
  simp only [listAdd', storePrev, storeNext, deref, hx, hp, hn, if_true, Eval.ok_bind,
    Eval.pure_eq_ok, link]
  rw [Function.update_comm hxp, Function.update_comm hxn]

/-- `__list_del` is one link. -/
lemma listDel'_eq (hp : m.live p = true) (hn : m.live n = true) :
    m.listDel' (some p) (some n) = .ok (m.link p n) := by
  simp [listDel', storePrev, storeNext, deref, hp, hn, link]

/-- `list_del` of a node between two others. -/
lemma listDel_eq (hx : m.live x = true) (hp : m.live p = true) (hn : m.live n = true)
    (hprev : m.prev x = some p) (hnext : m.next x = some n) :
    m.listDel (some x) = .ok ((m.link p n).clear x) := by
  rw [listDel, loadPrev_eq hx, Eval.ok_bind, loadNext_eq hx, Eval.ok_bind, hprev, hnext]
  simp only [Option.isSome_some, Bool.and_self, if_true, listDel'_eq hp hn, Eval.ok_bind]
  exact memsetLinks_eq hx

/-- `list_del` of a node with NULL links. -/
lemma listDel_eq_of_none (hx : m.live x = true) (hprev : m.prev x = none) :
    m.listDel (some x) = .ok (m.clear x) := by
  rw [listDel, loadPrev_eq hx, Eval.ok_bind, loadNext_eq hx, Eval.ok_bind, hprev]
  simp only [Option.isSome_none, Bool.false_and, Bool.false_eq_true, if_false, Eval.pure_eq_ok,
    Eval.ok_bind]
  exact memsetLinks_eq hx

lemma listEmpty_eq (hx : m.live x = true) :
    m.listEmpty (some x) = .ok (decide (m.next x = some x)) := by
  rw [listEmpty, loadNext_eq hx]
  rfl

/-- `__list_splice` is two links. -/
lemma listSplice'_eq {list head first last at' : A} (hlist : m.live list = true)
    (hhead : m.live head = true) (hfirst : m.live first = true) (hlast : m.live last = true)
    (hat : m.live at' = true) (hnext : m.next list = some first) (hprev : m.prev list = some last)
    (hafter : m.next head = some at') :
    m.listSplice' (some list) (some head) = .ok ((m.link head first).link last at') := by
  rw [listSplice', loadNext_eq hlist, Eval.ok_bind, loadPrev_eq hlist, Eval.ok_bind,
    loadNext_eq hhead, Eval.ok_bind, hnext, hprev, hafter]
  simp [storePrev, storeNext, deref, hhead, hfirst, hlast, hat, link]

end LinkMemory

namespace Laid

open LinkMemory

section Live

variable {A : Type} {m : LinkMemory A} {S : NodeUses A} {h y : A} {l : List A}

lemma live_of_mem (hS : Laid m S) (hh : S h = .head l) (hy : y ∈ h :: l) : m.live y = true := by
  rw [hS.live]
  rcases List.mem_cons.mp hy with rfl | hy
  · simp [hh]
  · simp [(hS.mem h l hh y).mp hy]

end Live

variable {m : LinkMemory A} {S : NodeUses A} {h t x y : A} {l l' l₁ l₂ : List A}

lemma initListHead (hS : Laid m S) (hx : (S x).Loose) (hlive : S x ≠ .absent) :
    ∃ m', m.initListHead (some x) = .ok m' ∧ Laid m' (Function.update S x (.head [])) :=
  ⟨_, initListHead_eq ((hS.live x).mpr hlive), hS.init hx hlive⟩

lemma memsetLinks (hS : Laid m S) (hx : (S x).Loose) (hlive : S x ≠ .absent) :
    ∃ m', m.memsetLinks (some x) = .ok m' ∧ Laid m' (Function.update S x .off) :=
  ⟨_, memsetLinks_eq ((hS.live x).mpr hlive), hS.clear hx hlive⟩

/-- **`list_add_tail`** puts a node on no list at the end of one. -/
lemma listAddTail (hS : Laid m S) (hh : S h = .head l) (hx : (S x).Loose)
    (hlive : S x ≠ .absent) (hne : x ≠ h) :
    ∃ m', m.listAddTail (some x) (some h) = .ok m'
      ∧ Laid m' (S.relist h (l ++ [x]) [x] (.on h)) := by
  have hlast := getLastD_mem l h
  have hliveh := hS.live_of_mem hh List.mem_cons_self
  have hxl : x ∉ h :: l := List.not_mem_cons_of_ne_of_not_mem hne (hS.notMem_of_loose hh hx)
  have hend : S h = .head (l ++ []) := by rwa [List.append_nil]
  refine ⟨_, ?_, hS.insert hend hx hlive hne⟩
  rw [LinkMemory.listAddTail, loadPrev_eq hliveh, Eval.ok_bind, (hS.ring h l hh).prev_last]
  exact listAdd'_eq ((hS.live x).mpr hlive) (hS.live_of_mem hh hlast) hliveh
    (fun he => hxl (he ▸ hlast)) hne

/-- **`list_del`** takes a node off the list it is on. -/
lemma listDel (hS : Laid m S) (hh : S h = .head (l₁ ++ x :: l₂)) :
    ∃ m', m.listDel (some x) = .ok m' ∧ Laid m' (S.relist h (l₁ ++ l₂) [x] .off) := by
  have hprev := getLastD_mem l₁ h
  have hnext := headD_mem l₂ h
  have hring := hS.ring h _ hh
  refine ⟨_, listDel_eq (hS.live_of_mem hh (by simp)) (hS.live_of_mem hh ?_)
    (hS.live_of_mem hh ?_) hring.prev_of_split hring.next_of_split, hS.remove hh⟩
  · rcases List.mem_cons.mp hprev with he | hm
    · rw [he]
      exact List.mem_cons_self
    · exact List.mem_cons_of_mem h (List.mem_append_left _ hm)
  · rcases List.mem_append.mp hnext with hm | he
    · exact List.mem_cons_of_mem h (List.mem_append_right _ (List.mem_cons_of_mem x hm))
    · rw [List.mem_singleton.mp he]
      exact List.mem_cons_self

/-- A node that has been cleared stays so. -/
lemma listDel_off (hS : Laid m S) (hx : S x = .off) :
    ∃ m', m.listDel (some x) = .ok m' ∧ Laid m' S := by
  have hlive : S x ≠ .absent := by simp [hx]
  have hclear := hS.clear (Or.inr (Or.inr (Or.inl hx))) hlive
  rw [← hx, Function.update_eq_self] at hclear
  exact ⟨_, listDel_eq_of_none ((hS.live x).mpr hlive) (hS.off x hx).2, hclear⟩

/-- A list is empty when its head is linked to itself. -/
lemma listEmpty (hS : Laid m S) (hh : S h = .head l) :
    m.listEmpty (some h) = .ok (decide (l = [])) := by
  rw [listEmpty_eq (hS.live_of_mem hh List.mem_cons_self), (hS.ring h l hh).next_first]
  congr 1
  refine decide_eq_decide.mpr ?_
  cases l with
  | nil => simp
  | cons x l =>
      have hne : x ≠ h := fun he => hS.head_notMem hh (by simp [he])
      simp [hne]

/-- **`list_splice`** puts the nodes of a list in front of those of another one. -/
lemma listSplice (hS : Laid m S) (ht : S t = .head l') (hh : S h = .head l) (hne : t ≠ h) :
    ∃ m', m.listSplice (some t) (some h) = .ok m' ∧ Laid m' (S.splice t h (l' ++ l)) := by
  have hlivet := hS.live_of_mem ht List.mem_cons_self
  have hliveh := hS.live_of_mem hh List.mem_cons_self
  rw [LinkMemory.listSplice, hS.listEmpty ht]
  cases l' with
  | nil =>
      refine ⟨m, rfl, ?_⟩
      -- only the head that is no longer used changes
      have hforget := hS.forget ht
      convert hforget using 1
      funext y
      have hon : S y ≠ .on t := fun he => absurd ((hS.mem t [] ht y).mpr he) List.not_mem_nil
      by_cases hyt : y = t
      · simp [NodeUses.splice, NodeUses.setAll, hyt]
      · by_cases hyh : y = h
        · subst hyh
          simp [NodeUses.splice, NodeUses.setAll, hyt, hh]
        · simp [NodeUses.splice, NodeUses.setAll, hyt, hyh, hon]
  | cons f r =>
      have hring := hS.ring t _ ht
      refine ⟨_, ?_, hS.splice ht hh hne⟩
      simp only [reduceCtorEq, decide_false, Eval.ok_bind, Bool.false_eq_true, if_false]
      refine listSplice'_eq hlivet hliveh (hS.live_of_mem ht (by simp)) (hS.live_of_mem ht ?_)
        (hS.live_of_mem hh ?_) hring.next_first ?_ (hS.ring h l hh).next_first
      · exact List.mem_cons_of_mem t (getLastD_mem r f)
      · rcases List.mem_append.mp (headD_mem l h) with hm | he
        · exact List.mem_cons_of_mem h hm
        · rw [List.mem_singleton.mp he]
          exact List.mem_cons_self
      · rw [hring.prev_last, List.getLastD_cons]

/-- **`list_pop`** takes the first node off a list, if there is one. -/
lemma listPop (hS : Laid m S) (hh : S h = .head l) :
    ∃ m', m.listPop (some h) = .ok (m', l.head?)
      ∧ Laid m' (S.relist h l.tail l.head?.toList .off) := by
  have hliveh := hS.live_of_mem hh List.mem_cons_self
  rw [LinkMemory.listPop, hS.listEmpty hh]
  cases l with
  | nil =>
      refine ⟨m, rfl, ?_⟩
      convert hS using 1
      funext y
      by_cases hy : y = h
      · simp [hy, hh]
      · exact NodeUses.relist_of_notMem List.not_mem_nil hy
  | cons x l =>
      have hfirst : S h = .head ([] ++ x :: l) := hh
      obtain ⟨m', hdel, hm'⟩ := hS.listDel hfirst
      refine ⟨m', ?_, hm'⟩
      simp only [Option.isNone_some, reduceCtorEq, decide_false, Eval.ok_bind, Bool.false_eq_true,
        if_false, loadNext_eq hliveh, (hS.ring h _ hh).next_first, List.headD_cons, hdel]
      rfl

/-- **`list_element_notadded`** tells whether a node is on a list, if it is cleared when it is not.
-/
lemma listElementNotadded (hS : Laid m S) (hx : S x = .off ∨ S x = .on h) :
    m.listElementNotadded (some x) = .ok (decide (S x = .off)) := by
  have hlive : m.live x = true := by
    rw [hS.live]
    rcases hx with hx | hx <;> simp [hx]
  rw [LinkMemory.listElementNotadded, loadNext_eq hlive]
  rcases hx with hx | hx
  · rw [(hS.off x hx).1, hx]
    rfl
  · obtain ⟨l, hl⟩ := hS.headed x h hx
    obtain ⟨l₁, l₂, rfl⟩ := List.append_of_mem ((hS.mem h l hl x).mpr hx)
    rw [(hS.ring h _ hl).next_of_split, hx]
    rfl

end Laid

/-! ## Calls -/

/-- A call that has to do with list heads. -/
inductive ListCall (A : Type)
  | malloc (xs : List A)
  | free (xs : List A)
  | memset (x : A)
  | init (x : A)
  | addTail (new head : A)
  | del (x : A)
  | splice (list head : A)
  | pop (head : A)
  | next (x : A)
  | notadded (x : A)
  deriving DecidableEq, Repr

/-- What a call answers. -/
inductive ListAnswer (A : Type)
  | done
  | node (p : Option A)
  | flag (b : Bool)
  deriving DecidableEq, Repr

/-- One call.  What `malloc` gives is not in use, and what is given to `free` is. -/
def listCall (m : LinkMemory A) : ListCall A → Eval (LinkMemory A × ListAnswer A)
  | .malloc xs => if xs.any m.live then .error .useAfterFree else .ok (m.allocate xs, .done)
  | .free xs => if xs.all m.live then .ok (m.release xs, .done) else .error .useAfterFree
  | .memset x => do return (← m.memsetLinks (some x), .done)
  | .init x => do return (← m.initListHead (some x), .done)
  | .addTail new head => do return (← m.listAddTail (some new) (some head), .done)
  | .del x => do return (← m.listDel (some x), .done)
  | .splice list head => do return (← m.listSplice (some list) (some head), .done)
  | .pop head => do
      let (m, el) ← m.listPop (some head)
      return (m, .node el)
  | .next x => do return (m, .node (← m.loadNext (some x)))
  | .notadded x => do return (m, .flag (← m.listElementNotadded (some x)))

/-- Calls with what they answer. -/
abbrev Transcript (A : Type) := List (ListCall A × ListAnswer A)

/-- The calls can be made in `m`, answer so and leave `m'`. -/
def Performs (m : LinkMemory A) (t : Transcript A) (m' : LinkMemory A) : Prop :=
  exec listCall m (t.map Prod.fst) = .ok (m', t.map Prod.snd)

/-- Whatever memory is laid out as `S` demands, the calls of `t` can be made in it, answer so and
leave it as `S'` demands. -/
def Does (S : NodeUses A) (t : Transcript A) (S' : NodeUses A) : Prop :=
  ∀ m, Laid m S → ∃ m', Performs m t m' ∧ Laid m' S'

section Does

variable {S S' S'' : NodeUses A} {t t' : Transcript A} {h x y : A} {l l' xs : List A}

lemma Does.nil : Does S [] S := fun m hm => ⟨m, rfl, hm⟩

lemma Does.append (h : Does S t S') (h' : Does S' t' S'') : Does S (t ++ t') S'' := by
  intro m hm
  obtain ⟨m₁, hp, hm₁⟩ := h m hm
  obtain ⟨m₂, hp', hm₂⟩ := h' m₁ hm₁
  refine ⟨m₂, ?_, hm₂⟩
  rw [Performs, List.map_append, List.map_append, exec_append_eq_ok]
  exact ⟨m₁, _, _, hp, hp', rfl⟩

lemma Does.cons {c : ListCall A × ListAnswer A} (h : Does S [c] S') (h' : Does S' t S'') :
    Does S (c :: t) S'' := h.append h'

lemma Does.to (h : Does S t S') (he : S' = S'') : Does S t S'' := he ▸ h

lemma Does.of_eq (he : S = S') (h : Does S' t S'') : Does S t S'' := he ▸ h

/-- A single call. -/
lemma Does.of_call {c : ListCall A} {a : ListAnswer A}
    (h : ∀ m, Laid m S → ∃ m', listCall m c = .ok (m', a) ∧ Laid m' S') :
    Does S [(c, a)] S' := by
  intro m hm
  obtain ⟨m', hc, hm'⟩ := h m hm
  exact ⟨m', exec_cons_eq_ok.mpr ⟨m', a, [], hc, rfl, rfl⟩, hm'⟩

/-- What holds because memory is laid out so can be used. -/
lemma Does.of_laid (h : ∀ m, Laid m S → Does S t S') : Does S t S' := fun m hm => h m hm m hm

/-! ### Single calls -/

lemma Does.malloc (hxs : ∀ x ∈ xs, S x = .absent) :
    Does S [(.malloc xs, .done)] (S.setAll xs .raw) := .of_call fun m hm => by
  refine ⟨_, if_neg ?_, hm.allocate hxs⟩
  rw [List.any_eq_true]
  rintro ⟨x, hx, hlive⟩
  exact (hm.live x).mp hlive (hxs x hx)

lemma Does.free (hxs : ∀ x ∈ xs, (S x).Loose ∧ S x ≠ .absent) :
    Does S [(.free xs, .done)] (S.setAll xs .absent) := .of_call fun m hm => by
  refine ⟨_, if_pos ?_, hm.release fun x hx => (hxs x hx).1⟩
  exact List.all_eq_true.mpr fun x hx => (hm.live x).mpr (hxs x hx).2

lemma Does.memset (hx : (S x).Loose) (hlive : S x ≠ .absent) :
    Does S [(.memset x, .done)] (Function.update S x .off) := .of_call fun m hm => by
  obtain ⟨m', hc, hm'⟩ := hm.memsetLinks hx hlive
  exact ⟨m', by rw [listCall, hc]; rfl, hm'⟩

lemma Does.init (hx : (S x).Loose) (hlive : S x ≠ .absent) :
    Does S [(.init x, .done)] (Function.update S x (.head [])) := .of_call fun m hm => by
  obtain ⟨m', hc, hm'⟩ := hm.initListHead hx hlive
  exact ⟨m', by rw [listCall, hc]; rfl, hm'⟩

lemma Does.addTail (hh : S h = .head l) (hx : (S x).Loose) (hlive : S x ≠ .absent) (hne : x ≠ h) :
    Does S [(.addTail x h, .done)] (S.relist h (l ++ [x]) [x] (.on h)) := .of_call fun m hm => by
  obtain ⟨m', hc, hm'⟩ := hm.listAddTail hh hx hlive hne
  exact ⟨m', by rw [listCall, hc]; rfl, hm'⟩

lemma Does.del (hh : S h = .head l) (hx : x ∈ l) :
    Does S [(.del x, .done)] (S.relist h (l.filter (· ≠ x)) [x] .off) := .of_call fun m hm => by
  obtain ⟨l₁, l₂, rfl⟩ := List.append_of_mem hx
  have hnd := hm.nodup h _ hh
  have hfilter : (l₁ ++ x :: l₂).filter (· ≠ x) = l₁ ++ l₂ := by
    rw [List.filter_append, List.filter_cons_of_neg (by simp), List.filter_eq_self.mpr (by grind),
      List.filter_eq_self.mpr (by grind)]
  obtain ⟨m', hc, hm'⟩ := hm.listDel hh
  exact ⟨m', by rw [listCall, hc]; rfl, hfilter ▸ hm'⟩

lemma Does.del_off (hx : S x = .off) : Does S [(.del x, .done)] S := .of_call fun m hm => by
  obtain ⟨m', hc, hm'⟩ := hm.listDel_off hx
  exact ⟨m', by rw [listCall, hc]; rfl, hm'⟩

lemma Does.splice {a b : List A} (hx : S x = .head a) (hh : S h = .head b) (hne : x ≠ h) :
    Does S [(.splice x h, .done)] (S.splice x h (a ++ b)) := .of_call fun m hm => by
  obtain ⟨m', hc, hm'⟩ := hm.listSplice hx hh hne
  exact ⟨m', by rw [listCall, hc]; rfl, hm'⟩

lemma Does.pop (hh : S h = .head l) :
    Does S [(.pop h, .node l.head?)] (S.relist h l.tail l.head?.toList .off) :=
  .of_call fun m hm => by
    obtain ⟨m', hc, hm'⟩ := hm.listPop hh
    exact ⟨m', by rw [listCall, hc]; rfl, hm'⟩

lemma Does.next_head (hh : S h = .head l) : Does S [(.next h, .node (some (l.headD h)))] S :=
  .of_call fun m hm => by
    refine ⟨m, ?_, hm⟩
    rw [listCall, LinkMemory.loadNext_eq (hm.live_of_mem hh List.mem_cons_self),
      (hm.ring h l hh).next_first]
    rfl

lemma Does.next (hh : S h = .head (l ++ x :: l')) :
    Does S [(.next x, .node (some (l'.headD h)))] S := .of_call fun m hm => by
  refine ⟨m, ?_, hm⟩
  rw [listCall, LinkMemory.loadNext_eq (hm.live_of_mem hh (by simp)),
    (hm.ring h _ hh).next_of_split]
  rfl

lemma Does.notadded (hx : S x = .off ∨ S x = .on h) :
    Does S [(.notadded x, .flag (decide (S x = .off)))] S := .of_call fun m hm =>
  ⟨m, by rw [listCall, hm.listElementNotadded hx]; rfl, hm⟩

lemma Does.forget (hh : S h = .head l) : Does S [] (S.setAll (h :: l) .raw) :=
  fun m hm => ⟨m, rfl, hm.forget hh⟩

/-! ### Loops -/

lemma relist_relist {u : NodeUse A} {ys : List A} :
    (S.relist h l xs u).relist h l' ys u = S.relist h l' (xs ++ ys) u := by
  funext y
  simp only [NodeUses.relist, List.mem_append]
  split_ifs <;> simp_all

/-- Nodes are put on a list one after the other. -/
lemma Does.addAll (hh : S h = .head l) (hnd : xs.Nodup)
    (hxs : ∀ x ∈ xs, (S x).Loose ∧ S x ≠ .absent ∧ x ≠ h) :
    Does S (xs.map fun x => (.addTail x h, .done)) (S.relist h (l ++ xs) xs (.on h)) := by
  induction xs generalizing S l with
  | nil =>
      have hsame : S.relist h (l ++ []) [] (.on h) = S := by
        funext y
        by_cases hy : y = h
        · simp [hy, hh]
        · exact NodeUses.relist_of_notMem List.not_mem_nil hy
      rw [hsame]
      exact .nil
  | cons x xs ih =>
      obtain ⟨hx, hlive, hne⟩ := hxs x List.mem_cons_self
      obtain ⟨hxxs, hnd⟩ := List.nodup_cons.mp hnd
      have hrest := ih (S := S.relist h (l ++ [x]) [x] (.on h)) NodeUses.relist_head hnd
        fun y hy => by
          obtain ⟨hly, hay, hyh⟩ := hxs y (List.mem_cons_of_mem x hy)
          have hyx : y ∉ [x] := by
            rw [List.mem_singleton]
            rintro rfl
            exact hxxs hy
          rw [NodeUses.relist_of_notMem hyx hyh]
          exact ⟨hly, hay, hyh⟩
      rw [relist_relist, List.append_assoc] at hrest
      exact (Does.addTail hh hx hlive hne).cons hrest

/-- Nodes that are on a list or cleared are deleted one after the other. -/
lemma Does.delAll (hh : S h = .head l) (hxs : ∀ x ∈ xs, S x = .off ∨ S x = .on h) :
    Does S (xs.map fun x => (.del x, .done)) (S.relist h (l.filter (· ∉ xs)) xs .off) := by
  induction xs generalizing S l with
  | nil =>
      have hsame : S.relist h (l.filter (· ∉ [])) [] .off = S := by
        funext y
        by_cases hy : y = h
        · simp [hy, hh]
        · exact NodeUses.relist_of_notMem List.not_mem_nil hy
      rw [hsame]
      exact .nil
  | cons x xs ih =>
      refine .of_laid fun m hm => ?_
      have hfilter : (l.filter (· ≠ x)).filter (· ∉ xs) = l.filter (· ∉ x :: xs) := by
        rw [List.filter_filter]
        refine List.filter_congr fun y _ => ?_
        simp [Bool.and_comm]
      have hne : ∀ y ∈ x :: xs, y ≠ h := fun y hy he => by
        rcases hxs y hy with hu | hu <;> rw [he, hh] at hu <;> cases hu
      -- a cleared node is on no list, so the list stays as it is
      have hfirst : Does S [(.del x, .done)] (S.relist h (l.filter (· ≠ x)) [x] .off) := by
        rcases hxs x List.mem_cons_self with hx | hx
        · have hxl : x ∉ l := hm.notMem_of_loose hh (Or.inr (Or.inr (Or.inl hx)))
          have hsame : S.relist h (l.filter (· ≠ x)) [x] .off = S := by
            funext y
            by_cases hyh : y = h
            · rw [hyh, NodeUses.relist_head, hh, List.filter_eq_self.mpr (by grind)]
            · by_cases hyx : y = x
              · rw [hyx, NodeUses.relist_of_mem (by simp) (hyx ▸ hyh), hx]
              · exact NodeUses.relist_of_notMem (by simpa using hyx) hyh
          rw [hsame]
          exact .del_off hx
        · exact .del hh ((hm.mem h l hh x).mpr hx)
      have hrest := ih (S := S.relist h (l.filter (· ≠ x)) [x] .off) NodeUses.relist_head
        fun y hy => by
          by_cases hyx : y = x
          · exact Or.inl (NodeUses.relist_of_mem (by simpa using hyx)
              (hne y (List.mem_cons_of_mem x hy)))
          · rw [NodeUses.relist_of_notMem (by simpa using hyx) (hne y (List.mem_cons_of_mem x hy))]
            exact hxs y (List.mem_cons_of_mem x hy)
      rw [relist_relist, hfilter] at hrest
      exact hfirst.cons hrest

/-- Nodes are cleared one after the other. -/
lemma Does.memsetAll (hxs : ∀ x ∈ xs, (S x).Loose ∧ S x ≠ .absent) :
    Does S (xs.map fun x => (.memset x, .done)) (S.setAll xs .off) := by
  induction xs generalizing S with
  | nil => exact .nil
  | cons x xs ih =>
      obtain ⟨hx, hlive⟩ := hxs x List.mem_cons_self
      have hrest := ih (S := Function.update S x .off) fun y hy => by
        by_cases hyx : y = x
        · rw [hyx, Function.update_self]
          exact ⟨Or.inr (Or.inr (Or.inl rfl)), by simp⟩
        · rw [Function.update_of_ne hyx]
          exact hxs y (List.mem_cons_of_mem x hy)
      have hsame : NodeUses.setAll (Function.update S x .off) xs .off
          = S.setAll (x :: xs) .off := by
        funext y
        by_cases hyx : y = x <;> simp [NodeUses.setAll, hyx]
      rw [hsame] at hrest
      exact (Does.memset hx hlive).cons hrest

end Does

end PeerStreamer
