import PeerStreamer.Foundation.DoublyLinked
import PeerStreamer.Foundation.Eval
import PeerStreamer.Foundation.Run
import PeerStreamer.Streaming.Transaction

/-!
# Transactions in memory

The functions of `transaction.c` as they work on `struct service_times_element`: cells with two
links, and a pointer to the first one that is changed through an alias.  Elements are unlinked while
a loop that has saved the successor walks the list.

The list functions of the same names say what is meant.  `TransactionMemory.Holds s l` relates the
two: memory holds a doubly linked list with the elements of `l`, in order.
`transactionUnlink_holds` is the one statement about links, and every other function is a walk and
some unlinking.

A walk is given a number of rounds, as it would not end in a list with a cycle; as many as there are
elements are enough.
-/

namespace PeerStreamer

/-- How a walk along the links can fail. -/
inductive WalkError
  | undefined (u : Undefined)
  | unfinished
  deriving DecidableEq, Repr

/-- The outcome of a function that follows links. -/
abbrev Walk (α : Type) := Except WalkError α

/-- The elements in memory, and the variable `stl` that points to the first one. -/
structure TransactionMemory (ID : Type) where
  cells : Cells (ServiceTime ID)
  stl : Option ℕ

namespace TransactionMemory

variable {ID : Type}

/-- Before any transaction. -/
def empty : TransactionMemory ID := ⟨fun _ => none, none⟩

/-- What `p` points to. -/
def element (s : TransactionMemory ID) (p : ℕ) : Walk (Cell (ServiceTime ID)) :=
  match s.cells p with
  | none => .error (.undefined .useAfterFree)
  | some e => return e

/-- `p->forward = next` -/
def setForward (s : TransactionMemory ID) (p : ℕ) (next : Option ℕ) :
    Walk (TransactionMemory ID) := do
  let _ ← s.element p
  return { s with cells := s.cells.setForward p next }

/-- `p->backward = prev` -/
def setBackward (s : TransactionMemory ID) (p : ℕ) (prev : Option ℕ) :
    Walk (TransactionMemory ID) := do
  let _ ← s.element p
  return { s with cells := s.cells.setBackward p prev }

/-- `free(p)` -/
def free (s : TransactionMemory ID) (p : ℕ) : Walk (TransactionMemory ID) := do
  let _ ← s.element p
  return { s with cells := Function.update s.cells p none }

/-! ## The functions -/

/-- `_transaction_remove`: the only element, the first, the last, and one in the middle. -/
def transactionUnlink (s : TransactionMemory ID) (stl : ℕ) : Walk (TransactionMemory ID) := do
  let e ← s.element stl
  let s ← match e.backward, e.forward with
    | none, some f => setBackward ⟨s.cells, some f⟩ f none
    | none, none => pure ⟨s.cells, none⟩
    | some b, none => s.setForward b none
    | some b, some f => do
        let s ← s.setForward b (some f)
        s.setBackward f (some b)
  s.free stl

/-- The loop of `check_neighbor_status_list`; `stlAux` is the successor that was saved before
`stlIterator` may have been removed. -/
def checkNeighborStatusListLoop (now : ℤ) : (rounds : ℕ) → TransactionMemory ID →
    (stlIterator stlAux : Option ℕ) → Walk (TransactionMemory ID)
  | _, s, none, _ => return s
  | 0, _, some _, _ => .error .unfinished
  | rounds + 1, s, some p, stlAux => do
      let e ← s.element p
      let s ← if TRANS_ID_MAX_LIFETIME < now - e.val.offerSentTime then s.transactionUnlink p
        else pure s
      match stlAux with
      | none => checkNeighborStatusListLoop now rounds s none none
      | some q => do
          let e ← s.element q
          checkNeighborStatusListLoop now rounds s (some q) e.forward

/-- `check_neighbor_status_list` -/
def checkNeighborStatusList (rounds : ℕ) (s : TransactionMemory ID) (now : ℤ) :
    Walk (TransactionMemory ID) :=
  match s.stl with
  | none => return s
  | some p => do
      let e ← s.element p
      checkNeighborStatusListLoop now rounds s (some p) e.forward

/-- `transaction_create`, where `stl2` is the address that `malloc` returns. -/
def transactionCreate (rounds : ℕ) (s : TransactionMemory ID) (id : ID) (tcheck now : ℤ)
    (stl2 : ℕ) : Walk (TransactionMemory ID × UInt16) := do
  let s ← s.checkNeighborStatusList rounds tcheck
  match s.stl with
  | some first => do
      let e ← s.element first
      let transId := if e.val.transId.toNat + 1 ≠ 0 then UInt16.ofNat (e.val.transId.toNat + 1)
        else 1
      let s ← s.setBackward first (some stl2)
      return (⟨Function.update s.cells stl2 (some ⟨⟨transId, now, none, id⟩, none, some first⟩),
        some stl2⟩, transId)
  | none =>
      return (⟨Function.update s.cells stl2 (some ⟨⟨1, now, none, id⟩, none, none⟩), some stl2⟩, 1)

/-- The walk of `transaction_reg_accept` and `transaction_remove`: the first element with the id. -/
def findTransaction (transId : UInt16) : (rounds : ℕ) → TransactionMemory ID →
    (stlIterator : Option ℕ) → Walk (Option ℕ)
  | _, _, none => return none
  | 0, _, some _ => .error .unfinished
  | rounds + 1, s, some p => do
      let e ← s.element p
      if e.val.transId = transId then return some p
      else findTransaction transId rounds s e.forward

/-- `transaction_reg_accept` -/
def transactionRegAccept (rounds : ℕ) (s : TransactionMemory ID) (transId : UInt16) (now : ℤ) :
    Walk (TransactionMemory ID) :=
  if transId = INVALID_TRANSID then return s
  else do
    match ← findTransaction transId rounds s s.stl with
    | none => return s
    | some p => do
        let e ← s.element p
        let e := { e with val := { e.val with acceptReceivedTime := some now } }
        return { s with cells := Function.update s.cells p (some e) }

/-- `transaction_remove`: the time of the accept, or none at all (`-2.0`) if there is no such
element. -/
def transactionRemove (rounds : ℕ) (s : TransactionMemory ID) (transId : UInt16) :
    Walk (TransactionMemory ID × Option (Option ℤ)) := do
  match ← findTransaction transId rounds s s.stl with
  | none => return (s, none)
  | some p => do
      let e ← s.element p
      let s ← s.transactionUnlink p
      return (s, some e.val.acceptReceivedTime)

/-- `transaction_destroy` -/
def transactionDestroy : (rounds : ℕ) → TransactionMemory ID → Walk (TransactionMemory ID)
  | 0, s => if s.stl = none then return s else .error .unfinished
  | rounds + 1, s =>
      match s.stl with
      | none => return s
      | some p => do
          let s ← s.transactionUnlink p
          transactionDestroy rounds s

/-! ## What is in memory -/

/-- Memory holds the elements `l`, at the addresses given with them. -/
def Holds (s : TransactionMemory ID) (l : List (ℕ × ServiceTime ID)) : Prop :=
  DoublyLinked s.cells s.stl l

section Holds

variable {s : TransactionMemory ID} {l pre post : List (ℕ × ServiceTime ID)} {p : ℕ}
  {v : ServiceTime ID} {n : ℕ}

lemma element_eq {e : Cell (ServiceTime ID)} (he : s.cells p = some e) : s.element p = .ok e := by
  rw [element, he]
  rfl

lemma Holds.element (h : s.Holds (pre ++ (p, v) :: post)) :
    s.element p = .ok ⟨v, lastOf none pre, firstOf post none⟩ :=
  element_eq h.linked.cell

lemma setForward_eq (hp : s.cells p ≠ none) (next : Option ℕ) :
    s.setForward p next = .ok ⟨s.cells.setForward p next, s.stl⟩ := by
  obtain ⟨e, he⟩ := Option.ne_none_iff_exists'.mp hp
  rw [setForward, element_eq he]
  rfl

lemma setBackward_eq (hp : s.cells p ≠ none) (prev : Option ℕ) :
    s.setBackward p prev = .ok ⟨s.cells.setBackward p prev, s.stl⟩ := by
  obtain ⟨e, he⟩ := Option.ne_none_iff_exists'.mp hp
  rw [setBackward, element_eq he]
  rfl

lemma free_eq (hp : s.cells p ≠ none) :
    s.free p = .ok ⟨Function.update s.cells p none, s.stl⟩ := by
  obtain ⟨e, he⟩ := Option.ne_none_iff_exists'.mp hp
  rw [free, element_eq he]
  rfl

/-- What the four cases of `_transaction_remove` come to. -/
lemma transactionUnlink_eq {prev next : Option ℕ} (he : s.cells p = some ⟨v, prev, next⟩)
    (hprev : ∀ b, prev = some b → s.cells b ≠ none)
    (hnext : ∀ f, next = some f → s.cells f ≠ none) :
    s.transactionUnlink p = .ok ⟨Function.update
      ((s.cells.linkForward prev next).linkBackward next prev) p none,
      if prev = none then next else s.stl⟩ := by
  have hp : s.cells p ≠ none := by
    rw [he]
    exact Option.some_ne_none _
  rw [transactionUnlink, element_eq he]
  cases prev with
  | none =>
      cases next with
      | none => exact free_eq (s := ⟨s.cells, none⟩) hp
      | some f =>
          have hset := setBackward_eq (s := ⟨s.cells, some f⟩) (hnext f rfl) none
          simp only [Eval.ok_bind, hset]
          exact free_eq (s := ⟨s.cells.setBackward f none, some f⟩) (by simpa using hp)
  | some b =>
      cases next with
      | none =>
          have hset := setForward_eq (hprev b rfl) none
          simp only [Eval.ok_bind, hset]
          exact free_eq (s := ⟨s.cells.setForward b none, s.stl⟩) (by simpa using hp)
      | some f =>
          have hset₁ := setForward_eq (hprev b rfl) (some f)
          have hset₂ := setBackward_eq (s := ⟨s.cells.setForward b (some f), s.stl⟩)
            (by simpa using hnext f rfl) (some b)
          simp only [Eval.ok_bind, hset₁, hset₂]
          exact free_eq (s := ⟨(s.cells.setForward b (some f)).setBackward f (some b), s.stl⟩)
            (by simpa using hp)

/-- **An element is unlinked**, wherever it is. -/
theorem transactionUnlink_holds (h : s.Holds (pre ++ (p, v) :: post)) :
    ∃ s', s.transactionUnlink p = .ok s' ∧ s'.Holds (pre ++ post) := by
  obtain ⟨hpre, hcell, hpost⟩ := linked_append.mp h.linked
  refine ⟨_, transactionUnlink_eq hcell (fun b => hpre.lastOf_live) fun f => hpost.firstOf_live, ?_⟩
  -- the head changes if and only if the element is the first one
  have hhead : (if lastOf none pre = none then firstOf post none else s.stl)
      = firstOf (pre ++ post) none := by
    simp only [lastOf_eq_none, h.head]
    cases pre with
    | nil => rfl
    | cons e pre => rfl
  rw [hhead]
  exact h.unlink

/-! ## Walks -/

/-- The loop of the check, when it has come to `post`. -/
lemma checkNeighborStatusListLoop_holds (now : ℤ) (h : s.Holds (pre ++ post))
    (hn : post.length ≤ n) :
    ∃ s', checkNeighborStatusListLoop now n s (firstOf post none) (firstOf post.tail none) = .ok s'
      ∧ s'.Holds (pre ++ post.filter fun e =>
        ¬TRANS_ID_MAX_LIFETIME < now - e.2.offerSentTime) := by
  induction post generalizing s pre n with
  | nil => exact ⟨s, by cases n <;> rfl, by simpa using h⟩
  | cons e post ih =>
      obtain ⟨p, v⟩ := e
      obtain ⟨n, rfl⟩ : ∃ k, n = k + 1 := ⟨n - 1, by simp at hn; omega⟩
      have hn' : post.length ≤ n := by simpa using hn
      -- the rest of the loop, once the element has been dealt with
      have hrest : ∀ {s' : TransactionMemory ID} {pre'}, s'.Holds (pre' ++ post) →
          ∃ s'', (match firstOf post none with
            | none => checkNeighborStatusListLoop now n s' none none
            | some q => do
                let e ← s'.element q
                checkNeighborStatusListLoop now n s' (some q) e.forward) = .ok s''
            ∧ s''.Holds (pre' ++ post.filter fun e =>
              ¬TRANS_ID_MAX_LIFETIME < now - e.2.offerSentTime) := by
        intro s' pre' h'
        obtain ⟨s'', hs'', h''⟩ := ih h' hn'
        refine ⟨s'', ?_, h''⟩
        cases post with
        | nil => exact hs''
        | cons e post =>
            obtain ⟨q, w⟩ := e
            rw [firstOf_cons]
            simp only [h'.element]
            exact hs''
      rw [firstOf_cons, List.tail_cons, checkNeighborStatusListLoop, h.element]
      simp only [Eval.ok_bind]
      by_cases hold : TRANS_ID_MAX_LIFETIME < now - v.offerSentTime
      · obtain ⟨s₁, hs₁, h₁⟩ := transactionUnlink_holds h
        obtain ⟨s', hs', h'⟩ := hrest h₁
        refine ⟨s', ?_, ?_⟩
        · simp only [if_pos hold, hs₁, Eval.ok_bind]
          exact hs'
        · rwa [List.filter_cons_of_neg (by simpa only [decide_eq_true_eq, not_not] using hold)]
      · have h₁ : s.Holds ((pre ++ [(p, v)]) ++ post) := by simpa using h
        obtain ⟨s', hs', h'⟩ := hrest h₁
        refine ⟨s', ?_, ?_⟩
        · simp only [if_neg hold, Eval.pure_eq_ok, Eval.ok_bind]
          exact hs'
        · rw [List.append_assoc] at h'
          rwa [List.filter_cons_of_pos (by simpa only [decide_eq_true_eq] using hold)]

/-- **The check** drops the old elements. -/
theorem checkNeighborStatusList_holds (now : ℤ) (h : s.Holds l) (hn : l.length ≤ n) :
    ∃ s', s.checkNeighborStatusList n now = .ok s' ∧ s'.Holds (l.filter fun e =>
      ¬TRANS_ID_MAX_LIFETIME < now - e.2.offerSentTime) := by
  obtain ⟨s', hs', h'⟩ := checkNeighborStatusListLoop_holds now (show s.Holds ([] ++ l) from h) hn
  refine ⟨s', ?_, h'⟩
  rw [checkNeighborStatusList, h.head]
  cases l with
  | nil =>
      rw [← hs']
      cases n <;> rfl
  | cons e l =>
      obtain ⟨p, v⟩ := e
      rw [firstOf_cons]
      simp only [Holds.element (show s.Holds ([] ++ (p, v) :: l) from h)]
      exact hs'

/-- The walk for an id finds the first element that has it. -/
lemma findTransaction_holds (transId : UInt16) (h : s.Holds (pre ++ post))
    (hn : post.length ≤ n) :
    findTransaction transId n s (firstOf post none)
      = .ok ((post.find? fun e => e.2.transId = transId).map Prod.fst) := by
  induction post generalizing pre n with
  | nil => cases n <;> rfl
  | cons e post ih =>
      obtain ⟨p, v⟩ := e
      obtain ⟨n, rfl⟩ : ∃ k, n = k + 1 := ⟨n - 1, by simp at hn; omega⟩
      rw [firstOf_cons, findTransaction, h.element]
      simp only [Eval.ok_bind]
      by_cases hid : v.transId = transId
      · simp [hid]
      · have h₁ : s.Holds ((pre ++ [(p, v)]) ++ post) := by simpa using h
        rw [if_neg hid, ih h₁ (by simpa using hn)]
        simp [hid]

/-- What the walk finds, in terms of the list. -/
lemma findTransaction_cases (transId : UInt16) (h : s.Holds l) (hn : l.length ≤ n) :
    (findTransaction transId n s s.stl = .ok none ∧ ∀ e ∈ l, e.2.transId ≠ transId)
      ∨ ∃ pre p v post, l = pre ++ (p, v) :: post ∧ v.transId = transId
        ∧ (∀ e ∈ pre, e.2.transId ≠ transId)
        ∧ findTransaction transId n s s.stl = .ok (some p) := by
  have hfind := findTransaction_holds transId (show s.Holds ([] ++ l) from h) hn
  rw [h.head, hfind]
  cases hl : l.find? fun e => e.2.transId = transId with
  | none =>
      refine Or.inl ⟨rfl, fun e he => ?_⟩
      simpa using List.find?_eq_none.mp hl e he
  | some e =>
      obtain ⟨hid, pre, post, rfl, hpre⟩ := List.find?_eq_some_iff_append.mp hl
      exact Or.inr ⟨pre, e.1, e.2, post, rfl, by simpa using hid,
        fun e he => by simpa using hpre e he, rfl⟩

end Holds

/-! ## The functions on a list -/

section Functions

variable {s : TransactionMemory ID} {l : List (ℕ × ServiceTime ID)} {n : ℕ}

/-- **A transaction is created** in front of those that are not old. -/
theorem transactionCreate_holds (id : ID) (tcheck now : ℤ) {stl2 : ℕ} (h : s.Holds l)
    (hn : l.length ≤ n)
    (hfresh : ∀ s', s.checkNeighborStatusList n tcheck = .ok s' → s'.cells stl2 = none) :
    ∃ s' l', s.transactionCreate n id tcheck now stl2
        = .ok (s', (PeerStreamer.transactionCreate (l.map Prod.snd) id tcheck now).2)
      ∧ s'.Holds l'
      ∧ l'.map Prod.snd = (PeerStreamer.transactionCreate (l.map Prod.snd) id tcheck now).1 := by
  obtain ⟨s₁, hs₁, h₁⟩ := checkNeighborStatusList_holds tcheck h hn
  have hkept : (l.filter fun e => ¬TRANS_ID_MAX_LIFETIME < tcheck - e.2.offerSentTime).map Prod.snd
      = PeerStreamer.checkNeighborStatusList (l.map Prod.snd) tcheck := by
    rw [PeerStreamer.checkNeighborStatusList, List.filter_map]
    rfl
  have hcell : s₁.cells stl2 = none := hfresh s₁ hs₁
  rw [TransactionMemory.transactionCreate, hs₁, PeerStreamer.transactionCreate, ← hkept]
  generalize (l.filter fun e => ¬TRANS_ID_MAX_LIFETIME < tcheck - e.2.offerSentTime) = kept at h₁
  simp only [Eval.ok_bind]
  cases kept with
  | nil =>
      have hhead : s₁.stl = none := h₁.head
      have hpush := h₁.push (v := ⟨1, now, none, id⟩) hcell
      rw [hhead] at hpush ⊢
      exact ⟨⟨_, some stl2⟩, _, rfl, hpush, rfl⟩
  | cons e kept =>
      obtain ⟨q, w⟩ := e
      have hhead : s₁.stl = some q := h₁.head
      have hfirst : s₁.element q = _ :=
        Holds.element (show s₁.Holds ([] ++ (q, w) :: kept) from h₁)
      have hset := setBackward_eq (s := s₁) (p := q) (h₁.linked.firstOf_live rfl) (some stl2)
      have hpush := h₁.push (v := ⟨if w.transId.toNat + 1 ≠ 0 then
        UInt16.ofNat (w.transId.toNat + 1) else 1, now, none, id⟩) hcell
      rw [hhead] at hpush ⊢
      refine ⟨⟨_, some stl2⟩, _, ?_, hpush, rfl⟩
      simp only [hfirst, hset, Eval.ok_bind]
      rfl

/-- Transactions with other ids are passed over. -/
lemma transactionRegAccept_append {transId : UInt16} (hvalid : transId ≠ INVALID_TRANSID) (now : ℤ)
    {pre post : List (ServiceTime ID)} (hpre : ∀ v ∈ pre, v.transId ≠ transId) :
    PeerStreamer.transactionRegAccept (pre ++ post) transId now
      = pre ++ PeerStreamer.transactionRegAccept post transId now := by
  induction pre with
  | nil => rfl
  | cons v pre ih =>
      rw [List.cons_append, PeerStreamer.transactionRegAccept, if_neg hvalid,
        if_neg (hpre v List.mem_cons_self), ih fun w hw => hpre w (List.mem_cons_of_mem v hw)]
      rfl

/-- **An accept is registered** with the first transaction that has the id. -/
theorem transactionRegAccept_holds (transId : UInt16) (now : ℤ) (h : s.Holds l)
    (hn : l.length ≤ n) :
    ∃ s' l', s.transactionRegAccept n transId now = .ok s' ∧ s'.Holds l'
      ∧ l'.map Prod.snd = PeerStreamer.transactionRegAccept (l.map Prod.snd) transId now := by
  by_cases hvalid : transId = INVALID_TRANSID
  · refine ⟨s, l, ?_, h, ?_⟩
    · rw [TransactionMemory.transactionRegAccept, if_pos hvalid]
      rfl
    · cases l <;> simp [PeerStreamer.transactionRegAccept, hvalid]
  · rw [TransactionMemory.transactionRegAccept, if_neg hvalid]
    rcases findTransaction_cases transId h hn with
      ⟨hfind, hnone⟩ | ⟨pre, p, v, post, rfl, hid, hpre, hfind⟩
    · refine ⟨s, l, ?_, h, ?_⟩
      · rw [hfind]
        rfl
      · have hpre : ∀ v ∈ l.map Prod.snd, v.transId ≠ transId := by
          simpa using fun v p hv => hnone (p, v) hv
        rw [← List.append_nil (l.map Prod.snd), transactionRegAccept_append hvalid now hpre,
          PeerStreamer.transactionRegAccept, if_neg hvalid, List.append_nil]
    · have hset := h.setVal { v with acceptReceivedTime := some now }
      refine ⟨⟨_, s.stl⟩, _, ?_, hset, ?_⟩
      · rw [hfind]
        simp only [Eval.ok_bind, h.element]
        rfl
      · rw [List.map_append, List.map_append, List.map_cons, List.map_cons,
          transactionRegAccept_append hvalid now (by simpa using fun v p hv => hpre (p, v) hv),
          PeerStreamer.transactionRegAccept, if_neg hvalid, if_pos hid]

/-- **A transaction is removed**, the first that has the id. -/
theorem transactionRemove_holds (transId : UInt16) (h : s.Holds l) (hn : l.length ≤ n) :
    ∃ s' l', s.transactionRemove n transId = .ok (s',
        ((l.map Prod.snd).find? (·.transId = transId)).map ServiceTime.acceptReceivedTime)
      ∧ s'.Holds l'
      ∧ l'.map Prod.snd = PeerStreamer.transactionRemove (l.map Prod.snd) transId := by
  rw [TransactionMemory.transactionRemove, PeerStreamer.transactionRemove]
  rcases findTransaction_cases transId h hn with
    ⟨hfind, hnone⟩ | ⟨pre, p, v, post, rfl, hid, hpre, hfind⟩
  · have hnone' : ∀ v ∈ l.map Prod.snd, v.transId ≠ transId := by
      simpa using fun v p hv => hnone (p, v) hv
    refine ⟨s, l, ?_, h, (List.eraseP_of_forall_not (by simpa using hnone')).symm⟩
    rw [hfind, List.find?_eq_none.mpr (by simpa using hnone')]
    rfl
  · have hpre' : ∀ v ∈ pre.map Prod.snd, v.transId ≠ transId := by
      simpa using fun v p hv => hpre (p, v) hv
    obtain ⟨s', hs', h'⟩ := transactionUnlink_holds h
    refine ⟨s', pre ++ post, ?_, h', ?_⟩
    · rw [List.map_append, List.find?_append, List.find?_eq_none.mpr (by simpa using hpre'),
        hfind]
      simp only [Eval.ok_bind, h.element, hs']
      simp [hid]
    · rw [List.map_append, List.map_append, List.map_cons,
        List.eraseP_append_right _ (by simpa using hpre'),
        List.eraseP_cons_of_pos (by simpa using hid)]

/-- **All transactions are removed.** -/
theorem transactionDestroy_holds (h : s.Holds l) (hn : l.length ≤ n) :
    ∃ s', s.transactionDestroy n = .ok s' ∧ s'.Holds [] := by
  induction l generalizing s n with
  | nil =>
      have hhead : s.stl = none := h.head
      refine ⟨s, ?_, h⟩
      cases n <;> simp [transactionDestroy, hhead]
  | cons e l ih =>
      obtain ⟨p, v⟩ := e
      obtain ⟨n, rfl⟩ : ∃ k, n = k + 1 := ⟨n - 1, by simp at hn; omega⟩
      obtain ⟨s₁, hs₁, h₁⟩ := transactionUnlink_holds (show s.Holds ([] ++ (p, v) :: l) from h)
      obtain ⟨s', hs', h'⟩ := ih h₁ (by simpa using hn)
      refine ⟨s', ?_, h'⟩
      have hhead : s.stl = some p := h.head
      rw [transactionDestroy, hhead]
      simp only [hs₁, Eval.ok_bind, hs']

end Functions

/-! ## Runs -/

/-- A call, with the readings of the clock that it makes and the address that `malloc` returns. -/
inductive Call (ID : Type)
  | create (id : ID) (tcheck now : ℤ) (stl2 : ℕ)
  | regAccept (transId : UInt16) (now : ℤ)
  | remove (transId : UInt16)
  | check (now : ℤ)
  | destroy

/-- What a call answers: the id of a new transaction, or the time of the accept of a removed one. -/
inductive Answer
  | created (transId : UInt16)
  | removed (acceptReceivedTime : Option (Option ℤ))
  | nothing
  deriving DecidableEq, Repr

/-- One call in memory, with so many rounds for each walk. -/
def callStep (rounds : ℕ) (s : TransactionMemory ID) :
    Call ID → Walk (TransactionMemory ID × Answer)
  | .create id tcheck now stl2 => do
      let (s, transId) ← s.transactionCreate rounds id tcheck now stl2
      return (s, .created transId)
  | .regAccept transId now => do
      let s ← s.transactionRegAccept rounds transId now
      return (s, .nothing)
  | .remove transId => do
      let (s, acceptReceivedTime) ← s.transactionRemove rounds transId
      return (s, .removed acceptReceivedTime)
  | .check now => do
      let s ← s.checkNeighborStatusList rounds now
      return (s, .nothing)
  | .destroy => do
      let s ← s.transactionDestroy rounds
      return (s, .nothing)

/-- One call on a list. -/
def listStep (stl : List (ServiceTime ID)) : Call ID → List (ServiceTime ID) × Answer
  | .create id tcheck now _ =>
      let (stl, transId) := PeerStreamer.transactionCreate stl id tcheck now
      (stl, .created transId)
  | .regAccept transId now => (PeerStreamer.transactionRegAccept stl transId now, .nothing)
  | .remove transId =>
      (PeerStreamer.transactionRemove stl transId,
        .removed ((stl.find? (·.transId = transId)).map ServiceTime.acceptReceivedTime))
  | .check now => (PeerStreamer.checkNeighborStatusList stl now, .nothing)
  | .destroy => ([], .nothing)

/-- `malloc` returns memory that is not in use. -/
def MallocFresh (rounds : ℕ) (s : TransactionMemory ID) : Call ID → Prop
  | .create _ tcheck _ stl2 =>
      ∀ s', s.checkNeighborStatusList rounds tcheck = .ok s' → s'.cells stl2 = none
  | _ => True

instance (rounds : ℕ) (s : TransactionMemory ID) : (call : Call ID) →
    Decidable (MallocFresh rounds s call)
  | .create _ tcheck _ stl2 =>
      match hs : s.checkNeighborStatusList rounds tcheck with
      | .ok s' => decidable_of_iff (s'.cells stl2 = none)
          ⟨fun h s'' hs'' => by rw [hs] at hs''; cases hs''; exact h, fun h => h s' hs⟩
      | .error _ => isTrue fun s'' hs'' => by rw [hs] at hs''; cases hs''
  | .regAccept _ _ => isTrue trivial
  | .remove _ => isTrue trivial
  | .check _ => isTrue trivial
  | .destroy => isTrue trivial

/-- Memory holds a doubly linked list of the transactions `stl`, whose links are as they should be,
in which no address occurs twice, and besides which nothing is allocated. -/
def Refines (s : TransactionMemory ID) (stl : List (ServiceTime ID)) : Prop :=
  ∃ l, s.Holds l ∧ l.map Prod.snd = stl ∧ WellLinked s.cells s.stl ∧ (l.map Prod.fst).Nodup

section Runs

variable {s : TransactionMemory ID} {stl : List (ServiceTime ID)} {l : List (ℕ × ServiceTime ID)}
  {rounds : ℕ}

lemma Holds.refines (h : s.Holds l) : s.Refines (l.map Prod.snd) := ⟨l, h, rfl, h.links, h.nodup⟩

/-- **One call** does in memory what it does on the list. -/
theorem callStep_refines (call : Call ID) (h : s.Refines stl) (hrounds : stl.length ≤ rounds)
    (hmalloc : MallocFresh rounds s call) :
    ∃ s', s.callStep rounds call = .ok (s', (listStep stl call).2)
      ∧ s'.Refines (listStep stl call).1 := by
  obtain ⟨l, hl, rfl, -, -⟩ := h
  rw [List.length_map] at hrounds
  cases call with
  | create id tcheck now stl2 =>
      obtain ⟨s', l', hs', h', hl'⟩ := transactionCreate_holds id tcheck now hl hrounds hmalloc
      refine ⟨s', by rw [callStep, hs']; rfl, ?_⟩
      rw [listStep, ← hl']
      exact h'.refines
  | regAccept transId now =>
      obtain ⟨s', l', hs', h', hl'⟩ := transactionRegAccept_holds transId now hl hrounds
      refine ⟨s', by rw [callStep, hs']; rfl, ?_⟩
      rw [listStep, ← hl']
      exact h'.refines
  | remove transId =>
      obtain ⟨s', l', hs', h', hl'⟩ := transactionRemove_holds transId hl hrounds
      refine ⟨s', by rw [callStep, hs']; rfl, ?_⟩
      rw [listStep, ← hl']
      exact h'.refines
  | check now =>
      obtain ⟨s', hs', h'⟩ := checkNeighborStatusList_holds now hl hrounds
      refine ⟨s', by rw [callStep, hs']; rfl, ?_⟩
      rw [listStep, PeerStreamer.checkNeighborStatusList, List.filter_map]
      exact h'.refines
  | destroy =>
      obtain ⟨s', hs', h'⟩ := transactionDestroy_holds hl hrounds
      exact ⟨s', by rw [callStep, hs']; rfl, h'.refines⟩

lemma length_transactionRegAccept (stl : List (ServiceTime ID)) (transId : UInt16) (now : ℤ) :
    (PeerStreamer.transactionRegAccept stl transId now).length = stl.length := by
  induction stl with
  | nil => simp [PeerStreamer.transactionRegAccept]
  | cons st stl ih =>
      rw [PeerStreamer.transactionRegAccept]
      split_ifs
      · rfl
      · rfl
      · rw [List.length_cons, List.length_cons, ih]

/-- A call makes the list longer by at most one. -/
lemma length_listStep (stl : List (ServiceTime ID)) (call : Call ID) :
    (listStep stl call).1.length ≤ stl.length + 1 := by
  cases call with
  | create id tcheck now stl2 => exact Nat.succ_le_succ (List.length_filter_le _ _)
  | regAccept transId now =>
      rw [listStep, length_transactionRegAccept]
      exact Nat.le_succ _
  | remove transId => exact (List.eraseP_sublist.length_le).trans (Nat.le_succ _)
  | check now => exact (List.length_filter_le _ _).trans (Nat.le_succ _)
  | destroy => exact Nat.zero_le _

/-- A run from memory that holds a list. -/
lemma exec_callStep_refines {calls : List (Call ID)} (h : s.Refines stl)
    (hrounds : stl.length + calls.length ≤ rounds)
    (hmalloc : Along (callStep rounds) (MallocFresh rounds) s calls) :
    ∃ s', exec (callStep rounds) s calls = .ok (s', outputs listStep stl calls)
      ∧ s'.Refines (final listStep stl calls) := by
  induction calls generalizing s stl with
  | nil => exact ⟨s, rfl, h⟩
  | cons call calls ih =>
      rw [List.length_cons] at hrounds
      obtain ⟨s₁, hs₁, h₁⟩ := callStep_refines call h (by omega) hmalloc.1
      have hlen := length_listStep stl call
      obtain ⟨s', hs', h'⟩ := ih h₁ (by omega) (hmalloc.2 s₁ _ hs₁)
      exact ⟨s', exec_cons_eq_ok.mpr ⟨s₁, _, _, hs₁, hs', rfl⟩, h'⟩

end Runs

end TransactionMemory

end PeerStreamer
