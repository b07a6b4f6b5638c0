import PeerStreamer.Foundation.Eval
import PeerStreamer.Foundation.Run
import PeerStreamer.Streaming.Transaction

/-!
# The ids of transactions

The id of a new transaction is the one of the newest transaction in the list plus one, cut to 16
bits.  The test that is to keep it from being zero looks at the sum before it is cut, so that a new
transaction gets an id that is valid and that no other has exactly as long as the newest one never
has the id `65535` (`transaction_ids_iff`).

That no other transaction has it is true of any run in which fewer than `65535` transactions are
created while one is in the list (`transaction_ids_unique`).
-/

namespace PeerStreamer

/-! ## Runs -/

/-- A call, with the readings of the clock that it makes. -/
inductive TransactionOp (ID : Type)
  | create (id : ID) (tcheck now : ℤ)
  | regAccept (transId : UInt16) (now : ℤ)
  | remove (transId : UInt16)

/-- The transactions, and how many have been created.  The node of each carries the number that had
been created before it, which the code does not look at. -/
structure Transactions (ID : Type) where
  stl : List (ServiceTime (ID × ℕ))
  created : ℕ

variable {ID : Type}

/-- The empty list. -/
def noTransactions : Transactions ID := ⟨[], 0⟩

/-- One call, and the id it answers with, if any. -/
def transactionStep (s : Transactions ID) :
    TransactionOp ID → Eval (Transactions ID × Option UInt16)
  | .create id tcheck now =>
      let (stl, transId) := transactionCreate s.stl (id, s.created) tcheck now
      .ok (⟨stl, s.created + 1⟩, some transId)
  | .regAccept transId now => .ok (⟨transactionRegAccept s.stl transId now, s.created⟩, none)
  | .remove transId => .ok (⟨transactionRemove s.stl transId, s.created⟩, none)

/-- A new transaction gets a valid id. -/
def ValidId (s : Transactions ID) : TransactionOp ID → Prop
  | .create id tcheck now =>
      (transactionCreate s.stl (id, s.created) tcheck now).2 ≠ INVALID_TRANSID
  | _ => True

/-- A new transaction gets an id that no other transaction in the list has. -/
def UniqueId (s : Transactions ID) : TransactionOp ID → Prop
  | .create id tcheck now =>
      ∀ st ∈ (transactionCreate s.stl (id, s.created) tcheck now).1.tail,
        st.transId ≠ (transactionCreate s.stl (id, s.created) tcheck now).2
  | _ => True

/-- The newest transaction, after the check, does not have the last id. -/
def NotLast (s : Transactions ID) : TransactionOp ID → Prop
  | .create _ tcheck _ =>
      ∀ st, (checkNeighborStatusList s.stl tcheck).head? = some st → st.transId ≠ 65535
  | _ => True

/-- With this call fewer than `65535` transactions have been created in the life of any one that is
in the list after the check. -/
def ShortLived (s : Transactions ID) : TransactionOp ID → Prop
  | .create _ tcheck _ =>
      ∀ st ∈ checkNeighborStatusList s.stl tcheck, s.created - st.id.2 < 65535
  | _ => True

/-! ## What the calls do to the ids -/

section Ids

variable {A : Type} {stl : List (ServiceTime A)} {transId : UInt16}

lemma transactionCreate_fst (stl : List (ServiceTime A)) (id : A) (tcheck now : ℤ) :
    (transactionCreate stl id tcheck now).1
      = ⟨(transactionCreate stl id tcheck now).2, now, none, id⟩
        :: checkNeighborStatusList stl tcheck := rfl

/-- The id of a new transaction: the first one, or one more than the newest. -/
lemma transactionCreate_snd (stl : List (ServiceTime A)) (id : A) (tcheck now : ℤ) :
    (transactionCreate stl id tcheck now).2
      = (checkNeighborStatusList stl tcheck).head?.elim 1 (·.transId + 1) := by
  rw [transactionCreate]
  cases checkNeighborStatusList stl tcheck with
  | nil => rfl
  | cons st stl =>
      have hsum : st.transId.toNat + 1 ≠ 0 := Nat.succ_ne_zero _
      simp only [hsum, ne_eq, not_false_eq_true, if_true, List.head?_cons, Option.elim_some]
      rw [UInt16.ofNat_add, UInt16.ofNat_toNat]
      rfl

lemma checkNeighborStatusList_sublist (stl : List (ServiceTime A)) (now : ℤ) :
    (checkNeighborStatusList stl now).Sublist stl := List.filter_sublist

lemma transactionRemove_sublist (stl : List (ServiceTime A)) (transId : UInt16) :
    (transactionRemove stl transId).Sublist stl := List.eraseP_sublist

/-- The accept of a transaction changes neither ids nor nodes. -/
lemma transactionRegAccept_map (stl : List (ServiceTime A)) (transId : UInt16) (now : ℤ) :
    (transactionRegAccept stl transId now).map (fun st => (st.transId, st.id))
      = stl.map fun st => (st.transId, st.id) := by
  induction stl with
  | nil => rw [transactionRegAccept]; split <;> rfl
  | cons st stl ih =>
      rw [transactionRegAccept]
      split_ifs with h₀ h
      · rfl
      · rfl
      · rw [List.map_cons, List.map_cons, ih]

/-- One more than an id that is not the last one. -/
lemma lt_add_one_of_ne_last {x : UInt16} (h : x ≠ 65535) : x < x + 1 := by
  have hne : x.toNat ≠ 65535 := fun he => h (UInt16.toNat_inj.mp he)
  have hlt := x.toNat_lt
  rw [UInt16.lt_iff_toNat_lt, UInt16.toNat_add, UInt16.toNat_one]
  omega

lemma add_ofNat_ne_self (x : UInt16) {d : ℕ} (hpos : 0 < d) (hd : d < 2 ^ 16) :
    x + UInt16.ofNat d ≠ x := by
  intro h
  have hnat := congrArg UInt16.toNat h
  have hlt := x.toNat_lt
  rw [UInt16.toNat_add, UInt16.toNat_ofNat', Nat.mod_eq_of_lt hd] at hnat
  omega

end Ids

/-! ## Invariants -/

section Invariants

variable {s s' : Transactions ID} {op : TransactionOp ID} {b : Option UInt16}

/-- The id of a transaction and its number. -/
def ServiceTime.key (st : ServiceTime (ID × ℕ)) : UInt16 × ℕ := (st.transId, st.id.2)

/-- The transactions that are left by the check. -/
def Transactions.left (s : Transactions ID) (tcheck : ℤ) : List (UInt16 × ℕ) :=
  (checkNeighborStatusList s.stl tcheck).map ServiceTime.key

lemma Transactions.left_sublist (s : Transactions ID) (tcheck : ℤ) :
    (s.left tcheck).Sublist (s.stl.map ServiceTime.key) :=
  (checkNeighborStatusList_sublist s.stl tcheck).map _

/-- The id of a transaction that is created now. -/
def Transactions.nextId (s : Transactions ID) (tcheck : ℤ) : UInt16 :=
  (s.left tcheck).head?.elim 1 (·.1 + 1)

lemma transactionCreate_nextId (s : Transactions ID) (id : ID × ℕ) (tcheck now : ℤ) :
    (transactionCreate s.stl id tcheck now).2 = s.nextId tcheck := by
  rw [transactionCreate_snd, Transactions.nextId, Transactions.left, List.head?_map]
  cases (checkNeighborStatusList s.stl tcheck).head? <;> rfl

/-- **What a call does**: it takes transactions away, or creates one. -/
lemma transactionStep_cases (h : transactionStep s op = .ok (s', b)) :
    ((s'.stl.map ServiceTime.key).Sublist (s.stl.map ServiceTime.key) ∧ s'.created = s.created)
      ∨ ∃ id tcheck now, op = .create id tcheck now
        ∧ s'.stl.map ServiceTime.key = (s.nextId tcheck, s.created) :: s.left tcheck
        ∧ s'.created = s.created + 1 := by
  cases op with
  | create id tcheck now =>
      cases h
      refine Or.inr ⟨id, tcheck, now, rfl, ?_, rfl⟩
      change (transactionCreate s.stl (id, s.created) tcheck now).1.map ServiceTime.key = _
      rw [transactionCreate_fst, List.map_cons, transactionCreate_nextId]
      rfl
  | regAccept transId now =>
      cases h
      have hkeys : (transactionRegAccept s.stl transId now).map ServiceTime.key
          = s.stl.map ServiceTime.key := by
        have hmap := congrArg (List.map fun k : UInt16 × ID × ℕ => (k.1, k.2.2))
          (transactionRegAccept_map s.stl transId now)
        rwa [List.map_map, List.map_map] at hmap
      exact Or.inl ⟨hkeys ▸ List.Sublist.refl _, rfl⟩
  | remove transId =>
      cases h
      exact Or.inl ⟨(transactionRemove_sublist s.stl transId).map _, rfl⟩

/-- The ids are valid, and those of newer transactions are larger. -/
structure IdsOrdered (s : Transactions ID) : Prop where
  valid : ∀ k ∈ s.stl.map ServiceTime.key, k.1 ≠ INVALID_TRANSID
  ordered : (s.stl.map ServiceTime.key).Pairwise fun k k' => k'.1 < k.1

/-- Two transactions are not further apart by their ids than by their numbers. -/
structure IdsNumbered (s : Transactions ID) : Prop where
  past : ∀ k ∈ s.stl.map ServiceTime.key, k.2 < s.created
  apart : (s.stl.map ServiceTime.key).Pairwise fun k k' =>
    ∃ d, 0 < d ∧ k'.2 + d ≤ k.2 ∧ k.1 = k'.1 + UInt16.ofNat d

lemma noTransactions_ordered : IdsOrdered (noTransactions : Transactions ID) :=
  ⟨fun _ hk => absurd hk List.not_mem_nil, List.Pairwise.nil⟩

lemma noTransactions_numbered : IdsNumbered (noTransactions : Transactions ID) :=
  ⟨fun _ hk => absurd hk List.not_mem_nil, List.Pairwise.nil⟩

lemma IdsOrdered.sublist (h : IdsOrdered s)
    (hsub : (s'.stl.map ServiceTime.key).Sublist (s.stl.map ServiceTime.key)) : IdsOrdered s' :=
  ⟨fun k hk => h.valid k (hsub.subset hk), h.ordered.sublist hsub⟩

lemma IdsNumbered.sublist (h : IdsNumbered s)
    (hsub : (s'.stl.map ServiceTime.key).Sublist (s.stl.map ServiceTime.key))
    (hcreated : s'.created = s.created) : IdsNumbered s' :=
  ⟨fun k hk => hcreated ▸ h.past k (hsub.subset hk), h.apart.sublist hsub⟩

/-- While the last id is not reached, a new id is larger than all others. -/
lemma IdsOrdered.nextId (h : IdsOrdered s) {tcheck : ℤ}
    (hlast : ∀ k, (s.left tcheck).head? = some k → k.1 ≠ 65535) :
    s.nextId tcheck ≠ INVALID_TRANSID ∧ ∀ k ∈ s.left tcheck, k.1 < s.nextId tcheck := by
  have hordered := h.ordered.sublist (s.left_sublist tcheck)
  rw [Transactions.nextId]
  cases hleft : s.left tcheck with
  | nil => exact ⟨by decide, fun _ hk => absurd hk List.not_mem_nil⟩
  | cons newest rest =>
      rw [hleft] at hlast hordered
      have hlt : newest.1 < newest.1 + 1 := lt_add_one_of_ne_last (hlast newest rfl)
      refine ⟨fun hzero => ?_, fun k hk => ?_⟩
      · rw [List.head?_cons, Option.elim_some, INVALID_TRANSID] at hzero
        rw [hzero, UInt16.lt_iff_toNat_lt] at hlt
        exact absurd hlt (Nat.not_lt_zero _)
      · rcases List.mem_cons.mp hk with rfl | hk
        · exact hlt
        · exact UInt16.lt_trans (List.rel_of_pairwise_cons hordered hk) hlt

/-- A new id is further ahead than the one of the newest transaction. -/
lemma IdsNumbered.nextId (h : IdsNumbered s) {tcheck : ℤ} :
    ∀ k ∈ s.left tcheck,
      ∃ d, 0 < d ∧ k.2 + d ≤ s.created ∧ s.nextId tcheck = k.1 + UInt16.ofNat d := by
  have hsub := s.left_sublist tcheck
  have hapart := h.apart.sublist hsub
  rw [Transactions.nextId]
  cases hleft : s.left tcheck with
  | nil => exact fun _ hk => absurd hk List.not_mem_nil
  | cons newest rest =>
      rw [hleft] at hapart hsub
      have hpast := h.past newest (hsub.subset List.mem_cons_self)
      intro k hk
      rcases List.mem_cons.mp hk with rfl | hk
      · exact ⟨1, one_pos, hpast, rfl⟩
      · obtain ⟨d, hd, hle, hid⟩ := List.rel_of_pairwise_cons hapart hk
        refine ⟨d + 1, Nat.succ_pos d, by omega, ?_⟩
        rw [List.head?_cons, Option.elim_some, hid, UInt16.ofNat_add, UInt16.add_assoc]
        rfl

end Invariants

/-! ## Validity and uniqueness -/

section Properties

variable {s s' : Transactions ID} {op : TransactionOp ID} {b : Option UInt16}

lemma validId_create {id : ID} {tcheck now : ℤ} :
    ValidId s (.create id tcheck now) ↔ s.nextId tcheck ≠ INVALID_TRANSID := by
  rw [ValidId, transactionCreate_nextId]

lemma uniqueId_create {id : ID} {tcheck now : ℤ} :
    UniqueId s (.create id tcheck now) ↔ ∀ k ∈ s.left tcheck, k.1 ≠ s.nextId tcheck := by
  rw [UniqueId, transactionCreate_nextId, transactionCreate_fst, List.tail_cons, Transactions.left,
    List.forall_mem_map]
  rfl

lemma notLast_create {id : ID} {tcheck now : ℤ} :
    NotLast s (.create id tcheck now)
      ↔ ∀ k, (s.left tcheck).head? = some k → k.1 ≠ 65535 := by
  rw [NotLast, Transactions.left, List.head?_map]
  cases (checkNeighborStatusList s.stl tcheck).head? with
  | none => simp
  | some st => simp [ServiceTime.key]

lemma IdsOrdered.step (h : IdsOrdered s) (hlast : NotLast s op)
    (hstep : transactionStep s op = .ok (s', b)) : IdsOrdered s' := by
  rcases transactionStep_cases hstep with ⟨hsub, -⟩ | ⟨id, tcheck, now, rfl, hkeys, -⟩
  · exact h.sublist hsub
  · obtain ⟨hvalid, hlt⟩ := h.nextId (notLast_create.mp hlast)
    constructor
    · rw [hkeys]
      intro k hk
      rcases List.mem_cons.mp hk with rfl | hk
      · exact hvalid
      · exact h.valid k ((s.left_sublist tcheck).subset hk)
    · rw [hkeys]
      exact List.pairwise_cons.mpr ⟨hlt, h.ordered.sublist (s.left_sublist tcheck)⟩

lemma IdsNumbered.step (h : IdsNumbered s) (hstep : transactionStep s op = .ok (s', b)) :
    IdsNumbered s' := by
  rcases transactionStep_cases hstep with ⟨hsub, hcreated⟩ | ⟨id, tcheck, now, rfl, hkeys, hcreated⟩
  · exact h.sublist hsub hcreated
  · constructor
    · rw [hkeys, hcreated]
      intro k hk
      rcases List.mem_cons.mp hk with rfl | hk
      · exact Nat.lt_succ_self _
      · exact Nat.lt_succ_of_lt (h.past k ((s.left_sublist tcheck).subset hk))
    · rw [hkeys]
      exact List.pairwise_cons.mpr ⟨h.nextId, h.apart.sublist (s.left_sublist tcheck)⟩

/-- As long as the ids are ordered, a new one is valid and unique unless the last one is reached. -/
lemma IdsOrdered.valid_and_unique_iff (h : IdsOrdered s) (op : TransactionOp ID) :
    ValidId s op ∧ UniqueId s op ↔ NotLast s op := by
  cases op with
  | create id tcheck now =>
      rw [validId_create, uniqueId_create, notLast_create]
      constructor
      · rintro ⟨hvalid, -⟩ k hk hlast
        rw [Transactions.nextId, hk, Option.elim_some, hlast] at hvalid
        exact hvalid (by decide)
      · intro hlast
        obtain ⟨hvalid, hlt⟩ := h.nextId hlast
        exact ⟨hvalid, fun k hk => UInt16.ne_of_lt (hlt k hk)⟩
  | regAccept transId now => exact Iff.intro (fun _ => trivial) fun _ => ⟨trivial, trivial⟩
  | remove transId => exact Iff.intro (fun _ => trivial) fun _ => ⟨trivial, trivial⟩

/-- A transaction that is short-lived is never caught up with. -/
lemma IdsNumbered.uniqueId (h : IdsNumbered s) (op : TransactionOp ID) (hlife : ShortLived s op) :
    UniqueId s op := by
  cases op with
  | create id tcheck now =>
      rw [uniqueId_create]
      intro k hk hsame
      obtain ⟨d, hd, hle, hid⟩ := h.nextId k hk
      obtain ⟨st, hst, rfl⟩ := List.mem_map.mp hk
      have hfew : s.created - st.id.2 < 65535 := hlife st hst
      change st.id.2 + d ≤ s.created at hle
      exact add_ofNat_ne_self _ hd (by omega) (hid.symm.trans hsame.symm)
  | regAccept transId now => trivial
  | remove transId => trivial

end Properties

/-- **When the ids are valid and unique**: as long as no transaction is created while the newest one
has the last id. -/
theorem transaction_ids_iff (ops : List (TransactionOp ID)) :
    Along transactionStep (fun s op => ValidId s op ∧ UniqueId s op) noTransactions ops
      ↔ Along transactionStep NotLast noTransactions ops :=
  along_congr (fun _ op h => h.valid_and_unique_iff op)
    (fun _ _ _ _ h hlast hstep => h.step hlast hstep) noTransactions_ordered ops

/-- **No two transactions share an id** in any run in which they are all short-lived, valid or
not. -/
theorem transaction_ids_unique (ops : List (TransactionOp ID))
    (hlife : Along transactionStep ShortLived noTransactions ops) :
    Along transactionStep UniqueId noTransactions ops :=
  along_imp (fun _ op h hshort => h.uniqueId op hshort)
    (fun _ _ _ _ h _ hstep => h.step hstep) noTransactions_numbered hlife

/-! ## After 65535 transactions -/

/-- One transaction, which is the one with the number `k`. -/
def oneLeft (k : ℕ) : Transactions Unit := ⟨[⟨UInt16.ofNat (k + 1), 0, none, ((), k)⟩], k + 1⟩

/-- A transaction is created and the one before it removed, `n` times, and then one more is
created. -/
def rounds (k : ℕ) : ℕ → List (TransactionOp Unit)
  | 0 => [.create () 0 0]
  | n + 1 => .create () 0 0 :: .remove (UInt16.ofNat (k + 1)) :: rounds (k + 1) n

lemma oneLeft_check (k : ℕ) : checkNeighborStatusList (oneLeft k).stl 0 = (oneLeft k).stl :=
  List.filter_eq_self.mpr fun st hst => by
    rw [List.mem_singleton.mp hst]
    rfl

lemma oneLeft_nextId (k : ℕ) : (oneLeft k).nextId 0 = UInt16.ofNat (k + 2) := by
  rw [Transactions.nextId, Transactions.left, oneLeft_check, UInt16.ofNat_add (k + 1) 1]
  rfl

/-- The transaction after it. -/
lemma oneLeft_create (k : ℕ) : transactionStep (oneLeft k) (.create () 0 0)
    = .ok (⟨⟨UInt16.ofNat (k + 2), 0, none, ((), k + 1)⟩ :: (oneLeft k).stl, k + 2⟩,
      some (UInt16.ofNat (k + 2))) := by
  have hid := transactionCreate_nextId (oneLeft k) ((), k + 1) 0 0
  rw [oneLeft_nextId] at hid
  have hstl := transactionCreate_fst (oneLeft k).stl ((), k + 1) 0 0
  rw [hid, oneLeft_check] at hstl
  change Except.ok (Transactions.mk (transactionCreate (oneLeft k).stl ((), k + 1) 0 0).1 (k + 2),
    some (transactionCreate (oneLeft k).stl ((), k + 1) 0 0).2) = _
  rw [hid, hstl]

/-- Once the transaction before it is removed, it is the only one. -/
lemma oneLeft_remove (k : ℕ) :
    transactionStep
        ⟨⟨UInt16.ofNat (k + 2), 0, none, ((), k + 1)⟩ :: (oneLeft k).stl, k + 2⟩
        (.remove (UInt16.ofNat (k + 1)))
      = .ok (oneLeft (k + 1), none) := by
  have hremove : transactionRemove
      (⟨UInt16.ofNat (k + 2), 0, none, ((), k + 1)⟩ :: (oneLeft k).stl) (UInt16.ofNat (k + 1))
      = (oneLeft (k + 1)).stl := by
    rw [transactionRemove, List.eraseP_cons_of_neg (by simp), oneLeft,
      List.eraseP_cons_of_pos (by simp)]
    rfl
  rw [transactionStep, hremove]
  rfl

lemma rounds_shortLived (k n : ℕ) :
    Along transactionStep ShortLived (oneLeft k) (rounds k n) := by
  have hcreate : ∀ k, ShortLived (oneLeft k) (.create () 0 0) := by
    intro k st hst
    rw [oneLeft_check, oneLeft, List.mem_singleton] at hst
    rw [hst]
    change k + 1 - k < 65535
    omega
  induction n generalizing k with
  | zero => exact ⟨hcreate k, fun _ _ _ => trivial⟩
  | succ n ih =>
      refine ⟨hcreate k, fun s' b hstep => ⟨trivial, fun s'' b' hstep' => ?_⟩⟩
      rw [oneLeft_create] at hstep
      cases hstep
      rw [oneLeft_remove] at hstep'
      cases hstep'
      exact ih (k + 1)

/-- The last of them gets the id zero. -/
lemma rounds_not_valid {k n : ℕ} (h : k + n = 65534) :
    ¬Along transactionStep (fun s op => ValidId s op ∧ UniqueId s op) (oneLeft k) (rounds k n) := by
  induction n generalizing k with
  | zero =>
      rintro ⟨⟨hvalid, -⟩, -⟩
      rw [validId_create, oneLeft_nextId, show k = 65534 by omega] at hvalid
      exact hvalid (by decide)
  | succ n ih =>
      rintro ⟨-, hrest⟩
      obtain ⟨-, hrest'⟩ := hrest _ _ (oneLeft_create k)
      exact ih (by omega) (hrest' _ _ (oneLeft_remove k))

/-- `65536` transactions are created one after the other, each before the one before it is
removed. -/
theorem not_transaction_ids :
    ¬∀ ops : List (TransactionOp Unit), Along transactionStep ShortLived noTransactions ops →
      Along transactionStep (fun s op => ValidId s op ∧ UniqueId s op) noTransactions ops := by
  intro h
  have hfirst : transactionStep (noTransactions : Transactions Unit) (.create () 0 0)
      = .ok (oneLeft 0, some 1) := rfl
  have hall := h (.create () 0 0 :: rounds 0 65534) ⟨fun _ hst => absurd hst List.not_mem_nil,
    fun s' b hstep => by
      rw [hfirst] at hstep
      cases hstep
      exact rounds_shortLived 0 65534⟩
  exact rounds_not_valid rfl (hall.2 _ _ hfirst)

end PeerStreamer
