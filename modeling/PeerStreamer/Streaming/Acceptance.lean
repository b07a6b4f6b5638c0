import PeerStreamer.Foundation.ListFacts
import PeerStreamer.Foundation.Run
import PeerStreamer.Streaming.Trader

/-!
# Accepting chunks

What a call of `chunk_trader_handle_offer` does to the lock table (`Selected`), and what follows for
a trader that handles offers of any peers and receives chunks in between: a chunk is not accepted
twice within the lock time, unless it has been received (`no_double_acceptance`).
-/

namespace PeerStreamer

variable {B C ID : Type}

/-! ## Steps of a trader -/

/-- What happens to a trader. -/
inductive TraderOp (C ID : Type)
  | handleOffer (p : ID) (cset : C) (maxDeliver : ℤ)
  | handleAccept (p : ID) (cset : C) (transId : UInt16)
  | handleAck (transId : UInt16)
  | sendOffer (picks : ℕ → List (ID × ℤ))
  | parseChunk (source : ID) (msg : Option (Chunk × UInt16))
  | addChunk (c : Chunk)

/-- A chunk message that holds the chunk `i`. -/
def TraderOp.Parses (op : TraderOp C ID) (i : ℤ) : Prop :=
  ∃ source c transId, op = .parseChunk source (some (c, transId)) ∧ c.id = i

/-- An accept that is sent, with the ids put into it and the time of each. -/
structure Acceptance (C : Type) where
  accSet : C
  taken : List (ℤ × ℤ)

/-- Step `i` has put the chunk `cid` into an accept at time `t`. -/
def AcceptedAt (outs : List (Option (Acceptance C))) (i : ℕ) (cid t : ℤ) : Prop :=
  ∃ a, outs[i]? = some (some a) ∧ (cid, t) ∈ a.taken

/-- Step `k` has received the chunk `cid`. -/
def ReceivedAt (ops : List (TraderOp C ID)) (k : ℕ) (cid : ℤ) : Prop :=
  ∃ op, ops[k]? = some op ∧ op.Parses cid

lemma acceptedAt_concat {outs : List (Option (Acceptance C))} {out : Option (Acceptance C)}
    {i : ℕ} {cid t : ℤ} : AcceptedAt (outs ++ [out]) i cid t
      ↔ AcceptedAt outs i cid t ∨ i = outs.length ∧ ∃ a, out = some a ∧ (cid, t) ∈ a.taken := by
  simp only [AcceptedAt, getElem?_concat_eq_some]
  constructor
  · rintro ⟨a, ha | ⟨hi, ha⟩, hx⟩
    · exact Or.inl ⟨a, ha, hx⟩
    · exact Or.inr ⟨hi, a, ha.symm, hx⟩
  · rintro (⟨a, ha, hx⟩ | ⟨hi, a, ha, hx⟩)
    · exact ⟨a, Or.inl ha, hx⟩
    · exact ⟨a, Or.inr ⟨hi, ha.symm⟩, hx⟩

lemma AcceptedAt.lt {outs : List (Option (Acceptance C))} {i : ℕ} {cid t : ℤ}
    (h : AcceptedAt outs i cid t) : i < outs.length := by
  obtain ⟨a, ha, -⟩ := h
  exact (List.getElem?_eq_some_iff.mp ha).1

lemma ReceivedAt.concat {ops : List (TraderOp C ID)} {k : ℕ} {cid : ℤ} (h : ReceivedAt ops k cid)
    (op : TraderOp C ID) : ReceivedAt (ops ++ [op]) k cid := by
  obtain ⟨op', hop, hparses⟩ := h
  exact ⟨op', getElem?_concat_eq_some.mpr (Or.inl hop), hparses⟩

variable [ChunkIDSet C]

/-- What a step does: the invariant is kept, what is settled stays so unless the chunk is received,
and what is put into an accept was not locked. -/
structure Stepped (clk : Clock) (ct ct' : ChunkTrader B ID) (op : TraderOp C ID)
    (out : Option (Acceptance C)) : Prop where
  inv : LocksInv clk ct'.chLocks ct'.ticks
  tout : ct'.chLocks.toutdiff = ct.chLocks.toutdiff
  settled : ∀ i t, LockSettled clk i t ct.chLocks ct.ticks →
    LockSettled clk i t ct'.chLocks ct'.ticks ∨ op.Parses i
  ids : ∀ a, out = some a → ∀ i, i ∈ ChunkIDSet.ids a.accSet ↔ i ∈ a.taken.map Prod.fst
  taken : ∀ a, out = some a → ∀ x ∈ a.taken, LockSettled clk x.1 x.2 ct'.chLocks ct'.ticks
  apart : ∀ a, out = some a → ∀ x ∈ a.taken, ∀ t, LockSettled clk x.1 t ct.chLocks ct.ticks →
    t + ct.chLocks.toutdiff < x.2

section Steps

variable {clk : Clock} {ct ct' : ChunkTrader B ID} {op : TraderOp C ID}

lemma LocksInv.mono {cl : ChunkLocks ID} {n n' : ℕ} (h : LocksInv clk cl n) (hn : n ≤ n') :
    LocksInv clk cl n' :=
  ⟨h.single, fun l hl => (h.past l hl).trans (clk.mono hn)⟩

/-- Except for offers and chunk messages, the locks stay, while the clock may go on. -/
lemma Stepped.of_eq (hinv : LocksInv clk ct.chLocks ct.ticks) (hlocks : ct'.chLocks = ct.chLocks)
    (hticks : ct.ticks ≤ ct'.ticks) : Stepped clk ct ct' op none := by
  refine ⟨?_, by rw [hlocks], fun i t hs => Or.inl ?_, by simp, by simp, by simp⟩
  · rw [hlocks]
    exact hinv.mono hticks
  · rw [hlocks]
    exact hs.mono (fun l hl => hl) hticks

/-- Offering leaves the locks alone. -/
lemma offerRounds_locks (picks : List (List (ID × ℤ))) :
    (ct.offerRounds (C := C) clk picks).1.chLocks = ct.chLocks
      ∧ ct.ticks ≤ (ct.offerRounds (C := C) clk picks).1.ticks := by
  induction picks generalizing ct with
  | nil => exact ⟨rfl, le_rfl⟩
  | cons picked picks ih =>
      rw [ChunkTrader.offerRounds]
      cases picked with
      | nil => exact ih
      | cons pair picked =>
          obtain ⟨hlocks, hticks⟩ := @ih (ct.offerPicked (C := C) clk (pair :: picked)).1
          exact ⟨hlocks, (Nat.le_add_right _ 2).trans hticks⟩

end Steps

variable [ChunkBuffer B]

/-! ## One offer -/

/-- From `s` to `s'` the chunks of `new`, which are `offered`, have been taken, each at the time
given. -/
structure Selected (clk : Clock) (offered : ℤ → ℕ) (s s' : Selection B C ID)
    (new : List (ℤ × ℤ)) : Prop where
  cb : s'.ct.cb = s.ct.cb
  kept : LocksKept clk s.ct.chLocks s'.ct.chLocks s.ct.ticks s'.ct.ticks
  taken : s'.taken = s.taken ++ new
  accSet : ∀ i, i ∈ ChunkIDSet.ids s'.accSet ↔ i ∈ ChunkIDSet.ids s.accSet ∨ i ∈ new.map Prod.fst
  offered : ∀ x ∈ new, offered x.1 ≠ 0
  missing : ∀ x ∈ new, ChunkBuffer.getChunk s.ct.cb x.1 = none
  settled : ∀ x ∈ new, LockSettled clk x.1 x.2 s'.ct.chLocks s'.ct.ticks
  apart : ∀ x ∈ new, ∀ t, LockSettled clk x.1 t s.ct.chLocks s.ct.ticks →
    t + s.ct.chLocks.toutdiff < x.2

section Offer

variable {clk : Clock} {offered : ℤ → ℕ} {s s' s'' : Selection B C ID} {new new' : List (ℤ × ℤ)}

/-- Nothing is taken, while the locks may have been cleaned up. -/
lemma Selected.of_kept {chLocks : ChunkLocks ID} {ticks : ℕ}
    (h : LocksKept clk s.ct.chLocks chLocks s.ct.ticks ticks) :
    Selected clk offered s { s with ct := { s.ct with chLocks, ticks } } [] :=
  ⟨rfl, h, by simp, by simp, by simp, by simp, by simp, by simp⟩

lemma Selected.trans (h : Selected clk offered s s' new) (h' : Selected clk offered s' s'' new') :
    Selected clk offered s s'' (new ++ new') where
  cb := h'.cb.trans h.cb
  kept := h.kept.trans h'.kept
  taken := by rw [h'.taken, h.taken, List.append_assoc]
  accSet i := by rw [h'.accSet, h.accSet, List.map_append, List.mem_append, or_assoc]
  offered x hx := (List.mem_append.mp hx).elim (h.offered x) (h'.offered x)
  missing x hx := by
    rcases List.mem_append.mp hx with hx | hx
    · exact h.missing x hx
    · exact h.cb ▸ h'.missing x hx
  settled x hx := by
    rcases List.mem_append.mp hx with hx | hx
    · exact h'.kept.settled _ _ (h.settled x hx)
    · exact h'.settled x hx
  apart x hx t ht := by
    rcases List.mem_append.mp hx with hx | hx
    · exact h.apart x hx t ht
    · rw [← h.kept.tout]
      exact h'.apart x hx t (h.kept.settled _ _ ht)

variable [LawfulChunkIDSet C]

/-- **One id** of the offer. -/
lemma select_selected (hinv : LocksInv clk s.ct.chLocks s.ct.ticks) (p : ID) (offered : ℤ → ℕ)
    (cid : ℤ) : ∃ new, Selected clk offered s (s.select clk p offered cid) new := by
  rw [Selection.select]
  split_ifs with hoffer
  · obtain ⟨hkept, hfree⟩ := s.ct.chLocks.chunkIslocked_kept hinv cid
    generalize s.ct.chLocks.chunkIslocked clk cid s.ct.ticks = r at hkept hfree
    obtain ⟨locked, chLocks, ticks⟩ := r
    cases locked with
    | true => exact ⟨[], .of_kept hkept⟩
    | false =>
        obtain ⟨hlock, hsettled⟩ := chLocks.chunkLock_kept hkept.inv (hfree rfl) p
        refine ⟨[(cid, clk.reading ticks)], rfl, hkept.trans hlock, rfl, by simp, ?_, ?_, ?_, ?_⟩
        · simpa using hoffer.1
        · simpa using hoffer.2
        · intro x hx
          obtain rfl := List.mem_singleton.mp hx
          exact hsettled
        · intro x hx t ht
          obtain rfl := List.mem_singleton.mp hx
          have hlapsed := (hkept.settled _ _ ht).lapsed (hfree rfl)
          rwa [hkept.tout] at hlapsed
  · exact ⟨[], .of_kept (.refl hinv)⟩

/-- **The selection loop.** -/
lemma selectLatest_selected (hinv : LocksInv clk s.ct.chLocks s.ct.ticks) (p : ID)
    (offered : ℤ → ℕ) (maxDeliver : ℤ) (n : ℕ) (cid : ℤ) :
    ∃ new, Selected clk offered s (s.selectLatest clk p offered maxDeliver n cid) new := by
  induction n generalizing cid s with
  | zero => exact ⟨[], .of_kept (.refl hinv)⟩
  | succ n ih =>
      rw [Selection.selectLatest]
      split_ifs
      · obtain ⟨new, hnew⟩ := select_selected hinv p offered cid
        obtain ⟨new', hnew'⟩ := ih hnew.kept.inv (cid - 1)
        exact ⟨new ++ new', hnew.trans hnew'⟩
      · exact ⟨[], .of_kept (.refl hinv)⟩

/-- **One offer.** -/
theorem handleOffer_selected {ct : ChunkTrader B ID} {p : ID} {cset : C} {maxDeliver : ℤ}
    (hinv : LocksInv clk ct.chLocks ct.ticks)
    (h : ct.chunkTraderHandleOffer clk p cset maxDeliver = .ok s) :
    Selected clk (fun cid => (ChunkIDSet.ids cset).count cid) ⟨ct, ChunkIDSet.init, []⟩ s
      s.taken := by
  simp only [ChunkTrader.chunkTraderHandleOffer, Eval.bind_eq_ok, Eval.pure_eq_ok,
    Except.ok.injEq] at h
  obtain ⟨d, -, n, -, offered, hcount, rfl⟩ := h
  have hoffered : offered = fun cid => (ChunkIDSet.ids cset).count cid := by
    rw [countIds] at hcount
    split_ifs at hcount
    cases hcount
    rfl
  subst hoffered
  have hstart : LocksInv clk (⟨ct, ChunkIDSet.init, []⟩ : Selection B C ID).ct.chLocks ct.ticks :=
    hinv
  obtain ⟨new, hnew⟩ := selectLatest_selected hstart p
    (fun cid => (ChunkIDSet.ids cset).count cid) maxDeliver n.toNat (ChunkIDSet.getLatest cset)
  have htaken := hnew.taken
  rw [List.nil_append] at htaken
  rw [htaken]
  exact hnew

end Offer

/-! ## Runs -/

/-- One step of a trader, and the accept it sends, if it handles an offer. -/
def traderStep (clk : Clock) (ct : ChunkTrader B ID) :
    TraderOp C ID → Eval (ChunkTrader B ID × Option (Acceptance C))
  | .handleOffer p cset maxDeliver => do
      let s ← ct.chunkTraderHandleOffer clk p cset maxDeliver
      return (s.ct, some ⟨s.accSet, s.taken⟩)
  | .handleAccept p cset transId => do
      let (ct, _) ← ct.chunkTraderHandleAccept (C := C) clk p cset transId
      return (ct, none)
  | .handleAck transId => return (ct.chunkTraderHandleAck transId, none)
  | .sendOffer picks => return ((ct.chunkTraderSendOffer (C := C) clk picks).1, none)
  | .parseChunk source msg => do
      let (ct, _, _) ← ct.chunkTraderParseChunk (C := C) source msg
      return (ct, none)
  | .addChunk c => do
      let (ct, _) ← ct.chunkTraderAddChunk c
      return (ct, none)

section Runs

variable {clk : Clock} {ct ct' : ChunkTrader B ID} {op : TraderOp C ID}

/-- **One step.** -/
lemma traderStep_stepped [LawfulChunkIDSet C] {out : Option (Acceptance C)}
    (hinv : LocksInv clk ct.chLocks ct.ticks) (h : traderStep clk ct op = .ok (ct', out)) :
    Stepped clk ct ct' op out := by
  cases op with
  | handleOffer p cset maxDeliver =>
      simp only [traderStep, Eval.bind_eq_ok, Eval.pure_eq_ok, Except.ok.injEq, Prod.mk.injEq] at h
      obtain ⟨s, hs, rfl, rfl⟩ := h
      have hsel := handleOffer_selected hinv hs
      refine ⟨hsel.kept.inv, hsel.kept.tout, fun i t ht => Or.inl (hsel.kept.settled i t ht),
        ?_, ?_, ?_⟩
      · rintro a ⟨⟩ i
        simpa using hsel.accSet i
      · rintro a ⟨⟩
        exact hsel.settled
      · rintro a ⟨⟩
        exact hsel.apart
  | handleAccept p cset transId =>
      simp only [traderStep, ChunkTrader.chunkTraderHandleAccept, Eval.bind_eq_ok,
        Eval.pure_eq_ok, Except.ok.injEq, Prod.mk.injEq] at h
      obtain ⟨-, ⟨sent, -, rfl⟩, rfl, rfl⟩ := h
      exact .of_eq hinv rfl (Nat.le_succ _)
  | handleAck transId =>
      cases h
      exact .of_eq hinv rfl le_rfl
  | sendOffer picks =>
      cases h
      exact .of_eq hinv (offerRounds_locks _).1 (offerRounds_locks _).2
  | parseChunk source msg =>
      cases msg with
      | none =>
          cases h
          exact .of_eq hinv rfl le_rfl
      | some msg =>
          obtain ⟨c, transId⟩ := msg
          simp only [traderStep, ChunkTrader.chunkTraderParseChunk, Eval.bind_eq_ok,
            Eval.pure_eq_ok, Except.ok.injEq, Prod.mk.injEq] at h
          obtain ⟨-, ⟨c', hc, rfl⟩, rfl, rfl⟩ := h
          refine ⟨ct.chLocks.chunkUnlock_inv hinv c'.id, rfl, fun i t hs => ?_, by simp, by simp,
            by simp⟩
          by_cases hi : i = c'.id
          · refine Or.inr ⟨source, c, transId, rfl, ?_⟩
            rw [hi, chunkAttributesUpdateUponReception_id hc]
          · exact Or.inl (ChunkLocks.chunkUnlock_settled hs hi)
  | addChunk c =>
      simp only [traderStep, Eval.bind_eq_ok, Eval.pure_eq_ok, Except.ok.injEq, Prod.mk.injEq] at h
      obtain ⟨⟨added, res⟩, hadd, rfl, rfl⟩ := h
      obtain ⟨rfl, -⟩ := ChunkTrader.chunkTraderAddChunk_eq hadd
      exact .of_eq hinv rfl le_rfl

/-- What holds of the steps so far: what has been taken is settled or has been received since, and
nothing has been taken twice in between. -/
structure AcceptHistory (clk : Clock) (T : ℤ) (ops : List (TraderOp C ID))
    (outs : List (Option (Acceptance C))) (ct : ChunkTrader B ID) : Prop where
  length : ops.length = outs.length
  inv : LocksInv clk ct.chLocks ct.ticks
  tout : ct.chLocks.toutdiff = T
  settled : ∀ i cid t, AcceptedAt outs i cid t →
    LockSettled clk cid t ct.chLocks ct.ticks ∨ ∃ k, i < k ∧ ReceivedAt ops k cid
  ids : ∀ a, some a ∈ outs → ∀ i, i ∈ ChunkIDSet.ids a.accSet ↔ i ∈ a.taken.map Prod.fst
  apart : ∀ i j cid t t', i < j → AcceptedAt outs i cid t → AcceptedAt outs j cid t' →
    (∀ k, i < k → k < j → ¬ReceivedAt ops k cid) → t + T < t'

/-- **The step of the history.** -/
lemma AcceptHistory.step [LawfulChunkIDSet C] {T : ℤ} {ops : List (TraderOp C ID)}
    {outs : List (Option (Acceptance C))} {out : Option (Acceptance C)}
    (hj : AcceptHistory clk T ops outs ct) (h : traderStep clk ct op = .ok (ct', out)) :
    AcceptHistory clk T (ops ++ [op]) (outs ++ [out]) ct' := by
  have hstep := traderStep_stepped hj.inv h
  refine ⟨by simp [hj.length], hstep.inv, hstep.tout.trans hj.tout, ?_, ?_, ?_⟩
  · intro i cid t hi
    rcases acceptedAt_concat.mp hi with hi | ⟨-, a, ha, hx⟩
    · rcases hj.settled i cid t hi with hs | ⟨k, hk, hreceived⟩
      · refine (hstep.settled _ _ hs).imp_right fun hparses =>
          ⟨ops.length, ?_, op, by simp, hparses⟩
        rw [hj.length]
        exact hi.lt
      · exact Or.inr ⟨k, hk, hreceived.concat op⟩
    · exact Or.inl (hstep.taken a ha _ hx)
  · intro a ha
    rcases List.mem_append.mp ha with ha | ha
    · exact hj.ids a ha
    · exact hstep.ids a (List.mem_singleton.mp ha).symm
  · intro i j cid t t' hij hi hjj hnone
    have hnone' : ∀ k, i < k → k < j → ¬ReceivedAt ops k cid := fun k hik hkj hreceived =>
      hnone k hik hkj (hreceived.concat op)
    have hi : AcceptedAt outs i cid t := by
      rcases acceptedAt_concat.mp hi with hi | ⟨rfl, -⟩
      · exact hi
      · rcases acceptedAt_concat.mp hjj with hjj | ⟨rfl, -⟩
        · exact absurd hjj.lt hij.asymm
        · exact absurd rfl hij.ne
    rcases acceptedAt_concat.mp hjj with hjj | ⟨rfl, a, ha, hx⟩
    · exact hj.apart i j cid t t' hij hi hjj hnone'
    · -- the second accept is the one of this step
      rcases hj.settled i cid t hi with hs | ⟨k, hk, hreceived⟩
      · rw [← hj.tout]
        exact hstep.apart a ha _ hx t hs
      · obtain ⟨op', hop, -⟩ := id hreceived
        have hlt := (List.getElem?_eq_some_iff.mp hop).1
        exact absurd hreceived (hnone' k hk (hj.length ▸ hlt))

/-- **No double acceptance.**  In every run of a trader: a chunk that is put into two accepts
without having been received in between is put there more than the lock time apart; no chunk that is
in the buffer is accepted; and no chunk has two locks. -/
theorem no_double_acceptance [LawfulChunkIDSet C] {lockTimeoutMs : ℕ}
    {ops : List (TraderOp C ID)} {outs : List (Option (Acceptance C))}
    (h : exec (traderStep clk) { ct with chLocks := chunkLocksCreate lockTimeoutMs } ops
      = .ok (ct', outs)) :
    (∀ i j cid t t', i < j → AcceptedAt outs i cid t → AcceptedAt outs j cid t' →
      (∀ k, i < k → k < j → ¬ReceivedAt ops k cid) → lockTimeoutMs * 1000 < t' - t)
    ∧ (∀ a, some a ∈ outs → ∀ i, i ∈ ChunkIDSet.ids a.accSet ↔ i ∈ a.taken.map Prod.fst)
    ∧ (∀ p cset maxDeliver (s : Selection B C ID),
      ct'.chunkTraderHandleOffer clk p cset maxDeliver = .ok s →
      ∀ i ∈ ChunkIDSet.ids s.accSet, ChunkBuffer.getChunk ct'.cb i = none)
    ∧ (ct'.chLocks.locks.map Lock.chunkid).Nodup := by
  have hj : AcceptHistory clk (lockTimeoutMs * 1000) ops outs ct' := by
    refine exec_history (J := AcceptHistory clk (lockTimeoutMs * 1000)) h ?_
      fun _ _ _ _ _ _ hj hstep => hj.step hstep
    exact ⟨rfl, chunkLocksCreate_inv clk _ _, chunkLocksCreate_toutdiff _, by simp [AcceptedAt],
      by simp, by simp [AcceptedAt]⟩
  refine ⟨fun i j cid t t' hij hi hjj hnone => ?_, hj.ids, ?_, hj.inv.single⟩
  · have happart := hj.apart i j cid t t' hij hi hjj hnone
    omega
  · intro p cset maxDeliver s hs i hi
    have hsel := handleOffer_selected hj.inv hs
    obtain ⟨t, hx⟩ : ∃ t, (i, t) ∈ s.taken := by simpa using (hsel.accSet i).mp hi
    exact hsel.missing _ hx

/-- A trader with a buffer for ten chunks. -/
def contender : ChunkTrader ChunkList ℕ := chunkTraderCreate ⟨10, []⟩ .uniform 1 1 1

/-- Two peers offer the same chunks; one of them is accepted again after it has timed out, and both
after one has been received. -/
def contested : List (TraderOp IDList ℕ) :=
  [.handleOffer 1 ⟨[3, 5], by decide⟩ 2, .handleOffer 2 ⟨[3, 5], by decide⟩ 1,
    .parseChunk 1 (some (⟨5, 0, 0, 0, [], []⟩, 1)), .handleOffer 2 ⟨[3, 5], by decide⟩ 2]

theorem no_double_acceptance_contested :
    ∃ (ct' : ChunkTrader ChunkList ℕ) (outs : List (Option (Acceptance IDList))),
      exec (traderStep (.ticking 30000)) { contender with chLocks := chunkLocksCreate 80 } contested
        = .ok (ct', outs)
      ∧ (∀ i j cid t t', i < j → AcceptedAt outs i cid t → AcceptedAt outs j cid t' →
        (∀ k, i < k → k < j → ¬ReceivedAt contested k cid) → (80 : ℕ) * 1000 < t' - t)
      ∧ (∀ a, some a ∈ outs → ∀ i, i ∈ ChunkIDSet.ids a.accSet ↔ i ∈ a.taken.map Prod.fst)
      ∧ (∀ p cset maxDeliver (s : Selection ChunkList IDList ℕ),
        ct'.chunkTraderHandleOffer (.ticking 30000) p cset maxDeliver = .ok s →
        ∀ i ∈ ChunkIDSet.ids s.accSet, ChunkBuffer.getChunk ct'.cb i = none)
      ∧ (ct'.chLocks.locks.map Lock.chunkid).Nodup := by
  obtain ⟨⟨ct', outs⟩, h⟩ := Eval.exists_ok (x := exec (traderStep (.ticking 30000))
    { contender with chLocks := chunkLocksCreate 80 } contested) (by decide +kernel)
  exact ⟨ct', outs, h, no_double_acceptance h⟩

end Runs

end PeerStreamer
