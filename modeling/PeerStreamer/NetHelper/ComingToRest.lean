import PeerStreamer.NetHelper.Recovery

/-!
# A transfer comes to rest

Every fragment that arrives may have others asked for, and these may have more asked for.  This does
not go on for ever: without new packets, and while nothing expires, a transfer comes to rest,
whatever is delayed, reordered or lost (`transfer_rests`).  So if nothing is lost once the last
fragment of a packet is there, with all requests carried to the sender, and nothing is put off for
ever, the packet is handed out (`recovery_fair`).
-/

namespace PeerStreamer

open SelectiveRepeat (Step Tracked Bounded)

section Bounds

variable {ic : IntCoding} {l : Link} {t₀ : ℤ} {packets : List Bytes} {hs : List Handout}
  {s : Transfer}

lemma Askable.mem_pieces {pid i : ℕ} (h : Askable packets l.fragSize pid i) :
    (pid, i) ∈ SelectiveRepeat.pieces (fragmentCount l packets) (Finset.range packets.length)
      ∧ ¬ SelectiveRepeat.IsLast (fragmentCount l packets) (pid, i) := by
  obtain ⟨data, hdata, hlt⟩ := h
  have hcount := fragmentCount_of_prefix (l := l) (List.prefix_refl packets) hdata
  rw [SelectiveRepeat.mem_pieces, Finset.mem_range, SelectiveRepeat.IsLast, hcount]
  exact ⟨⟨(List.getElem?_eq_some_iff.mp hdata).1, by omega⟩, by omega⟩

lemma SentPiece.mem_pieces {f : Fragment} (h : SentPiece packets l.fragSize f) :
    (f.pid, f.id)
      ∈ SelectiveRepeat.pieces (fragmentCount l packets) (Finset.range packets.length) := by
  have hpid := h.pid_lt
  obtain ⟨data, hdata, hpiece⟩ := h
  have hcount := fragmentCount_of_prefix (l := l) (List.prefix_refl packets) hdata
  rw [SelectiveRepeat.mem_pieces, Finset.mem_range, hcount, ← hpiece.fragNum]
  exact ⟨hpid, hpiece.id⟩

/-- A fragment on the queue of the sender is a piece of a packet. -/
lemma SenderSide.mem_pieces {ops : List NmOp} {nm : NetworkManager} (h : SenderSide l ops nm)
    {x : ℕ × ℕ} (hx : x ∈ queuedIds nm.outqueue) :
    x ∈ SelectiveRepeat.pieces (fragmentCount l (payloads l.receiverNode ops))
      (Finset.range (payloads l.receiverNode ops).length) := by
  obtain ⟨el, hel, heq⟩ := List.mem_filterMap.mp hx
  cases el with
  | request r => cases heq
  | fragment d pid i =>
      cases heq
      obtain ⟨e, fp, f, he, -, hl, hf, -⟩ := h.served.inv.queued hel
      have hname := ((h.served.inv.owns d e he).named pid fp hl).element hf
      rw [fragmentListElement, QueueElem.fragment.injEq] at hname
      obtain ⟨-, rfl, rfl⟩ := hname
      have hmem := List.mem_of_getElem? hf
      exact (h.pieces.pieces d e he f.pid fp hl f hmem
        (fragment_goes.mp (h.addressed d e he f.pid fp hl f hmem)).2).mem_pieces

/-- **All fragments and requests are about packets that have been sent.** -/
lemma TransferInv.bounded (h : TransferInv ic l packets hs s) (hic : ic.Inverse (2 ^ 31))
    (hids : packets.length < 65536) :
    Bounded (fragmentCount l packets) (Finset.range packets.length) (s.exchange ic l) := by
  have hrequested : ∀ x ∈ (s.exchange ic l).requested, Askable packets l.fragSize x.1 x.2 := by
    intro x hx
    obtain ⟨el, hel, heq⟩ := List.mem_filterMap.mp hx
    obtain ⟨fr, rfl, hask⟩ := h.receiver.requests el hel
    cases heq
    exact hask
  have hasked : ∀ x ∈ (s.exchange ic l).asked, Askable packets l.fragSize x.1 x.2 := by
    intro x hx
    obtain ⟨d, hd, heq⟩ := List.mem_filterMap.mp hx
    obtain ⟨fr, hask, hdec⟩ := h.toSender d hd
    rw [requestId, hdec] at heq
    cases heq
    exact hask
  refine ⟨fun x hx => ?_, fun x hx => ?_, fun x hx => ?_⟩
  · change s.receiver.holdsSlot l.senderNode x = true at hx
    rw [NetworkManager.holdsSlot, Option.isSome_iff_exists] at hx
    obtain ⟨bytes, hx⟩ := hx
    obtain ⟨fp, hl, hslot⟩ := Option.bind_eq_some_iff.mp hx
    obtain ⟨data, ids, hdata, hg⟩ := h.receiver.stored x.1 fp hl
    have hlt : x.2 < fp.fragNum := FragmentedPacket.slotData_lt (by rw [hslot]; simp)
    have hcount := fragmentCount_of_prefix (l := l) (List.prefix_refl packets) hdata
    rw [SelectiveRepeat.mem_pieces, Finset.mem_range, hcount, ← hg.fragNum]
    exact ⟨(List.getElem?_eq_some_iff.mp hdata).1, hlt⟩
  · simp only [SelectiveRepeat.moving, List.mem_append] at hx
    rcases hx with ((hx | hx) | hx) | hx
    · exact (hrequested x hx).mem_pieces.1
    · exact (hasked x hx).mem_pieces.1
    · obtain ⟨ops, hside, rfl⟩ := h.sender
      exact hside.mem_pieces hx
    · obtain ⟨d, hd, heq⟩ := List.mem_filterMap.mp hx
      obtain ⟨f, hf, rfl⟩ := h.toReceiver d hd
      rw [hf.datagramId hic hids] at heq
      cases heq
      exact hf.mem_pieces
  · rcases List.mem_append.mp hx with hx | hx
    · exact (hrequested x hx).mem_pieces.2
    · exact (hasked x hx).mem_pieces.2

end Bounds

/-! ## Infinite runs -/

/-- A run without end, in which no packet is sent and nothing expires. -/
structure Continues (ic : IntCoding) (l : Link) (t₀ : ℤ) (acts : ℕ → Action) (st : ℕ → Transfer)
    (out : ℕ → Option Handout) : Prop where
  step : ∀ k, Transfer.step ic l (st k) (acts k) = .ok (st (k + 1), out k)
  silent : ∀ k, (acts k).packet = none
  within : ∀ k, (acts k).Within l t₀

/-- The lost fragment is asked for and sent again, and the packet is popped. -/
def recovered : List Action :=
  [.deliver lastDatagram 1 1, .request true, .answer [1, 0, 0, 0, 0] 1 1, .transmit,
    .deliver firstDatagram 1 1, .pop 0 1]

/-- From then on both nodes only look for something to send. -/
def recoveredAction (k : ℕ) : Action :=
  recovered.getD k (if k % 2 = 0 then .transmit else .request true)

/-- The state before the `k`-th of these actions. -/
def recoveredState (k : ℕ) : Transfer :=
  match exec (Transfer.step bigEndian threeByteLink) (Transfer.init threeByteLink)
      (firstLost ++ recovered.take k) with
  | .ok (s, _) => s
  | .error _ => Transfer.init threeByteLink

/-- The packet handed out by the `k`-th action. -/
def recoveredHandout (k : ℕ) : Option Handout :=
  if k = 5 then some (0, 0, [1, 2, 3, 4], 4) else none

instance : DecidableEq (Transfer × Option Handout) := instDecidableEqProd

lemma recoveredState_of_le {k : ℕ} (hk : 6 ≤ k) : recoveredState k = recoveredState 6 := by
  rw [recoveredState, recoveredState, List.take_of_length_le (by simpa [recovered] using hk),
    List.take_of_length_le (by simp [recovered])]

lemma recoveredAction_of_le {k : ℕ} (hk : 6 ≤ k) :
    recoveredAction k = if k % 2 = 0 then .transmit else .request true := by
  rw [recoveredAction, List.getD_eq_getElem?_getD,
    List.getElem?_eq_none (by simpa [recovered] using hk), Option.getD_none]

/-- What holds of the actions of the recovery, and of looking for something to send, holds of all
actions. -/
lemma recoveredAction_all {P : Action → Prop} (h : ∀ a ∈ recovered, P a) (htransmit : P .transmit)
    (hrequest : P (.request true)) (k : ℕ) : P (recoveredAction k) := by
  by_cases hk : k < recovered.length
  · rw [recoveredAction, List.getD_eq_getElem?_getD, List.getElem?_eq_getElem hk,
      Option.getD_some]
    exact h _ (List.getElem_mem hk)
  · rw [recoveredAction_of_le (by simpa [recovered] using hk)]
    split_ifs
    · exact htransmit
    · exact hrequest

lemma recovered_continues :
    Continues bigEndian threeByteLink 0 recoveredAction recoveredState recoveredHandout where
  step k := by
    by_cases hk : k < 6
    · revert k
      decide +kernel
    · rw [not_lt] at hk
      rw [recoveredHandout, if_neg (by omega), recoveredState_of_le hk,
        recoveredState_of_le (by omega : 6 ≤ k + 1), recoveredAction_of_le hk]
      split_ifs <;> decide +kernel
  silent := recoveredAction_all (P := fun a => a.packet = none) (by decide) (by decide) (by decide)
  within := recoveredAction_all (by decide) (by decide) (by decide)

section Continues

variable {ic : IntCoding} {l : Link} {t₀ : ℤ} {pre : List Action} {acts : ℕ → Action}
  {st : ℕ → Transfer} {out : ℕ → Option Handout} {outs : List (Option Handout)}
  (h : Continues ic l t₀ acts st out)

include h

lemma Continues.enqueued_eq (pre : List Action) (k : ℕ) :
    enqueued (pre ++ (List.range k).map acts) = enqueued pre := by
  have hnone : enqueued ((List.range k).map acts) = [] := by
    rw [enqueued, List.filterMap_eq_nil_iff]
    intro a ha
    obtain ⟨j, -, rfl⟩ := List.mem_map.mp ha
    exact h.silent j
  rw [enqueued_append, hnone, List.append_nil]

lemma Continues.timely (ht : Timely l t₀ pre) (k : ℕ) :
    Timely l t₀ (pre ++ (List.range k).map acts) where
  ids := by
    rw [h.enqueued_eq]
    exact ht.ids
  packets := by
    rw [h.enqueued_eq]
    exact ht.packets
  within a ha := by
    rcases List.mem_append.mp ha with ha | ha
    · exact ht.within a ha
    · obtain ⟨j, -, rfl⟩ := List.mem_map.mp ha
      exact h.within j

lemma Continues.ongoing (hic : ic.Inverse (2 ^ 31)) (ht : Timely l t₀ pre)
    (hpre : exec (Transfer.step ic l) (Transfer.init l) pre = .ok (st 0, outs)) (k : ℕ) :
    Ongoing ic l (enqueued (pre ++ (List.range k).map acts)) t₀
      (handouts (outs ++ (List.range k).map out)) (st k) := by
  induction k with
  | zero => simpa using ongoing_of_exec hic ht hpre
  | succ k ih =>
      have hmore := h.timely ht (k + 1)
      rw [List.range_succ, List.map_append, List.map_singleton, ← List.append_assoc] at hmore ⊢
      rw [List.map_append, List.map_singleton, ← List.append_assoc]
      exact (ih.step hic hmore (h.step k)).1

/-- **A step further** changes nothing, or brings the end nearer. -/
lemma Continues.rank_lt (hic : ic.Inverse (2 ^ 31)) (ht : Timely l t₀ pre)
    (hpre : exec (Transfer.step ic l) (Transfer.init l) pre = .ok (st 0, outs)) (k : ℕ) :
    st (k + 1) = st k
      ∨ ((st (k + 1)).exchange ic l).rank (fragmentCount l (enqueued pre))
          (Finset.range (enqueued pre).length)
        < ((st k).exchange ic l).rank (fragmentCount l (enqueued pre))
          (Finset.range (enqueued pre).length) := by
  have hnow := h.ongoing hic ht hpre k
  have hmore := h.timely ht (k + 1)
  have hall := h.enqueued_eq pre (k + 1)
  rw [List.range_succ, List.map_append, List.map_singleton, ← List.append_assoc] at hmore hall
  obtain ⟨-, hsame | ⟨e, he, hone, -⟩⟩ := hnow.step hic hmore (h.step k)
  · exact Or.inl hsame
  · have hbounded := hnow.inv.bounded hic (h.timely ht k).ids
    rw [hall] at hone
    rw [h.enqueued_eq] at hbounded
    refine Or.inr (hbounded.rank_lt hone ?_)
    rintro rfl
    exact event_send he (h.silent k)

/-- **A transfer comes to rest.**  Fragments make the receiver ask for others, and requests make the
sender send more; but without new packets, and while nothing expires, there is a time from which on
nothing changes any more, in whatever order datagrams are sent, delivered, answered or lost. -/
theorem transfer_rests (hic : ic.Inverse (2 ^ 31)) (ht : Timely l t₀ pre)
    (hpre : exec (Transfer.step ic l) (Transfer.init l) pre = .ok (st 0, outs)) :
    ∃ K, ∀ k, K ≤ k → st k = st K :=
  comes_to_rest (fun s : Transfer => (s.exchange ic l).rank (fragmentCount l (enqueued pre))
    (Finset.range (enqueued pre).length)) fun k => h.rank_lt hic ht hpre k

end Continues

lemma firstLost_timely : Timely threeByteLink 0 firstLost := ⟨by decide, by decide, by decide⟩

/-- The packet of two fragments is sent, and the first one is lost. -/
lemma exec_firstLost : exec (Transfer.step bigEndian threeByteLink) (Transfer.init threeByteLink)
    firstLost = .ok (recoveredState 0, [none, none, none, none]) := by
  have hrun : (exec (Transfer.step bigEndian threeByteLink) (Transfer.init threeByteLink)
      firstLost).map (fun r => decide (r.1 = recoveredState 0 ∧ r.2 = [none, none, none, none]))
        = .ok true := by decide +kernel
  obtain ⟨⟨s, outs⟩, h⟩ := Eval.exists_ok (x := exec (Transfer.step bigEndian threeByteLink)
    (Transfer.init threeByteLink) firstLost) (by decide +kernel)
  rw [h] at hrun
  obtain ⟨rfl, rfl⟩ := of_decide_eq_true (Except.ok.inj hrun)
  exact h

theorem transfer_rests_recovered : ∃ K, ∀ k, K ≤ k → recoveredState k = recoveredState K :=
  transfer_rests recovered_continues (bigEndian_inverse.mono (by decide)) firstLost_timely
    exec_firstLost

/-! ## Fair runs -/

/-- Nothing is put off for ever; `happens k a` says that `a` is what happens in the state `st k`. -/
structure Fair (happens : ℕ → Action → Prop) (st : ℕ → Transfer) : Prop where
  transmit : ∀ k, ∃ k', k ≤ k' ∧ happens k' .transmit
  request : ∀ k, ∃ k', k ≤ k' ∧ happens k' (.request true)
  deliver : ∀ k, ∀ d ∈ (st k).toReceiver, ∃ k' t t', k ≤ k' ∧ happens k' (.deliver d t t')
  answer : ∀ k, ∀ d ∈ (st k).toSender, ∃ k' t t', k ≤ k' ∧ happens k' (.answer d t t')
  pop : ∀ k, ∀ pid ∈ (st k).ready, ∃ k' t, k ≤ k' ∧ happens k' (.pop pid t)

lemma Fair.mono {happens happens' : ℕ → Action → Prop} {st : ℕ → Transfer} (h : Fair happens st)
    (himp : ∀ k a, happens k a → happens' k a) : Fair happens' st where
  transmit k := (h.transmit k).imp fun k' hk => ⟨hk.1, himp k' _ hk.2⟩
  request k := (h.request k).imp fun k' hk => ⟨hk.1, himp k' _ hk.2⟩
  deliver k d hd := by
    obtain ⟨k', t, t', hk, ha⟩ := h.deliver k d hd
    exact ⟨k', t, t', hk, himp k' _ ha⟩
  answer k d hd := by
    obtain ⟨k', t, t', hk, ha⟩ := h.answer k d hd
    exact ⟨k', t, t', hk, himp k' _ ha⟩
  pop k pid hpid := by
    obtain ⟨k', t, hk, ha⟩ := h.pop k pid hpid
    exact ⟨k', t, hk, himp k' _ ha⟩

section Fair

variable {ic : IntCoding} {l : Link} {t₀ : ℤ} {packets : List Bytes} {hs : List Handout}
  {s : Transfer} {o : Option Handout}

lemma eq_nil_of_eq_tail {α : Type} {q : List α} (h : q = q.tail) : q = [] := by
  cases q with
  | nil => rfl
  | cons el q => exact absurd h (List.cons_ne_self el q)

/-- The sender has nothing to send if sending changes nothing. -/
lemma TransferInv.outqueue_of_transmit (h : TransferInv ic l packets hs s)
    (hstep : Transfer.step ic l s .transmit = .ok (s, o)) : s.sender.outqueue = [] := by
  obtain ⟨ops, hside, -⟩ := h.sender
  obtain ⟨nm, m, hpop, -, htail⟩ := hside.served.inv.popMsg
  rw [Transfer.step, hpop] at hstep
  simp only [Eval.ok_bind, Eval.pure_eq_ok, Except.ok.injEq, Prod.mk.injEq] at hstep
  have hsame := congrArg Transfer.sender hstep.1
  dsimp only at hsame
  rw [hsame] at htail
  exact eq_nil_of_eq_tail htail

/-- The same for the requests of the receiver. -/
lemma TransferInv.outqueue_of_request (h : TransferInv ic l packets hs s)
    {forwarded : Bool} (hstep : Transfer.step ic l s (.request forwarded) = .ok (s, o)) :
    s.receiver.outqueue = [] := by
  obtain ⟨nm, m, hpop, -, htail⟩ := h.receiver.inv.popMsg
  rw [Transfer.step, hpop] at hstep
  simp only [Eval.ok_bind, Eval.pure_eq_ok, Except.ok.injEq, Prod.mk.injEq] at hstep
  have hsame := congrArg Transfer.receiver hstep.1
  dsimp only at hsame
  rw [hsame] at htail
  exact eq_nil_of_eq_tail htail

lemma not_mem_of_answer {d : Bytes} {t t' : ℤ}
    (hstep : Transfer.step ic l s (.answer d t t') = .ok (s, o)) : d ∉ s.toSender := by
  intro hd
  rw [Transfer.step, if_pos hd, Eval.bind_eq_ok] at hstep
  obtain ⟨⟨sender, arrived⟩, -, hstep⟩ := hstep
  simp only [Eval.pure_eq_ok, Except.ok.injEq, Prod.mk.injEq] at hstep
  have hlen := congrArg (fun s => s.toSender.length) hstep.1
  have hone := List.length_erase_add_one hd
  dsimp only at hlen
  omega

variable {pre : List Action} {acts : ℕ → Action} {st : ℕ → Transfer} {out : ℕ → Option Handout}
  {outs : List (Option Handout)} {pid : ℕ} {data : Bytes}

/-- **A fair run at rest** has nothing under way. -/
lemma Continues.atRest (h : Continues ic l t₀ acts st out)
    (hfair : Fair (fun k a => acts k = a) st) {K : ℕ}
    (hinv : TransferInv ic l packets hs (st K)) (hrest : ∀ k, K ≤ k → st k = st K) :
    (st K).AtRest := by
  have hsame : ∀ k, K ≤ k → Transfer.step ic l (st K) (acts k) = .ok (st K, out k) := by
    intro k hk
    have hstep := h.step k
    rwa [hrest k hk, hrest (k + 1) (by omega)] at hstep
  refine ⟨?_, ?_, List.eq_nil_iff_forall_not_mem.mpr fun d hd => ?_,
    List.eq_nil_iff_forall_not_mem.mpr fun d hd => ?_⟩
  · obtain ⟨k, hk, ha⟩ := hfair.transmit K
    exact hinv.outqueue_of_transmit (ha ▸ hsame k hk)
  · obtain ⟨k, hk, ha⟩ := hfair.request K
    exact hinv.outqueue_of_request (ha ▸ hsame k hk)
  · obtain ⟨k, t, t', hk, ha⟩ := hfair.deliver K d hd
    exact ne_of_deliver hd (ha ▸ hsame k hk) rfl
  · obtain ⟨k, t, t', hk, ha⟩ := hfair.answer K d hd
    exact not_mem_of_answer (ha ▸ hsame k hk) hd

/-- **Lost fragments are recovered in the end.**  When the last fragment of a packet is there and
one of its fragments arrives, then under a schedule that puts nothing off for ever, and that loses
nothing from then on, the packet is handed out as it was sent. -/
theorem recovery_fair (h : Continues ic l t₀ acts st out) (hic : ic.Inverse (2 ^ 31))
    (ht : Timely l t₀ pre)
    (hpre : exec (Transfer.step ic l) (Transfer.init l) pre = .ok (st 0, outs))
    (hlose : ∀ k, ¬ (acts k).Loses) (hfair : Fair (fun k a => acts k = a) st) {d : Bytes}
    {tSweep tCreate : ℤ}
    (hfirst : acts 0 = .deliver d tSweep tCreate) (hd : d ∈ (st 0).toReceiver) {i : ℕ}
    (hid : datagramId ic l d = some (pid, i)) (hdata : (enqueued pre)[pid]? = some data)
    (hlast : i + 1 = cutCount data.length l.fragSize
      ∨ (st 0).receiver.holdsSlot l.senderNode (pid, cutCount data.length l.fragSize - 1) = true) :
    ∃ k, out k = some (pid, 0, data, data.length) := by
  by_contra hnone
  rw [not_exists] at hnone
  have hdata' : ∀ k, (enqueued (pre ++ (List.range k).map acts))[pid]? = some data :=
    fun k => by rwa [h.enqueued_eq]
  have hone : ∀ k, Timely l t₀ (pre ++ (List.range k).map acts ++ [acts k]) := by
    intro k
    have hmore := h.timely ht (k + 1)
    rwa [List.range_succ, List.map_append, List.map_singleton, ← List.append_assoc] at hmore
  -- nothing is forgotten, as the packet is not handed out
  have htracked : ∀ k, ∀ j < cutCount data.length l.fragSize,
      Tracked ((st (k + 1)).exchange ic l) (pid, j) := by
    intro k
    induction k with
    | zero =>
        have hstart := h.ongoing hic ht hpre 0
        have ht₀ := hone 0
        have hstep := h.step 0
        rw [hfirst] at ht₀ hstep
        exact hstart.tracked_of_deliver hic ht₀ hd hid (hdata' 0) hlast hstep
    | succ k ih =>
        rcases (h.ongoing hic ht hpre (k + 1)).tracked hic (hone (k + 1)) (hdata' (k + 1))
          (hlose (k + 1)) ih (h.step (k + 1)) with ho | hmore
        · exact absurd ho (hnone (k + 1))
        · exact hmore
  obtain ⟨K, hK⟩ := comes_to_rest (fun s : Transfer => (s.exchange ic l).rank
    (fragmentCount l (enqueued pre)) (Finset.range (enqueued pre).length))
    fun k => h.rank_lt hic ht hpre k
  have hrest : ∀ k, K + 1 ≤ k → st k = st (K + 1) :=
    fun k hk => (hK k (by omega)).trans (hK (K + 1) (by omega)).symm
  have hnow := h.ongoing hic ht hpre (K + 1)
  have hready := hnow.ready_of_rest (h.timely ht (K + 1)) (hdata' (K + 1)) (htracked K)
    (h.atRest hfair hnow.inv hrest)
  -- so that it is popped at some time
  obtain ⟨k, t, hk, ha⟩ := hfair.pop (K + 1) pid hready
  have hlt := (h.within k t (by simp [ha, Action.times])).2
  obtain ⟨s', hpop⟩ := hnow.pop (h.timely ht (K + 1)) hready (hdata' (K + 1)) hlt
  have hstep := h.step k
  rw [ha, hrest k hk] at hstep
  exact hnone k (ok_unique hstep hpop).2

end Fair

lemma recovered_fair : Fair (fun k a => recoveredAction k = a) recoveredState where
  transmit k := ⟨2 * (k + 3), by omega,
    by rw [recoveredAction_of_le (by omega), if_pos (by omega)]⟩
  request k := ⟨2 * (k + 3) + 1, by omega,
    by rw [recoveredAction_of_le (by omega), if_neg (by omega)]⟩
  deliver k d hd := by
    by_cases hk : k < 6
    · have hmem : ∀ k < 6, ∀ d ∈ (recoveredState k).toReceiver,
          (k ≤ 0 ∧ d = lastDatagram) ∨ (k ≤ 4 ∧ d = firstDatagram) := by decide +kernel
      rcases hmem k hk d hd with ⟨hle, rfl⟩ | ⟨hle, rfl⟩
      · exact ⟨0, 1, 1, hle, rfl⟩
      · exact ⟨4, 1, 1, hle, rfl⟩
    · rw [recoveredState_of_le (not_lt.mp hk)] at hd
      have hnil : (recoveredState 6).toReceiver = [] := by decide +kernel
      simp [hnil] at hd
  answer k d hd := by
    by_cases hk : k < 6
    · have hmem : ∀ k < 6, ∀ d ∈ (recoveredState k).toSender,
          k ≤ 2 ∧ d = [1, 0, 0, 0, 0] := by decide +kernel
      obtain ⟨hle, rfl⟩ := hmem k hk d hd
      exact ⟨2, 1, 1, hle, rfl⟩
    · rw [recoveredState_of_le (not_lt.mp hk)] at hd
      have hnil : (recoveredState 6).toSender = [] := by decide +kernel
      simp [hnil] at hd
  pop k pid hpid := by
    by_cases hk : k < 6
    · have hmem : ∀ k < 6, ∀ pid ∈ (recoveredState k).ready, k ≤ 5 ∧ pid = 0 := by
        decide +kernel
      obtain ⟨hle, rfl⟩ := hmem k hk pid hpid
      exact ⟨5, 1, hle, rfl⟩
    · rw [recoveredState_of_le (not_lt.mp hk)] at hpid
      have hnil : (recoveredState 6).ready = [] := by decide +kernel
      simp [hnil] at hpid

end PeerStreamer
