import PeerStreamer.NetHelper.PieceExchange

/-!
# Lost fragments are recovered

While nothing expires, no fragment is forgotten: when the last fragment of a packet is there, the
arrival of any of its fragments has all that are missing asked for, and if nothing is lost from then
on, the packet is complete once nothing is under way any more (`recovery`).  And it does come to
that: without new packets a transfer comes to rest, in whatever order things happen and whatever is
lost (`transfer_rests`), so that under a fair schedule the packet is handed out (`recovery_fair`).

That nothing is lost means that the requests are carried to the sender, which is not where they are
addressed to.
-/

namespace PeerStreamer

open SelectiveRepeat (Step Tracked)

/-! ## Runs in which nothing expires -/

/-- The action loses a datagram: also a request that is not forwarded is lost. -/
def Action.Loses : Action → Prop
  | .lose _ => True
  | .loseRequest _ => True
  | .request forwarded => forwarded = false
  | _ => False

instance : (a : Action) → Decidable a.Loses
  | .lose _ | .loseRequest _ => isTrue trivial
  | .request forwarded => inferInstanceAs (Decidable (forwarded = false))
  | .enqueue _ _ _ | .transmit | .deliver _ _ _ | .answer _ _ _ | .pop _ _ => isFalse id

/-- Nothing is queued or under way. -/
structure Transfer.AtRest (s : Transfer) : Prop where
  sender : s.sender.outqueue = []
  receiver : s.receiver.outqueue = []
  toReceiver : s.toReceiver = []
  toSender : s.toSender = []

/-- The packets have distinct ids, not too many fragments and fit the buffer, and all times are
before anything from `t₀` on expires. -/
structure Timely (l : Link) (t₀ : ℤ) (as : List Action) : Prop where
  ids : (enqueued as).length < 65536
  packets : ∀ data ∈ enqueued as,
    (data.length + l.fragSize - 1) / l.fragSize ≤ 65535 ∧ data.length < l.bufferSize
  within : ∀ a ∈ as, a.Within l t₀

lemma Timely.of_append {l : Link} {t₀ : ℤ} {as as' : List Action} (h : Timely l t₀ (as ++ as')) :
    Timely l t₀ as where
  ids := by
    have hids := h.ids
    rw [enqueued_append, List.length_append] at hids
    omega
  packets data hdata := h.packets data (by rw [enqueued_append]; exact List.mem_append_left _ hdata)
  within a ha := h.within a (List.mem_append_left _ ha)

/-- The number of fragments of the packet with the id `pid`. -/
def fragmentCount (l : Link) (packets : List Bytes) (pid : ℕ) : ℕ :=
  (packets[pid]?.map fun data => cutCount data.length l.fragSize).getD 0

lemma fragmentCount_of_prefix {l : Link} {packets all : List Bytes} (h : packets <+: all) {pid : ℕ}
    {data : Bytes} (hdata : packets[pid]? = some data) :
    fragmentCount l all pid = cutCount data.length l.fragSize := by
  obtain ⟨more, rfl⟩ := h
  rw [fragmentCount, getElem?_packets_append hdata more]
  rfl

/-- What holds while nothing expires. -/
structure Ongoing (ic : IntCoding) (l : Link) (packets : List Bytes) (t₀ : ℤ) (hs : List Handout)
    (s : Transfer) : Prop where
  inv : TransferInv ic l packets hs s
  unexpired : Unexpired l packets t₀ s

section Runs

variable {ic : IntCoding} {l : Link} {t₀ : ℤ} {as : List Action} {s s' : Transfer}
  {outs : List (Option Handout)} {o : Option Handout} {a : Action} {pid : ℕ} {data : Bytes}

/-- **One action.** -/
lemma Ongoing.step (h : Ongoing ic l (enqueued as) t₀ (handouts outs) s)
    (hic : ic.Inverse (2 ^ 31)) {more : List Action} (ht : Timely l t₀ (as ++ a :: more))
    (hstep : Transfer.step ic l s a = .ok (s', o)) :
    Ongoing ic l (enqueued (as ++ [a])) t₀ (handouts (outs ++ [o])) s'
      ∧ (s' = s ∨ ∃ e, a.event ic l = some e
        ∧ Step (fragmentCount l (enqueued (as ++ a :: more))) (s.exchange ic l) e
          (s'.exchange ic l)
        ∧ ∀ pid, e = .take pid →
          ∃ data, (enqueued as)[pid]? = some data ∧ o = some (pid, 0, data, data.length)) := by
  have hone : enqueued (as ++ [a]) = enqueued as ++ a.packet.toList := by
    rw [enqueued_append, enqueued, enqueued, filterMap_singleton]
  have hlong : as ++ a :: more = (as ++ [a]) ++ more := by simp
  have ht' : Timely l t₀ (as ++ [a]) := by
    rw [hlong] at ht
    exact ht.of_append
  have hsize : ∀ pid data, (enqueued as)[pid]? = some data →
      fragmentCount l (enqueued (as ++ a :: more)) pid = cutCount data.length l.fragSize :=
    fun pid data hdata => fragmentCount_of_prefix
      (by rw [enqueued_append]; exact List.prefix_append _ _) hdata
  have hids := ht'.ids
  have hfit := ht'.packets
  rw [hone] at hids hfit
  obtain ⟨s₁, o₁, hstep₁, hinv⟩ := h.inv.step hic hids hfit
  obtain ⟨rfl, rfl⟩ := ok_unique hstep hstep₁
  obtain ⟨hkeep, hchange⟩ := exchange_step _ h.inv h.unexpired hic hids hsize ht'.of_append.packets
    (fun data hdata => enqueued_pos hdata) (ht.within a (by simp)) hstep
  rw [hone, handouts_append, handouts, handouts, filterMap_singleton]
  exact ⟨⟨hinv, hkeep⟩, hchange⟩

/-- **A run** from the start. -/
lemma ongoing_of_exec (hic : ic.Inverse (2 ^ 31)) (ht : Timely l t₀ as)
    (h : exec (Transfer.step ic l) (Transfer.init l) as = .ok (s, outs)) :
    Ongoing ic l (enqueued as) t₀ (handouts outs) s := by
  refine exec_history (J := fun as outs s => Timely l t₀ as →
    Ongoing ic l (enqueued as) t₀ (handouts outs) s) h
    (fun _ => ⟨Transfer.init_inv ic l, Transfer.init_unexpired l t₀⟩) ?_ ht
  intro as outs s a o s' hJ hstep ht
  exact ((hJ ht.of_append).step hic ht hstep).1

/-! ## Nothing is forgotten -/

lemma event_loses {e : SelectiveRepeat.Event ℕ} (h : a.event ic l = some e) (ha : ¬ a.Loses) :
    ¬ e.Loses := by
  cases a with
  | lose d => exact absurd trivial ha
  | loseRequest d => exact absurd trivial ha
  | enqueue data tSweep tCreate =>
      rw [Action.event] at h
      split_ifs at h
      cases h
      exact id
  | transmit =>
      cases h
      exact id
  | request forwarded =>
      cases h
      exact ha
  | pop pid t =>
      cases h
      exact id
  | deliver d tSweep tCreate =>
      obtain ⟨x, -, rfl⟩ := Option.map_eq_some_iff.mp h
      exact id
  | answer d tSweep tCreate =>
      obtain ⟨x, -, rfl⟩ := Option.map_eq_some_iff.mp h
      exact id

/-- Only a packet is sent anew. -/
lemma event_send (h : a.event ic l = some .send) : a.packet ≠ none := by
  cases a with
  | enqueue data tSweep tCreate =>
      rw [Action.event] at h
      split_ifs at h with hdata
      rw [Action.packet, if_pos (List.length_pos_iff.mpr hdata)]
      exact Option.some_ne_none _
  | deliver d tSweep tCreate | lose d | answer d tSweep tCreate | loseRequest d =>
      obtain ⟨x, -, hx⟩ := Option.map_eq_some_iff.mp h
      cases hx
  | transmit | request forwarded | pop pid t => cases h

/-- What happens to the datagrams under way when one of them arrives. -/
lemma toReceiver_of_deliver {d : Bytes} {tSweep tCreate : ℤ} (hd : d ∈ s.toReceiver)
    (hstep : Transfer.step ic l s (.deliver d tSweep tCreate) = .ok (s', o)) :
    s'.toReceiver = s.toReceiver.erase d := by
  rw [Transfer.step, if_pos hd, Eval.bind_eq_ok] at hstep
  obtain ⟨⟨receiver, arrived⟩, -, hstep⟩ := hstep
  cases hstep
  rfl

lemma ne_of_deliver {d : Bytes} {tSweep tCreate : ℤ} (hd : d ∈ s.toReceiver)
    (hstep : Transfer.step ic l s (.deliver d tSweep tCreate) = .ok (s', o)) : s' ≠ s := by
  rintro rfl
  have hlen := congrArg List.length (toReceiver_of_deliver hd hstep)
  have hone := List.length_erase_add_one hd
  omega

/-- **The last fragment is there**: all fragments of the packet are kept track of. -/
lemma Ongoing.tracked_of_deliver (h : Ongoing ic l (enqueued as) t₀ (handouts outs) s)
    (hic : ic.Inverse (2 ^ 31)) {d : Bytes} {tSweep tCreate : ℤ} {more : List Action}
    (ht : Timely l t₀ (as ++ .deliver d tSweep tCreate :: more)) (hd : d ∈ s.toReceiver) {i : ℕ}
    (hid : datagramId ic l d = some (pid, i)) (hdata : (enqueued as)[pid]? = some data)
    (hlast : i + 1 = cutCount data.length l.fragSize
      ∨ s.receiver.holdsSlot l.senderNode (pid, cutCount data.length l.fragSize - 1) = true)
    (hstep : Transfer.step ic l s (.deliver d tSweep tCreate) = .ok (s', o)) :
    ∀ j < cutCount data.length l.fragSize, Tracked (s'.exchange ic l) (pid, j) := by
  obtain ⟨-, hsame | ⟨e, he, hone, -⟩⟩ := h.step hic ht hstep
  · exact absurd hsame (ne_of_deliver hd hstep)
  · rw [Action.event, hid] at he
    cases he
    have hcount : fragmentCount l (enqueued (as ++ .deliver d tSweep tCreate :: more)) pid
        = cutCount data.length l.fragSize :=
      fragmentCount_of_prefix (by rw [enqueued_append]; exact List.prefix_append _ _) hdata
    intro j hj
    refine hone.tracked_of_deliver ?_ (hj.trans_eq hcount.symm)
    rw [hone.held_of_deliver, hcount]
    rcases hlast with hi | hheld
    · rw [← hi, Nat.add_sub_cancel, Function.update_self]
    · by_cases hx : (pid, cutCount data.length l.fragSize - 1) = (pid, i)
      · rw [hx, Function.update_self]
      · rw [Function.update_of_ne hx]
        exact hheld

/-- **No fragment is forgotten** until the packet is handed out. -/
lemma Ongoing.tracked (h : Ongoing ic l (enqueued as) t₀ (handouts outs) s)
    (hic : ic.Inverse (2 ^ 31)) {more : List Action} (ht : Timely l t₀ (as ++ a :: more))
    (hdata : (enqueued as)[pid]? = some data) (ha : ¬ a.Loses)
    (htracked : ∀ j < cutCount data.length l.fragSize, Tracked (s.exchange ic l) (pid, j))
    (hstep : Transfer.step ic l s a = .ok (s', o)) :
    o = some (pid, 0, data, data.length)
      ∨ ∀ j < cutCount data.length l.fragSize, Tracked (s'.exchange ic l) (pid, j) := by
  obtain ⟨-, rfl | ⟨e, he, hone, htake⟩⟩ := h.step hic ht hstep
  · exact Or.inr htracked
  · by_cases hpid : e = .take pid
    · obtain ⟨data', hdata', ho⟩ := htake pid hpid
      obtain rfl := Option.some.inj (hdata.symm.trans hdata')
      exact Or.inl ho
    · exact Or.inr fun j hj => hone.tracked (event_loses he ha) hpid (htracked j hj)

/-- What is kept track of when nothing is under way is ready. -/
lemma Ongoing.ready_of_rest (h : Ongoing ic l (enqueued as) t₀ (handouts outs) s)
    (ht : Timely l t₀ as) (hdata : (enqueued as)[pid]? = some data)
    (htracked : ∀ j < cutCount data.length l.fragSize, Tracked (s.exchange ic l) (pid, j))
    (hrest : s.AtRest) : pid ∈ s.ready := by
  have hexchange : (s.exchange ic l).Rest := by
    constructor
    · simp [Transfer.exchange, hrest.receiver, requestedIds]
    · simp [Transfer.exchange, hrest.toSender]
    · simp [Transfer.exchange, hrest.sender, queuedIds]
    · simp [Transfer.exchange, hrest.toReceiver]
  have hheld : ∀ j < cutCount data.length l.fragSize,
      s.receiver.holdsSlot l.senderNode (pid, j) = true :=
    fun j hj => (htracked j hj).held_of_rest hexchange
  have hmem := List.mem_of_getElem? hdata
  have hpos : 0 < cutCount data.length l.fragSize := by
    have hone := enqueued_pos hmem
    rw [cutCount_eq l.fragSize_pos (ht.packets data hmem).1]
    exact Nat.div_pos (by omega) l.fragSize_pos
  have hfirst := hheld 0 hpos
  rw [h.unexpired.ready]
  cases hl : (s.receiver.endpointFor l.senderNode).incoming.lookup pid with
  | none =>
      rw [NetworkManager.holdsSlot, hl] at hfirst
      cases hfirst
  | some fp =>
      obtain ⟨data', ids, hdata', hg⟩ := h.inv.receiver.stored pid fp hl
      obtain rfl := Option.some.inj (hdata.symm.trans hdata')
      refine ⟨fp, rfl, FragmentedPacket.complete_iff.mpr fun j hj => ?_⟩
      rw [hg.fragNum] at hj
      have hslot := hheld j hj
      rw [NetworkManager.holdsSlot, hl, Option.bind_some] at hslot
      exact Option.isSome_iff_ne_none.mp hslot

/-- A packet that is ready can be popped. -/
lemma Ongoing.pop (h : Ongoing ic l (enqueued as) t₀ (handouts outs) s) (ht : Timely l t₀ as)
    (hpid : pid ∈ s.ready) (hdata : (enqueued as)[pid]? = some data) {t : ℤ}
    (hlt : t < t₀ + l.age) :
    ∃ s', Transfer.step ic l s (.pop pid t) = .ok (s', some (pid, 0, data, data.length)) := by
  obtain ⟨data', hdata', hans, -⟩ := h.unexpired.popAnswer h.inv hlt hpid ht.packets
  obtain rfl := Option.some.inj (hdata.symm.trans hdata')
  rw [Transfer.step, if_pos hpid]
  simp only [h.inv.receiver.inv.popPacket, hans]
  exact ⟨_, rfl⟩

/-- **Lost fragments are recovered.**  When the last fragment of a packet is there, the arrival of
any of its fragments is enough: if nothing is lost from then on and nothing expires, then by the
time nothing is queued or under way any more the packet has been handed out as it was sent, or it
can be popped. -/
theorem recovery (hic : ic.Inverse (2 ^ 31)) {pre post : List Action} {d : Bytes}
    {tSweep tCreate : ℤ} (ht : Timely l t₀ (pre ++ .deliver d tSweep tCreate :: post))
    {outs₁ : List (Option Handout)} {s₁ : Transfer}
    (hpre : exec (Transfer.step ic l) (Transfer.init l) pre = .ok (s₁, outs₁))
    (hd : d ∈ s₁.toReceiver) {i : ℕ} (hid : datagramId ic l d = some (pid, i))
    (hdata : (enqueued pre)[pid]? = some data)
    (hlast : i + 1 = cutCount data.length l.fragSize
      ∨ s₁.receiver.holdsSlot l.senderNode (pid, cutCount data.length l.fragSize - 1) = true)
    (hpost : exec (Transfer.step ic l) s₁ (.deliver d tSweep tCreate :: post) = .ok (s, outs))
    (hlose : ∀ a ∈ post, ¬ a.Loses) (hrest : s.AtRest) :
    (pid, 0, data, data.length) ∈ handouts outs
      ∨ ∀ t, t < t₀ + l.age →
        ∃ s', Transfer.step ic l s (.pop pid t) = .ok (s', some (pid, 0, data, data.length)) := by
  have hstart := ongoing_of_exec hic ht.of_append hpre
  obtain ⟨s₂, o, outs₂, hstep, hrun, rfl⟩ := exec_cons_eq_ok.mp hpost
  have hlong : pre ++ .deliver d tSweep tCreate :: post
      = (pre ++ [.deliver d tSweep tCreate]) ++ post := by simp
  have htracked := hstart.tracked_of_deliver hic ht hd hid hdata hlast hstep
  have hone := (hstart.step hic ht hstep).1
  have hdata₂ : ∀ more, (enqueued (pre ++ [.deliver d tSweep tCreate] ++ more))[pid]?
      = some data := fun more => by
    rw [enqueued_append, enqueued_append]
    exact getElem?_packets_append (getElem?_packets_append hdata _) _
  rw [hlong] at ht
  -- along the rest of the run
  obtain ⟨hend, hdone⟩ := exec_history (J := fun as os s =>
      Timely l t₀ (pre ++ [.deliver d tSweep tCreate] ++ as) → (∀ a ∈ as, ¬ a.Loses) →
      Ongoing ic l (enqueued (pre ++ [.deliver d tSweep tCreate] ++ as)) t₀
          (handouts (outs₁ ++ [o] ++ os)) s
        ∧ (some (pid, 0, data, data.length) ∈ os
          ∨ ∀ j < cutCount data.length l.fragSize, Tracked (s.exchange ic l) (pid, j))) hrun
    (fun _ _ => ⟨by simpa using hone, Or.inr htracked⟩) (by
      intro as os s a o' s' hJ hstep' ht' hlose'
      rw [← List.append_assoc] at ht'
      obtain ⟨hnow, hdone⟩ := hJ ht'.of_append fun a ha => hlose' a (List.mem_append_left _ ha)
      refine ⟨by simpa using (hnow.step hic ht' hstep').1, ?_⟩
      rcases hdone with hdone | htracked
      · exact Or.inl (List.mem_append_left _ hdone)
      · rcases hnow.tracked hic ht' (hdata₂ as) (hlose' a (by simp)) htracked hstep' with ho | hmore
        · exact Or.inl (by simp [ho])
        · exact Or.inr hmore) ht hlose
  rcases hdone with hdone | htracked
  · exact Or.inl (List.mem_filterMap.mpr ⟨_, List.mem_cons_of_mem _ hdone, rfl⟩)
  · have hready := hend.ready_of_rest ht (hdata₂ post) htracked hrest
    exact Or.inr fun t hlt => hend.pop ht hready (hdata₂ post) hlt

end Runs

/-- The datagrams of the two fragments of a packet of four bytes. -/
def firstDatagram : Bytes := [0, 0, 0, 0, 2, 0, 0, 0, 0, 0, 3, 1, 2, 3]
def lastDatagram : Bytes := [0, 0, 0, 0, 2, 0, 1, 0, 0, 0, 1, 4]

/-- The packet is sent, and its first fragment is lost. -/
def firstLost : List Action :=
  [.enqueue [1, 2, 3, 4] 0 0, .transmit, .transmit, .lose firstDatagram]

/-- The last fragment arrives, and the first one is asked for and sent again. -/
def sentAgain : List Action :=
  [.request true, .answer [1, 0, 0, 0, 0] 1 1, .transmit, .deliver firstDatagram 1 1]

end PeerStreamer
