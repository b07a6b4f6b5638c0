import PeerStreamer.Foundation.SelectiveRepeat
import PeerStreamer.NetHelper.Unexpired

/-!
# The exchange of fragments and requests

While nothing expires, a transfer is an exchange by selective repeat: `Transfer.exchange` says where
the fragments are, and every action that does anything is a step of it (`exchange_step`).
-/

namespace PeerStreamer

open SelectiveRepeat (Event Step)

/-! ## The exchange -/

/-- The packet id and position of the requests on a queue. -/
def requestedIds (q : MsgList) : List (ℕ × ℕ) :=
  q.filterMap fun
    | .fragment _ _ _ => none
    | .request r => some (r.pid, r.id)

/-- The packet id and position a datagram asks for. -/
def requestId (ic : IntCoding) (l : Link) (d : Bytes) : Option (ℕ × ℕ) :=
  match netMsgDecode ic l.senderNode l.receiverNode d with
  | .ok (some (.fragRequest fr)) => some (fr.pid, fr.id)
  | _ => none

/-- Where the fragments of a transfer are. -/
def Transfer.exchange (ic : IntCoding) (l : Link) (s : Transfer) : SelectiveRepeat ℕ where
  held := s.receiver.holdsSlot l.senderNode
  requested := requestedIds s.receiver.outqueue
  asked := s.toSender.filterMap (requestId ic l)
  queued := queuedIds s.sender.outqueue
  sent := s.toReceiver.filterMap (datagramId ic l)

/-- What an action does to the exchange, if it does anything. -/
def Action.event (ic : IntCoding) (l : Link) : Action → Option (Event ℕ)
  | .enqueue data _ _ => if data = [] then none else some .send
  | .transmit => some .transmit
  | .deliver d _ _ => (datagramId ic l d).map .deliver
  | .lose d => (datagramId ic l d).map .lose
  | .request forwarded => some (.request forwarded)
  | .answer d _ _ => (requestId ic l d).map .answer
  | .loseRequest d => (requestId ic l d).map .loseRequest
  | .pop pid _ => some (.take pid)

/-! ## Time -/

/-- The times an action reads from the clock. -/
def Action.times : Action → List ℤ
  | .enqueue _ tSweep tCreate => [tSweep, tCreate]
  | .deliver _ tSweep tCreate => [tSweep, tCreate]
  | .answer _ tSweep tCreate => [tSweep, tCreate]
  | .pop _ tSweep => [tSweep]
  | _ => []

/-- The age at which packets expire at either node. -/
def Link.age (l : Link) : ℕ :=
  min (networkManagerCreate l.senderConfig).maxPktAge
    (networkManagerCreate l.receiverConfig).maxPktAge

/-- The action is taken before anything from `t₀` on expires. -/
def Action.Within (l : Link) (t₀ : ℤ) (a : Action) : Prop :=
  ∀ t ∈ a.times, t₀ ≤ t ∧ t < t₀ + l.age

instance (l : Link) (t₀ : ℤ) (a : Action) : Decidable (a.Within l t₀) :=
  inferInstanceAs (Decidable (∀ t ∈ a.times, _))

/-- The transfer while nothing expires: the sender has all packets, and the receiver knows which of
its packets are complete. -/
structure Unexpired (l : Link) (packets : List Bytes) (t₀ : ℤ) (s : Transfer) : Prop where
  senderAge : l.age ≤ s.sender.maxPktAge
  receiverAge : l.age ≤ s.receiver.maxPktAge
  sent : (s.sender.endpointFor l.receiverNode).outgoing.Since t₀
  stored : ∀ pid data, packets[pid]? = some data → ∃ t,
    s.sender.sentShape l.receiverNode pid = some (cutCount data.length l.fragSize, t)
  received : (s.receiver.endpointFor l.senderNode).incoming.Since t₀
  ready : ∀ pid, pid ∈ s.ready ↔ ∃ fp,
    (s.receiver.endpointFor l.senderNode).incoming.lookup pid = some fp ∧ fp.Complete

section Steps

variable {ic : IntCoding} {l : Link} {packets : List Bytes} {s s' : Transfer} {hs : List Handout}
  {o : Option Handout} {t₀ : ℤ} {size : ℕ → ℕ}

lemma Transfer.init_unexpired (l : Link) (t₀ : ℤ) : Unexpired l [] t₀ (Transfer.init l) where
  senderAge := Nat.min_le_left _ _
  receiverAge := Nat.min_le_right _ _
  sent pid fp hl := by
    rw [Transfer.init, NetworkManager.endpointFor_of_none (networkManagerCreate_endpoint _ _)] at hl
    simp [endpointCreate] at hl
  stored pid data hdata := by simp at hdata
  received pid fp hl := by
    rw [Transfer.init, NetworkManager.endpointFor_of_none (networkManagerCreate_endpoint _ _)] at hl
    simp [endpointCreate] at hl
  ready pid := by
    rw [Transfer.init, NetworkManager.endpointFor_of_none (networkManagerCreate_endpoint _ _)]
    simp [endpointCreate]

/-- `sentShape` says how old the packets of the sender are. -/
lemma since_of_sentShape {nm nm' : NetworkManager} {n : NodeID}
    (h : (nm.endpointFor n).outgoing.Since t₀) (hshape : nm'.sentShape = nm.sentShape) :
    (nm'.endpointFor n).outgoing.Since t₀ := by
  intro pid fp hl
  have hsent : nm.sentShape n pid = some fp.shape := by
    rw [← hshape, NetworkManager.sentShape, hl, Option.map_some]
  obtain ⟨fp', hl', heq⟩ := Option.map_eq_some_iff.mp hsent
  have hage : fp'.creationTimestamp = fp.creationTimestamp := congrArg Prod.snd heq
  rw [← hage]
  exact h pid fp' hl'

/-- The sender only moves messages. -/
lemma Unexpired.of_sender (h : Unexpired l packets t₀ s) {sender : NetworkManager}
    (hshape : sender.sentShape = s.sender.sentShape)
    (hage : sender.maxPktAge = s.sender.maxPktAge) (toReceiver toSender : List Bytes) :
    Unexpired l packets t₀ { s with sender, toReceiver, toSender } where
  senderAge := hage ▸ h.senderAge
  receiverAge := h.receiverAge
  sent := since_of_sentShape h.sent hshape
  stored pid data hdata := by rw [hshape]; exact h.stored pid data hdata
  received := h.received
  ready := h.ready

/-- A request is about the fragment it was made for. -/
lemma Askable.requestId (hic : ic.Inverse (2 ^ 31)) (hids : packets.length < 65536)
    {fr : FragRequest} {b : Bool} (h : Askable packets l.fragSize fr.pid fr.id) (fragSize : ℕ) :
    requestId ic l (messageDatagram ic fragSize (.fragRequest { fr with linked := b }))
      = some (fr.pid, fr.id) := by
  obtain ⟨hpid, hid⟩ := h.lt
  have hheader : FRAG_REQUEST_HEADER_LEN = 5 := rfl
  have hpid' : ({ fr with linked := b } : FragRequest).pid < 2 ^ 16 := hpid.trans (by omega)
  obtain ⟨buff, henc, hdec⟩ := hic.decode_encode_request_append
    (fragSize + 100) hpid' hid (by omega) [] l.senderNode l.receiverNode
  rw [List.append_nil] at hdec
  rw [messageDatagram, henc, Option.getD_some, PeerStreamer.requestId, hdec]

/-! ## An arrival -/

section Arrival

variable {nm : NetworkManager} {ready : List ℕ} {f : Fragment} {tSweep : ℤ} (tCreate : ℤ)
  (hside : ReceiverSide l packets nm ready)
  (hsince : (nm.endpointFor l.senderNode).incoming.Since t₀) (ht : tSweep < t₀ + nm.maxPktAge)
  (hf : SentPiece packets l.fragSize f) (hfrom : f.fromNode = l.senderNode)

include hside hf hfrom

/-- There is a slot for the fragment. -/
lemma ReceiverSide.target_fragNum (tSweep tCreate : ℤ)
    (hsize : ∀ pid data, packets[pid]? = some data → size pid = cutCount data.length l.fragSize) :
    (nm.target f tSweep tCreate).fragNum = size f.pid
      ∧ f.id < (nm.target f tSweep tCreate).fragNum := by
  obtain ⟨data, hdata, hpiece⟩ := hf
  obtain ⟨ids, htarget⟩ := hside.target hdata hpiece hfrom tSweep tCreate
  rw [htarget.fragNum, hsize f.pid data hdata, ← hpiece.fragNum]
  exact ⟨rfl, hpiece.id⟩

include hsince ht

/-- **What is asked for** when a fragment arrives. -/
lemma ReceiverSide.arrived_asks
    (hsize : ∀ pid data, packets[pid]? = some data → size pid = cutCount data.length l.fragSize) :
    (nm.arrived f tSweep tCreate).holdsSlot l.senderNode
        = Function.update (nm.holdsSlot l.senderNode) (f.pid, f.id) true
      ∧ ∃ xs, requestedIds (nm.arrived f tSweep tCreate).outqueue = xs ++ requestedIds nm.outqueue
        ∧ SelectiveRepeat.Asks size ((nm.arrived f tSweep tCreate).holdsSlot l.senderNode)
          (f.pid, f.id) xs := by
  obtain ⟨hnum, hlt⟩ := hside.target_fragNum hf hfrom tSweep tCreate hsize
  have hdata : f.data ≠ none := by
    obtain ⟨data, -, hpiece⟩ := hf
    rw [hpiece.data]
    exact Option.some_ne_none _
  have hpid : (nm.target f tSweep tCreate).packetId = f.pid :=
    (hside.inv.wf.endpointFor_wf f.fromNode).incoming.target_packetId tSweep tCreate
  rw [← hfrom] at hsince ⊢
  have hheld := hside.inv.wf.holdsSlot_arrived_of_since tCreate hsince ht hdata hlt
  have hself := hside.inv.wf.holdsSlot_arrived_self tCreate hsince ht
  refine ⟨hheld, (missingIds (nm.target f tSweep tCreate) f).map (f.pid, ·), ?_, ?_, ?_⟩
  · rw [NetworkManager.arrived_outqueue, requestedIds, List.filterMap_append, arrivalRequests,
      List.filterMap_map]
    congr 1
    refine List.filterMap_eq_map_iff_forall_eq_some.mpr fun i _ => ?_
    simp only [Function.comp_apply, fragRequestCreate, hpid]
  · intro y hy
    obtain ⟨i, hi, rfl⟩ := List.mem_map.mp hy
    have hnext := succ_lt_of_mem_missingIds hdata hi
    rw [missingIds, if_pos hlt, FragmentedPacket.requestIds, List.mem_reverse, List.mem_filter,
      decide_eq_true_eq] at hi
    rw [hself, hi.2.1, ← hnum]
    exact ⟨rfl, hnext, rfl⟩
  · intro hlast i hi hmissing
    rw [hself] at hlast hmissing
    have hnone : ((nm.target f tSweep tCreate).put f).slotData i = none := by
      rwa [Option.isSome_eq_false_iff, Option.isNone_iff_eq_none] at hmissing
    have hsome := Option.isSome_iff_ne_none.mp hlast
    have hne : i ≠ size f.pid - 1 := by
      rintro rfl
      exact hsome hnone
    refine List.mem_map.mpr ⟨i, ?_, rfl⟩
    dsimp only at hi hsome
    rw [missingIds, if_pos hlt, FragmentedPacket.requestIds, List.mem_reverse, List.mem_filter,
      List.mem_range, FragmentedPacket.put_fragNum, hnum, decide_eq_true_eq]
    refine ⟨hi, hnone, Or.inr ⟨size f.pid - 1, ?_, by omega, hsome⟩⟩
    rw [FragmentedPacket.put_fragNum, hnum]
    omega

/-- **Which packets are ready** after an arrival. -/
lemma ReceiverSide.arrived_ready
    (hsize : ∀ pid data, packets[pid]? = some data → size pid = cutCount data.length l.fragSize)
    (hready : ∀ pid, pid ∈ ready ↔ ∃ fp,
      (nm.endpointFor l.senderNode).incoming.lookup pid = some fp ∧ fp.Complete) (pid : ℕ) :
    (pid ∈ if arrivalState (nm.target f tSweep tCreate) f = .ready then
        f.pid :: ready.filter (· ≠ f.pid) else ready.filter (· ≠ f.pid))
      ↔ ∃ fp, ((nm.arrived f tSweep tCreate).endpointFor l.senderNode).incoming.lookup pid = some fp
        ∧ fp.Complete := by
  obtain ⟨-, hlt⟩ := hside.target_fragNum hf hfrom tSweep tCreate hsize
  have hstate : arrivalState (nm.target f tSweep tCreate) f = .ready
      ↔ ((nm.target f tSweep tCreate).put f).Complete := by
    rw [arrivalState, if_pos hlt]
    split_ifs with hc <;> simp [hc]
  rw [← hfrom] at hsince hready ⊢
  rw [hside.inv.wf.lookup_arrived_of_since tCreate hsince ht]
  by_cases hpid : f.pid = pid
  · subst hpid
    simp only [if_pos, hstate, Option.some.injEq, exists_eq_left']
    split_ifs with hc
    · simp [hc]
    · simp [hc]
  · rw [if_neg hpid, ← hready]
    split_ifs
    · simp [Ne.symm hpid]
    · simp [Ne.symm hpid]

end Arrival

/-! ## One action -/

variable (size) (hinv : TransferInv ic l packets hs s) (h : Unexpired l packets t₀ s)

include hinv h

/-- **A message** of the sender is put on the network. -/
lemma Unexpired.transmit (hic : ic.Inverse (2 ^ 31)) (hids : packets.length < 65536)
    (hstep : Transfer.step ic l s .transmit = .ok (s', o)) :
    Unexpired l packets t₀ s'
      ∧ (s' = s ∨ Step size (s.exchange ic l) .transmit (s'.exchange ic l)) := by
  obtain ⟨ops, hside, rfl⟩ := hinv.sender
  rw [Transfer.step, Eval.bind_eq_ok] at hstep
  obtain ⟨⟨nm, m⟩, hcall, hstep⟩ := hstep
  cases hstep
  obtain ⟨hshape, hage⟩ := hside.served.inv.sentShape_popMsg hcall
  refine ⟨h.of_sender hshape hage _ _, ?_⟩
  cases hq : s.sender.outqueue with
  | nil =>
      rw [networkManagerPopOutgoingNetMsg, hq] at hcall
      cases hcall
      simp
  | cons el q =>
      obtain ⟨nm', m', hpop, -, htail⟩ := hside.served.inv.popMsg
      obtain ⟨rfl, rfl⟩ := ok_unique hcall hpop
      rcases hside.popMsg_ids hcall with ⟨-, hsame⟩ | ⟨f, rfl, hqueue⟩
      · rw [htail, hq] at hsame
        exact absurd hsame (List.cons_ne_self el q).symm
      · have hsame : payloads l.receiverNode (ops ++ [.popMsg]) = payloads l.receiverNode ops := by
          simp [payloads, NmOp.payloadTo]
        have hop : NmOp.popMsg.SenderCall l := trivial
        obtain ⟨nm', a, hstep, -, -, hpiece⟩ := hside.step hop (by rw [hsame]; exact hids)
        rw [networkManagerStep, hcall] at hstep
        cases hstep
        obtain ⟨hf, hgoes⟩ := hpiece f rfl
        rw [hsame] at hf
        simp only [Option.filter_some, hgoes, if_true, Option.map_some, Option.toList_some]
        have hsent : (s.toReceiver ++ [messageDatagram ic s.sender.fragSize
            (.fragment f)]).filterMap (datagramId ic l)
            = s.toReceiver.filterMap (datagramId ic l) ++ [(f.pid, f.id)] := by
          rw [List.filterMap_append, messageDatagram, hside.pieces.fragSize]
          simp [hf.datagramId hic hids]
        have hexchange : Transfer.exchange ic l { s with
            sender := nm
            toReceiver := s.toReceiver ++ [messageDatagram ic s.sender.fragSize (.fragment f)] }
            = { s.exchange ic l with
              queued := queuedIds nm.outqueue
              sent := (s.exchange ic l).sent ++ [(f.pid, f.id)] } := by
          simp only [Transfer.exchange, hsent]
        exact Or.inr (hexchange ▸ Step.transmit hqueue)

/-- A request of the receiver is put on the network. -/
lemma Unexpired.request (hic : ic.Inverse (2 ^ 31)) (hids : packets.length < 65536)
    {forwarded : Bool} (hstep : Transfer.step ic l s (.request forwarded) = .ok (s', o)) :
    Unexpired l packets t₀ s'
      ∧ (s' = s ∨ Step size (s.exchange ic l) (.request forwarded) (s'.exchange ic l)) := by
  rw [Transfer.step, Eval.bind_eq_ok] at hstep
  obtain ⟨⟨nm, m⟩, hcall, hstep⟩ := hstep
  cases hstep
  cases hq : s.receiver.outqueue with
  | nil =>
      rw [networkManagerPopOutgoingNetMsg, hq] at hcall
      cases hcall
      refine ⟨?_, Or.inl (by simp)⟩
      simpa using h
  | cons el q =>
      obtain ⟨fr, rfl, hask⟩ := hinv.receiver.requests el (by rw [hq]; exact List.mem_cons_self)
      rw [networkManagerPopOutgoingNetMsg, hq] at hcall
      cases hcall
      refine ⟨⟨h.senderAge, h.receiverAge, h.sent, h.stored, h.received, h.ready⟩, Or.inr ?_⟩
      have hrequested : (s.exchange ic l).requested = (fr.pid, fr.id) :: requestedIds q := by
        rw [Transfer.exchange, hq]
        rfl
      rw [Option.filter_some]
      by_cases hcarried : (forwarded || NetMessage.Goes l.receiverNode l.senderNode
          (.fragRequest { fr with linked := false })) = true
      · have hasked : (s.toSender ++ [messageDatagram ic s.receiver.fragSize
            (.fragRequest { fr with linked := false })]).filterMap (requestId ic l)
            = s.toSender.filterMap (requestId ic l) ++ [(fr.pid, fr.id)] := by
          rw [List.filterMap_append, filterMap_singleton, hask.requestId hic hids]
          rfl
        have hexchange : Transfer.exchange ic l { s with
            receiver := { s.receiver with outqueue := q }
            toSender := s.toSender ++ [messageDatagram ic s.receiver.fragSize
              (.fragRequest { fr with linked := false })] }
            = { s.exchange ic l with
              requested := requestedIds q
              asked := (s.exchange ic l).asked ++ [(fr.pid, fr.id)] } := by
          simp only [Transfer.exchange, hasked]
          rfl
        rw [if_pos hcarried, Option.map_some, Option.toList_some]
        exact hexchange ▸ Step.request hrequested
      · -- it goes to the receiver itself
        obtain rfl : forwarded = false := by
          cases forwarded with
          | false => rfl
          | true => simp at hcarried
        have hexchange : Transfer.exchange ic l { s with
            receiver := { s.receiver with outqueue := q }
            toSender := s.toSender ++ [] }
            = { s.exchange ic l with requested := requestedIds q } := by
          simp only [Transfer.exchange, List.append_nil]
          rfl
        rw [if_neg hcarried, Option.map_none, Option.toList_none]
        exact hexchange ▸ Step.drop hrequested

/-- **A fragment arrives**, and everything that is missing of its packet is asked for. -/
lemma Unexpired.deliver (hic : ic.Inverse (2 ^ 31)) (hids : packets.length < 65536)
    (hsize : ∀ pid data, packets[pid]? = some data → size pid = cutCount data.length l.fragSize)
    {d : Bytes} {tSweep tCreate : ℤ} (ht : tSweep < t₀ + l.age) (hc : t₀ ≤ tCreate)
    (hstep : Transfer.step ic l s (.deliver d tSweep tCreate) = .ok (s', o)) :
    Unexpired l packets t₀ s' ∧ (s' = s ∨ ∃ x, datagramId ic l d = some x
      ∧ Step size (s.exchange ic l) (.deliver x) (s'.exchange ic l)) := by
  by_cases hd : d ∈ s.toReceiver
  · obtain ⟨f, hf, rfl⟩ := hinv.toReceiver d hd
    have hid := hf.datagramId hic hids
    have hage : tSweep < t₀ + s.receiver.maxPktAge := by
      have := h.receiverAge
      omega
    have hpiece := hf.received l.receiverNode l.senderNode
    have hready := fun pid => hinv.receiver.arrived_ready tCreate h.received hage
      hpiece rfl hsize h.ready pid
    obtain ⟨hheld, xs, hrequested, hasks⟩ := hinv.receiver.arrived_asks tCreate
      h.received hage hpiece rfl hsize
    have hsince : ((s.receiver.arrived (f.received l.receiverNode l.senderNode) tSweep
        tCreate).endpointFor l.senderNode).incoming.Since t₀ :=
      hinv.receiver.inv.wf.since_arrived tCreate (f := f.received l.receiverNode l.senderNode)
        h.received hage hc
    have hsent := (List.perm_cons_erase hd).filterMap (datagramId ic l)
    rw [List.filterMap_cons_some hid] at hsent
    rw [Transfer.step, if_pos hd, handleDatagram, hf.decode_link hic hids] at hstep
    simp only [Eval.ok_bind, Eval.pure_eq_ok, hinv.receiver.inv.addFragment, Except.ok.injEq,
      Prod.mk.injEq] at hstep
    obtain ⟨rfl, -⟩ := hstep
    refine ⟨⟨h.senderAge, h.receiverAge.trans_eq NetworkManager.put_maxPktAge.symm, h.sent,
      h.stored, hsince, hready⟩, Or.inr ⟨(f.pid, f.id), hid, ?_⟩⟩
    rw [hheld] at hasks
    have hexchange := Step.deliver (s := s.exchange ic l) hsent hasks
    simp only [Transfer.exchange] at hexchange ⊢
    rw [hheld, hrequested]
    exact hexchange
  · rw [Transfer.step, if_neg hd] at hstep
    cases hstep
    exact ⟨h, Or.inl rfl⟩

/-- **A request is answered**, unless the fragment is queued already. -/
lemma Unexpired.answer {d : Bytes} {tSweep tCreate : ℤ} (ht : tSweep < t₀ + l.age)
    (hstep : Transfer.step ic l s (.answer d tSweep tCreate) = .ok (s', o)) :
    Unexpired l packets t₀ s' ∧ (s' = s ∨ ∃ x, requestId ic l d = some x
      ∧ Step size (s.exchange ic l) (.answer x) (s'.exchange ic l)) := by
  by_cases hd : d ∈ s.toSender
  · obtain ⟨fr, ⟨data, hdata, hlt⟩, hdec⟩ := hinv.toSender d hd
    obtain ⟨ops, hside, rfl⟩ := hinv.sender
    have hid : requestId ic l d = some (fr.pid, fr.id) := by rw [requestId, hdec]
    have hage : tSweep < t₀ + s.sender.maxPktAge := by
      have := h.senderAge
      omega
    obtain ⟨t, hshape⟩ := h.stored fr.pid data hdata
    obtain ⟨hsame, hmax, hqueue⟩ := hside.served.inv.enqueueFragment_of_since (i := fr.id) h.sent
      hage hshape (Nat.lt_of_succ_lt hlt)
    have hasked := (List.perm_cons_erase hd).filterMap (requestId ic l)
    rw [List.filterMap_cons_some hid] at hasked
    rw [Transfer.step, if_pos hd, handleDatagram, hdec] at hstep
    simp only [Eval.ok_bind, Eval.pure_eq_ok, Except.ok.injEq, Prod.mk.injEq] at hstep
    obtain ⟨rfl, -⟩ := hstep
    refine ⟨h.of_sender hsame hmax _ _, Or.inr ⟨(fr.pid, fr.id), hid, ?_⟩⟩
    rcases hqueue with ⟨hqueue, hmem⟩ | hqueue
    · have hqueued : (fr.pid, fr.id) ∈ (s.exchange ic l).queued :=
        List.mem_filterMap.mpr ⟨_, hmem, rfl⟩
      have hexchange : Step size _ _ _ := Step.ignore (s := s.exchange ic l) hasked hqueued
      simp only [Transfer.exchange] at hexchange ⊢
      rw [hqueue]
      exact hexchange
    · have hexchange : Step size _ _ _ := Step.answer (s := s.exchange ic l) hasked
      simp only [Transfer.exchange] at hexchange ⊢
      rw [hqueue, queuedIds_append]
      exact hexchange
  · rw [Transfer.step, if_neg hd] at hstep
    cases hstep
    exact ⟨h, Or.inl rfl⟩

/-- A fragment is lost. -/
lemma Unexpired.lose (hic : ic.Inverse (2 ^ 31)) (hids : packets.length < 65536) {d : Bytes}
    (hstep : Transfer.step ic l s (.lose d) = .ok (s', o)) :
    Unexpired l packets t₀ s' ∧ (s' = s ∨ ∃ x, datagramId ic l d = some x
      ∧ Step size (s.exchange ic l) (.lose x) (s'.exchange ic l)) := by
  cases hstep
  refine ⟨h.of_sender rfl rfl _ _, ?_⟩
  by_cases hd : d ∈ s.toReceiver
  · obtain ⟨f, hf, rfl⟩ := hinv.toReceiver d hd
    have hid := hf.datagramId hic hids
    have hsent := (List.perm_cons_erase hd).filterMap (datagramId ic l)
    rw [List.filterMap_cons_some hid] at hsent
    exact Or.inr ⟨_, hid, Step.lose (s := s.exchange ic l) hsent⟩
  · left
    rw [List.erase_of_not_mem hd]

/-- A request is lost. -/
lemma Unexpired.loseRequest {d : Bytes}
    (hstep : Transfer.step ic l s (.loseRequest d) = .ok (s', o)) :
    Unexpired l packets t₀ s' ∧ (s' = s ∨ ∃ x, requestId ic l d = some x
      ∧ Step size (s.exchange ic l) (.loseRequest x) (s'.exchange ic l)) := by
  cases hstep
  refine ⟨h.of_sender rfl rfl _ _, ?_⟩
  by_cases hd : d ∈ s.toSender
  · obtain ⟨fr, -, hdec⟩ := hinv.toSender d hd
    have hid : requestId ic l d = some (fr.pid, fr.id) := by rw [requestId, hdec]
    have hasked := (List.perm_cons_erase hd).filterMap (requestId ic l)
    rw [List.filterMap_cons_some hid] at hasked
    exact Or.inr ⟨_, hid, Step.loseRequest (s := s.exchange ic l) hasked⟩
  · left
    rw [List.erase_of_not_mem hd]

/-- **A packet that is ready** is handed out as it was sent. -/
lemma Unexpired.popAnswer {pid : ℕ} {t : ℤ} (ht : t < t₀ + l.age) (hpid : pid ∈ s.ready)
    (hpackets : ∀ data ∈ packets, (data.length + l.fragSize - 1) / l.fragSize ≤ 65535
      ∧ data.length < l.bufferSize) :
    ∃ data, packets[pid]? = some data
      ∧ s.receiver.popAnswer l.senderNode pid l.bufferSize t = (0, data, data.length)
      ∧ ∀ i < cutCount data.length l.fragSize,
        s.receiver.holdsSlot l.senderNode (pid, i) = true := by
  obtain ⟨fp, hl, hc⟩ := (h.ready pid).mp hpid
  have hwf := (hinv.receiver.inv.wf.endpointFor_wf l.senderNode)
  have hage : t < t₀ + (s.receiver.endpointFor l.senderNode).incoming.maxPktAge := by
    have := h.receiverAge
    rw [hwf.inAge]
    omega
  have hfresh := h.received.fresh hage
  rcases hinv.receiver.popAnswer hpid t hpackets with hgone | hans
  · -- the packet is there, so that something is copied out of it
    obtain ⟨data, ids, hdata, hg⟩ := hinv.receiver.stored pid fp hl
    obtain ⟨hcount, hlt⟩ := hpackets data (List.mem_of_getElem? hdata)
    have hcontents := hg.contents hc l.fragSize_pos hcount
    have hdump : fragmentedPacketDumpData fp l.bufferSize = (0, fp.contents) :=
      fragmentedPacketDumpData_fits (by rwa [hcontents])
    rw [NetworkManager.popAnswer] at hgone
    cases he : s.receiver.endpoint l.senderNode with
    | none =>
        rw [NetworkManager.endpointFor_of_none he] at hl
        simp [endpointCreate] at hl
    | some e =>
        rw [NetworkManager.endpointFor_of_some he] at hl hfresh
        rw [he] at hgone
        simp only [PacketBucket.popAnswer, hfresh, hl, hdump] at hgone
        cases hgone
  · exact hans

/-- **A packet is popped.** -/
lemma Unexpired.pop {pid : ℕ} {t : ℤ} (ht : t < t₀ + l.age)
    (hsize : ∀ pid data, packets[pid]? = some data → size pid = cutCount data.length l.fragSize)
    (hpackets : ∀ data ∈ packets, (data.length + l.fragSize - 1) / l.fragSize ≤ 65535
      ∧ data.length < l.bufferSize)
    (hpos : ∀ data ∈ packets, 0 < cutCount data.length l.fragSize)
    (hstep : Transfer.step ic l s (.pop pid t) = .ok (s', o)) :
    Unexpired l packets t₀ s'
      ∧ (s' = s ∨ Step size (s.exchange ic l) (.take pid) (s'.exchange ic l)
        ∧ ∃ data, packets[pid]? = some data ∧ o = some (pid, 0, data, data.length)) := by
  by_cases hpid : pid ∈ s.ready
  · obtain ⟨data, hdata, hans, hfull⟩ := h.popAnswer hinv ht hpid hpackets
    have hlast := hpos data (List.mem_of_getElem? hdata)
    have hage : t < t₀ + s.receiver.maxPktAge := by
      have := h.receiverAge
      omega
    have hlook := hinv.receiver.inv.wf.lookup_popped_of_since h.received hage pid
    have hheld : (s.receiver.popped l.senderNode pid t).holdsSlot l.senderNode
        = fun x => s.receiver.holdsSlot l.senderNode x && decide (x.1 ≠ pid) := by
      funext ⟨p, i⟩
      rw [NetworkManager.holdsSlot, hlook, NetworkManager.holdsSlot]
      by_cases hp : pid = p
      · simp [hp]
      · simp [hp, Ne.symm hp]
    have htake : Step size (s.exchange ic l) (.take pid)
        { s.exchange ic l with
          held := fun x => (s.exchange ic l).held x && decide (x.1 ≠ pid) } :=
      Step.take (i := cutCount data.length l.fragSize - 1) (hfull _ (by omega)) (by
        rw [SelectiveRepeat.IsLast, hsize pid data hdata]
        exact Nat.sub_add_cancel hlast)
    rw [Transfer.step, if_pos hpid] at hstep
    simp only [hinv.receiver.inv.popPacket, hans] at hstep
    cases hstep
    refine ⟨⟨h.senderAge, ?_, h.sent, h.stored, fun p fp hl => ?_, fun p => ?_⟩, Or.inr ⟨?_, ?_⟩⟩
    · rw [NetworkManager.popped_maxPktAge]
      exact h.receiverAge
    · rw [hlook] at hl
      split_ifs at hl
      exact h.received p fp hl
    · rw [hlook, List.mem_filter, h.ready]
      by_cases hp : pid = p
      · simp [hp]
      · simp [hp, Ne.symm hp]
    · simp only [Transfer.exchange, hheld, NetworkManager.popped_outqueue] at htake ⊢
      exact htake
    · exact ⟨data, hdata, rfl⟩
  · rw [Transfer.step, if_neg hpid] at hstep
    cases hstep
    exact ⟨h, Or.inl rfl⟩

/-- **A packet is sent.** -/
lemma Unexpired.enqueue {data : Bytes} {tSweep tCreate : ℤ} (ht : tSweep < t₀ + l.age)
    (hc : t₀ ≤ tCreate)
    (hids : (packets ++ (Action.enqueue data tSweep tCreate).packet.toList).length < 65536)
    (hstep : Transfer.step ic l s (.enqueue data tSweep tCreate) = .ok (s', o)) :
    Unexpired l (packets ++ (Action.enqueue data tSweep tCreate).packet.toList) t₀ s'
      ∧ (s' = s ∨ data ≠ [] ∧ Step size (s.exchange ic l) .send (s'.exchange ic l)) := by
  obtain ⟨ops, hside, rfl⟩ := hinv.sender
  rw [Transfer.step, Eval.bind_eq_ok] at hstep
  obtain ⟨⟨nm, res⟩, hcall, hstep⟩ := hstep
  cases hstep
  have hs : networkManagerStep s.sender (.enqueuePacket l.senderNode l.receiverNode data tSweep
      tCreate) = .ok (nm, .code res) := by
    rw [networkManagerStep, hcall]
    rfl
  rcases networkManagerStep_enqueuePacket hside.served.inv.wf hs with
    ⟨rfl, rfl, -⟩ | ⟨hdata, -, hfree, rfl, -⟩
  · refine ⟨?_, Or.inl rfl⟩
    rw [Action.packet, if_neg (by simp), Option.toList_none, List.append_nil]
    exact h
  · have hage : tSweep < t₀ + s.sender.maxPktAge := by
      have := h.senderAge
      omega
    obtain ⟨hshape, hmax, hqueue⟩ := hside.served.inv.enqueued_of_since h.sent hage l.senderNode
      data tCreate hfree
    have hid : (s.sender.endpointFor l.receiverNode).outId
        = (payloads l.receiverNode ops).length := by
      rw [hside.served.counted.outId, length_payloads]
    have hfrag : (s.sender.endpointFor l.receiverNode).outgoing.fragSize = l.fragSize := by
      rw [(hside.served.inv.wf.endpointFor_wf l.receiverNode).fragSize, hside.pieces.fragSize]
    rw [hid, hfrag] at hshape
    rw [Action.packet, if_pos hdata, Option.toList_some]
    refine ⟨⟨hmax ▸ h.senderAge, h.receiverAge, fun pid fp hl => ?_, fun pid data' hdata' => ?_,
      h.received, h.ready⟩, Or.inr ⟨List.length_pos_iff.mp hdata, ?_⟩⟩
    · have hsent := hshape pid
      rw [NetworkManager.sentShape, hl, Option.map_some] at hsent
      split_ifs at hsent with hpid
      · have hage : fp.creationTimestamp = tCreate := congrArg Prod.snd (Option.some.inj hsent)
        rwa [hage]
      · obtain ⟨fp', hl', heq⟩ := Option.map_eq_some_iff.mp hsent.symm
        have hage : fp'.creationTimestamp = fp.creationTimestamp := congrArg Prod.snd heq
        rw [← hage]
        exact h.sent pid fp' hl'
    · rw [hshape]
      split_ifs with hpid
      · rw [← hpid, List.getElem?_append_right le_rfl, Nat.sub_self] at hdata'
        cases hdata'
        exact ⟨tCreate, rfl⟩
      · refine h.stored pid data' ?_
        rcases Nat.lt_trichotomy pid (payloads l.receiverNode ops).length with hlt | rfl | hgt
        · rwa [List.getElem?_append_left hlt] at hdata'
        · exact absurd rfl hpid
        · rw [List.getElem?_eq_none (by simp; omega)] at hdata'
          cases hdata'
    · have hexchange : Step size _ _ _ := Step.send (s := s.exchange ic l)
        (queuedIds (((s.sender.endpointFor l.receiverNode).cut l.senderNode data).map
          fragmentListElement))
      simp only [Transfer.exchange] at hexchange ⊢
      rw [hqueue, queuedIds_append]
      exact hexchange

/-- **Every action that does anything is a step of the exchange.** -/
theorem exchange_step {a : Action} (hic : ic.Inverse (2 ^ 31))
    (hids : (packets ++ a.packet.toList).length < 65536)
    (hsize : ∀ pid data, packets[pid]? = some data → size pid = cutCount data.length l.fragSize)
    (hpackets : ∀ data ∈ packets, (data.length + l.fragSize - 1) / l.fragSize ≤ 65535
      ∧ data.length < l.bufferSize)
    (hpos : ∀ data ∈ packets, 0 < data.length) (ha : a.Within l t₀)
    (hstep : Transfer.step ic l s a = .ok (s', o)) :
    Unexpired l (packets ++ a.packet.toList) t₀ s'
      ∧ (s' = s ∨ ∃ e, a.event ic l = some e
        ∧ Step size (s.exchange ic l) e (s'.exchange ic l)
        ∧ ∀ pid, e = .take pid →
          ∃ data, packets[pid]? = some data ∧ o = some (pid, 0, data, data.length)) := by
  have hlt : packets.length < 65536 := by
    rw [List.length_append] at hids
    omega
  have hcut : ∀ data ∈ packets, 0 < cutCount data.length l.fragSize := by
    intro data hdata
    have hone := hpos data hdata
    rw [cutCount_eq l.fragSize_pos (hpackets data hdata).1]
    exact Nat.div_pos (by omega) l.fragSize_pos
  have hsilent : a.packet = none → Unexpired l packets t₀ s' →
      Unexpired l (packets ++ a.packet.toList) t₀ s' := by
    intro hnone hkeep
    rwa [hnone, Option.toList_none, List.append_nil]
  cases a with
  | enqueue data tSweep tCreate =>
      obtain ⟨hkeep, hsame | ⟨hdata, hone⟩⟩ := h.enqueue size hinv
        (ha tSweep (by simp [Action.times])).2 (ha tCreate (by simp [Action.times])).1 hids hstep
      · exact ⟨hkeep, Or.inl hsame⟩
      · exact ⟨hkeep, Or.inr ⟨_, if_neg hdata, hone, by simp⟩⟩
  | transmit =>
      obtain ⟨hkeep, hsame | hone⟩ := h.transmit size hinv hic hlt hstep
      · exact ⟨hsilent rfl hkeep, Or.inl hsame⟩
      · exact ⟨hsilent rfl hkeep, Or.inr ⟨_, rfl, hone, by simp⟩⟩
  | deliver d tSweep tCreate =>
      obtain ⟨hkeep, hsame | ⟨x, hx, hone⟩⟩ := h.deliver size hinv hic hlt hsize
        (ha tSweep (by simp [Action.times])).2 (ha tCreate (by simp [Action.times])).1 hstep
      · exact ⟨hsilent rfl hkeep, Or.inl hsame⟩
      · exact ⟨hsilent rfl hkeep, Or.inr ⟨_, congrArg (Option.map _) hx, hone, by simp⟩⟩
  | lose d =>
      obtain ⟨hkeep, hsame | ⟨x, hx, hone⟩⟩ := h.lose size hinv hic hlt hstep
      · exact ⟨hsilent rfl hkeep, Or.inl hsame⟩
      · exact ⟨hsilent rfl hkeep, Or.inr ⟨_, congrArg (Option.map _) hx, hone, by simp⟩⟩
  | request forwarded =>
      obtain ⟨hkeep, hsame | hone⟩ := h.request size hinv hic hlt hstep
      · exact ⟨hsilent rfl hkeep, Or.inl hsame⟩
      · exact ⟨hsilent rfl hkeep, Or.inr ⟨_, rfl, hone, by simp⟩⟩
  | answer d tSweep tCreate =>
      obtain ⟨hkeep, hsame | ⟨x, hx, hone⟩⟩ := h.answer size hinv
        (ha tSweep (by simp [Action.times])).2 hstep
      · exact ⟨hsilent rfl hkeep, Or.inl hsame⟩
      · exact ⟨hsilent rfl hkeep, Or.inr ⟨_, congrArg (Option.map _) hx, hone, by simp⟩⟩
  | loseRequest d =>
      obtain ⟨hkeep, hsame | ⟨x, hx, hone⟩⟩ := h.loseRequest size hinv hstep
      · exact ⟨hsilent rfl hkeep, Or.inl hsame⟩
      · exact ⟨hsilent rfl hkeep, Or.inr ⟨_, congrArg (Option.map _) hx, hone, by simp⟩⟩
  | pop pid t =>
      obtain ⟨hkeep, hsame | ⟨hone, data, hdata, ho⟩⟩ := h.pop size hinv
        (ha t (by simp [Action.times])).2 hsize hpackets hcut hstep
      · exact ⟨hsilent rfl hkeep, Or.inl hsame⟩
      · refine ⟨hsilent rfl hkeep, Or.inr ⟨_, rfl, hone, ?_⟩⟩
        rintro pid' ⟨⟩
        exact ⟨data, hdata, ho⟩

end Steps

end PeerStreamer
