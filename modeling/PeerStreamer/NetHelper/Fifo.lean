import PeerStreamer.NetHelper.Runs

/-!
# The order of the outgoing queue

`list_splice` puts the fragments of a new packet in front of the queue, and `list_pop` takes the
first element: between packets the queue is last in, first out.  This file says exactly when that
shows.  Names of fragments — the address they are sent to, packet id and position — are compared
in the order in which their packets were enqueued (`pushedNames`) and in the order in which they
are popped; they agree, however many pops follow, if and only if every packet was enqueued on an
empty queue (`fifo_iff`).

The accounting behind it is `FifoInv.step`: what has been popped followed by what is queued only
ever changes by the names of a new packet, which go in between.
-/

namespace PeerStreamer

/-! ## Names of fragments -/

/-- Address text, port, packet id and position. -/
abbrev FragmentName := List UInt8 × ℤ × ℕ × ℕ

def fragmentName (dst : NodeID) (pid id : ℕ) : FragmentName := (dst.ip, dst.port, pid, id)

def QueueElem.name? : QueueElem → Option FragmentName
  | .fragment dst pid id => some (fragmentName dst pid id)
  | .request _ => none

/-- The name of the fragment an operation has popped. -/
def NmAnswer.name? : NmAnswer → Option FragmentName
  | .message (some (.fragment f)) => some (fragmentName f.toNode f.pid f.id)
  | _ => none

/-- The names of what is queued, first to last. -/
def NetworkManager.queueNames (nm : NetworkManager) : List FragmentName :=
  nm.outqueue.filterMap QueueElem.name?

/-- The names of what has been popped, first to last. -/
def poppedNames (answers : List NmAnswer) : List FragmentName := answers.filterMap NmAnswer.name?

/-- The names of the fragments an operation enqueues after the operations `pre`, by increasing
fragment id.  The packet id is the number of packets sent to the address before. -/
def NmOp.names (fragSize : ℕ) (pre : List NmOp) : NmOp → List FragmentName
  | .enqueuePacket _ dst data _ _ =>
      if data = [] then []
      else (List.range (cutCount data.length fragSize)).map (fragmentName dst (sends dst pre))
  | _ => []

/-- The names of all fragments enqueued by `ops` after `pre`, in the order in which their packets
are enqueued. -/
def pushedNames (fragSize : ℕ) : (pre ops : List NmOp) → List FragmentName
  | _, [] => []
  | pre, op :: ops => op.names fragSize pre ++ pushedNames fragSize (pre ++ [op]) ops

/-! ## What is claimed of a run, and when it holds -/

/-- The operation enqueues a packet or pops a message. -/
def NmOp.Queueing : NmOp → Prop
  | .enqueuePacket .. => True
  | .popMsg => True
  | _ => False

/-- The run succeeds, and the fragments come out in the order in which they went in. -/
def FifoRun (config : NetworkConfig) (ops : List NmOp) : Prop :=
  ∃ nm answers, exec networkManagerStep (networkManagerCreate config) ops = .ok (nm, answers)
    ∧ (poppedNames answers).Sublist (pushedNames (networkManagerCreate config).fragSize [] ops)

/-- The sweep an operation makes finds nothing to drop. -/
def NothingExpires (nm : NetworkManager) : NmOp → Prop
  | .enqueuePacket _ dst _ tSweep _ => (nm.endpointFor dst).outgoing.swept tSweep = []
  | _ => True

/-- A packet that is cut into fragments is enqueued on an empty queue, under an id that no stored
packet uses. -/
def EnqueuedOnEmpty (nm : NetworkManager) : NmOp → Prop
  | .enqueuePacket _ dst data tSweep _ =>
      data = [] ∨ (0 < nm.fragSize ∧ nm.IdFree dst tSweep
        ∧ (nm.outqueue = [] ∨ cutCount data.length nm.fragSize = 0))
  | _ => True

instance (nm : NetworkManager) : ∀ op, Decidable (NothingExpires nm op)
  | .enqueuePacket _ _ _ _ _ => inferInstanceAs (Decidable (_ = _))
  | .popMsg => isTrue trivial
  | .enqueueFragment _ _ _ _ => isTrue trivial
  | .addFragment _ _ _ => isTrue trivial
  | .popPacket _ _ _ _ => isTrue trivial

instance (nm : NetworkManager) : ∀ op, Decidable (EnqueuedOnEmpty nm op)
  | .enqueuePacket _ _ _ _ _ => inferInstanceAs (Decidable (_ ∨ _))
  | .popMsg => isTrue trivial
  | .enqueueFragment _ _ _ _ => isTrue trivial
  | .addFragment _ _ _ => isTrue trivial
  | .popPacket _ _ _ _ => isTrue trivial

/-! ## The accounting -/

/-- After the operations `pre`, none of which dropped a packet: the ids in use at each node are
those of all the packets sent to it, and the queue holds fragments only. -/
structure FifoInv (pre : List NmOp) (nm : NetworkManager) : Prop where
  inv : nm.OutqueueInv
  outId : ∀ n, (nm.endpointFor n).outId = sends n pre % 65536
  used : ∀ n pid, (∃ fp, (nm.endpointFor n).outgoing.lookup pid = some fp) ↔ pid < sends n pre
  sends_le : ∀ n, sends n pre ≤ 65536
  fragments : ∀ r, QueueElem.request r ∉ nm.outqueue

/-- The name is that of a packet sent among the operations `pre`. -/
def Sent (pre : List NmOp) (x : FragmentName) : Prop :=
  ∀ n : NodeID, n.ip = x.1 → n.port = x.2.1 → x.2.2.1 < sends n pre

lemma networkManagerCreate_fifoInv (config : NetworkConfig) :
    FifoInv [] (networkManagerCreate config) where
  inv := networkManagerCreate_outqueueInv config
  outId _ := rfl
  used n pid := by
    rw [NetworkManager.endpointFor_of_none (networkManagerCreate_endpoint config n)]
    simp [endpointCreate, sends]
  sends_le n := by simp [sends]
  fragments r := by simp

lemma Sent.append {pre : List NmOp} {x : FragmentName} (h : Sent pre x) (ops : List NmOp) :
    Sent (pre ++ ops) x := fun n hip hport => by
  have := h n hip hport
  rw [sends_append]
  omega

/-- The names of a packet are new, and are those of a packet sent once it has been enqueued. -/
lemma NmOp.names_sent {fragSize : ℕ} {pre : List NmOp} {op : NmOp} {x : FragmentName}
    (hx : x ∈ op.names fragSize pre) : ¬ Sent pre x ∧ Sent (pre ++ [op]) x := by
  cases op with
  | enqueuePacket src dst data tSweep tCreate =>
      rw [NmOp.names] at hx
      split_ifs at hx with hdata
      · simp at hx
      · obtain ⟨i, -, rfl⟩ := List.mem_map.mp hx
        refine ⟨fun h => absurd (h dst rfl rfl) (lt_irrefl _), fun n hip hport => ?_⟩
        have hn : nodeidEqual dst n = true := nodeidEqual_iff.mpr ⟨hip.symm, hport.symm⟩
        have hdata' : 0 < data.length := List.length_pos_iff.mpr hdata
        have hone : (NmOp.enqueuePacket src dst data tSweep tCreate).sendsTo n = true := by
          simp [NmOp.sendsTo, hn, hdata']
        rw [sends_append, sends_singleton, hone, Bool.toNat_true, ← sends_congr hn]
        exact Nat.lt_succ_self _
  | _ => simp [NmOp.names] at hx

section Step

variable {pre : List NmOp} {nm : NetworkManager}

/-- Everything queued is a fragment of a packet sent. -/
lemma FifoInv.queue_sent (h : FifoInv pre nm) {x : FragmentName} (hx : x ∈ nm.queueNames) :
    Sent pre x := by
  obtain ⟨el, hm, hel⟩ := List.mem_filterMap.mp hx
  cases el with
  | request r => simp [QueueElem.name?] at hel
  | fragment dst pid i =>
      simp only [QueueElem.name?, Option.some.injEq] at hel
      subst hel
      intro n hip hport
      have hn : nodeidEqual dst n = true := nodeidEqual_iff.mpr ⟨hip.symm, hport.symm⟩
      obtain ⟨e, fp, f, he, -, hl, -⟩ := h.inv.queued hm
      refine (h.used n pid).mp ⟨fp, ?_⟩
      rw [← (h.inv.wf.endpointFor_congr hn).2, NetworkManager.endpointFor_of_some he]
      exact hl

lemma FifoInv.queueNames_eq_nil (h : FifoInv pre nm) : nm.queueNames = [] ↔ nm.outqueue = [] := by
  constructor
  · intro hnil
    rw [NetworkManager.queueNames, List.filterMap_eq_nil_iff] at hnil
    refine List.eq_nil_iff_forall_not_mem.mpr fun el hm => ?_
    cases el with
    | request r => exact h.fragments r hm
    | fragment dst pid i => simpa [QueueElem.name?] using hnil _ hm
  · intro hnil
    rw [NetworkManager.queueNames, hnil]
    rfl

/-- With nothing dropped, the next id is free while fewer than 65536 packets have been sent. -/
lemma FifoInv.idFree_iff (h : FifoInv pre nm) {dst : NodeID} {t : ℤ}
    (hq : (nm.endpointFor dst).outgoing.swept t = []) :
    nm.IdFree dst t ↔ sends dst pre < 65536 := by
  have hused := h.used dst (nm.endpointFor dst).outId
  have hle := h.sends_le dst
  rw [h.outId] at hused
  rw [NetworkManager.IdFree, PacketBucket.fresh, hq, PacketBucket.without_nil, h.outId,
    Option.eq_none_iff_forall_ne_some]
  constructor
  · intro hnone
    by_contra hge
    obtain ⟨fp, hl⟩ := hused.mpr (by omega)
    exact hnone fp hl
  · intro hlt fp hl
    have := hused.mp ⟨fp, hl⟩
    omega

/-- A pop that changes no packet but the links of its slots. -/
lemma FifoInv.of_pop (h : FifoInv pre nm) {nm' : NetworkManager} (hinv : nm'.OutqueueInv)
    (hend : ∀ n, (nm'.endpointFor n).outId = (nm.endpointFor n).outId
      ∧ ∀ pid, (∃ fp, (nm'.endpointFor n).outgoing.lookup pid = some fp)
        ↔ ∃ fp, (nm.endpointFor n).outgoing.lookup pid = some fp)
    (hqueue : ∀ el ∈ nm'.outqueue, el ∈ nm.outqueue) : FifoInv (pre ++ [.popMsg]) nm' := by
  have hsame : ∀ n, sends n (pre ++ [.popMsg]) = sends n pre := fun n => by
    rw [sends_append, sends_singleton]
    rfl
  refine ⟨hinv, fun n => ?_, fun n pid => ?_, fun n => ?_, fun r hr => h.fragments r (hqueue _ hr)⟩
  · rw [hsame, (hend n).1]
    exact h.outId n
  · rw [hsame, (hend n).2]
    exact h.used n pid
  · rw [hsame]
    exact h.sends_le n

/-- Popping a message moves the first name of the queue to the popped ones. -/
lemma FifoInv.step_pop (h : FifoInv pre nm) :
    ∃ nm' a, networkManagerStep nm .popMsg = .ok (nm', a) ∧ FifoInv (pre ++ [.popMsg]) nm'
      ∧ nm'.fragSize = nm.fragSize ∧ a.name?.toList ++ nm'.queueNames = nm.queueNames
      ∧ nm'.outqueue = nm.outqueue.tail := by
  rw [networkManagerStep]
  cases hq : nm.outqueue with
  | nil =>
      refine ⟨nm, .message none, ?_, ?_, rfl, rfl, hq⟩
      · rw [networkManagerPopOutgoingNetMsg, hq]
        rfl
      · exact h.of_pop h.inv (fun n => ⟨rfl, fun pid => Iff.rfl⟩) fun el hm => hm
  | cons el q =>
      cases el with
      | request r => exact absurd (by rw [hq]; exact List.mem_cons_self) (h.fragments r)
      | fragment d pid i =>
          obtain ⟨e, fp, f, he, hd, hl, hf, hpop, hinv⟩ := h.inv.pop_fragment hq
          have hwf := (h.inv.wf.endpoint_wf he).outgoing
          have hnode := h.inv.wf.nodeidEqual_of_endpoint he
          refine ⟨_, _, by rw [hpop]; rfl, h.of_pop hinv (fun n => ?_) (fun el hm => ?_), rfl, ?_,
            rfl⟩
          · rw [NetworkManager.link, ← NetworkManager.put_of_some he,
              h.inv.wf.endpointFor_put (e := { e with outgoing := e.outgoing.store _ }) hnode]
            split_ifs with hn
            · have hsame := h.inv.wf.endpointFor_congr hn
              rw [NetworkManager.endpointFor_of_some he] at hsame
              refine ⟨hsame.1, fun p => ?_⟩
              rw [← hsame.2, hwf.lookup_store]
              split_ifs
              · simp
              · exact Iff.rfl
            · exact ⟨rfl, fun p => Iff.rfl⟩
          · rw [hq]
            exact List.mem_cons_of_mem _ hm
          · obtain ⟨hto, hpid, hid⟩ := (h.inv.owns d e he).named pid fp hl i f hf
            have hnames : nm.queueNames
                = fragmentName d pid i :: q.filterMap QueueElem.name? := by
              rw [NetworkManager.queueNames, hq]
              rfl
            rw [hnames]
            simp only [NmAnswer.name?, Option.toList_some, hto, hpid, hid, ← hd]
            rfl

/-- When nothing expires, a new packet is put in front of the queue. -/
lemma NothingExpires.enqueued_outqueue {src dst : NodeID} {data : Bytes} {tSweep tCreate : ℤ}
    (hq : NothingExpires nm (.enqueuePacket src dst data tSweep tCreate)) :
    (nm.enqueued src dst data tSweep tCreate).outqueue
      = ((nm.endpointFor dst).cut src data).map fragmentListElement ++ nm.outqueue := by
  have hswept : (nm.endpointFor dst).sweptQueue tSweep nm.outqueue = nm.outqueue := by
    rw [Endpoint.sweptQueue, show (nm.endpointFor dst).outgoing.swept tSweep = [] from hq]
    rfl
  rw [NetworkManager.enqueued, NetworkManager.put_outqueue, hswept]

/-- The names of a new packet are put in front of those in the queue. -/
lemma FifoInv.enqueued_queueNames (h : FifoInv pre nm) (src : NodeID) {dst : NodeID} {data : Bytes}
    {tSweep tCreate : ℤ} (hdata : data ≠ [])
    (hq : NothingExpires nm (.enqueuePacket src dst data tSweep tCreate))
    (hid : (nm.endpointFor dst).outId = sends dst pre) :
    (nm.enqueued src dst data tSweep tCreate).queueNames
      = (NmOp.enqueuePacket src dst data tSweep tCreate).names nm.fragSize pre
        ++ nm.queueNames := by
  have hnode := nodeidEqual_iff.mp (h.inv.wf.endpointFor_node dst)
  rw [NetworkManager.queueNames, hq.enqueued_outqueue, List.filterMap_append, NmOp.names,
    if_neg hdata, Endpoint.cut, cutFragments, List.map_map, List.filterMap_map]
  congr 1
  rw [(h.inv.wf.endpointFor_wf dst).fragSize]
  refine List.filterMap_eq_map_iff_forall_eq_some.mpr fun i _ => ?_
  simp only [Function.comp_apply, fragmentListElement, fragmentInit, QueueElem.name?,
    fragmentName, hid, hnode.1, hnode.2]

/-- Enqueueing a packet under a free id puts its names in front of the queue. -/
lemma FifoInv.step_enqueue (h : FifoInv pre nm) (src : NodeID) {dst : NodeID} {data : Bytes}
    {tSweep : ℤ} (tCreate : ℤ) (hdata : 0 < data.length) (hsize : 0 < nm.fragSize)
    (hq : NothingExpires nm (.enqueuePacket src dst data tSweep tCreate))
    (hfree : nm.IdFree dst tSweep) :
    networkManagerStep nm (.enqueuePacket src dst data tSweep tCreate)
        = .ok (nm.enqueued src dst data tSweep tCreate, .code 0)
      ∧ FifoInv (pre ++ [.enqueuePacket src dst data tSweep tCreate])
          (nm.enqueued src dst data tSweep tCreate)
      ∧ (nm.enqueued src dst data tSweep tCreate).queueNames
        = (NmOp.enqueuePacket src dst data tSweep tCreate).names nm.fragSize pre
          ++ nm.queueNames := by
  have hwf := h.inv.wf.endpointFor_wf dst
  have hlt : sends dst pre < 65536 := (h.idFree_iff hq).mp hfree
  have hid : (nm.endpointFor dst).outId = sends dst pre := by
    rw [h.outId, Nat.mod_eq_of_lt hlt]
  have hfresh : (nm.endpointFor dst).outgoing.fresh tSweep = (nm.endpointFor dst).outgoing := by
    rw [PacketBucket.fresh, show (nm.endpointFor dst).outgoing.swept tSweep = [] from hq,
      PacketBucket.without_nil]
  have hcut := Endpoint.Owns.cut_named (nm.endpointFor dst) src data 0
  have hcount : ∀ n, sends n (pre ++ [.enqueuePacket src dst data tSweep tCreate])
      = sends n pre + (nodeidEqual dst n).toNat := fun n => by
    rw [sends_append, sends_singleton]
    simp [NmOp.sendsTo, hdata]
  have hend : ∀ n, (nm.enqueued src dst data tSweep tCreate).endpointFor n
      = if nodeidEqual dst n then (nm.endpointFor dst).enqueued src data tSweep tCreate
        else nm.endpointFor n := fun n =>
    h.inv.wf.endpointFor_put (e := (nm.endpointFor dst).enqueued src data tSweep tCreate)
      (h.inv.wf.endpointFor_node dst)
  refine ⟨?_, ⟨h.inv.enqueued hfree, fun n => ?_, fun n pid => ?_, fun n => ?_, fun r hr => ?_⟩, ?_⟩
  · rw [networkManagerStep,
      networkManagerEnqueueOutgoingPacket_eq h.inv.wf src tCreate hdata hsize hfree]
    rfl
  · rw [hend, hcount]
    split_ifs with hn
    · rw [hn, Bool.toNat_true, ← sends_congr hn, ← hid]
      rfl
    · rw [Bool.eq_false_of_not_eq_true hn]
      exact h.outId n
  · rw [hend, hcount]
    split_ifs with hn
    · rw [Endpoint.enqueued_lookup hwf.outgoing hfree, hn, Bool.toNat_true, ← sends_congr hn,
        hfresh]
      by_cases hp : (nm.endpointFor dst).outId = pid
      · rw [if_pos hp]
        refine ⟨fun _ => by omega, fun _ => ⟨_, rfl⟩⟩
      · rw [if_neg hp, h.used]
        omega
    · rw [Bool.eq_false_of_not_eq_true hn]
      exact h.used n pid
  · rw [hcount]
    by_cases hn : nodeidEqual dst n = true
    · rw [hn, Bool.toNat_true, ← sends_congr hn]
      omega
    · rw [Bool.eq_false_of_not_eq_true hn]
      exact h.sends_le n
  · rw [hq.enqueued_outqueue, List.mem_append] at hr
    rcases hr with hr | hr
    · obtain ⟨i, -, he⟩ := hcut.mem_elements.mp hr
      cases he
    · exact h.fragments r hr
  · exact h.enqueued_queueNames src (List.length_pos_iff.mp hdata) hq hid

/-- **One step.**  Either it has no defined behaviour, or what is popped and what is queued are
together what was queued with the names of the new packet in front; and `EnqueuedOnEmpty` says that
it is defined and that there is nothing to put in front, or nothing to put it in front of. -/
theorem FifoInv.step (h : FifoInv pre nm) {op : NmOp} (hop : op.Queueing)
    (hq : NothingExpires nm op) :
    (¬ EnqueuedOnEmpty nm op ∧ ∃ u, networkManagerStep nm op = .error u)
    ∨ ∃ nm' a, networkManagerStep nm op = .ok (nm', a) ∧ FifoInv (pre ++ [op]) nm'
      ∧ nm'.fragSize = nm.fragSize
      ∧ a.name?.toList ++ nm'.queueNames = op.names nm.fragSize pre ++ nm.queueNames
      ∧ (EnqueuedOnEmpty nm op ↔ op.names nm.fragSize pre = [] ∨ nm.queueNames = []) := by
  cases op with
  | popMsg =>
      obtain ⟨nm', a, hs, hinv, hsize, hnames, -⟩ := h.step_pop
      exact Or.inr ⟨nm', a, hs, hinv, hsize, hnames, by simp [EnqueuedOnEmpty, NmOp.names]⟩
  | enqueuePacket src dst data tSweep tCreate =>
      by_cases hdata : data = []
      · subst hdata
        have hsame : ∀ n, sends n (pre ++ [.enqueuePacket src dst [] tSweep tCreate])
            = sends n pre := fun n => by
          rw [sends_append, sends_singleton]
          simp [NmOp.sendsTo]
        refine Or.inr ⟨nm, .code (-1), rfl, ⟨h.inv, fun n => ?_, fun n pid => ?_, fun n => ?_,
          h.fragments⟩, rfl, by simp [NmAnswer.name?, NmOp.names],
          by simp [EnqueuedOnEmpty, NmOp.names]⟩
        · rw [hsame]
          exact h.outId n
        · rw [hsame]
          exact h.used n pid
        · rw [hsame]
          exact h.sends_le n
      · have hlen : 0 < data.length := List.length_pos_iff.mpr hdata
        by_cases hgood : 0 < nm.fragSize ∧ nm.IdFree dst tSweep
        · obtain ⟨hs, hinv, hnames⟩ := h.step_enqueue src tCreate hlen
            hgood.1 hq hgood.2
          refine Or.inr ⟨_, _, hs, hinv, NetworkManager.put_fragSize, hnames, ?_⟩
          rw [EnqueuedOnEmpty, NmOp.names, if_neg hdata, h.queueNames_eq_nil, List.map_eq_nil_iff,
            List.range_eq_nil]
          simp only [hdata, hgood.1, hgood.2, true_and, false_or]
          exact or_comm
        · obtain ⟨u, hu⟩ := networkManagerEnqueueOutgoingPacket_error h.inv.wf src
            tCreate hlen hgood
          refine Or.inl ⟨fun hok => ?_, u, ?_⟩
          · rcases hok with hok | hok
            · exact hdata hok
            · exact hgood ⟨hok.1, hok.2.1⟩
          · rw [networkManagerStep, hu]
            rfl
  | enqueueFragment _ _ _ _ => exact absurd hop id
  | addFragment _ _ _ => exact absurd hop id
  | popPacket _ _ _ _ => exact absurd hop id

end Step

/-! ## Every run -/

/-- New elements can go into the middle of a list as if at its end only when there are none, or
when nothing follows them. -/
lemma append_middle_eq_iff {α : Type} [DecidableEq α] {a q b : List α} (new : List α)
    (ha : ∀ x ∈ new, x ∉ a) (hq : ∀ x ∈ new, x ∉ q) (hb : ∀ x ∈ new, x ∉ b) :
    a ++ new ++ q = b ++ new ↔ a ++ q = b ∧ (new = [] ∨ q = []) := by
  constructor
  · intro h
    have hdrop : ∀ l : List α, (∀ x ∈ new, x ∉ l) → l.filter (· ∉ new) = l := fun l hl =>
      List.filter_eq_self.mpr fun x hx => by simpa using fun hn => hl x hn hx
    have hnone : new.filter (· ∉ new) = [] := List.filter_eq_nil_iff.mpr fun x hx => by
      simpa using hx
    have hab : a ++ q = b := by
      have := congrArg (List.filter (· ∉ new)) h
      simpa only [List.filter_append, hdrop a ha, hdrop q hq, hdrop b hb, hnone, List.append_nil]
        using this
    refine ⟨hab, ?_⟩
    rw [← hab, List.append_assoc, List.append_assoc, List.append_cancel_left_eq] at h
    cases new with
    | nil => exact Or.inl rfl
    | cons x new =>
        cases q with
        | nil => exact Or.inr rfl
        | cons y q =>
            rw [List.cons_append, List.cons_append] at h
            have hxy : x = y := (List.cons.inj h).1
            exact absurd (hxy ▸ List.mem_cons_self) (hq x List.mem_cons_self)
  · rintro ⟨rfl, rfl | rfl⟩
    · simp
    · simp

lemma poppedNames_cons (a : NmAnswer) (answers : List NmAnswer) :
    poppedNames (a :: answers) = a.name?.toList ++ poppedNames answers := by
  rw [poppedNames, poppedNames, List.filterMap_cons]
  cases a.name? <;> rfl

section Runs

variable {pre ops : List NmOp} {nm : NetworkManager}

/-- What has been popped and what is queued are as many as what has been enqueued. -/
lemma FifoInv.run_length (h : FifoInv pre nm) (hops : ∀ op ∈ ops, op.Queueing)
    (hq : Along networkManagerStep NothingExpires nm ops) {nm' : NetworkManager}
    {answers : List NmAnswer} (hexec : exec networkManagerStep nm ops = .ok (nm', answers)) :
    FifoInv (pre ++ ops) nm' ∧ (poppedNames answers).length + nm'.queueNames.length
      = nm.queueNames.length + (pushedNames nm.fragSize pre ops).length := by
  induction ops generalizing pre nm answers with
  | nil =>
      obtain ⟨rfl, rfl⟩ : nm = nm' ∧ ([] : List NmAnswer) = answers := by simpa using hexec
      exact ⟨by simpa using h, by simp [poppedNames, pushedNames]⟩
  | cons op ops ih =>
      obtain ⟨hqop, hqops⟩ := along_cons.mp hq
      obtain ⟨nm₁, a, answers', hs, he, rfl⟩ := exec_cons_eq_ok.mp hexec
      rcases h.step (hops op List.mem_cons_self) hqop with
        ⟨-, u, hu⟩ | ⟨nm₂, a₂, hs₂, hinv, hsize, hnames, -⟩
      · rw [hu] at hs
        cases hs
      · obtain ⟨rfl, rfl⟩ := ok_unique hs₂ hs
        obtain ⟨hinv', hlen⟩ := ih hinv (fun o ho => hops o (List.mem_cons_of_mem _ ho))
          (hqops _ _ hs₂) he
        refine ⟨by simpa using hinv', ?_⟩
        have hl := congrArg List.length hnames
        rw [List.length_append, List.length_append] at hl
        rw [poppedNames_cons, pushedNames, List.length_append, List.length_append, ← hsize]
        rw [hsize] at hlen ⊢
        omega

/-- **The order through a run.**  After a run that succeeds, what has been popped and what is
queued are in the order in which they were enqueued if and only if they were before and every step
meets `EnqueuedOnEmpty`; and a run whose steps all meet it does succeed. -/
theorem FifoInv.run_order (h : FifoInv pre nm) (hops : ∀ op ∈ ops, op.Queueing)
    (hq : Along networkManagerStep NothingExpires nm ops) (popped pushed : List FragmentName)
    (hpop : ∀ x ∈ popped, Sent pre x) (hpush : ∀ x ∈ pushed, Sent pre x) :
    (∃ nm' answers, exec networkManagerStep nm ops = .ok (nm', answers)
      ∧ popped ++ poppedNames answers ++ nm'.queueNames
        = pushed ++ pushedNames nm.fragSize pre ops)
    ↔ popped ++ nm.queueNames = pushed ∧ Along networkManagerStep EnqueuedOnEmpty nm ops := by
  induction ops generalizing pre nm popped pushed with
  | nil =>
      constructor
      · rintro ⟨nm', answers, hexec, heq⟩
        obtain ⟨rfl, rfl⟩ : nm = nm' ∧ ([] : List NmAnswer) = answers := by simpa using hexec
        exact ⟨by simpa [poppedNames, pushedNames] using heq, trivial⟩
      · rintro ⟨heq, -⟩
        exact ⟨nm, [], rfl, by simpa [poppedNames, pushedNames] using heq⟩
  | cons op ops ih =>
      obtain ⟨hqop, hqops⟩ := along_cons.mp hq
      rcases h.step (hops op List.mem_cons_self) hqop with
        ⟨hbad, u, hu⟩ | ⟨nm₁, a, hs, hinv, hsize, hnames, hok⟩
      · constructor
        · rintro ⟨nm', answers, hexec, -⟩
          obtain ⟨_, _, _, hs, -⟩ := exec_cons_eq_ok.mp hexec
          rw [hu] at hs
          cases hs
        · rintro ⟨-, hok, -⟩
          exact absurd hok hbad
      · have hrest := fun o ho => hops o (List.mem_cons_of_mem op ho)
        have hnew : ∀ x ∈ op.names nm.fragSize pre, ¬ Sent pre x := fun x hx =>
          (NmOp.names_sent hx).1
        -- the names of the popped message were queued before, or are new
        have hpopped : ∀ x ∈ popped ++ a.name?.toList, Sent (pre ++ [op]) x := by
          intro x hx
          rcases List.mem_append.mp hx with hx | hx
          · exact (hpop x hx).append _
          · have hm : x ∈ op.names nm.fragSize pre ++ nm.queueNames := by
              rw [← hnames]
              exact List.mem_append_left _ hx
            rcases List.mem_append.mp hm with hm | hm
            · exact (NmOp.names_sent hm).2
            · exact (h.queue_sent hm).append _
        have hpushed : ∀ x ∈ pushed ++ op.names nm.fragSize pre, Sent (pre ++ [op]) x := by
          intro x hx
          rcases List.mem_append.mp hx with hx | hx
          · exact (hpush x hx).append _
          · exact (NmOp.names_sent hx).2
        have key := ih hinv hrest (hqops _ _ hs) _ _ hpopped hpushed
        have hmid := append_middle_eq_iff (a := popped) (q := nm.queueNames) (b := pushed)
          (op.names nm.fragSize pre) (fun x hx hm => hnew x hx (hpop x hm))
          (fun x hx hm => hnew x hx (h.queue_sent hm)) (fun x hx hm => hnew x hx (hpush x hm))
        have horder : popped ++ a.name?.toList ++ nm₁.queueNames
            = popped ++ op.names nm.fragSize pre ++ nm.queueNames := by
          rw [List.append_assoc, hnames, List.append_assoc]
        rw [horder, hmid, ← hok, hsize] at key
        rw [along_cons_of_ok hs]
        constructor
        · rintro ⟨nm', answers, hexec, heq⟩
          obtain ⟨answers', he, rfl⟩ := (exec_cons_of_ok hs).mp hexec
          rw [poppedNames_cons, pushedNames] at heq
          obtain ⟨⟨hab, hop⟩, halong⟩ := key.mp ⟨nm', answers', he, by
            simpa only [List.append_assoc] using heq⟩
          exact ⟨hab, hop, halong⟩
        · rintro ⟨hab, hop, halong⟩
          obtain ⟨nm', answers', he, heq⟩ := key.mpr ⟨⟨hab, hop⟩, halong⟩
          refine ⟨nm', a :: answers', (exec_cons_of_ok hs).mpr ⟨answers', he, rfl⟩, ?_⟩
          rw [poppedNames_cons, pushedNames]
          simpa only [List.append_assoc] using heq

/-- Any number of pops can follow, and they take names off the front of the queue. -/
lemma FifoInv.drain (h : FifoInv pre nm) (k : ℕ) :
    ∃ nm' answers, exec networkManagerStep nm (List.replicate k .popMsg) = .ok (nm', answers)
      ∧ poppedNames answers ++ nm'.queueNames = nm.queueNames
      ∧ nm'.outqueue = nm.outqueue.drop k := by
  induction k generalizing pre nm with
  | zero => exact ⟨nm, [], rfl, rfl, rfl⟩
  | succ k ih =>
      obtain ⟨nm₁, a, hs, hinv, -, hnames, hq⟩ := h.step_pop
      obtain ⟨nm', answers, he, hnames', hq'⟩ := ih hinv
      refine ⟨nm', a :: answers, exec_cons_eq_ok.mpr ⟨nm₁, a, answers, hs, he, rfl⟩, ?_, ?_⟩
      · rw [poppedNames_cons, List.append_assoc, hnames', hnames]
      · rw [hq', hq, List.drop_tail]

lemma pushedNames_append_pops (fragSize : ℕ) (pre ops : List NmOp) (k : ℕ) :
    pushedNames fragSize pre (ops ++ List.replicate k .popMsg) = pushedNames fragSize pre ops := by
  induction ops generalizing pre with
  | cons op ops ih => rw [List.cons_append, pushedNames, pushedNames, ih]
  | nil =>
      induction k generalizing pre with
      | zero => rfl
      | succ k ih =>
          rw [List.nil_append, List.replicate_succ, pushedNames]
          exact ih (pre ++ [.popMsg])

lemma poppedNames_append (answers answers' : List NmAnswer) :
    poppedNames (answers ++ answers') = poppedNames answers ++ poppedNames answers' :=
  List.filterMap_append

/-- **When the queue is first in, first out.**  For packets enqueued and messages popped in any
order, nothing expiring: the fragments come out in the order in which they went in, however many
more pops follow, if and only if every packet was enqueued on an empty queue, with fragments to cut
it into and a free id. -/
theorem fifo_iff (config : NetworkConfig) (ops : List NmOp) (hops : ∀ op ∈ ops, op.Queueing)
    (hq : Along networkManagerStep NothingExpires (networkManagerCreate config) ops) :
    (∀ k, FifoRun config (ops ++ List.replicate k .popMsg))
      ↔ Along networkManagerStep EnqueuedOnEmpty (networkManagerCreate config) ops := by
  have h₀ := networkManagerCreate_fifoInv config
  have key := h₀.run_order hops hq [] [] (by simp) (by simp)
  have hempty : ([] : List FragmentName) ++ (networkManagerCreate config).queueNames = [] := rfl
  simp only [List.nil_append] at key hempty
  rw [show Along networkManagerStep EnqueuedOnEmpty (networkManagerCreate config) ops
    ↔ _ from (and_iff_right hempty).symm.trans key.symm]
  constructor
  · intro hall
    obtain ⟨nm, answers, hexec, -⟩ := hall 0
    rw [List.replicate_zero, List.append_nil] at hexec
    obtain ⟨hinv, hlen⟩ := h₀.run_length hops hq hexec
    obtain ⟨nm', answers', he, hnames, hdrop⟩ := hinv.drain nm.outqueue.length
    obtain ⟨nm₂, answers₂, hexec₂, hsub⟩ := hall nm.outqueue.length
    obtain ⟨nm₃, b₁, b₂, h₁, h₂, rfl⟩ := exec_append_eq_ok.mp hexec₂
    rw [hexec, Except.ok.injEq, Prod.mk.injEq] at h₁
    obtain ⟨rfl, rfl⟩ := h₁
    rw [he, Except.ok.injEq, Prod.mk.injEq] at h₂
    obtain ⟨rfl, rfl⟩ := h₂
    -- once the queue has been drained, everything enqueued has been popped
    have hnil : nm'.queueNames = [] := by
      rw [NetworkManager.queueNames, hdrop, List.drop_length]
      rfl
    rw [hnil, List.append_nil] at hnames
    rw [poppedNames_append, hnames, pushedNames_append_pops] at hsub
    refine ⟨nm, answers, hexec, hsub.eq_of_length ?_⟩
    rw [List.length_append, hlen, hempty, List.length_nil, Nat.zero_add]
  · rintro ⟨nm, answers, hexec, heq⟩ k
    obtain ⟨hinv, -⟩ := h₀.run_length hops hq hexec
    obtain ⟨nm', answers', he, hnames, -⟩ := hinv.drain k
    refine ⟨nm', answers ++ answers', exec_append_eq_ok.mpr ⟨nm, _, _, hexec, he, rfl⟩, ?_⟩
    rw [poppedNames_append, pushedNames_append_pops, ← heq, ← hnames, ← List.append_assoc]
    exact List.sublist_append_left _ _

/-- A packet popped before the next is enqueued: the order is kept. -/
theorem fifo_iff_one_at_a_time :
    FifoRun ⟨some ⟨2, by decide, by decide⟩, none⟩
      ([.enqueuePacket ⟨[65], 6000, 3⟩ ⟨[66], 6001, -1⟩ [1] 0 0, .popMsg,
        .enqueuePacket ⟨[65], 6000, 3⟩ ⟨[66], 6001, -1⟩ [2] 0 0] ++ List.replicate 1 .popMsg) :=
  (fifo_iff _ _ (by simp [NmOp.Queueing]) (by decide)).mpr (by decide) 1

/-- Two packets enqueued before the first is popped: the second comes out first. -/
theorem not_fifo :
    ¬ ∀ (config : NetworkConfig) (ops : List NmOp), 1 ≤ config.fragSizeInt →
      (∀ op ∈ ops, op.Queueing) →
      Along networkManagerStep NothingExpires (networkManagerCreate config) ops →
      FifoRun config ops := by
  intro h
  obtain ⟨nm, answers, hexec, hsub⟩ := h ⟨some ⟨2, by decide, by decide⟩, none⟩
    [.enqueuePacket ⟨[65], 6000, 3⟩ ⟨[66], 6001, -1⟩ [1] 0 0,
      .enqueuePacket ⟨[65], 6000, 3⟩ ⟨[66], 6001, -1⟩ [2] 0 0, .popMsg, .popMsg]
    (by decide) (by simp [NmOp.Queueing]) (by decide)
  have hrun : (exec networkManagerStep
      (networkManagerCreate ⟨some ⟨2, by decide, by decide⟩, none⟩)
      [.enqueuePacket ⟨[65], 6000, 3⟩ ⟨[66], 6001, -1⟩ [1] 0 0,
        .enqueuePacket ⟨[65], 6000, 3⟩ ⟨[66], 6001, -1⟩ [2] 0 0, .popMsg, .popMsg]).map
      (fun r => poppedNames r.2) = .ok [([66], 6001, 1, 0), ([66], 6001, 0, 0)] := by decide
  rw [hexec, Except.map, Except.ok.injEq] at hrun
  rw [hrun] at hsub
  revert hsub
  decide

end Runs

end PeerStreamer
