import PeerStreamer.NetHelper.Pieces

/-!
# What a network manager has sent

The packets sent to a node are the non-empty payloads enqueued for it (`payloads`), and the packet
with id `i` is the `i`-th of them as long as there are at most `2 ^ 16`: then the 16-bit counter
gives no id twice.  `sentPiece_of_exec` says of every fragment a run pops from the queue that it is
a piece of the packet with its id.
-/

namespace PeerStreamer

/-- The packet the operation sends to `n`. -/
def NmOp.payloadTo (n : NodeID) : NmOp → Option Bytes
  | .enqueuePacket _ dst data _ _ => if nodeidEqual dst n ∧ 0 < data.length then some data else none
  | _ => none

/-- The packets the operations send to `n`, in order. -/
def payloads (n : NodeID) (ops : List NmOp) : List Bytes := ops.filterMap (NmOp.payloadTo n)

lemma payloads_append (n : NodeID) (ops ops' : List NmOp) :
    payloads n (ops ++ ops') = payloads n ops ++ payloads n ops' := List.filterMap_append

lemma length_payloads (n : NodeID) (ops : List NmOp) : (payloads n ops).length = sends n ops := by
  induction ops with
  | nil => rfl
  | cons op ops ih =>
      rw [payloads, List.filterMap_cons, sends, List.countP_cons, ← sends, ← ih, payloads]
      cases op with
      | enqueuePacket src dst data tSweep tCreate =>
          by_cases h : nodeidEqual dst n ∧ 0 < data.length
          · simp [NmOp.payloadTo, NmOp.sendsTo, h]
          · simp only [NmOp.payloadTo, NmOp.sendsTo, if_neg h, Bool.and_eq_true, decide_eq_true_eq]
            simp
      | _ => simp [NmOp.payloadTo, NmOp.sendsTo]

/-- The fragment is a piece of the packet with its id. -/
def SentPiece (packets : List Bytes) (fragSize : ℕ) (f : Fragment) : Prop :=
  ∃ data, packets[f.pid]? = some data ∧ PieceOf data fragSize f

section SentPiece

variable {packets : List Bytes} {fragSize : ℕ} {f : Fragment}

/-- A packet keeps its id while others are sent. -/
lemma getElem?_packets_append {pid : ℕ} {data : Bytes} (h : packets[pid]? = some data)
    (more : List Bytes) : (packets ++ more)[pid]? = some data := by
  rw [List.getElem?_append_left (List.getElem?_eq_some_iff.mp h).1, h]

lemma SentPiece.append (h : SentPiece packets fragSize f) (more : List Bytes) :
    SentPiece (packets ++ more) fragSize f := by
  obtain ⟨data, hdata, hpiece⟩ := h
  exact ⟨data, getElem?_packets_append hdata more, hpiece⟩

lemma SentPiece.pid_lt (h : SentPiece packets fragSize f) : f.pid < packets.length := by
  obtain ⟨data, hdata, -⟩ := h
  exact (List.getElem?_eq_some_iff.mp hdata).1

end SentPiece

lemma linkBlind_sentPiece (n : NodeID) (fragSize : ℕ) (ops : List NmOp) :
    LinkBlind fun f => nodeidEqual f.toNode n → SentPiece (payloads n ops) fragSize f := by
  intro f b h hn
  obtain ⟨data, hdata, hpiece⟩ := h hn
  exact ⟨data, hdata, hpiece.fragNum, hpiece.id, hpiece.data⟩

/-! ## The id counter -/

/-- The id counters of `nm'` are those of `nm`. -/
def NetworkManager.SameIds (nm nm' : NetworkManager) : Prop :=
  ∀ n, (nm'.endpointFor n).outId = (nm.endpointFor n).outId

namespace NetworkManager.SameIds

variable {nm nm' : NetworkManager} {node : NodeID} {e e' : Endpoint} {q : MsgList}

lemma refl (nm : NetworkManager) : nm.SameIds nm := fun _ => rfl

lemma put (h : nm.Wf) (hnode : nodeidEqual e.node node)
    (hid : e.outId = (nm.endpointFor node).outId) : nm.SameIds (nm.put node e q) := by
  intro n
  rw [h.endpointFor_put hnode]
  split_ifs with hn
  · rw [hid, (h.endpointFor_congr hn).1]
  · rfl

lemma put_of_some (h : nm.Wf) (he : nm.endpoint node = some e) (hnode : e'.node = e.node)
    (hid : e'.outId = e.outId) : nm.SameIds (nm.put node e' q) := by
  refine put h ?_ ?_
  · rw [hnode]
    exact h.nodeidEqual_of_endpoint he
  · rw [hid, endpointFor_of_some he]

lemma link (h : nm.Wf) (he : nm.endpoint node = some e) (hnode : e'.node = e.node)
    (hid : e'.outId = e.outId) (fp : FragmentedPacket) (i : ℕ) (b : Bool) :
    nm.SameIds (nm.link e' fp i b q) := by
  rw [NetworkManager.link, ← NetworkManager.put_of_some he]
  exact put_of_some h he hnode hid

lemma refreshed (h : nm.Wf) (dst : NodeID) (t : ℤ) : nm.SameIds (nm.refreshed dst t) := by
  cases he : nm.endpoint dst with
  | none =>
      rw [NetworkManager.refreshed, he]
      exact refl nm
  | some e =>
      rw [refreshed_of_some he]
      exact put_of_some h he rfl rfl

lemma enqueueFragment (h : nm.OutqueueInv) (dst : NodeID) (pid fid : ℕ) (t : ℤ) :
    nm.SameIds (networkManagerEnqueueOutgoingFragment nm dst pid fid t).1 := by
  rcases networkManagerEnqueueOutgoingFragment_cases h dst pid fid t with
    ⟨-, heq⟩ | ⟨e, fp, f, he, -, -, -, heq⟩
  · rw [heq]
    exact refreshed h.wf dst t
  · rw [heq]
    split_ifs
    · exact refreshed h.wf dst t
    · have hnode : (e.refreshed t).node = e.node := rfl
      exact link h.wf he hnode rfl fp fid true

lemma popMsg (h : nm.OutqueueInv) {m : Option NetMessage}
    (hpop : networkManagerPopOutgoingNetMsg nm = .ok (nm', m)) : nm.SameIds nm' := by
  cases hq : nm.outqueue with
  | nil =>
      rw [networkManagerPopOutgoingNetMsg, hq] at hpop
      cases hpop
      exact refl nm
  | cons el q =>
      cases el with
      | request r =>
          rw [networkManagerPopOutgoingNetMsg, hq] at hpop
          cases hpop
          exact refl nm
      | fragment d pid i =>
          obtain ⟨e, fp, f, he, -, -, -, hpop', -⟩ := h.pop_fragment hq
          rw [hpop'] at hpop
          cases hpop
          exact link h.wf he rfl rfl fp i false

lemma arrived (h : nm.Wf) (f : Fragment) (tSweep tCreate : ℤ) :
    nm.SameIds (nm.arrived f tSweep tCreate) :=
  put h (h.endpointFor_node f.fromNode) rfl

lemma popped (h : nm.Wf) (src : NodeID) (pid : ℕ) (t : ℤ) : nm.SameIds (nm.popped src pid t) := by
  cases he : nm.endpoint src with
  | none =>
      rw [NetworkManager.popped, he]
      exact refl nm
  | some e =>
      rw [NetworkManager.popped, he]
      exact put_of_some h he rfl rfl

end NetworkManager.SameIds

/-- **A call moves the id counter** of the nodes it sends to, and no other. -/
theorem NetworkManager.OutqueueInv.outId_step {nm nm' : NetworkManager} (h : nm.OutqueueInv)
    {op : NmOp} {a : NmAnswer} (hs : networkManagerStep nm op = .ok (nm', a)) (n : NodeID) :
    (nm'.endpointFor n).outId
      = if op.sendsTo n then ((nm.endpointFor n).outId + 1) % 2 ^ 16
        else (nm.endpointFor n).outId := by
  cases op with
  | enqueuePacket src dst data tSweep tCreate =>
      rcases networkManagerStep_enqueuePacket h.wf hs with
        ⟨rfl, rfl, -⟩ | ⟨hdata, -, -, rfl, -⟩
      · simp [NmOp.sendsTo]
      · rw [NetworkManager.enqueued, h.wf.endpointFor_put
          (e := (nm.endpointFor dst).enqueued src data tSweep tCreate) (h.wf.endpointFor_node dst)]
        simp only [NmOp.sendsTo, hdata, decide_true, Bool.and_true]
        split_ifs with hn
        · rw [← (h.wf.endpointFor_congr hn).1]
          rfl
        · rfl
  | popMsg =>
      simp only [networkManagerStep, Eval.bind_eq_ok] at hs
      obtain ⟨⟨nm₁, m⟩, hpop, he⟩ := hs
      obtain ⟨rfl, -⟩ : nm₁ = nm' ∧ NmAnswer.message m = a := by simpa using he
      exact SameIds.popMsg h hpop n
  | enqueueFragment dst pid fid tSweep =>
      cases hs
      exact SameIds.enqueueFragment h dst pid fid tSweep n
  | addFragment f tSweep tCreate =>
      rw [networkManagerStep, h.addFragment] at hs
      cases hs
      exact SameIds.arrived h.wf f tSweep tCreate n
  | popPacket src pid size tSweep =>
      rw [networkManagerStep, h.popPacket] at hs
      cases hs
      exact SameIds.popped h.wf src pid tSweep n

/-- The fragment size never changes. -/
lemma NetworkManager.OutqueueInv.fragSize_step {nm nm' : NetworkManager} (h : nm.OutqueueInv)
    {op : NmOp} {a : NmAnswer} (hs : networkManagerStep nm op = .ok (nm', a)) :
    nm'.fragSize = nm.fragSize := by
  cases op with
  | enqueuePacket src dst data tSweep tCreate =>
      rcases networkManagerStep_enqueuePacket h.wf hs with ⟨-, rfl, -⟩ | ⟨-, -, -, rfl, -⟩
      · rfl
      · rw [NetworkManager.enqueued, NetworkManager.put_fragSize]
  | popMsg =>
      simp only [networkManagerStep, Eval.bind_eq_ok] at hs
      obtain ⟨⟨nm₁, m⟩, hpop, he⟩ := hs
      obtain ⟨rfl, -⟩ : nm₁ = nm' ∧ NmAnswer.message m = a := by simpa using he
      cases hq : nm.outqueue with
      | nil =>
          rw [networkManagerPopOutgoingNetMsg, hq] at hpop
          cases hpop
          rfl
      | cons el q =>
          cases el with
          | request r =>
              rw [networkManagerPopOutgoingNetMsg, hq] at hpop
              cases hpop
              rfl
          | fragment d pid i =>
              obtain ⟨e, fp, f, -, -, -, -, hpop', -⟩ := h.pop_fragment hq
              rw [hpop'] at hpop
              cases hpop
              rfl
  | enqueueFragment dst pid fid tSweep =>
      have hnm : nm' = (networkManagerEnqueueOutgoingFragment nm dst pid fid tSweep).1 := by
        cases hs
        rfl
      rw [hnm]
      rcases networkManagerEnqueueOutgoingFragment_cases h dst pid fid tSweep with
        ⟨-, heq⟩ | ⟨e, fp, f, -, -, -, -, heq⟩
      · simp [heq]
      · rw [heq]
        split_ifs
        · simp
        · rfl
  | addFragment f tSweep tCreate =>
      rw [networkManagerStep, h.addFragment] at hs
      cases hs
      exact NetworkManager.arrived_fragSize
  | popPacket src pid size tSweep =>
      rw [networkManagerStep, h.popPacket] at hs
      cases hs
      exact NetworkManager.popped_fragSize src pid

/-! ## What is popped -/

/-- What a run keeps about the packets sent to `n`: their ids count them, and every stored fragment
for `n` is a piece of the packet with its id. -/
structure SendsPieces (n : NodeID) (fragSize : ℕ) (ops : List NmOp) (nm : NetworkManager) :
    Prop where
  inv : nm.OutqueueInv
  outId : (nm.endpointFor n).outId = sends n ops % 2 ^ 16
  pieces : nm.EveryOutgoing fun f => nodeidEqual f.toNode n → SentPiece (payloads n ops) fragSize f
  fragSize : nm.fragSize = fragSize

section Runs

variable {n : NodeID} {fragSize : ℕ} {ops : List NmOp} {nm nm' : NetworkManager} {op : NmOp}
  {a : NmAnswer}

lemma networkManagerCreate_sendsPieces (n : NodeID) (config : NetworkConfig) :
    SendsPieces n (networkManagerCreate config).fragSize [] (networkManagerCreate config) where
  inv := networkManagerCreate_outqueueInv config
  outId := rfl
  pieces := networkManagerCreate_everyOutgoing config _
  fragSize := rfl

lemma SendsPieces.outId_append (h : SendsPieces n fragSize ops nm)
    (hs : networkManagerStep nm op = .ok (nm', a)) :
    (nm'.endpointFor n).outId = sends n (ops ++ [op]) % 2 ^ 16 := by
  rw [h.inv.outId_step hs, h.outId, sends_append, sends_singleton]
  cases op.sendsTo n <;> simp

/-- **One call.**  While no id is given twice, the fragments stored and the fragment popped are
pieces of the packets with their ids. -/
theorem SendsPieces.step (h : SendsPieces n fragSize ops nm)
    (hids : sends n (ops ++ [op]) ≤ 2 ^ 16) (hs : networkManagerStep nm op = .ok (nm', a)) :
    SendsPieces n fragSize (ops ++ [op]) nm'
      ∧ ∀ f, a = .message (some (.fragment f)) → nodeidEqual f.toNode n →
        SentPiece (payloads n (ops ++ [op])) fragSize f := by
  have hpieces : nm.EveryOutgoing
      fun f => nodeidEqual f.toNode n → SentPiece (payloads n (ops ++ [op])) fragSize f :=
    h.pieces.mono fun f hf hn => by
      rw [payloads_append]
      exact (hf hn).append _
  have hcut : ∀ src dst data tSweep tCreate, op = .enqueuePacket src dst data tSweep tCreate →
      0 < data.length → ∀ f ∈ (nm.endpointFor dst).cut src data,
        nodeidEqual f.toNode n → SentPiece (payloads n (ops ++ [op])) fragSize f := by
    rintro src dst data tSweep tCreate rfl hdata f hf hn
    obtain ⟨hpiece, hto, hpid⟩ := cutFragments_pieceOf hf
    have hdst : nodeidEqual dst n :=
      nodeidEqual_trans (nodeidEqual_symm (h.inv.wf.endpointFor_node dst)) (hto ▸ hn)
    have hone : payloads n [.enqueuePacket src dst data tSweep tCreate] = [data] := by
      simp [payloads, NmOp.payloadTo, hdst, hdata]
    rw [← length_payloads, payloads_append, hone, List.length_append, length_payloads] at hids
    have hid : f.pid = sends n ops := by
      rw [hpid, (h.inv.wf.endpointFor_congr hdst).1, h.outId]
      exact Nat.mod_eq_of_lt (by simpa using hids)
    refine ⟨data, ?_, ?_⟩
    · rw [payloads_append, hone, hid, ← length_payloads]
      simp
    · rw [(h.inv.wf.endpointFor_wf dst).fragSize, h.fragSize] at hpiece
      exact hpiece
  obtain ⟨hkeep, hpop⟩ := hpieces.step (linkBlind_sentPiece n fragSize (ops ++ [op])) h.inv hs hcut
  exact ⟨⟨h.inv.step hs, h.outId_append hs, hkeep, (h.inv.fragSize_step hs).trans h.fragSize⟩, hpop⟩

/-- **Every fragment a run pops** for `n` is a piece of the packet with its id. -/
theorem sentPiece_of_exec {config : NetworkConfig} {answers : List NmAnswer}
    (hexec : exec networkManagerStep (networkManagerCreate config) ops = .ok (nm, answers))
    (hids : sends n ops ≤ 2 ^ 16) {f : Fragment}
    (hf : .message (some (.fragment f)) ∈ answers) (hto : nodeidEqual f.toNode n) :
    SentPiece (payloads n ops) (networkManagerCreate config).fragSize f := by
  have key := exec_history (J := fun ops answers nm => sends n ops ≤ 2 ^ 16 →
    SendsPieces n (networkManagerCreate config).fragSize ops nm
      ∧ ∀ f, .message (some (.fragment f)) ∈ answers → nodeidEqual f.toNode n →
        SentPiece (payloads n ops) (networkManagerCreate config).fragSize f) hexec
    (fun _ => ⟨networkManagerCreate_sendsPieces n config, by simp⟩) ?_
  · exact (key hids).2 f hf hto
  · intro ops answers nm op a nm' ih hs hids
    have hpre : sends n ops ≤ 2 ^ 16 := by
      rw [sends_append] at hids
      omega
    obtain ⟨hinv, hall⟩ := ih hpre
    obtain ⟨hinv', hpop⟩ := hinv.step hids hs
    refine ⟨hinv', fun f hf hto => ?_⟩
    rcases List.mem_append.mp hf with hf | hf
    · rw [payloads_append]
      exact (hall f hf hto).append _
    · exact hpop f (List.mem_singleton.mp hf).symm hto

end Runs

end PeerStreamer
