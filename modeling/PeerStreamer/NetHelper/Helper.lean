import PeerStreamer.NetHelper.Receive
import PeerStreamer.NetHelper.References

/-!
# The network helper

The network manager together with what is around it: the nodes that have been created and not given
back, and the messages that are on no list.  `recv_from_peer` is a sequence of operations on the two
(`receptionOps`), and leaves the network manager as `recvFromPeer` does.

An operation that its caller may make moves the references to nodes as its operations on the
counters say (`helperStep_moves`), and so does a whole action (`actionStep_moves`).
-/

namespace PeerStreamer

/-! ## The network helper and its surroundings -/

/-- The network manager with what is outside of it: the nodes whose creator has not given them back,
and the messages on no list. -/
structure Helper where
  nm : NetworkManager
  held : List NodeID
  messages : List NetMessage

/-- The references of the surroundings. -/
def Helper.owned (h : Helper) : Multiset NodeID := h.held + messageReferences h.messages

/-- All references that are live: those of the nodes' creators, of the messages and of the
endpoints. -/
def Helper.references (h : Helper) : Multiset NodeID := h.owned + h.nm.references

/-- What can be done: `create_node`, `nodeid_free` by the creator, making and dropping a message,
and a call to the network manager. -/
inductive HelperOp
  | createNode (n : NodeID)
  | freeNode (n : NodeID)
  | initMessage (msg : NetMessage)
  | deinitMessage (msg : NetMessage)
  | call (op : NmOp)

/-- One operation, and what it does to the counters. -/
def helperStep (h : Helper) : HelperOp → Eval (Helper × List (RefOp NodeID))
  | .createNode n => .ok ({ h with held := n :: h.held }, [.create n])
  | .freeNode n => .ok ({ h with held := h.held.erase n }, [.free n])
  | .initMessage msg =>
      .ok ({ h with messages := msg :: h.messages }, netMsgInitRefs msg.netMsg)
  | .deinitMessage msg =>
      .ok ({ h with messages := h.messages.erase msg }, netMsgDeinitRefs msg.netMsg)
  | .call op => do
      let (nm, answer) ← networkManagerStep h.nm op
      return ({ h with nm, messages := answer.handed ++ h.messages }, op.refs h.nm)

/-- What a caller may do: it creates a node where none is, gives back what it has, and passes nodes
to which it has a reference. -/
def HelperOp.Allowed (h : Helper) : HelperOp → Prop
  | .createNode n => n ∉ h.references
  | .freeNode n => n ∈ h.held
  | .initMessage msg => msg.netMsg.fromNode ∈ h.references ∧ msg.netMsg.toNode ∈ h.references
  | .deinitMessage msg => msg ∈ h.messages
  | .call (.addFragment f _ _) => .fragment f ∈ h.messages
  | .call op => ∀ n ∈ op.nodes, n ∈ h.owned

instance (h : Helper) : (op : HelperOp) → Decidable (op.Allowed h)
  | .createNode n => inferInstanceAs (Decidable (n ∉ h.references))
  | .freeNode n => inferInstanceAs (Decidable (n ∈ h.held))
  | .initMessage msg => inferInstanceAs (Decidable (msg.netMsg.fromNode ∈ h.references ∧ _))
  | .deinitMessage msg => inferInstanceAs (Decidable (msg ∈ h.messages))
  | .call (.addFragment f _ _) => inferInstanceAs (Decidable (NetMessage.fragment f ∈ h.messages))
  | .call (.enqueuePacket src dst _ _ _) =>
      inferInstanceAs (Decidable (∀ n ∈ [src, dst], n ∈ h.owned))
  | .call .popMsg => inferInstanceAs (Decidable (∀ n ∈ ([] : List NodeID), n ∈ h.owned))
  | .call (.enqueueFragment dst _ _ _) => inferInstanceAs (Decidable (∀ n ∈ [dst], n ∈ h.owned))
  | .call (.popPacket src _ _ _) => inferInstanceAs (Decidable (∀ n ∈ [src], n ∈ h.owned))

/-! ## Receiving -/

/-- `recv_from_peer`, as the operations it makes: the remote node is created, and given back at once
if there is no datagram; otherwise the message is made, passed on and dropped. -/
def receptionOps (ic : IntCoding) (nm : NetworkManager) (localNode remote : NodeID)
    (r : Reception) : Eval (List HelperOp) :=
  match r.received with
  | none => .ok [.createNode remote, .freeNode remote]
  | some datagram =>
      if datagram.length > 0 then do
        let msg ← netMsgDecode ic localNode remote datagram
        match msg with
        | none => .error .nullDereference
        | some (.fragment f) =>
            let pop : List HelperOp :=
              if (networkManagerAddIncomingFragment nm f r.tSweep r.tCreate).2 = .ready then
                [.call (.popPacket remote f.pid r.buffer.length r.tPop)]
              else []
            return [.createNode remote, .initMessage (.fragment f),
              .call (.addFragment f r.tSweep r.tCreate)] ++ pop ++ [.deinitMessage (.fragment f)]
        | some (.fragRequest fr) =>
            return [.createNode remote, .initMessage (.fragRequest fr),
              .call (.enqueueFragment remote fr.pid fr.id r.tSweep),
              .deinitMessage (.fragRequest fr)]
      else .ok [.createNode remote, .freeNode remote]

/-- An operation, or the reception of a datagram. -/
inductive HelperAction
  | op (o : HelperOp)
  | recvFromPeer (localNode : NodeID) (address : ℤ) (r : Reception)

variable (ic : IntCoding)

def HelperAction.ops (nm : NetworkManager) : HelperAction → Eval (List HelperOp)
  | .op o => .ok [o]
  | .recvFromPeer localNode address r => receptionOps ic nm localNode (r.remoteAt address) r

/-- What a caller may do; `malloc` answers with an address that is not in use. -/
def HelperAction.Allowed (h : Helper) : HelperAction → Prop
  | .op o => o.Allowed h
  | .recvFromPeer localNode address r =>
      localNode ∈ h.owned ∧ r.remoteAt address ∉ h.references

instance (h : Helper) : (a : HelperAction) → Decidable (a.Allowed h)
  | .op o => inferInstanceAs (Decidable (o.Allowed h))
  | .recvFromPeer localNode _ _ => inferInstanceAs (Decidable (localNode ∈ h.owned ∧ _))

/-- One action, and what it does to the counters. -/
def actionStep (h : Helper) (a : HelperAction) : Eval (Helper × List (RefOp NodeID)) := do
  let ops ← a.ops ic h.nm
  let (h, refs) ← exec helperStep h ops
  return (h, refs.flatten)

/-! ## One operation -/

section Operations

variable {ic} {h h' : Helper} {refs : List (RefOp NodeID)}

@[simp] lemma messageReferences_cons (msg : NetMessage) (messages : List NetMessage) :
    messageReferences (msg :: messages) = msg.netMsg.references + messageReferences messages := rfl

@[simp] lemma messageReferences_append (l l' : List NetMessage) :
    messageReferences (l ++ l') = messageReferences l + messageReferences l' := by
  simp [messageReferences]

lemma messageReferences_erase {msg : NetMessage} {messages : List NetMessage}
    (hmsg : msg ∈ messages) :
    messageReferences messages
      = messageReferences (messages.erase msg) + msg.netMsg.references := by
  rw [add_comm]
  exact (List.sum_map_erase (fun msg : NetMessage => msg.netMsg.references) hmsg).symm

/-- A message keeps its two nodes alive. -/
lemma mem_messageReferences {msg : NetMessage} {messages : List NetMessage}
    (hmsg : msg ∈ messages) :
    ∀ n ∈ [msg.netMsg.fromNode, msg.netMsg.toNode], n ∈ messageReferences messages := by
  intro n hn
  rw [messageReferences_erase hmsg, Multiset.mem_add]
  right
  simp only [List.mem_cons, List.not_mem_nil, or_false] at hn
  rcases hn with rfl | rfl <;> simp [NetMsg.references]

/-- The nodes passed to an allowed call are referenced from outside of the network manager. -/
lemma HelperOp.Allowed.nodes {op : NmOp} (hop : (HelperOp.call op).Allowed h) :
    ∀ n ∈ op.nodes, n ∈ h.owned := by
  cases op with
  | addFragment f tSweep tCreate =>
      have hf : NetMessage.fragment f ∈ h.messages := hop
      exact fun n hn => Multiset.mem_add.mpr (Or.inr (mem_messageReferences hf n hn))
  | _ => exact hop

lemma helperStep_call_eq_ok {op : NmOp} (hs : helperStep h (.call op) = .ok (h', refs)) :
    ∃ nm answer, networkManagerStep h.nm op = .ok (nm, answer)
      ∧ h' = { h with nm, messages := answer.handed ++ h.messages } ∧ refs = op.refs h.nm := by
  rw [helperStep, Eval.bind_eq_ok] at hs
  obtain ⟨⟨nm, answer⟩, hstep, he⟩ := hs
  cases he
  exact ⟨nm, answer, hstep, rfl, rfl⟩

/-- **An allowed operation** moves the references as its operations on the counters say. -/
theorem helperStep_moves (hinv : h.nm.OutqueueInv) {op : HelperOp} (hop : op.Allowed h)
    (hs : helperStep h op = .ok (h', refs)) :
    Moves h.references refs h'.references ∧ h'.nm.OutqueueInv := by
  cases op with
  | createNode n =>
      cases hs
      refine ⟨(Moves.create hop).of_eq rfl ?_, hinv⟩
      simp [Helper.references, Helper.owned, ← Multiset.cons_coe]
  | freeNode n =>
      cases hs
      refine ⟨?_, hinv⟩
      have hheld : (h.held : Multiset NodeID) = n ::ₘ (h.held.erase n : List NodeID) := by
        rw [← Multiset.coe_erase]
        exact (Multiset.cons_erase hop).symm
      rw [Helper.references, Helper.owned, hheld, Multiset.cons_add, Multiset.cons_add]
      exact Moves.free
  | initMessage msg =>
      cases hs
      refine ⟨(netMsgInit_moves hop.1 hop.2).of_eq rfl ?_, hinv⟩
      simp only [Helper.references, Helper.owned, messageReferences_cons]
      abel
  | deinitMessage msg =>
      cases hs
      refine ⟨(netMsgDeinit_moves msg.netMsg _).of_eq ?_ rfl, hinv⟩
      rw [Helper.references, Helper.owned, messageReferences_erase hop]
      simp only [Helper.references, Helper.owned]
      abel
  | call op =>
      obtain ⟨nm, answer, hstep, rfl, rfl⟩ := helperStep_call_eq_ok hs
      refine ⟨(hinv.step_moves hstep hop.nodes).of_eq rfl ?_, hinv.step hstep⟩
      simp only [Helper.references, Helper.owned, messageReferences_append]
      abel

/-- Operations that are allowed when their turn comes. -/
lemma exec_helperStep_moves (hinv : h.nm.OutqueueInv) {ops : List HelperOp}
    (hops : Along helperStep (fun h op => op.Allowed h) h ops) {traces : List (List (RefOp NodeID))}
    (hs : exec helperStep h ops = .ok (h', traces)) :
    Moves h.references traces.flatten h'.references ∧ h'.nm.OutqueueInv := by
  induction ops generalizing h traces with
  | nil =>
      cases hs
      exact ⟨Moves.nil, hinv⟩
  | cons op ops ih =>
      obtain ⟨h₁, refs, traces', hstep, hexec, rfl⟩ := exec_cons_eq_ok.mp hs
      obtain ⟨hmove, hinv₁⟩ := helperStep_moves hinv hops.1 hstep
      obtain ⟨hrest, hinv'⟩ := ih hinv₁ (hops.2 h₁ refs hstep) hexec
      exact ⟨hmove.append hrest, hinv'⟩

end Operations

/-! ## One action -/

section Actions

variable {ic} {h h' : Helper} {localNode remote : NodeID} {r : Reception}

/-- The calls a reception makes with the message it has decoded. -/
inductive ReceptionCall (remote : NodeID) : NetMessage → NmOp → Prop
  | addFragment (f : Fragment) (tSweep tCreate : ℤ) :
      ReceptionCall remote (.fragment f) (.addFragment f tSweep tCreate)
  | popPacket (f : Fragment) (pid size : ℕ) (t : ℤ) :
      ReceptionCall remote (.fragment f) (.popPacket remote pid size t)
  | enqueueFragment (fr : FragRequest) (pid fid : ℕ) (t : ℤ) :
      ReceptionCall remote (.fragRequest fr) (.enqueueFragment remote pid fid t)

/-- The operations of a reception, by what was received. -/
lemma receptionOps_cases {nm : NetworkManager} {ops : List HelperOp}
    (hops : receptionOps ic nm localNode remote r = .ok ops) :
    ops = [.createNode remote, .freeNode remote]
    ∨ ∃ (msg : NetMessage) (calls : List NmOp),
      msg.netMsg.fromNode = remote ∧ msg.netMsg.toNode = localNode
      ∧ (∀ op ∈ calls, ReceptionCall remote msg op)
      ∧ ops = .createNode remote :: .initMessage msg
        :: (calls.map .call ++ [.deinitMessage msg]) := by
  rw [receptionOps] at hops
  cases hr : r.received with
  | none =>
      rw [hr] at hops
      cases hops
      exact Or.inl rfl
  | some datagram =>
      rw [hr] at hops
      simp only at hops
      split_ifs at hops with hlen
      · obtain ⟨msg, hd, hops⟩ := Eval.bind_eq_ok.mp hops
        right
        match msg with
        | none => cases hops
        | some (.fragment f) =>
            obtain ⟨hfrom, hto⟩ := netMsgDecode_nodes hd
            simp only [Eval.pure_eq_ok, Except.ok.injEq] at hops
            refine ⟨.fragment f, .addFragment f r.tSweep r.tCreate
              :: if (networkManagerAddIncomingFragment nm f r.tSweep r.tCreate).2 = .ready then
                [.popPacket remote f.pid r.buffer.length r.tPop] else [], hfrom, hto, ?_, ?_⟩
            · intro op hop
              rcases List.mem_cons.mp hop with rfl | hop
              · exact .addFragment f _ _
              · split_ifs at hop
                · obtain rfl := List.mem_singleton.mp hop
                  exact .popPacket f _ _ _
                · cases hop
            · rw [← hops]
              split_ifs <;> rfl
        | some (.fragRequest fr) =>
            obtain ⟨hfrom, hto⟩ := netMsgDecode_nodes hd
            cases hops
            refine ⟨.fragRequest fr, [.enqueueFragment remote fr.pid fr.id r.tSweep], hfrom, hto,
              fun op hop => ?_, rfl⟩
            obtain rfl := List.mem_singleton.mp hop
            exact .enqueueFragment fr _ _ _
      · cases hops
        exact Or.inl rfl

/-- These calls succeed. -/
lemma ReceptionCall.step_ok {msg : NetMessage} {op : NmOp} (hop : ReceptionCall remote msg op)
    (nm : NetworkManager) : ∃ res, networkManagerStep nm op = .ok res := by
  cases hop with
  | addFragment f tSweep tCreate => exact ⟨_, rfl⟩
  | popPacket f pid size t => exact ⟨_, rfl⟩
  | enqueueFragment fr pid fid t => exact ⟨_, rfl⟩

/-- They are allowed as long as the caller has the remote node and the message. -/
lemma ReceptionCall.allowed {msg : NetMessage} {op : NmOp} (hop : ReceptionCall remote msg op)
    (hremote : remote ∈ h.held) (hmsg : msg ∈ h.messages) : (HelperOp.call op).Allowed h := by
  have hown : ∀ n ∈ [remote], n ∈ h.owned := by
    intro n hn
    obtain rfl := List.mem_singleton.mp hn
    exact Multiset.mem_add.mpr (Or.inl hremote)
  cases hop with
  | addFragment f tSweep tCreate => exact hmsg
  | popPacket f pid size t => exact hown
  | enqueueFragment fr pid fid t => exact hown

/-- The calls, and the message dropped after them. -/
lemma calls_along {msg : NetMessage} {calls : List NmOp}
    (hcalls : ∀ op ∈ calls, ReceptionCall remote msg op) (hremote : remote ∈ h.held)
    (hmsg : msg ∈ h.messages) :
    Along helperStep (fun h op => op.Allowed h) h (calls.map .call ++ [.deinitMessage msg])
      ∧ ∃ res, exec helperStep h (calls.map .call ++ [.deinitMessage msg]) = .ok res := by
  induction calls generalizing h with
  | nil => exact ⟨⟨hmsg, fun _ _ _ => trivial⟩, _, rfl⟩
  | cons op calls ih =>
      have hop := hcalls op List.mem_cons_self
      have hrest : ∀ h' refs, helperStep h (.call op) = .ok (h', refs) →
          remote ∈ h'.held ∧ msg ∈ h'.messages := by
        intro h' refs hs
        obtain ⟨nm, answer, -, rfl, -⟩ := helperStep_call_eq_ok hs
        exact ⟨hremote, List.mem_append_right _ hmsg⟩
      have ih' := fun h' refs hs =>
        ih (fun op' hop' => hcalls op' (List.mem_cons_of_mem op hop'))
          (hrest h' refs hs).1 (hrest h' refs hs).2
      refine ⟨⟨hop.allowed hremote hmsg, fun h' refs hs => (ih' h' refs hs).1⟩, ?_⟩
      obtain ⟨⟨nm, answer⟩, hstep⟩ := hop.step_ok h.nm
      have hs : helperStep h (.call op)
          = .ok ({ h with nm, messages := answer.handed ++ h.messages }, op.refs h.nm) := by
        rw [helperStep, hstep]
        rfl
      obtain ⟨⟨h', traces⟩, hexec⟩ := (ih' _ _ hs).2
      exact ⟨_, exec_cons_eq_ok.mpr ⟨_, _, traces, hs, hexec, rfl⟩⟩

/-- **A reception** only does what is allowed, and nothing undefined beyond the decoding. -/
theorem receptionOps_along {ops : List HelperOp} (hlocal : localNode ∈ h.owned)
    (hremote : remote ∉ h.references)
    (hops : receptionOps ic h.nm localNode remote r = .ok ops) :
    Along helperStep (fun h op => op.Allowed h) h ops
      ∧ ∃ res, exec helperStep h ops = .ok res := by
  rcases receptionOps_cases hops with rfl | ⟨msg, calls, hfrom, hto, hcalls, rfl⟩
  · refine ⟨⟨hremote, fun h' refs hs => ?_⟩, _, rfl⟩
    cases hs
    exact ⟨List.mem_cons_self, fun _ _ _ => trivial⟩
  · have hrest := calls_along
      (h := { h with held := remote :: h.held, messages := msg :: h.messages })
      hcalls List.mem_cons_self List.mem_cons_self
    refine ⟨⟨hremote, fun h₁ refs hs => ?_⟩, ?_⟩
    · cases hs
      refine ⟨⟨?_, ?_⟩, fun h₂ refs hs => ?_⟩
      · rw [hfrom]
        exact Multiset.mem_add.mpr (Or.inl (Multiset.mem_add.mpr (Or.inl List.mem_cons_self)))
      · rw [hto]
        refine Multiset.mem_add.mpr (Or.inl ?_)
        rcases Multiset.mem_add.mp hlocal with hheld | hmessages
        · exact Multiset.mem_add.mpr (Or.inl (List.mem_cons_of_mem remote hheld))
        · exact Multiset.mem_add.mpr (Or.inr hmessages)
      · cases hs
        exact hrest.1
    · obtain ⟨⟨h', traces⟩, hexec⟩ := hrest.2
      exact ⟨_, exec_cons_eq_ok.mpr ⟨_, _, _, rfl,
        exec_cons_eq_ok.mpr ⟨_, _, traces, rfl, hexec, rfl⟩, rfl⟩⟩

/-- The network manager is left as `recvFromPeerAs` leaves it. -/
theorem actionStep_recvFromPeer_nm (h : Helper) (localNode : NodeID) (address : ℤ)
    (r : Reception) :
    (actionStep ic h (.recvFromPeer localNode address r)).map (fun res => res.1.nm)
      = (recvFromPeerAs ic localNode (r.remoteAt address) h.nm r).map fun res => res.1 := by
  rw [actionStep, HelperAction.ops, receptionOps, recvFromPeerAs]
  cases hr : r.received with
  | none => rfl
  | some datagram =>
      simp only
      split_ifs with hlen
      · have hbuffer : (datagram ++ r.buffer.drop datagram.length).length = r.buffer.length := by
          have := r.fits datagram hr
          rw [List.length_append, List.length_drop]
          omega
        match netMsgDecode ic localNode (r.remoteAt address) datagram with
        | .error u => rfl
        | .ok none => rfl
        | .ok (some (.fragRequest fr)) => rfl
        | .ok (some (.fragment f)) =>
            simp only [Eval.ok_bind, hbuffer]
            split_ifs <;> rfl
      · rfl

/-- **An allowed action** moves the references as its operations on the counters say. -/
theorem actionStep_moves (hinv : h.nm.OutqueueInv) {a : HelperAction} (ha : a.Allowed h)
    {refs : List (RefOp NodeID)} (hs : actionStep ic h a = .ok (h', refs)) :
    Moves h.references refs h'.references ∧ h'.nm.OutqueueInv := by
  obtain ⟨ops, hops, hs⟩ := Eval.bind_eq_ok.mp hs
  obtain ⟨⟨h₁, traces⟩, hexec, he⟩ := Eval.bind_eq_ok.mp hs
  cases he
  refine exec_helperStep_moves hinv ?_ hexec
  cases a with
  | op o =>
      cases hops
      exact ⟨ha, fun _ _ _ => trivial⟩
  | recvFromPeer localNode address r => exact (receptionOps_along ha.1 ha.2 hops).1

end Actions

end PeerStreamer
