import PeerStreamer.NetHelper.Helper

/-!
# Counting the references to nodes

`nodeid_dup` and `nodeid_free` keep a counter of 16 bits in each node, next to the references that
are really there.  The two agree after every action, and a node is released with its last reference,
in every run whose actions never bring the references to one node to `2 ^ 16`
(`occurrences_counted`).

A single datagram is enough to do that: it announces the number of slots, and each slot refers to
the local node (`countedStep_overflow`).
-/

namespace PeerStreamer

variable (ic : IntCoding)

/-! ## The counters -/

/-- The network helper with the field `occurrences` of every node, none where no node is. -/
structure CountedHelper where
  helper : Helper
  occurrences : Counters NodeID

/-- A network helper that is just started. -/
def countedHelperCreate (config : NetworkConfig) : CountedHelper where
  helper := { nm := networkManagerCreate config, held := [], messages := [] }
  occurrences _ := none

/-- One action with counters of 16 bits. -/
def countedStep (s : CountedHelper) (a : HelperAction) : Eval (CountedHelper × Unit) := do
  let (helper, refs) ← actionStep ic s.helper a
  let occurrences ← countAll (2 ^ 16) s.occurrences refs
  return ({ helper, occurrences }, ())

/-- `occurrences` is the number of live references, and exactly the nodes without any have been
released. -/
def CountedHelper.ReferencesCounted (s : CountedHelper) : Prop :=
  ∀ n, s.occurrences n
    = if n ∈ s.helper.references then some (s.helper.references.count n) else none

/-- The action is allowed, and does nothing else that is undefined. -/
def Legal (s : CountedHelper) (a : HelperAction) : Prop :=
  a.Allowed s.helper ∧ (actionStep ic s.helper a).isOk = true

instance (s : CountedHelper) (a : HelperAction) : Decidable (Legal ic s a) :=
  inferInstanceAs (Decidable (_ ∧ _))

/-- What an action does to the counters. -/
def actionRefs (h : Helper) (a : HelperAction) : List (RefOp NodeID) :=
  match actionStep ic h a with
  | .ok (_, refs) => refs
  | .error _ => []

/-- At no moment of the action are there `2 ^ 16` references to one node. -/
def FitsCounter (s : CountedHelper) (a : HelperAction) : Prop :=
  Fits (2 ^ 16) s.helper.references (actionRefs ic s.helper a)

instance (s : CountedHelper) (a : HelperAction) : Decidable (FitsCounter ic s a) :=
  inferInstanceAs (Decidable (Fits _ _ _))

/-! ## Runs -/

section Runs

variable {ic} {s : CountedHelper}

lemma Counts.referencesCounted (h : Counts (2 ^ 16) s.occurrences s.helper.references) :
    s.ReferencesCounted := h.counter

/-- The counters of a network helper that is just started. -/
lemma countedHelperCreate_counts (config : NetworkConfig) :
    Counts (2 ^ 16) (countedHelperCreate config).occurrences
      (countedHelperCreate config).helper.references :=
  counts_empty (by norm_num)

/-- An action that is legal, and fits. -/
lemma countedStep_counts (hinv : s.helper.nm.OutqueueInv)
    (hcounts : Counts (2 ^ 16) s.occurrences s.helper.references) {a : HelperAction}
    (ha : Legal ic s a) (hfits : FitsCounter ic s a) :
    ∃ s' out, countedStep ic s a = .ok (s', out)
      ∧ s'.helper.nm.OutqueueInv ∧ Counts (2 ^ 16) s'.occurrences s'.helper.references := by
  obtain ⟨⟨helper, refs⟩, hstep⟩ := Eval.exists_ok ha.2
  obtain ⟨hmoves, hinv'⟩ := actionStep_moves hinv ha.1 hstep
  have hrefs : actionRefs ic s.helper a = refs := by rw [actionRefs, hstep]
  rw [FitsCounter, hrefs] at hfits
  obtain ⟨occurrences, hcount, hcounts'⟩ := hcounts.countAll hmoves hfits
  refine ⟨⟨helper, occurrences⟩, (), ?_, hinv', hcounts'⟩
  rw [countedStep, hstep]
  simp only [Eval.ok_bind, hcount]
  rfl

end Runs

/-- **When the references are counted.**  For every configuration and every run of actions that are
legal and at no moment bring the references to one node to `2 ^ 16`: the run goes through, and after
it the field `occurrences` of every node is the number of its live references, the nodes without any
having been released. -/
theorem occurrences_counted (ic : IntCoding) (config : NetworkConfig) (actions : List HelperAction)
    (hactions : Along (countedStep ic) (fun s a => Legal ic s a ∧ FitsCounter ic s a)
      (countedHelperCreate config) actions) :
    ∃ s outs, exec (countedStep ic) (countedHelperCreate config) actions = .ok (s, outs)
      ∧ s.ReferencesCounted := by
  obtain ⟨s, outs, hexec, -, hcounts⟩ := exec_along_total
    (J := fun s => s.helper.nm.OutqueueInv
      ∧ Counts (2 ^ 16) s.occurrences s.helper.references)
    (fun s a hs ha => countedStep_counts hs.1 hs.2 ha.1 ha.2)
    ⟨networkManagerCreate_outqueueInv config, countedHelperCreate_counts config⟩ hactions
  exact ⟨s, outs, hexec, hcounts.referencesCounted⟩

/-- The local node of the runs below. -/
def localPeer : NodeID := ⟨[65], 6000, 3⟩

/-- The reception of a fragment of one byte, which announces `256 * hi + lo` fragments. -/
def oneByte (hi lo : UInt8) : Reception where
  ip := [66]
  port := 6001
  received := some [0, 0, 0, hi, lo, 0, 0, 0, 0, 0, 1, 42]
  buffer := List.replicate 12 0
  tSweep := 0
  tCreate := 0
  tPop := 0
  fits := by simp

/-- A packet of one fragment is received. -/
theorem occurrences_counted_whole :
    ∃ s outs, exec (countedStep bigEndian) (countedHelperCreate ⟨none, none⟩)
        [.op (.createNode localPeer), .recvFromPeer localPeer (-1) (oneByte 0 1)] = .ok (s, outs)
      ∧ s.ReferencesCounted :=
  occurrences_counted _ _ _ (by decide +kernel)

/-! ## Too many slots -/

section Overflow

variable {ic}

/-- A reception of a fragment first makes the message and passes it on. -/
lemma actionStep_fragment_refs {h h' : Helper} {localNode : NodeID} {address : ℤ} {r : Reception}
    {datagram : Bytes} {f : Fragment} {refs : List (RefOp NodeID)} (hr : r.received = some datagram)
    (hlen : datagram.length > 0)
    (hd : netMsgDecode ic localNode (r.remoteAt address) datagram = .ok (some (.fragment f)))
    (hs : actionStep ic h (.recvFromPeer localNode address r) = .ok (h', refs)) :
    ∃ rest, refs = .create (r.remoteAt address) :: (netMsgInitRefs f.toNetMsg
      ++ (NmOp.refs h.nm (.addFragment f r.tSweep r.tCreate) ++ rest)) := by
  obtain ⟨ops, hops, hs⟩ := Eval.bind_eq_ok.mp hs
  obtain ⟨⟨h₁, traces⟩, hexec, he⟩ := Eval.bind_eq_ok.mp hs
  cases he
  rw [HelperAction.ops, receptionOps, hr] at hops
  simp only [hlen, if_true, hd, Eval.ok_bind, Eval.pure_eq_ok, Except.ok.injEq] at hops
  subst hops
  obtain ⟨h₂, refs₂, traces₂, hs₂, hexec₂, rfl⟩ := exec_cons_eq_ok.mp hexec
  obtain ⟨h₃, refs₃, traces₃, hs₃, hexec₃, rfl⟩ := exec_cons_eq_ok.mp hexec₂
  obtain ⟨h₄, refs₄, traces₄, hs₄, -, rfl⟩ := exec_cons_eq_ok.mp hexec₃
  cases hs₂
  cases hs₃
  obtain ⟨nm, answer, -, -, rfl⟩ := helperStep_call_eq_ok hs₄
  exact ⟨traces₄.flatten, rfl⟩

/-- The slots of a new packet refer to its two nodes once each. -/
lemma fragmentedPacketInitRefs_empty (pid : ℕ) (fromNode toNode : NodeID) (n : ℕ) (now : ℤ) :
    fragmentedPacketInitRefs (fragmentedPacketEmpty pid fromNode toNode n now)
      = ((List.range n).flatMap fun _ => [toNode, fromNode]).map .dup := by
  rw [fragmentedPacketInitRefs, fragmentedPacketEmpty, List.flatMap_map, List.map_flatMap]
  rfl

lemma count_slots {a b : NodeID} (hne : a ≠ b) (n : ℕ) :
    ((List.range n).flatMap fun _ => [b, a]).count a = n
      ∧ ((List.range n).flatMap fun _ => [b, a]).count b = n := by
  induction n with
  | zero => exact ⟨rfl, rfl⟩
  | succ n ih =>
      rw [List.range_succ, List.flatMap_append, List.count_append, List.count_append, ih.1, ih.2]
      simp [hne, Ne.symm hne]

lemma mem_slots {a b : NodeID} {n : ℕ} :
    ∀ x ∈ (List.range n).flatMap fun _ => [b, a], x = a ∨ x = b := by
  intro x hx
  simp only [List.mem_flatMap, List.mem_cons, List.not_mem_nil, or_false] at hx
  tauto

/-- The first fragment of a packet: two references for every slot, and then the slot of the fragment
is deinitialised and initialised again. -/
lemma packetBucketAddFragment_first_refs (fragSize maxPktAge : ℕ) {f : Fragment}
    (hid : f.id < f.fragNum) (tSweep tCreate : ℤ) :
    ∃ rest, packetBucketAddFragmentRefs (packetBucketCreate fragSize maxPktAge) f tSweep tCreate
      = ((List.range f.fragNum).flatMap fun _ => [f.toNode, f.fromNode]).map .dup
        ++ .free f.fromNode :: .free f.toNode :: .dup f.toNode :: rest := by
  have hslot : (fragmentedPacketEmpty f.pid f.fromNode f.toNode f.fragNum tCreate).frags[f.id]?
      = some (fragmentInit f.fromNode f.toNode f.pid f.fragNum f.id none false) := by
    rw [fragmentedPacketEmpty, List.getElem?_map, List.getElem?_range hid]
    rfl
  have hrefresh :
      packetBucketPeriodicRefreshRefs (packetBucketCreate fragSize maxPktAge) tSweep = []
      ∧ (packetBucketPeriodicRefresh (packetBucketCreate fragSize maxPktAge) [] tSweep).1.lookup
        f.pid = none := ⟨rfl, rfl⟩
  rw [packetBucketAddFragmentRefs, hrefresh.1, hrefresh.2]
  simp only [fragmentedPacketInitRefs_empty, fragmentedPacketWriteFragmentRefs, hslot]
  exact ⟨_, rfl⟩

/-- The first fragment of a node takes a reference for the endpoint as well. -/
lemma addFragment_first_refs (config : NetworkConfig) {f : Fragment} (hid : f.id < f.fragNum)
    (tSweep tCreate : ℤ) :
    ∃ rest, NmOp.refs (networkManagerCreate config) (.addFragment f tSweep tCreate)
      = (f.fromNode :: (List.range f.fragNum).flatMap fun _ => [f.toNode, f.fromNode]).map .dup
        ++ .free f.fromNode :: .free f.toNode :: .dup f.toNode :: rest := by
  have hnone := networkManagerCreate_endpoint config f.fromNode
  obtain ⟨rest, hrest⟩ := packetBucketAddFragment_first_refs
    (networkManagerCreate config).fragSize (networkManagerCreate config).maxPktAge hid tSweep
    tCreate
  refine ⟨rest, ?_⟩
  rw [NmOp.refs, NetworkManager.obtainEndpoint_snd, NetworkManager.endpointFor_of_none hnone,
    NetworkManager.obtainEndpointRefs, hnone, endpointCreate, hrest]
  rfl

/-- **A fragment whose slots bring the counter round to 1** releases the node it is for, and then
goes on using it. -/
lemma addFragment_overflow (config : NetworkConfig) {f : Fragment} (hid : f.id < f.fragNum)
    (hne : f.fromNode ≠ f.toNode) (tSweep tCreate : ℤ) {c : Counters NodeID} {M : Multiset NodeID}
    (hcounts : Counts (2 ^ 16) c M) (hfrom : f.fromNode ∈ M) (hto : f.toNode ∈ M)
    (hround : (M.count f.toNode + f.fragNum) % 2 ^ 16 = 1) (rest : List (RefOp NodeID)) :
    countAll (2 ^ 16) c (NmOp.refs (networkManagerCreate config) (.addFragment f tSweep tCreate)
      ++ rest) = .error .useAfterFree := by
  obtain ⟨rest', hrefs⟩ := addFragment_first_refs config hid tSweep tCreate
  obtain ⟨-, hcto⟩ := count_slots hne f.fragNum
  rw [hrefs, List.append_assoc]
  refine hcounts.overflow (fun n hn => ?_) hne hfrom hto ?_ _
  · rcases List.mem_cons.mp hn with rfl | hn
    · exact hfrom
    · exact (mem_slots n hn).elim (fun he => he ▸ hfrom) fun he => he ▸ hto
  · rw [List.count_cons_of_ne hne, hcto, hround]

lemma actionStep_fragment_isOk {h : Helper} {localNode : NodeID} {address : ℤ} {r : Reception}
    {datagram : Bytes} {f : Fragment} (hr : r.received = some datagram) (hlen : datagram.length > 0)
    (hd : netMsgDecode ic localNode (r.remoteAt address) datagram = .ok (some (.fragment f)))
    (ha : (HelperAction.recvFromPeer localNode address r).Allowed h) :
    (actionStep ic h (.recvFromPeer localNode address r)).isOk = true := by
  have hops : ∃ ops, receptionOps ic h.nm localNode (r.remoteAt address) r = .ok ops := by
    rw [receptionOps, hr]
    simp only [hlen, if_true, hd, Eval.ok_bind, Eval.pure_eq_ok]
    exact ⟨_, rfl⟩
  obtain ⟨ops, hops⟩ := hops
  obtain ⟨res, hexec⟩ := (receptionOps_along ha.1 ha.2 hops).2
  rw [actionStep, HelperAction.ops, hops, Eval.ok_bind, hexec]
  rfl

/-- **Receiving such a fragment** is undefined for a node with one reference, in a network helper
that has received nothing before. -/
theorem countedStep_overflow {s : CountedHelper} {config : NetworkConfig} {localNode : NodeID}
    {address : ℤ} {r : Reception} {datagram : Bytes} {f : Fragment}
    (hnm : s.helper.nm = networkManagerCreate config)
    (hcounts : Counts (2 ^ 16) s.occurrences s.helper.references)
    (hrefs : s.helper.references = {localNode})
    (ha : (HelperAction.recvFromPeer localNode address r).Allowed s.helper)
    (hr : r.received = some datagram) (hlen : datagram.length > 0)
    (hd : netMsgDecode ic localNode (r.remoteAt address) datagram = .ok (some (.fragment f)))
    (hnum : f.fragNum = 65535) (hid : f.id < f.fragNum) {s' : CountedHelper} {out : Unit} :
    countedStep ic s (.recvFromPeer localNode address r) ≠ .ok (s', out) := by
  intro hs
  obtain ⟨⟨helper, refs⟩, haction, hs⟩ := Eval.bind_eq_ok.mp hs
  obtain ⟨occurrences, hcount, -⟩ := Eval.bind_eq_ok.mp hs
  obtain ⟨rest, rfl⟩ := actionStep_fragment_refs hr hlen hd haction
  obtain ⟨hfrom, hto⟩ := netMsgDecode_nodes hd
  have hfrom : f.fromNode = r.remoteAt address := hfrom
  have hto : f.toNode = localNode := hto
  have hnew : f.fromNode ∉ s.helper.references := hfrom ▸ ha.2
  rw [hrefs] at hcounts hnew
  have hne : f.fromNode ≠ f.toNode := by
    rw [hto]
    simpa using hnew
  have hmoves : Moves {localNode} (.create (r.remoteAt address) :: netMsgInitRefs f.toNetMsg)
      (f.fromNode ::ₘ f.toNode ::ₘ f.fromNode ::ₘ {f.toNode}) := by
    rw [← hfrom, ← hto] at *
    exact ⟨hnew, by simp [RefOp.InOrder, RefOp.after], by simp [RefOp.InOrder, RefOp.after], rfl⟩
  obtain ⟨c, hc, hcounts⟩ := hcounts.countAll hmoves (fits_of_card (by simp [netMsgInitRefs]))
  rw [← List.cons_append, countAll_append, hc, Eval.ok_bind, hnm,
    addFragment_overflow config hid hne _ _ hcounts (by simp) (by simp)
      (by simp [Ne.symm hne, hnum])]
    at hcount
  cases hcount

end Overflow

/-- A fragment of one byte that announces all the slots the counter of fragments can number. -/
def manySlots : Fragment :=
  { fromNode := (oneByte 255 255).remoteAt (-1), toNode := localPeer, linked := false, id := 0,
    fragNum := 65535, pid := 0, data := some [42] }

lemma manySlots_decode : netMsgDecode bigEndian localPeer ((oneByte 255 255).remoteAt (-1))
    [0, 0, 0, 255, 255, 0, 0, 0, 0, 0, 1, 42] = .ok (some (.fragment manySlots)) := rfl

/-- One datagram after the start, the local node is released while it is in use. -/
theorem not_occurrences_counted :
    ¬ ∀ (ic : IntCoding) (config : NetworkConfig) (actions : List HelperAction),
      ic.Inverse (2 ^ 32) →
      Along (countedStep ic) (Legal ic) (countedHelperCreate config) actions →
      ∃ s outs, exec (countedStep ic) (countedHelperCreate config) actions = .ok (s, outs)
        ∧ s.ReferencesCounted := by
  intro h
  have hlegal : Legal bigEndian (countedHelperCreate ⟨none, none⟩)
      (.op (.createNode localPeer)) := by
    decide
  have ha : (HelperAction.recvFromPeer localPeer (-1) (oneByte 255 255)).Allowed
      ⟨networkManagerCreate ⟨none, none⟩, [localPeer], []⟩ := by
    decide
  obtain ⟨s, outs, hexec, -⟩ := h bigEndian ⟨none, none⟩
    [.op (.createNode localPeer), .recvFromPeer localPeer (-1) (oneByte 255 255)] bigEndian_inverse
    ⟨hlegal, fun s b hs => by
      cases hs
      exact ⟨⟨ha, actionStep_fragment_isOk rfl (by decide) manySlots_decode ha⟩,
        fun _ _ _ => trivial⟩⟩
  obtain ⟨s₁, b, outs₁, hs, hexec₁, -⟩ := exec_cons_eq_ok.mp hexec
  obtain ⟨s₂, b₂, outs₂, hs₂, -, -⟩ := exec_cons_eq_ok.mp hexec₁
  obtain ⟨s₁', out, hs', -, hcounts⟩ := countedStep_counts
    (networkManagerCreate_outqueueInv ⟨none, none⟩) (countedHelperCreate_counts ⟨none, none⟩) hlegal
    (by decide)
  rw [hs] at hs'
  cases hs'
  cases hs
  exact countedStep_overflow rfl hcounts rfl ha rfl (by decide) manySlots_decode rfl (by decide) hs₂

end PeerStreamer
