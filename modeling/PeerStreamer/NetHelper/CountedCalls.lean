import PeerStreamer.Foundation.Sharing
import PeerStreamer.NetHelper.NodeCounts

/-!
# Calls to a network manager whose nodes are counted

The results about runs of a network manager leave the counters of the nodes out.  Here they are
back: the network manager is a program that shares nodes with its surroundings, and a call fails
also where `nodeid_dup` or `nodeid_free` meets a node that has been released.  What is known of the
queue in the runs without counters (`outqueue_invariant`) carries over to the runs in which the
references to one node never reach `2 ^ 16` (`outqueue_counted`), and not to all others: one
fragment that announces 65535 slots releases a node in use (`not_outqueue_counted`).
-/

namespace PeerStreamer

/-- The network manager as a program that shares nodes: a call passes its nodes, and hands over the
references of a request it takes off the queue. -/
def managerProgram : SharedProgram NetworkManager NmOp NmAnswer NodeID where
  run := networkManagerStep
  live := NetworkManager.references
  refs nm op := op.refs nm
  passed := NmOp.nodes
  created _ := []
  handed _ _ a := messageReferences a.handed

/-- A network manager that has just been created, in surroundings without nodes. -/
def startedManager (config : NetworkConfig) :
    WithCounters (Surrounded NetworkManager NodeID) NodeID :=
  Surrounded.start (networkManagerCreate config)

/-- What happens to a network manager: a call, or what its surroundings do with nodes. -/
abbrev ManagerHappening := Happening NmOp NodeID

/-- One step with counters of 16 bits. -/
abbrev countedCall := managerProgram.countedStep (2 ^ 16)

lemma managerProgram_respects :
    managerProgram.Respects NetworkManager.OutqueueInv fun _ _ => True := by
  intro nm op nm' a M hinv _ hs hpassed _
  refine ⟨hinv.step hs, (hinv.step_moves hs hpassed).of_eq rfl ?_⟩
  exact add_right_comm M (messageReferences a.handed) nm'.references

lemma startedManager_counted (config : NetworkConfig) :
    managerProgram.sharing.Counted (2 ^ 16) (startedManager config) :=
  SharedProgram.start_counted (by norm_num) rfl

/-! ## The outgoing queue -/

/-- After what has happened, the call `op` can be made, finds and leaves the queue consistent, and
does to it what `QueueStep` says. -/
def QueueKept (config : NetworkConfig) (is : List ManagerHappening) (op : NmOp) : Prop :=
  ∃ s outs s' a, exec countedCall (startedManager config) is = .ok (s, outs)
    ∧ countedCall s (.call op) = .ok (s', some a)
    ∧ s.state.program.QueueConsistent ∧ s'.state.program.QueueConsistent
    ∧ QueueStep s.state.program s'.state.program a op

/-- **The outgoing queue through every run** in which the references to one node never reach
`2 ^ 16`.  Whatever has happened to a fresh network manager, and for any call after it: the run goes
through and the call can be made, the queue is consistent before and after it, and the call does to
the queue what `QueueStep` says. -/
theorem outqueue_counted (config : NetworkConfig) (hsize : 1 ≤ config.fragSizeInt)
    (is : List ManagerHappening) (op : NmOp)
    (hsends : ∀ n, sends n (Happening.calls is ++ [op]) < 65536)
    (hcareful : Along countedCall (managerProgram.Careful (2 ^ 16)) (startedManager config)
      (is ++ [.call op])) :
    QueueKept config is op := by
  obtain ⟨nm, answers, nm', a, hexec, hstep, hbefore, hafter, hqueue⟩ :=
    outqueue_invariant config hsize (Happening.calls is) op hsends
  have hcalls : Happening.calls (is ++ [.call op]) = Happening.calls is ++ [op] :=
    List.filterMap_append
  have hstart : exec networkManagerStep (startedManager config).state.program
      (Happening.calls (is ++ [.call op])) = .ok (nm', answers ++ [a]) := by
    rw [hcalls]
    exact exec_append_eq_ok.mpr ⟨nm, answers, [a], hexec,
      exec_cons_eq_ok.mpr ⟨nm', a, [], hstep, rfl, rfl⟩, rfl⟩
  obtain ⟨s', outs, hcounted, -⟩ := managerProgram_respects.carries
    (s := startedManager config) (Q := fun _ _ => True) (networkManagerCreate_outqueueInv config)
    (startedManager_counted config) (hcareful.mono fun s i hi => ⟨hi, by cases i <;> trivial⟩)
    fun _ => ⟨nm', _, hstart, trivial⟩
  obtain ⟨s, outs₁, outs₂, hpre, hpost, -⟩ := exec_append_eq_ok.mp hcounted
  obtain ⟨s₁, out, outs₃, hcall, hnil, -⟩ := exec_cons_eq_ok.mp hpost
  cases hnil
  -- the two runs go through the same managers
  obtain ⟨rfl, -⟩ := ok_unique hexec (SharedProgram.exec_program hpre)
  obtain ⟨b, hrun, rfl, -⟩ := SharedProgram.countedStep_call hcall
  obtain ⟨rfl, rfl⟩ := ok_unique hstep hrun
  exact ⟨s, outs₁, s', a, hpre, hcall, hbefore, hafter, hqueue⟩

/-- Fragments of two bytes. -/
def twoByteFragments : NetworkConfig := ⟨some ⟨2, by decide, by decide⟩, none⟩

/-- A packet of two fragments is sent, one is popped, and queued again on request. -/
theorem outqueue_counted_retransmission :
    QueueKept twoByteFragments
      [.other (.create ⟨[65], 6000, 3⟩), .other (.create ⟨[66], 6001, -1⟩),
        .call (.enqueuePacket ⟨[65], 6000, 3⟩ ⟨[66], 6001, -1⟩ [1, 2, 3] 0 0), .call .popMsg]
      (.enqueueFragment ⟨[66], 6001, -1⟩ 0 0 1) :=
  outqueue_counted _ (by decide) _ _
    (fun _ => lt_of_le_of_lt List.countP_le_length (by decide)) (by decide)

/-! ## One fragment too many -/

/-- What is done before `manySlots` is passed on: its two nodes are created, and it is made. -/
def beforeArrival : List (RefOp NodeID) :=
  [.create manySlots.fromNode, .create manySlots.toNode] ++ netMsgInitRefs manySlots.toNetMsg

/-- Then there are two references to each of the two. -/
def heldBefore : Multiset NodeID :=
  {manySlots.fromNode, manySlots.toNode, manySlots.toNode, manySlots.fromNode}

lemma beforeArrival_moves : Moves 0 beforeArrival heldBefore :=
  ⟨by decide, by decide, by decide, by decide, rfl⟩

lemma beforeArrival_fits : Fits (2 ^ 16) 0 beforeArrival := fits_of_card (by decide)

/-- The fragment announces 65535 slots, and the nodes it goes between are released while they are in
use. -/
theorem not_outqueue_counted :
    ¬ ∀ (config : NetworkConfig) (is : List ManagerHappening) (op : NmOp),
      1 ≤ config.fragSizeInt → (∀ n, sends n (Happening.calls is ++ [op]) < 65536) →
      Along countedCall (fun s i => managerProgram.Allowed s.state i) (startedManager config)
        (is ++ [.call op]) →
      QueueKept config is op := by
  intro hall
  obtain ⟨halong, c, outs, hexec, hcounts⟩ := SharedProgram.exec_others
    (P := fun _ _ => True) (startedManager_counted ⟨none, none⟩) rfl beforeArrival_moves
    beforeArrival_fits
  have hallowed : managerProgram.Allowed ⟨networkManagerCreate ⟨none, none⟩, heldBefore⟩
      (.call (.addFragment manySlots 0 0)) := by
    decide
  obtain ⟨s, outs₁, s', a, hexec₁, hcall, -⟩ := hall ⟨none, none⟩ (beforeArrival.map .other)
    (.addFragment manySlots 0 0) (by decide)
    (fun _ => lt_of_le_of_lt List.countP_le_length (by decide))
    (along_concat (halong.mono fun _ _ h => h.1.1) hexec hallowed)
  obtain ⟨rfl, -⟩ := ok_unique hexec hexec₁
  obtain ⟨b, -, -, hcount⟩ := SharedProgram.countedStep_call hcall
  have hoverflow := addFragment_overflow ⟨none, none⟩ (f := manySlots) (by decide) (by decide)
    0 0 hcounts (by decide) (by decide) (by decide) []
  rw [List.append_nil] at hoverflow
  cases hcount.symm.trans hoverflow

end PeerStreamer
