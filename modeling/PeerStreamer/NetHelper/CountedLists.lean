import PeerStreamer.NetHelper.CountedCalls
import PeerStreamer.NetHelper.ListTeardown

/-!
# Lists and nodes to the end

What a network manager does in memory is given by its calls to `list.h` and by what it does to the
counters of nodes.  In every run in which the packets sent to a node have distinct ids and the
references to one node never reach `2 ^ 16`, all of it can be done (`lists_in_memory_counted`), and
so can what `network_manager_destroy` does after the run: it gives back all references of the
network manager and no other, and only requests that have been handed out stay allocated
(`destroy_leaves_counted`).
-/

namespace PeerStreamer

/-! ## Operations on the counters -/

/-- `packet_bucket_destroy` -/
def packetBucketDestroyRefs (pb : PacketBucket) : List (RefOp NodeID) :=
  pb.packetSet.elements.reverse.flatMap fragmentedPacketDestroyRefs

/-- `endpoint_destroy` -/
def endpointDestroyRefs (e : Endpoint) : List (RefOp NodeID) :=
  packetBucketDestroyRefs e.incoming ++ packetBucketDestroyRefs e.outgoing ++ [.free e.node]

/-- `frag_request_destroy`, for the requests of a list. -/
def QueueElem.destroyRefs : QueueElem → List (RefOp NodeID)
  | .fragment _ _ _ => []
  | .request r => netMsgDeinitRefs r.toNetMsg

/-- `network_manager_destroy` -/
def NetworkManager.destroyRefs (nm : NetworkManager) : List (RefOp NodeID) :=
  nm.endpoints.elements.reverse.flatMap endpointDestroyRefs
    ++ nm.outqueue.flatMap QueueElem.destroyRefs

/-! ## References -/

section Moving

variable {M : Multiset NodeID}

lemma packetBucketDestroy_moves (pb : PacketBucket) (M : Multiset NodeID) :
    Moves (M + pb.references) (packetBucketDestroyRefs pb) M := by
  have hdrop := Moves.flatMap_drop (M := M) (fun fp M => fragmentedPacketDestroy_moves fp M)
    pb.packetSet.elements.reverse
  refine hdrop.of_eq ?_ rfl
  rw [PacketBucket.references, List.map_reverse, List.sum_reverse]

lemma endpointDestroy_moves (e : Endpoint) (M : Multiset NodeID) :
    Moves (M + e.references) (endpointDestroyRefs e) M := by
  have hincoming := packetBucketDestroy_moves e.incoming (M + {e.node} + e.outgoing.references)
  have houtgoing := packetBucketDestroy_moves e.outgoing (M + {e.node})
  have hnode : Moves (M + {e.node}) [.free e.node] M :=
    Moves.free.of_eq ((add_comm M _).trans (Multiset.singleton_add e.node M)) rfl
  refine ((hincoming.append houtgoing).append hnode).of_eq ?_ rfl
  rw [Endpoint.references]
  abel

lemma QueueElem.destroy_moves (el : QueueElem) (M : Multiset NodeID) :
    Moves (M + el.references) el.destroyRefs M := by
  cases el with
  | fragment n pid i => exact Moves.nil.of_eq (add_zero M) rfl
  | request r => exact netMsgDeinit_moves r.toNetMsg M

/-- **The destruction** gives back all references of the network manager. -/
lemma NetworkManager.destroy_moves (nm : NetworkManager) (M : Multiset NodeID) :
    Moves (M + nm.references) nm.destroyRefs M := by
  have hendpoints := Moves.flatMap_drop (fun e M => endpointDestroy_moves e M)
    nm.endpoints.elements.reverse (M := M + queueReferences nm.outqueue)
  have hqueue := Moves.flatMap_drop (fun el M => QueueElem.destroy_moves el M) nm.outqueue (M := M)
  refine (hendpoints.append hqueue).of_eq ?_ rfl
  rw [NetworkManager.references, List.map_reverse, List.sum_reverse]
  abel

/-- It takes none. -/
lemma NetworkManager.destroyRefs_free (nm : NetworkManager) :
    ∀ op ∈ nm.destroyRefs, ∃ n, op = .free n := by
  have hpacket : ∀ fp, ∀ op ∈ fragmentedPacketDestroyRefs fp, ∃ n, op = .free n := by
    intro fp op hop
    obtain ⟨f, -, hop⟩ := List.mem_flatMap.mp hop
    simp only [netMsgDeinitRefs, List.mem_cons, List.not_mem_nil, or_false] at hop
    exact hop.elim (fun he => ⟨_, he⟩) fun he => ⟨_, he⟩
  have hbucket : ∀ pb, ∀ op ∈ packetBucketDestroyRefs pb, ∃ n, op = .free n := by
    intro pb op hop
    obtain ⟨fp, -, hop⟩ := List.mem_flatMap.mp hop
    exact hpacket fp op hop
  intro op hop
  rcases List.mem_append.mp hop with hop | hop
  · obtain ⟨e, -, hop⟩ := List.mem_flatMap.mp hop
    rcases List.mem_append.mp hop with hop | hop
    · exact (List.mem_append.mp hop).elim (hbucket _ op) (hbucket _ op)
    · exact ⟨_, List.mem_singleton.mp hop⟩
  · obtain ⟨el, -, hop⟩ := List.mem_flatMap.mp hop
    cases el with
    | fragment n pid i => cases hop
    | request r =>
        simp only [QueueElem.destroyRefs, netMsgDeinitRefs, List.mem_cons, List.not_mem_nil,
          or_false] at hop
        exact hop.elim (fun he => ⟨_, he⟩) fun he => ⟨_, he⟩

/-- So its operations on the counters can be made, and leave the references of all others. -/
lemma NetworkManager.destroy_counts {nm : NetworkManager} {c : Counters NodeID}
    (h : Counts (2 ^ 16) c (M + nm.references)) :
    ∃ c', countAll (2 ^ 16) c nm.destroyRefs = .ok c' ∧ Counts (2 ^ 16) c' M :=
  h.countAll (nm.destroy_moves M) (fits_frees h.fits nm.destroyRefs_free)

end Moving

/-! ## Every run -/

section Runs

variable {config : NetworkConfig} {is : List ManagerHappening}

/-- **A run with the counters** goes through, and is one without. -/
lemma managerProgram_run (hsize : 1 ≤ config.fragSizeInt)
    (hsends : ∀ n, sends n (Happening.calls is) < 65536)
    (hcareful : Along countedCall (managerProgram.Careful (2 ^ 16)) (startedManager config) is) :
    ∃ s outs, exec countedCall (startedManager config) is = .ok (s, outs)
      ∧ exec networkManagerStep (networkManagerCreate config) (Happening.calls is)
        = .ok (s.state.program, outs.reduceOption)
      ∧ Counts (2 ^ 16) s.counters (s.state.owned + s.state.program.references) := by
  obtain ⟨nm, answers, hrun, -⟩ := networkManager_run hsize hsends
  obtain ⟨s, outs, hexec, hplain, -, hcounted⟩ := managerProgram_respects.carries
    (s := startedManager config) (networkManagerCreate_outqueueInv config)
    (startedManager_counted config) (hcareful.mono fun s i hi => ⟨hi, by cases i <;> trivial⟩)
    (Q := fun nm answers => exec networkManagerStep (networkManagerCreate config)
      (Happening.calls is) = .ok (nm, answers)) fun _ => ⟨nm, answers, hrun, hrun⟩
  exact ⟨s, outs, hexec, hplain, hcounted⟩

/-- The run goes through, with all calls to `list.h`, and afterwards the lists are in memory what
they are in the model. -/
def ListsInMemory (config : NetworkConfig) (is : List ManagerHappening) : Prop :=
  ∃ s outs, exec countedCall (startedManager config) is = .ok (s, outs)
    ∧ ∀ m : LinkMemory ListNode, (∀ x, m.live x = false) →
      ∃ m', Performs m (NetworkManager.lifetimeCalls config (Happening.calls is)) m'
        ∧ Laid m' (s.state.program.listUses
          (NetworkManager.lifetimeUse config (Happening.calls is)))
        ∧ (NetworkManager.lifetimeUse config (Happening.calls is)).Fits s.state.program.outqueue

/-- **The lists of the network manager are in memory what they are in the model**, in every run in
which fewer than 65536 packets are sent to each node and the references to one node never reach
`2 ^ 16`. -/
theorem lists_in_memory_counted (config : NetworkConfig) (hsize : 1 ≤ config.fragSizeInt)
    (is : List ManagerHappening) (hsends : ∀ n, sends n (Happening.calls is) < 65536)
    (hcareful : Along countedCall (managerProgram.Careful (2 ^ 16)) (startedManager config) is) :
    ListsInMemory config is := by
  obtain ⟨s, outs, hexec, hplain, -⟩ := managerProgram_run hsize hsends hcareful
  exact ⟨s, outs, hexec, fun m hm => lists_in_memory hplain hm⟩

/-- The run goes through and so does the destruction after it, in the memory of the lists and on the
counters: what is left are the requests that have been handed out, and the references of the
surroundings. -/
def DestroyLeaves (config : NetworkConfig) (is : List ManagerHappening) : Prop :=
  ∃ s outs c, exec countedCall (startedManager config) is = .ok (s, outs)
    ∧ countAll (2 ^ 16) s.counters s.state.program.destroyRefs = .ok c
    ∧ Counts (2 ^ 16) c s.state.owned
    ∧ ∀ m : LinkMemory ListNode, (∀ x, m.live x = false) →
      ∃ m', ∃ left : List ℕ,
        Performs m (NetworkManager.lifetimeCalls config (Happening.calls is)
          ++ s.state.program.destroyCalls
            (NetworkManager.lifetimeUse config (Happening.calls is)).queued) m'
        ∧ (∀ x, m'.live x = true ↔ ∃ k ∈ left, x = .request k)
        ∧ left.Nodup ∧ left.length = outs.reduceOption.countP NmAnswer.isRequest

/-- **Only the requests that have been handed out are left**, and the references of others, after
every run in which fewer than 65536 packets are sent to each node and the references to one node
never reach `2 ^ 16`. -/
theorem destroy_leaves_counted (config : NetworkConfig) (hsize : 1 ≤ config.fragSizeInt)
    (is : List ManagerHappening) (hsends : ∀ n, sends n (Happening.calls is) < 65536)
    (hcareful : Along countedCall (managerProgram.Careful (2 ^ 16)) (startedManager config) is) :
    DestroyLeaves config is := by
  obtain ⟨s, outs, hexec, hplain, hcounts⟩ := managerProgram_run hsize hsends hcareful
  obtain ⟨c, hcount, hleft⟩ := NetworkManager.destroy_counts hcounts
  exact ⟨s, outs, c, hexec, hcount, hleft, fun m hm => destroy_leaves hplain hm⟩

end Runs

/-- A packet of two fragments is sent, one of them is popped and put on the queue again, and the
second of three fragments arrives, so that the first one is asked for. -/
def requestingRun : List ManagerHappening :=
  [.other (.create ⟨[65], 6000, 3⟩), .other (.create ⟨[66], 6001, -1⟩),
    .call (.enqueuePacket ⟨[65], 6000, 3⟩ ⟨[66], 6001, -1⟩ [1, 2, 3] 0 0), .call .popMsg,
    .call (.enqueueFragment ⟨[66], 6001, -1⟩ 0 0 1),
    .call (.addFragment (fragmentInit ⟨[66], 6001, -1⟩ ⟨[65], 6000, 3⟩ 7 3 1 (some [9]) false)
      1 1)]

theorem lists_in_memory_counted_requesting : ListsInMemory twoByteFragments requestingRun :=
  lists_in_memory_counted _ (by decide) _
    (fun _ => lt_of_le_of_lt List.countP_le_length (by decide)) (by decide)

/-- The request for the missing fragment is handed out as well. -/
theorem destroy_leaves_counted_requested :
    DestroyLeaves twoByteFragments
      (requestingRun ++ [.call .popMsg, .call .popMsg, .call .popMsg]) :=
  destroy_leaves_counted _ (by decide) _
    (fun _ => lt_of_le_of_lt List.countP_le_length (by decide)) (by decide)

end PeerStreamer
