import PeerStreamer.Foundation.Run
import PeerStreamer.Streaming.AdvertisedMetadata
import PeerStreamer.Streaming.ChunkFlow
import PeerStreamer.Streaming.Input

/-!
# The swarm

Any number of instances, sources and peers, each of which runs `psinstance_poll` over and over; the
rounds of different instances come in any order.  What an instance has sent to another reaches it
late, out of order, more than once or not at all (`SwarmRound.arrived`), but is not changed on the
way.
-/

namespace PeerStreamer

/-! ## The model -/

/-- The configuration of an instance, with what `malloc` leaves in its output buffer and the time it
is created at.  It is a source if there is no `server`. -/
structure InstanceConfig (B ι : Type) where
  server : Option ι
  outbuffSize : ℤ
  outbuffReorder : ℤ
  memory : ℕ → Chunk
  neighbourhoodSize : ℤ
  peerTimeout : ℤ
  cb : B
  distType : DistributionType
  offerPerPeriod : ℤ
  peersPerOffer : ℤ
  chunksPerPeerOffer : ℤ
  interframe : ℤ
  now : Timeval

/-- An instance with its input, until it exits. -/
structure SwarmNode (B S ι : Type) where
  ps : PsInstance B ι S
  input : InputDesc
  running : Bool

/-- All instances, and what has happened so far: the chunks that sources have read from their
inputs, and what instances have sent and written. -/
structure Swarm (B C S ι : Type) where
  nodes : ι → SwarmNode B S ι
  injected : List (ι × Chunk)
  sent : List (ι × PsEffect C ι)

/-- A round of an instance: what it reads of its clock, its scheduler and its sampler, the time its
input reads and the answer of `chunkise`, and the number of the message that has arrived, if one
has.  The fields of `u` that these replace are not used. -/
structure SwarmRound (C ι : Type) where
  node : ι
  u : PollInput C ι
  inputNow : Timeval
  chunkised : Chunkised
  arrived : Option ℕ

variable {B C S ι : Type}

/-- `psinstance_create`: the trader does not exist yet when `topology_create` asks for the size of
its buffer, and `fds_size` is 0, so that no descriptors of the input are ever watched. -/
def InstanceConfig.create [DecidableEq ι] [PeerSet ι S] (cfg : InstanceConfig B ι) :
    SwarmNode B S ι where
  ps :=
    let topology := .topologyInit cfg.neighbourhoodSize cfg.peerTimeout 0
    let trader := chunkTraderCreate cfg.cb cfg.distType cfg.offerPerPeriod cfg.peersPerOffer
      cfg.chunksPerPeerOffer
    match cfg.server with
    | some srv =>
        .psinstanceCreate (some (outputCreate cfg.outbuffSize cfg.outbuffReorder cfg.memory))
          (topology.topologyNodeInsert srv cfg.now.toUsec) trader true cfg.now
    | none => .psinstanceCreate none topology trader true cfg.now
  input := inputOpen cfg.interframe cfg.now
  running := true

/-- The swarm before the first round. -/
def swarmCreate [DecidableEq ι] [PeerSet ι S] (cfg : ι → InstanceConfig B ι) : Swarm B C S ι where
  nodes n := (cfg n).create
  injected := []
  sent := []

/-- What arrives if something that `src` has sent does, and where. -/
def PsEffect.message (src : ι) : PsEffect C ι → Option (ι × PsReceived C ι)
  | .topology (.bufferMap dst) => some (dst, .signalling src (some .bufferMap))
  | .topology (.neighbourhood dst kind m) =>
      some (dst, .neighbourhood src kind.code (if kind = .add then some m else none))
  | .trader (.offer dst cset maxDeliver transId) =>
      some (dst, .signalling src (some (.offer cset maxDeliver transId)))
  | .trader (.accept dst cset transId) => some (dst, .signalling src (some (.accept cset transId)))
  | .trader (.chunk dst c transId) => some (dst, .chunk src (some (c, transId)))
  | .trader (.ack dst _ transId) => some (dst, .signalling src (some (.ack transId)))
  | .written _ => none

namespace Swarm

variable [DecidableEq ι]

/-- What the node `n` receives when the message with the given number arrives, if it is for `n`. -/
def received (s : Swarm B C S ι) (n : ι) (arrived : Option ℕ) : PsReceived C ι :=
  match arrived.bind (s.sent[·]?) with
  | none => .nothing
  | some (src, effect) =>
      match effect.message src with
      | none => .nothing
      | some (dst, received) => if dst = n then received else .nothing

/-- After a round of the node `n` that has read `c` from its input. -/
def advance (s : Swarm B C S ι) (n : ι) (node : SwarmNode B S ι) (c : Option Chunk)
    (sent : List (PsEffect C ι)) : Swarm B C S ι where
  nodes := Function.update s.nodes n node
  injected := s.injected ++ c.toList.map (n, ·)
  sent := s.sent ++ sent.map (n, ·)

end Swarm

/-- It is time for the source to inject a chunk. -/
def PsInstance.Injecting (ps : PsInstance B ι S) (u : PollInput C ι) : Prop :=
  ps.pollAction u = .inject ∧ ps.isSource = true

instance (ps : PsInstance B ι S) (u : PollInput C ι) : Decidable (ps.Injecting u) :=
  inferInstanceAs (Decidable (_ ∧ _))

/-- What the input gives, which is asked only if it is time for it. -/
def SwarmNode.ask (node : SwarmNode B S ι) (r : SwarmRound C ι) :
    Eval (Option (InputDesc × Option Chunk × ℤ)) :=
  if node.ps.Injecting r.u then node.input.inputChunk r.chunkised r.inputNow
  else return some (node.input, none, 0)

/-- A round of the swarm; `clk n` is the clock of the node `n`. -/
def swarmStep [ChunkBuffer B] [ChunkIDSet C] [DecidableEq ι] [PeerSet ι S] (clk : ι → Clock)
    (s : Swarm B C S ι) (r : SwarmRound C ι) : Eval (Swarm B C S ι × List (PsEffect C ι)) :=
  let node := s.nodes r.node
  if node.running then do
    match ← node.ask r with
    | none => return (s.advance r.node { node with running := false } none [], [])
    | some (input, newChunk, interval) => do
        let received := s.received r.node r.arrived
        let (ps, sent) ← node.ps.psinstancePoll (clk r.node)
          { r.u with received, newChunk, interval }
        return (s.advance r.node ⟨ps, input, true⟩ newChunk sent, sent)
  else return (s, [])

/-! ## Rounds of the swarm -/

section Rounds

variable {clk : ι → Clock} {s s' : Swarm B C S ι} {r : SwarmRound C ι} {out : List (PsEffect C ι)}

/-- The input is asked for a chunk, or not at all. -/
lemma ask_cases {node : SwarmNode B S ι} {input : InputDesc} {c : Option Chunk} {interval : ℤ}
    (h : node.ask r = .ok (some (input, c, interval))) :
    input = node.input ∧ c = none
      ∨ node.ps.isSource = true ∧ InputDesc.Given node.input r.chunkised input c interval := by
  rw [SwarmNode.ask] at h
  split_ifs at h with hinj
  · exact Or.inr ⟨hinj.2, InputDesc.given_of_inputChunk h⟩
  · cases h
    exact Or.inl ⟨rfl, rfl⟩

/-- What arrives has been sent to the node it reaches. -/
lemma mem_of_received [DecidableEq ι] {n : ι} {arrived : Option ℕ}
    (h : s.received n arrived ≠ .nothing) :
    ∃ src effect, (src, effect) ∈ s.sent
      ∧ effect.message src = some (n, s.received n arrived) := by
  cases hget : arrived.bind (s.sent[·]?) with
  | none => exact absurd (by rw [Swarm.received, hget]) h
  | some e =>
      obtain ⟨src, effect⟩ := e
      obtain ⟨k, -, hk⟩ := Option.bind_eq_some_iff.mp hget
      cases hmsg : effect.message src with
      | none => exact absurd (by simp [Swarm.received, hget, hmsg]) h
      | some m =>
          obtain ⟨dst, received⟩ := m
          by_cases hdst : dst = n
          · subst hdst
            exact ⟨src, effect, List.mem_of_getElem? hk, by simp [Swarm.received, hget, hmsg]⟩
          · exact absurd (by simp [Swarm.received, hget, hmsg, hdst]) h

/-- So it is for chunk messages. -/
lemma received_chunk [DecidableEq ι] {n source : ι} {arrived : Option ℕ} {c : Chunk}
    {transId : UInt16} (h : s.received n arrived = .chunk source (some (c, transId))) :
    (source, .trader (.chunk n c transId)) ∈ s.sent := by
  obtain ⟨src, effect, hmem, hmsg⟩ := mem_of_received (s := s) (by rw [h]; simp)
  rw [h, PsEffect.message.eq_def] at hmsg
  split at hmsg <;> cases hmsg
  exact hmem

/-- And for offers. -/
lemma received_offer [DecidableEq ι] {n source : ι} {arrived : Option ℕ} {cset : C}
    {maxDeliver : ℤ} {transId : UInt16}
    (h : s.received n arrived = .signalling source (some (.offer cset maxDeliver transId))) :
    (source, .trader (.offer n cset maxDeliver transId)) ∈ s.sent := by
  obtain ⟨src, effect, hmem, hmsg⟩ := mem_of_received (s := s) (by rw [h]; simp)
  rw [h, PsEffect.message.eq_def] at hmsg
  split at hmsg <;> cases hmsg
  exact hmem

section Advance

variable [DecidableEq ι] {n m : ι} {node : SwarmNode B S ι} {c : Option Chunk}

@[simp] lemma advance_self : (s.advance n node c out).nodes n = node := by simp [Swarm.advance]

lemma advance_of_ne (h : m ≠ n) : (s.advance n node c out).nodes m = s.nodes m := by
  simp [Swarm.advance, h]

end Advance

variable [ChunkBuffer B] [ChunkIDSet C] [DecidableEq ι] [PeerSet ι S]

/-- What a round of the swarm does to its node, which is `node` afterwards and has read `c` from its
input. -/
structure Advance (s : Swarm B C S ι) (r : SwarmRound C ι) (node : SwarmNode B S ι)
    (c : Option Chunk) (out : List (PsEffect C ι)) : Prop where
  flow : Flow (s.nodes r.node).ps node.ps c (s.received r.node r.arrived) r.u.picks out
  input : (node.input = (s.nodes r.node).input ∧ c = none)
    ∨ (s.nodes r.node).ps.isSource = true
      ∧ ∃ interval, InputDesc.Given (s.nodes r.node).input r.chunkised node.input c interval

/-- **One round** of the swarm. -/
theorem swarmStep_advance [LawfulChunkBuffer B] [StoringChunkBuffer B]
    (h : swarmStep clk s r = .ok (s', out)) :
    ∃ node c, s' = s.advance r.node node c out ∧ Advance s r node c out := by
  rw [swarmStep] at h
  dsimp only at h
  split_ifs at h with hrun
  · simp only [Eval.bind_eq_ok] at h
    obtain ⟨asked, hask, h⟩ := h
    cases asked with
    | none =>
        cases h
        exact ⟨_, none, rfl, .of_eq rfl rfl (by simp), Or.inl ⟨rfl, rfl⟩⟩
    | some asked =>
        obtain ⟨input, c, interval⟩ := asked
        simp only [Eval.bind_eq_ok, Eval.pure_eq_ok, Except.ok.injEq, Prod.mk.injEq] at h
        obtain ⟨⟨ps, sent⟩, hpoll, rfl, rfl⟩ := h
        refine ⟨_, c, rfl, psinstancePoll_flow hpoll, ?_⟩
        rcases ask_cases hask with hnone | ⟨hsource, hgiven⟩
        · exact Or.inl hnone
        · exact Or.inr ⟨hsource, interval, hgiven⟩
  · cases h
    -- an instance that has exited stays as it is
    refine ⟨s.nodes r.node, none, ?_, .of_eq rfl rfl (by simp), Or.inl ⟨rfl, rfl⟩⟩
    simp [Swarm.advance]

end Rounds

end PeerStreamer
