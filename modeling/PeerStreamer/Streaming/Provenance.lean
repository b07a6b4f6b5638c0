import PeerStreamer.Foundation.Relay
import PeerStreamer.Streaming.Swarm

/-!
# Where chunks come from

No instance of the swarm makes up a chunk or changes one: whatever an instance holds or has sent has
come to it from the input of a source, and its hop count is the number of hops it has made
(`chunk_provenance`).
-/

namespace PeerStreamer

variable {B C S ι : Type}

/-- What `chunk_attributes_update_upon_reception` makes of a chunk. -/
def Arrives (c d : Chunk) : Prop := chunkAttributesUpdateUponReception c = .ok d

namespace Swarm

/-- The node `n` has read the chunk from its input. -/
def Origin (s : Swarm B C S ι) (n : ι) (c : Chunk) : Prop := (n, c) ∈ s.injected

/-- The node `m` has sent the chunk to `n`. -/
def Carried (s : Swarm B C S ι) (m n : ι) (c : Chunk) : Prop :=
  ∃ transId, (m, .trader (.chunk n c transId)) ∈ s.sent

/-- The node `n` has the chunk in its buffer. -/
def Holds [ChunkBuffer B] (s : Swarm B C S ι) (n : ι) (c : Chunk) : Prop :=
  c ∈ ChunkBuffer.getChunks (s.nodes n).ps.trader.cb

/-- The chunk `c₀`, read from some input, has come to the node `n` in `k` hops as `c`. -/
def Reached (s : Swarm B C S ι) (c₀ : Chunk) (n : ι) (k : ℕ) (c : Chunk) : Prop :=
  Travelled s.Origin s.Carried Arrives c₀ n k c

end Swarm

/-! ## The hop count -/

/-- The attributes of a chunk after `k` hops. -/
def hopBytes (k : ℕ) : Bytes := [UInt8.ofNat k, UInt8.ofNat (k / 256)]

/-- The hop count goes up by one, modulo `2 ^ 16`. -/
lemma arrives_hopBytes (c : Chunk) (k : ℕ) :
    Arrives { c with attributes := hopBytes k } { c with attributes := hopBytes (k + 1) } := by
  have hcount : UInt16.ofNat ((UInt8.ofNat k).toNat + 256 * (UInt8.ofNat (k / 256)).toNat) + 1
      = UInt16.ofNat (k + 1) := by
    rw [← UInt16.toNat_inj]
    simp only [UInt16.toNat_add, UInt16.toNat_ofNat', UInt8.toNat_ofNat', UInt16.toNat_one]
    omega
  have hlo : UInt8.ofNat (UInt16.ofNat (k + 1)).toNat = UInt8.ofNat (k + 1) := by
    rw [← UInt8.toNat_inj]
    simp only [UInt16.toNat_ofNat', UInt8.toNat_ofNat']
    omega
  have hhi : UInt8.ofNat ((UInt16.ofNat (k + 1)).toNat / 256) = UInt8.ofNat ((k + 1) / 256) := by
    rw [← UInt8.toNat_inj]
    simp only [UInt16.toNat_ofNat', UInt8.toNat_ofNat']
    omega
  simp only [Arrives, chunkAttributesUpdateUponReception, hopBytes, hcount, hlo, hhi,
    Eval.pure_eq_ok, List.append_nil]

/-- It can be read. -/
lemma chunkAttributesGetHopcount_hopBytes {c : Chunk} {k : ℕ} (h : c.attributes = hopBytes k) :
    chunkAttributesGetHopcount c = .ok (UInt16.ofNat k) := by
  have hcount : UInt16.ofNat ((UInt8.ofNat k).toNat + 256 * (UInt8.ofNat (k / 256)).toNat)
      = UInt16.ofNat k := by
    rw [← UInt16.toNat_inj]
    simp only [UInt16.toNat_ofNat', UInt8.toNat_ofNat']
    omega
  simp only [chunkAttributesGetHopcount, h, hopBytes, hcount, Eval.pure_eq_ok]

/-! ## Provenance -/

section Provenance

variable [ChunkBuffer B] {cfg : ι → InstanceConfig B ι} {clk : ι → Clock} {s s' : Swarm B C S ι}
  {r : SwarmRound C ι} {out : List (PsEffect C ι)}

/-- Nothing in the swarm is made up, and only sources read from their inputs. -/
structure Genuine (cfg : ι → InstanceConfig B ι) (s : Swarm B C S ι) : Prop where
  relayed : Relayed s.Origin s.Carried Arrives s.Holds
  roles : ∀ n, (s.nodes n).ps.isSource = (cfg n).server.isNone
  origins : ∀ n c, s.Origin n c → (cfg n).server = none ∧ c.attributes = hopBytes 0

/-- What has come in `k` hops is what was read from the input, but for its hop count. -/
lemma Genuine.eq_of_reached (hg : Genuine cfg s) {c₀ c : Chunk} {n : ι} {k : ℕ}
    (h : s.Reached c₀ n k c) : c = { c₀ with attributes := hopBytes k } := by
  obtain ⟨m, hm⟩ := h.exists_origin
  refine h.keeps (P := fun k c => c = { c₀ with attributes := hopBytes k }) ?_ ?_
  · rw [← (hg.origins m c₀ hm).2]
  · rintro k x y rfl harrives
    exact Except.ok.inj (harrives.symm.trans (arrives_hopBytes c₀ k))

variable [DecidableEq ι] [PeerSet ι S]

lemma swarmCreate_genuine (hempty : ∀ n, ChunkBuffer.getChunks (cfg n).cb = []) :
    Genuine cfg (swarmCreate cfg : Swarm B C S ι) := by
  have hcreate : ∀ n, ((swarmCreate cfg : Swarm B C S ι).nodes n).ps.isSource
      = (cfg n).server.isNone ∧ ((swarmCreate cfg : Swarm B C S ι).nodes n).ps.trader.cb
        = (cfg n).cb := by
    intro n
    simp only [swarmCreate, InstanceConfig.create]
    cases (cfg n).server with
    | none => exact ⟨rfl, rfl⟩
    | some srv => exact ⟨rfl, rfl⟩
  refine ⟨⟨fun n c hc => ?_, fun m n c hc => ?_⟩, fun n => (hcreate n).1, fun n c hc => ?_⟩
  · rw [Swarm.Holds, (hcreate n).2, hempty n] at hc
    exact absurd hc List.not_mem_nil
  · obtain ⟨transId, hc⟩ := hc
    exact absurd hc List.not_mem_nil
  · exact absurd hc List.not_mem_nil

variable [ChunkIDSet C] [LawfulChunkBuffer B] [StoringChunkBuffer B]

/-- **One round** of the swarm. -/
lemma Genuine.step (hg : Genuine cfg s) (h : swarmStep clk s r = .ok (s', out)) :
    Genuine cfg s' := by
  obtain ⟨node, c, rfl, hadv⟩ := swarmStep_advance h
  refine ⟨hg.relayed.step (fun n d hd => List.mem_append_left _ hd) ?_ ?_ ?_, fun n => ?_, ?_⟩
  · rintro m n d ⟨transId, hd⟩
    exact ⟨transId, List.mem_append_left _ hd⟩
  · intro n d hd
    by_cases hn : n = r.node
    · subst hn
      rw [Swarm.Holds, advance_self] at hd
      rcases hadv.flow.buffer d hd with hd | rfl | ⟨source, e, transId, he, hd⟩
      · exact Or.inl hd
      · exact Or.inr (Or.inl (List.mem_append_right _ (List.mem_singleton_self _)))
      · exact Or.inr (Or.inr ⟨source, e, ⟨transId, received_chunk he⟩, hd⟩)
    · rw [Swarm.Holds, advance_of_ne hn] at hd
      exact Or.inl hd
  · rintro m n d ⟨transId, hd⟩
    rcases List.mem_append.mp hd with hd | hd
    · exact Or.inl ⟨transId, hd⟩
    · obtain ⟨e, he, hpair⟩ := List.mem_map.mp hd
      cases hpair
      refine Or.inr ?_
      rw [Swarm.Holds, advance_self]
      exact hadv.flow.sends _ he
  · by_cases hn : n = r.node
    · rw [hn, advance_self, hadv.flow.source, hg.roles]
    · rw [advance_of_ne hn, hg.roles]
  · intro n d hd
    rcases List.mem_append.mp hd with hd | hd
    · exact hg.origins n d hd
    · obtain ⟨e, he, hpair⟩ := List.mem_map.mp hd
      cases hpair
      rcases hadv.input with ⟨-, rfl⟩ | ⟨hsource, interval, hgiven⟩
      · exact absurd he List.not_mem_nil
      · rw [hg.roles] at hsource
        exact ⟨Option.isNone_iff_eq_none.mp hsource,
          (hgiven.chunk d (Option.mem_toList.mp he)).2.2⟩

/-- **Where chunks come from.**  After any rounds of any instances, in any order and with any
losses, every chunk that an instance holds or has sent has come to it, message by message, from the
input of a source; it is what was read there, but for its hop count, which is the number of the
messages. -/
theorem chunk_provenance (hempty : ∀ n, ChunkBuffer.getChunks (cfg n).cb = [])
    {rounds : List (SwarmRound C ι)} {outs : List (List (PsEffect C ι))}
    (h : exec (swarmStep clk) (swarmCreate cfg : Swarm B C S ι) rounds = .ok (s, outs)) :
    (∀ n c, s.Holds n c → ∃ c₀ k, s.Reached c₀ n k c ∧ c = { c₀ with attributes := hopBytes k })
      ∧ (∀ m n c, s.Carried m n c →
        ∃ c₀ k, s.Reached c₀ m k c ∧ c = { c₀ with attributes := hopBytes k })
      ∧ ∀ n c, s.Origin n c → (cfg n).server = none := by
  have hg : Genuine cfg s := exec_keeps h (swarmCreate_genuine hempty)
    fun _ _ _ _ _ hg hstep => hg.step hstep
  refine ⟨fun n c hc => ?_, fun m n c hc => ?_, fun n c hc => (hg.origins n c hc).1⟩
  · obtain ⟨c₀, k, hreached⟩ := hg.relayed.held n c hc
    exact ⟨c₀, k, hreached, hg.eq_of_reached hreached⟩
  · obtain ⟨c₀, k, hreached⟩ := hg.relayed.sent m n c hc
    exact ⟨c₀, k, hreached, hg.eq_of_reached hreached⟩

end Provenance

/-- A source, the node 0, and peers that know of it. -/
def sourceAndPeers (n : ℕ) : InstanceConfig ChunkList ℕ where
  server := if n = 0 then none else some 0
  outbuffSize := 10
  outbuffReorder := 1
  memory := fun _ => ⟨0, 0, 0, 0, [], []⟩
  neighbourhoodSize := 30
  peerTimeout := 10
  cb := ⟨50, []⟩
  distType := .uniform
  offerPerPeriod := 1
  peersPerOffer := 1
  chunksPerPeerOffer := 1
  interframe := 40000
  now := ⟨0, 0⟩

/-- A round at the time `usec`, with what `wait4data` answers and what has arrived; the chunk of the
source, if it reads one, is one byte and pushed to the node 1. -/
def smallRound (node : ℕ) (usec dataState : ℤ) (arrived : Option ℕ) : SwarmRound IDList ℕ where
  node := node
  u :=
    { delta := 50000
      tnow := ⟨0, usec⟩
      dataState := dataState
      currentEpoch := ⟨0, usec⟩
      received := .nothing
      now := usec
      picks := fun _ => []
      newChunk := none
      interval := 0
      pushed := [(1, 0)]
      update := ⟨50, [], 0, 0, fun _ => .last _, fun _ => .last _⟩ }
  inputNow := ⟨0, usec⟩
  chunkised := ⟨1, 1, 1, some [7]⟩
  arrived := arrived

/-- A chunk is read, pushed to the node 1 and arrives there. -/
theorem chunk_provenance_pushed :
    ∃ (s : Swarm ChunkList IDList (PeerList ℕ) ℕ) (outs : List (List (PsEffect IDList ℕ))),
      exec (swarmStep fun _ => .ticking 100) (swarmCreate sourceAndPeers)
        [smallRound 0 100 0 none, smallRound 1 200 1 (some 0)] = .ok (s, outs)
      ∧ (∀ n c, s.Holds n c →
        ∃ c₀ k, s.Reached c₀ n k c ∧ c = { c₀ with attributes := hopBytes k })
      ∧ (∀ m n c, s.Carried m n c →
        ∃ c₀ k, s.Reached c₀ m k c ∧ c = { c₀ with attributes := hopBytes k })
      ∧ ∀ n c, s.Origin n c → (sourceAndPeers n).server = none := by
  obtain ⟨⟨s, outs⟩, h⟩ := Eval.exists_ok (x := exec (swarmStep fun _ => .ticking 100)
    (swarmCreate sourceAndPeers : Swarm ChunkList IDList (PeerList ℕ) ℕ)
    [smallRound 0 100 0 none, smallRound 1 200 1 (some 0)]) (by decide +kernel)
  exact ⟨s, outs, h, chunk_provenance (fun _ => rfl) h⟩

end PeerStreamer
