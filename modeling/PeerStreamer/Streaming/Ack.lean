import PeerStreamer.Foundation.Run
import PeerStreamer.Streaming.PsInstance

/-!
# Acknowledgements

A chunk message is acknowledged by `chunk_trader_parse_chunk`, with the ids of the buffer at that
time; its chunk is put into the buffer by `psinstance_handle_msg`, after that.
-/

namespace PeerStreamer

variable {B C ID S : Type} [ChunkBuffer B] [ChunkIDSet C] [DecidableEq ID] [PeerSet ID S]

/-- What the acknowledgement of a chunk is to have: the id of the chunk, and the ids of the buffer
afterwards. -/
def Advertises (acked : C) (c : Chunk) (cb : B) : Prop :=
  c.id ∈ ChunkIDSet.ids acked ∧ ∀ i, i ∈ ChunkIDSet.ids acked ↔ i ∈ bufferIds cb

section Handle

variable {clk : Clock} {ps ps' : PsInstance B ID S} {chunkOut : ChunkOutput} {source : ID}
  {c c' : Chunk} {transId : UInt16} {now : ℤ} {sent : List (PsEffect C ID)}

/-- **A chunk that is accepted** is acknowledged with the buffer before, and is in the buffer
after. -/
lemma handleMsg_chunk (hpeer : ps.chunkOut = some chunkOut)
    (hrecv : chunkAttributesUpdateUponReception c = .ok c')
    (haccept : 0 ≤ (ChunkBuffer.addChunk ps.trader.cb c').2)
    (h : ps.psinstanceHandleMsg clk (.chunk source (some (c, transId))) now = .ok (ps', sent)) :
    ps'.trader.cb = (ChunkBuffer.addChunk ps.trader.cb c').1
      ∧ ∃ written, sent
        = .trader (.ack source (chunkBufferToIdset ps.trader.cb) transId) :: written := by
  simp only [PsInstance.psinstanceHandleMsg, PsInstance.handleChunk, hpeer,
    ChunkTrader.chunkTraderParseChunk, hrecv, Eval.ok_bind, Eval.pure_eq_ok,
    Eval.bind_eq_ok] at h
  obtain ⟨⟨trader, res⟩, hadd, h⟩ := h
  obtain ⟨rfl, rfl⟩ := ChunkTrader.chunkTraderAddChunk_eq hadd
  simp only [if_neg haccept.not_gt, if_true, Eval.bind_eq_ok, Except.ok.injEq,
    Prod.mk.injEq] at h
  obtain ⟨measure, -, ⟨out, res, written⟩, -, rfl, rfl⟩ := h
  exact ⟨rfl, written.map .written, rfl⟩

variable [LawfulChunkBuffer B] [LawfulChunkIDSet C]

/-- **When an acknowledgement advertises its chunk**: if and only if a chunk with its id was in the
buffer before the message came. -/
theorem ack_advertises_iff (hpeer : ps.chunkOut = some chunkOut)
    (hrecv : chunkAttributesUpdateUponReception c = .ok c')
    (haccept : 0 ≤ (ChunkBuffer.addChunk ps.trader.cb c').2)
    (h : ps.psinstanceHandleMsg clk (.chunk source (some (c, transId))) now = .ok (ps', sent)) :
    ∃ (acked : C) (written : List (PsEffect C ID)),
      sent = .trader (.ack source acked transId) :: written
      ∧ (Advertises acked c ps'.trader.cb ↔ c.id ∈ bufferIds ps.trader.cb) := by
  obtain ⟨hcb, written, hsent⟩ := handleMsg_chunk hpeer hrecv haccept h
  have hid := chunkAttributesUpdateUponReception_id hrecv
  refine ⟨_, written, hsent, ?_⟩
  simp only [Advertises, mem_chunkBufferToIdset, hcb]
  refine ⟨fun hadv => hadv.1, fun hmem => ⟨hmem, fun i => ⟨fun hi => ?_, fun hi => ?_⟩⟩⟩
  · exact LawfulChunkBuffer.accepted_again _ c' i haccept (hid ▸ hmem) hi
  · rcases LawfulChunkBuffer.accepted_subset _ c' i haccept hi with rfl | hi
    · exact hid ▸ hmem
    · exact hi

end Handle

/-- A peer that does not reorder its output, with the chunk 4 in its buffer. -/
def fourHolder : PsInstance ChunkList ℕ (PeerList ℕ) :=
  .psinstanceCreate (some (outputCreate 10 0 fun _ => ⟨0, 0, 0, 0, [], []⟩))
    (.topologyInit 30 10 50)
    (chunkTraderCreate ⟨10, [⟨4, 1, 0, 0, [7], []⟩]⟩ .uniform 1 1 1) true ⟨0, 0⟩

/-- The chunk 5 comes. -/
theorem ack_advertises_iff_fourHolder :
    ∃ (ps' : PsInstance ChunkList ℕ (PeerList ℕ)) (sent : List (PsEffect IDList ℕ)),
      fourHolder.psinstanceHandleMsg (.ticking 100)
        (.chunk 1 (some (⟨5, 1, 0, 0, [8], []⟩, 3))) 0 = .ok (ps', sent)
      ∧ ∃ (acked : IDList) (written : List (PsEffect IDList ℕ)),
        sent = .trader (.ack 1 acked 3) :: written
        ∧ (Advertises acked ⟨5, 1, 0, 0, [8], []⟩ ps'.trader.cb
          ↔ 5 ∈ bufferIds fourHolder.trader.cb) := by
  obtain ⟨ps', sent, h⟩ : ∃ (ps' : PsInstance ChunkList ℕ (PeerList ℕ))
      (sent : List (PsEffect IDList ℕ)), fourHolder.psinstanceHandleMsg (.ticking 100)
        (.chunk 1 (some (⟨5, 1, 0, 0, [8], []⟩, 3))) 0 = .ok (ps', sent) := ⟨_, _, rfl⟩
  exact ⟨ps', sent, h, ack_advertises_iff rfl rfl (by decide) h⟩

/-- Its acknowledgement has only the id 4. -/
theorem not_ack_advertises :
    ¬∀ (ps ps' : PsInstance ChunkList ℕ (PeerList ℕ)) (chunkOut : ChunkOutput) (source : ℕ)
      (c c' : Chunk) (transId : UInt16) (acked : IDList) (sent : List (PsEffect IDList ℕ)),
      ps.chunkOut = some chunkOut → chunkAttributesUpdateUponReception c = .ok c' →
      0 ≤ (ChunkBuffer.addChunk ps.trader.cb c').2 →
      ps.psinstanceHandleMsg (.ticking 100) (.chunk source (some (c, transId))) 0
        = .ok (ps', sent) →
      sent.head? = some (.trader (.ack source acked transId)) →
      Advertises acked c ps'.trader.cb := by
  intro hall
  have hadv := hall fourHolder _ _ 1 ⟨5, 1, 0, 0, [8], []⟩ _ 3 ⟨[4], by decide⟩ _ rfl rfl
    (by decide) rfl rfl
  exact absurd hadv.1 (by decide)

end PeerStreamer
