import PeerStreamer.Foundation.Eval
import PeerStreamer.Streaming.ChunkBuffer
import PeerStreamer.Streaming.ChunkLock
import PeerStreamer.Streaming.Transaction

/-!
# The chunk trader

`chunk_trader.c`: a trader offers the chunks of its buffer to neighbours, accepts chunks it lacks
from offers and locks them, and sends the chunks that have been accepted from its own offers.

What the scheduler picks is an argument, and so is what `parseChunkMsg` makes of a message.  The
clock is read through `ticks`, the number of readings so far.  The buffer maps that a trader keeps
of its peers are for the scheduler alone and are left out.
-/

namespace PeerStreamer

/-- `enum distribution_type` -/
inductive DistributionType
  | uniform
  | turbo
  deriving DecidableEq, Repr

/-- `struct chunk_trader` -/
structure ChunkTrader (B ID : Type) where
  cb : B
  chLocks : ChunkLocks ID
  distType : DistributionType
  offerPerPeriod : ℤ
  transactions : List (ServiceTime ID)
  peersPerOffer : ℤ
  chunksPerPeerOffer : ℤ
  ticks : ℕ

/-- The messages a trader sends. -/
inductive TraderMessage (ID C : Type)
  | offer (dst : ID) (cset : C) (maxDeliver : ℤ) (transId : UInt16)
  | accept (dst : ID) (cset : C) (transId : UInt16)
  | chunk (dst : ID) (c : Chunk) (transId : UInt16)
  | ack (dst : ID) (cset : C) (transId : UInt16)
  deriving DecidableEq, Repr

/-- `chunk_trader_create`, with an empty buffer and the configured values: the chunks are locked for
80 milliseconds. -/
def chunkTraderCreate {B ID : Type} (cb : B) (distType : DistributionType)
    (offerPerPeriod peersPerOffer chunksPerPeerOffer : ℤ) : ChunkTrader B ID where
  cb := cb
  chLocks := chunkLocksCreate 80
  distType := distType
  offerPerPeriod := offerPerPeriod
  transactions := []
  peersPerOffer := peersPerOffer
  chunksPerPeerOffer := chunksPerPeerOffer
  ticks := 0

/-- `chunk_attributes_update_upon_reception`: the hop count is in the first two bytes. -/
def chunkAttributesUpdateUponReception (c : Chunk) : Eval Chunk :=
  match c.attributes with
  | [] => return c
  | [_] => .error .outOfBounds
  | lo :: hi :: rest =>
      let hopcount := UInt16.ofNat (lo.toNat + 256 * hi.toNat) + 1
      let bytes := [UInt8.ofNat hopcount.toNat, UInt8.ofNat (hopcount.toNat / 256)]
      return { c with attributes := bytes ++ rest }

lemma chunkAttributesUpdateUponReception_id {c c' : Chunk}
    (h : chunkAttributesUpdateUponReception c = .ok c') : c'.id = c.id := by
  rw [chunkAttributesUpdateUponReception] at h
  split at h
  · cases h
    rfl
  · cases h
  · cases h
    rfl

/-- `chunk_attributes_get_hopcount` -/
def chunkAttributesGetHopcount (c : Chunk) : Eval UInt16 :=
  match c.attributes with
  | [] => .error .nullDereference
  | [_] => .error .outOfBounds
  | lo :: hi :: _ => return UInt16.ofNat (lo.toNat + 256 * hi.toNat)

def E_CANNOT_PARSE : ℤ := -3

def E_CACHE_MISS : ℤ := -4

/-- `log_chunk_error`: with these two codes the chunk is not looked at, with any other `log_chunk`
prints its hop count. -/
def logChunkError (c : Chunk) (error : ℤ) : Eval Unit :=
  if error = E_CANNOT_PARSE ∨ error = E_CACHE_MISS then return ()
  else do
    let _ ← chunkAttributesGetHopcount c
    return ()

/-- A chunk that comes with a hop count can be logged. -/
lemma logChunkError_total {c : Chunk} {hopcount : UInt16}
    (h : chunkAttributesGetHopcount c = .ok hopcount) (error : ℤ) :
    logChunkError c error = .ok () := by
  rw [logChunkError, h]
  split_ifs
  · rfl
  · rfl

variable {B C ID : Type} [ChunkIDSet C]

namespace ChunkTrader

/-! ## Offering -/

/-- One round of `chunk_trader_send_offer`: what the scheduler picks is offered to the first of the
peers. -/
def offerPicked (clk : Clock) (ct : ChunkTrader B ID) (picked : List (ID × ℤ)) :
    ChunkTrader B ID × List (TraderMessage ID C) :=
  match picked with
  | [] => (ct, [])
  | (dst, _) :: _ =>
      let offerCset := chunkIDSetAddAll ChunkIDSet.init (picked.map Prod.snd)
      let (transactions, transId) := transactionCreate ct.transactions dst
        (clk.reading ct.ticks) (clk.reading (ct.ticks + 1))
      ({ ct with transactions, ticks := ct.ticks + 2 },
        [.offer dst offerCset ct.chunksPerPeerOffer transId])

/-- The loop of `chunk_trader_send_offer` over the rounds; `picks` are the pairs the scheduler picks
in each. -/
def offerRounds (clk : Clock) (ct : ChunkTrader B ID) :
    List (List (ID × ℤ)) → ChunkTrader B ID × List (TraderMessage ID C)
  | [] => (ct, [])
  | picked :: picks =>
      let (ct, sent) := ct.offerPicked clk picked
      let (ct, rest) := offerRounds clk ct picks
      (ct, sent ++ rest)

/-- `chunk_trader_send_offer`, with what the scheduler picks in each round. -/
def chunkTraderSendOffer (clk : Clock) (ct : ChunkTrader B ID) (picks : ℕ → List (ID × ℤ)) :
    ChunkTrader B ID × List (TraderMessage ID C) :=
  ct.offerRounds clk ((List.range ct.peersPerOffer.toNat).map picks)

/-- The fields that `chunk_trader_create` reads from the configuration. -/
def config (ct : ChunkTrader B ID) : DistributionType × ℤ × ℤ × ℤ :=
  (ct.distType, ct.offerPerPeriod, ct.peersPerOffer, ct.chunksPerPeerOffer)

lemma chunksPerPeerOffer_eq {ct ct' : ChunkTrader B ID} (h : ct'.config = ct.config) :
    ct'.chunksPerPeerOffer = ct.chunksPerPeerOffer :=
  congrArg (fun config => config.2.2.2) h

lemma offerPerPeriod_eq {ct ct' : ChunkTrader B ID} (h : ct'.config = ct.config) :
    ct'.offerPerPeriod = ct.offerPerPeriod :=
  congrArg (fun config => config.2.1) h

lemma chunkTraderSendOffer_config {ct : ChunkTrader B ID} (clk : Clock)
    (picks : ℕ → List (ID × ℤ)) :
    (ct.chunkTraderSendOffer (C := C) clk picks).1.config = ct.config := by
  rw [chunkTraderSendOffer]
  generalize (List.range ct.peersPerOffer.toNat).map picks = rounds
  induction rounds generalizing ct with
  | nil => rfl
  | cons picked rounds ih =>
      rw [offerRounds]
      cases picked with
      | nil => exact ih
      | cons pair picked => exact ih

end ChunkTrader

variable [ChunkBuffer B]

/-! ## Accepting -/

/-- The trader and the set being accepted; `taken` has the ids that were added with the time they
were locked at. -/
structure Selection (B C ID : Type) where
  ct : ChunkTrader B ID
  accSet : C
  taken : List (ℤ × ℤ)

/-- The counting sort of `chunk_trader_handle_offer`: how often an id occurs, for the `n` ids from
`min` on. -/
def countIds (min n : ℤ) (ids : List ℤ) : Eval (ℤ → ℕ) :=
  if ∀ cid ∈ ids, 0 ≤ cid - min ∧ cid - min < n then return fun cid => ids.count cid
  else .error .outOfBounds

namespace Selection

/-- The body of the selection loop: a chunk that is offered, not in the buffer and not locked is
added and locked. -/
def select (clk : Clock) (p : ID) (offered : ℤ → ℕ) (cid : ℤ) (s : Selection B C ID) :
    Selection B C ID :=
  if offered cid ≠ 0 ∧ (ChunkBuffer.getChunk s.ct.cb cid).isNone then
    let (locked, chLocks, ticks) := s.ct.chLocks.chunkIslocked clk cid s.ct.ticks
    if locked then { s with ct := { s.ct with chLocks, ticks } }
    else
      let taken := s.taken ++ [(cid, clk.reading ticks)]
      let (chLocks, ticks) := chLocks.chunkLock clk cid p ticks
      { ct := { s.ct with chLocks, ticks }, accSet := ChunkIDSet.addChunk s.accSet cid, taken }
  else s

/-- The selection loop over `n` ids, from `cid` down. -/
def selectLatest (clk : Clock) (p : ID) (offered : ℤ → ℕ) (maxDeliver : ℤ) :
    ℕ → ℤ → Selection B C ID → Selection B C ID
  | 0, _, s => s
  | n + 1, cid, s =>
      if chunkIDSetSize s.accSet < maxDeliver
      then selectLatest clk p offered maxDeliver n (cid - 1) (s.select clk p offered cid)
      else s

end Selection

namespace ChunkTrader

/-- `chunk_trader_handle_offer`; the accept that is sent has the `accSet` of the selection. -/
def chunkTraderHandleOffer (clk : Clock) (ct : ChunkTrader B ID) (p : ID) (cset : C)
    (maxDeliver : ℤ) : Eval (Selection B C ID) := do
  let min := ChunkIDSet.getEarliest cset
  let max := ChunkIDSet.getLatest cset
  let d ← cint (max - min)
  let n ← cint (d + 1)
  let offered ← countIds min n (ChunkIDSet.ids cset)
  return .selectLatest clk p offered maxDeliver n.toNat max ⟨ct, ChunkIDSet.init, []⟩

/-! ## Sending -/

/-- `peer_chunk_send` -/
def peerChunkSend (cb : B) (transId : UInt16) :
    List (ID × ℤ) → Eval (List (TraderMessage ID C))
  | [] => return []
  | (dst, cid) :: pairs =>
      match ChunkBuffer.getChunk cb cid with
      | none => .error .nullDereference
      | some c => do
          let rest ← peerChunkSend cb transId pairs
          return .chunk dst c transId :: rest

/-- The loop of `chunk_trader_handle_accept` that fills `pairs`. -/
def acceptedPairs (cb : B) (p : ID) (maxChunks : ℤ) :
    List ℤ → List (ID × ℤ) → List (ID × ℤ)
  | [], pairs => pairs
  | cid :: cids, pairs =>
      if pairs.length < maxChunks then
        acceptedPairs cb p maxChunks cids
          (if (ChunkBuffer.getChunk cb cid).isSome then pairs ++ [(p, cid)] else pairs)
      else pairs

/-- `chunk_trader_handle_accept` -/
def chunkTraderHandleAccept (clk : Clock) (ct : ChunkTrader B ID) (p : ID) (cset : C)
    (transId : UInt16) : Eval (ChunkTrader B ID × List (TraderMessage ID C)) := do
  let maxChunks := min (chunkIDSetSize cset : ℤ) ct.chunksPerPeerOffer
  let transactions := transactionRegAccept ct.transactions transId (clk.reading ct.ticks)
  let pairs := acceptedPairs ct.cb p maxChunks (ChunkIDSet.ids cset) []
  let sent ← peerChunkSend ct.cb transId pairs
  return ({ ct with transactions, ticks := ct.ticks + 1 }, sent)

/-- `chunk_trader_handle_ack` -/
def chunkTraderHandleAck (ct : ChunkTrader B ID) (transId : UInt16) : ChunkTrader B ID :=
  { ct with transactions := transactionRemove ct.transactions transId }

/-! ## Receiving -/

/-- `chunk_trader_send_ack` -/
def chunkTraderSendAck (ct : ChunkTrader B ID) (dst : ID) (transId : UInt16) :
    TraderMessage ID C :=
  .ack dst (chunkBufferToIdset ct.cb) transId

/-- `chunk_trader_parse_chunk`, with the chunk and transaction id that `parseChunkMsg` finds, if it
succeeds. -/
def chunkTraderParseChunk (ct : ChunkTrader B ID) (source : ID) (msg : Option (Chunk × UInt16)) :
    Eval (ChunkTrader B ID × Option Chunk × List (TraderMessage ID C)) :=
  match msg with
  | none => return (ct, none, [])
  | some (c, transId) => do
      let c ← chunkAttributesUpdateUponReception c
      let ct := { ct with chLocks := ct.chLocks.chunkUnlock c.id }
      return (ct, some c, [ct.chunkTraderSendAck source transId])

/-- `chunk_trader_add_chunk` -/
def chunkTraderAddChunk (ct : ChunkTrader B ID) (c : Chunk) : Eval (ChunkTrader B ID × ℤ) := do
  let (cb, res) := ChunkBuffer.addChunk ct.cb c
  if res ≠ 0 then logChunkError c res
  return ({ ct with cb }, if res < 0 then -1 else 0)

/-- What is left of the chunk, if logging it does not fail. -/
lemma chunkTraderAddChunk_eq {ct ct' : ChunkTrader B ID} {c : Chunk} {res : ℤ}
    (h : ct.chunkTraderAddChunk c = .ok (ct', res)) :
    ct' = { ct with cb := (ChunkBuffer.addChunk ct.cb c).1 }
      ∧ res = if (ChunkBuffer.addChunk ct.cb c).2 < 0 then -1 else 0 := by
  by_cases hlog : (ChunkBuffer.addChunk ct.cb c).2 ≠ 0
  · simp only [chunkTraderAddChunk, if_pos hlog, Eval.bind_eq_ok, Eval.pure_eq_ok,
      Except.ok.injEq, Prod.mk.injEq] at h
    obtain ⟨-, -, rfl, rfl⟩ := h
    exact ⟨rfl, rfl⟩
  · simp only [chunkTraderAddChunk, if_neg hlog, Eval.pure_eq_ok, Except.ok.injEq,
      Prod.mk.injEq] at h
    exact ⟨h.1.symm, h.2.symm⟩

lemma chunkTraderAddChunk_total (ct : ChunkTrader B ID) {c : Chunk} {hopcount : UInt16}
    (h : chunkAttributesGetHopcount c = .ok hopcount) :
    ct.chunkTraderAddChunk c = .ok ({ ct with cb := (ChunkBuffer.addChunk ct.cb c).1 },
      if (ChunkBuffer.addChunk ct.cb c).2 < 0 then -1 else 0) := by
  simp only [chunkTraderAddChunk, logChunkError_total h]
  split_ifs
  all_goals rfl

/-! ## What the configuration sets -/

section Config

variable {clk : Clock} {ct ct' : ChunkTrader B ID}

lemma selectLatest_config (p : ID) (offered : ℤ → ℕ) (maxDeliver : ℤ) (n : ℕ) (cid : ℤ)
    (s : Selection B C ID) :
    (s.selectLatest clk p offered maxDeliver n cid).ct.config = s.ct.config := by
  induction n generalizing cid s with
  | zero => rfl
  | succ n ih =>
      rw [Selection.selectLatest]
      split_ifs
      · rw [ih, Selection.select]
        split_ifs
        · generalize s.ct.chLocks.chunkIslocked clk cid s.ct.ticks = r
          obtain ⟨locked, chLocks, ticks⟩ := r
          cases locked <;> rfl
        · rfl
      · rfl

lemma chunkTraderHandleOffer_config {p : ID} {cset : C} {maxDeliver : ℤ} {s : Selection B C ID}
    (h : ct.chunkTraderHandleOffer clk p cset maxDeliver = .ok s) : s.ct.config = ct.config := by
  simp only [chunkTraderHandleOffer, Eval.bind_eq_ok, Eval.pure_eq_ok, Except.ok.injEq] at h
  obtain ⟨d, -, n, -, offered, -, rfl⟩ := h
  exact selectLatest_config ..

lemma chunkTraderHandleAccept_config {p : ID} {cset : C} {transId : UInt16}
    {sent : List (TraderMessage ID C)}
    (h : ct.chunkTraderHandleAccept clk p cset transId = .ok (ct', sent)) :
    ct'.config = ct.config := by
  simp only [chunkTraderHandleAccept, Eval.bind_eq_ok, Eval.pure_eq_ok, Except.ok.injEq,
    Prod.mk.injEq] at h
  obtain ⟨-, -, rfl, -⟩ := h
  rfl

lemma chunkTraderParseChunk_config {source : ID} {msg : Option (Chunk × UInt16)} {c : Option Chunk}
    {sent : List (TraderMessage ID C)}
    (h : ct.chunkTraderParseChunk source msg = .ok (ct', c, sent)) : ct'.config = ct.config := by
  cases msg with
  | none =>
      cases h
      rfl
  | some msg =>
      simp only [chunkTraderParseChunk, Eval.bind_eq_ok, Eval.pure_eq_ok, Except.ok.injEq,
        Prod.mk.injEq] at h
      obtain ⟨-, -, rfl, -⟩ := h
      rfl

end Config

end ChunkTrader

end PeerStreamer
