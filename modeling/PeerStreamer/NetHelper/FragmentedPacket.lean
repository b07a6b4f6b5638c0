import PeerStreamer.NetHelper.NetMsg

/-!
# Fragmented packets

`fragmented_packet.c`: cutting a payload into fragments, the array of slots a receiver fills, the
scan that tells whether all are filled and which to ask for again, and the copy into the caller's
buffer.

The loops are kept as the source has them — the scan runs from the last slot down and carries
`last`, the copy stops at the first slot that does not fit — and each gets one lemma in closed form
(`fragmentedPacketState_eq`, `fragmentedPacketDumpData_fits`), which is what the later files use.
-/

namespace PeerStreamer

/-- `packet_state_t` -/
inductive PacketState
  | ready
  | loading
  | error
  deriving DecidableEq, Repr

/-- `struct fragmented_packet`; `frag_num` is the length of `frags`. -/
structure FragmentedPacket where
  packetId : ℕ
  creationTimestamp : ℤ
  frags : List Fragment
  deriving DecidableEq, Repr

/-- `frag_num` -/
def FragmentedPacket.fragNum (fp : FragmentedPacket) : ℕ := fp.frags.length

/-! ## Cutting a payload -/

/-- The number of fragments `fragmented_packet_create` makes, in the 16-bit counter it uses. -/
def cutCount (dataSize fragSize : ℕ) : ℕ :=
  let fragNum := dataSize / fragSize % 2 ^ 16
  if dataSize % fragSize ≠ 0 then (fragNum + 1) % 2 ^ 16 else fragNum

/-- The `i`-th piece: when the loop reaches it, `i * frag_size` bytes have been taken off
`data_size`. -/
def cutPiece (data : Bytes) (fragSize i : ℕ) : Bytes :=
  (data.drop (i * fragSize)).take (min fragSize (data.length - i * fragSize))

/-- The loop of `fragmented_packet_create`: one fragment for each piece, linked as it is made. -/
def cutFragments (fromNode toNode : NodeID) (id : ℕ) (data : Bytes) (fragSize : ℕ) :
    List Fragment :=
  let fragNum := cutCount data.length fragSize
  (List.range fragNum).map fun i =>
    fragmentInit fromNode toNode id fragNum i (some (cutPiece data fragSize i)) true

/-- `fragmented_packet_create`: `none` is the NULL pointer.  All fragments are linked, in order,
at the end of the list `msgs`. -/
def fragmentedPacketCreate (id : ℕ) (fromNode toNode : NodeID) (data : Bytes) (fragSize : ℕ)
    (now : ℤ) (msgs : MsgList) : Option FragmentedPacket × MsgList :=
  if data.length > 0 ∧ fragSize > 0 then
    let frags := cutFragments fromNode toNode id data fragSize
    (some ⟨id, now, frags⟩, msgs ++ frags.map fragmentListElement)
  else (none, msgs)

/-- `fragmented_packet_empty`: every slot waits for its data. -/
def fragmentedPacketEmpty (pid : ℕ) (fromNode toNode : NodeID) (numFrags : ℕ) (now : ℤ) :
    FragmentedPacket :=
  ⟨pid, now, (List.range numFrags).map fun i =>
    fragmentInit fromNode toNode pid numFrags i none false⟩

/-- `fragmented_packet_destroy`, on the list the fragments may be linked into. -/
def fragmentedPacketDestroy (fp : FragmentedPacket) (q : MsgList) : MsgList :=
  fp.frags.foldl (fun q f => fragmentDeinit f q) q

/-! ## Scanning and filling the slots -/

/-- `frags[i].data`, NULL also where there is no slot. -/
def FragmentedPacket.slotData (fp : FragmentedPacket) (i : ℕ) : Option Bytes :=
  fp.frags[i]?.bind Fragment.data

/-- The loop of `fragmented_packet_state`, with `n` slots still to look at: the next one is
`n - 1`, which the source writes `j - i`. -/
def fragmentedPacketStateLoop (fp : FragmentedPacket) (fromNode toNode : NodeID) :
    (n : ℕ) → (res : PacketState) → (last : ℕ) → (requests : MsgList) → PacketState × MsgList
  | 0, res, _, requests => (res, requests)
  | n + 1, res, last, requests =>
      if fp.slotData n = none then
        let res := if res = .ready then .loading else res
        let requests := if last ≠ 0 ∨ n = 0 then
            requests ++ [.request (fragRequestCreate fromNode toNode fp.packetId n true)]
          else requests
        fragmentedPacketStateLoop fp fromNode toNode n res last requests
      else
        let last := if last = 0 then n else last
        fragmentedPacketStateLoop fp fromNode toNode n res last requests

/-- `fragmented_packet_state` -/
def fragmentedPacketState (fp : FragmentedPacket) (fromNode toNode : NodeID)
    (requests : MsgList) : PacketState × MsgList :=
  fragmentedPacketStateLoop fp fromNode toNode fp.fragNum .ready 0 requests

/-- The packet with the fragment `f` copied into its slot. -/
def FragmentedPacket.put (fp : FragmentedPacket) (f : Fragment) : FragmentedPacket :=
  let nf := fragmentInit f.fromNode f.toNode f.pid f.fragNum f.id f.data false
  { fp with frags := fp.frags.set f.id nf }

/-- `fragmented_packet_write_fragment`: the packet, its state, the requests and the list the
overwritten fragment may have been linked into. -/
def fragmentedPacketWriteFragment (fp : FragmentedPacket) (f : Fragment) (requests q : MsgList) :
    FragmentedPacket × PacketState × MsgList × MsgList :=
  match fp.frags[f.id]? with
  | none => (fp, .error, requests, q)
  | some nf =>
      let (res, requests) := fragmentedPacketState (fp.put f) f.fromNode f.toNode requests
      (fp.put f, res, requests, fragmentDeinit nf q)

/-! ## Copying out -/

/-- The loop of `fragmented_packet_dump_data`: the return code, and the bytes written from offset
`datasize` on. -/
def fragmentedPacketDumpLoop (size : ℕ) : List Fragment → (datasize : ℕ) → ℤ × Bytes
  | [], _ => (0, [])
  | f :: fs, datasize =>
      if f.dataSize + datasize < size then
        let (res, bytes) := fragmentedPacketDumpLoop size fs (datasize + f.dataSize)
        (res, f.payload ++ bytes)
      else (1, [])

/-- `fragmented_packet_dump_data` with `size` bytes of buffer: the return code and the bytes
written, whose number is the new value of `*size`. -/
def fragmentedPacketDumpData (fp : FragmentedPacket) (size : ℕ) : ℤ × Bytes :=
  fragmentedPacketDumpLoop size fp.frags 0

/-- `fragmented_packet_fragment` -/
def fragmentedPacketFragment (fp : FragmentedPacket) (fid : ℕ) : Option Fragment := fp.frags[fid]?

/-! ## The pieces make up the payload -/

lemma cutPiece_eq (data : Bytes) (fragSize i : ℕ) :
    cutPiece data fragSize i = (data.drop (i * fragSize)).take fragSize := by
  rw [cutPiece, ← List.length_drop, List.take_eq_take_iff]
  omega

/-- The first `k` pieces are the first `k * frag_size` bytes. -/
lemma flatMap_cutPiece (data : Bytes) (fragSize k : ℕ) :
    (List.range k).flatMap (cutPiece data fragSize) = data.take (k * fragSize) := by
  induction k with
  | zero => simp
  | succ k ih =>
      rw [List.range_succ, List.flatMap_append, ih, List.flatMap_singleton, cutPiece_eq,
        Nat.succ_mul, List.take_add]

/-- Up to the limit of the 16-bit counter, the number of fragments is the rounded-up quotient. -/
lemma cutCount_eq {n f : ℕ} (hf : 0 < f) (hk : (n + f - 1) / f ≤ 65535) :
    cutCount n f = (n + f - 1) / f := by
  have hn : f * (n / f) + n % f = n := Nat.div_add_mod n f
  have hr : n % f < f := Nat.mod_lt n hf
  have hceil : (n + f - 1) / f = if n % f ≠ 0 then n / f + 1 else n / f := by
    split_ifs with h
    · rw [Nat.div_eq_iff hf, Nat.add_mul, Nat.mul_comm (n / f)]
      omega
    · rw [Nat.div_eq_iff hf, Nat.mul_comm (n / f)]
      omega
  rw [hceil] at hk ⊢
  rw [cutCount]
  generalize n / f = q at hk ⊢
  by_cases h : n % f ≠ 0
  · rw [if_pos h] at hk
    simp only [if_pos h]
    omega
  · rw [if_neg h] at hk
    simp only [if_neg h]
    omega

lemma le_ceil_mul {n f : ℕ} (hf : 0 < f) : n ≤ (n + f - 1) / f * f := by
  have h := Nat.div_add_mod (n + f - 1) f
  have hr : (n + f - 1) % f < f := Nat.mod_lt _ hf
  rw [Nat.mul_comm] at h
  omega

/-- **Cutting loses nothing**: the pieces in order are the payload. -/
theorem flatMap_cutPiece_all {data : Bytes} {f : ℕ} (hf : 0 < f)
    (hk : (data.length + f - 1) / f ≤ 65535) :
    (List.range (cutCount data.length f)).flatMap (cutPiece data f) = data := by
  rw [flatMap_cutPiece, cutCount_eq hf hk]
  exact List.take_of_length_le (le_ceil_mul hf)

lemma length_cutPiece_le (data : Bytes) (f i : ℕ) : (cutPiece data f i).length ≤ f := by
  rw [cutPiece_eq]
  exact List.length_take_le _ _

/-! ## The scan in closed form -/

/-- Every slot holds data. -/
def FragmentedPacket.Complete (fp : FragmentedPacket) : Prop := ∀ f ∈ fp.frags, f.data ≠ none

instance (fp : FragmentedPacket) : Decidable fp.Complete :=
  inferInstanceAs (Decidable (∀ f ∈ fp.frags, f.data ≠ none))

/-- The scan asks for slot `n`: it is empty, and it is the first or some later one is not. -/
def FragmentedPacket.Requested (fp : FragmentedPacket) (n : ℕ) : Prop :=
  fp.slotData n = none ∧ (n = 0 ∨ ∃ m < fp.fragNum, n < m ∧ fp.slotData m ≠ none)

instance (fp : FragmentedPacket) (n : ℕ) : Decidable (fp.Requested n) :=
  inferInstanceAs (Decidable (_ ∧ _))

/-- The slots the scan asks for, in the order it does. -/
def FragmentedPacket.requestIds (fp : FragmentedPacket) : List ℕ :=
  ((List.range fp.fragNum).filter (fp.Requested ·)).reverse

lemma FragmentedPacket.slotData_of_lt {fp : FragmentedPacket} {i : ℕ} (hi : i < fp.fragNum) :
    fp.slotData i = fp.frags[i].data := by
  rw [slotData, List.getElem?_eq_getElem hi]
  rfl

lemma FragmentedPacket.slotData_lt {fp : FragmentedPacket} {i : ℕ} (h : fp.slotData i ≠ none) :
    i < fp.fragNum := by
  by_contra hi
  rw [slotData, List.getElem?_eq_none (by simpa [fragNum] using hi)] at h
  exact h rfl

lemma FragmentedPacket.complete_iff {fp : FragmentedPacket} :
    fp.Complete ↔ ∀ i < fp.fragNum, fp.slotData i ≠ none := by
  constructor
  · intro h i hi
    rw [slotData_of_lt hi]
    exact h _ (List.getElem_mem hi)
  · intro h f hf
    obtain ⟨i, hi, rfl⟩ := List.getElem_of_mem hf
    rw [← slotData_of_lt hi]
    exact h i hi

/-- The loop, with the invariant on `last`: it is non-zero once a slot other than the first has
been seen to hold data. -/
lemma fragmentedPacketStateLoop_eq (fp : FragmentedPacket) (fromNode toNode : NodeID) (n : ℕ)
    (res : PacketState) (last : ℕ) (requests : MsgList)
    (hlast : last ≠ 0 ↔ ∃ m < fp.fragNum, n ≤ m ∧ m ≠ 0 ∧ fp.slotData m ≠ none) :
    fragmentedPacketStateLoop fp fromNode toNode n res last requests
      = (if (∀ i < n, fp.slotData i ≠ none) ∨ res ≠ .ready then res else .loading,
         requests ++ ((List.range n).filter (fp.Requested ·)).reverse.map
           fun i => .request (fragRequestCreate fromNode toNode fp.packetId i true)) := by
  induction n generalizing res last requests with
  | zero => simp [fragmentedPacketStateLoop]
  | succ n ih =>
      rw [fragmentedPacketStateLoop, List.range_succ, List.filter_append, List.reverse_append]
      by_cases hn : fp.slotData n = none
      · have hlast' : last ≠ 0 ↔ ∃ m < fp.fragNum, n ≤ m ∧ m ≠ 0 ∧ fp.slotData m ≠ none := by
          rw [hlast]
          refine ⟨fun ⟨m, hm, hnm, h⟩ => ⟨m, hm, by omega, h⟩, fun ⟨m, hm, hnm, h0, h⟩ => ?_⟩
          rcases Nat.lt_or_eq_of_le hnm with hlt | rfl
          · exact ⟨m, hm, hlt, h0, h⟩
          · exact absurd hn h
        -- the request test of the loop is the one of the specification
        have hreq : fp.Requested n ↔ last ≠ 0 ∨ n = 0 := by
          rw [hlast, FragmentedPacket.Requested, or_comm]
          refine ⟨fun h => h.2.imp_left fun ⟨m, hm, hnm, h⟩ => ⟨m, hm, hnm, by omega, h⟩,
            fun h => ⟨hn, h.imp_left fun ⟨m, hm, hnm, _, h⟩ => ⟨m, hm, hnm, h⟩⟩⟩
        have hall : ¬ ∀ i < n + 1, fp.slotData i ≠ none := fun h => h n (by omega) hn
        simp only [hn, if_true]
        rw [ih _ _ _ hlast']
        refine Prod.ext ?_ ?_
        · cases res <;> simp only [hall, reduceCtorEq, if_true, if_false, ne_eq, not_true_eq_false,
            not_false_eq_true, or_true, or_false]
        · by_cases hr : last ≠ 0 ∨ n = 0
          · simp [hr, hreq.mpr hr]
          · simp [hr, mt hreq.mp hr]
      · have hlast' : (if last = 0 then n else last) ≠ 0
            ↔ ∃ m < fp.fragNum, n ≤ m ∧ m ≠ 0 ∧ fp.slotData m ≠ none := by
          by_cases h0 : last = 0
          · have hnone := mt hlast.mpr (not_not.mpr h0)
            rw [if_pos h0]
            refine ⟨fun h => ⟨n, FragmentedPacket.slotData_lt hn, le_rfl, h, hn⟩, ?_⟩
            rintro ⟨m, hm, hnm, hm0, h⟩ rfl
            exact hnone ⟨m, hm, by omega, hm0, h⟩
          · rw [if_neg h0]
            obtain ⟨m, hm, hnm, h⟩ := hlast.mp h0
            exact ⟨fun _ => ⟨m, hm, by omega, h⟩, fun _ => h0⟩
        have hreq : ¬ fp.Requested n := fun h => hn h.1
        have hall : (∀ i < n + 1, fp.slotData i ≠ none) ↔ ∀ i < n, fp.slotData i ≠ none := by
          refine ⟨fun h i hi => h i (by omega), fun h i hi => ?_⟩
          rcases Nat.lt_or_eq_of_le (Nat.le_of_lt_succ hi) with hlt | rfl
          · exact h i hlt
          · exact hn
        simp only [hn, if_false]
        rw [ih _ _ _ hlast']
        simp only [hall, hreq, List.filter_cons, List.filter_nil, decide_false, Bool.false_eq_true,
          if_false, List.reverse_nil, List.nil_append]

/-- **The scan.**  A packet is ready when every slot holds data, and the requests are the empty
slots below a filled one, from the highest down. -/
theorem fragmentedPacketState_eq (fp : FragmentedPacket) (fromNode toNode : NodeID)
    (requests : MsgList) :
    fragmentedPacketState fp fromNode toNode requests
      = (if fp.Complete then .ready else .loading,
         requests ++ fp.requestIds.map
           fun i => .request (fragRequestCreate fromNode toNode fp.packetId i true)) := by
  rw [fragmentedPacketState, fragmentedPacketStateLoop_eq]
  · simp only [← FragmentedPacket.complete_iff, ne_eq, not_true_eq_false, or_false,
      FragmentedPacket.requestIds]
  · refine ⟨fun h => absurd rfl h, ?_⟩
    rintro ⟨m, hm, hle, -⟩
    omega

/-! ## Filling a slot -/

@[simp] lemma FragmentedPacket.put_packetId (fp : FragmentedPacket) (f : Fragment) :
    (fp.put f).packetId = fp.packetId := rfl

@[simp] lemma FragmentedPacket.put_creationTimestamp (fp : FragmentedPacket) (f : Fragment) :
    (fp.put f).creationTimestamp = fp.creationTimestamp := rfl

@[simp] lemma FragmentedPacket.put_fragNum (fp : FragmentedPacket) (f : Fragment) :
    (fp.put f).fragNum = fp.fragNum := by
  simp [put, fragNum]

lemma FragmentedPacket.put_slotData (fp : FragmentedPacket) (f : Fragment) (i : ℕ)
    (hf : f.id < fp.fragNum) :
    (fp.put f).slotData i = if i = f.id then f.data else fp.slotData i := by
  simp only [slotData, put, List.getElem?_set]
  by_cases h : i = f.id
  · rw [if_pos h.symm, if_pos h, if_pos (by simpa [fragNum, h] using hf)]
    rfl
  · rw [if_neg (Ne.symm h), if_neg h]

/-- What a write does to a packet whose slots are linked nowhere. -/
lemma fragmentedPacketWriteFragment_of_lt {fp : FragmentedPacket} {f : Fragment}
    (hf : f.id < fp.fragNum) (requests q : MsgList) :
    fragmentedPacketWriteFragment fp f requests q
      = (fp.put f, if (fp.put f).Complete then .ready else .loading,
         requests ++ (fp.put f).requestIds.map
           (fun i => .request (fragRequestCreate f.fromNode f.toNode fp.packetId i true)),
         fragmentDeinit fp.frags[f.id] q) := by
  have hget : fp.frags[f.id]? = some fp.frags[f.id] := List.getElem?_eq_getElem hf
  rw [fragmentedPacketWriteFragment, hget]
  simp only [fragmentedPacketState_eq, FragmentedPacket.put_packetId]

lemma fragmentedPacketWriteFragment_of_ge {fp : FragmentedPacket} {f : Fragment}
    (hf : fp.fragNum ≤ f.id) (requests q : MsgList) :
    fragmentedPacketWriteFragment fp f requests q = (fp, .error, requests, q) := by
  rw [fragmentedPacketWriteFragment, List.getElem?_eq_none hf]

/-! ## The copy in closed form -/

/-- All the bytes of the slots, in order. -/
def FragmentedPacket.contents (fp : FragmentedPacket) : Bytes := fp.frags.flatMap Fragment.payload

/-- The copy is complete when the whole content is smaller than the buffer. -/
lemma fragmentedPacketDumpLoop_fits {size : ℕ} {fs : List Fragment} {datasize : ℕ}
    (h : datasize + (fs.flatMap Fragment.payload).length < size) :
    fragmentedPacketDumpLoop size fs datasize = (0, fs.flatMap Fragment.payload) := by
  induction fs generalizing datasize with
  | nil => rfl
  | cons f fs ih =>
      rw [List.flatMap_cons, List.length_append] at h
      have hsize : f.dataSize = f.payload.length := rfl
      rw [fragmentedPacketDumpLoop, if_pos (by omega), ih (by omega), List.flatMap_cons]

theorem fragmentedPacketDumpData_fits {fp : FragmentedPacket} {size : ℕ}
    (h : fp.contents.length < size) :
    fragmentedPacketDumpData fp size = (0, fp.contents) :=
  fragmentedPacketDumpLoop_fits (by simpa [FragmentedPacket.contents] using h)

/-- Nothing is copied into `size` bytes: the first slot that holds anything is too large already. -/
def FragmentedPacket.Blocked (fp : FragmentedPacket) (size : ℕ) : Prop :=
  ∃ pre f post, fp.frags = pre ++ f :: post ∧ (∀ g ∈ pre, g.payload = []) ∧ size ≤ f.dataSize

/-- When the content is too large, the copy stops in front of the first slot that does not fit. -/
lemma fragmentedPacketDumpLoop_stops {size : ℕ} (fs : List Fragment) (datasize : ℕ)
    (hstart : datasize < size) (h : size ≤ datasize + (fs.flatMap Fragment.payload).length) :
    ∃ pre f post, fs = pre ++ f :: post
      ∧ fragmentedPacketDumpLoop size fs datasize = (1, pre.flatMap Fragment.payload)
      ∧ datasize + (pre.flatMap Fragment.payload).length < size
      ∧ size ≤ datasize + (pre.flatMap Fragment.payload).length + f.dataSize := by
  induction fs generalizing datasize with
  | nil =>
      simp only [List.flatMap_nil, List.length_nil] at h
      omega
  | cons f fs ih =>
      have hsize : f.dataSize = f.payload.length := rfl
      rw [List.flatMap_cons, List.length_append] at h
      rw [fragmentedPacketDumpLoop]
      by_cases hf : f.dataSize + datasize < size
      · obtain ⟨pre, g, post, rfl, hdump, hlt, hle⟩ :=
          ih (datasize + f.dataSize) (by omega) (by omega)
        refine ⟨f :: pre, g, post, rfl, ?_, ?_, ?_⟩
        · rw [if_pos hf, hdump, List.flatMap_cons]
        · rw [List.flatMap_cons, List.length_append]
          omega
        · rw [List.flatMap_cons, List.length_append]
          omega
      · exact ⟨[], f, fs, rfl, by rw [if_neg hf]; rfl, by simpa using hstart, by simp; omega⟩

/-- **A copy that does not fit** answers 1 and leaves less than the content, and it leaves nothing
exactly when the packet is blocked. -/
theorem fragmentedPacketDumpData_large {fp : FragmentedPacket} {size : ℕ} (hsize : 0 < size)
    (h : size ≤ fp.contents.length) :
    ∃ bytes, fragmentedPacketDumpData fp size = (1, bytes) ∧ bytes.length < fp.contents.length
      ∧ (bytes = [] ↔ fp.Blocked size) := by
  obtain ⟨pre, f, post, hsplit, hdump, hlt, hle⟩ :=
    fragmentedPacketDumpLoop_stops fp.frags 0 hsize
      (by rw [Nat.zero_add]; exact h)
  refine ⟨pre.flatMap Fragment.payload, hdump, by omega, fun hnil => ?_, ?_⟩
  · refine ⟨pre, f, post, hsplit, fun g hg => List.flatMap_eq_nil_iff.mp hnil g hg, ?_⟩
    rw [hnil, List.length_nil] at hle
    omega
  · rintro ⟨pre', f', post', hsplit', hempty, hbig⟩
    -- the slot that blocks the copy is not among those copied
    have hlen : pre.length ≤ pre'.length := by
      by_contra hgt
      have hmem : f' ∈ pre := by
        have hget : pre[pre'.length]? = some f' := by
          have happ : (pre ++ f :: post)[pre'.length]? = pre[pre'.length]? :=
            List.getElem?_append_left (by omega)
          rw [← happ, ← hsplit, hsplit', List.getElem?_append_right le_rfl, Nat.sub_self]
          rfl
        exact List.mem_of_getElem? hget
      have hsub : f'.payload.length ≤ (pre.flatMap Fragment.payload).length := by
        obtain ⟨l₁, l₂, rfl⟩ := List.append_of_mem hmem
        simp only [List.flatMap_append, List.flatMap_cons, List.length_append]
        omega
      have hdata : f'.dataSize = f'.payload.length := rfl
      omega
    refine List.flatMap_eq_nil_iff.mpr fun g hg => hempty g ?_
    have hpre : pre <+: pre' := by
      refine List.prefix_of_prefix_length_le ⟨f :: post, rfl⟩ ?_ hlen
      exact ⟨f' :: post', by rw [← hsplit, hsplit']⟩
    exact hpre.subset hg

end PeerStreamer
