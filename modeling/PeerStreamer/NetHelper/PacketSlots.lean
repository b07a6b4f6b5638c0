import PeerStreamer.NetHelper.FragmentedPacket

/-!
# The slots of a packet

What filling the slots of an empty packet asks for, and what copying them out writes.

Each fragment that is written makes requests for the slots that are still empty below the highest
one that is filled, and for no others (`write_exact`).

The copy compares with `<`, so it is as it should be unless the contents would fill the buffer to
the last byte (`dump_exact_iff`).
-/

namespace PeerStreamer

/-! ## Filling -/

/-- A call of `fragmented_packet_write_fragment`: the fragment, the list the requests are appended
to and the list the slots may be linked into. -/
structure WriteCall where
  f : Fragment
  requests : MsgList
  q : MsgList

/-- The packet after some calls. -/
def writeAll (fp : FragmentedPacket) (calls : List WriteCall) : FragmentedPacket :=
  calls.foldl (fun fp c => (fragmentedPacketWriteFragment fp c.f c.requests c.q).1) fp

/-- The fragment `i` of a packet of `n` has been received. -/
def Received (n : ℕ) (calls : List WriteCall) (i : ℕ) : Prop :=
  i < n ∧ ∃ c ∈ calls, c.f.id = i

section Filling

variable {fp : FragmentedPacket} {n i : ℕ} {calls : List WriteCall} {c : WriteCall}

lemma received_concat :
    Received n (calls ++ [c]) i ↔ Received n calls i ∨ i < n ∧ i = c.f.id := by
  simp only [Received, List.mem_append, List.mem_singleton]
  constructor
  · rintro ⟨hi, c', hc | rfl, hid⟩
    · exact Or.inl ⟨hi, c', hc, hid⟩
    · exact Or.inr ⟨hi, hid.symm⟩
  · rintro (⟨hi, c', hc, hid⟩ | ⟨hi, hid⟩)
    · exact ⟨hi, c', Or.inl hc, hid⟩
    · exact ⟨hi, c, Or.inr rfl, hid.symm⟩

/-- What is known of a packet after some calls: which of its slots hold data. -/
structure Filled (pid n : ℕ) (calls : List WriteCall) (fp : FragmentedPacket) : Prop where
  packetId : fp.packetId = pid
  fragNum : fp.fragNum = n
  slotData : ∀ i, fp.slotData i ≠ none ↔ Received n calls i

lemma filled_empty (pid : ℕ) (fromNode toNode : NodeID) (n : ℕ) (now : ℤ) :
    Filled pid n [] (fragmentedPacketEmpty pid fromNode toNode n now) where
  packetId := rfl
  fragNum := by simp [fragmentedPacketEmpty, FragmentedPacket.fragNum]
  slotData i := by
    rw [FragmentedPacket.slotData, fragmentedPacketEmpty, List.getElem?_map]
    cases h : (List.range n)[i]? <;> simp [Received, fragmentInit]

/-- One more call. -/
lemma Filled.write {pid : ℕ} (h : Filled pid n calls fp) (hdata : c.f.data ≠ none) :
    Filled pid n (calls ++ [c]) (fragmentedPacketWriteFragment fp c.f c.requests c.q).1 := by
  rcases lt_or_ge c.f.id fp.fragNum with hid | hid
  · rw [fragmentedPacketWriteFragment_of_lt hid]
    refine ⟨h.packetId, (fp.put_fragNum c.f).trans h.fragNum, fun i => ?_⟩
    rw [fp.put_slotData c.f i hid, received_concat, ← h.slotData]
    rw [h.fragNum] at hid
    by_cases hi : i = c.f.id
    · simp [hi, hdata, hid]
    · simp [hi]
  · rw [fragmentedPacketWriteFragment_of_ge hid]
    refine ⟨h.packetId, h.fragNum, fun i => ?_⟩
    rw [received_concat, ← h.slotData]
    rw [h.fragNum] at hid
    exact ⟨Or.inl, fun hi => hi.resolve_right fun ⟨hlt, he⟩ => by omega⟩

lemma filled_writeAll {pid : ℕ} (h : Filled pid n [] fp) (hdata : ∀ c ∈ calls, c.f.data ≠ none) :
    Filled pid n calls (writeAll fp calls) := by
  induction calls using List.reverseRecOn with
  | nil => exact h
  | append_singleton calls c ih =>
      rw [writeAll, List.foldl_concat]
      exact (ih fun c' hc' => hdata c' (by simp [hc'])).write (hdata c (by simp))

lemma Filled.complete_iff {pid : ℕ} (h : Filled pid n calls fp) :
    fp.Complete ↔ ∀ i < n, Received n calls i := by
  rw [FragmentedPacket.complete_iff, h.fragNum]
  exact forall₂_congr fun i _ => h.slotData i

/-- The scan asks for what is missing below the highest fragment received. -/
lemma Filled.mem_requestIds {pid : ℕ} (h : Filled pid n calls fp)
    (hsome : ∃ m, Received n calls m) :
    i ∈ fp.requestIds ↔ ¬Received n calls i ∧ ∃ m, Received n calls m ∧ i < m := by
  have hmissing : fp.slotData i = none ↔ ¬Received n calls i := by
    rw [← h.slotData, not_not]
  simp only [FragmentedPacket.requestIds, List.mem_reverse, List.mem_filter, List.mem_range,
    decide_eq_true_eq]
  simp only [FragmentedPacket.Requested, h.fragNum, h.slotData, hmissing]
  constructor
  · rintro ⟨hi, hnot, rfl | ⟨m, -, him, hm⟩⟩
    · -- slot 0 is the one the code treats apart, and any fragment received is above it
      obtain ⟨m, hm⟩ := hsome
      have hne : m ≠ 0 := by
        rintro rfl
        exact hnot hm
      exact ⟨hnot, m, hm, by omega⟩
    · exact ⟨hnot, m, hm, him⟩
  · rintro ⟨hnot, m, hm, him⟩
    have hlt := hm.1
    exact ⟨by omega, hnot, Or.inr ⟨m, hlt, him, hm⟩⟩

end Filling

/-- The call answers as it should, when `got` are the fragments received with it: a fragment that is
out of range leaves everything as it is; otherwise the packet is ready when all fragments have been
received, and one request is made for each that is missing below the highest one. -/
structure WriteExact (fp : FragmentedPacket) (c : WriteCall) (pid n : ℕ) (got : ℕ → Prop) :
    Prop where
  ready : c.f.id < n → (fragmentedPacketWriteFragment fp c.f c.requests c.q).2.1
    = if ∀ i < n, (fragmentedPacketWriteFragment fp c.f c.requests c.q).1.slotData i ≠ none
      then .ready else .loading
  slots : ∀ i, (fragmentedPacketWriteFragment fp c.f c.requests c.q).1.slotData i ≠ none ↔ got i
  requests : c.f.id < n → ∃ ids : List ℕ,
    (fragmentedPacketWriteFragment fp c.f c.requests c.q).2.2.1 = c.requests ++ ids.map
      (fun i => .request (fragRequestCreate c.f.fromNode c.f.toNode pid i true))
    ∧ ids.Nodup ∧ ∀ i, i ∈ ids ↔ ¬got i ∧ ∃ m, got m ∧ i < m
  refused : n ≤ c.f.id →
    fragmentedPacketWriteFragment fp c.f c.requests c.q = (fp, .error, c.requests, c.q)

/-- **Requests are exact.**  Every call that writes a fragment to a packet that was empty and has
been given any fragments with data, of whatever ids and in whatever order. -/
theorem write_exact (pid : ℕ) (fromNode toNode : NodeID) (n : ℕ) (now : ℤ) (calls : List WriteCall)
    (c : WriteCall) (hdata : ∀ c' ∈ calls ++ [c], c'.f.payload ≠ []) :
    WriteExact (writeAll (fragmentedPacketEmpty pid fromNode toNode n now) calls) c pid n
      (Received n (calls ++ [c])) := by
  have hsome : ∀ c' ∈ calls ++ [c], c'.f.data ≠ none := fun c' hc' hnone =>
    hdata c' hc' (by rw [Fragment.payload, hnone]; rfl)
  have hbefore : Filled pid n calls
      (writeAll (fragmentedPacketEmpty pid fromNode toNode n now) calls) :=
    filled_writeAll (filled_empty pid fromNode toNode n now)
      fun c' hc' => hsome c' (List.mem_append_left [c] hc')
  have hafter := hbefore.write (hsome c (by simp))
  generalize writeAll (fragmentedPacketEmpty pid fromNode toNode n now) calls = fp at *
  refine ⟨fun hid => ?_, hafter.slotData, fun hid => ?_, fun hid => ?_⟩
  · have hid' : c.f.id < fp.fragNum := by rwa [hbefore.fragNum]
    have hcomplete : (fp.put c.f).Complete ↔ ∀ i < n, (fp.put c.f).slotData i ≠ none := by
      rw [FragmentedPacket.complete_iff, FragmentedPacket.put_fragNum, hbefore.fragNum]
    rw [fragmentedPacketWriteFragment_of_lt hid']
    exact if_congr hcomplete rfl rfl
  · have hid' : c.f.id < fp.fragNum := by rwa [hbefore.fragNum]
    rw [fragmentedPacketWriteFragment_of_lt hid'] at hafter ⊢
    refine ⟨(fp.put c.f).requestIds, by rw [hbefore.packetId], ?_, fun i => ?_⟩
    · exact List.nodup_reverse.mpr (List.nodup_range.filter _)
    · exact hafter.mem_requestIds ⟨c.f.id, received_concat.mpr (Or.inr ⟨hid, rfl⟩)⟩
  · rw [fragmentedPacketWriteFragment_of_ge (by rwa [hbefore.fragNum])]

/-- A fragment of one byte. -/
def byteFragment (id : ℕ) (data : UInt8) : Fragment :=
  fragmentInit ⟨[66], 6001, -1⟩ ⟨[65], 6000, 3⟩ 7 3 id (some [data]) false

/-- The last fragment of three has arrived twice, and now the one in the middle arrives. -/
theorem write_exact_backwards :
    WriteExact (writeAll (fragmentedPacketEmpty 7 ⟨[66], 6001, -1⟩ ⟨[65], 6000, 3⟩ 3 0)
        [⟨byteFragment 2 1, [], []⟩, ⟨byteFragment 2 5, [], []⟩])
      ⟨byteFragment 1 9, [], []⟩ 7 3
      (Received 3 ([⟨byteFragment 2 1, [], []⟩, ⟨byteFragment 2 5, [], []⟩]
        ++ [⟨byteFragment 1 9, [], []⟩])) :=
  write_exact 7 _ _ 3 0 _ _ (by
    intro c hc
    simp only [List.cons_append, List.nil_append, List.mem_cons, List.not_mem_nil, or_false] at hc
    rcases hc with rfl | rfl | rfl <;> simp [byteFragment, fragmentInit, Fragment.payload])

/-! ## Copying out -/

/-- The copy is exact: it succeeds when the contents fit and copies them, fails when they do not,
and never writes behind the buffer. -/
structure DumpExact (fp : FragmentedPacket) (size : ℕ) : Prop where
  zero_iff : (fragmentedPacketDumpData fp size).1 = 0 ↔ fp.contents.length ≤ size
  copied : (fragmentedPacketDumpData fp size).1 = 0 →
    (fragmentedPacketDumpData fp size).2 = fp.contents
  refused : (fragmentedPacketDumpData fp size).1 ≠ 0 → (fragmentedPacketDumpData fp size).1 = 1
  bounded : (fragmentedPacketDumpData fp size).2.length ≤ size

section Copying

variable {size : ℕ}

/-- The answer of the copy: the last slot has to end before the buffer does. -/
lemma fragmentedPacketDumpLoop_fst (fs : List Fragment) (datasize : ℕ) :
    (fragmentedPacketDumpLoop size fs datasize).1
      = if fs = [] ∨ datasize + (fs.flatMap Fragment.payload).length < size then 0 else 1 := by
  induction fs generalizing datasize with
  | nil => simp [fragmentedPacketDumpLoop]
  | cons f fs ih =>
      have hsize : f.dataSize = f.payload.length := rfl
      simp only [fragmentedPacketDumpLoop, List.flatMap_cons, List.length_append, reduceCtorEq,
        false_or]
      split_ifs with hf htotal htotal
      · rw [ih, if_pos (Or.inr (by omega))]
      · rw [ih, if_neg]
        rintro (rfl | hlt)
        · simp only [List.flatMap_nil, List.length_nil] at htotal
          omega
        · omega
      · omega
      · rfl

/-- The copy stays in the buffer. -/
lemma fragmentedPacketDumpLoop_bounded (fs : List Fragment) {datasize : ℕ} (h : datasize ≤ size) :
    datasize + (fragmentedPacketDumpLoop size fs datasize).2.length ≤ size := by
  induction fs generalizing datasize with
  | nil => simpa [fragmentedPacketDumpLoop] using h
  | cons f fs ih =>
      rw [fragmentedPacketDumpLoop]
      split_ifs with hf
      · have hstart : datasize + f.dataSize ≤ size := by omega
        have hrest := ih hstart
        have hsize : f.dataSize = f.payload.length := rfl
        rw [List.length_append]
        omega
      · simpa using h

/-- What is copied when the copy succeeds. -/
lemma fragmentedPacketDumpLoop_snd {fs : List Fragment} {datasize : ℕ}
    (h : (fragmentedPacketDumpLoop size fs datasize).1 = 0) :
    (fragmentedPacketDumpLoop size fs datasize).2 = fs.flatMap Fragment.payload := by
  rw [fragmentedPacketDumpLoop_fst, ite_eq_left_iff] at h
  have hfits := not_not.mp fun hn => one_ne_zero (h hn)
  rcases hfits with rfl | hfits
  · rfl
  · rw [fragmentedPacketDumpLoop_fits hfits]

end Copying

/-- **When the copy is exact**: always, except for a packet with slots whose contents would fill the
buffer to the last byte. -/
theorem dump_exact_iff (fp : FragmentedPacket) (size : ℕ) :
    DumpExact fp size ↔ fp.frags = [] ∨ fp.contents.length ≠ size := by
  have hfst : (fragmentedPacketDumpData fp size).1
      = if fp.frags = [] ∨ fp.contents.length < size then 0 else 1 := by
    rw [fragmentedPacketDumpData, fragmentedPacketDumpLoop_fst, Nat.zero_add]
    rfl
  have hnil : fp.frags = [] → fp.contents.length = 0 := fun h => by
    rw [FragmentedPacket.contents, h]
    rfl
  constructor
  · intro h
    have hzero := h.zero_iff
    rw [hfst] at hzero
    by_contra hcon
    obtain ⟨hne, hsize⟩ := not_or.mp hcon
    rw [not_not] at hsize
    simp [hne, hsize] at hzero
  · intro h
    refine ⟨?_, fragmentedPacketDumpLoop_snd, fun hne => ?_, ?_⟩
    · rw [hfst]
      split_ifs with hfits
      · have hle : fp.contents.length ≤ size := by
          rcases hfits with hempty | hlt
          · rw [hnil hempty]
            exact Nat.zero_le size
          · exact hlt.le
        simp [hle]
      · obtain ⟨hne, hge⟩ := not_or.mp hfits
        have hsize := h.resolve_left hne
        simp only [one_ne_zero, false_iff]
        omega
    · rw [hfst] at hne ⊢
      split_ifs at hne ⊢ with hfits
      · exact absurd rfl hne
      · rfl
    · have hbound := fragmentedPacketDumpLoop_bounded fp.frags (Nat.zero_le size)
      rwa [Nat.zero_add] at hbound

/-- A packet of one byte does not fit into a buffer of one byte. -/
theorem not_dump_exact : ¬∀ (fp : FragmentedPacket) (size : ℕ), DumpExact fp size := by
  intro h
  have hzero := (h ⟨7, 0, [byteFragment 0 42]⟩ 1).zero_iff
  exact absurd (hzero.mpr (by decide)) (by decide)

end PeerStreamer
