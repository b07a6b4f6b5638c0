import PeerStreamer.NetHelper.Sending

/-!
# What a send promises

`send_to_peer` answers with the size of the payload when the packet has been taken over, and with
something negative otherwise.  Two promises go with that: success means that the whole packet is
stored and queued (`SendHonest`), and the fragments queued make up the payload (`SendCovers`).

Both are kept under one condition, `NetworkManager.CanSend`: there is a fragment size, the payload
needs no more fragments than the 16-bit counter can number, and the next id of the endpoint is
free.  The last fails for good reason only after `2 ^ 16` packets (`Burst.not_idFree`), and then the
call returns the list it has just freed.
-/

namespace PeerStreamer

/-- How many fragments a payload of `n` bytes needs; one, if their size is not limited. -/
def fragsNeeded (fragSize n : ℕ) : ℕ := if fragSize = 0 then 1 else (n + fragSize - 1) / fragSize

/-- The condition under which a payload of `n` bytes is sent as it should be. -/
structure NetworkManager.CanSend (nm : NetworkManager) (dst : NodeID) (n : ℕ) (tSweep : ℤ) :
    Prop where
  fragSize : 0 < nm.fragSize
  fits : fragsNeeded nm.fragSize n ≤ 65535
  idFree : nm.IdFree dst tSweep

/-! ## The promises -/

/-- The whole payload is stored under the next id of the endpoint, and all its fragments are linked
into the queue, in front of what the sweep has left there. -/
def PacketQueued (nm nm' : NetworkManager) (dst : NodeID) (data : Bytes) (tSweep : ℤ) : Prop :=
  ∃ e fp, nm'.endpoint dst = some e ∧ e.outgoing.lookup (nm.endpointFor dst).outId = some fp
    ∧ fp.contents = data ∧ (∀ f ∈ fp.frags, f.linked = true)
    ∧ nm'.outqueue = fp.frags.map fragmentListElement
        ++ (nm.endpointFor dst).sweptQueue tSweep nm.outqueue

/-- Queue and stored packets are as they were, apart from expiry. -/
structure NothingSent (nm nm' : NetworkManager) (dst : NodeID) (tSweep : ℤ) : Prop where
  outqueue : nm'.outqueue = (nm.endpointFor dst).sweptQueue tSweep nm.outqueue
  stored : ∀ n pid, (nm'.endpointFor n).outgoing.lookup pid
    = if nodeidEqual dst n then ((nm.endpointFor dst).outgoing.fresh tSweep).lookup pid
      else (nm.endpointFor n).outgoing.lookup pid

/-- Success means that the packet is queued, and failure that nothing has happened. -/
structure SendHonest (nm : NetworkManager) (src dst : NodeID) (data : Bytes)
    (tSweep tCreate : ℤ) : Prop where
  enqueue : ∃ nm' res,
    networkManagerEnqueueOutgoingPacket nm src dst data tSweep tCreate = .ok (nm', res)
    ∧ (res = 0 ∧ PacketQueued nm nm' dst data tSweep ∨ res < 0 ∧ NothingSent nm nm' dst tSweep)
  send : ∃ nm' n, sendToPeer src nm dst data tSweep tCreate = .ok (nm', n)
    ∧ (n = data.length ∧ PacketQueued nm nm' dst data tSweep
      ∨ n < 0 ∧ NothingSent nm nm' dst tSweep)

/-- The fragments are numbered in order, announce their number, are neither empty nor too large,
and make up the payload. -/
structure Covers (fragSize : ℕ) (data : Bytes) (frags : List Fragment) : Prop where
  ids : frags.map (·.id) = List.range frags.length
  fragNum : ∀ f ∈ frags, f.fragNum = frags.length
  pos : ∀ f ∈ frags, 0 < f.dataSize
  size : ∀ f ∈ frags, f.dataSize ≤ if fragSize = 0 then data.length else fragSize
  data : frags.flatMap Fragment.payload = data

/-- An accepted payload is covered by the fragments put on the queue, and one that would need too
many fragments is refused. -/
def SendCovers (nm : NetworkManager) (src dst : NodeID) (data : Bytes) (tSweep tCreate : ℤ) :
    Prop :=
  ∃ nm' n, sendToPeer src nm dst data tSweep tCreate = .ok (nm', n)
    ∧ (n = data.length → ∃ frags, Covers nm.fragSize data frags
      ∧ (∀ f ∈ frags, nm'.slot f.toNode f.pid f.id = some f)
      ∧ nm'.outqueue = frags.map fragmentListElement
          ++ (nm.endpointFor dst).sweptQueue tSweep nm.outqueue)
    ∧ (65535 < fragsNeeded nm.fragSize data.length → n < 0)

/-! ## What the cut covers -/

lemma fragsNeeded_of_pos {fragSize : ℕ} (hf : 0 < fragSize) (n : ℕ) :
    fragsNeeded fragSize n = (n + fragSize - 1) / fragSize := if_neg hf.ne'

/-- The `i`-th fragment is needed when the ones before it leave something over. -/
lemma lt_fragsNeeded {fragSize : ℕ} (hf : 0 < fragSize) {n i : ℕ} :
    i < fragsNeeded fragSize n ↔ i * fragSize < n := by
  rw [fragsNeeded_of_pos hf, Nat.lt_iff_add_one_le, Nat.le_div_iff_mul_le hf, Nat.add_mul]
  omega

lemma cutCount_eq_fragsNeeded {fragSize n : ℕ} (hf : 0 < fragSize)
    (hfits : fragsNeeded fragSize n ≤ 65535) : cutCount n fragSize = fragsNeeded fragSize n := by
  rw [fragsNeeded_of_pos hf] at hfits ⊢
  exact cutCount_eq hf hfits

/-- The pieces cut are a prefix of the payload. -/
lemma flatMap_cutFragments (src dst : NodeID) (pid : ℕ) (data : Bytes) (fragSize : ℕ) :
    (cutFragments src dst pid data fragSize).flatMap Fragment.payload
      = data.take (cutCount data.length fragSize * fragSize) := by
  rw [cutFragments, List.flatMap_map, ← flatMap_cutPiece]
  rfl

/-- **The pieces make up the payload** exactly when the counter can number them. -/
theorem flatMap_cutFragments_eq_iff (src dst : NodeID) (pid : ℕ) (data : Bytes) {fragSize : ℕ}
    (hf : 0 < fragSize) :
    (cutFragments src dst pid data fragSize).flatMap Fragment.payload = data
      ↔ fragsNeeded fragSize data.length ≤ 65535 := by
  rw [flatMap_cutFragments, List.take_eq_self_iff]
  constructor
  · intro hcover
    by_contra hmany
    have hlt := cutCount_lt data.length fragSize
    have hleft := (lt_fragsNeeded hf (n := data.length)).mp
      (show cutCount data.length fragSize < fragsNeeded fragSize data.length by omega)
    omega
  · intro hfits
    rw [cutCount_eq_fragsNeeded hf hfits, fragsNeeded_of_pos hf]
    exact le_ceil_mul hf

lemma length_cutFragments (src dst : NodeID) (pid : ℕ) (data : Bytes) (fragSize : ℕ) :
    (cutFragments src dst pid data fragSize).length = cutCount data.length fragSize := by
  simp [cutFragments]

/-- **A payload that fits is covered** by its fragments. -/
theorem cutFragments_covers (src dst : NodeID) (pid : ℕ) {data : Bytes} {fragSize : ℕ}
    (hf : 0 < fragSize) (hfits : fragsNeeded fragSize data.length ≤ 65535) :
    Covers fragSize data (cutFragments src dst pid data fragSize) where
  ids := by
    rw [length_cutFragments, cutFragments, List.map_map]
    exact List.map_id _
  fragNum f hmem := by
    rw [length_cutFragments, (cutFragments_pieceOf hmem).1.fragNum]
  pos f hmem := by
    have hpiece := (cutFragments_pieceOf hmem).1
    have hid := hpiece.id
    rw [hpiece.fragNum, cutCount_eq_fragsNeeded hf hfits, lt_fragsNeeded hf] at hid
    rw [Fragment.dataSize, Fragment.payload, hpiece.data, Option.getD_some, cutPiece_eq,
      List.length_take, List.length_drop]
    omega
  size f hmem := by
    have hpiece := (cutFragments_pieceOf hmem).1
    rw [Fragment.dataSize, Fragment.payload, hpiece.data, if_neg hf.ne']
    exact length_cutPiece_le data fragSize f.id
  data := (flatMap_cutFragments_eq_iff src dst pid data hf).mpr hfits

/-! ## The call -/

section Sending

variable {nm : NetworkManager} (src : NodeID) {dst : NodeID} {data : Bytes} {tSweep : ℤ}
  (tCreate : ℤ)

/-- With a fragment size and a free id the packet is cut, stored and queued. -/
lemma sendToPeer_ok (h : nm.Wf) (hdata : 0 < data.length) (hsize : 0 < nm.fragSize)
    (hfree : nm.IdFree dst tSweep) :
    networkManagerEnqueueOutgoingPacket nm src dst data tSweep tCreate
        = .ok (nm.enqueued src dst data tSweep tCreate, 0)
      ∧ sendToPeer src nm dst data tSweep tCreate
        = .ok (nm.enqueued src dst data tSweep tCreate, data.length) := by
  have henqueue := networkManagerEnqueueOutgoingPacket_eq h src tCreate hdata hsize hfree
  refine ⟨henqueue, ?_⟩
  rw [sendToPeer, if_pos hdata, henqueue]
  rfl

/-- Without them it does something undefined. -/
lemma sendToPeer_error (h : nm.Wf) (hdata : 0 < data.length)
    (hbad : ¬ (0 < nm.fragSize ∧ nm.IdFree dst tSweep)) :
    ∃ u, networkManagerEnqueueOutgoingPacket nm src dst data tSweep tCreate = .error u
      ∧ sendToPeer src nm dst data tSweep tCreate = .error u := by
  obtain ⟨u, hu⟩ := networkManagerEnqueueOutgoingPacket_error h src tCreate hdata hbad
  refine ⟨u, hu, ?_⟩
  rw [sendToPeer, if_pos hdata, hu]
  rfl

/-- A call that answers had a fragment size and a free id, and took the packet over. -/
lemma sendToPeer_eq_ok (h : nm.Wf) (hdata : 0 < data.length) {nm' : NetworkManager} {n : ℤ}
    (hs : sendToPeer src nm dst data tSweep tCreate = .ok (nm', n)) :
    0 < nm.fragSize ∧ nm.IdFree dst tSweep ∧ nm' = nm.enqueued src dst data tSweep tCreate
      ∧ n = data.length := by
  by_cases hgood : 0 < nm.fragSize ∧ nm.IdFree dst tSweep
  · rw [(sendToPeer_ok src tCreate h hdata hgood.1 hgood.2).2] at hs
    cases hs
    exact ⟨hgood.1, hgood.2, rfl, rfl⟩
  · obtain ⟨u, -, hu⟩ := sendToPeer_error src tCreate h hdata hgood
    rw [hu] at hs
    cases hs

/-- The packet taken over is stored under the next id of the endpoint. -/
lemma NetworkManager.Wf.enqueued_lookup (h : nm.Wf) (src : NodeID) (data : Bytes) (tCreate : ℤ)
    (hfree : nm.IdFree dst tSweep) {n : NodeID} (hn : nodeidEqual dst n) :
    (nm.enqueued src dst data tSweep tCreate).endpoint n
        = some ((nm.endpointFor dst).enqueued src data tSweep tCreate)
      ∧ ((nm.endpointFor dst).enqueued src data tSweep tCreate).outgoing.lookup
          (nm.endpointFor dst).outId
        = some ⟨(nm.endpointFor dst).outId, tCreate, (nm.endpointFor dst).cut src data⟩ := by
  refine ⟨by rw [h.endpoint_enqueued, if_pos hn], ?_⟩
  rw [Endpoint.enqueued_lookup (h.endpointFor_wf dst).outgoing hfree, if_pos rfl]

/-- **The packet queued is whole** exactly when it fits. -/
lemma packetQueued_enqueued_iff (h : nm.Wf) (hsize : 0 < nm.fragSize)
    (hfree : nm.IdFree dst tSweep) :
    PacketQueued nm (nm.enqueued src dst data tSweep tCreate) dst data tSweep
      ↔ fragsNeeded nm.fragSize data.length ≤ 65535 := by
  have hfs := (h.endpointFor_wf dst).fragSize
  obtain ⟨he, hl⟩ := h.enqueued_lookup src data tCreate hfree (nodeidEqual_self dst)
  rw [← flatMap_cutFragments_eq_iff src (nm.endpointFor dst).node (nm.endpointFor dst).outId data
    hsize]
  constructor
  · rintro ⟨e, fp, he', hl', hcontents, -, -⟩
    rw [he, Option.some.injEq] at he'
    rw [← he', hl, Option.some.injEq] at hl'
    rw [← hl', FragmentedPacket.contents, Endpoint.cut, hfs] at hcontents
    exact hcontents
  · intro hwhole
    refine ⟨_, _, he, hl, ?_, ?_, rfl⟩
    · rw [FragmentedPacket.contents, Endpoint.cut, hfs]
      exact hwhole
    · intro f hf
      obtain ⟨i, -, rfl⟩ := List.mem_map.mp hf
      rfl

end Sending

/-! ## When the id comes round -/

/-- `k` packets have been sent to `dst` at the time `t`, and all of them are still stored. -/
structure Burst (nm : NetworkManager) (dst : NodeID) (t : ℤ) (k : ℕ) : Prop where
  wf : nm.Wf
  fragSize : 0 < nm.fragSize
  maxPktAge : 0 < nm.maxPktAge
  outId : (nm.endpointFor dst).outId = k % 2 ^ 16
  stored : ∀ pid, (∃ fp, (nm.endpointFor dst).outgoing.lookup pid = some fp) ↔ pid < k
  young : ∀ pid fp, (nm.endpointFor dst).outgoing.lookup pid = some fp → fp.creationTimestamp = t

section Burst

variable {nm : NetworkManager} {dst : NodeID} {t : ℤ} {k : ℕ}

/-- No sweep at that time drops any of them. -/
lemma Burst.lookup_fresh (h : Burst nm dst t k) (pid : ℕ) :
    ((nm.endpointFor dst).outgoing.fresh t).lookup pid
      = (nm.endpointFor dst).outgoing.lookup pid := by
  have hwf := h.wf.endpointFor_wf dst
  refine hwf.outgoing.lookup_fresh_of_young fun fp hl => ?_
  have hage := h.maxPktAge
  rw [h.young pid fp hl, hwf.outAge]
  omega

/-- The next id is free until it has come round. -/
lemma Burst.idFree_iff (h : Burst nm dst t k) (hk : k ≤ 2 ^ 16) :
    nm.IdFree dst t ↔ k < 2 ^ 16 := by
  rw [NetworkManager.IdFree, h.lookup_fresh, h.outId, Option.eq_none_iff_forall_ne_some,
    ← not_exists, h.stored]
  omega

lemma Burst.step (h : Burst nm dst t k) (hk : k < 2 ^ 16) (src : NodeID) {data : Bytes}
    (hdata : 0 < data.length) :
    ∃ nm', networkManagerStep nm (.enqueuePacket src dst data t t) = .ok (nm', .code 0)
      ∧ Burst nm' dst t (k + 1) := by
  have hfree := (h.idFree_iff hk.le).mpr hk
  have hwf := h.wf.endpointFor_wf dst
  have hstep := (sendToPeer_ok src t h.wf hdata h.fragSize hfree).1
  have hnode : nodeidEqual ((nm.endpointFor dst).enqueued src data t t).node dst :=
    h.wf.endpointFor_node dst
  have hend : (nm.enqueued src dst data t t).endpointFor dst
      = (nm.endpointFor dst).enqueued src data t t := by
    rw [NetworkManager.enqueued, h.wf.endpointFor_put hnode, if_pos (nodeidEqual_self dst)]
  have hlookup : ∀ pid, ((nm.endpointFor dst).enqueued src data t t).outgoing.lookup pid
      = if k = pid then some ⟨k, t, (nm.endpointFor dst).cut src data⟩
        else (nm.endpointFor dst).outgoing.lookup pid := by
    intro pid
    rw [Endpoint.enqueued_lookup hwf.outgoing hfree, h.lookup_fresh, h.outId,
      Nat.mod_eq_of_lt hk]
  refine ⟨_, by rw [networkManagerStep, hstep]; rfl, ?_, ?_, ?_, ?_, ?_, ?_⟩
  · exact h.wf.put (Endpoint.enqueued_wf hwf hfree)
  · simpa [NetworkManager.enqueued] using h.fragSize
  · simpa [NetworkManager.enqueued] using h.maxPktAge
  · rw [hend]
    simp [Endpoint.enqueued, h.outId]
  · intro pid
    rw [hend, hlookup]
    split_ifs with hp
    · simp [← hp]
    · rw [h.stored]
      omega
  · intro pid fp hl
    rw [hend, hlookup] at hl
    split_ifs at hl
    · cases hl
      rfl
    · exact h.young pid fp hl

/-- **A burst can be sent**, up to the number of ids. -/
theorem burst_of_replicate (config : NetworkConfig) (hsize : 1 ≤ config.fragSizeInt)
    (hage : 0 < (networkManagerCreate config).maxPktAge) (src dst : NodeID) {data : Bytes}
    (hdata : 0 < data.length) (t : ℤ) (hk : k ≤ 2 ^ 16) :
    ∃ nm answers, exec networkManagerStep (networkManagerCreate config)
        (List.replicate k (.enqueuePacket src dst data t t)) = .ok (nm, answers)
      ∧ Burst nm dst t k := by
  have hstart : Burst (networkManagerCreate config) dst t 0 := by
    have hserved := networkManagerCreate_served hsize
    have hend := NetworkManager.endpointFor_of_none (networkManagerCreate_endpoint config dst)
    refine ⟨hserved.inv.wf, hserved.fragSize, hage, rfl, fun pid => ?_, fun pid fp hl => ?_⟩
    · simp [hend, endpointCreate]
    · simp [hend, endpointCreate] at hl
  have hrun : ∃ nm answers, exec networkManagerStep (networkManagerCreate config)
      (List.replicate k (.enqueuePacket src dst data t t)) = .ok (nm, answers)
        ∧ Burst nm dst t (List.replicate k (NmOp.enqueuePacket src dst data t t)).length := by
    refine exec_total (J := fun ops _ nm => Burst nm dst t ops.length) hstart
      fun pre op post _ nm hops h => ?_
    have hop : op ∈ List.replicate k (NmOp.enqueuePacket src dst data t t) := by simp [hops]
    obtain rfl := List.eq_of_mem_replicate hop
    have hlen := congrArg List.length hops
    simp only [List.length_replicate, List.length_append, List.length_cons] at hlen
    obtain ⟨nm', hs, h'⟩ := h.step (by omega) src hdata
    exact ⟨nm', _, hs, by simpa using h'⟩
  rwa [List.length_replicate] at hrun

end Burst

/-! ## Both promises -/

/-- **When success means success.**  In every well-formed state of the network manager, and for
every payload that is not empty: a send answers for what it has done if and only if there is a
fragment size, the payload needs at most 65535 fragments, and the next id is free. -/
theorem send_honest_iff {nm : NetworkManager} (h : nm.Wf) (src dst : NodeID) {data : Bytes}
    (tSweep tCreate : ℤ) (hdata : 0 < data.length) :
    SendHonest nm src dst data tSweep tCreate ↔ nm.CanSend dst data.length tSweep := by
  constructor
  · rintro ⟨-, nm', n, hs, hcases⟩
    obtain ⟨hsize, hfree, rfl, rfl⟩ := sendToPeer_eq_ok src tCreate h hdata hs
    rcases hcases with ⟨-, hqueued⟩ | ⟨hneg, -⟩
    · exact ⟨hsize, (packetQueued_enqueued_iff src tCreate h hsize hfree).mp hqueued, hfree⟩
    · omega
  · rintro ⟨hsize, hfits, hfree⟩
    obtain ⟨henqueue, hsend⟩ := sendToPeer_ok src tCreate h hdata hsize hfree
    have hqueued := (packetQueued_enqueued_iff src tCreate h hsize hfree).mpr hfits
    exact ⟨⟨_, _, henqueue, Or.inl ⟨rfl, hqueued⟩⟩, ⟨_, _, hsend, Or.inl ⟨rfl, hqueued⟩⟩⟩

/-- Three bytes sent by a fresh network manager. -/
theorem send_honest_iff_fresh :
    SendHonest (networkManagerCreate ⟨none, none⟩) ⟨[65], 6000, 3⟩ ⟨[66], 6001, -1⟩ [1, 2, 3] 0 0
      ↔ (networkManagerCreate ⟨none, none⟩).CanSend ⟨[66], 6001, -1⟩ 3 0 :=
  send_honest_iff (networkManagerCreate_wf _) _ _ _ _ (by decide)

/-- The packet sent after `2 ^ 16` others within the packet lifetime is not taken over. -/
theorem not_send_honest :
    ¬ ∀ (config : NetworkConfig) (ops : List NmOp) (nm : NetworkManager) (answers : List NmAnswer)
      (src dst : NodeID) (data : Bytes) (tSweep tCreate : ℤ),
      exec networkManagerStep (networkManagerCreate config) ops = .ok (nm, answers) →
      0 < data.length → SendHonest nm src dst data tSweep tCreate := by
  intro h
  have hdata : 0 < ([1] : Bytes).length := Nat.one_pos
  obtain ⟨nm, answers, hexec, hburst⟩ := burst_of_replicate ⟨none, none⟩ (by decide) (by decide)
    ⟨[65], 6000, 3⟩ ⟨[66], 6001, -1⟩ hdata 0 le_rfl
  obtain ⟨-, nm', n, hs, -⟩ := h _ _ nm answers _ _ _ 0 0 hexec hdata
  have hfree := (sendToPeer_eq_ok ⟨[65], 6000, 3⟩ 0 hburst.wf hdata hs).2.1
  exact lt_irrefl _ ((hburst.idFree_iff le_rfl).mp hfree)

/-- **When the fragments cover the payload.**  In every well-formed state of the network manager,
whatever its fragment size, and for every payload that is not empty: the payload is covered or
refused as it should be if and only if there is a fragment size, the payload needs at most 65535
fragments, and the next id is free. -/
theorem send_covers_iff {nm : NetworkManager} (h : nm.Wf) (src dst : NodeID) {data : Bytes}
    (tSweep tCreate : ℤ) (hdata : 0 < data.length) :
    SendCovers nm src dst data tSweep tCreate ↔ nm.CanSend dst data.length tSweep := by
  constructor
  · rintro ⟨nm', n, hs, -, hrefused⟩
    obtain ⟨hsize, hfree, rfl, rfl⟩ := sendToPeer_eq_ok src tCreate h hdata hs
    refine ⟨hsize, ?_, hfree⟩
    by_contra hmany
    have := hrefused (by omega)
    omega
  · rintro ⟨hsize, hfits, hfree⟩
    have hnode := h.endpointFor_node dst
    obtain ⟨he, hl⟩ := h.enqueued_lookup src data tCreate hfree (nodeidEqual_symm hnode)
    refine ⟨_, _, (sendToPeer_ok src tCreate h hdata hsize hfree).2, fun _ => ?_,
      fun hmany => by omega⟩
    refine ⟨(nm.endpointFor dst).cut src data, ?_, fun f hf => ?_, rfl⟩
    · rw [Endpoint.cut, (h.endpointFor_wf dst).fragSize]
      exact cutFragments_covers src _ _ hsize hfits
    · obtain ⟨i, hi, rfl⟩ := List.mem_map.mp hf
      refine NetworkManager.slot_eq_some.mpr ⟨_, _, he, hl, ?_⟩
      rw [Endpoint.cut, cutFragments, List.getElem?_map]
      exact congrArg _ (List.getElem?_range (List.mem_range.mp hi))

/-- Three bytes in fragments of two. -/
theorem send_covers_iff_odd :
    SendCovers (networkManagerCreate ⟨some ⟨2, by decide, by decide⟩, none⟩) ⟨[65], 6000, 3⟩
        ⟨[66], 6001, -1⟩ [1, 2, 3] 0 0
      ↔ (networkManagerCreate ⟨some ⟨2, by decide, by decide⟩, none⟩).CanSend
          ⟨[66], 6001, -1⟩ 3 0 :=
  send_covers_iff (networkManagerCreate_wf _) _ _ _ _ (by decide)

/-- With a fragment size of zero not even one byte is sent. -/
theorem not_send_covers :
    ¬ ∀ (config : NetworkConfig) (src dst : NodeID) (data : Bytes) (tSweep tCreate : ℤ),
      0 < data.length →
      SendCovers (networkManagerCreate config) src dst data tSweep tCreate := by
  intro h
  obtain ⟨nm', n, hs, -⟩ := h ⟨some ⟨0, by decide, by decide⟩, none⟩ ⟨[65], 6000, 3⟩
    ⟨[66], 6001, -1⟩ [1] 0 0 (by decide)
  cases hs

end PeerStreamer
