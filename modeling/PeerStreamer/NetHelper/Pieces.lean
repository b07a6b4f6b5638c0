import PeerStreamer.NetHelper.Outgoing
import PeerStreamer.NetHelper.Receive

/-!
# The pieces of a payload

What travels in a fragment, followed from the packet it was cut from to the slot it is written
into.  `PieceOf data fragSize f` says that `f` carries one piece of `data`; it holds of every
fragment a manager sends, for the packet with the fragment's id (`exec_sentPieces`), it survives
the wire format (`IntCoding.Inverse.decode_encode_append`), and a packet all of whose slots were
filled with pieces of `data` holds `data` (`FragmentedPacket.Gathers.contents`).
-/

namespace PeerStreamer

/-! ## Pieces -/

/-- `f` carries one of the pieces of `data`. -/
structure PieceOf (data : Bytes) (fragSize : ℕ) (f : Fragment) : Prop where
  fragNum : f.fragNum = cutCount data.length fragSize
  id : f.id < f.fragNum
  data : f.data = some (cutPiece data fragSize f.id)

lemma cutFragments_pieceOf {fromNode toNode : NodeID} {pid fragSize : ℕ} {data : Bytes}
    {f : Fragment} (hf : f ∈ cutFragments fromNode toNode pid data fragSize) :
    PieceOf data fragSize f ∧ f.toNode = toNode ∧ f.pid = pid := by
  obtain ⟨i, hi, rfl⟩ := List.mem_map.mp hf
  exact ⟨⟨rfl, List.mem_range.mp hi, rfl⟩, rfl, rfl⟩

lemma cutCount_lt (n f : ℕ) : cutCount n f < 2 ^ 16 := by
  simp only [cutCount]
  split_ifs
  · exact Nat.mod_lt _ (by decide)
  · exact Nat.mod_lt _ (by decide)

/-! ## Through the wire format -/

section Wire

variable {ic : IntCoding} {bound : ℕ} {f : Fragment} {fr : FragRequest}

/-- **Decoding what was encoded.**  A fragment whose fields fit theirs is encoded into any buffer
that is large enough, and the datagram is decoded into the same fragment, now from the node it was
received from, whatever follows it. -/
theorem IntCoding.Inverse.decode_encode_append (hic : ic.Inverse bound) (hbound : bound ≤ 2 ^ 32)
    (buffLen : ℕ) (hpid : f.pid < 2 ^ 16) (hnum : f.fragNum < 2 ^ 16) (hid : f.id < 2 ^ 16)
    (hlen : f.payload.length < bound) (hbuff : FRAGMENT_HEADER_LEN + f.payload.length ≤ buffLen)
    (extra : Bytes) (dst src : NodeID) :
    ∃ buff, fragmentEncode ic f buffLen = some buff
      ∧ netMsgDecode ic dst src (buff ++ extra) = .ok (some (.fragment
          { f with fromNode := src, toNode := dst, linked := false, data := some f.payload })) := by
  have hsize : f.dataSize = f.payload.length := rfl
  have hheader : FRAGMENT_HEADER_LEN = 11 := rfl
  have hwrap : sizeT (FRAGMENT_HEADER_LEN + f.payload.length)
      = FRAGMENT_HEADER_LEN + f.payload.length := Nat.mod_eq_of_lt (by omega)
  have hp := hic.int16_length f.pid
  have hn := hic.int16_length f.fragNum
  have hi := hic.int16_length f.id
  have hl := hic.int_length f.payload.length
  refine ⟨_, by rw [fragmentEncode, hsize, hwrap, if_pos hbuff], ?_⟩
  rw [Nat.mod_eq_of_lt (by omega : f.payload.length < 2 ^ 32)]
  generalize hbuf : NET_FRAGMENT :: (ic.int16Cpy f.pid ++ (ic.int16Cpy f.fragNum
    ++ (ic.int16Cpy f.id ++ (ic.intCpy f.payload.length ++ f.payload)))) ++ extra = buff
  -- the fields of the datagram, one after the other
  have h₁ : buff.drop 1 = ic.int16Cpy f.pid ++ (ic.int16Cpy f.fragNum
      ++ (ic.int16Cpy f.id ++ (ic.intCpy f.payload.length ++ (f.payload ++ extra)))) := by
    rw [← hbuf]
    simp only [List.cons_append, List.drop_succ_cons, List.drop_zero, List.append_assoc]
  have h₃ : buff.drop 3 = ic.int16Cpy f.fragNum
      ++ (ic.int16Cpy f.id ++ (ic.intCpy f.payload.length ++ (f.payload ++ extra))) := by
    rw [show 3 = 1 + 2 from rfl, ← List.drop_drop, h₁, List.drop_left' hp]
  have h₅ : buff.drop 5
      = ic.int16Cpy f.id ++ (ic.intCpy f.payload.length ++ (f.payload ++ extra)) := by
    rw [show 5 = 3 + 2 from rfl, ← List.drop_drop, h₃, List.drop_left' hn]
  have h₇ : buff.drop 7 = ic.intCpy f.payload.length ++ (f.payload ++ extra) := by
    rw [show 7 = 5 + 2 from rfl, ← List.drop_drop, h₅, List.drop_left' hi]
  have h₁₁ : buff.drop FRAGMENT_HEADER_LEN = f.payload ++ extra := by
    rw [show FRAGMENT_HEADER_LEN = 7 + 4 from rfl, ← List.drop_drop, h₇, List.drop_left' hl]
  have hdecl : declaredLen ic buff = f.payload.length := by
    rw [declaredLen, h₇, List.take_left' hl, hic.int_inv _ hlen]
  have htotal : FRAGMENT_HEADER_LEN + f.payload.length ≤ buff.length := by
    have hdrop := congrArg List.length h₁₁
    rw [List.length_drop, List.length_append] at hdrop
    rw [← hbuf] at hdrop ⊢
    simp only [List.length_cons, List.length_append, hp, hn, hi, hl] at hdrop ⊢
    omega
  have hhead : buff.head? = some NET_FRAGMENT := by rw [← hbuf]; rfl
  have hdec : Decodable ic buff := Or.inl ⟨hhead, by rw [hdecl]; exact htotal, by omega⟩
  rw [netMsgDecode_of_decodable hdec, decodedMessage, if_pos hhead, decodedFragment, hdecl, h₁, h₃,
    h₅, h₁₁, List.take_left' hp, List.take_left' hn, List.take_left' hi, List.take_left,
    hic.int16_inv _ hpid, hic.int16_inv _ hnum, hic.int16_inv _ hid]
  rfl

/-- A whole datagram. -/
theorem IntCoding.Inverse.decode_encode (hic : ic.Inverse (2 ^ 31)) {data : Bytes} (buffLen : ℕ)
    (hpid : f.pid < 2 ^ 16) (hnum : f.fragNum < 2 ^ 16) (hid : f.id < 2 ^ 16)
    (hdata : f.data = some data) (hlen : data.length < 2 ^ 31)
    (hbuff : FRAGMENT_HEADER_LEN + data.length ≤ buffLen) (dst src : NodeID) :
    ∃ buff, fragmentEncode ic f buffLen = some buff
      ∧ netMsgDecode ic dst src buff = .ok (some (.fragment
          { f with fromNode := src, toNode := dst, linked := false })) := by
  have hpay : f.payload = data := by rw [Fragment.payload, hdata]; rfl
  rw [← hpay] at hlen hbuff
  obtain ⟨buff, henc, hdec⟩ :=
    hic.decode_encode_append (by norm_num) buffLen hpid hnum hid hlen hbuff [] dst src
  rw [List.append_nil, hpay, ← hdata] at hdec
  exact ⟨buff, henc, hdec⟩

/-- The same for requests. -/
theorem IntCoding.Inverse.decode_encode_request_append (hic : ic.Inverse bound) (buffLen : ℕ)
    (hpid : fr.pid < 2 ^ 16) (hid : fr.id < 2 ^ 16) (hbuff : FRAG_REQUEST_HEADER_LEN ≤ buffLen)
    (extra : Bytes) (dst src : NodeID) :
    ∃ buff, fragRequestEncode ic fr buffLen = some buff
      ∧ netMsgDecode ic dst src (buff ++ extra) = .ok (some (.fragRequest
          { fr with fromNode := src, toNode := dst, linked := false })) := by
  have hp := hic.int16_length fr.pid
  have hi := hic.int16_length fr.id
  have hheader : FRAG_REQUEST_HEADER_LEN = 5 := rfl
  refine ⟨_, by rw [fragRequestEncode, if_pos hbuff], ?_⟩
  generalize hbuf : NET_FRAGMENT_REQ :: (ic.int16Cpy fr.pid ++ ic.int16Cpy fr.id) ++ extra = buff
  have h₁ : buff.drop 1 = ic.int16Cpy fr.pid ++ (ic.int16Cpy fr.id ++ extra) := by
    rw [← hbuf]
    simp only [List.cons_append, List.drop_succ_cons, List.drop_zero, List.append_assoc]
  have h₃ : buff.drop 3 = ic.int16Cpy fr.id ++ extra := by
    rw [show 3 = 1 + 2 from rfl, ← List.drop_drop, h₁, List.drop_left' hp]
  have hhead : buff.head? = some NET_FRAGMENT_REQ := by rw [← hbuf]; rfl
  have hlen : FRAG_REQUEST_HEADER_LEN ≤ buff.length := by
    rw [← hbuf]
    simp only [List.length_append, List.length_cons, hp, hi]
    omega
  have hne : buff.head? ≠ some NET_FRAGMENT := by rw [hhead]; decide
  rw [netMsgDecode_of_decodable (Or.inr ⟨hhead, hlen⟩), decodedMessage, if_neg hne, decodedRequest,
    h₁, h₃, List.take_left' hp, List.take_left' hi, hic.int16_inv _ hpid, hic.int16_inv _ hid]
  rfl

end Wire

/-! ## Into the slots -/

/-- The packet has a slot for each piece of `data`, and those filled are the pieces `ids`. -/
structure FragmentedPacket.Gathers (fp : FragmentedPacket) (data : Bytes) (fragSize : ℕ)
    (ids : Finset ℕ) : Prop where
  fragNum : fp.fragNum = cutCount data.length fragSize
  slots : ∀ i < fp.fragNum,
    fp.slotData i = if i ∈ ids then some (cutPiece data fragSize i) else none

namespace FragmentedPacket

variable {fp : FragmentedPacket} {data : Bytes} {fragSize : ℕ} {ids : Finset ℕ} {f : Fragment}

/-- The slots of a new packet are empty. -/
lemma fragmentedPacketEmpty_slotData (pid : ℕ) (fromNode toNode : NodeID) (numFrags : ℕ) (now : ℤ)
    (i : ℕ) : (fragmentedPacketEmpty pid fromNode toNode numFrags now).slotData i = none := by
  rw [slotData, fragmentedPacketEmpty, List.getElem?_map]
  cases (List.range numFrags)[i]? <;> rfl

/-- A new packet has gathered nothing. -/
lemma gathers_empty (pid : ℕ) (fromNode toNode : NodeID) (now : ℤ) (hf : PieceOf data fragSize f) :
    (fragmentedPacketEmpty pid fromNode toNode f.fragNum now).Gathers data fragSize ∅ where
  fragNum := by simp [fragNum, fragmentedPacketEmpty, hf.fragNum]
  slots i _ := by simp [fragmentedPacketEmpty_slotData]

/-- A piece written into the packet is gathered. -/
lemma Gathers.put (h : fp.Gathers data fragSize ids) (hf : PieceOf data fragSize f) :
    (fp.put f).Gathers data fragSize (insert f.id ids) where
  fragNum := by rw [put_fragNum, h.fragNum]
  slots i hi := by
    rw [put_fragNum] at hi
    have hid : f.id < fp.fragNum := by rw [h.fragNum, ← hf.fragNum]; exact hf.id
    rw [put_slotData _ _ _ hid, h.slots i hi, hf.data]
    by_cases he : i = f.id
    · simp [he]
    · simp [he]

/-- The packet is complete when all pieces have been gathered. -/
lemma Gathers.complete_iff (h : fp.Gathers data fragSize ids)
    (hids : ids ⊆ Finset.range fp.fragNum) : fp.Complete ↔ ids = Finset.range fp.fragNum := by
  rw [FragmentedPacket.complete_iff]
  constructor
  · intro hc
    refine hids.antisymm fun i hi => ?_
    have hi' := Finset.mem_range.mp hi
    by_contra hn
    exact hc i hi' (by rw [h.slots i hi', if_neg hn])
  · intro he i hi
    rw [h.slots i hi, if_pos (by rw [he]; exact Finset.mem_range.mpr hi)]
    exact Option.some_ne_none _

/-- **A complete packet holds the payload**: its slots in order are the pieces in order. -/
theorem Gathers.contents (h : fp.Gathers data fragSize ids) (hc : fp.Complete)
    (hf : 0 < fragSize) (hk : (data.length + fragSize - 1) / fragSize ≤ 65535) :
    fp.contents = data := by
  have hpieces : fp.frags.map Fragment.payload
      = (List.range (cutCount data.length fragSize)).map (cutPiece data fragSize) := by
    refine List.ext_getElem ?_ fun i hi _ => ?_
    · rw [List.length_map, List.length_map, List.length_range]
      exact h.fragNum
    · have hlen : i < fp.frags.length := by simpa using hi
      have hfilled := FragmentedPacket.complete_iff.mp hc i hlen
      have hslot := h.slots i hlen
      have hdata : fp.frags[i].data = some (cutPiece data fragSize i) := by
        rw [← slotData_of_lt hlen, hslot, if_pos]
        by_contra hn
        exact hfilled (by rw [hslot, if_neg hn])
      rw [List.getElem_map, List.getElem_map, List.getElem_range, Fragment.payload, hdata]
      rfl
  rw [FragmentedPacket.contents, List.flatMap_def, hpieces, ← List.flatMap_def,
    flatMap_cutPiece_all hf hk]

end FragmentedPacket

end PeerStreamer
