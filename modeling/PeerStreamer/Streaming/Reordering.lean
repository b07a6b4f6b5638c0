import PeerStreamer.Streaming.OutputRing

/-!
# What the output buffer writes

Whole runs of `output_deliver`.  With reordering on, chunks are written in the order of their ids,
none is lost or written twice, and an id is passed over only when the ring cannot wait for it any
longer (`reordering`).  Chunks that come in order pass straight through, but what is written is the
copy in the ring, and `chunk_clone` copies neither the timestamp nor the attributes: the plain path
and the reordering path agree exactly when the memory of the ring happens to hold those already
(`reordering_plain_iff`).
-/

namespace PeerStreamer

/-! ## Runs -/

/-- One call of `output_deliver`: the chunk, whether it came in time, the value returned and the
chunks written. -/
structure Report where
  chunk : Chunk
  inTime : Bool
  returned : ℤ
  written : List Chunk
  deriving DecidableEq

/-- One call, with its report. -/
def deliverStep (o : ChunkOutput) (c : Chunk) : Eval (ChunkOutput × Report) := do
  let (o', returned, written) ← outputDeliver o c
  return (o', ⟨c, o.nextOut ≤ c.id, returned, written⟩)

/-- The chunks passed to `chunk_write`. -/
def written (rs : List Report) : List Chunk := rs.flatMap Report.written

/-- The chunks that were not late. -/
def inTime (rs : List Report) : List Chunk := (rs.filter Report.inTime).map Report.chunk

lemma written_append (rs rs' : List Report) : written (rs ++ rs') = written rs ++ written rs' :=
  List.flatMap_append

lemma inTime_append (rs rs' : List Report) : inTime (rs ++ rs') = inTime rs ++ inTime rs' := by
  simp [inTime]

/-! ## The order of the chunks -/

/-- What a run of deliveries `cs` guarantees that has left the buffer `o`. -/
structure Reordered (cs : List Chunk) (o : ChunkOutput) (rs : List Report) : Prop where
  increasing : ((written rs).map Chunk.id).Pairwise (· < ·)
  first : ∀ w ∈ written rs, ∃ c, (inTime rs).find? (·.id = w.id) = some c ∧ w.content = c.content
  once : ∀ c ∈ inTime rs, ((written rs).map Chunk.id).count c.id
    + (o.stored.map Chunk.id).count c.id = 1
  skipped : ∀ c₀ ∈ cs.head?, ∀ m, c₀.id ≤ m → m < o.nextOut → m ∉ (written rs).map Chunk.id →
    ∃ c ∈ cs, m + o.buffLength ≤ c.id
  returned : ∀ r ∈ rs, r.returned = r.written.length

/-- The state after the deliveries `cs`. -/
structure Reordering (cs : List Chunk) (rs : List Report) (o : ChunkOutput) : Prop where
  inv : RingInv o
  reorder : o.reorder = true
  returned : ∀ r ∈ rs, r.returned = r.written.length
  delivered : ∀ c ∈ inTime rs, c ∈ cs
  order : (cs = [] ∧ rs = [] ∧ o.nextOut = -1)
    ∨ ∃ c₀, cs.head? = some c₀ ∧ 0 ≤ o.nextOut
      ∧ InOrder Prod.fst o.buffLength c₀.id ((inTime rs).map Chunk.content)
        ((written rs).map Chunk.content) o.nextOut fun i => (o.pending i).map Chunk.content

section Reordering

variable {cs : List Chunk} {rs : List Report} {o : ChunkOutput} {c : Chunk}

lemma Reordering.order_at (h : Reordering cs rs o) :
    InOrder Prod.fst o.buffLength (((cs ++ [c]).head?.map Chunk.id).getD 0)
      ((inTime rs).map Chunk.content) ((written rs).map Chunk.content) (o.start c)
      fun i => (o.pending i).map Chunk.content := by
  rcases h.order with ⟨rfl, rfl, hneg⟩ | ⟨c₀, hhead, h₀, horder⟩
  · have hnone : (fun i => (o.pending i).map Chunk.content) = fun _ => none := by
      funext i
      rw [h.inv.pending_of_neg (by omega)]
      rfl
    simpa [hnone, ChunkOutput.start, hneg, inTime, written] using inOrder_start _ _ c.id
  · have hstart : o.start c = o.nextOut := if_neg (by omega)
    rw [hstart, List.head?_append, hhead]
    exact horder

/-- **One delivery.** -/
theorem Reordering.step (h : Reordering cs rs o) (hid : 0 ≤ c.id)
    (hfit : c.id + o.buffLength ≤ INT_MAX) (hdata : c.data.length = c.size) :
    ∃ o' r, deliverStep o c = .ok (o', r) ∧ Reordering (cs ++ [c]) (rs ++ [r]) o'
      ∧ o'.buffLength = o.buffLength := by
  by_cases hlate : o.nextOut ≤ c.id
  · obtain ⟨o', res, ws, slot, hs, hd⟩ :=
      outputDeliver_turn h.inv h.reorder hid hlate (by omega) (h.inv.fits hlate hfit)
    refine ⟨o', ⟨c, true, res, ws⟩, by rw [deliverStep, hs]; simp [hlate], ⟨hd.inv,
      hd.reorder.trans h.reorder, ?_, ?_, Or.inr ?_⟩, hd.buffLength⟩
    · intro r hr
      rcases List.mem_append.mp hr with hr | hr
      · exact h.returned r hr
      · rw [List.mem_singleton.mp hr]
        exact hd.count
    · intro d hmem
      rw [inTime_append, List.mem_append] at hmem
      rcases hmem with hmem | hmem
      · exact List.mem_append_left _ (h.delivered d hmem)
      · exact List.mem_append_right _ (by simpa [inTime] using hmem)
    · obtain ⟨c₀, hc₀⟩ : ∃ c₀, (cs ++ [c]).head? = some c₀ :=
        Option.isSome_iff_exists.mp (by simp)
      have hturn := hd.turn.map Prod.fst Chunk.content fun _ => rfl
      rw [chunkClone_content hdata] at hturn
      have hold := h.order_at (c := c)
      rw [hc₀] at hold
      have hnew := hold.turn (x := c.content) ?_ hturn
      · refine ⟨c₀, hc₀, hd.nextOut, ?_⟩
        rw [hd.buffLength, inTime_append, written_append, List.map_append, List.map_append]
        simpa [inTime, written] using hnew
      · rw [ChunkOutput.start]
        split_ifs
        · exact le_rfl
        · exact hlate
  · have hs := outputDeliver_late h.reorder (not_le.mp hlate)
    refine ⟨o, ⟨c, false, 0, []⟩, by rw [deliverStep, hs]; simp [hlate], ⟨h.inv, h.reorder, ?_, ?_,
      Or.inr ?_⟩, rfl⟩
    · intro r hr
      rcases List.mem_append.mp hr with hr | hr
      · exact h.returned r hr
      · rw [List.mem_singleton.mp hr]
        rfl
    · intro d hmem
      rw [inTime_append, List.mem_append] at hmem
      rcases hmem with hmem | hmem
      · exact List.mem_append_left _ (h.delivered d hmem)
      · simp [inTime] at hmem
    · rcases h.order with ⟨-, -, hneg⟩ | ⟨c₀, hhead, h₀, horder⟩
      · omega
      · refine ⟨c₀, by rw [List.head?_append, hhead]; rfl, h₀, ?_⟩
        rw [inTime_append, written_append]
        simpa [inTime, written] using horder

/-- What the invariant says about the chunks. -/
lemma Reordering.reordered (h : Reordering cs rs o) : Reordered cs o rs := by
  rcases h.order with ⟨rfl, rfl, -⟩ | ⟨c₀, hhead, h₀, horder⟩
  · refine ⟨List.Pairwise.nil, ?_, ?_, ?_, by simp⟩
    · simp [written]
    · simp [inTime]
    · simp
  · have hids : ((written rs).map Chunk.content).map Prod.fst = (written rs).map Chunk.id := by
      rw [List.map_map]
      rfl
    have hbelow : ∀ i ∈ (written rs).map Chunk.id, i < o.nextOut := by
      intro i hi
      rw [← hids] at hi
      obtain ⟨x, hx, rfl⟩ := List.mem_map.mp hi
      exact horder.below x hx
    have hsorted : ((written rs).map Chunk.id).Pairwise (· < ·) := hids ▸ horder.sorted
    refine ⟨hsorted, fun w hw => ?_, fun c hc => ?_, fun c' hc' m hm hlt hnot => ?_, h.returned⟩
    · have hfind := horder.first w.content (Or.inl (List.mem_map_of_mem hw))
      rw [List.find?_map] at hfind
      obtain ⟨c, hc, hcw⟩ := Option.map_eq_some_iff.mp hfind
      exact ⟨c, hc, hcw.symm⟩
    · rw [h.inv.count_stored]
      have hone := List.nodup_iff_count_le_one.mp (hsorted.imp ne_of_lt) c.id
      have hkept := horder.kept c.content (List.mem_map_of_mem hc)
      rw [hids] at hkept
      by_cases hmem : c.id ∈ (written rs).map Chunk.id
      · have hnone : o.pending c.id = none := by
          refine Option.eq_none_iff_forall_ne_some.mpr fun d hd => ?_
          have := (horder.above c.id d.content (by rw [hd]; rfl)).1
          have := hbelow _ hmem
          omega
        have := List.count_pos_iff.mpr hmem
        simp only [hnone, Option.isSome_none, if_false, Bool.false_eq_true]
        omega
      · have hsome := hkept.resolve_left hmem
        rw [Option.isSome_map] at hsome
        rw [List.count_eq_zero.mpr hmem, if_pos (by exact hsome)]
    · rw [hhead] at hc'
      obtain rfl := Option.some.inj hc'
      obtain ⟨x, hx, hle⟩ := horder.passed m hm hlt (by rwa [hids])
      obtain ⟨c, hc, rfl⟩ := List.mem_map.mp hx
      exact ⟨c, h.delivered c hc, hle⟩

end Reordering

/-- **The reordering buffer.**  For any deliveries whose ids leave room for a buffer after them:
the ids written increase; what is written is the first chunk with its id that was not late; every
chunk that was not late has been written once or waits in the buffer; an id is skipped only when a
chunk as far ahead as the buffer is long was delivered; and the calls return what they wrote. -/
theorem reordering (outbuffSize outbuffReorder : ℤ) (memory : ℕ → Chunk)
    (hreorder : outbuffReorder ≠ 0)
    (hlength : 1 ≤ (outputCreate outbuffSize outbuffReorder memory).buffLength) (cs : List Chunk)
    (hcs : ∀ c ∈ cs, 0 ≤ c.id
      ∧ c.id + (outputCreate outbuffSize outbuffReorder memory).buffLength ≤ INT_MAX
      ∧ c.data.length = c.size) :
    ∃ o rs, exec deliverStep (outputCreate outbuffSize outbuffReorder memory) cs = .ok (o, rs)
      ∧ Reordered cs o rs := by
  have htotal : ∃ o rs, exec deliverStep (outputCreate outbuffSize outbuffReorder memory) cs
      = .ok (o, rs) ∧ Reordering cs rs o
        ∧ o.buffLength = (outputCreate outbuffSize outbuffReorder memory).buffLength := by
    refine exec_total (J := fun cs rs o => Reordering cs rs o
      ∧ o.buffLength = (outputCreate outbuffSize outbuffReorder memory).buffLength)
      ⟨⟨outputCreate_ringInv hlength, by simp [outputCreate, hreorder], by simp, by simp [inTime],
        Or.inl ⟨rfl, rfl, rfl⟩⟩, rfl⟩ ?_
    rintro pre c post rs o rfl ⟨h, hlen⟩
    obtain ⟨hid, hfit, hdata⟩ := hcs c (by simp)
    obtain ⟨o', r, hs, h', hlen'⟩ := h.step hid (by rw [hlen]; exact hfit) hdata
    exact ⟨o', r, hs, h', hlen'.trans hlen⟩
  obtain ⟨o, rs, hexec, h, -⟩ := htotal
  exact ⟨o, rs, hexec, h.reordered⟩

/-- A chunk of one byte, with a timestamp and no attributes. -/
def oneByteChunk (id : ℤ) : Chunk := ⟨id, 1, 2, 0, [7], []⟩

/-- Memory full of zeros. -/
def zeroMemory : ℕ → Chunk := fun _ => ⟨0, 0, 0, 0, [], []⟩

/-- Gaps, a chunk that is late and a jump, in a ring of four slots. -/
theorem reordering_gaps :
    ∃ o rs, exec deliverStep (outputCreate 4 1 zeroMemory)
        ([4, 6, 8, 10, 9, 7, 3, 30].map oneByteChunk) = .ok (o, rs)
      ∧ Reordered ([4, 6, 8, 10, 9, 7, 3, 30].map oneByteChunk) o rs :=
  reordering 4 1 zeroMemory (by decide) (by decide) _ (by decide)

/-! ## Chunks in order -/

/-- Without reordering every chunk is written as it comes. -/
lemma plain_written {o : ChunkOutput} (hplain : o.reorder = false) (cs : List Chunk) :
    ∃ rs, exec deliverStep o cs = .ok (o, rs) ∧ written rs = cs := by
  induction cs with
  | nil => exact ⟨[], rfl, rfl⟩
  | cons c cs ih =>
      obtain ⟨rs, hexec, hw⟩ := ih
      refine ⟨⟨c, o.nextOut ≤ c.id, 1, [c]⟩ :: rs, ?_, by simp [written] at hw ⊢; exact hw⟩
      refine exec_cons_eq_ok.mpr ⟨o, _, rs, ?_, hexec, rfl⟩
      simp [deliverStep, outputDeliver, hplain]

/-- The buffer after `k` chunks with the ids from `first` on: it is empty, and its slots still hold
what `malloc` left in them. -/
structure PassedThrough (memory : ℕ → Chunk) (first : ℤ) (k : ℕ) (o : ChunkOutput) : Prop where
  inv : RingInv o
  reorder : o.reorder = true
  empty : ∀ i, o.pending i = none
  nextOut : o.nextOut = if k = 0 then -1 else first + k
  head : o.head = k % o.buffLength
  extra : ∀ p, (o.buff p).extra = (memory p).extra

/-- The next chunk in order goes into the ring and out again. -/
lemma PassedThrough.step {memory : ℕ → Chunk} {first : ℤ} {k : ℕ} {o : ChunkOutput} {c : Chunk}
    (h : PassedThrough memory first k o) (hfirst : 0 ≤ first) (hid : c.id = first + k)
    (hfit : c.id + o.buffLength ≤ INT_MAX) :
    ∃ o' r, deliverStep o c = .ok (o', r) ∧ PassedThrough memory first (k + 1) o'
      ∧ o'.buffLength = o.buffLength
      ∧ r.written = [chunkClone (memory (k % o.buffLength)) c] := by
  have hstart : o.start c = c.id := by
    rw [ChunkOutput.start, h.nextOut]
    split_ifs <;> omega
  have hlate : o.nextOut ≤ c.id := by
    rw [h.nextOut]
    split_ifs <;> omega
  obtain ⟨o', res, ws, slot, hs, hd⟩ :=
    outputDeliver_turn h.inv h.reorder (by omega) hlate (by omega) (h.inv.fits hlate hfit)
  have hturn := hd.turn
  have hplace : place Chunk.id o.pending (chunkClone slot c)
      = fun i => if i = c.id then some (chunkClone slot c) else none := by
    funext i
    by_cases hi : i = c.id
    · simp [place, hi, h.empty]
    · simp [place, hi, h.empty]
  have hle := hturn.le
  rw [hstart] at hle
  -- the window stops right behind the chunk
  have hnext : o'.nextOut = c.id + 1 := by
    have hone : o'.nextOut ≠ c.id := by
      intro he
      have hnone := hd.next
      rw [hturn.stays, hplace, he] at hnone
      simp [waitingFrom] at hnone
    by_contra hne
    have hforced := hturn.forced (c.id + 1) (by omega) (by omega) (by simp [hplace])
    have hhead := h.inv.head
    rw [chunkClone_id] at hforced
    omega
  have hslot : chunkClone slot c = chunkClone (memory (k % o.buffLength)) c := by
    have hextra := hd.slot
    rw [hstart, sub_self, Int.toNat_zero, Nat.add_zero, h.head, Nat.mod_mod, h.extra] at hextra
    exact Chunk.eq_iff.mpr ⟨rfl, hextra⟩
  refine ⟨o', ⟨c, o.nextOut ≤ c.id, res, ws⟩, by rw [deliverStep, hs]; rfl, ⟨hd.inv,
    hd.reorder.trans h.reorder, fun i => ?_, ?_, ?_, fun p => (hd.extra p).trans (h.extra p)⟩,
    hd.buffLength, ?_⟩
  · rw [hturn.stays, hnext, hplace, waitingFrom]
    split_ifs
    · rfl
    · omega
    · rfl
  · rw [hnext, if_neg (Nat.succ_ne_zero k)]
    push_cast
    omega
  · have hone : (c.id + 1 - c.id).toNat = 1 := by omega
    rw [hd.head, hd.buffLength, hnext, hstart, hone, h.head, Nat.mod_add_mod]
  · rw [hturn.leaves, hnext, hstart, hplace, emit_one, if_pos rfl, hslot]
    rfl

/-- Chunks in order pass straight through, as copies made in the slots they pass through. -/
theorem inOrder_written (outbuffSize : ℤ) {outbuffReorder : ℤ} (memory : ℕ → Chunk)
    (hreorder : outbuffReorder ≠ 0)
    (hlength : 1 ≤ (outputCreate outbuffSize outbuffReorder memory).buffLength) {cs : List Chunk}
    {first : ℤ} (hfirst : 0 ≤ first) (hids : ∀ (i : ℕ) c, cs[i]? = some c → c.id = first + i)
    (hfit : ∀ c ∈ cs, c.id + (outputCreate outbuffSize outbuffReorder memory).buffLength
      ≤ INT_MAX) :
    ∃ o rs, exec deliverStep (outputCreate outbuffSize outbuffReorder memory) cs = .ok (o, rs)
      ∧ written rs = cs.mapIdx fun i c => chunkClone
        (memory (i % (outputCreate outbuffSize outbuffReorder memory).buffLength)) c := by
  have hinit : PassedThrough memory first 0 (outputCreate outbuffSize outbuffReorder memory) := by
    refine ⟨outputCreate_ringInv hlength, by simp [outputCreate, hreorder],
      (outputCreate_ringInv hlength).pending_of_neg (by simp [outputCreate]), rfl, ?_,
      fun _ => rfl⟩
    rw [Nat.zero_mod]
    rfl
  generalize outputCreate outbuffSize outbuffReorder memory = o₀ at *
  have htotal : ∃ o rs, exec deliverStep o₀ cs = .ok (o, rs)
      ∧ PassedThrough memory first cs.length o
      ∧ o.buffLength = o₀.buffLength
      ∧ written rs = cs.mapIdx fun i c => chunkClone (memory (i % o₀.buffLength)) c := by
    refine exec_total (J := fun cs rs o => PassedThrough memory first cs.length o
      ∧ o.buffLength = o₀.buffLength
      ∧ written rs = cs.mapIdx fun i c => chunkClone (memory (i % o₀.buffLength)) c)
      ⟨hinit, rfl, rfl⟩ ?_
    rintro pre c post rs o rfl ⟨h, hlen, hw⟩
    obtain ⟨o', r, hs, h', hlen', hw'⟩ := h.step hfirst (hids pre.length c (by simp))
      (by rw [hlen]; exact hfit c (by simp))
    refine ⟨o', r, hs, by simpa using h', hlen'.trans hlen, ?_⟩
    rw [written_append, hw, List.mapIdx_concat, ← hlen]
    simp [written, hw']
  obtain ⟨o, rs, hexec, -, -, hw⟩ := htotal
  exact ⟨o, rs, hexec, hw⟩

/-- **The reordering path and the plain path.**  Chunks with consecutive ids, delivered in order,
are written alike with and without reordering if and only if the memory of the ring holds their
timestamps and attributes already. -/
theorem reordering_plain_iff (outbuffSize outbuffReorder : ℤ) (memory memory' : ℕ → Chunk)
    (hreorder : outbuffReorder ≠ 0)
    (hlength : 1 ≤ (outputCreate outbuffSize outbuffReorder memory).buffLength) (cs : List Chunk)
    (first : ℤ) (hfirst : 0 ≤ first) (hids : ∀ (i : ℕ) c, cs[i]? = some c → c.id = first + i)
    (hcs : ∀ c ∈ cs, c.id + (outputCreate outbuffSize outbuffReorder memory).buffLength ≤ INT_MAX
      ∧ c.data.length = c.size) :
    ∃ o rs o' rs', exec deliverStep (outputCreate outbuffSize outbuffReorder memory) cs
        = .ok (o, rs)
      ∧ exec deliverStep (outputCreate outbuffSize 0 memory') cs = .ok (o', rs')
      ∧ (written rs = written rs' ↔ ∀ (i : ℕ) c, cs[i]? = some c →
        (memory (i % (outputCreate outbuffSize outbuffReorder memory).buffLength)).extra
          = c.extra) := by
  obtain ⟨o, rs, hexec, hw⟩ := inOrder_written outbuffSize memory hreorder hlength hfirst
    hids fun c hc => (hcs c hc).1
  obtain ⟨rs', hexec', hw'⟩ := plain_written (o := outputCreate outbuffSize 0 memory') rfl cs
  refine ⟨o, rs, _, rs', hexec, hexec', ?_⟩
  rw [hw, hw', List.ext_getElem?_iff]
  refine forall_congr' fun i => ?_
  rw [List.getElem?_mapIdx]
  cases hi : cs[i]? with
  | none => simp
  | some c =>
      have hdata := (hcs c (List.mem_of_getElem? hi)).2
      simp only [Option.map_some, Option.some.injEq, forall_eq']
      rw [Chunk.eq_iff]
      simp [chunkClone_content hdata]

/-- Memory that holds the timestamp already. -/
theorem reordering_plain_iff_lucky :
    ∃ o rs o' rs', exec deliverStep (outputCreate 3 1 fun _ => oneByteChunk 0)
        [oneByteChunk 1, oneByteChunk 2] = .ok (o, rs)
      ∧ exec deliverStep (outputCreate 3 0 zeroMemory) [oneByteChunk 1, oneByteChunk 2]
        = .ok (o', rs')
      ∧ (written rs = written rs' ↔ ∀ (i : ℕ) c, [oneByteChunk 1, oneByteChunk 2][i]? = some c →
        (oneByteChunk 0).extra = c.extra) := by
  refine reordering_plain_iff 3 1 (fun _ => oneByteChunk 0) zeroMemory (by decide) (by decide) _ 1
    (by decide) ?_ (by decide)
  rintro (_ | _ | i) c hc
  · cases hc
    rfl
  · cases hc
    rfl
  · simp at hc

/-- With memory full of zeros the chunk is written without its timestamp. -/
theorem not_reordering_plain :
    ∃ o rs o' rs', exec deliverStep (outputCreate 75 1 zeroMemory) [oneByteChunk 1] = .ok (o, rs)
      ∧ exec deliverStep (outputCreate 75 0 zeroMemory) [oneByteChunk 1] = .ok (o', rs')
      ∧ written rs ≠ written rs' := by
  have hids : ∀ (i : ℕ) c, [oneByteChunk 1][i]? = some c → c.id = 1 + i := by
    rintro (_ | i) c hc
    · cases hc
      rfl
    · simp at hc
  obtain ⟨o, rs, hexec, hw⟩ := inOrder_written 75 zeroMemory one_ne_zero (by decide)
    (by decide) hids (by decide)
  obtain ⟨rs', hexec', hw'⟩ := plain_written (o := outputCreate 75 0 zeroMemory) rfl
    [oneByteChunk 1]
  refine ⟨o, rs, _, rs', hexec, hexec', ?_⟩
  rw [hw, hw']
  decide

end PeerStreamer
