import PeerStreamer.Streaming.Reordering

/-!
# The arithmetic of the output buffer

The ids of chunks come from the network and are of type `int`, and so is the configured size of the
buffer, which is stored in 16 bits.  A size that is a multiple of `2 ^ 16` leaves a buffer without
slots, in which positions are computed modulo zero, and ids near the largest `int` make the position
of a chunk, the end of the window or `next_out` overflow.  Nothing else can go wrong
(`reorder_bounds_iff`).
-/

namespace PeerStreamer

section Bounds

variable {o o' : ChunkOutput} {c : Chunk}

/-- The slot at the head, when the next id waits. -/
lemma RingInv.ready_of_pending (h : RingInv o) (hp : o.pending o.nextOut ≠ none) : o.Ready := by
  by_contra hready
  rw [h.pending_head] at hp
  exact hp (if_neg hready)

/-- When everything up to the last id waits, `next_out` overflows. -/
lemma RingInv.drain_overflows (h : RingInv o) (h₀ : 0 ≤ o.nextOut) (hle : o.nextOut ≤ INT_MAX)
    (hfull : ∀ i, o.nextOut ≤ i → i ≤ INT_MAX → o.pending i ≠ none)
    (r : ChunkOutput × ℤ × List Chunk) : outputDrain o ≠ .ok r := by
  have hready := h.ready_of_pending (hfull _ le_rfl hle)
  induction hn : (INT_MAX - o.nextOut).toNat generalizing o r with
  | zero =>
      have hlast : o.nextOut + 1 = INT_MAX + 1 := by omega
      have hslot : o.slot o.head = .ok (o.buff o.head) := by
        simp [ChunkOutput.slot, h.head]
      have hover : outputSendNext o = .error .signedOverflow := by
        have hid : 0 ≤ (o.buff o.head).id := hready
        rw [outputSendNext, hslot]
        simp only [Eval.ok_bind, ge_iff_le, hid, if_true, ChunkOutput.store, hlast]
        rfl
      rw [outputDrain_of_error hready hover]
      simp
  | succ n ih =>
      obtain ⟨o₁, res, written, hs, ha, hn₁⟩ := h.sendNext h₀ (by omega)
      have hfull₁ : ∀ i, o₁.nextOut ≤ i → i ≤ INT_MAX → o₁.pending i ≠ none := by
        intro i hi hmax
        rw [ha.pending, waitingFrom, if_neg (by omega)]
        exact hfull i (by omega) hmax
      rw [outputDrain_of_ready hready hs, ne_eq, Eval.bind_eq_ok, not_exists]
      rintro r' ⟨hr', -⟩
      exact ih ha.inv (by omega) (by omega) hfull₁ r'
        (ha.inv.ready_of_pending (hfull₁ _ le_rfl (by omega))) (by omega) hr'

/-- A chunk with the id -1 is taken for an empty slot. -/
lemma outputDeliver_unset (h : RingInv o) (hreorder : o.reorder = true) (hneg : o.nextOut < 0)
    (hid : c.id = -1) : outputDeliver o c = .ok (o, 0, []) := by
  have hhead := h.head
  have hshort := h.short
  have hnext : o.nextOut = -1 := by
    have := h.next
    omega
  have hempty : (o.buff o.head).id = -1 := by
    have hslot := h.slots 0 (by omega)
    rw [ChunkOutput.ahead, Nat.add_zero, Nat.mod_eq_of_lt hhead] at hslot
    exact hslot.resolve_right fun hfull => by omega
  have hsame : ({ o with nextOut := c.id } : ChunkOutput) = o := by rw [hid, ← hnext]
  have hpos : cint (o.head + c.id) = .ok (o.head - 1) := by
    rw [hid]
    exact cint_ok (by rw [INT_MIN]; omega) (by rw [INT_MAX]; omega)
  have hpos' : cint (o.head - 1 - o.nextOut) = .ok o.head := by
    rw [hnext, sub_neg_eq_add, sub_add_cancel]
    exact cint_ok (by rw [INT_MIN]; omega) (by rw [INT_MAX]; omega)
  have hmod : cmod o.head o.buffLength = .ok o.head := by
    rw [cmod_ok (by omega) (by omega), Int.emod_eq_of_lt (by omega) (by omega)]
  have hbound : cint (o.nextOut + o.buffLength) = .ok (o.nextOut + o.buffLength) :=
    cint_ok (by rw [INT_MIN]; omega) (by rw [INT_MAX]; omega)
  have hfree : outputFreeSpace o c o.head = .ok (o, 0, []) := by
    have hfits : ¬c.id ≥ o.nextOut + o.buffLength := by omega
    simp only [outputFreeSpace, hbound, Eval.ok_bind, hfits, if_false, Eval.pure_eq_ok]
  have hplace : outputPlace o c o.head = .ok o := by
    have hslot : o.slot o.head = .ok (o.buff o.head) := by simp [ChunkOutput.slot, hhead]
    simp only [outputPlace, hslot, Eval.ok_bind, hid, hempty, ne_eq, not_true_eq_false, if_false,
      Eval.pure_eq_ok]
  have hdrain : outputDrain o = .ok (o, 0, []) :=
    outputDrain_of_not_ready (by rw [ChunkOutput.Ready]; omega)
  rw [outputDeliver, if_pos hreorder, if_pos (by omega)]
  simp only [hneg, if_true, hsame, hpos, hpos', hmod, hfree, hplace, hdrain, Eval.ok_bind]
  rfl

/-- **A delivery that succeeds has had room.** -/
lemma RingInv.fits_of_ok (h : RingInv o) (hreorder : o.reorder = true) (hlate : o.nextOut ≤ c.id)
    (hid : c.id ≤ INT_MAX) {r : ChunkOutput × ℤ × List Chunk} (hok : outputDeliver o c = .ok r) :
    o.Fits c := by
  have hhead := h.head
  rw [outputDeliver, if_pos hreorder, if_pos hlate] at hok
  simp only [Eval.bind_eq_ok] at hok
  obtain ⟨pos, hpos, pos', hpos', newPos, hnew, ⟨o₁, res₁, written₁⟩, hfree, o₂, hplace,
    ⟨o₃, res₃, written₃⟩, hdrain, -⟩ := hok
  have hposition : o.head + c.id ≤ INT_MAX := by
    have hbounds := (bounds_of_cint_eq_ok hpos).2
    split_ifs at hbounds <;> exact hbounds
  have hbound : o.start c + o.buffLength ≤ INT_MAX := by
    simp only [outputFreeSpace, Eval.bind_eq_ok] at hfree
    obtain ⟨bound, hb, -⟩ := hfree
    have hbounds := (bounds_of_cint_eq_ok hb).2
    rw [ChunkOutput.start]
    split_ifs at hbounds ⊢ <;> exact hbounds
  refine ⟨hposition, hbound, fun hlast => ?_⟩
  by_contra hall
  have hfull : ∀ i, INT_MAX - o.buffLength < i → i < INT_MAX → o.pending i ≠ none :=
    fun i hlo hhi hnone => hall ⟨i, hlo, hhi, hnone⟩
  have h₀ : 0 ≤ o.nextOut := by
    by_contra hneg
    rw [ChunkOutput.start, if_pos (by omega)] at hbound
    omega
  have hneg : ¬o.nextOut < 0 := by omega
  rw [ChunkOutput.start, if_neg hneg] at hbound
  simp only [hneg, if_false] at hpos hpos' hfree
  -- what has been computed is what there is room for
  obtain ⟨hp₁, hp₂, hp₃⟩ := h.position hlate hposition h₀
  obtain rfl := Except.ok.inj (hp₁.symm.trans hpos)
  obtain rfl := Except.ok.inj (hp₂.symm.trans hpos')
  obtain rfl := Except.ok.inj (hp₃.symm.trans (by simpa only [hneg, if_false] using hnew))
  obtain ⟨o₁', res₁', written₁', hs₁, ha₁, hn₁, hsame⟩ := h.freeSpace h₀ hlate hid hbound
  obtain ⟨rfl, -⟩ := ok_unique hs₁ hfree
  obtain ⟨buff, hs₂, hi₂, hpend, -⟩ := ha₁.inv.placeAt (by omega) (by omega)
    (by rw [ha₁.buffLength]; omega) hid (by rw [ha₁.buffLength, hsame])
  obtain rfl := Except.ok.inj (hs₂.symm.trans hplace)
  refine hi₂.drain_overflows (by simp only; omega) (by simp only; omega) (fun i hi hmax => ?_) _
    hdrain
  simp only at hi
  rw [hpend, place]
  by_cases hic : i = c.id
  · rw [chunkClone_id, hic, Function.update_self]
    exact Option.some_ne_none _
  · rw [chunkClone_id, Function.update_of_ne hic, ha₁.pending, waitingFrom, if_neg (by omega)]
    exact hfull i (by omega) (by omega)

/-- **One delivery** of a chunk with any id: it succeeds exactly if the chunk is late or there is
room for the arithmetic. -/
theorem outputDeliver_ok_iff (h : RingInv o) (hreorder : o.reorder = true) (hid : c.id ≤ INT_MAX) :
    (∃ r, outputDeliver o c = .ok r) ↔ (o.nextOut ≤ c.id → o.Fits c) := by
  constructor
  · rintro ⟨r, hr⟩ hlate
    exact h.fits_of_ok hreorder hlate hid hr
  · intro hfits
    by_cases hlate : o.nextOut ≤ c.id
    · by_cases h₀ : 0 ≤ c.id
      · obtain ⟨o', res, written, slot, hs, -⟩ :=
          outputDeliver_turn h hreorder h₀ hlate hid (hfits hlate)
        exact ⟨_, hs⟩
      · have hnext := h.next
        exact ⟨_, outputDeliver_unset h hreorder (by omega) (by omega)⟩
    · exact ⟨_, outputDeliver_late hreorder (by omega)⟩

/-- The ring stays a ring, of the same length. -/
lemma outputDeliver_ringInv (h : RingInv o) (hreorder : o.reorder = true) (hid : c.id ≤ INT_MAX)
    {res : ℤ} {written : List Chunk} (hok : outputDeliver o c = .ok (o', res, written)) :
    RingInv o' ∧ o'.reorder = true ∧ o'.buffLength = o.buffLength := by
  by_cases hlate : o.nextOut ≤ c.id
  · by_cases h₀ : 0 ≤ c.id
    · obtain ⟨o₁, res₁, written₁, slot, hs, hd⟩ :=
        outputDeliver_turn h hreorder h₀ hlate hid (h.fits_of_ok hreorder hlate hid hok)
      obtain ⟨rfl, -⟩ := ok_unique hs hok
      exact ⟨hd.inv, hd.reorder.trans hreorder, hd.buffLength⟩
    · have hnext := h.next
      rw [outputDeliver_unset h hreorder (by omega) (by omega)] at hok
      cases hok
      exact ⟨h, hreorder, rfl⟩
  · rw [outputDeliver_late hreorder (by omega)] at hok
    cases hok
    exact ⟨h, hreorder, rfl⟩

end Bounds

/-! ## Runs -/

/-- A buffer with at least one slot, in which chunks are delivered without reading or writing
outside of its slots, dividing by zero or overflowing; the number of slots never changes. -/
def SafelyDelivered (o : ChunkOutput) (cs : List Chunk) : Prop :=
  1 ≤ o.buffLength
    ∧ ∃ o' rs, exec deliverStep o cs = .ok (o', rs) ∧ o'.buffLength = o.buffLength

/-- A configured size that does not vanish in 16 bits; the default is 75. -/
lemma outputCreate_buffLength (outbuffSize outbuffReorder : ℤ) (memory : ℕ → Chunk) :
    1 ≤ (outputCreate outbuffSize outbuffReorder memory).buffLength
      ↔ outbuffSize ≤ 0 ∨ ¬2 ^ 16 ∣ outbuffSize := by
  rw [outputCreate]
  split_ifs with hpos
  · simp only
    omega
  · simp only [show ((75 : ℤ).toNat % 2 ^ 16) = 75 from rfl]
    omega

/-- **The arithmetic of the reorder buffer.**  For every configured size and all chunks with ids of
type `int`, deliveries are safe if and only if the size does not vanish in 16 bits and every chunk
that is not late leaves room. -/
theorem reorder_bounds_iff (outbuffSize : ℤ) {outbuffReorder : ℤ} (memory : ℕ → Chunk)
    (hreorder : outbuffReorder ≠ 0) {cs : List Chunk}
    (hcs : ∀ c ∈ cs, INT_MIN ≤ c.id ∧ c.id ≤ INT_MAX) :
    SafelyDelivered (outputCreate outbuffSize outbuffReorder memory) cs
      ↔ (outbuffSize ≤ 0 ∨ ¬2 ^ 16 ∣ outbuffSize)
        ∧ Along deliverStep (fun o c => o.nextOut ≤ c.id → o.Fits c)
          (outputCreate outbuffSize outbuffReorder memory) cs := by
  rw [SafelyDelivered, outputCreate_buffLength]
  refine and_congr_right fun hlength => ?_
  have hone := (outputCreate_buffLength outbuffSize outbuffReorder memory).mpr hlength
  generalize hcreate : outputCreate outbuffSize outbuffReorder memory = o₀ at hone ⊢
  have h₀ : RingInv o₀ ∧ o₀.reorder = true ∧ o₀.buffLength = o₀.buffLength := by
    rw [← hcreate] at hone ⊢
    exact ⟨outputCreate_ringInv hone, by simp [outputCreate, hreorder], rfl⟩
  have hiff : ∀ o, ∀ c ∈ cs,
      RingInv o ∧ o.reorder = true ∧ o.buffLength = o₀.buffLength →
      ((∃ o' r, deliverStep o c = .ok (o', r)) ↔ (o.nextOut ≤ c.id → o.Fits c)) := by
    rintro o c hc ⟨h, hre, -⟩
    rw [← outputDeliver_ok_iff h hre (hcs c hc).2]
    simp only [deliverStep, Eval.bind_eq_ok, Eval.pure_eq_ok, Except.ok.injEq, Prod.mk.injEq]
    constructor
    · rintro ⟨o', res, r, hr, -⟩
      exact ⟨r, hr⟩
    · rintro ⟨r, hr⟩
      exact ⟨_, _, r, hr, rfl, rfl⟩
  have hstep : ∀ o, ∀ c ∈ cs, ∀ o' r,
      RingInv o ∧ o.reorder = true ∧ o.buffLength = o₀.buffLength →
      deliverStep o c = .ok (o', r) →
      RingInv o' ∧ o'.reorder = true ∧ o'.buffLength = o₀.buffLength := by
    rintro o c hc o' r ⟨h, hre, hlen⟩ hs
    simp only [deliverStep, Eval.bind_eq_ok, Eval.pure_eq_ok, Except.ok.injEq,
      Prod.mk.injEq] at hs
    obtain ⟨⟨o₁, res, written⟩, hs, rfl, -⟩ := hs
    obtain ⟨h', hre', hlen'⟩ := outputDeliver_ringInv h hre (hcs c hc).2 hs
    exact ⟨h', hre', hlen'.trans hlen⟩
  rw [← exec_ok_iff_along hiff hstep h₀]
  constructor
  · rintro ⟨o', rs, hs, -⟩
    exact ⟨o', rs, hs⟩
  · rintro ⟨o', rs, hs⟩
    exact ⟨o', rs, hs, (exec_keeps hs h₀ hstep).2.2⟩

/-- A jump in a ring of four slots, and a chunk that is late. -/
theorem reorder_bounds_iff_jump :
    SafelyDelivered (outputCreate 4 1 zeroMemory) ([4, 6, 30, 3].map oneByteChunk)
      ↔ ((4 : ℤ) ≤ 0 ∨ ¬(2 ^ 16 : ℤ) ∣ 4)
        ∧ Along deliverStep (fun o c => o.nextOut ≤ c.id → o.Fits c) (outputCreate 4 1 zeroMemory)
          ([4, 6, 30, 3].map oneByteChunk) :=
  reorder_bounds_iff 4 zeroMemory (by decide) (by decide)

/-- A buffer of `2 ^ 16` slots has none. -/
theorem not_reorder_bounds :
    ¬∀ (outbuffSize : ℤ) (cs : List Chunk), INT_MIN ≤ outbuffSize ∧ outbuffSize ≤ INT_MAX →
      (∀ c ∈ cs, INT_MIN ≤ c.id ∧ c.id ≤ INT_MAX) →
      SafelyDelivered (outputCreate outbuffSize 1 zeroMemory) cs := by
  intro hall
  have hsafe := hall (2 ^ 16) [oneByteChunk 0] (by decide) (by decide)
  have hslots := (outputCreate_buffLength (2 ^ 16) 1 zeroMemory).mp hsafe.1
  revert hslots
  decide

/-- After a first chunk with the last id there is no room for a window. -/
example : exec deliverStep (outputCreate 75 1 zeroMemory) [oneByteChunk INT_MAX]
    = .error .signedOverflow := rfl

end PeerStreamer
