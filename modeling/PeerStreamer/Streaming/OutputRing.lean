import PeerStreamer.Streaming.Output

/-!
# The ring is a window

The slot `j` places after the head is empty or holds the chunk with the id `next_out + j`
(`RingInv`), so that the ring is a partial function of the id (`ChunkOutput.pending`).  Sending,
flushing and draining all move the window forward and write what it leaves behind (`Advanced`); the
explicit reset of the head puts it where the flush has put it already.  A delivery that is not late
is a `Turn` of the window (`outputDeliver_turn`).
-/

namespace PeerStreamer

namespace ChunkOutput

/-- The slot `j` places after the head. -/
def ahead (o : ChunkOutput) (j : ℕ) : Chunk := o.buff ((o.head + j) % o.buffLength)

/-- The chunks in the ring, by id. -/
def pending (o : ChunkOutput) : ℤ → Option Chunk := fun i =>
  if o.nextOut ≤ i ∧ i < o.nextOut + o.buffLength then
    if 0 ≤ (o.ahead (i - o.nextOut).toNat).id then some (o.ahead (i - o.nextOut).toNat) else none
  else none

end ChunkOutput

/-- The ring is a window from `next_out` on, and its ids are of type `int`. -/
structure RingInv (o : ChunkOutput) : Prop where
  head : o.head < o.buffLength
  short : o.buffLength < 2 ^ 16
  next : -1 ≤ o.nextOut
  slots : ∀ j < o.buffLength, (o.ahead j).id = -1
    ∨ 0 ≤ o.nextOut ∧ (o.ahead j).id = o.nextOut + j ∧ o.nextOut + j ≤ INT_MAX

section Ring

variable {o o' o'' : ChunkOutput} {c : Chunk}

/-- Places of a ring less than a round apart are different. -/
lemma ring_injective {h j k n : ℕ} (hj : j < n) (hk : k < n) (he : (h + j) % n = (h + k) % n) :
    j = k :=
  (Nat.ModEq.add_left_cancel' h he).eq_of_lt_of_lt hj hk

lemma ChunkOutput.pending_eq_some {i : ℤ} :
    o.pending i = some c
      ↔ ∃ j < o.buffLength, i = o.nextOut + j ∧ o.ahead j = c ∧ 0 ≤ c.id := by
  rw [pending]
  constructor
  · intro h
    split_ifs at h with hi hid
    obtain rfl := Option.some.inj h
    exact ⟨(i - o.nextOut).toNat, by omega, by omega, rfl, hid⟩
  · rintro ⟨j, hj, rfl, rfl, hid⟩
    have hsub : (o.nextOut + j - o.nextOut).toNat = j := by omega
    rw [if_pos ⟨by omega, by omega⟩, hsub, if_pos hid]

/-- Chunks wait under their own ids. -/
lemma RingInv.pending_id (h : RingInv o) {i : ℤ} (hi : o.pending i = some c) :
    c.id = i ∧ i ≤ INT_MAX := by
  obtain ⟨j, hj, rfl, rfl, hid⟩ := ChunkOutput.pending_eq_some.mp hi
  rcases h.slots j hj with hempty | ⟨-, hfull, hmax⟩
  · omega
  · exact ⟨hfull, hmax⟩

lemma RingInv.pending_head (h : RingInv o) :
    o.pending o.nextOut = if 0 ≤ (o.buff o.head).id then some (o.buff o.head) else none := by
  have hhead := h.head
  rw [ChunkOutput.pending, if_pos ⟨le_rfl, by omega⟩, ChunkOutput.ahead, sub_self, Int.toNat_zero,
    Nat.add_zero, Nat.mod_eq_of_lt hhead]

/-- The window of a ring has moved on to `n`, and what it has left behind is written. -/
structure Advanced (o o' : ChunkOutput) (res : ℤ) (written : List Chunk) : Prop where
  inv : RingInv o'
  le : o.nextOut ≤ o'.nextOut
  buffLength : o'.buffLength = o.buffLength
  reorder : o'.reorder = o.reorder
  head : o'.head = (o.head + (o'.nextOut - o.nextOut).toNat) % o.buffLength
  pending : o'.pending = waitingFrom o.pending o'.nextOut
  writes : written = emit o.pending o.nextOut o'.nextOut
  count : res = written.length
  extra : ∀ p, (o'.buff p).extra = (o.buff p).extra

lemma RingInv.advanced_refl (h : RingInv o) : Advanced o o 0 [] where
  inv := h
  le := le_rfl
  buffLength := rfl
  reorder := rfl
  head := by simp [Nat.mod_eq_of_lt h.head]
  pending := by
    funext i
    rw [waitingFrom]
    split_ifs with hi
    · rw [ChunkOutput.pending, if_neg (by omega)]
    · rfl
  writes := by simp
  count := rfl
  extra _ := rfl

lemma Advanced.trans {res res' : ℤ} {written written' : List Chunk}
    (h : Advanced o o' res written) (h' : Advanced o' o'' res' written') :
    Advanced o o'' (res + res') (written ++ written') where
  inv := h'.inv
  le := h.le.trans h'.le
  buffLength := h'.buffLength.trans h.buffLength
  reorder := h'.reorder.trans h.reorder
  head := by
    have h₁ := h.le
    have h₂ := h'.le
    rw [h'.head, h.head, h.buffLength, Nat.mod_add_mod]
    congr 1
    omega
  pending := by rw [h'.pending, h.pending, waitingFrom_waitingFrom h'.le]
  writes := by
    rw [h.writes, h'.writes, h.pending, emit_waitingFrom le_rfl, emit_append h.le h'.le]
  count := by rw [h.count, h'.count, List.length_append, Nat.cast_add]
  extra p := (h'.extra p).trans (h.extra p)

section Shift

variable {buff : ℕ → Chunk}

/-- A ring whose head moves on by one, where only the slot at the old head has changed. -/
lemma ChunkOutput.shift_ahead (hhead : o.head < o.buffLength)
    (hother : ∀ p, p ≠ o.head → buff p = o.buff p) {j : ℕ} (hj : j < o.buffLength) :
    buff (((o.head + 1) % o.buffLength + j) % o.buffLength)
      = if j + 1 = o.buffLength then buff o.head else o.ahead (j + 1) := by
  rw [Nat.mod_add_mod, Nat.add_assoc, Nat.add_comm 1 j]
  split_ifs with hlast
  · rw [hlast, Nat.add_mod_right, Nat.mod_eq_of_lt hhead]
  · refine hother _ fun he => ?_
    have hzero := ring_injective (h := o.head) (k := 0) (by omega : j + 1 < o.buffLength) (by omega)
      (by rw [he, Nat.add_zero, Nat.mod_eq_of_lt hhead])
    omega

/-- If the slot at the old head is empty then, it is a ring again. -/
lemma RingInv.shift (h : RingInv o) (h₀ : 0 ≤ o.nextOut)
    (hother : ∀ p, p ≠ o.head → buff p = o.buff p) (hself : (buff o.head).id = -1) :
    RingInv { o with buff, nextOut := o.nextOut + 1, head := (o.head + 1) % o.buffLength } := by
  have hhead := h.head
  refine ⟨Nat.mod_lt _ (by omega), h.short, by simp only; omega, fun j hj => ?_⟩
  simp only [ChunkOutput.ahead] at hj ⊢
  rw [ChunkOutput.shift_ahead hhead hother hj]
  split_ifs with hlast
  · exact Or.inl hself
  · rcases h.slots (j + 1) (by omega) with hempty | ⟨-, hfull, hroom⟩
    · exact Or.inl hempty
    · right
      push_cast at hfull hroom
      exact ⟨by omega, by omega, by omega⟩

/-- What waits in it is what waited above the id at the old head. -/
lemma ChunkOutput.shift_pending (hhead : o.head < o.buffLength)
    (hother : ∀ p, p ≠ o.head → buff p = o.buff p) (hself : (buff o.head).id = -1) :
    ({ o with buff, nextOut := o.nextOut + 1, head := (o.head + 1) % o.buffLength }
      : ChunkOutput).pending = waitingFrom o.pending (o.nextOut + 1) := by
  funext i
  refine Option.ext fun d => ?_
  rw [waitingFrom]
  split_ifs with hi
  · rw [ChunkOutput.pending, if_neg (by simp only at hi ⊢; omega)]
    simp
  · rw [ChunkOutput.pending_eq_some, ChunkOutput.pending_eq_some]
    simp only [ChunkOutput.ahead] at hi ⊢
    constructor
    · rintro ⟨j, hj, rfl, hd, hid⟩
      rw [shift_ahead hhead hother hj] at hd
      split_ifs at hd with hlast
      · rw [← hd, hself] at hid
        omega
      · exact ⟨j + 1, by omega, by push_cast; omega, hd, hid⟩
    · rintro ⟨j, hj, rfl, hd, hid⟩
      refine ⟨j - 1, by omega, by omega, ?_, hid⟩
      rw [shift_ahead hhead hother (by omega), if_neg (by omega), ChunkOutput.ahead,
        Nat.sub_add_cancel (by omega)]
      exact hd

end Shift

/-- **Sending the next id** moves the window by one. -/
lemma RingInv.sendNext (h : RingInv o) (h₀ : 0 ≤ o.nextOut) (hmax : o.nextOut + 1 ≤ INT_MAX) :
    ∃ o' res written, outputSendNext o = .ok (o', res, written)
      ∧ Advanced o o' res written ∧ o'.nextOut = o.nextOut + 1 := by
  have hhead := h.head
  have hmin : INT_MIN ≤ o.nextOut + 1 := by rw [INT_MIN]; omega
  have hslot : o.slot o.head = .ok (o.buff o.head) := by simp [ChunkOutput.slot, hhead]
  have hmod : cmod (o.head + 1) o.buffLength = .ok ((o.head + 1) % o.buffLength) :=
    cmod_ok (by omega) (by omega)
  have hcast : (((o.head : ℤ) + 1) % o.buffLength).toNat = (o.head + 1) % o.buffLength :=
    Int.toNat_natCast ((o.head + 1) % o.buffLength)
  -- the chunk in the slot at the head is taken out, if there is one
  obtain ⟨buff, hbuff⟩ : ∃ buff, buff = if 0 ≤ (o.buff o.head).id
      then Function.update o.buff o.head (chunkDeinit (o.buff o.head)) else o.buff := ⟨_, rfl⟩
  have hother : ∀ p, p ≠ o.head → buff p = o.buff p := by
    intro p hp
    rw [hbuff]
    split_ifs <;> simp [hp]
  have hself : (buff o.head).id = -1 := by
    rw [hbuff]
    split_ifs with hid
    · simp
    · have hzero := h.slots 0 (by omega)
      simp only [ChunkOutput.ahead, Nat.add_zero, Nat.mod_eq_of_lt hhead] at hzero
      omega
  have hextra : ∀ p, (buff p).extra = (o.buff p).extra := by
    intro p
    by_cases hp : p = o.head
    · rw [hbuff, hp]
      split_ifs <;> simp
    · rw [hother p hp]
  refine ⟨{ o with buff, nextOut := o.nextOut + 1, head := (o.head + 1) % o.buffLength },
    (o.pending o.nextOut).toList.length, (o.pending o.nextOut).toList, ?_, ?_, rfl⟩
  · rw [outputSendNext, hslot, h.pending_head]
    by_cases hid : 0 ≤ (o.buff o.head).id
    · simp [hid, ChunkOutput.store, cint_ok hmin hmax, hmod, hcast, hbuff]
    · simp [hid, cint_ok hmin hmax, hmod, hcast, hbuff]
  · exact ⟨h.shift h₀ hother hself, by simp only; omega, rfl, rfl, by simp,
      ChunkOutput.shift_pending hhead hother hself, by simp, rfl, hextra⟩

/-- Flushing moves the window by as many ids. -/
lemma RingInv.flush (h : RingInv o) (h₀ : 0 ≤ o.nextOut) (len : ℕ)
    (hmax : o.nextOut + len ≤ INT_MAX) :
    ∃ o' res written, outputBuffFlush o len = .ok (o', res, written)
      ∧ Advanced o o' res written ∧ o'.nextOut = o.nextOut + len := by
  induction len generalizing o with
  | zero => exact ⟨o, 0, [], rfl, h.advanced_refl, by simp⟩
  | succ len ih =>
      push_cast at hmax
      obtain ⟨o₁, res₁, written₁, hs₁, ha₁, hn₁⟩ := h.sendNext h₀ (by omega)
      obtain ⟨o₂, res₂, written₂, hs₂, ha₂, hn₂⟩ := ih ha₁.inv (by omega) (by omega)
      refine ⟨o₂, res₁ + res₂, written₁ ++ written₂, ?_, ha₁.trans ha₂, by push_cast; omega⟩
      rw [outputBuffFlush, hs₁]
      simp only [Eval.ok_bind, hs₂]
      rfl

/-- Draining moves the window to the next id that is missing, if one is. -/
lemma RingInv.drain (h : RingInv o) (h₀ : 0 ≤ o.nextOut)
    (hgap : ∃ i, o.nextOut ≤ i ∧ i ≤ INT_MAX ∧ o.pending i = none) :
    ∃ o' res written, outputDrain o = .ok (o', res, written) ∧ Advanced o o' res written
      ∧ (∀ i, o.nextOut ≤ i → i < o'.nextOut → o.pending i ≠ none)
      ∧ o'.pending o'.nextOut = none := by
  -- every round empties a slot
  induction hocc : o.occupied using Nat.strong_induction_on generalizing o with
  | _ k ih =>
      by_cases hready : o.Ready
      · have hpend : o.pending o.nextOut = some (o.buff o.head) := by
          rw [h.pending_head]
          exact if_pos hready
        obtain ⟨i, hi, hmax, hnone⟩ := hgap
        have hne : o.nextOut ≠ i := by
          rintro rfl
          rw [hpend] at hnone
          cases hnone
        obtain ⟨o₁, res₁, written₁, hs₁, ha₁, hn₁⟩ := h.sendNext h₀ (by omega)
        have hgap₁ : ∃ i, o₁.nextOut ≤ i ∧ i ≤ INT_MAX ∧ o₁.pending i = none :=
          ⟨i, by omega, hmax, by rw [ha₁.pending, waitingFrom, if_neg (by omega), hnone]⟩
        obtain ⟨o₂, res₂, written₂, hs₂, ha₂, hfull, hnext⟩ :=
          ih o₁.occupied (hocc ▸ outputSendNext_occupied hready hs₁) ha₁.inv (by omega) hgap₁ rfl
        refine ⟨o₂, res₁ + res₂, written₁ ++ written₂, ?_, ha₁.trans ha₂, fun i hi hlt => ?_, hnext⟩
        · rw [outputDrain_of_ready hready hs₁, hs₂]
          rfl
        · by_cases he : i = o.nextOut
          · simp [he, hpend]
          · have hfull' := hfull i (by omega) hlt
            rwa [ha₁.pending, waitingFrom, if_neg (by omega)] at hfull'
      · refine ⟨o, 0, [], outputDrain_of_not_ready hready, h.advanced_refl,
          fun i hi hlt => by omega, ?_⟩
        rw [h.pending_head]
        exact if_neg hready

/-- The position of a chunk: that of its id in the window, wherever the window ends. -/
lemma RingInv.position (h : RingInv o) (hlate : o.nextOut ≤ c.id)
    (hpos : o.head + c.id ≤ INT_MAX) (h₀ : 0 ≤ o.nextOut) :
    cint (o.head + c.id) = .ok (o.head + c.id)
      ∧ cint (o.head + c.id - o.nextOut) = .ok (o.head + c.id - o.nextOut)
      ∧ cmod (o.head + c.id - o.nextOut) o.buffLength
        = .ok ((o.head + (c.id - o.nextOut).toNat) % o.buffLength : ℕ) := by
  have hhead := h.head
  have hmin : INT_MIN ≤ 0 := by decide
  refine ⟨cint_ok (by omega) (by omega), cint_ok (by omega) (by omega), ?_⟩
  rw [cmod_ok (by omega) (by omega)]
  push_cast
  congr 2
  omega

/-- **Making room** moves the window so far that the chunk fits; the position of the chunk stays
what it was, and the reset of the head changes nothing. -/
lemma RingInv.freeSpace (h : RingInv o) (h₀ : 0 ≤ o.nextOut) (hlate : o.nextOut ≤ c.id)
    (hid : c.id ≤ INT_MAX) (hbound : o.nextOut + o.buffLength ≤ INT_MAX) :
    ∃ o' res written,
      outputFreeSpace o c ((o.head + (c.id - o.nextOut).toNat) % o.buffLength : ℕ)
        = .ok (o', res, written) ∧ Advanced o o' res written
      ∧ o'.nextOut = max o.nextOut (c.id - o.buffLength + 1)
      ∧ (o'.head + (c.id - o'.nextOut).toNat) % o.buffLength
        = (o.head + (c.id - o.nextOut).toNat) % o.buffLength := by
  have hhead := h.head
  have hmin : INT_MIN ≤ -INT_MAX := by decide
  rw [outputFreeSpace, cint_ok (by omega) (by omega)]
  simp only [Eval.ok_bind]
  split_ifs with hfar
  · rw [cint_ok (z := c.id - o.nextOut) (by omega) (by omega)]
    simp only [Eval.ok_bind]
    rw [cint_ok (z := c.id - o.nextOut - o.buffLength) (by omega) (by omega)]
    simp only [Eval.ok_bind]
    rw [cint_ok (by omega) (by omega)]
    simp only [Eval.ok_bind]
    obtain ⟨len, hlen⟩ : ∃ len : ℕ, (len : ℤ) = c.id - o.nextOut - o.buffLength + 1 :=
      ⟨_, Int.toNat_of_nonneg (by omega)⟩
    obtain ⟨o₁, res, written, hs, ha, hn⟩ := h.flush h₀ len (by omega)
    have hpos : o.head + (c.id - o.nextOut).toNat + 1 = o.head + len + o.buffLength := by omega
    -- the position after the last one of the window is its first one
    have hreset : ((o.head + (c.id - o.nextOut).toNat) % o.buffLength + 1) % o.buffLength
        = o₁.head := by
      rw [Nat.mod_add_mod, hpos, Nat.add_mod_right, ha.head, hn]
      congr 2
      omega
    have hcast : ((((o.head + (c.id - o.nextOut).toNat) % o.buffLength : ℕ) + 1 : ℤ)
        % o.buffLength).toNat = o₁.head := by
      rw [← hreset]
      exact Int.toNat_natCast (((o.head + (c.id - o.nextOut).toNat) % o.buffLength + 1)
        % o.buffLength)
    have hmod : cmod (((o.head + (c.id - o.nextOut).toNat) % o.buffLength : ℕ) + 1) o₁.buffLength
        = .ok ((((o.head + (c.id - o.nextOut).toNat) % o.buffLength : ℕ) + 1 : ℤ)
          % o.buffLength) := by
      rw [ha.buffLength]
      exact cmod_ok (by omega) (by omega)
    refine ⟨o₁, res, written, ?_, ha, by omega, ?_⟩
    · rw [← hlen, Int.toNat_natCast, hs]
      simp only [Eval.ok_bind, hmod, hcast, Eval.pure_eq_ok]
    · have hlast : (c.id - o₁.nextOut).toNat + 1 = o.buffLength := by omega
      rw [ha.head, hn, Nat.mod_add_mod]
      congr 1
      omega
  · exact ⟨o, 0, [], rfl, h.advanced_refl, by omega, rfl⟩

section Fill

variable {d : Chunk} {j : ℕ}

/-- A ring in which one slot is filled. -/
lemma ChunkOutput.fill_ahead (hj : j < o.buffLength) {k : ℕ} (hk : k < o.buffLength) :
    Function.update o.buff ((o.head + j) % o.buffLength) d ((o.head + k) % o.buffLength)
      = if k = j then d else o.ahead k := by
  split_ifs with he
  · rw [he, Function.update_self]
  · exact Function.update_of_ne (fun hkp => he (ring_injective hk hj hkp)) _ _

lemma RingInv.fill (h : RingInv o) (h₀ : 0 ≤ o.nextOut) (hj : j < o.buffLength)
    (hid : d.id = o.nextOut + j) (hfit : d.id ≤ INT_MAX) :
    RingInv { o with buff := Function.update o.buff ((o.head + j) % o.buffLength) d } := by
  refine ⟨h.head, h.short, h.next, fun k hk => ?_⟩
  simp only [ChunkOutput.ahead] at hk ⊢
  rw [ChunkOutput.fill_ahead hj hk]
  split_ifs with he
  · exact Or.inr ⟨h₀, by omega, by omega⟩
  · exact h.slots k hk

/-- If the slot was empty, the chunk takes its place. -/
lemma ChunkOutput.fill_pending (h₀ : 0 ≤ o.nextOut) (hj : j < o.buffLength)
    (hid : d.id = o.nextOut + j) (hempty : (o.ahead j).id = -1) :
    ({ o with buff := Function.update o.buff ((o.head + j) % o.buffLength) d }
      : ChunkOutput).pending = place Chunk.id o.pending d := by
  have hnone : o.pending d.id = none := by
    refine Option.eq_none_iff_forall_ne_some.mpr fun e he => ?_
    obtain ⟨k, hk, hkj, rfl, hid'⟩ := ChunkOutput.pending_eq_some.mp he
    obtain rfl : k = j := by omega
    omega
  funext i
  refine Option.ext fun e => ?_
  rw [place_eq_some, ChunkOutput.pending_eq_some, ChunkOutput.pending_eq_some]
  simp only [ChunkOutput.ahead]
  constructor
  · rintro ⟨k, hk, rfl, hd, hid'⟩
    rw [fill_ahead hj hk] at hd
    split_ifs at hd with he
    · refine Or.inr ⟨by omega, ?_, hd.symm⟩
      rw [he, ← hid]
      exact hnone
    · exact Or.inl ⟨k, hk, rfl, hd, hid'⟩
  · rintro (⟨k, hk, rfl, hd, hid'⟩ | ⟨rfl, -, rfl⟩)
    · refine ⟨k, hk, rfl, ?_, hid'⟩
      rw [fill_ahead hj hk, if_neg]
      · exact hd
      · rintro rfl
        rw [← hd, ← ChunkOutput.ahead] at hid'
        omega
    · exact ⟨j, hj, hid, by rw [fill_ahead hj hj, if_pos rfl], by omega⟩

end Fill

/-- Placing a chunk in the window. -/
lemma RingInv.placeAt (h : RingInv o) (h₀ : 0 ≤ o.nextOut) (hlo : o.nextOut ≤ c.id)
    (hhi : c.id < o.nextOut + o.buffLength) (hfit : c.id ≤ INT_MAX) {p : ℕ}
    (hp : p = (o.head + (c.id - o.nextOut).toNat) % o.buffLength) :
    ∃ buff, outputPlace o c p = .ok { o with buff } ∧ RingInv { o with buff }
      ∧ ({ o with buff } : ChunkOutput).pending
        = place Chunk.id o.pending (chunkClone (o.buff p) c)
      ∧ ∀ p, (buff p).extra = (o.buff p).extra := by
  obtain ⟨j, hj⟩ : ∃ j : ℕ, c.id = o.nextOut + j := ⟨(c.id - o.nextOut).toNat, by omega⟩
  have hjL : j < o.buffLength := by omega
  have hsub : (c.id - o.nextOut).toNat = j := by omega
  rw [hsub] at hp
  have hthere : o.buff p = o.ahead j := by rw [hp, ChunkOutput.ahead]
  have hpL : p < o.buffLength := hp ▸ Nat.mod_lt _ (by omega)
  have hslot : o.slot p = .ok (o.buff p) := by simp [ChunkOutput.slot, hpL]
  rw [outputPlace, hslot]
  by_cases hsame : c.id = (o.buff p).id
  · refine ⟨o.buff, by simp [hsame], h, ?_, fun _ => rfl⟩
    have hpend : o.pending c.id = some (o.buff p) :=
      ChunkOutput.pending_eq_some.mpr ⟨j, hjL, hj, hthere.symm, by omega⟩
    rw [place, chunkClone_id, hpend, Option.getD_some, ← hpend, Function.update_eq_self]
  · have hempty : (o.ahead j).id = -1 := by
      rcases h.slots j hjL with he | ⟨-, he, -⟩
      · exact he
      · rw [← hthere] at he
        omega
    have hid : (chunkClone (o.buff p) c).id = o.nextOut + j := by rw [chunkClone_id, hj]
    have hinv := h.fill h₀ hjL hid (by rw [chunkClone_id]; exact hfit)
    have hpending := ChunkOutput.fill_pending h₀ hjL hid hempty
    rw [← hp] at hinv hpending
    refine ⟨Function.update o.buff p (chunkClone (o.buff p) c), ?_, hinv, hpending, fun p' => ?_⟩
    · simp [hsame, ChunkOutput.store]
    · by_cases he : p' = p
      · simp [he]
      · simp [he]

/-- Where the window starts for a chunk: the first chunk of all sets `next_out`. -/
def ChunkOutput.start (o : ChunkOutput) (c : Chunk) : ℤ := if o.nextOut < 0 then c.id else o.nextOut

/-- There is room for the arithmetic of a delivery: for the position of the chunk, for the end of
the window, and for the id after those that are sent. -/
structure ChunkOutput.Fits (o : ChunkOutput) (c : Chunk) : Prop where
  position : o.head + c.id ≤ INT_MAX
  bound : o.start c + o.buffLength ≤ INT_MAX
  gap : c.id = INT_MAX → ∃ i, INT_MAX - o.buffLength < i ∧ i < INT_MAX ∧ o.pending i = none

/-- An id that leaves room for a window after it is far from all that. -/
lemma RingInv.fits (h : RingInv o) (hlate : o.nextOut ≤ c.id)
    (hfit : c.id + o.buffLength ≤ INT_MAX) : o.Fits c := by
  have hhead := h.head
  refine ⟨by omega, ?_, fun hmax => by omega⟩
  rw [ChunkOutput.start]
  split_ifs <;> omega

/-- Where the chunk has been placed, an id is missing that the drain stops at. -/
lemma ChunkOutput.Fits.exists_gap {d : Chunk} {n : ℤ} (h : o.Fits c) (h₀ : 0 ≤ o.nextOut)
    (hmax : c.id ≤ INT_MAX) (hd : d.id = c.id)
    (hn : n = max o.nextOut (c.id - o.buffLength + 1)) :
    ∃ i, n ≤ i ∧ i ≤ INT_MAX ∧ waitingFrom (place Chunk.id o.pending d) n i = none := by
  have hbound : o.nextOut + o.buffLength ≤ INT_MAX := by
    simpa only [ChunkOutput.start, if_neg (not_lt.mpr h₀)] using h.bound
  obtain ⟨i, hi, hle, hne, hnone⟩ : ∃ i, n ≤ i ∧ i ≤ INT_MAX ∧ i ≠ c.id ∧ o.pending i = none := by
    by_cases hlast : c.id = INT_MAX
    · obtain ⟨i, hlo, hhi, hnone⟩ := h.gap hlast
      exact ⟨i, by omega, hhi.le, by omega, hnone⟩
    · refine ⟨INT_MAX, by omega, le_rfl, fun he => hlast he.symm, ?_⟩
      rw [ChunkOutput.pending, if_neg (by omega)]
  refine ⟨i, hi, hle, ?_⟩
  rw [waitingFrom, if_neg (by omega), place, Function.update_of_ne (by rw [hd]; exact hne), hnone]

/-- What the delivery of a chunk does that is not late: a turn of the window, in which the chunk is
cloned into its slot. -/
structure Delivered (o : ChunkOutput) (c : Chunk) (o' : ChunkOutput) (res : ℤ)
    (written : List Chunk) (slot : Chunk) : Prop where
  inv : RingInv o'
  buffLength : o'.buffLength = o.buffLength
  reorder : o'.reorder = o.reorder
  count : res = written.length
  turn : Turn Chunk.id o.buffLength (o.start c) o.pending (chunkClone slot c) o'.nextOut o'.pending
    written
  next : o'.pending o'.nextOut = none
  nextOut : 0 ≤ o'.nextOut
  head : o'.head = (o.head + (o'.nextOut - o.start c).toNat) % o.buffLength
  slot : slot.extra = (o.buff ((o.head + (c.id - o.start c).toNat) % o.buffLength)).extra
  extra : ∀ p, (o'.buff p).extra = (o.buff p).extra

/-- **A delivery is a turn**, once `next_out` has been set. -/
lemma RingInv.deliver (h : RingInv o) (hreorder : o.reorder = true) (h₀ : 0 ≤ o.nextOut)
    (hlate : o.nextOut ≤ c.id) (hmax : c.id ≤ INT_MAX) (hfits : o.Fits c) :
    ∃ o' res written slot, outputDeliver o c = .ok (o', res, written)
      ∧ Delivered o c o' res written slot := by
  have hhead := h.head
  have hstart : o.start c = o.nextOut := if_neg (by omega)
  obtain ⟨hp₁, hp₂, hp₃⟩ := h.position hlate hfits.position h₀
  obtain ⟨o₁, res₁, written₁, hs₁, ha₁, hn₁, hpos⟩ :=
    h.freeSpace h₀ hlate hmax (hstart ▸ hfits.bound)
  obtain ⟨p, hp⟩ : ∃ p, p = (o.head + (c.id - o.nextOut).toNat) % o.buffLength := ⟨_, rfl⟩
  obtain ⟨buff, hs₂, hi₂, hpend, hextra⟩ := ha₁.inv.placeAt (c := c) (p := p) (by omega) (by omega)
    (by rw [ha₁.buffLength]; omega) hmax (by rw [ha₁.buffLength, hp, hpos])
  have hplace : ({ o₁ with buff } : ChunkOutput).pending
      = waitingFrom (place Chunk.id o.pending (chunkClone (o₁.buff p) c)) o₁.nextOut := by
    rw [hpend, ha₁.pending]
    exact place_waitingFrom (by rw [chunkClone_id]; omega)
  obtain ⟨o₃, res₃, written₃, hs₃, ha₃, hfull, hnext⟩ := hi₂.drain (by simp only; omega) (by
    rw [hplace]
    exact hfits.exists_gap h₀ hmax (chunkClone_id _ _) hn₁)
  have hle₃ := ha₃.le
  simp only at hle₃ hfull
  refine ⟨o₃, res₁ + res₃, written₁ ++ written₃, o₁.buff p, ?_, ha₃.inv,
    ha₃.buffLength.trans ha₁.buffLength, ha₃.reorder.trans ha₁.reorder, ?_, ?_, hnext,
    by omega, ?_, ?_, fun p => (ha₃.extra p).trans ((hextra p).trans (ha₁.extra p))⟩
  · rw [← hp] at hs₁ hp₃
    have hneg : ¬ o.nextOut < 0 := by omega
    rw [outputDeliver, if_pos hreorder, if_pos hlate]
    simp only [hneg, if_false, hp₁, hp₂, hp₃, hs₁, hs₂, hs₃, Eval.ok_bind, Eval.pure_eq_ok]
  · rw [ha₁.count, ha₃.count, List.length_append, Nat.cast_add]
  · rw [hstart]
    refine ⟨by omega, ?_, ?_, fun m hm hlt hnone => ?_⟩
    · have hbefore : emit (place Chunk.id o.pending (chunkClone (o₁.buff p) c)) o.nextOut o₁.nextOut
          = emit o.pending o.nextOut o₁.nextOut := by
        refine emit_congr fun i hi hlt => Function.update_of_ne ?_ _ _
        rw [chunkClone_id]
        omega
      rw [ha₁.writes, ha₃.writes, hplace, emit_waitingFrom le_rfl, ← hbefore]
      exact emit_append (by omega) (by omega)
    · rw [ha₃.pending, hplace, waitingFrom_waitingFrom (by omega)]
    · rw [chunkClone_id]
      by_cases hm₁ : m < o₁.nextOut
      · omega
      · refine absurd ?_ (hfull m (by omega) hlt)
        rw [hplace, waitingFrom, if_neg hm₁, hnone]
  · rw [hstart, ha₃.head]
    simp only [ha₁.head, ha₁.buffLength, Nat.mod_add_mod]
    congr 1
    omega
  · rw [hstart, ha₁.extra, hp]

/-- Before the first delivery nothing waits. -/
lemma RingInv.pending_of_neg (h : RingInv o) (hneg : o.nextOut < 0) (i : ℤ) :
    o.pending i = none := by
  refine Option.eq_none_iff_forall_ne_some.mpr fun d hd => ?_
  obtain ⟨j, hj, -, rfl, hid⟩ := ChunkOutput.pending_eq_some.mp hd
  rcases h.slots j hj with hempty | ⟨h₀, -, -⟩
  · omega
  · omega

/-- **A delivery is a turn** of the window, also the first one. -/
theorem outputDeliver_turn (h : RingInv o) (hreorder : o.reorder = true) (hid : 0 ≤ c.id)
    (hlate : o.nextOut ≤ c.id) (hmax : c.id ≤ INT_MAX) (hfits : o.Fits c) :
    ∃ o' res written slot, outputDeliver o c = .ok (o', res, written)
      ∧ Delivered o c o' res written slot := by
  by_cases hneg : o.nextOut < 0
  · have hempty : ∀ j < o.buffLength, (o.ahead j).id = -1 := fun j hj =>
      (h.slots j hj).resolve_right fun hfull => by omega
    have hinv : RingInv { o with nextOut := c.id } :=
      ⟨h.head, h.short, by simp only; omega, fun j hj => Or.inl (hempty j hj)⟩
    have hpend : ({ o with nextOut := c.id } : ChunkOutput).pending = o.pending := by
      funext i
      rw [h.pending_of_neg hneg]
      refine Option.eq_none_iff_forall_ne_some.mpr fun d hd => ?_
      obtain ⟨j, hj, -, rfl, hid'⟩ := ChunkOutput.pending_eq_some.mp hd
      have := hempty j hj
      simp only [ChunkOutput.ahead] at this hid'
      omega
    have hstart : ({ o with nextOut := c.id } : ChunkOutput).start c = o.start c := by
      simp [ChunkOutput.start, hneg]
    have hfits' : ({ o with nextOut := c.id } : ChunkOutput).Fits c :=
      ⟨hfits.position, by rw [hstart]; exact hfits.bound, by rw [hpend]; exact hfits.gap⟩
    obtain ⟨o', res, written, slot, hs, hd⟩ := hinv.deliver hreorder hid le_rfl hmax hfits'
    refine ⟨o', res, written, slot, ?_, hd.inv, hd.buffLength, hd.reorder, hd.count, ?_, hd.next,
      hd.nextOut, ?_, ?_, hd.extra⟩
    · have hsame : ¬ c.id < 0 := by omega
      rw [outputDeliver, if_pos hreorder, if_pos le_rfl] at hs
      rw [outputDeliver, if_pos hreorder, if_pos hlate]
      simp only [hneg, if_true]
      simpa only [hsame, if_false] using hs
    · rw [← hstart, ← hpend]
      exact hd.turn
    · rw [← hstart]
      exact hd.head
    · rw [← hstart]
      exact hd.slot
  · exact h.deliver hreorder (by omega) hlate hmax hfits

/-- A chunk that is late is dropped. -/
lemma outputDeliver_late (hreorder : o.reorder = true) (hlate : c.id < o.nextOut) :
    outputDeliver o c = .ok (o, 0, []) := by
  rw [outputDeliver, if_pos hreorder, if_neg (by omega)]
  rfl

/-- A new buffer is a window. -/
lemma outputCreate_ringInv {outbuffSize outbuffReorder : ℤ} {memory : ℕ → Chunk}
    (h : 1 ≤ (outputCreate outbuffSize outbuffReorder memory).buffLength) :
    RingInv (outputCreate outbuffSize outbuffReorder memory) where
  head := h
  short := Nat.mod_lt _ (by decide)
  next := le_rfl
  slots _ _ := Or.inl rfl

end Ring

/-! ## The contents of the ring -/

/-- The chunks in the buffer, slot by slot. -/
def ChunkOutput.stored (o : ChunkOutput) : List Chunk :=
  ((List.range o.buffLength).map o.buff).filter fun c => 0 ≤ c.id

/-- Going round the ring from the head visits every slot. -/
lemma range_rotate_perm {h n : ℕ} (hpos : 0 < n) :
    ((List.range n).map fun j => (h + j) % n).Perm (List.range n) := by
  have hnodup : ((List.range n).map fun j => (h + j) % n).Nodup :=
    List.nodup_range.map_on fun j hj k hk he =>
      ring_injective (List.mem_range.mp hj) (List.mem_range.mp hk) he
  refine (List.subperm_of_subset hnodup fun p hp => ?_).perm_of_length_le (by simp)
  obtain ⟨j, -, rfl⟩ := List.mem_map.mp hp
  exact List.mem_range.mpr (Nat.mod_lt _ hpos)

/-- The chunks in the buffer are those of the window. -/
lemma RingInv.stored_perm {o : ChunkOutput} (h : RingInv o) :
    o.stored.Perm (emit o.pending o.nextOut (o.nextOut + o.buffLength)) := by
  have hhead := h.head
  have hwindow : emit o.pending o.nextOut (o.nextOut + o.buffLength)
      = ((List.range o.buffLength).map o.ahead).filter fun c => 0 ≤ c.id := by
    rw [emit, add_sub_cancel_left, Int.toNat_natCast, ← List.filterMap_eq_filter,
      List.filterMap_map]
    refine List.filterMap_congr fun j hj => ?_
    have hj' := List.mem_range.mp hj
    rw [ChunkOutput.pending, if_pos ⟨by omega, by omega⟩, add_sub_cancel_left, Int.toNat_natCast]
    simp [Option.guard]
  rw [hwindow, ChunkOutput.stored]
  have hrotate := (range_rotate_perm (h := o.head) (by omega : 0 < o.buffLength)).map o.buff
  rw [List.map_map] at hrotate
  exact (hrotate.symm).filter _

/-- A chunk is in the buffer at most once, and only when it waits. -/
lemma RingInv.count_stored {o : ChunkOutput} (h : RingInv o) (i : ℤ) :
    (o.stored.map Chunk.id).count i = if (o.pending i).isSome then 1 else 0 := by
  have hkey : ∀ i c, o.pending i = some c → c.id = i := fun i c hc => (h.pending_id hc).1
  rw [(h.stored_perm.map Chunk.id).count_eq]
  have hone := List.nodup_iff_count_le_one.mp
    ((emit_sorted hkey o.nextOut (o.nextOut + o.buffLength)).imp ne_of_lt) i
  split_ifs with hsome
  · obtain ⟨c, hc⟩ := Option.isSome_iff_exists.mp hsome
    obtain ⟨j, hj, hi, -, -⟩ := ChunkOutput.pending_eq_some.mp hc
    have hmem : i ∈ (emit o.pending o.nextOut (o.nextOut + o.buffLength)).map Chunk.id :=
      List.mem_map.mpr ⟨c, mem_emit.mpr ⟨i, by omega, by omega, hc⟩, hkey i c hc⟩
    have := List.count_pos_iff.mpr hmem
    omega
  · refine List.count_eq_zero.mpr fun hmem => hsome ?_
    obtain ⟨c, hc, rfl⟩ := List.mem_map.mp hmem
    obtain ⟨j, -, -, hj⟩ := mem_emit.mp hc
    rw [hkey j c hj, hj]
    rfl

end PeerStreamer
