import PeerStreamer.Foundation.SortedList

/-!
# Node identifiers

`struct nodeID` of `net_helper-x.c`, as far as the network code reads it: the address, through the
text `node_ip` writes for it and the number `node_port` returns, and the socket.  `nodeid_cmp`
orders nodes by that text and then by the port, so two `NodeID`s can be equal for `nodeid_equal`
while their sockets differ: the node a datagram came from has none (`fd = -1`).
-/

namespace PeerStreamer

/-- `struct nodeID`; `ip` is the text of the address, without its final NUL. -/
structure NodeID where
  ip : List UInt8
  port : ℤ
  fd : ℤ
  deriving DecidableEq, Repr

/-- `strcmp`, up to the magnitude of a non-zero answer at the end of a string. -/
def strcmp : List UInt8 → List UInt8 → ℤ
  | [], [] => 0
  | [], _ :: _ => -1
  | _ :: _, [] => 1
  | a :: as, b :: bs => if a = b then strcmp as bs else (a.toNat : ℤ) - b.toNat

/-- `nodeid_cmp` on two nodes (its shortcut for equal pointers gives the same answer). -/
def nodeidCmp (s₁ s₂ : NodeID) : ℤ :=
  let res := strcmp s₁.ip s₂.ip
  if res = 0 then s₁.port - s₂.port else res

/-- `nodeid_equal` on two nodes. -/
def nodeidEqual (s₁ s₂ : NodeID) : Bool := nodeidCmp s₁ s₂ = 0

/-! ## The order on nodes -/

lemma strcmp_self (a : List UInt8) : strcmp a a = 0 := by
  induction a with
  | nil => rfl
  | cons x a ih => simpa [strcmp] using ih

lemma strcmp_eq_zero : ∀ {a b : List UInt8}, strcmp a b = 0 ↔ a = b
  | [], [] => by simp [strcmp]
  | [], _ :: _ => by simp [strcmp]
  | _ :: _, [] => by simp [strcmp]
  | x :: a, y :: b => by
      by_cases h : x = y
      · simp [strcmp, h, strcmp_eq_zero]
      · have : x.toNat ≠ y.toNat := fun he => h (UInt8.toNat_inj.mp he)
        simp only [strcmp, h, if_false, List.cons.injEq, false_and, iff_false]
        omega

lemma strcmp_swap : ∀ a b : List UInt8, strcmp a b < 0 ↔ 0 < strcmp b a
  | [], [] => by simp [strcmp]
  | [], _ :: _ => by simp [strcmp]
  | _ :: _, [] => by simp [strcmp]
  | x :: a, y :: b => by
      by_cases h : x = y
      · simpa [strcmp, h] using strcmp_swap a b
      · simp only [strcmp, h, Ne.symm h, if_false]
        omega

lemma strcmp_trans : ∀ a b c : List UInt8, strcmp a b ≤ 0 → strcmp b c ≤ 0 → strcmp a c ≤ 0
  | [], _, [], _, _ => by simp [strcmp]
  | [], _, _ :: _, _, _ => by simp [strcmp]
  | _ :: _, [], _, h, _ => by simp [strcmp] at h
  | _ :: _, _ :: _, [], _, h => by simp [strcmp] at h
  | x :: a, y :: b, z :: c, h₁, h₂ => by
      by_cases hxy : x = y
      · subst hxy
        by_cases hxz : x = z
        · subst hxz
          simp only [strcmp, if_true] at h₁ h₂ ⊢
          exact strcmp_trans a b c h₁ h₂
        · simpa [strcmp, hxz] using h₂
      · simp only [strcmp, hxy, if_false] at h₁
        by_cases hyz : y = z
        · subst hyz
          simpa [strcmp, hxy] using h₁
        · have hne : x.toNat ≠ y.toNat := fun he => hxy (UInt8.toNat_inj.mp he)
          simp only [strcmp, hyz, if_false] at h₂
          have hxz : x ≠ z := by rintro rfl; omega
          simp only [strcmp, hxz, if_false]
          omega

lemma nodeidCmp_lawful : LawfulCmp nodeidCmp := by
  constructor
  · intro a b
    have h := strcmp_swap a.ip b.ip
    have h' := strcmp_swap b.ip a.ip
    simp only [nodeidCmp]
    split_ifs <;> omega
  · intro a b c
    have h := strcmp_trans a.ip b.ip c.ip
    simp only [nodeidCmp]
    by_cases hab : strcmp a.ip b.ip = 0
    · by_cases hbc : strcmp b.ip c.ip = 0
      · have hac : strcmp a.ip c.ip = 0 :=
          strcmp_eq_zero.mpr ((strcmp_eq_zero.mp hab).trans (strcmp_eq_zero.mp hbc))
        simp only [hab, hbc, hac, if_true]
        omega
      · rw [strcmp_eq_zero.mp hab]
        simp only [hbc, if_false]
        exact fun _ h => h
    · by_cases hbc : strcmp b.ip c.ip = 0
      · rw [strcmp_eq_zero.mp hbc] at hab ⊢
        simp only [hab, if_false]
        exact fun h _ => h
      · simp only [hab, hbc, if_false]
        intro h₁ h₂
        have hac : strcmp a.ip c.ip ≠ 0 := by
          intro he
          have := strcmp_swap a.ip b.ip
          rw [strcmp_eq_zero.mp he] at this hab
          rw [strcmp_eq_zero.mp he] at h₁
          omega
        simpa [hac] using h h₁ h₂

/-- Two nodes compare equal when text and port agree, whatever their sockets. -/
lemma nodeidCmp_eq_zero {s₁ s₂ : NodeID} :
    nodeidCmp s₁ s₂ = 0 ↔ s₁.ip = s₂.ip ∧ s₁.port = s₂.port := by
  rw [nodeidCmp]
  by_cases h : strcmp s₁.ip s₂.ip = 0
  · simp only [strcmp_eq_zero.mp h, strcmp_self, if_true, true_and]
    omega
  · simp only [h, if_false, false_iff, not_and]
    exact fun he => absurd (strcmp_eq_zero.mpr he) h

lemma nodeidEqual_iff {s₁ s₂ : NodeID} :
    nodeidEqual s₁ s₂ = true ↔ s₁.ip = s₂.ip ∧ s₁.port = s₂.port := by
  rw [nodeidEqual, decide_eq_true_iff, nodeidCmp_eq_zero]

@[simp] lemma nodeidEqual_self (s : NodeID) : nodeidEqual s s = true :=
  nodeidEqual_iff.mpr ⟨rfl, rfl⟩

lemma nodeidEqual_comm (s₁ s₂ : NodeID) : nodeidEqual s₁ s₂ = nodeidEqual s₂ s₁ := by
  rw [Bool.eq_iff_iff, nodeidEqual_iff, nodeidEqual_iff]
  exact ⟨fun h => ⟨h.1.symm, h.2.symm⟩, fun h => ⟨h.1.symm, h.2.symm⟩⟩

end PeerStreamer
