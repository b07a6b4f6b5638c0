import PeerStreamer.NetHelper.NodeDump

/-!
# Node texts at their limits

`nodeid_dump` is told how many bytes it may write, and compares that with the length of the address
and six, room for a separator and a port of five digits.  The text has a dash and a NUL besides:
from four digits on there are limits that pass the test and are too small
(`nodeidDump_keepsTo_iff`).

`nodeid_undump` uses what `strchr` and `strrchr` find without a test, so that it works on the texts
with a dash and a colon before it, and on no others (`nodeidUndump_survives_iff`).
-/

namespace PeerStreamer

/-! ## Limits -/

/-- For every buffer of `max` bytes, the function returns, and either answers -1 and has written
nothing, or has written inside of the buffer only. -/
def KeepsTo (max : ℕ) (write : Bytes → ℕ → Eval (Bytes × ℤ)) : Prop :=
  ∀ mem b, b + max ≤ mem.length → ∃ mem' res, write mem b = .ok (mem', res)
    ∧ (res = -1 ∧ mem' = mem ∨ SameOutside b max mem mem')

/-! ## `nodeid_dump` and `node_addr` -/

/-- `node_addr`; the buffer is given by its offset, and NULL is none. -/
def nodeAddr (mem : Bytes) (s : Option NodeID) (addr : Option ℕ) (len : ℤ) : Eval (Bytes × ℤ) :=
  match addr with
  | none => return (mem, -1)
  | some b =>
      if len > 0 then
        match s with
        | some s => do
            let (mem, n) ← nodeidDump mem b s len.toNat
            if n > 0 then do
              let mem ← writeAt mem (b + (n.toNat - 1)) [0]
              return (mem, n)
            else return (mem, n)
        | none => do
            let text := "None".toUTF8.toList
            let mem ← writeAt mem b (text.take (len.toNat - 1) ++ [0])
            return (mem, text.length)
      else return (mem, -1)

/-- The limit is too small for the test, or there is room for the address, the separator, the port,
the dash and the NUL. -/
def NodeID.DumpFits (s : NodeID) (max : ℕ) : Prop :=
  max < s.ip.length + 6 ∨ s.ip.length + (formatInt s.port).length + 3 ≤ max

section Dump

variable {s : NodeID} {mem : Bytes} {b max : ℕ} {len : ℤ}

lemma NodeID.dumpText_length (s : NodeID) :
    s.dumpText.length = s.ip.length + (formatInt s.port).length + 2 := by
  simp only [NodeID.dumpText, List.length_append, List.length_cons, List.length_nil]
  omega

/-- Below the limit of the test, nothing is written. -/
lemma nodeidDump_refused (h : max < s.ip.length + 6) :
    nodeidDump mem b s max = .ok (mem, -1) :=
  if_neg (by omega)

/-- Where the text and its NUL fit, they are written. -/
lemma nodeidDump_written (h : s.ip.length + 6 ≤ max)
    (hfits : s.ip.length + (formatInt s.port).length + 3 ≤ max) (hroom : b + max ≤ mem.length) :
    ∃ mem', nodeidDump mem b s max = .ok (mem', s.dumpText.length)
      ∧ SameOutside b max mem mem' := by
  have hlen : b + (s.dumpText ++ [0]).length ≤ b + max := by
    rw [List.length_append, NodeID.dumpText_length, List.length_singleton]
    omega
  obtain ⟨mem', hwrite, hsame⟩ := writeAt_sameOutside le_rfl hlen hroom
  refine ⟨mem', ?_, hsame⟩
  rw [nodeidDump, if_pos (by omega), hwrite]
  rfl

/-- Where they do not and the test is passed, they are written beyond the end of a memory that ends
with the buffer. -/
lemma nodeidDump_overrun (h : ¬s.DumpFits max) :
    nodeidDump (List.replicate max 0) 0 s max = .error .outOfBounds := by
  rw [NodeID.DumpFits, not_or] at h
  have hlen : (List.replicate max (0 : UInt8)).length < 0 + (s.dumpText ++ [0]).length := by
    rw [List.length_replicate, List.length_append, NodeID.dumpText_length, List.length_singleton]
    omega
  rw [nodeidDump, if_pos (by omega), writeAt_error hlen]
  rfl

/-- **`nodeid_dump`** keeps to its limit. -/
theorem nodeidDump_keepsTo_iff (s : NodeID) (max : ℕ) :
    KeepsTo max (fun mem b => nodeidDump mem b s max) ↔ s.DumpFits max := by
  constructor
  · intro h
    by_contra hover
    obtain ⟨mem', res, hdump, -⟩ := h (List.replicate max 0) 0 (by simp)
    cases (nodeidDump_overrun hover).symm.trans hdump
  · intro h mem b hroom
    by_cases hmax : max < s.ip.length + 6
    · exact ⟨mem, -1, nodeidDump_refused hmax, Or.inl ⟨rfl, rfl⟩⟩
    · obtain ⟨mem', hdump, hsame⟩ :=
        nodeidDump_written (not_lt.mp hmax) (h.resolve_left hmax) hroom
      exact ⟨mem', _, hdump, Or.inr hsame⟩

lemma nodeAddr_of_nonpos (hlen : len ≤ 0) (s : Option NodeID) (addr : Option ℕ) :
    nodeAddr mem s addr len = .ok (mem, -1) := by
  cases addr with
  | none => rfl
  | some b => exact if_neg (not_lt.mpr hlen)

/-- **`node_addr`** of a node keeps to its limit. -/
lemma nodeAddr_keepsTo_iff (s : NodeID) (len : ℤ) :
    KeepsTo len.toNat (fun mem b => nodeAddr mem (some s) (some b) len)
      ↔ s.DumpFits len.toNat := by
  by_cases hlen : 0 < len
  · constructor
    · intro h
      by_contra hover
      obtain ⟨mem', res, hdump, -⟩ := h (List.replicate len.toNat 0) 0 (by simp)
      simp only [nodeAddr, gt_iff_lt, hlen, if_true, nodeidDump_overrun hover,
        Eval.error_bind] at hdump
      cases hdump
    · intro h mem b hroom
      by_cases hmax : len.toNat < s.ip.length + 6
      · refine ⟨mem, -1, ?_, Or.inl ⟨rfl, rfl⟩⟩
        simp only [nodeAddr, gt_iff_lt, hlen, if_true, nodeidDump_refused hmax, Eval.ok_bind,
          Eval.pure_eq_ok]
        rfl
      · obtain ⟨mem₁, hdump, hsame⟩ :=
          nodeidDump_written (not_lt.mp hmax) (h.resolve_left hmax) hroom
        -- the dash is overwritten
        have hpos : (0 : ℤ) < s.dumpText.length := by
          rw [NodeID.dumpText_length]
          omega
        have hlast : b + (s.dumpText.length - 1) + [(0 : UInt8)].length ≤ b + len.toNat := by
          have hfits := h.resolve_left hmax
          rw [NodeID.dumpText_length, List.length_singleton]
          omega
        obtain ⟨mem', hwrite, hsame'⟩ :=
          writeAt_sameOutside (Nat.le_add_right b _) hlast (hsame.1.symm ▸ hroom)
        refine ⟨mem', s.dumpText.length, ?_, Or.inr (hsame.trans hsame')⟩
        simp only [nodeAddr, gt_iff_lt, hlen, if_true, hdump, Eval.ok_bind, hpos,
          Int.toNat_natCast, hwrite, Eval.pure_eq_ok]
  · have hzero : len.toNat = 0 := by omega
    refine iff_of_true (fun mem b _ => ⟨mem, -1, ?_, Or.inl ⟨rfl, rfl⟩⟩) (Or.inl (by omega))
    exact nodeAddr_of_nonpos (not_lt.mp hlen) _ _

/-- So does `node_addr` of no node. -/
lemma nodeAddr_none_keepsTo (len : ℤ) :
    KeepsTo len.toNat (fun mem b => nodeAddr mem none (some b) len) := by
  intro mem b hroom
  by_cases hlen : 0 < len
  · have hroom' : b + ("None".toUTF8.toList.take (len.toNat - 1) ++ [0]).length
        ≤ b + len.toNat := by
      rw [List.length_append, List.length_take, List.length_singleton]
      omega
    obtain ⟨mem', hwrite, hsame⟩ := writeAt_sameOutside le_rfl hroom' hroom
    refine ⟨mem', "None".toUTF8.toList.length, ?_, Or.inr hsame⟩
    simp only [nodeAddr, gt_iff_lt, hlen, if_true, hwrite, Eval.ok_bind, Eval.pure_eq_ok]
  · exact ⟨mem, -1, nodeAddr_of_nonpos (not_lt.mp hlen) _ _, Or.inl ⟨rfl, rfl⟩⟩

end Dump

/-- **What is promised of a limit.**  `nodeid_dump` keeps to it, and so does `node_addr` when it is
given it as its `len`, which may also be negative. -/
def NodeID.LimitKept (s : NodeID) (max : ℕ) : Prop :=
  KeepsTo max (fun mem b => nodeidDump mem b s max)
    ∧ ∀ len : ℤ, len.toNat = max →
      KeepsTo max (fun mem b => nodeAddr mem (some s) (some b) len)
        ∧ KeepsTo max (fun mem b => nodeAddr mem none (some b) len)

/-- **The limit** is kept exactly where the text fits or is refused. -/
theorem limitKept_iff (s : NodeID) (max : ℕ) : s.LimitKept max ↔ s.DumpFits max := by
  constructor
  · intro h
    exact (nodeidDump_keepsTo_iff s max).mp h.1
  · intro h
    refine ⟨(nodeidDump_keepsTo_iff s max).mpr h, ?_⟩
    rintro len rfl
    exact ⟨(nodeAddr_keepsTo_iff s len).mpr h, nodeAddr_none_keepsTo len⟩

/-- `10.0.0.1:6000-` and its NUL are written into fourteen bytes. -/
theorem not_limitKept : ¬∀ (s : NodeID) (max : ℕ), s.LimitKept max := by
  intro hall
  obtain ⟨hdump, -⟩ := hall ⟨"10.0.0.1".toUTF8.toList, 6000, -1⟩ 14
  obtain ⟨mem', res, hdump, -⟩ := hdump (List.replicate 14 0) 0 (by decide)
  have herror : nodeidDump (List.replicate 14 0) 0 ⟨"10.0.0.1".toUTF8.toList, 6000, -1⟩ 14
      = .error .outOfBounds := by
    decide +kernel
  cases herror.symm.trans hdump

/-! ## `nodeid_undump` -/

/-- A string, without its NUL. -/
abbrev CText := { s : Bytes // 0 ∉ s }

/-- The value of a `ptrdiff_t` as an `int`. -/
def intOfPtrdiff (n : ℕ) : ℤ :=
  if (n % 2 ^ 32 : ℤ) ≤ INT_MAX then n % 2 ^ 32 else n % 2 ^ 32 - 2 ^ 32

variable (net : Inet)

/-- The second half of `nodeid_undump`: `len` bytes are copied, and the last one made a NUL. -/
def undumpSocket (b : Bytes) (len : ℤ) : Eval (Option SockAddr) :=
  -- there is no memory of a negative size, and no last byte of none
  if len < 0 then .error .nullDereference
  else if len = 0 then .error .outOfBounds
  else
    let socket := b.take (len.toNat - 1)
    match strrchr COLON socket with
    | none => .error .nullDereference
    | some ptr => do
        let port ← atoi (socket.drop (ptr + 1))
        return createNode net (some (socket.take ptr)) port

/-- `nodeid_undump` with the `int` it stores in `len`. -/
def nodeidUndumpInt (mem : Bytes) (b : ℕ) : Eval (Option SockAddr × ℤ) := do
  match ← strchr DASH (mem.drop b) with
  | none => .error .nullDereference
  | some i => do
      let node ← undumpSocket net (mem.drop b) (intOfPtrdiff (i + 1))
      return (node, intOfPtrdiff (i + 1))

/-- **What is promised of a string**, wherever it lies: without a dash or without a colon before
the first one the answer is NULL, and otherwise `len` is the offset behind that dash. -/
def UndumpSurvives (s : CText) : Prop :=
  ∀ before rest : Bytes,
    if DASH ∈ s.val ∧ COLON ∈ s.val.take (s.val.idxOf DASH) then
      ∃ node, nodeidUndumpInt net (before ++ (s.val ++ 0 :: rest)) before.length
        = .ok (node, s.val.idxOf DASH + 1)
    else
      ∃ len, nodeidUndumpInt net (before ++ (s.val ++ 0 :: rest)) before.length = .ok (none, len)

/-- An address, a colon, the number of a port that is an `int`, and the first dash, at an offset
that is an `int`. -/
def Undumpable (s : Bytes) : Prop :=
  ∃ ip port rest, s = ip ++ COLON :: port ++ DASH :: rest ∧ DASH ∉ ip ++ COLON :: port
    ∧ COLON ∉ port ∧ ((ip ++ COLON :: port).length : ℤ) + 1 ≤ INT_MAX ∧ ∃ p, atoi port = .ok p

section Undump

variable {net} {text rest mem : Bytes} {len : ℤ} {b i n : ℕ}

lemma intOfPtrdiff_le (n : ℕ) : intOfPtrdiff n ≤ INT_MAX := by
  rw [intOfPtrdiff]
  split_ifs with hn
  · exact hn
  · rw [INT_MAX]
    omega

lemma intOfPtrdiff_eq (h : (n : ℤ) ≤ INT_MAX) : intOfPtrdiff n = n := by
  have hmod : (n % 2 ^ 32 : ℤ) = n := by
    rw [INT_MAX] at h
    omega
  rw [intOfPtrdiff, hmod, if_pos h]

/-- A `len` is at most the offset it is made of. -/
lemma intOfPtrdiff_toNat_le (n : ℕ) : (intOfPtrdiff n).toNat ≤ n := by
  by_cases hn : (n : ℤ) ≤ INT_MAX
  · rw [intOfPtrdiff_eq hn, Int.toNat_natCast]
  · have hle := intOfPtrdiff_le n
    omega

lemma idxOf_append_cons {c : UInt8} (hc : c ∉ text) (rest : Bytes) :
    (text ++ c :: rest).idxOf c = text.length := by
  rw [List.idxOf_append_of_notMem hc, List.idxOf_cons_self, Nat.add_zero]

variable (net) in
/-- Without a colon, the pointer `strrchr` has not found is used. -/
lemma undumpSocket_colonless (hcolon : COLON ∉ text) (hlen : len.toNat ≤ text.length + 1)
    (rest : Bytes) : ∃ e, undumpSocket net (text ++ rest) len = .error e := by
  rw [undumpSocket]
  split_ifs
  · exact ⟨_, rfl⟩
  · exact ⟨_, rfl⟩
  · have hnone : COLON ∉ (text ++ rest).take (len.toNat - 1) := by
      rw [List.take_append_of_le_length (by omega)]
      exact fun hmem => hcolon (List.mem_of_mem_take hmem)
    simp only [strrchr, if_neg hnone]
    exact ⟨_, rfl⟩

/-- With one, the last one parts the address from the port. -/
lemma undumpSocket_eq {ip port : Bytes} (hport : COLON ∉ port) (rest : Bytes) :
    undumpSocket net (ip ++ COLON :: port ++ rest) ((ip ++ COLON :: port).length + 1)
      = (do
          let p ← atoi port
          return createNode net (some ip) p) := by
  generalize htext : ip ++ COLON :: port = text
  have htake : (text ++ rest).take (((text.length : ℤ) + 1).toNat - 1) = text := by
    rw [show ((text.length : ℤ) + 1).toNat - 1 = text.length by omega, List.take_left]
  rw [undumpSocket, if_neg (by omega), if_neg (by omega)]
  simp only [htake]
  rw [← htext, strrchr_append hport]
  simp only [List.take_left, List.drop_append, List.drop_eq_nil_of_le (Nat.le_succ _),
    Nat.add_sub_cancel_left, List.nil_append, List.drop_one, List.tail_cons]

/-- **Reading up to the first dash.** -/
lemma nodeidUndumpInt_found (hdash : DASH ∉ text) (hnul : 0 ∉ text) (before rest : Bytes) :
    nodeidUndumpInt net (before ++ (text ++ DASH :: rest)) before.length
      = (do
          let node ← undumpSocket net (text ++ DASH :: rest) (intOfPtrdiff (text.length + 1))
          return (node, intOfPtrdiff (text.length + 1))) := by
  simp only [nodeidUndumpInt, List.drop_left, strchr_append hdash hnul, Eval.ok_bind]

/-- Up to an offset that is an `int`, it does what `nodeidUndump` does. -/
lemma nodeidUndumpInt_eq (hfound : strchr DASH (mem.drop b) = .ok (some i))
    (hi : (i : ℤ) + 1 ≤ INT_MAX) :
    nodeidUndumpInt net mem b = (do
      let (node, len) ← nodeidUndump net mem b
      return (node, len)) := by
  have hlen : intOfPtrdiff (i + 1) = i + 1 := intOfPtrdiff_eq (by exact_mod_cast hi)
  have htake : ((i : ℤ) + 1).toNat - 1 = i := by omega
  rw [nodeidUndumpInt, nodeidUndump, hfound]
  simp only [Eval.ok_bind, hlen, undumpSocket, if_neg (show ¬(i : ℤ) + 1 < 0 by omega),
    if_neg (show ¬(i : ℤ) + 1 = 0 by omega), htake]
  cases strrchr COLON ((mem.drop b).take i) with
  | none => rfl
  | some ptr => cases h : atoi (((mem.drop b).take i).drop (ptr + 1)) <;> simp [h]

/-- **Without a dash**, the pointer `strchr` has not found is used. -/
lemma nodeidUndumpInt_dashless {s : Bytes} (hdash : DASH ∉ s) (hnul : 0 ∉ s)
    (before rest : Bytes) :
    nodeidUndumpInt net (before ++ (s ++ 0 :: rest)) before.length = .error .nullDereference := by
  simp only [nodeidUndumpInt, List.drop_left, strchr_absent hdash (by decide) hnul, Eval.ok_bind]

variable (net) in
/-- **Without a colon before it**, no node is read. -/
lemma nodeidUndumpInt_colonless (hdash : DASH ∉ text) (hnul : 0 ∉ text) (hcolon : COLON ∉ text)
    (before rest : Bytes) :
    ∃ e, nodeidUndumpInt net (before ++ (text ++ DASH :: rest)) before.length = .error e := by
  obtain ⟨e, he⟩ := undumpSocket_colonless net hcolon
    (intOfPtrdiff_toNat_le (text.length + 1)) (DASH :: rest)
  rw [nodeidUndumpInt_found hdash hnul, he]
  exact ⟨e, rfl⟩

/-- **With both**, `len` is the offset behind the dash if and only if that is an `int` and the
number of the port is one. -/
lemma nodeidUndumpInt_ok_iff {ip port : Bytes} (hdash : DASH ∉ ip ++ COLON :: port)
    (hnul : 0 ∉ ip ++ COLON :: port) (hport : COLON ∉ port) (before rest : Bytes) :
    (∃ node, nodeidUndumpInt net (before ++ (ip ++ COLON :: port ++ DASH :: rest)) before.length
        = .ok (node, (ip ++ COLON :: port).length + 1))
      ↔ ((ip ++ COLON :: port).length : ℤ) + 1 ≤ INT_MAX ∧ ∃ p, atoi port = .ok p := by
  rw [nodeidUndumpInt_found hdash hnul]
  constructor
  · rintro ⟨node, h⟩
    obtain ⟨node', hsocket, heq⟩ := Eval.bind_eq_ok.mp h
    have hlen := (Prod.mk.inj (Except.ok.inj heq)).2
    rw [hlen, undumpSocket_eq hport] at hsocket
    obtain ⟨p, hp, -⟩ := Eval.bind_eq_ok.mp hsocket
    exact ⟨hlen ▸ intOfPtrdiff_le _, p, hp⟩
  · rintro ⟨hlen, p, hp⟩
    have hlen' := intOfPtrdiff_eq (n := (ip ++ COLON :: port).length + 1) (by exact_mod_cast hlen)
    refine ⟨createNode net (some ip) p, ?_⟩
    rw [hlen', Nat.cast_add_one, undumpSocket_eq hport, hp]
    rfl

end Undump

/-- **`nodeid_undump`** does what is promised exactly for the texts it was made for. -/
theorem nodeidUndump_survives_iff (s : CText) : UndumpSurvives net s ↔ Undumpable s.val := by
  obtain ⟨s, hnul⟩ := s
  constructor
  · intro h
    have h := h [] []
    by_cases hdash : DASH ∈ s
    · obtain ⟨text, rest, rfl, hdash'⟩ := List.eq_append_cons_of_mem hdash
      have hnul' : 0 ∉ text := fun hmem => hnul (List.mem_append_left _ hmem)
      rw [idxOf_append_cons hdash', List.take_left, List.append_assoc, List.cons_append] at h
      by_cases hcolon : COLON ∈ text
      · rw [if_pos ⟨hdash, hcolon⟩] at h
        obtain ⟨ip, port, rfl, hport⟩ := exists_last hcolon
        exact ⟨ip, port, rest, rfl, hdash', hport,
          (nodeidUndumpInt_ok_iff hdash' hnul' hport [] (rest ++ [0])).mp h⟩
      · rw [if_neg fun hboth => hcolon hboth.2] at h
        obtain ⟨len, h⟩ := h
        obtain ⟨e, herror⟩ := nodeidUndumpInt_colonless net hdash' hnul' hcolon [] (rest ++ [0])
        cases herror.symm.trans h
    · rw [if_neg fun hboth => hdash hboth.1] at h
      obtain ⟨len, h⟩ := h
      cases (nodeidUndumpInt_dashless hdash hnul [] []).symm.trans h
  · rintro ⟨ip, port, rest, rfl, hdash, hport, hread⟩ before rest'
    have hnul' : 0 ∉ ip ++ COLON :: port := fun hmem => hnul (List.mem_append_left _ hmem)
    rw [idxOf_append_cons hdash, List.take_left, if_pos ⟨by simp, by simp⟩, List.append_assoc,
      List.cons_append]
    exact (nodeidUndumpInt_ok_iff hdash hnul' hport before _).mpr hread

/-- A text without its dash. -/
theorem not_undumpSurvives : ¬∀ s : CText, UndumpSurvives plainInet s := by
  intro hall
  have h := hall ⟨"10.0.0.1:6000".toUTF8.toList, by decide +kernel⟩ [] []
  rw [if_neg (by decide +kernel)] at h
  obtain ⟨len, h⟩ := h
  have herror : nodeidUndumpInt plainInet ("10.0.0.1:6000".toUTF8.toList ++ [0]) 0
      = .error .nullDereference := by
    decide +kernel
  cases herror.symm.trans h

end PeerStreamer
