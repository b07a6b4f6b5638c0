import PeerStreamer.Foundation.Run
import PeerStreamer.NetHelper.Address

/-!
# Node identifiers as text

`nodeid_dump` and `nodeid_undump` of `net_helper-x.c`.  A node is written as `address:port-`.  An
IPv6 address has colons of its own, so the port is found from the right, after the first dash has
been found from the left: texts written one after the other are read back one by one, whatever
follows the last (`dumps_read_back`).
-/

namespace PeerStreamer

variable (net : Inet)

/-! ## Writing and reading -/

/-- The text `sprintf` writes for a node, without its NUL. -/
def NodeID.dumpText (s : NodeID) : Bytes := s.ip ++ COLON :: (formatInt s.port ++ [DASH])

/-- `nodeid_dump`, to the offset `b`. -/
def nodeidDump (mem : Bytes) (b : ℕ) (s : NodeID) (maxWriteSize : ℕ) : Eval (Bytes × ℤ) :=
  if maxWriteSize ≥ s.ip.length + 1 + 5 then do
    let mem ← writeAt mem b (s.dumpText ++ [0])
    return (mem, s.dumpText.length)
  else return (mem, -1)

/-- `nodeid_undump`, from the offset `b`: the node, and what it stores in `len`. -/
def nodeidUndump (mem : Bytes) (b : ℕ) : Eval (Option SockAddr × ℕ) := do
  match ← strchr DASH (mem.drop b) with
  | none => .error .nullDereference
  | some len =>
      let socket := (mem.drop b).take len
      match strrchr COLON socket with
      | none => .error .nullDereference
      | some ptr =>
          let port ← atoi (socket.drop (ptr + 1))
          return (createNode net (some (socket.take ptr)) port, len + 1)

/-- A dump behind the one before it. -/
def dumpStep (st : Bytes × ℕ) (s : NodeID) : Eval ((Bytes × ℕ) × ℤ) := do
  let (mem, res) ← nodeidDump st.1 st.2 s (st.1.length - st.2)
  return ((mem, st.2 + res.toNat), res)

/-- An undump behind the one before it. -/
def undumpStep (mem : Bytes) (b : ℕ) (_ : Unit) : Eval (ℕ × Option SockAddr × ℕ) := do
  let (node, len) ← nodeidUndump net mem b
  return (b + len, node, len)

/-- The nodes are dumped into the buffer, one after the other; and whatever follows the last dump,
as many undumps read what each dump has returned, and answer with nodes equal to those dumped. -/
def DumpsReadBack (nodes : List SockAddr) (mem : Bytes) : Prop :=
  ∃ mem' last lens, exec dumpStep (mem, 0) (nodes.map (NodeID.ofAddr net))
      = .ok ((mem', last), lens)
    ∧ ∀ rest, ∃ answers, exec (undumpStep net (mem'.take last ++ rest)) 0
        (List.replicate nodes.length ()) = .ok (last, answers)
      ∧ answers.map (fun answer => (answer.2 : ℤ)) = lens
      ∧ List.Forall₂ (fun a (answer : Option SockAddr × ℕ) => ∃ a', answer.1 = some a'
        ∧ nodeidEqual (.ofAddr net a) (.ofAddr net a') = true) nodes answers

/-! ## One node -/

section OneNode

variable {net}

/-- A character that is no digit is not in the text of a port. -/
lemma not_mem_decimal {c : UInt8} (hc : isdigit c = false) (n : ℕ) : c ∉ numeral 10 n := by
  intro hmem
  rw [isdigit_of_mem_decimal hmem] at hc
  cases hc

/-- The text of a node is that of its address and that of its port. -/
lemma dumpText_ofAddr (family : Family) (port : UInt8 × UInt8) (addr : BitVec family.bits) :
    (NodeID.ofAddr net (.ip family port addr)).dumpText
      = (nodeIp net (.ip family port addr) ++ COLON :: numeral 10 (ntohs port).toNat)
        ++ [DASH] := by
  rw [NodeID.dumpText, NodeID.ofAddr, nodePort, formatInt,
    if_neg (not_lt.mpr (ntohs_bounds port).1), List.append_assoc]
  rfl

/-- A port takes at most five characters. -/
lemma dumpText_length_le (family : Family) (port : UInt8 × UInt8) (addr : BitVec family.bits) :
    (NodeID.ofAddr net (.ip family port addr)).dumpText.length
      ≤ (nodeIp net (.ip family port addr)).length + 7 := by
  have hport : (numeral 10 (ntohs port).toNat).length ≤ 5 :=
    numeral_length_le (by decide) (by decide) (by have := ntohs_bounds port; omega)
  rw [dumpText_ofAddr]
  simp only [List.length_append, List.length_cons, List.length_nil]
  omega

/-- **Reading a node back**, whatever lies before and behind its text. -/
theorem nodeidUndump_dumpText (hnet : net.Lawful) (family : Family) (port : UInt8 × UInt8)
    (addr : BitVec family.bits) (before rest : Bytes) :
    nodeidUndump net
        (before ++ (NodeID.ofAddr net (.ip family port addr)).dumpText ++ rest) before.length
      = .ok (some (.ip family port addr),
        (NodeID.ofAddr net (.ip family port addr)).dumpText.length) := by
  obtain ⟨hdash, hnul⟩ := not_mem_nodeIp hnet family port addr
  have hport : atoi (numeral 10 (ntohs port).toNat) = .ok (ntohs port) := by
    have hbounds := ntohs_bounds port
    rw [atoi_decimal (by rw [INT_MAX]; omega), Int.toNat_of_nonneg hbounds.1]
  have hcreate := createNode_nodeIp hnet family port addr
  rw [dumpText_ofAddr]
  generalize nodeIp net (.ip family port addr) = ip at hdash hnul hcreate ⊢
  generalize hdigits : numeral 10 (ntohs port).toNat = digits at hport ⊢
  have hdash' : DASH ∉ ip ++ COLON :: digits := by
    rw [← hdigits]
    simp [hdash, not_mem_decimal, show DASH ≠ COLON by decide, show isdigit DASH = false by decide]
  have hnul' : 0 ∉ ip ++ COLON :: digits := by
    rw [← hdigits]
    simp [hnul, not_mem_decimal, show 0 ≠ COLON by decide, show isdigit 0 = false by decide]
  have hcolon : COLON ∉ digits := hdigits ▸ not_mem_decimal (by decide) _
  have hmem : (before ++ ((ip ++ COLON :: digits) ++ [DASH]) ++ rest).drop before.length
      = (ip ++ COLON :: digits) ++ DASH :: rest := by
    rw [List.append_assoc, List.drop_left, List.append_assoc, List.singleton_append]
  -- the first dash ends the text, and the last colon before it starts the port
  rw [nodeidUndump, hmem, strchr_append hdash' hnul']
  simp only [Eval.ok_bind, List.take_left, strrchr_append hcolon]
  rw [List.drop_append, List.drop_eq_nil_of_le (Nat.le_succ _), Nat.add_sub_cancel_left,
    List.nil_append, List.drop_one, List.tail_cons, hport, Eval.ok_bind, hcreate]
  simp [add_assoc]

/-- **Dumping a node** where there is room for it and its NUL. -/
lemma nodeidDump_eq {s : NodeID} {mem : Bytes} {b : ℕ} (hsize : s.dumpText.length ≤ s.ip.length + 7)
    (hroom : b + (s.ip.length + 7) < mem.length) :
    ∃ mem', nodeidDump mem b s (mem.length - b) = .ok (mem', s.dumpText.length)
      ∧ mem'.length = mem.length
      ∧ mem'.take (b + s.dumpText.length) = mem.take b ++ s.dumpText := by
  have hfits : b + (s.dumpText ++ [0]).length ≤ mem.length := by
    rw [List.length_append, List.length_singleton]
    omega
  obtain ⟨mem', hwrite, hlength, htake⟩ := writeAt_eq hfits
  refine ⟨mem', ?_, hlength, ?_⟩
  · rw [nodeidDump, if_pos (by omega), hwrite]
    rfl
  · rw [htake _ (by simp), List.take_left]

end OneNode

/-! ## One after the other -/

/-- The texts of the nodes. -/
def dumpTexts (nodes : List SockAddr) : Bytes :=
  nodes.flatMap fun a => (NodeID.ofAddr net a).dumpText

section Sequences

variable {net} {nodes : List SockAddr}

lemma dumpTexts_cons (a : SockAddr) (nodes : List SockAddr) :
    dumpTexts net (a :: nodes) = (NodeID.ofAddr net a).dumpText ++ dumpTexts net nodes :=
  List.flatMap_cons

/-- **The dumps** leave the texts, and return their lengths. -/
lemma exec_dumpStep (hnodes : ∀ a ∈ nodes, ∃ family port addr, a = .ip family port addr)
    {mem : Bytes} {b : ℕ}
    (hroom : b + (nodes.map fun a => (nodeIp net a).length + 7).sum < mem.length) :
    ∃ mem', exec dumpStep (mem, b) (nodes.map (NodeID.ofAddr net))
        = .ok ((mem', b + (dumpTexts net nodes).length),
          nodes.map fun a => ((NodeID.ofAddr net a).dumpText.length : ℤ))
      ∧ mem'.take (b + (dumpTexts net nodes).length) = mem.take b ++ dumpTexts net nodes := by
  induction nodes generalizing mem b with
  | nil => exact ⟨mem, rfl, by simp [dumpTexts]⟩
  | cons a nodes ih =>
      obtain ⟨⟨family, port, addr, ha⟩, hnodes⟩ := List.forall_mem_cons.mp hnodes
      rw [List.map_cons, List.sum_cons] at hroom
      have hsize : (NodeID.ofAddr net a).dumpText.length ≤ (nodeIp net a).length + 7 := by
        rw [ha]
        exact dumpText_length_le family port addr
      obtain ⟨mem₁, hdump, hlength, htake⟩ := nodeidDump_eq (s := NodeID.ofAddr net a) hsize
        (show b + ((nodeIp net a).length + 7) < mem.length by omega)
      obtain ⟨mem', hexec, htake'⟩ := ih hnodes
        (show b + (NodeID.ofAddr net a).dumpText.length
          + (nodes.map fun a => (nodeIp net a).length + 7).sum < mem₁.length by omega)
      have hstep : dumpStep (mem, b) (NodeID.ofAddr net a)
          = .ok ((mem₁, b + (NodeID.ofAddr net a).dumpText.length),
            ((NodeID.ofAddr net a).dumpText.length : ℤ)) := by
        rw [dumpStep, hdump]
        rfl
      have hlast : b + (dumpTexts net (a :: nodes)).length
          = b + (NodeID.ofAddr net a).dumpText.length + (dumpTexts net nodes).length := by
        rw [dumpTexts_cons, List.length_append, Nat.add_assoc]
      refine ⟨mem', exec_cons_eq_ok.mpr ⟨_, _, _, hstep, ?_, rfl⟩, ?_⟩
      · rw [hlast]
        exact hexec
      · rw [hlast, htake', htake, dumpTexts_cons, List.append_assoc]

/-- **The undumps** find one text behind the other. -/
lemma exec_undumpStep (hnet : net.Lawful)
    (hnodes : ∀ a ∈ nodes, ∃ family port addr, a = .ip family port addr) (before rest : Bytes) :
    exec (undumpStep net (before ++ dumpTexts net nodes ++ rest)) before.length
        (List.replicate nodes.length ())
      = .ok (before.length + (dumpTexts net nodes).length,
        nodes.map fun a => (some a, (NodeID.ofAddr net a).dumpText.length)) := by
  induction nodes generalizing before with
  | nil => rfl
  | cons a nodes ih =>
      obtain ⟨⟨family, port, addr, ha⟩, hnodes⟩ := List.forall_mem_cons.mp hnodes
      have hmem : before ++ dumpTexts net (a :: nodes) ++ rest
          = before ++ (NodeID.ofAddr net a).dumpText ++ (dumpTexts net nodes ++ rest) := by
        rw [dumpTexts_cons, List.append_assoc, List.append_assoc, List.append_assoc]
      have hstep : undumpStep net (before ++ dumpTexts net (a :: nodes) ++ rest) before.length ()
          = .ok (before.length + (NodeID.ofAddr net a).dumpText.length, some a,
            (NodeID.ofAddr net a).dumpText.length) := by
        rw [undumpStep, hmem, ha, nodeidUndump_dumpText hnet]
        rfl
      have hrest := ih hnodes (before ++ (NodeID.ofAddr net a).dumpText)
      rw [List.length_append, List.append_assoc (before ++ _), ← hmem] at hrest
      refine exec_cons_eq_ok.mpr ⟨_, _, _, hstep, hrest.trans ?_, rfl⟩
      rw [dumpTexts_cons, List.length_append, Nat.add_assoc]

end Sequences

/-- **Dumps are read back.**  For every list of nodes made by `create_node`, and every buffer with
room for the longest texts and a NUL. -/
theorem dumps_read_back {net : Inet} (hnet : net.Lawful) {nodes : List SockAddr}
    (hcreated : ∀ a ∈ nodes, ∃ ipAddr port, createNode net ipAddr port = some a) {mem : Bytes}
    (hroom : (nodes.map fun a => (nodeIp net a).length + 7).sum < mem.length) :
    DumpsReadBack net nodes mem := by
  have hnodes : ∀ a ∈ nodes, ∃ family port addr, a = .ip family port addr := fun a ha => by
    obtain ⟨ipAddr, port, h⟩ := hcreated a ha
    exact eq_ip_of_createNode h
  obtain ⟨mem', hdumps, htake⟩ := exec_dumpStep hnodes
    (show 0 + (nodes.map fun a => (nodeIp net a).length + 7).sum < mem.length by omega)
  refine ⟨mem', _, _, hdumps, fun rest =>
    ⟨nodes.map fun a => (some a, (NodeID.ofAddr net a).dumpText.length), ?_, ?_, ?_⟩⟩
  · rw [htake]
    exact exec_undumpStep hnet hnodes [] rest
  · rw [List.map_map]
    rfl
  · rw [List.forall₂_map_right_iff]
    exact List.forall₂_same.mpr fun a _ => ⟨a, rfl, nodeidEqual_self _⟩

/-! ## Two nodes -/

/-- `10.0.0.1` and `2001:db8:1:2:3:4:5:6`. -/
def twoNodes : List SockAddr :=
  [.ip .inet (htons 6000) 0x0A000001#32,
    .ip .inet6 (htons 6001) 0x20010DB8000100020003000400050006#128]

example : twoNodes.map (fun a => (NodeID.ofAddr plainInet a).dumpText)
    = ["10.0.0.1:6000-".toUTF8.toList, "2001:db8:1:2:3:4:5:6:6001-".toUTF8.toList] := by
  decide +kernel

lemma twoNodes_created :
    ∀ a ∈ twoNodes, ∃ ipAddr port, createNode plainInet ipAddr port = some a := by
  intro a ha
  obtain ⟨family, port, addr, rfl⟩ : ∃ family port addr, a = .ip family port addr := by
    fin_cases ha <;> exact ⟨_, _, _, rfl⟩
  exact ⟨_, _, createNode_nodeIp plainInet_lawful family port addr⟩

/-- Into a buffer of eighty bytes. -/
theorem dumps_read_back_two : DumpsReadBack plainInet twoNodes (List.replicate 80 0) :=
  dumps_read_back plainInet_lawful twoNodes_created (by decide +kernel)

end PeerStreamer
