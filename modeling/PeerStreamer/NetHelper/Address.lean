import PeerStreamer.Foundation.CString
import PeerStreamer.NetHelper.NetMsg

/-!
# Addresses

`create_node`, `node_ip` and `node_port` of `net_helper-x.c`.  `getaddrinfo`, `inet_pton` and
`inet_ntop` are an argument, `Inet`, of which `Inet.Lawful` is assumed; `plainInet` has these
properties.
-/

namespace PeerStreamer

/-! ## The functions on addresses -/

/-- The address families the code knows: `AF_INET` and `AF_INET6`. -/
inductive Family
  | inet
  | inet6
  deriving DecidableEq, Repr

/-- The width of an address. -/
def Family.bits : Family → ℕ
  | inet => 32
  | inet6 => 128

/-- What `inet_pton` returns: 1 and the address, 0 if the text is none, or -1. -/
inductive PtonAnswer (n : ℕ)
  | converted (addr : BitVec n)
  | malformed
  | unsupported
  deriving DecidableEq

/-- The functions on numeric addresses.  `getaddrinfo` answers with an error, or with the family of
the address, none for one the code does not know; `inetNtop` with none for NULL. -/
structure Inet where
  getaddrinfo : Bytes → Except ℤ (Option Family)
  inetPton : (family : Family) → Bytes → PtonAnswer family.bits
  inetNtop : (family : Family) → BitVec family.bits → Option Bytes

def DASH : UInt8 := 45
def COLON : UInt8 := 58

/-- What is assumed: every address has a text, which stands for it and for nothing else, and holds
neither a dash nor a NUL. -/
structure Inet.Lawful (net : Inet) : Prop where
  inverse : ∀ family addr, ∃ text, net.inetNtop family addr = some text
    ∧ net.getaddrinfo text = .ok (some family) ∧ net.inetPton family text = .converted addr
  dash : ∀ family addr text, net.inetNtop family addr = some text → DASH ∉ text
  nul : ∀ family addr text, net.inetNtop family addr = some text → 0 ∉ text

/-! ## Nodes with an address -/

/-- `htons`: the two bytes of a port in the order of the network. -/
def htons (port : ℤ) : UInt8 × UInt8 := (.ofNat (port.toNat / 256), .ofNat port.toNat)

def ntohs (port : UInt8 × UInt8) : ℤ := port.1.toNat * 256 + port.2.toNat

/-- `struct sockaddr_storage`: as `empty_node` leaves it, or the address of one of the families. -/
inductive SockAddr
  | unspec
  | ip (family : Family) (port : UInt8 × UInt8) (addr : BitVec family.bits)
  deriving DecidableEq

variable (net : Inet)

/-- `node_ip` -/
def nodeIp : SockAddr → Bytes
  | .unspec => []
  | .ip family _ addr => (net.inetNtop family addr).getD []

/-- `node_port` -/
def nodePort : SockAddr → ℤ
  | .unspec => -1
  | .ip _ port _ => ntohs port

/-- A node with this address, and no socket. -/
def NodeID.ofAddr (a : SockAddr) : NodeID := ⟨nodeIp net a, nodePort a, -1⟩

/-- `create_node`.  A text that `getaddrinfo` takes for an address and `inet_pton` does not leaves
the address at zero. -/
def createNode (ipAddr : Option Bytes) (port : ℤ) : Option SockAddr :=
  match ipAddr with
  | none => none
  | some text =>
      if port ≥ 0 then
        match net.getaddrinfo text with
        | .error _ => none
        | .ok none => none
        | .ok (some family) =>
            match net.inetPton family text with
            | .converted addr => some (.ip family (htons port) addr)
            | .malformed => some (.ip family (htons port) 0)
            | .unsupported => none
      else none

section Addresses

variable {net} {a : SockAddr}

lemma ntohs_bounds (port : UInt8 × UInt8) : 0 ≤ ntohs port ∧ ntohs port < 65536 := by
  have h₁ := port.1.toNat_lt
  have h₂ := port.2.toNat_lt
  rw [ntohs]
  omega

/-- The order of the bytes is restored. -/
lemma htons_ntohs (port : UInt8 × UInt8) : htons (ntohs port) = port := by
  have h₁ := port.1.toNat_lt
  have h₂ := port.2.toNat_lt
  refine Prod.ext (UInt8.toNat_inj.mp ?_) (UInt8.toNat_inj.mp ?_) <;>
    simp only [htons, ntohs, UInt8.toNat_ofNat'] <;> omega

/-- A created node has an address. -/
lemma eq_ip_of_createNode {ipAddr : Option Bytes} {p : ℤ}
    (h : createNode net ipAddr p = some a) : ∃ family port addr, a = .ip family port addr := by
  unfold createNode at h
  split at h
  · cases h
  · split_ifs at h
    split at h
    · cases h
    · cases h
    · split at h
      · exact ⟨_, _, _, (Option.some.inj h).symm⟩
      · exact ⟨_, _, _, (Option.some.inj h).symm⟩
      · cases h

/-- The text of an address is created as the node it was written for. -/
lemma createNode_nodeIp (hnet : net.Lawful) (family : Family) (port : UInt8 × UInt8)
    (addr : BitVec family.bits) :
    createNode net (some (nodeIp net (.ip family port addr))) (ntohs port)
      = some (.ip family port addr) := by
  obtain ⟨text, htext, hfamily, haddr⟩ := hnet.inverse family addr
  simp only [createNode, nodeIp, htext, Option.getD_some, hfamily, haddr, htons_ntohs,
    if_pos (ntohs_bounds port).1]

/-- Neither a dash nor a NUL is in the text of an address. -/
lemma not_mem_nodeIp (hnet : net.Lawful) (family : Family) (port : UInt8 × UInt8)
    (addr : BitVec family.bits) :
    DASH ∉ nodeIp net (.ip family port addr) ∧ 0 ∉ nodeIp net (.ip family port addr) := by
  obtain ⟨text, htext, -⟩ := hnet.inverse family addr
  rw [nodeIp, htext, Option.getD_some]
  exact ⟨hnet.dash _ _ _ htext, hnet.nul _ _ _ htext⟩

end Addresses

/-! ## Addresses without abbreviations -/

/-- What stands between the fields of an address. -/
def Family.separator : Family → UInt8
  | inet => 46
  | inet6 => 58

/-- The base its fields are written in. -/
def Family.base : Family → ℕ
  | inet => 10
  | inet6 => 16

/-- What a field is smaller than. -/
def Family.fieldSize : Family → ℕ
  | inet => 256
  | inet6 => 65536

def Family.fieldCount : Family → ℕ
  | inet => 4
  | inet6 => 8

/-- All fields of an address, with no run of zeros left out. -/
def plainText (family : Family) (addr : BitVec family.bits) : Bytes :=
  joinFields family.separator family.base family.fieldSize family.fieldCount addr.toNat

/-- The address whose fields a text has. -/
def plainAddr (family : Family) (text : Bytes) : BitVec family.bits :=
  .ofNat _ (readFields family.separator family.base family.fieldSize text)

def EAI_NONAME : ℤ := -2

/-- The functions for texts of this form only. -/
def plainInet : Inet where
  getaddrinfo text :=
    if plainText .inet (plainAddr .inet text) = text then .ok (some .inet)
    else if plainText .inet6 (plainAddr .inet6 text) = text then .ok (some .inet6)
    else .error EAI_NONAME
  inetPton family text :=
    if plainText family (plainAddr family text) = text then .converted (plainAddr family text)
    else .malformed
  inetNtop family addr := some (plainText family addr)

lemma Family.separator_ne (family : Family) :
    ∀ d < family.base, family.separator ≠ digitChar d := by
  cases family <;> decide

lemma plainAddr_plainText (family : Family) (addr : BitVec family.bits) :
    plainAddr family (plainText family addr) = addr := by
  have hbase : 1 < family.base ∧ family.base ≤ 16 ∧ 0 < family.fieldCount := by
    cases family <;> decide
  have hfields : family.fieldSize ^ family.fieldCount = 2 ^ family.bits := by
    cases family <;> norm_num [Family.fieldSize, Family.fieldCount, Family.bits]
  have hlt : addr.toNat < family.fieldSize ^ family.fieldCount := hfields ▸ addr.isLt
  rw [plainAddr, plainText,
    readFields_joinFields family.separator_ne hbase.1 hbase.2.1 hbase.2.2 hlt,
    BitVec.ofNat_toNat, BitVec.setWidth_eq]

lemma mem_plainText {family : Family} {addr : BitVec family.bits} {c : UInt8}
    (hc : c ∈ plainText family addr) :
    c = family.separator ∨ ∃ d < family.base, c = digitChar d :=
  mem_joinFields (by cases family <;> decide) hc

/-- The texts of the two families differ: one has no colon, the other has. -/
lemma plainText_inet_ne (addr : BitVec Family.inet.bits) (addr' : BitVec Family.inet6.bits) :
    plainText .inet addr ≠ plainText .inet6 addr' := by
  intro heq
  have hcolon : Family.inet6.separator ∈ plainText .inet6 addr' :=
    sep_mem_joinFields (Family.separator_ne .inet6) (by decide) (by decide) _
  rw [← heq] at hcolon
  obtain hdot | ⟨d, hd, hdigit⟩ := mem_plainText hcolon
  · exact absurd hdot (by decide)
  · revert d
    decide

theorem plainInet_lawful : plainInet.Lawful where
  inverse family addr := by
    refine ⟨plainText family addr, rfl, ?_, ?_⟩
    · cases family with
      | inet => simp only [plainInet, plainAddr_plainText, if_true]
      | inet6 =>
          simp only [plainInet, plainAddr_plainText, if_true,
            if_neg (plainText_inet_ne (plainAddr .inet (plainText .inet6 addr)) addr)]
    · simp only [plainInet, plainAddr_plainText, if_true]
  dash family addr text htext hmem := by
    obtain rfl := Option.some.inj htext
    obtain hsep | ⟨d, hd, hdigit⟩ := mem_plainText hmem
    · cases family <;> exact absurd hsep (by decide)
    · revert d
      cases family <;> decide
  nul family addr text htext hmem := by
    obtain rfl := Option.some.inj htext
    obtain hsep | ⟨d, hd, hdigit⟩ := mem_plainText hmem
    · cases family <;> exact absurd hsep (by decide)
    · revert d
      cases family <;> decide

end PeerStreamer
