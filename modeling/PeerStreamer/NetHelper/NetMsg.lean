import PeerStreamer.Foundation.Eval
import PeerStreamer.NetHelper.Node

/-!
# Network messages and their wire format

`net_msg.c`, `fragment.c` and `frag_request.c`: the two kinds of message the network helper
exchanges, how they are encoded into a datagram and how a datagram is decoded.

The integer coders come from GRAPES and are not part of the repository, so they are the fields of
`IntCoding`, a parameter of everything below; `IntCoding.Inverse` is what the code relies on.

Decoding answers with an `Eval (Option …)`: `none` is the NULL pointer, and an error is a decoder
that returns a pointer it never assigned or copies bytes from beyond the datagram.  Both happen —
`frag_request_decode` leaves `msg` unassigned on a short request, and `fragment_decode` adds the
declared length to the header length in `size_t`, where the sum can wrap.
-/

namespace PeerStreamer

abbrev Bytes := List UInt8

/-! ## The integer coders of GRAPES -/

/-- `int16_cpy`, `int16_rcpy`, `int_cpy` and `int_rcpy`: the bytes they write for a value and the
value they read from that many bytes, the latter as the `size_t` it is converted to. -/
structure IntCoding where
  int16Cpy : ℕ → Bytes
  int16Rcpy : Bytes → ℕ
  intCpy : ℕ → Bytes
  intRcpy : Bytes → ℕ

/-- The coders write two and four bytes, and reading back gives the value written: any 16-bit
value for the short ones, any value below `bound` for the others. -/
structure IntCoding.Inverse (ic : IntCoding) (bound : ℕ) : Prop where
  int16_length : ∀ v, (ic.int16Cpy v).length = 2
  int_length : ∀ v, (ic.intCpy v).length = 4
  int16_inv : ∀ v < 2 ^ 16, ic.int16Rcpy (ic.int16Cpy v) = v
  int_inv : ∀ v < bound, ic.intRcpy (ic.intCpy v) = v

/-- Big-endian coders over unsigned values, as a concrete instance. -/
def bigEndian : IntCoding where
  int16Cpy v := [UInt8.ofNat (v / 256), UInt8.ofNat v]
  int16Rcpy b := b.foldl (fun n x => 256 * n + x.toNat) 0
  intCpy v := [UInt8.ofNat (v / 256 ^ 3), UInt8.ofNat (v / 256 ^ 2), UInt8.ofNat (v / 256),
    UInt8.ofNat v]
  intRcpy b := b.foldl (fun n x => 256 * n + x.toNat) 0

lemma bigEndian_inverse : bigEndian.Inverse (2 ^ 32) where
  int16_length _ := rfl
  int_length _ := rfl
  int16_inv v hv := by
    simp only [bigEndian, List.foldl, UInt8.toNat_ofNat']
    omega
  int_inv v hv := by
    simp only [bigEndian, List.foldl, UInt8.toNat_ofNat']
    omega

lemma IntCoding.Inverse.mono {ic : IntCoding} {bound bound' : ℕ} (h : ic.Inverse bound)
    (hle : bound' ≤ bound) : ic.Inverse bound' :=
  { h with int_inv := fun v hv => h.int_inv v (by omega) }

/-! ## The messages -/

def NET_FRAGMENT : UInt8 := 0
def NET_FRAGMENT_REQ : UInt8 := 1

/-- `FRAGMENT_HEADER_LEN` -/
def FRAGMENT_HEADER_LEN : ℕ := 1 + 2 + 2 + 2 + 4

/-- `FRAG_REQUEST_HEADER_LEN` -/
def FRAG_REQUEST_HEADER_LEN : ℕ := 1 + 2 + 2

/-- `struct net_msg`.  `fromNode` and `toNode` are its `from` and `to`; `linked` says that the
embedded list link is not NULL, i.e. that the message is on some list. -/
structure NetMsg where
  fromNode : NodeID
  toNode : NodeID
  linked : Bool
  deriving DecidableEq, Repr

/-- `struct fragment`; `data = none` is the NULL pointer.  The field `data_size` is always the size
of the block `data` points to, so it is `Fragment.dataSize` below. -/
structure Fragment extends NetMsg where
  id : ℕ
  fragNum : ℕ
  pid : ℕ
  data : Option Bytes
  deriving DecidableEq, Repr

/-- `struct frag_request`. -/
structure FragRequest extends NetMsg where
  id : ℕ
  pid : ℕ
  deriving DecidableEq, Repr

/-- A `struct net_msg *` with the type tag that says what it points to. -/
inductive NetMessage
  | fragment (f : Fragment)
  | fragRequest (r : FragRequest)
  deriving DecidableEq, Repr

/-- The `net_msg` part both kinds start with. -/
def NetMessage.netMsg : NetMessage → NetMsg
  | .fragment f => f.toNetMsg
  | .fragRequest r => r.toNetMsg

/-- The bytes of a fragment: none when `data` is NULL. -/
def Fragment.payload (f : Fragment) : Bytes := f.data.getD []

/-- `data_size` -/
def Fragment.dataSize (f : Fragment) : ℕ := f.payload.length

/-- `fragment_init` with `list` telling whether the fragment is appended to one.  The block
`malloc`ed for the data is never NULL, not even for a size of zero. -/
def fragmentInit (fromNode toNode : NodeID) (pid fragNum id : ℕ) (data : Option Bytes)
    (list : Bool) : Fragment :=
  { fromNode, toNode, linked := list, id, fragNum, pid, data }

/-- `frag_request_create`. -/
def fragRequestCreate (fromNode toNode : NodeID) (pid fid : ℕ) (list : Bool) : FragRequest :=
  { fromNode, toNode, linked := list, id := fid, pid }

/-! ## Lists of messages

Messages are linked into lists through the `struct list_head` they embed.  A fragment stays owned
by the packet it belongs to while it is linked, so a list holds a reference to it: its destination,
packet id and position name it.  A request is owned by the list it is on. -/

/-- An element of a list of messages. -/
inductive QueueElem
  | fragment (toNode : NodeID) (pid id : ℕ)
  | request (r : FragRequest)
  deriving DecidableEq, Repr

abbrev MsgList := List QueueElem

/-- `fragment_list_element` -/
def fragmentListElement (f : Fragment) : QueueElem := .fragment f.toNode f.pid f.id

/-- `fragment_deinit`, on the list the fragment may be linked into: `list_del` unlinks it. -/
def fragmentDeinit (f : Fragment) (q : MsgList) : MsgList :=
  if f.linked then q.erase (fragmentListElement f) else q

/-! ## Encoding -/

variable (ic : IntCoding)

/-- `fragment_encode`: the bytes put at the start of a buffer of `buffLen` bytes, or `none` for
the failure code. -/
def fragmentEncode (frag : Fragment) (buffLen : ℕ) : Option Bytes :=
  if buffLen ≥ sizeT (FRAGMENT_HEADER_LEN + frag.dataSize) then
    some (NET_FRAGMENT :: (ic.int16Cpy frag.pid ++ (ic.int16Cpy frag.fragNum
      ++ (ic.int16Cpy frag.id ++ (ic.intCpy (frag.dataSize % 2 ^ 32) ++ frag.payload)))))
  else none

/-- `frag_request_encode`. -/
def fragRequestEncode (fr : FragRequest) (buffLen : ℕ) : Option Bytes :=
  if buffLen ≥ FRAG_REQUEST_HEADER_LEN then
    some (NET_FRAGMENT_REQ :: (ic.int16Cpy fr.pid ++ ic.int16Cpy fr.id))
  else none

/-! ## Decoding -/

/-- The length a fragment datagram declares for its payload, as `data_len` holds it. -/
def declaredLen (buff : Bytes) : ℕ := ic.intRcpy ((buff.drop 7).take 4)

/-- `fragment_decode`: `from` is the remote node `src`, `to` the local node `dst`. -/
def fragmentDecode (dst src : NodeID) (buff : Bytes) : Eval (Option Fragment) :=
  if buff.length ≥ FRAGMENT_HEADER_LEN then
    let pid := ic.int16Rcpy ((buff.drop 1).take 2)
    let fragNum := ic.int16Rcpy ((buff.drop 3).take 2)
    let fid := ic.int16Rcpy ((buff.drop 5).take 2)
    let dataLen := declaredLen ic buff
    if buff.length ≥ sizeT (FRAGMENT_HEADER_LEN + dataLen) then
      -- the copy of `fragment_init` reads `dataLen` bytes after the header
      if dataLen ≤ (buff.drop FRAGMENT_HEADER_LEN).length then
        .ok (some (fragmentInit src dst pid fragNum fid
          (some ((buff.drop FRAGMENT_HEADER_LEN).take dataLen)) false))
      else .error .outOfBounds
    else .ok none
  else .ok none

/-- `frag_request_decode`: `msg` has no initial value. -/
def fragRequestDecode (dst src : NodeID) (buff : Bytes) : Eval (Option FragRequest) :=
  if buff.length ≥ FRAG_REQUEST_HEADER_LEN then
    let pid := ic.int16Rcpy ((buff.drop 1).take 2)
    let fid := ic.int16Rcpy ((buff.drop 3).take 2)
    .ok (some (fragRequestCreate src dst pid fid false))
  else .error .uninitialised

/-- `net_msg_decode`. -/
def netMsgDecode (dst src : NodeID) (buff : Bytes) : Eval (Option NetMessage) :=
  match buff with
  | [] => .error .outOfBounds
  | type :: _ =>
      if type = NET_FRAGMENT then do
        let f ← fragmentDecode ic dst src buff
        return f.map .fragment
      else if type = NET_FRAGMENT_REQ then do
        let r ← fragRequestDecode ic dst src buff
        return r.map .fragRequest
      else .ok none

/-! ## What a datagram has to hold -/

/-- The datagram holds a whole message: its type byte is known and it is at least as long as the
header of that type and the payload declared there. -/
def Decodable (buff : Bytes) : Prop :=
  (buff.head? = some NET_FRAGMENT ∧ FRAGMENT_HEADER_LEN + declaredLen ic buff ≤ buff.length
    ∧ FRAGMENT_HEADER_LEN ≤ buff.length)
  ∨ (buff.head? = some NET_FRAGMENT_REQ ∧ FRAG_REQUEST_HEADER_LEN ≤ buff.length)

instance (buff : Bytes) : Decidable (Decodable ic buff) :=
  inferInstanceAs (Decidable (_ ∨ _))

/-- The fragment a datagram holds, field by field. -/
def decodedFragment (dst src : NodeID) (buff : Bytes) : Fragment :=
  fragmentInit src dst (ic.int16Rcpy ((buff.drop 1).take 2)) (ic.int16Rcpy ((buff.drop 3).take 2))
    (ic.int16Rcpy ((buff.drop 5).take 2))
    (some ((buff.drop FRAGMENT_HEADER_LEN).take (declaredLen ic buff))) false

/-- The request a datagram holds. -/
def decodedRequest (dst src : NodeID) (buff : Bytes) : FragRequest :=
  fragRequestCreate src dst (ic.int16Rcpy ((buff.drop 1).take 2))
    (ic.int16Rcpy ((buff.drop 3).take 2)) false

/-- The message a decodable datagram holds. -/
def decodedMessage (dst src : NodeID) (buff : Bytes) : NetMessage :=
  if buff.head? = some NET_FRAGMENT then .fragment (decodedFragment ic dst src buff)
  else .fragRequest (decodedRequest ic dst src buff)

end PeerStreamer
