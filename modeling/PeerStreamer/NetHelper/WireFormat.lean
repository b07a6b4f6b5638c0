import PeerStreamer.NetHelper.NetworkShaper
import PeerStreamer.NetHelper.Pieces

/-!
# The wire format

Encoding and decoding, both ways: what was encoded is decoded into the same message, whatever
follows it, and what was decoded is encoded into the bytes it was decoded from (`wire_round_trip`).

For the second the coders have to be inverse the other way round as well, and unsigned
(`IntCoding.Unsigned`).
-/

namespace PeerStreamer

/-- The coders read every two or four bytes as a number that fits there, and write it back as these
bytes. -/
structure IntCoding.Unsigned (ic : IntCoding) : Prop extends ic.Inverse (2 ^ 32) where
  int16_lt : ∀ b : Bytes, b.length = 2 → ic.int16Rcpy b < 2 ^ 16
  int_lt : ∀ b : Bytes, b.length = 4 → ic.intRcpy b < 2 ^ 32
  int16_bytes : ∀ b : Bytes, b.length = 2 → ic.int16Cpy (ic.int16Rcpy b) = b
  int_bytes : ∀ b : Bytes, b.length = 4 → ic.intCpy (ic.intRcpy b) = b

lemma uInt8_ofNat_eq {n : ℕ} {x : UInt8} (h : n % 256 = x.toNat) : UInt8.ofNat n = x :=
  UInt8.toNat_inj.mp (by rw [UInt8.toNat_ofNat', ← h])

lemma bigEndian_unsigned : bigEndian.Unsigned where
  toInverse := bigEndian_inverse
  int16_lt b hb := by
    obtain ⟨x, y, rfl⟩ := List.length_eq_two.mp hb
    have hx := x.toNat_lt
    have hy := y.toNat_lt
    simp only [bigEndian, List.foldl]
    omega
  int_lt b hb := by
    obtain ⟨x, y, z, w, rfl⟩ := List.length_eq_four.mp hb
    have hx := x.toNat_lt
    have hy := y.toNat_lt
    have hz := z.toNat_lt
    have hw := w.toNat_lt
    simp only [bigEndian, List.foldl]
    omega
  int16_bytes b hb := by
    obtain ⟨x, y, rfl⟩ := List.length_eq_two.mp hb
    have hx := x.toNat_lt
    have hy := y.toNat_lt
    simp only [bigEndian, List.foldl]
    rw [uInt8_ofNat_eq (x := x) (by omega), uInt8_ofNat_eq (x := y) (by omega)]
  int_bytes b hb := by
    obtain ⟨x, y, z, w, rfl⟩ := List.length_eq_four.mp hb
    have hx := x.toNat_lt
    have hy := y.toNat_lt
    have hz := z.toNat_lt
    have hw := w.toNat_lt
    simp only [bigEndian, List.foldl]
    rw [uInt8_ofNat_eq (x := x) (by omega), uInt8_ofNat_eq (x := y) (by omega),
      uInt8_ofNat_eq (x := z) (by omega), uInt8_ofNat_eq (x := w) (by omega)]

/-! ## Messages -/

/-- The fields of a message fit theirs on the wire. -/
def NetMessage.FitsWire : NetMessage → Prop
  | .fragment f =>
      f.pid < 2 ^ 16 ∧ f.fragNum < 2 ^ 16 ∧ f.id < 2 ^ 16 ∧ f.payload.length < 2 ^ 32
  | .fragRequest fr => fr.pid < 2 ^ 16 ∧ fr.id < 2 ^ 16

instance : (msg : NetMessage) → Decidable msg.FitsWire
  | .fragment f => inferInstanceAs (Decidable (f.pid < 2 ^ 16 ∧ _))
  | .fragRequest fr => inferInstanceAs (Decidable (fr.pid < 2 ^ 16 ∧ _))

/-- The header of its kind, and its payload. -/
def NetMessage.wireLength : NetMessage → ℕ
  | .fragment f => FRAGMENT_HEADER_LEN + f.payload.length
  | .fragRequest _ => FRAG_REQUEST_HEADER_LEN

/-- The message as it is received: the same kind and fields, on no list, from one given node to
another. -/
def NetMessage.receivedAs (src dst : NodeID) : NetMessage → NetMessage
  | .fragment f =>
      .fragment { f with fromNode := src, toNode := dst, linked := false, data := some f.payload }
  | .fragRequest fr => .fragRequest { fr with fromNode := src, toNode := dst, linked := false }

section RoundTrip

variable {ic : IntCoding} {msg : NetMessage} {buff : Bytes} {dst src : NodeID}

/-- A message is encoded when there is room for all of it. -/
lemma netMsgSend_isSome (ic : IntCoding) (hmsg : msg.FitsWire) (buffLen : ℕ) :
    (netMsgSend ic msg buffLen).isSome ↔ msg.wireLength ≤ buffLen := by
  cases msg with
  | fragment f =>
      obtain ⟨-, -, -, hlen⟩ := hmsg
      have hheader : FRAGMENT_HEADER_LEN = 11 := rfl
      have hwrap : sizeT (FRAGMENT_HEADER_LEN + f.dataSize) = FRAGMENT_HEADER_LEN + f.dataSize :=
        Nat.mod_eq_of_lt (by rw [Fragment.dataSize]; omega)
      rw [netMsgSend, fragmentEncode, hwrap]
      split_ifs with h
      · exact ⟨fun _ => h, fun _ => rfl⟩
      · exact ⟨fun hn => by simp at hn, fun hle => absurd hle h⟩
  | fragRequest fr =>
      rw [netMsgSend, fragRequestEncode]
      split_ifs with h
      · exact ⟨fun _ => h, fun _ => rfl⟩
      · exact ⟨fun hn => by simp at hn, fun hle => absurd hle h⟩

/-- **There and back.** -/
lemma netMsgDecode_netMsgSend (hic : ic.Unsigned) (hmsg : msg.FitsWire) {buffLen : ℕ}
    (hsend : netMsgSend ic msg buffLen = some buff) (extra : Bytes) (dst src : NodeID) :
    netMsgDecode ic dst src (buff ++ extra) = .ok (some (msg.receivedAs src dst)) := by
  have hroom := (netMsgSend_isSome ic hmsg buffLen).mp (by rw [hsend]; rfl)
  cases msg with
  | fragment f =>
      obtain ⟨hpid, hnum, hid, hlen⟩ := hmsg
      obtain ⟨buff', henc, hdec⟩ := hic.toInverse.decode_encode_append le_rfl buffLen hpid hnum hid
        hlen hroom extra dst src
      obtain rfl : buff' = buff := Option.some.inj (henc.symm.trans hsend)
      exact hdec
  | fragRequest fr =>
      obtain ⟨hpid, hid⟩ := hmsg
      obtain ⟨buff', henc, hdec⟩ :=
        hic.toInverse.decode_encode_request_append buffLen hpid hid hroom extra dst src
      obtain rfl : buff' = buff := Option.some.inj (henc.symm.trans hsend)
      exact hdec

/-- A field that has been read is written back. -/
lemma IntCoding.Unsigned.int16_field (hic : ic.Unsigned) {n : ℕ} (h : n + 2 ≤ buff.length) :
    ic.int16Cpy (ic.int16Rcpy ((buff.drop n).take 2)) = (buff.drop n).take 2 :=
  hic.int16_bytes _ (by rw [List.length_take, List.length_drop]; omega)

/-- A fragment that has been decoded is encoded into the bytes it comes from. -/
lemma fragmentEncode_decodedFragment (hic : ic.Unsigned) (hhead : buff.head? = some NET_FRAGMENT)
    (hlen : FRAGMENT_HEADER_LEN + declaredLen ic buff ≤ buff.length) {buffLen : ℕ}
    (hroom : FRAGMENT_HEADER_LEN + declaredLen ic buff ≤ buffLen) :
    fragmentEncode ic (decodedFragment ic dst src buff) buffLen
      = some (buff.take (FRAGMENT_HEADER_LEN + declaredLen ic buff)) := by
  have hheader : FRAGMENT_HEADER_LEN = 11 := rfl
  have hfour : ((buff.drop 7).take 4).length = 4 := by
    rw [List.length_take, List.length_drop]
    omega
  have hdecl : declaredLen ic buff < 2 ^ 32 := hic.int_lt _ hfour
  have hsize : (decodedFragment ic dst src buff).dataSize = declaredLen ic buff := by
    change ((buff.drop FRAGMENT_HEADER_LEN).take (declaredLen ic buff)).length = _
    rw [List.length_take, List.length_drop]
    omega
  have hwrap : sizeT (FRAGMENT_HEADER_LEN + declaredLen ic buff)
      = FRAGMENT_HEADER_LEN + declaredLen ic buff := Nat.mod_eq_of_lt (by omega)
  have hint : ic.intCpy (declaredLen ic buff) = (buff.drop 7).take 4 := hic.int_bytes _ hfour
  have hone : buff.take 1 = [NET_FRAGMENT] := by
    cases buff with
    | nil => cases hhead
    | cons t rest => rw [List.head?_cons, Option.some.injEq] at hhead; rw [hhead]; rfl
  rw [fragmentEncode, hsize, hwrap, if_pos hroom, Nat.mod_eq_of_lt hdecl, hint]
  -- the leading bytes, field by field
  rw [hheader, show 11 + declaredLen ic buff = 1 + (2 + (2 + (2 + (4 + declaredLen ic buff)))) by
    omega]
  simp only [List.take_add, List.drop_drop, Nat.reduceAdd, hone]
  change some (NET_FRAGMENT :: (ic.int16Cpy (ic.int16Rcpy ((buff.drop 1).take 2)) ++
    (ic.int16Cpy (ic.int16Rcpy ((buff.drop 3).take 2)) ++
      (ic.int16Cpy (ic.int16Rcpy ((buff.drop 5).take 2)) ++ _)))) = _
  rw [hic.int16_field (by omega), hic.int16_field (by omega), hic.int16_field (by omega)]
  rfl

lemma fragRequestEncode_decodedRequest (hic : ic.Unsigned)
    (hhead : buff.head? = some NET_FRAGMENT_REQ) (hlen : FRAG_REQUEST_HEADER_LEN ≤ buff.length)
    {buffLen : ℕ} (hroom : FRAG_REQUEST_HEADER_LEN ≤ buffLen) :
    fragRequestEncode ic (decodedRequest ic dst src buff) buffLen
      = some (buff.take FRAG_REQUEST_HEADER_LEN) := by
  have hheader : FRAG_REQUEST_HEADER_LEN = 5 := rfl
  have hone : buff.take 1 = [NET_FRAGMENT_REQ] := by
    cases buff with
    | nil => cases hhead
    | cons t rest => rw [List.head?_cons, Option.some.injEq] at hhead; rw [hhead]; rfl
  have htake : buff.take 5
      = NET_FRAGMENT_REQ :: ((buff.drop 1).take 2 ++ (buff.drop 3).take 2) := by
    rw [show 5 = 1 + (2 + 2) from rfl, List.take_add, List.take_add, hone, List.drop_drop]
    rfl
  rw [fragRequestEncode, if_pos hroom, hheader, htake]
  change some (NET_FRAGMENT_REQ :: (ic.int16Cpy (ic.int16Rcpy ((buff.drop 1).take 2)) ++
    ic.int16Cpy (ic.int16Rcpy ((buff.drop 3).take 2)))) = _
  rw [hic.int16_field (by omega), hic.int16_field (by omega)]

/-- **Back and there.**  A message that has been decoded is encoded into the leading bytes. -/
lemma netMsgSend_netMsgDecode (hic : ic.Unsigned)
    (hdec : netMsgDecode ic dst src buff = .ok (some msg)) {buffLen : ℕ}
    (hroom : msg.wireLength ≤ buffLen) :
    netMsgSend ic msg buffLen = some (buff.take msg.wireLength)
      ∧ msg.wireLength ≤ buff.length := by
  have hdecodable := decodable_of_netMsgDecode hdec
  rw [netMsgDecode_of_decodable hdecodable, decodedMessage] at hdec
  rcases hdecodable with ⟨hhead, hlen, -⟩ | ⟨hhead, hlen⟩
  · rw [if_pos hhead] at hdec
    cases hdec
    have hwire : (NetMessage.fragment (decodedFragment ic dst src buff)).wireLength
        = FRAGMENT_HEADER_LEN + declaredLen ic buff := by
      change _ + ((buff.drop FRAGMENT_HEADER_LEN).take (declaredLen ic buff)).length = _
      rw [List.length_take, List.length_drop]
      omega
    rw [hwire] at hroom ⊢
    exact ⟨fragmentEncode_decodedFragment hic hhead hlen hroom, hlen⟩
  · rw [if_neg (by rw [hhead]; decide)] at hdec
    cases hdec
    exact ⟨fragRequestEncode_decodedRequest hic hhead hlen hroom, hlen⟩

end RoundTrip

/-- Encoding and decoding are inverse to each other: a message whose fields fit is encoded when
there is room for it, and decoded again in front of any bytes; and a message that has been decoded
is encoded, where there is room, into the bytes at the start of the datagram. -/
structure WireRoundTrip (ic : IntCoding) : Prop where
  encodes : ∀ msg : NetMessage, msg.FitsWire → ∀ buffLen,
    (netMsgSend ic msg buffLen).isSome ↔ msg.wireLength ≤ buffLen
  decodes : ∀ msg : NetMessage, msg.FitsWire → ∀ buffLen buff,
    netMsgSend ic msg buffLen = some buff → ∀ (extra : Bytes) (dst src : NodeID),
      netMsgDecode ic dst src (buff ++ extra) = .ok (some (msg.receivedAs src dst))
  encodes_back : ∀ (dst src : NodeID) (input : Bytes) (msg : NetMessage),
    netMsgDecode ic dst src input = .ok (some msg) → ∀ buffLen, msg.wireLength ≤ buffLen →
      ∃ buff, netMsgSend ic msg buffLen = some buff ∧ buff <+: input

/-- **The wire format round trip.** -/
theorem wire_round_trip (ic : IntCoding) (hic : ic.Unsigned) : WireRoundTrip ic where
  encodes _ hmsg buffLen := netMsgSend_isSome ic hmsg buffLen
  decodes _ hmsg _ _ hsend extra dst src := netMsgDecode_netMsgSend hic hmsg hsend extra dst src
  encodes_back _ _ input _ hdec _ hroom :=
    ⟨_, (netMsgSend_netMsgDecode hic hdec hroom).1, List.take_prefix _ input⟩

/-- The coders are big-endian. -/
theorem wire_round_trip_bigEndian : WireRoundTrip bigEndian :=
  wire_round_trip bigEndian bigEndian_unsigned

end PeerStreamer
