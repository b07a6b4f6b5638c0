import PeerStreamer.NetHelper.Address

/-!
# The default address

`default_ip_addr` of `net_helpers.c` takes the interface of the default route from the routing table
and returns the first address that interface has in the family asked for.  `fopen` and `getifaddrs`
are arguments: what the file holds and what the list holds, none where they fail.

Two slips decide what is returned.  The destination of a route is written where it should be
compared, so that no line ends the loop and the interface is that of the last line there is; and
`iface_addr` returns what it has not set when no entry matches (`defaultAddressSelected_iff`).
-/

namespace PeerStreamer

/-! ## The routing table -/

/-- `IFNAMSIZ` -/
def IFNAMSIZ : ℕ := 16

/-- The destination of a default route. -/
def ANY_DESTINATION : Bytes := "00000000".toUTF8.toList

/-- The fields that `sscanf` finds in a string. -/
def pieceFields (piece : Bytes) : Bytes × Bytes := twoFields (piece.takeWhile (· ≠ 0))

/-- `sscanf` of `line` with the format `%s\t%s`: how many fields there are, what `iface` holds then,
and `dst` where it is set.  The fields are not to be longer than the buffers. -/
def scanRoute (line iface : Bytes) : Eval (ℤ × Bytes × Bytes) :=
  let (ifc, dst) := pieceFields line
  if ifc = [] then .ok (-1, iface, [])
  else if ifc.length ≥ IFNAMSIZ then .error .outOfBounds
  else if dst = [] then .ok (1, ifc, [])
  else if dst.length ≥ 32 then .error .outOfBounds
  else .ok (2, ifc, dst)

/-- The loop of `autodetect_ip_address`; the name it would copy has not been set. -/
def routeLoop (file iface : Bytes) : Eval Bytes :=
  if _ : (fgets 126 file).2.2 = true then return iface
  else do
    let (res, iface, dst) ← scanRoute (fgets 126 file).1 iface
    if res = 2 ∧ strcpy dst ANY_DESTINATION = none then .error .uninitialised
    else routeLoop (fgets 126 file).2.1 iface
termination_by file.length
decreasing_by exact fgets_shorter (by assumption)

/-! ## The interfaces -/

/-- `enum L3PROTOCOL` -/
inductive L3Protocol
  | ip4
  | ip6
  deriving DecidableEq, Repr

def L3Protocol.family : L3Protocol → Family
  | ip4 => .inet
  | ip6 => .inet6

/-- `struct ifaddrs`: an address may be missing, or of a family the code does not know. -/
structure IfAddr where
  name : Bytes
  addr : Option SockAddr
  deriving DecidableEq

variable (net : Inet)

/-- The loop of `iface_addr`.  Without a match, `host_addr` is returned as it was declared. -/
def ifaceAddrLoop (iface : Bytes) (l3 : L3Protocol) : List IfAddr → Eval (Option Bytes)
  | [] => .error .uninitialised
  | ifap :: ifaces =>
      match ifap.addr with
      | none => ifaceAddrLoop iface l3 ifaces
      | some .unspec => ifaceAddrLoop iface l3 ifaces
      | some (.ip family _ addr) =>
          if l3.family = family ∧ strcmp ifap.name iface = 0 then return net.inetNtop family addr
          else ifaceAddrLoop iface l3 ifaces

/-- `iface_addr` -/
def ifaceAddr (iface : Bytes) (l3 : L3Protocol) (ifaces : Option (List IfAddr)) :
    Eval (Option Bytes) :=
  match ifaces with
  | none => return none
  | some ifaces => ifaceAddrLoop net iface l3 ifaces

/-- `autodetect_ip_address` on Linux. -/
def autodetectIpAddress (route : Option Bytes) (ifaces : Option (List IfAddr)) (l3 : L3Protocol) :
    Eval (Option Bytes) :=
  match route with
  | none => return none
  | some file => do
      let iface ← routeLoop file []
      ifaceAddr net iface l3 ifaces

/-- `default_ip_addr` -/
def defaultIpAddr (route : Option Bytes) (ifaces : Option (List IfAddr)) (l3 : L3Protocol) :
    Eval (Option Bytes) := do
  match ← autodetectIpAddress net route ifaces l3 with
  | none => return none
  | some ip => return some ip

/-! ## What is to be selected -/

/-- A line of a table, without its newline. -/
abbrev RouteLine := { line : Bytes // 10 ∉ line }

/-- The lines as they stand in the file. -/
def routeText (lines : List RouteLine) : Bytes := lines.flatMap (·.val ++ [10])

/-- The interface of the first line with the destination of a default route. -/
def defaultInterface (lines : List RouteLine) : Option Bytes :=
  (lines.find? fun line => (twoFields line.val).2 = ANY_DESTINATION).map
    fun line => (twoFields line.val).1

/-- An entry of an interface, with an address of the family asked for. -/
def IfAddr.isFor (e : IfAddr) (name : Bytes) (l3 : L3Protocol) : Bool :=
  match e.addr with
  | some (.ip family _ _) => e.name = name ∧ family = l3.family
  | _ => false

/-- The address of an entry. -/
def IfAddr.text (e : IfAddr) : Option Bytes :=
  match e.addr with
  | some (.ip family _ addr) => net.inetNtop family addr
  | _ => none

/-- The address of the first entry that matches the interface of the default route. -/
def selectedAddress (lines : List RouteLine) (ifaces : List IfAddr) (l3 : L3Protocol) :
    Option Bytes := do
  let name ← defaultInterface lines
  let e ← ifaces.find? (·.isFor name l3)
  e.text net

/-- **What is promised of the default address**, for every routing table and every interface
table. -/
def DefaultAddressSelected (lines : List RouteLine) (ifaces : List IfAddr) (l3 : L3Protocol) :
    Prop :=
  defaultIpAddr net (some (routeText lines)) (some ifaces) l3
    = .ok (selectedAddress net lines ifaces l3)

/-! ## What is selected -/

/-- What `fgets` reads of a file before its end. -/
def readPieces (file : Bytes) : List Bytes :=
  if _ : (fgets 126 file).2.2 = true then []
  else (fgets 126 file).1 :: readPieces (fgets 126 file).2.1
termination_by file.length
decreasing_by exact fgets_shorter (by assumption)

/-- The fields are not longer than their buffers. -/
def FieldsFit (piece : Bytes) : Prop :=
  (pieceFields piece).1.length < IFNAMSIZ ∧ (pieceFields piece).2.length < 32

instance : DecidablePred FieldsFit := fun _ => inferInstanceAs (Decidable (_ ∧ _))

/-- The first field of a piece, if there is one. -/
def nextIface (iface piece : Bytes) : Bytes :=
  if (pieceFields piece).1 = [] then iface else (pieceFields piece).1

/-- The first field of the last piece that has one. -/
def lastInterface (pieces : List Bytes) : Bytes := pieces.foldl nextIface []

section Selected

variable {net} {file iface piece line : Bytes} {l3 : L3Protocol} {ifaces : List IfAddr}

/-- **`sscanf`** of a piece whose fields fit. -/
lemma scanRoute_of_fits (h : FieldsFit piece) (iface : Bytes) :
    ∃ res dst, scanRoute piece iface = .ok (res, nextIface iface piece, dst) := by
  rw [FieldsFit] at h
  rw [scanRoute, nextIface]
  generalize pieceFields piece = fields at h ⊢
  obtain ⟨ifc, dst⟩ := fields
  simp only [not_le.mpr h.1, not_le.mpr h.2, if_false]
  split_ifs
  · exact ⟨_, _, rfl⟩
  · exact ⟨_, _, rfl⟩
  · exact ⟨_, _, rfl⟩

/-- One of them is longer than its buffer. -/
lemma scanRoute_of_not_fits (h : ¬FieldsFit piece) (iface : Bytes) :
    scanRoute piece iface = .error .outOfBounds := by
  have hblank : (pieceFields piece).1 = [] → (pieceFields piece).2 = [] := twoFields_eq_nil
  rw [FieldsFit] at h
  rw [scanRoute]
  generalize pieceFields piece = fields at h hblank ⊢
  obtain ⟨ifc, dst⟩ := fields
  simp only at h hblank ⊢
  split_ifs with hifc hlong hdst hlong'
  · exact absurd ⟨by simp [hifc, IFNAMSIZ], by simp [hblank hifc]⟩ h
  · rfl
  · exact absurd ⟨not_le.mp hlong, by simp [hdst]⟩ h
  · rfl
  · exact absurd ⟨not_le.mp hlong, not_le.mp hlong'⟩ h

/-- **The loop** goes on to the end of the file, and every field is written. -/
lemma routeLoop_eq (file iface : Bytes) :
    routeLoop file iface
      = if ∀ piece ∈ readPieces file, FieldsFit piece then
          .ok ((readPieces file).foldl nextIface iface)
        else .error .outOfBounds := by
  induction file, iface using routeLoop.induct with
  | case1 file iface heof =>
      rw [routeLoop, readPieces, dif_pos heof, dif_pos heof]
      simp
  | case2 file iface heof ih =>
      rw [routeLoop, readPieces, dif_neg heof, dif_neg heof, List.foldl_cons]
      by_cases hfits : FieldsFit (fgets 126 file).1
      · obtain ⟨res, dst, hscan⟩ := scanRoute_of_fits hfits iface
        have hrest : (∀ piece ∈ (fgets 126 file).1 :: readPieces (fgets 126 file).2.1,
            FieldsFit piece) ↔ ∀ piece ∈ readPieces (fgets 126 file).2.1, FieldsFit piece := by
          rw [List.forall_mem_cons, and_iff_right hfits]
        simp only [hscan, Eval.ok_bind, strcpy, reduceCtorEq, and_false, if_false, hrest]
        exact ih _
      · rw [scanRoute_of_not_fits hfits, if_neg fun h => hfits (h _ List.mem_cons_self)]
        rfl

/-- **The search** for an interface finds the first entry that matches. -/
lemma ifaceAddrLoop_eq (iface : Bytes) (l3 : L3Protocol) (ifaces : List IfAddr) :
    ifaceAddrLoop net iface l3 ifaces
      = (ifaces.find? (·.isFor iface l3)).elim (.error .uninitialised)
        fun e => .ok (e.text net) := by
  induction ifaces with
  | nil => rfl
  | cons ifap ifaces ih =>
      rw [ifaceAddrLoop]
      cases haddr : ifap.addr with
      | none =>
          rw [List.find?_cons_of_neg (by simp [IfAddr.isFor, haddr])]
          exact ih
      | some addr =>
          cases addr with
          | unspec =>
              rw [List.find?_cons_of_neg (by simp [IfAddr.isFor, haddr])]
              exact ih
          | ip family port addr =>
              by_cases hmatch : l3.family = family ∧ ifap.name = iface
              · rw [List.find?_cons_of_pos (by simp [IfAddr.isFor, haddr, hmatch])]
                simp [hmatch, strcmp_self, IfAddr.text, haddr]
              · rw [List.find?_cons_of_neg (by
                  simp only [IfAddr.isFor, haddr, decide_eq_true_eq]
                  exact fun h => hmatch ⟨h.2.symm, h.1⟩)]
                simp only [strcmp_eq_zero, hmatch, if_false]
                exact ih

/-- **The address**, where the fields fit. -/
lemma defaultIpAddr_eq (lines : List RouteLine) (ifaces : List IfAddr) (l3 : L3Protocol) :
    defaultIpAddr net (some (routeText lines)) (some ifaces) l3
      = if ∀ piece ∈ readPieces (routeText lines), FieldsFit piece then
          ifaceAddrLoop net (lastInterface (readPieces (routeText lines))) l3 ifaces
        else .error .outOfBounds := by
  rw [defaultIpAddr, autodetectIpAddress, routeLoop_eq]
  split_ifs with hfits
  · simp only [Eval.ok_bind, ifaceAddr, lastInterface]
    cases ifaceAddrLoop net _ l3 ifaces with
    | error e => rfl
    | ok ip => cases ip <;> rfl
  · rfl

/-- A line that fits is a piece, and of a longer one the first 126 characters are. -/
lemma readPieces_line (hline : 10 ∉ line) (rest : Bytes) :
    readPieces (line ++ 10 :: rest)
      = if line.length < 126 then (line ++ [10]) :: readPieces rest
        else line.take 126 :: readPieces (line.drop 126 ++ 10 :: rest) := by
  rw [readPieces, fgets_line hline]
  by_cases hlen : line.length < 126
  · simp [hlen]
  · simp [hlen]

/-- The pieces of lines that fit are these lines. -/
lemma readPieces_routeText {lines : List RouteLine} (hshort : ∀ l ∈ lines, l.val.length < 126) :
    readPieces (routeText lines) = lines.map (·.val ++ [10]) := by
  induction lines with
  | nil =>
      rw [routeText, List.flatMap_nil, readPieces]
      rfl
  | cons l lines ih =>
      obtain ⟨hl, hlines⟩ := List.forall_mem_cons.mp hshort
      have htext : routeText (l :: lines) = l.val ++ 10 :: routeText lines := by
        rw [routeText, List.flatMap_cons, List.append_assoc]
        rfl
      rw [htext, readPieces_line l.property, if_pos hl, ih hlines, List.map_cons]

end Selected

/-- **The default address** is the one promised exactly where all fields fit their buffers, and the
interface on the last line that is not blank has an address and it is the right one. -/
theorem defaultAddressSelected_iff (lines : List RouteLine) (ifaces : List IfAddr)
    (l3 : L3Protocol) :
    DefaultAddressSelected net lines ifaces l3
      ↔ (∀ piece ∈ readPieces (routeText lines), FieldsFit piece)
        ∧ ∃ e, ifaces.find? (·.isFor (lastInterface (readPieces (routeText lines))) l3) = some e
          ∧ e.text net = selectedAddress net lines ifaces l3 := by
  rw [DefaultAddressSelected, defaultIpAddr_eq]
  by_cases hfits : ∀ piece ∈ readPieces (routeText lines), FieldsFit piece
  · rw [if_pos hfits, ifaceAddrLoop_eq, and_iff_right hfits]
    cases ifaces.find? (·.isFor (lastInterface (readPieces (routeText lines))) l3) with
    | none => simp
    | some e => simp
  · rw [if_neg hfits]
    exact iff_of_false (fun h => by cases h) fun h => hfits h.1

/-! ## Two routes -/

/-- The default route, and a route of another interface behind it. -/
def twoRoutes : List RouteLine :=
  [⟨"Iface\tDestination".toUTF8.toList, by decide +kernel⟩,
    ⟨"eth0\t00000000".toUTF8.toList, by decide +kernel⟩,
    ⟨"wlan0\t0001A8C0".toUTF8.toList, by decide +kernel⟩]

/-- `10.0.0.1` and `192.168.1.2`. -/
def twoIfaces : List IfAddr :=
  [⟨"eth0".toUTF8.toList, some (.ip .inet (0, 0) 0x0A000001#32)⟩,
    ⟨"wlan0".toUTF8.toList, some (.ip .inet (0, 0) 0xC0A80102#32)⟩]

/-- The address of the second interface is returned. -/
theorem not_defaultAddressSelected :
    ¬∀ lines ifaces l3, DefaultAddressSelected plainInet lines ifaces l3 := by
  intro hall
  have h := hall twoRoutes twoIfaces .ip4
  rw [DefaultAddressSelected, defaultIpAddr_eq, readPieces_routeText (by decide +kernel)] at h
  revert h
  decide +kernel

end PeerStreamer
