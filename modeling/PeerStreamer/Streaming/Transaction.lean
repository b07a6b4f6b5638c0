import Mathlib.Tactic

/-!
# Transactions

`transaction.c`: an offer opens a transaction, which the accept and the acknowledgement refer to by
its id.  The list has the newest transaction first; times are in microseconds.
-/

namespace PeerStreamer

/-- `TRANS_ID_MAX_LIFETIME`, in microseconds. -/
def TRANS_ID_MAX_LIFETIME : ℤ := 4 * 1000000

/-- `INVALID_TRANSID` -/
def INVALID_TRANSID : UInt16 := 0

/-- `service_time`; there is no `acceptReceivedTime` until the accept is received. -/
structure ServiceTime (ID : Type) where
  transId : UInt16
  offerSentTime : ℤ
  acceptReceivedTime : Option ℤ
  id : ID
  deriving DecidableEq, Repr

variable {ID : Type}

/-- `check_neighbor_status_list` -/
def checkNeighborStatusList (stl : List (ServiceTime ID)) (now : ℤ) : List (ServiceTime ID) :=
  stl.filter fun st => ¬TRANS_ID_MAX_LIFETIME < now - st.offerSentTime

/-- `transaction_create`, with the readings of the clock for the check and for the new
transaction.  The sum is computed in an `int`, so it is never zero, and cut to 16 bits when it is
stored. -/
def transactionCreate (stl : List (ServiceTime ID)) (id : ID) (tcheck now : ℤ) :
    List (ServiceTime ID) × UInt16 :=
  let stl := checkNeighborStatusList stl tcheck
  let transId := match stl with
    | [] => 1
    | st :: _ => if st.transId.toNat + 1 ≠ 0 then UInt16.ofNat (st.transId.toNat + 1) else 1
  (⟨transId, now, none, id⟩ :: stl, transId)

/-- `transaction_reg_accept`: the first transaction with the id is stamped. -/
def transactionRegAccept (stl : List (ServiceTime ID)) (transId : UInt16) (now : ℤ) :
    List (ServiceTime ID) :=
  if transId = INVALID_TRANSID then stl
  else match stl with
    | [] => []
    | st :: stl =>
        if st.transId = transId then { st with acceptReceivedTime := some now } :: stl
        else st :: transactionRegAccept stl transId now

/-- `transaction_remove` -/
def transactionRemove (stl : List (ServiceTime ID)) (transId : UInt16) : List (ServiceTime ID) :=
  stl.eraseP (·.transId = transId)

end PeerStreamer
