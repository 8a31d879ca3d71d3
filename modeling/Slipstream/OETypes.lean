import Slipstream.GCMDTypes

/-!
# Order-entry messages

The in-memory orders and execution reports, and the tables that give their
enumerations a wire code.
-/

namespace Slipstream

inductive OrderStatus where
  | accepted
  | rejected
  deriving DecidableEq, Repr

inductive OrderSide where
  | buy
  | sell
  deriving DecidableEq, Repr

inductive ExecStatus where
  | ack
  | fill
  | partialFill
  | reject
  deriving DecidableEq, Repr

inductive RejectReason where
  | none
  | risk
  | price
  | size
  | throttle
  deriving DecidableEq, Repr

inductive OEMessageType where
  | newOrder
  | execReport
  deriving DecidableEq, Repr

def oeMessageTypeFromNum (type : UInt8) : Except Exception OEMessageType :=
  match type with
  | 10 => .ok .newOrder
  | 11 => .ok .execReport
  | _ => .error (.logicError "Incorrect OE message type recieved")

def oeMessageTypeToNum : OEMessageType → UInt8
  | .newOrder => 10
  | .execReport => 11

def orderStatusFromChar (status : UInt8) : Except Exception OrderStatus :=
  if status = 'A'.toUInt8 then .ok .accepted
  else if status = 'R'.toUInt8 then .ok .rejected
  else .error (.logicError "Incorrect order status recieved")

def orderStatusToChar : OrderStatus → UInt8
  | .accepted => 'A'.toUInt8
  | .rejected => 'R'.toUInt8

def orderSideFromChar (side : UInt8) : Except Exception OrderSide :=
  if side = 'B'.toUInt8 then .ok .buy
  else if side = 'S'.toUInt8 then .ok .sell
  else .error (.logicError "Incorrect order side recieved")

def orderSideToChar : OrderSide → UInt8
  | .buy => 'B'.toUInt8
  | .sell => 'S'.toUInt8

def execStatusFromNum (status : UInt8) : Except Exception ExecStatus :=
  match status with
  | 0 => .ok .ack
  | 1 => .ok .fill
  | 2 => .ok .partialFill
  | 3 => .ok .reject
  | _ => .error (.logicError "Incorrect exec status recieved")

def execStatusToNum : ExecStatus → UInt8
  | .ack => 0
  | .fill => 1
  | .partialFill => 2
  | .reject => 3

def rejectReasonFromNum (code : UInt8) : Except Exception RejectReason :=
  match code with
  | 0 => .ok .none
  | 1 => .ok .risk
  | 2 => .ok .price
  | 3 => .ok .size
  | 4 => .ok .throttle
  | _ => .error (.logicError "Incorrect reject reason recieved")

def rejectReasonToNum : RejectReason → UInt8
  | .none => 0
  | .risk => 1
  | .price => 2
  | .size => 3
  | .throttle => 4

structure ExecReport where
  clientOrderId : UInt64
  tsNs : UInt64
  status : ExecStatus
  filledQty : UInt32
  avgPx : Int64
  reasonCode : RejectReason
  deriving DecidableEq

structure NewOrder where
  clientOrderId : UInt64
  symbol : Symbol
  status : OrderStatus
  tsNs : UInt64
  tradeId : Int64
  side : OrderSide
  qty : UInt32
  limitPx : Int64
  deriving DecidableEq

/-! ## The tables are inverse

A code is accepted exactly when it is the code of what it decodes to. -/

theorem oeMessageTypeFromNum_toNum (type : OEMessageType) :
    oeMessageTypeFromNum (oeMessageTypeToNum type) = .ok type := by
  cases type <;> rfl

theorem orderStatusFromChar_eq_ok_iff {code : UInt8}
    {status : OrderStatus} :
    orderStatusFromChar code = .ok status ↔
      orderStatusToChar status = code := by
  constructor
  · intro hdecoded
    unfold orderStatusFromChar at hdecoded
    split_ifs at hdecoded with haccepted hrejected
    · cases hdecoded
      exact haccepted.symm
    · cases hdecoded
      exact hrejected.symm
  · rintro rfl
    cases status <;> rfl

theorem orderSideFromChar_eq_ok_iff {code : UInt8} {side : OrderSide} :
    orderSideFromChar code = .ok side ↔ orderSideToChar side = code := by
  constructor
  · intro hdecoded
    unfold orderSideFromChar at hdecoded
    split_ifs at hdecoded with hbuy hsell
    · cases hdecoded
      exact hbuy.symm
    · cases hdecoded
      exact hsell.symm
  · rintro rfl
    cases side <;> rfl

theorem execStatusFromNum_eq_ok_iff {code : UInt8} {status : ExecStatus} :
    execStatusFromNum code = .ok status ↔ execStatusToNum status = code := by
  constructor
  · intro hdecoded
    unfold execStatusFromNum at hdecoded
    split at hdecoded <;> cases hdecoded <;> rfl
  · rintro rfl
    cases status <;> rfl

theorem rejectReasonFromNum_eq_ok_iff {code : UInt8}
    {reason : RejectReason} :
    rejectReasonFromNum code = .ok reason ↔
      rejectReasonToNum reason = code := by
  constructor
  · intro hdecoded
    unfold rejectReasonFromNum at hdecoded
    split at hdecoded <;> cases hdecoded <;> rfl
  · rintro rfl
    cases reason <;> rfl

/-! ## Quantities of order lists -/

def orderQuantity (keep : NewOrder → Bool) (orders : List NewOrder) : ℕ :=
  ((orders.filter keep).map fun order => order.qty.toNat).sum

def acceptedQuantity (orders : List NewOrder) : ℕ :=
  orderQuantity (fun order => order.status = .accepted) orders

def sideQuantity (side : OrderSide) (orders : List NewOrder) : ℕ :=
  orderQuantity (fun order => order.status = .accepted ∧ order.side = side)
    orders

theorem orderQuantity_append (keep : NewOrder → Bool)
    (left right : List NewOrder) :
    orderQuantity keep (left ++ right) =
      orderQuantity keep left + orderQuantity keep right := by
  simp [orderQuantity]

theorem orderQuantity_singleton (keep : NewOrder → Bool)
    (order : NewOrder) :
    orderQuantity keep [order] =
      if keep order then order.qty.toNat else 0 := by
  cases hkeep : keep order <;> simp [orderQuantity, hkeep]

@[simp] theorem acceptedQuantity_nil : acceptedQuantity [] = 0 := rfl

@[simp] theorem sideQuantity_nil (side : OrderSide) :
    sideQuantity side [] = 0 := rfl

@[simp] theorem acceptedQuantity_append (left right : List NewOrder) :
    acceptedQuantity (left ++ right) =
      acceptedQuantity left + acceptedQuantity right :=
  orderQuantity_append _ left right

@[simp] theorem sideQuantity_append (side : OrderSide)
    (left right : List NewOrder) :
    sideQuantity side (left ++ right) =
      sideQuantity side left + sideQuantity side right :=
  orderQuantity_append _ left right

theorem acceptedQuantity_singleton (order : NewOrder) :
    acceptedQuantity [order] =
      if order.status = .accepted then order.qty.toNat else 0 := by
  simp [acceptedQuantity, orderQuantity_singleton]

theorem sideQuantity_singleton (side : OrderSide) (order : NewOrder) :
    sideQuantity side [order] =
      if order.status = .accepted ∧ order.side = side
      then order.qty.toNat else 0 := by
  simp [sideQuantity, orderQuantity_singleton]

theorem acceptedQuantity_eq_buy_add_sell (orders : List NewOrder) :
    acceptedQuantity orders =
      sideQuantity .buy orders + sideQuantity .sell orders := by
  induction orders with
  | nil => rfl
  | cons order rest ih =>
      rw [← List.singleton_append, acceptedQuantity_append,
        sideQuantity_append, sideQuantity_append, ih,
        acceptedQuantity_singleton, sideQuantity_singleton,
        sideQuantity_singleton]
      cases order.side <;> cases order.status <;> simp <;> omega

end Slipstream
