import Mathlib.Data.Vector.Defs
import Mathlib.Tactic

/-!
# Market-data messages

The in-memory market-data types and the tables that give each enumeration
its wire code.  Decoding tables are partial in the source: an unlisted code
throws, and the exception carries a fixed text.

A C++ call that can throw is modelled by the value or the exception it
ends with.  Where the call also mutates an object, the object's new state
is returned beside that result, because a throw does not undo the writes
made before it.
-/

namespace Slipstream

inductive Exception where
  | logicError (what : String)
  | runtimeError (what : String)
  | outOfRange (what : String)
  | invalidArgument (what : String)
  | badAlloc
  deriving DecidableEq, Repr

abbrev Outcome (σ α : Type) := Except Exception α × σ

/-- The `char symbol[12]` of every message. -/
abbrev Symbol := List.Vector UInt8 12

inductive MessageType where
  | quote
  | trade
  | heartbeat
  | sessionControl
  deriving DecidableEq, Repr

inductive TradeAggressor where
  | buy
  | sell
  | unknown
  deriving DecidableEq, Repr

/-- `OPEN`, `HALT` and `CLOSE`; the first is renamed because `open` is
reserved. -/
inductive SessionControlState where
  | opened
  | halt
  | close
  deriving DecidableEq, Repr

def messageTypeFromNum (type : UInt8) : Except Exception MessageType :=
  match type with
  | 1 => .ok .quote
  | 2 => .ok .trade
  | 3 => .ok .heartbeat
  | 4 => .ok .sessionControl
  | _ => .error (.logicError "Incorrect message type recieved")

def messageTypeToNum : MessageType → UInt8
  | .quote => 1
  | .trade => 2
  | .heartbeat => 3
  | .sessionControl => 4

def aggressorFromChar (aggressor : UInt8) :
    Except Exception TradeAggressor :=
  if aggressor = 'B'.toUInt8 then .ok .buy
  else if aggressor = 'S'.toUInt8 then .ok .sell
  else if aggressor = '?'.toUInt8 then .ok .unknown
  else .error (.logicError "Incorrect trade agressor recieved")

def aggressorToChar : TradeAggressor → UInt8
  | .buy => 'B'.toUInt8
  | .sell => 'S'.toUInt8
  | .unknown => '?'.toUInt8

def sessionControlStateFromNum (state : UInt8) :
    Except Exception SessionControlState :=
  match state with
  | 0 => .ok .opened
  | 1 => .ok .halt
  | 2 => .ok .close
  | _ => .error (.logicError "Incorrect session control recieved")

/-- The codes of `CLOSE` and `HALT` are not the ones that
`sessionControlStateFromNum` reads. -/
def sessionControlStateToNum : SessionControlState → UInt8
  | .opened => 0
  | .close => 1
  | .halt => 2

structure Quote where
  symbol : Symbol
  timestampNs : UInt64
  bidQuantity : UInt32
  bidPrice : Int64
  askQuantity : UInt32
  askPrice : Int64
  deriving DecidableEq

structure Trade where
  symbol : Symbol
  timestampNs : UInt64
  quantity : UInt32
  price : Int64
  aggressor : TradeAggressor
  id : Int64
  deriving DecidableEq

structure Heartbeat where
  timestamp : UInt64
  deriving DecidableEq

structure SessionControl where
  timestamp : UInt64
  state : SessionControlState
  deriving DecidableEq

inductive MDMessage where
  | quote (quote : Quote)
  | trade (trade : Trade)
  | heartbeat (heartbeat : Heartbeat)
  | sessionControl (sessionControl : SessionControl)
  deriving DecidableEq

theorem messageTypeFromNum_toNum (type : MessageType) :
    messageTypeFromNum (messageTypeToNum type) = .ok type := by
  cases type <;> rfl

theorem aggressorFromChar_toChar (aggressor : TradeAggressor) :
    aggressorFromChar (aggressorToChar aggressor) = .ok aggressor := by
  cases aggressor <;> rfl

/-- A code is accepted exactly when it is the code of what it decodes to. -/
theorem messageTypeFromNum_eq_ok_iff {code : UInt8} {type : MessageType} :
    messageTypeFromNum code = .ok type ↔ messageTypeToNum type = code := by
  constructor
  · intro hdecoded
    unfold messageTypeFromNum at hdecoded
    split at hdecoded <;> cases hdecoded <;> rfl
  · rintro rfl
    exact messageTypeFromNum_toNum type

theorem aggressorFromChar_eq_ok_iff {code : UInt8}
    {aggressor : TradeAggressor} :
    aggressorFromChar code = .ok aggressor ↔
      aggressorToChar aggressor = code := by
  constructor
  · intro hdecoded
    unfold aggressorFromChar at hdecoded
    split_ifs at hdecoded with hbuy hsell hunknown
    · cases hdecoded
      exact hbuy.symm
    · cases hdecoded
      exact hsell.symm
    · cases hdecoded
      exact hunknown.symm
  · rintro rfl
    exact aggressorFromChar_toChar aggressor

/-- The state that is read from the code of the given one. -/
def decodedState : SessionControlState → SessionControlState
  | .opened => .opened
  | .halt => .close
  | .close => .halt

theorem sessionControlStateFromNum_toNum (state : SessionControlState) :
    sessionControlStateFromNum (sessionControlStateToNum state) =
      .ok (decodedState state) := by
  cases state <;> rfl

/-- A code is read as the state that its own state's code is read as. -/
theorem sessionControlStateFromNum_eq_ok_iff {code : UInt8}
    {state : SessionControlState} :
    sessionControlStateFromNum code = .ok state ↔
      sessionControlStateToNum (decodedState state) = code := by
  constructor
  · intro hdecoded
    unfold sessionControlStateFromNum at hdecoded
    split at hdecoded <;> cases hdecoded <;> rfl
  · rintro rfl
    cases state <;> rfl

theorem decodedState_eq_self_iff (state : SessionControlState) :
    decodedState state = state ↔ state = .opened := by
  cases state <;> decide

/-! ## Quantities and prices as exact integers -/

def quantitySum (trades : List Trade) : ℕ :=
  (trades.map fun trade => trade.quantity.toNat).sum

/-- Quantity times signed price, with no width limit. -/
def Trade.pricedQuantity (trade : Trade) : ℤ :=
  (trade.quantity.toNat : ℤ) * trade.price.toInt

def pricedSum (trades : List Trade) : ℤ :=
  (trades.map Trade.pricedQuantity).sum

@[simp] theorem quantitySum_nil : quantitySum [] = 0 := rfl

@[simp] theorem quantitySum_cons (trade : Trade) (rest : List Trade) :
    quantitySum (trade :: rest) =
      trade.quantity.toNat + quantitySum rest := rfl

@[simp] theorem quantitySum_append (left right : List Trade) :
    quantitySum (left ++ right) = quantitySum left + quantitySum right := by
  simp [quantitySum]

@[simp] theorem pricedSum_nil : pricedSum [] = 0 := rfl

@[simp] theorem pricedSum_cons (trade : Trade) (rest : List Trade) :
    pricedSum (trade :: rest) =
      trade.pricedQuantity + pricedSum rest := rfl

@[simp] theorem pricedSum_append (left right : List Trade) :
    pricedSum (left ++ right) = pricedSum left + pricedSum right := by
  simp [pricedSum]

theorem quantitySum_eq_zero_iff (trades : List Trade) :
    quantitySum trades = 0 ↔
      ∀ trade ∈ trades, trade.quantity.toNat = 0 := by
  simp [quantitySum, List.sum_eq_zero_iff]

theorem pricedSum_eq_zero_of_quantitySum_eq_zero {trades : List Trade}
    (hzero : quantitySum trades = 0) : pricedSum trades = 0 := by
  rw [quantitySum_eq_zero_iff] at hzero
  unfold pricedSum
  apply List.sum_eq_zero
  intro value hvalue
  obtain ⟨trade, htrade, rfl⟩ := List.mem_map.mp hvalue
  simp [Trade.pricedQuantity, hzero trade htrade]

theorem quantitySum_le (trades : List Trade) :
    quantitySum trades ≤ trades.length * (2 ^ 32 - 1) := by
  induction trades with
  | nil => simp
  | cons trade rest ih =>
      have hquantity := trade.quantity.toNat_lt
      simp only [quantitySum_cons, List.length_cons]
      omega

end Slipstream
