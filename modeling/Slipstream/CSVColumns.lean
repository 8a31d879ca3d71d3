import Slipstream.CSVFields

/-!
# The columns that the fields of a row come from

All fields of a row are read into one buffer.  A call of `getline` behind
the last column leaves the buffer as it is, so the text of an earlier column
is parsed once more.  Reading the row on numbered columns tells which column
every field is taken from.

A quote row is read correctly when it has its seven columns.  A trade row is
read correctly when the empty columns behind the symbol are exactly those of
the quote and the two columns of the trade follow.
-/

namespace Slipstream

namespace Csv

/-- A column with its number, counted from one. -/
structure Column where
  number : ℕ
  text : List UInt8

def numbered : ℕ → List (List UInt8) → List Column
  | _, [] => []
  | number, text :: later => ⟨number, text⟩ :: numbered (number + 1) later

@[simp] theorem map_text_numbered (number : ℕ) (texts : List (List UInt8)) :
    (numbered number texts).map Column.text = texts := by
  induction texts generalizing number with
  | nil => rfl
  | cons text later ih => rw [numbered, List.map_cons, ih]

/-- The column that the buffer holds after one more call of `getline`, and
the columns that are left. -/
def nextColumn (held : Column) : List Column → Column × List Column
  | [] => (held, [])
  | column :: later => (column, later)

/-- The columns in the buffer when the fields of a quote are parsed. -/
structure QuoteCells where
  timestamp : Column
  kind : Column
  symbol : Column
  bidPrice : Column
  bidQuantity : Column
  askPrice : Column
  askQuantity : Column

structure TradeCells where
  timestamp : Column
  kind : Column
  symbol : Column
  price : Column
  quantity : Column

def quoteCells (texts : List (List UInt8)) : QuoteCells :=
  let timestamp := nextColumn ⟨0, []⟩ (numbered 1 texts)
  let kind := nextColumn timestamp.1 timestamp.2
  let symbol := nextColumn kind.1 kind.2
  let bidPrice := nextColumn symbol.1 symbol.2
  let bidQuantity := nextColumn bidPrice.1 bidPrice.2
  let askPrice := nextColumn bidQuantity.1 bidQuantity.2
  let askQuantity := nextColumn askPrice.1 askPrice.2
  { timestamp := timestamp.1
    kind := kind.1
    symbol := symbol.1
    bidPrice := bidPrice.1
    bidQuantity := bidQuantity.1
    askPrice := askPrice.1
    askQuantity := askQuantity.1 }

def tradeCells (texts : List (List UInt8)) : TradeCells :=
  let timestamp := nextColumn ⟨0, []⟩ (numbered 1 texts)
  let kind := nextColumn timestamp.1 timestamp.2
  let symbol := nextColumn kind.1 kind.2
  let price := nextColumn symbol.1
    (symbol.2.dropWhile (List.isEmpty ∘ Column.text))
  let quantity := nextColumn price.1 price.2
  { timestamp := timestamp.1
    kind := kind.1
    symbol := symbol.1
    price := price.1
    quantity := quantity.1 }

end Csv

namespace CSVParser

open Csv

/-- How a row of some kind ends the call, for the texts of its first three
columns. -/
def fieldsRow {β : Type} (letter : UInt8)
    (timestamp kind symbol : List UInt8) (record : UInt64 → Symbol → β) :
    Option (Ending β) :=
  match parseTimestamp timestamp with
  | none => some .undefined
  | some timestamp =>
      if kind ≠ [letter] then none
      else
        match copySymbol symbol with
        | .error exception => some (.throws exception)
        | .ok symbol => some (.returns (record timestamp symbol))

def quoteRecord (cells : QuoteCells) (timestamp : UInt64)
    (symbol : Symbol) : Csv.Quote where
  timestamp := timestamp
  symbol := symbol
  bidPrice := parsePrice cells.bidPrice.text
  bidQuantity := parseUInt cells.bidQuantity.text
  askPrice := parsePrice cells.askPrice.text
  askQuantity := parseUInt cells.askQuantity.text

def tradeRecord (cells : TradeCells) (timestamp : UInt64)
    (symbol : Symbol) : Csv.Trade where
  timestamp := timestamp
  symbol := symbol
  price := parsePrice cells.price.text
  quantity := parseUInt cells.quantity.text

section Cells

/-- A stream and a buffer that stand for a column held and columns left. -/
structure Holds (stream : TextStream UInt8) (buffer : List UInt8)
    (state : Column × List Column) : Prop where
  text : buffer = state.1.text
  unread : stream.unread comma = state.2.map Column.text

variable {stream : TextStream UInt8} {buffer : List UInt8}
  {state : Column × List Column}

theorem Holds.getline (hholds : Holds stream buffer state) :
    ∃ column next, stream.getline comma buffer = (column, next) ∧
      Holds next column (nextColumn state.1 state.2) := by
  rcases hholds with ⟨rfl, hunread⟩
  rcases state with ⟨held, columns⟩
  cases columns with
  | nil =>
      obtain ⟨next, hcall, hleft⟩ :=
        TextStream.getline_of_unread_nil hunread held.text
      exact ⟨_, next, hcall, rfl, hleft⟩
  | cons column later =>
      obtain ⟨next, hcall, hleft⟩ :=
        TextStream.getline_of_unread_cons hunread held.text
      exact ⟨_, next, hcall, rfl, hleft⟩

theorem Holds.skip (hholds : Holds stream buffer state) :
    Holds (stream.skip comma) buffer
      (state.1, state.2.dropWhile (List.isEmpty ∘ Column.text)) := by
  refine ⟨hholds.text, ?_⟩
  rw [TextStream.unread_skip, hholds.unread, List.dropWhile_map]

theorem holds_ofText (line : List UInt8) :
    Holds (TextStream.ofText line) []
      (⟨0, []⟩, numbered 1 (line.splitOn comma)) := by
  refine ⟨rfl, ?_⟩
  rw [TextStream.unread_ofText, map_text_numbered]

theorem quoteRow_cells (line : List UInt8) :
    quoteRow line =
      let cells := quoteCells (line.splitOn comma)
      fieldsRow 'Q'.toUInt8 cells.timestamp.text cells.kind.text
        cells.symbol.text (quoteRecord cells) := by
  rcases (holds_ofText line).getline with ⟨_, _, hcall₁, h₁⟩
  rcases h₁.getline with ⟨_, _, hcall₂, h₂⟩
  rcases h₂.getline with ⟨_, _, hcall₃, h₃⟩
  rcases h₃.getline with ⟨_, _, hcall₄, h₄⟩
  rcases h₄.getline with ⟨_, _, hcall₅, h₅⟩
  rcases h₅.getline with ⟨_, _, hcall₆, h₆⟩
  rcases h₆.getline with ⟨_, _, hcall₇, h₇⟩
  simp only [quoteRow, hcall₁, hcall₂, hcall₃, hcall₄, hcall₅, hcall₆,
    hcall₇]
  rw [h₁.text, h₂.text, h₃.text, h₄.text, h₅.text, h₆.text, h₇.text]
  rfl

theorem tradeRow_cells (line : List UInt8) :
    tradeRow line =
      let cells := tradeCells (line.splitOn comma)
      fieldsRow 'T'.toUInt8 cells.timestamp.text cells.kind.text
        cells.symbol.text (tradeRecord cells) := by
  rcases (holds_ofText line).getline with ⟨_, _, hcall₁, h₁⟩
  rcases h₁.getline with ⟨_, _, hcall₂, h₂⟩
  rcases h₂.getline with ⟨_, _, hcall₃, h₃⟩
  rcases h₃.skip.getline with ⟨_, _, hcall₄, h₄⟩
  rcases h₄.getline with ⟨_, _, hcall₅, h₅⟩
  simp only [tradeRow, hcall₁, hcall₂, hcall₃, hcall₄, hcall₅]
  rw [h₁.text, h₂.text, h₃.text, h₄.text, h₅.text]
  rfl

end Cells

end CSVParser

/-! ## Data rows -/

namespace Csv

inductive RowKind where
  | quote
  | trade
  deriving DecidableEq

def RowKind.letter : RowKind → UInt8
  | .quote => 'Q'.toUInt8
  | .trade => 'T'.toUInt8

theorem RowKind.letter_inj {kind other : RowKind} :
    kind.letter = other.letter ↔ kind = other := by
  cases kind <;> cases other <;> decide

/-- A timestamp and a letter, and any columns behind them. -/
structure DataRow where
  timestamp : TimestampText
  kind : RowKind
  others : List (List UInt8)
  no_comma : ∀ text ∈ others, comma ∉ text

namespace DataRow

def columns (row : DataRow) : List (List UInt8) :=
  row.timestamp.text :: [row.kind.letter] :: row.others

def line (row : DataRow) : List UInt8 :=
  List.intercalate [comma] row.columns

theorem splitOn_line (row : DataRow) :
    row.line.splitOn comma = row.columns := by
  apply List.splitOn_intercalate
  · intro text htext
    rcases List.mem_cons.mp htext with rfl | hlater
    · exact row.timestamp.plain.1
    · rcases List.mem_cons.mp hlater with rfl | hothers
      · cases row.kind <;> decide
      · exact row.no_comma text hothers
  · exact List.cons_ne_nil _ _

/-- The third column has the size of a symbol. -/
def HasSymbol (row : DataRow) : Prop :=
  ∃ text later, row.others = text :: later ∧ text.length = 12

/-- What is copied as the symbol: without a third column the letter is still
in the buffer. -/
def symbolText (row : DataRow) : List UInt8 :=
  row.others.headD [row.kind.letter]

theorem hasSymbol_iff (row : DataRow) :
    row.HasSymbol ↔ row.symbolText.length = 12 := by
  cases hothers : row.others with
  | nil => simp [HasSymbol, symbolText, hothers]
  | cons text later => simp [HasSymbol, symbolText, hothers]

end DataRow

/-- A column of a row that has the given number. -/
structure TakenFrom (texts : List (List UInt8)) (number : ℕ)
    (column : Column) : Prop where
  number_eq : column.number = number
  present : texts[number - 1]? = some column.text

/-- The numbers of a quote are parsed from columns 4 to 7. -/
structure QuoteInPlace (texts : List (List UInt8)) (quote : Csv.Quote) :
    Prop where
  bidPrice : TakenFrom texts 4 (quoteCells texts).bidPrice ∧
    quote.bidPrice =
      CSVParser.parsePrice (quoteCells texts).bidPrice.text
  bidQuantity : TakenFrom texts 5 (quoteCells texts).bidQuantity ∧
    quote.bidQuantity =
      CSVParser.parseUInt (quoteCells texts).bidQuantity.text
  askPrice : TakenFrom texts 6 (quoteCells texts).askPrice ∧
    quote.askPrice =
      CSVParser.parsePrice (quoteCells texts).askPrice.text
  askQuantity : TakenFrom texts 7 (quoteCells texts).askQuantity ∧
    quote.askQuantity =
      CSVParser.parseUInt (quoteCells texts).askQuantity.text

/-- The numbers of a trade are parsed from columns 8 and 9. -/
structure TradeInPlace (texts : List (List UInt8)) (trade : Csv.Trade) :
    Prop where
  price : TakenFrom texts 8 (tradeCells texts).price ∧
    trade.price = CSVParser.parsePrice (tradeCells texts).price.text
  quantity : TakenFrom texts 9 (tradeCells texts).quantity ∧
    trade.quantity = CSVParser.parseUInt (tradeCells texts).quantity.text

/-- A row is skipped, ends the call with an exception, or gives a record as
required. -/
def SkipsThrowsOr {β : Type} (inPlace : β → Prop) :
    Option (Ending β) → Prop
  | none => True
  | some (.throws _) => True
  | some (.returns record) => inPlace record
  | some .undefined => False

theorem dropWhile_numbered (number : ℕ) (texts : List (List UInt8)) :
    (numbered number texts).dropWhile (List.isEmpty ∘ Column.text) =
      numbered (number + (texts.takeWhile List.isEmpty).length)
        (texts.dropWhile List.isEmpty) := by
  induction texts generalizing number with
  | nil => rfl
  | cons text later ih =>
      cases htext : text.isEmpty with
      | true =>
          rw [numbered, List.dropWhile_cons_of_pos (by simpa using htext),
            ih, List.takeWhile_cons_of_pos htext,
            List.dropWhile_cons_of_pos htext, List.length_cons,
            Nat.add_right_comm, Nat.add_assoc]
      | false =>
          have hnot : ¬ text.isEmpty = true := by simp [htext]
          rw [numbered, List.dropWhile_cons_of_neg (by simpa using hnot),
            List.takeWhile_cons_of_neg hnot,
            List.dropWhile_cons_of_neg hnot]
          rfl

end Csv

namespace CSVParser

open Csv

theorem fieldsRow_in_place_iff {β : Type} {inPlace : β → Prop}
    {letter : UInt8} {kind symbol : List UInt8}
    {record : UInt64 → Symbol → β} (timestamp : TimestampText) :
    SkipsThrowsOr inPlace
        (fieldsRow letter timestamp.text kind symbol record) ↔
      (kind = [letter] → ∀ hsize : symbol.length = 12,
        inPlace (record timestamp.value ⟨symbol, hsize⟩)) := by
  rw [fieldsRow, parseTimestamp_text]
  dsimp only
  by_cases hkind : kind = [letter]
  · rw [if_neg (by simp [hkind])]
    by_cases hsize : symbol.length = 12
    · rw [copySymbol, dif_pos hsize]
      simp [SkipsThrowsOr, hkind, hsize]
    · rw [copySymbol, dif_neg hsize]
      simp [SkipsThrowsOr, hsize]
  · rw [if_pos hkind]
    simp [SkipsThrowsOr, hkind]

section Symbol

variable (timestamp kind symbol : List UInt8) (later : List (List UInt8))

theorem quoteCells_taken_iff :
    let texts := timestamp :: kind :: symbol :: later
    let cells := quoteCells texts
    (TakenFrom texts 4 cells.bidPrice ∧ TakenFrom texts 5 cells.bidQuantity ∧
        TakenFrom texts 6 cells.askPrice ∧
          TakenFrom texts 7 cells.askQuantity) ↔
      4 ≤ later.length := by
  intro texts cells
  constructor
  · rintro ⟨-, -, -, hlast⟩
    have hpresent := hlast.present
    rw [List.getElem?_eq_some_iff] at hpresent
    rcases hpresent with ⟨hlength, -⟩
    simp only [texts, List.length_cons] at hlength
    omega
  · intro hlength
    rcases later with _ | ⟨a, _ | ⟨b, _ | ⟨c, _ | ⟨d, rest⟩⟩⟩⟩
    · simp at hlength
    · simp at hlength
    · simp at hlength
    · simp at hlength
    · exact ⟨⟨rfl, rfl⟩, ⟨rfl, rfl⟩, ⟨rfl, rfl⟩, ⟨rfl, rfl⟩⟩

theorem tradeCells_price :
    (tradeCells (timestamp :: kind :: symbol :: later)).price =
      (nextColumn ⟨3, symbol⟩
        (numbered (4 + (later.takeWhile List.isEmpty).length)
          (later.dropWhile List.isEmpty))).1 := by
  rw [← dropWhile_numbered]
  rfl

theorem tradeCells_quantity :
    (tradeCells (timestamp :: kind :: symbol :: later)).quantity =
      let price := nextColumn ⟨3, symbol⟩
        (numbered (4 + (later.takeWhile List.isEmpty).length)
          (later.dropWhile List.isEmpty))
      (nextColumn price.1 price.2).1 := by
  rw [← dropWhile_numbered]
  rfl

theorem tradeCells_taken_iff :
    let texts := timestamp :: kind :: symbol :: later
    let cells := tradeCells texts
    (TakenFrom texts 8 cells.price ∧ TakenFrom texts 9 cells.quantity) ↔
      (later.takeWhile List.isEmpty).length = 4 ∧ 6 ≤ later.length := by
  intro texts cells
  have hprice : cells.price = _ :=
    tradeCells_price timestamp kind symbol later
  have hquantity : cells.quantity = _ :=
    tradeCells_quantity timestamp kind symbol later
  have hsplit := List.takeWhile_append_dropWhile
    (p := List.isEmpty) (l := later)
  have hlength := congrArg List.length hsplit
  rw [List.length_append] at hlength
  cases hrest : later.dropWhile List.isEmpty with
  | nil =>
      rw [hrest, List.length_nil] at hlength
      rw [hrest] at hprice
      constructor
      · rintro ⟨htaken, -⟩
        have hnumber := htaken.number_eq
        rw [hprice] at hnumber
        have hsymbol : 3 = 8 := hnumber
        contradiction
      · rintro ⟨hempty, hlong⟩
        omega
  | cons price rest =>
      rw [hrest] at hprice hquantity hsplit hlength
      constructor
      · rintro ⟨htaken, hnext⟩
        have hnumber := htaken.number_eq
        rw [hprice] at hnumber
        have hempty : 4 + (later.takeWhile List.isEmpty).length = 8 :=
          hnumber
        have hpresent := hnext.present
        rw [List.getElem?_eq_some_iff] at hpresent
        rcases hpresent with ⟨hlong, -⟩
        simp only [texts, List.length_cons] at hlong
        exact ⟨by omega, by omega⟩
      · rintro ⟨hempty, hlong⟩
        rw [hempty] at hprice hquantity
        cases rest with
        | nil =>
            rw [List.length_singleton] at hlength
            omega
        | cons quantity others =>
            have hcolumns : texts = [timestamp, kind, symbol] ++
                later.takeWhile List.isEmpty ++ price :: quantity ::
                  others := by
              rw [List.append_assoc, hsplit]
              rfl
            have hbefore : ([timestamp, kind, symbol] ++
                later.takeWhile List.isEmpty).length = 7 := by
              rw [List.length_append, hempty]
              rfl
            rw [hprice, hquantity, hcolumns]
            constructor
            · refine ⟨rfl, ?_⟩
              rw [List.getElem?_append_right (by omega), hbefore]
              rfl
            · refine ⟨rfl, ?_⟩
              rw [List.getElem?_append_right (by omega), hbefore]
              rfl

end Symbol

theorem quoteInPlace_iff (texts : List (List UInt8)) (timestamp : UInt64)
    (symbol : Symbol) :
    QuoteInPlace texts (quoteRecord (quoteCells texts) timestamp symbol) ↔
      TakenFrom texts 4 (quoteCells texts).bidPrice ∧
        TakenFrom texts 5 (quoteCells texts).bidQuantity ∧
        TakenFrom texts 6 (quoteCells texts).askPrice ∧
        TakenFrom texts 7 (quoteCells texts).askQuantity := by
  constructor
  · intro hplace
    exact ⟨hplace.bidPrice.1, hplace.bidQuantity.1, hplace.askPrice.1,
      hplace.askQuantity.1⟩
  · rintro ⟨hbid, hbidQuantity, hask, haskQuantity⟩
    exact ⟨⟨hbid, rfl⟩, ⟨hbidQuantity, rfl⟩, ⟨hask, rfl⟩,
      ⟨haskQuantity, rfl⟩⟩

theorem tradeInPlace_iff (texts : List (List UInt8)) (timestamp : UInt64)
    (symbol : Symbol) :
    TradeInPlace texts (tradeRecord (tradeCells texts) timestamp symbol) ↔
      TakenFrom texts 8 (tradeCells texts).price ∧
        TakenFrom texts 9 (tradeCells texts).quantity := by
  constructor
  · intro hplace
    exact ⟨hplace.price.1, hplace.quantity.1⟩
  · rintro ⟨hprice, hquantity⟩
    exact ⟨⟨hprice, rfl⟩, ⟨hquantity, rfl⟩⟩

/-- The two readers differ in the letter and in the shape that a row with a
symbol must have. -/
theorem fieldsRow_shape_iff {β : Type} {inPlace : β → Prop}
    {record : UInt64 → Symbol → β} (row : DataRow) (kind : RowKind)
    {shape : Prop}
    (hshape : row.HasSymbol → ∀ symbol,
      inPlace (record row.timestamp.value symbol) ↔ shape) :
    SkipsThrowsOr inPlace
        (fieldsRow kind.letter row.timestamp.text [row.kind.letter]
          row.symbolText record) ↔
      (row.kind = kind → row.HasSymbol → shape) := by
  rw [fieldsRow_in_place_iff, List.singleton_inj, RowKind.letter_inj]
  constructor
  · intro hplace hkind hsymbol
    have hsize := row.hasSymbol_iff.mp hsymbol
    exact (hshape hsymbol _).mp (hplace hkind hsize)
  · intro hrow hkind hsize
    have hsymbol := row.hasSymbol_iff.mpr hsize
    exact (hshape hsymbol _).mpr (hrow hkind hsymbol)

section Rows

variable (row : DataRow)

theorem quoteRow_in_place_iff :
    SkipsThrowsOr (QuoteInPlace row.columns) (quoteRow row.line) ↔
      (row.kind = .quote → row.HasSymbol → 7 ≤ row.columns.length) := by
  have hrow : quoteRow row.line =
      fieldsRow RowKind.quote.letter row.timestamp.text [row.kind.letter]
        row.symbolText (quoteRecord (quoteCells row.columns)) := by
    rw [quoteRow_cells, row.splitOn_line, DataRow.columns,
      DataRow.symbolText]
    cases row.others <;> rfl
  rw [hrow]
  apply fieldsRow_shape_iff
  rintro ⟨symbol, later, hothers, -⟩ copied
  rw [quoteInPlace_iff, DataRow.columns, hothers]
  apply Iff.trans
    (quoteCells_taken_iff row.timestamp.text [row.kind.letter] symbol later)
  simp only [List.length_cons]
  omega

theorem tradeRow_in_place_iff :
    SkipsThrowsOr (TradeInPlace row.columns) (tradeRow row.line) ↔
      (row.kind = .trade → row.HasSymbol →
        (row.others.tail.takeWhile List.isEmpty).length = 4 ∧
          9 ≤ row.columns.length) := by
  have hrow : tradeRow row.line =
      fieldsRow RowKind.trade.letter row.timestamp.text [row.kind.letter]
        row.symbolText (tradeRecord (tradeCells row.columns)) := by
    rw [tradeRow_cells, row.splitOn_line, DataRow.columns,
      DataRow.symbolText]
    cases row.others <;> rfl
  rw [hrow]
  apply fieldsRow_shape_iff
  rintro ⟨symbol, later, hothers, -⟩ copied
  rw [tradeInPlace_iff, DataRow.columns, hothers, List.tail_cons]
  apply Iff.trans
    (tradeCells_taken_iff row.timestamp.text [row.kind.letter] symbol later)
  simp only [List.length_cons]
  omega

/-- A data row gives a record with numbers from their own columns, or none
at all, if and only if the row of a quote has seven columns, and in the row
of a trade columns 4 to 7 are the empty ones behind the symbol and there are
nine. -/
theorem fields_in_place_iff :
    (SkipsThrowsOr (QuoteInPlace row.columns) (quoteRow row.line) ∧
        SkipsThrowsOr (TradeInPlace row.columns) (tradeRow row.line)) ↔
      (row.HasSymbol →
        match row.kind with
        | .quote => 7 ≤ row.columns.length
        | .trade =>
            (row.others.tail.takeWhile List.isEmpty).length = 4 ∧
              9 ≤ row.columns.length) := by
  rw [quoteRow_in_place_iff, tradeRow_in_place_iff]
  cases row.kind <;> simp

end Rows

def midnight : TimestampText :=
  let zero : Fin 10 := ⟨0, by decide⟩
  ⟨(zero, zero), (zero, zero), (zero, zero), (zero, zero, zero)⟩

/-- Four columns: the bid price is read four times. -/
def truncatedQuote : DataRow where
  timestamp := midnight
  kind := .quote
  others := [List.replicate 12 'A'.toUInt8, ['1'.toUInt8]]
  no_comma := by decide

/-- Eight columns: the price is read as the quantity too. -/
def truncatedTrade : DataRow where
  timestamp := midnight
  kind := .trade
  others :=
    [List.replicate 12 'A'.toUInt8, [], [], [], [], ['5'.toUInt8]]
  no_comma := by decide

theorem truncated_rows_repeat_a_column :
    (∃ quote, quoteRow truncatedQuote.line = some (.returns quote) ∧
        quote.bidPrice = 10000 ∧ quote.bidQuantity = 1 ∧
        quote.askPrice = 10000 ∧ quote.askQuantity = 1 ∧
        ¬ QuoteInPlace truncatedQuote.columns quote) ∧
      ∃ trade, tradeRow truncatedTrade.line = some (.returns trade) ∧
        trade.price = 50000 ∧ trade.quantity = 5 ∧
        ¬ TradeInPlace truncatedTrade.columns trade := by
  constructor
  · refine ⟨_, rfl, rfl, rfl, rfl, rfl, ?_⟩
    intro hplace
    exact absurd hplace.bidQuantity.1.number_eq (by decide)
  · have hrow : tradeRow truncatedTrade.line =
        some (.returns (tradeRecord (tradeCells truncatedTrade.columns)
          truncatedTrade.timestamp.value
          ⟨List.replicate 12 'A'.toUInt8, rfl⟩)) := by
      rw [tradeRow_cells, DataRow.splitOn_line]
      rfl
    refine ⟨_, hrow, rfl, rfl, ?_⟩
    intro hplace
    exact absurd hplace.quantity.1.number_eq (by decide)

end CSVParser

end Slipstream
