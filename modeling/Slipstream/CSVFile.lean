import Slipstream.CSVFields

/-!
# Reading a well-formed CSV file

A well-formed file starts with blank lines and comments, then has one header
line, and then rows mixed with blank lines.  Calling one of the two readers
again and again on a fresh parser returns the rows of its kind in file order
and reports the end of the file from then on.
-/

namespace Slipstream

namespace Csv

/-! ## Rows -/

structure QuoteRow where
  timestamp : TimestampText
  symbol : SymbolText
  bidPrice : PriceText
  bidQuantity : QuantityText
  askPrice : PriceText
  askQuantity : QuantityText

structure TradeRow where
  timestamp : TimestampText
  symbol : SymbolText
  price : PriceText
  quantity : QuantityText

namespace QuoteRow

def columns (row : QuoteRow) : List (List UInt8) :=
  [row.timestamp.text, ['Q'.toUInt8], row.symbol.symbol.val,
    row.bidPrice.text, row.bidQuantity.text, row.askPrice.text,
    row.askQuantity.text, [], []]

def line (row : QuoteRow) : List UInt8 :=
  List.intercalate [comma] row.columns

def record (row : QuoteRow) : Csv.Quote where
  timestamp := row.timestamp.value
  symbol := row.symbol.symbol
  bidPrice := row.bidPrice.value
  bidQuantity := row.bidQuantity.value
  askPrice := row.askPrice.value
  askQuantity := row.askQuantity.value

theorem plain (row : QuoteRow) : ∀ column ∈ row.columns, Plain column := by
  have hkind : Plain ['Q'.toUInt8] :=
    .cons (by decide) (by decide) plain_nil
  simp [columns, hkind, row.timestamp.plain, row.symbol.plain,
    row.bidPrice.plain, row.bidQuantity.plain, row.askPrice.plain,
    row.askQuantity.plain, plain_nil]

/-- The empty price and quantity columns: the last comma ends a piece, and
nothing follows it. -/
theorem pieces_line (row : QuoteRow) :
    TextStream.pieces comma row.line =
      [row.timestamp.text, ['Q'.toUInt8], row.symbol.symbol.val,
        row.bidPrice.text, row.bidQuantity.text, row.askPrice.text,
        row.askQuantity.text, []] := by
  rw [line, TextStream.pieces_intercalate fun column hcolumn =>
    (row.plain column hcolumn).1]
  rfl

end QuoteRow

namespace TradeRow

def columns (row : TradeRow) : List (List UInt8) :=
  [row.timestamp.text, ['T'.toUInt8], row.symbol.symbol.val, [], [], [], [],
    row.price.text, row.quantity.text]

def line (row : TradeRow) : List UInt8 :=
  List.intercalate [comma] row.columns

def record (row : TradeRow) : Csv.Trade where
  timestamp := row.timestamp.value
  symbol := row.symbol.symbol
  price := row.price.value
  quantity := row.quantity.value

theorem plain (row : TradeRow) : ∀ column ∈ row.columns, Plain column := by
  have hkind : Plain ['T'.toUInt8] :=
    .cons (by decide) (by decide) plain_nil
  simp [columns, hkind, row.timestamp.plain, row.symbol.plain,
    row.price.plain, row.quantity.plain, plain_nil]

theorem pieces_line (row : TradeRow) :
    TextStream.pieces comma row.line = row.columns := by
  have hlast : row.columns.getLast? ≠ some [] := fun hempty =>
    row.quantity.text_ne_nil (Option.some.inj hempty)
  rw [line, TextStream.pieces_intercalate fun column hcolumn =>
    (row.plain column hcolumn).1, if_neg hlast]

end TradeRow

/-- A line after the header. -/
inductive Entry where
  | quote (row : QuoteRow)
  | trade (row : TradeRow)
  | blank

namespace Entry

def line : Entry → List UInt8
  | quote row => row.line
  | trade row => row.line
  | blank => []

def quote? : Entry → Option Csv.Quote
  | quote row => some row.record
  | _ => none

def trade? : Entry → Option Csv.Trade
  | trade row => some row.record
  | _ => none

theorem line_eq_nil {entry : Entry} (hnil : entry.line = []) :
    entry = blank := by
  cases entry with
  | quote row =>
      have hpieces := row.pieces_line
      rw [show row.line = [] from hnil] at hpieces
      simp [TextStream.pieces] at hpieces
  | trade row =>
      have hpieces := row.pieces_line
      rw [show row.line = [] from hnil] at hpieces
      simp [TextStream.pieces, TradeRow.columns] at hpieces
  | blank => rfl

theorem newline_not_mem_line (entry : Entry) : newline ∉ entry.line := by
  cases entry with
  | quote row =>
      exact TextStream.not_mem_intercalate (by decide)
        fun column hcolumn => (row.plain column hcolumn).2
  | trade row =>
      exact TextStream.not_mem_intercalate (by decide)
        fun column hcolumn => (row.plain column hcolumn).2
  | blank => exact List.not_mem_nil

end Entry

/-! ## Files -/

/-- In a file that ends with a newline the last entry is blank. -/
structure File where
  preamble : List (List UInt8)
  header : List UInt8
  entries : List Entry
  preamble_comment : ∀ line ∈ preamble, CSVParser.isComment line = true
  preamble_line : ∀ line ∈ preamble, newline ∉ line
  header_not_comment : ¬ CSVParser.isComment header = true
  header_line : newline ∉ header

namespace File

def lines (file : File) : List (List UInt8) :=
  file.preamble ++ file.header :: file.entries.map Entry.line

def text (file : File) : List UInt8 :=
  List.intercalate [newline] file.lines

def quotes (file : File) : List Csv.Quote :=
  file.entries.filterMap Entry.quote?

def trades (file : File) : List Csv.Trade :=
  file.entries.filterMap Entry.trade?

theorem newline_not_mem (file : File) :
    ∀ line ∈ file.lines, newline ∉ line := by
  intro line hline
  rcases List.mem_append.mp hline with hpreamble | hlater
  · exact file.preamble_line line hpreamble
  · rcases List.mem_cons.mp hlater with rfl | hentry
    · exact file.header_line
    · obtain ⟨entry, -, rfl⟩ := List.mem_map.mp hentry
      exact entry.newline_not_mem_line

/-- The lines that are read differ from those of the file at most in a last
blank one. -/
theorem pieces_text (file : File) :
    ∃ kept : List Entry,
      TextStream.pieces newline file.text =
          file.preamble ++ file.header :: kept.map Entry.line ∧
        kept.filterMap Entry.quote? = file.quotes ∧
        kept.filterMap Entry.trade? = file.trades := by
  rw [text, TextStream.pieces_intercalate file.newline_not_mem]
  by_cases hlast : file.lines.getLast? = some []
  · rw [if_pos hlast]
    rcases List.eq_nil_or_concat file.entries with hnil | ⟨init, last, hinit⟩
    · have hheader : file.header = [] := by
        simpa [lines, hnil] using hlast
      exact absurd (by simp [CSVParser.isComment, hheader])
        file.header_not_comment
    · have hsplit : file.lines =
          (file.preamble ++ file.header :: init.map Entry.line) ++
            [last.line] := by
        simp [lines, hinit]
      rw [hsplit, List.getLast?_concat, Option.some.injEq] at hlast
      have hblank := last.line_eq_nil hlast
      refine ⟨init, ?_, ?_, ?_⟩
      · rw [hsplit, List.dropLast_concat]
      · simp [quotes, hinit, hblank, Entry.quote?]
      · simp [trades, hinit, hblank, Entry.trade?]
  · rw [if_neg hlast]
    exact ⟨file.entries, rfl, rfl, rfl⟩

end File

end Csv

namespace CSVParser

open Csv

section Rows

variable (quote : QuoteRow) (trade : TradeRow)

theorem quoteRow_quote :
    quoteRow quote.line = some (.returns quote.record) := by
  rw [quoteRow_of_columns quote.pieces_line, parseTimestamp_text]
  dsimp only
  rw [if_neg (by simp), copySymbol_text]
  simp only [parsePrice_text, parseUInt_text]
  rfl

theorem quoteRow_trade : quoteRow trade.line = none := by
  rw [quoteRow_of_columns trade.pieces_line, parseTimestamp_text]
  dsimp only
  rw [if_pos (by decide)]

theorem tradeRow_trade :
    tradeRow trade.line = some (.returns trade.record) := by
  have hskipped :
      ([[], [], [], [], trade.price.text, trade.quantity.text] :
        List (List UInt8)).dropWhile List.isEmpty =
        [trade.price.text, trade.quantity.text] := by
    simp [trade.price.text_ne_nil]
  rw [tradeRow_of_columns trade.pieces_line hskipped, parseTimestamp_text]
  dsimp only
  rw [if_neg (by simp), copySymbol_text]
  simp only [parsePrice_text, parseUInt_text]
  rfl

/-- The bid price comes right after the symbol, so no comma is skipped. -/
theorem tradeRow_quote : tradeRow quote.line = none := by
  have hskipped :
      ([quote.bidPrice.text, quote.bidQuantity.text, quote.askPrice.text,
          quote.askQuantity.text, []] :
        List (List UInt8)).dropWhile List.isEmpty =
        [quote.bidPrice.text, quote.bidQuantity.text, quote.askPrice.text,
          quote.askQuantity.text, []] := by
    simp [quote.bidPrice.text_ne_nil]
  rw [tradeRow_of_columns quote.pieces_line hskipped, parseTimestamp_text]
  dsimp only
  rw [if_pos (by decide)]

end Rows

/-! ## Repeated calls -/

/-- The parser after a number of calls and how each of them ended. -/
def repeated {β : Type} (read : CSVParser → CSVParser × Ending β)
    (calls : ℕ) (parser : CSVParser) : CSVParser × List (Ending β) :=
  (RunHistory.exec (fun parser _ => read parser) parser
      (List.replicate calls ()),
    RunHistory.outputs (fun parser _ => read parser) parser
      (List.replicate calls ()))

section Repeated

variable {β : Type} {row : List UInt8 → Option (Ending β)}
  {select : Entry → Option β} {parser : CSVParser} {record : β}
  {records : List β}

/-- What the loop body of a reader does with the line of an entry. -/
structure Selects (row : List UInt8 → Option (Ending β))
    (select : Entry → Option β) : Prop where
  row_line : ∀ entry, entry ≠ .blank →
    row entry.line = (select entry).map .returns
  blank : select .blank = none

theorem selects_quotes : Selects quoteRow Entry.quote? where
  row_line entry hentry := by
    cases entry with
    | quote row => exact quoteRow_quote row
    | trade row => exact quoteRow_trade row
    | blank => contradiction
  blank := rfl

theorem selects_trades : Selects tradeRow Entry.trade? where
  row_line entry hentry := by
    cases entry with
    | quote row => exact tradeRow_quote row
    | trade row => exact tradeRow_trade row
    | blank => contradiction
  blank := rfl

theorem scanLines_entries (hselects : Selects row select)
    (entries : List Entry) :
    ∃ rest : List Entry,
      scanLines row (entries.map Entry.line) =
          ((entries.filterMap select).head?.map .returns,
            rest.map Entry.line) ∧
        rest.filterMap select = (entries.filterMap select).tail := by
  induction entries with
  | nil => exact ⟨[], rfl, rfl⟩
  | cons entry later ih =>
      rw [List.map_cons, scanLines]
      by_cases hblank : entry.line = []
      · have hnone : select entry = none := by
          rw [entry.line_eq_nil hblank]
          exact hselects.blank
        rw [if_pos hblank, List.filterMap_cons_none hnone]
        exact ih
      · have hrow := hselects.row_line entry fun heq => hblank (by
          rw [heq]
          rfl)
        rw [if_neg hblank, hrow]
        cases hentry : select entry with
        | none =>
            rw [List.filterMap_cons_none hentry]
            exact ih
        | some record =>
            rw [List.filterMap_cons_some hentry]
            exact ⟨later, rfl, rfl⟩

/-- The records a reader will still return. -/
structure Awaits (select : Entry → Option β) (parser : CSVParser)
    (records : List β) : Prop where
  goes_on : parser.reachedEnd_ = false
  lines : ∃ entries : List Entry,
    parser.file.remaining newline = entries.map Entry.line ∧
      entries.filterMap select = records

theorem Awaits.readLines (hselects : Selects row select)
    (hawaits : Awaits select parser records) :
    (readLines row parser.file).1 = records.head?.map .returns ∧
      ∃ entries : List Entry,
        (readLines row parser.file).2.remaining newline =
            entries.map Entry.line ∧
          entries.filterMap select = records.tail := by
  obtain ⟨entries, hremaining, hrecords⟩ := hawaits.lines
  obtain ⟨rest, hscan, hrest⟩ := scanLines_entries hselects entries
  obtain ⟨hending, hleft⟩ :
      (CSVParser.readLines row parser.file).1 = _ ∧ _ :=
    readLines_eq parser.file
  rw [hremaining, hscan] at hending hleft
  rw [hrecords] at hending hrest
  exact ⟨hending, rest, hleft, hrest⟩

theorem Awaits.readRow_cons (hselects : Selects row select)
    (hawaits : Awaits select parser (record :: records)) :
    (readRow row parser).2 = .returns record ∧
      Awaits select (readRow row parser).1 records := by
  rcases hawaits.readLines hselects with ⟨hending, hlines⟩
  have hread : readRow row parser =
      ({ parser with file := (CSVParser.readLines row parser.file).2 },
        .returns record) := by
    rw [readRow, if_neg (by simp [hawaits.goes_on])]
    rw [← Prod.mk.eta (p := CSVParser.readLines row parser.file), hending]
    rfl
  rw [hread]
  exact ⟨rfl, hawaits.goes_on, hlines⟩

theorem Awaits.readRow_nil (hselects : Selects row select)
    (hawaits : Awaits select parser []) :
    (readRow row parser).2 = .throws endOfFile ∧
      (readRow row parser).1.reachedEnd_ = true := by
  rcases hawaits.readLines hselects with ⟨hending, -⟩
  rw [readRow, if_neg (by simp [hawaits.goes_on]),
    ← Prod.mk.eta (p := CSVParser.readLines row parser.file), hending]
  exact ⟨rfl, rfl⟩

theorem repeated_succ (read : CSVParser → CSVParser × Ending β) (calls : ℕ)
    (parser : CSVParser) :
    repeated read (calls + 1) parser =
      ((repeated read calls (read parser).1).1,
        (read parser).2 :: (repeated read calls (read parser).1).2) :=
  rfl

theorem repeated_of_reachedEnd (hend : parser.reachedEnd_ = true)
    (calls : ℕ) :
    repeated (readRow row) calls parser =
      (parser, List.replicate calls (.throws endOfFile)) := by
  have hread : readRow row parser = (parser, .throws endOfFile) := by
    rw [readRow, if_pos hend]
  induction calls with
  | zero => rfl
  | succ calls ih => rw [repeated_succ, hread, ih, List.replicate_succ]

theorem Awaits.repeated (hselects : Selects row select)
    (hawaits : Awaits select parser records) (calls : ℕ) :
    (repeated (readRow row) calls parser).2 =
        (records.take calls).map .returns ++
          List.replicate (calls - records.length) (.throws endOfFile) ∧
      (repeated (readRow row) calls parser).1.reachedEnd =
        decide (records.length < calls) := by
  induction calls generalizing parser records with
  | zero =>
      refine ⟨by simp [CSVParser.repeated], ?_⟩
      rw [decide_eq_false (Nat.not_lt_zero _)]
      exact hawaits.goes_on
  | succ calls ih =>
      rw [repeated_succ]
      cases records with
      | nil =>
          rcases hawaits.readRow_nil hselects with ⟨hending, hend⟩
          rw [repeated_of_reachedEnd hend, hending]
          have hexceeded : ([] : List β).length < calls + 1 :=
            Nat.succ_pos calls
          rw [decide_eq_true hexceeded]
          exact ⟨rfl, hend⟩
      | cons record later =>
          rcases hawaits.readRow_cons hselects with ⟨hending, hlater⟩
          rcases ih hlater with ⟨hendings, hreached⟩
          rw [hending, hendings, hreached]
          simp

end Repeated

/-! ## Files -/

theorem construct_file (filename : String) (file : Csv.File) :
    ∃ parser, construct filename (some file.text) = .ok parser ∧
      Awaits Entry.quote? parser file.quotes ∧
      Awaits Entry.trade? parser file.trades := by
  obtain ⟨kept, hpieces, hquotes, htrades⟩ := file.pieces_text
  have hremaining : (skipHeader (TextStream.ofText file.text)).remaining
      newline = kept.map Entry.line := by
    have hstart : (TextStream.ofText file.text).remaining newline =
        file.preamble ++ file.header :: kept.map Entry.line := hpieces
    rw [remaining_skipHeader, hstart,
      List.dropWhile_append_of_pos file.preamble_comment,
      List.dropWhile_cons_of_neg file.header_not_comment, List.tail_cons]
  exact ⟨_, rfl, ⟨rfl, kept, hremaining, hquotes⟩,
    ⟨rfl, kept, hremaining, htrades⟩⟩

/-- A reader returns the rows of its kind and then reports the end. -/
theorem readers_return_rows (filename : String) (file : Csv.File) :
    ∃ parser, construct filename (some file.text) = .ok parser ∧
      (∀ calls,
        (repeated readQuote calls parser).2 =
            (file.quotes.take calls).map .returns ++
              List.replicate (calls - file.quotes.length)
                (.throws endOfFile) ∧
          (repeated readQuote calls parser).1.reachedEnd =
            decide (file.quotes.length < calls)) ∧
      ∀ calls,
        (repeated readTrade calls parser).2 =
            (file.trades.take calls).map .returns ++
              List.replicate (calls - file.trades.length)
                (.throws endOfFile) ∧
          (repeated readTrade calls parser).1.reachedEnd =
            decide (file.trades.length < calls) := by
  obtain ⟨parser, hconstruct, hquotes, htrades⟩ :=
    construct_file filename file
  exact ⟨parser, hconstruct, hquotes.repeated selects_quotes,
    htrades.repeated selects_trades⟩

end CSVParser

end Slipstream
