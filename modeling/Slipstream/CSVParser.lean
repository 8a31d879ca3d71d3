import Slipstream.GCMDTypes
import Slipstream.RunHistory
import Slipstream.TextStream

/-!
# Parsing CSV files

A file is read line by line, each line is cut at its commas, and the fields
are turned into numbers.  `readQuote` and `readTrade` share the loop over the
lines and differ in what they do with one row.

A field is a `string_view` whose characters are accessed without a bounds
check; an access outside the field is recorded as undefined behaviour.
-/

namespace Slipstream

namespace Csv

structure Quote where
  timestamp : UInt64
  symbol : Symbol
  bidPrice : UInt64
  bidQuantity : UInt64
  askPrice : UInt64
  askQuantity : UInt64
  deriving DecidableEq

/-- The timestamp is in milliseconds after the start of the day. -/
structure Trade where
  timestamp : UInt64
  symbol : Symbol
  price : UInt64
  quantity : UInt64
  deriving DecidableEq

/-- How a call ends. -/
inductive Ending (β : Type) where
  | returns (record : β)
  | throws (exception : Exception)
  | undefined

end Csv

def comma : UInt8 := ','.toUInt8

def newline : UInt8 := '\n'.toUInt8

structure CSVParser where
  reachedEnd_ : Bool
  file : TextStream UInt8

namespace CSVParser

open Csv

/-! ## Fields -/

/-- The difference `c - '0'`, of type `int`; a `char` is signed. -/
def fromZero (c : UInt8) : Int32 :=
  c.toInt8.toInt32 - '0'.toUInt8.toInt8.toInt32

def digit (field : List UInt8) (i : ℕ) : Option UInt32 :=
  field[i]?.map fun c => (fromZero c).toUInt32

def parseTimestamp (field : List UInt8) : Option UInt64 := do
  let hours := (← digit field 0) * 10 + (← digit field 1)
  let minutes := (← digit field 3) * 10 + (← digit field 4)
  let seconds := (← digit field 6) * 10 + (← digit field 7)
  let millis := (← digit field 9) * 100 + (← digit field 10) * 10 +
    (← digit field 11)
  return (((hours * 60 + minutes) * 60 + seconds) * 1000 + millis).toUInt64

/-- The scanning loop of `parsePrice`, and the `fracDigits` it ends with. -/
def scanPrice : List UInt8 → UInt64 → ℕ → Bool → UInt64 × ℕ
  | [], value, fracDigits, _ => (value, fracDigits)
  | c :: later, value, fracDigits, sawPoint =>
      if c = '.'.toUInt8 then scanPrice later value fracDigits true
      else if sawPoint ∧ fracDigits = 4 then (value, fracDigits)
      else
        scanPrice later (value * 10 + (fromZero c).toInt64.toUInt64)
          (if sawPoint then fracDigits + 1 else fracDigits) sawPoint

def parsePrice (field : List UInt8) : UInt64 :=
  let (value, fracDigits) := scanPrice field 0 0 false
  (· * 10)^[4 - fracDigits] value

def isDigit (c : UInt8) : Bool :=
  '0'.toUInt8 ≤ c && c ≤ '9'.toUInt8

def decimalValue (digits : List UInt8) : ℕ :=
  digits.foldl (fun value c => value * 10 + (c - '0'.toUInt8).toNat) 0

/-- `std::from_chars` reads the longest prefix of digits.  It leaves `value`
as it is when there is none or their value does not fit. -/
def parseUInt (field : List UInt8) : UInt64 :=
  let value := decimalValue (field.takeWhile isDigit)
  if value < 2 ^ 64 then UInt64.ofNat value else 0

def text (field : List UInt8) : String :=
  String.ofList (field.map fun c => Char.ofNat c.toNat)

def copySymbol (field : List UInt8) : Except Exception Symbol :=
  if hsize : field.length = 12 then .ok ⟨field, hsize⟩
  else
    .error (.runtimeError ("Symbol field must be exactly " ++ "12" ++
      " characters (ISIN), got: " ++ text field))

/-! ## Rows -/

/-- The body of the loop of `readQuote` for a line that is not empty;
`none` stands for `continue`. -/
def quoteRow (line : List UInt8) : Option (Ending Csv.Quote) :=
  let ss := TextStream.ofText line
  let (buffer, ss) := ss.getline comma []
  match parseTimestamp buffer with
  | none => some .undefined
  | some timestamp =>
      let (buffer, ss) := ss.getline comma buffer
      if buffer ≠ ['Q'.toUInt8] then none
      else
        let (buffer, ss) := ss.getline comma buffer
        match copySymbol buffer with
        | .error exception => some (.throws exception)
        | .ok symbol =>
            let (buffer, ss) := ss.getline comma buffer
            let bidPrice := parsePrice buffer
            let (buffer, ss) := ss.getline comma buffer
            let bidQuantity := parseUInt buffer
            let (buffer, ss) := ss.getline comma buffer
            let askPrice := parsePrice buffer
            let (buffer, _) := ss.getline comma buffer
            let askQuantity := parseUInt buffer
            some (.returns
              { timestamp := timestamp
                symbol := symbol
                bidPrice := bidPrice
                bidQuantity := bidQuantity
                askPrice := askPrice
                askQuantity := askQuantity })

def tradeRow (line : List UInt8) : Option (Ending Csv.Trade) :=
  let ss := TextStream.ofText line
  let (buffer, ss) := ss.getline comma []
  match parseTimestamp buffer with
  | none => some .undefined
  | some timestamp =>
      let (buffer, ss) := ss.getline comma buffer
      if buffer ≠ ['T'.toUInt8] then none
      else
        let (buffer, ss) := ss.getline comma buffer
        match copySymbol buffer with
        | .error exception => some (.throws exception)
        | .ok symbol =>
            let ss := ss.skip comma
            let (buffer, ss) := ss.getline comma buffer
            let price := parsePrice buffer
            let (buffer, _) := ss.getline comma buffer
            let quantity := parseUInt buffer
            some (.returns
              { timestamp := timestamp
                symbol := symbol
                price := price
                quantity := quantity })

/-! ## Lines -/

/-- The loop over the lines: how the call ends if a row ends it. -/
def readLines {β : Type} (row : List UInt8 → Option (Ending β))
    (file : TextStream UInt8) : Option (Ending β) × TextStream UInt8 :=
  match _ : file.getline newline [] with
  | (lineBuffer, next) =>
      if _ : next.fail then (none, next)
      else if lineBuffer = [] then readLines row next
      else
        match row lineBuffer with
        | none => readLines row next
        | some ending => (some ending, next)
termination_by file.rest.length
decreasing_by all_goals exact TextStream.getline_lt ‹_› ‹_›

def endOfFile : Exception :=
  .outOfRange "Reached end of csv file"

/-- The statements shared by `readQuote` and `readTrade`. -/
def readRow {β : Type} (row : List UInt8 → Option (Ending β))
    (parser : CSVParser) : CSVParser × Ending β :=
  if parser.reachedEnd_ then (parser, .throws endOfFile)
  else
    match readLines row parser.file with
    | (some ending, file) => ({ parser with file := file }, ending)
    | (none, file) =>
        ({ reachedEnd_ := true, file := file }, .throws endOfFile)

def readQuote : CSVParser → CSVParser × Ending Csv.Quote :=
  readRow quoteRow

def readTrade : CSVParser → CSVParser × Ending Csv.Trade :=
  readRow tradeRow

def reachedEnd (parser : CSVParser) : Bool :=
  parser.reachedEnd_

/-- `tellg`, whose result matters to a `seekg` that does not move. -/
def tellg (file : TextStream UInt8) : TextStream UInt8 :=
  if file.good then file else file.setFail

/-- A `seekg` on a stream that has failed takes back the end-of-file flag and
fails in its turn. -/
def seekgFailed (file : TextStream UInt8) : TextStream UInt8 :=
  { file with eof := false }

def skipHeader (file : TextStream UInt8) : TextStream UInt8 :=
  match _ : file.getline newline [] with
  | (lineBuffer, next) =>
      if _ : next.fail then seekgFailed next
      else if lineBuffer = [] ∨ lineBuffer.head? = some '#'.toUInt8 then
        skipHeader (tellg next)
      else next
termination_by file.rest.length
decreasing_by
  have hlt := TextStream.getline_lt ‹_› ‹_›
  rw [tellg]
  split <;> exact hlt

/-- The constructor, for the contents of the file if it could be opened. -/
def construct (filename : String) (contents : Option (List UInt8)) :
    Except Exception CSVParser :=
  match contents with
  | none => .error (.runtimeError ("Failed to open CSV file: " ++ filename))
  | some contents =>
      .ok
        { reachedEnd_ := false
          file := skipHeader (TextStream.ofText contents) }

/-! ## The lines that remain -/

/-- The loop of `readLines` over a list of lines. -/
def scanLines {β : Type} (row : List UInt8 → Option (Ending β)) :
    List (List UInt8) → Option (Ending β) × List (List UInt8)
  | [] => (none, [])
  | line :: later =>
      if line = [] then scanLines row later
      else
        match row line with
        | none => scanLines row later
        | some ending => (some ending, later)

section Lines

variable {β : Type} {row : List UInt8 → Option (Ending β)}
  {file next : TextStream UInt8} {line : List UInt8}

theorem readLines_unfold (file : TextStream UInt8) :
    readLines row file =
      let call := file.getline newline []
      if call.2.fail then (none, call.2)
      else if call.1 = [] then readLines row call.2
      else
        match row call.1 with
        | none => readLines row call.2
        | some ending => (some ending, call.2) := by
  rw [readLines]
  rfl

theorem skipHeader_unfold (file : TextStream UInt8) :
    skipHeader file =
      let call := file.getline newline []
      if call.2.fail then seekgFailed call.2
      else if call.1 = [] ∨ call.1.head? = some '#'.toUInt8 then
        skipHeader (tellg call.2)
      else call.2 := by
  rw [skipHeader]
  rfl

theorem readLines_of_exhausted (hremaining : file.remaining newline = []) :
    (readLines row file).1 = none ∧
      (readLines row file).2.remaining newline = [] := by
  have hfail := TextStream.getline_of_exhausted hremaining []
  rw [readLines_unfold]
  dsimp only
  rw [if_pos hfail]
  exact ⟨rfl, TextStream.remaining_of_fail hfail⟩

theorem readLines_of_line (hcall : file.getline newline [] = (line, next))
    (hok : next.fail = false) :
    readLines row file =
      if line = [] then readLines row next
      else
        match row line with
        | none => readLines row next
        | some ending => (some ending, next) := by
  have hgoes : ¬ next.fail = true := by simp [hok]
  rw [readLines_unfold, hcall]
  exact if_neg hgoes

theorem scanLines_rest_of_none {lines : List (List UInt8)}
    (hnone : (scanLines row lines).1 = none) :
    (scanLines row lines).2 = [] := by
  induction lines with
  | nil => rfl
  | cons line later ih =>
      rw [scanLines] at hnone ⊢
      split
      next hblank =>
        rw [if_pos hblank] at hnone
        exact ih hnone
      next hline =>
        rw [if_neg hline] at hnone
        cases hrow : row line with
        | none =>
            rw [hrow] at hnone
            exact ih hnone
        | some ending =>
            rw [hrow] at hnone
            contradiction

theorem readLines_eq (file : TextStream UInt8) :
    (readLines row file).1 = (scanLines row (file.remaining newline)).1 ∧
      (readLines row file).2.remaining newline =
        (scanLines row (file.remaining newline)).2 := by
  cases hremaining : file.remaining newline with
  | nil => exact readLines_of_exhausted hremaining
  | cons line later =>
      obtain ⟨next, hcall, hok, hlater, hlength⟩ :=
        TextStream.getline_of_remaining hremaining []
      have hrest := readLines_eq next
      rw [hlater] at hrest
      rw [readLines_of_line hcall hok, scanLines]
      by_cases hblank : line = []
      · rw [if_pos hblank, if_pos hblank]
        exact hrest
      · rw [if_neg hblank, if_neg hblank]
        cases row line with
        | none => exact hrest
        | some ending => exact ⟨rfl, hlater⟩
termination_by file.rest.length

theorem remaining_tellg (file : TextStream UInt8) :
    (tellg file).remaining newline = file.remaining newline := by
  unfold tellg
  split
  next => rfl
  next hbad =>
    rw [TextStream.remaining_of_fail rfl, TextStream.remaining, if_neg hbad]

def isComment (line : List UInt8) : Bool :=
  line = [] ∨ line.head? = some '#'.toUInt8

theorem remaining_skipHeader (file : TextStream UInt8) :
    (skipHeader file).remaining newline =
      ((file.remaining newline).dropWhile isComment).tail := by
  cases hremaining : file.remaining newline with
  | nil =>
      have hfail := TextStream.getline_of_exhausted hremaining []
      rw [skipHeader_unfold]
      dsimp only
      rw [if_pos hfail]
      exact TextStream.remaining_of_fail hfail
  | cons line later =>
      obtain ⟨next, hcall, hok, hlater, hlength⟩ :=
        TextStream.getline_of_remaining hremaining []
      have hgoes : ¬ next.fail = true := by simp [hok]
      rw [skipHeader_unfold, hcall]
      dsimp only
      rw [if_neg hgoes]
      by_cases hcomment : line = [] ∨ line.head? = some '#'.toUInt8
      · have hskipped := remaining_skipHeader (tellg next)
        rw [remaining_tellg, hlater] at hskipped
        rw [if_pos hcomment, hskipped, List.dropWhile_cons_of_pos]
        exact decide_eq_true hcomment
      · rw [if_neg hcomment, hlater, List.dropWhile_cons_of_neg,
          List.tail_cons]
        exact fun htrue => hcomment (of_decide_eq_true htrue)
termination_by file.rest.length
decreasing_by
  rw [tellg]
  split <;> exact hlength

/-- The lines that a parser will still read. -/
structure Unread (lines : List (List UInt8)) (parser : CSVParser) : Prop where
  remaining : parser.file.remaining newline = lines
  reachedEnd : parser.reachedEnd_ = true → lines = []

theorem readRow_of_unread {parser : CSVParser}
    {later : List (List UInt8)} {ending : Ending β}
    (hunread : Unread (line :: later) parser) (hline : line ≠ [])
    (hrow : row line = some ending) :
    (readRow row parser).2 = ending ∧
      Unread later (readRow row parser).1 := by
  have hgoes : ¬ parser.reachedEnd_ = true := fun hend =>
    absurd (hunread.reachedEnd hend) (List.cons_ne_nil _ _)
  have hscan : scanLines row (line :: later) = (some ending, later) := by
    rw [scanLines, if_neg hline, hrow]
  rcases readLines_eq parser.file with ⟨hfirst, hrest⟩
  rw [hunread.remaining, hscan] at hfirst hrest
  unfold readRow
  rw [if_neg hgoes, ← Prod.mk.eta (p := readLines row parser.file), hfirst]
  exact ⟨rfl, hrest, fun hend => absurd hend hgoes⟩

/-- The lines after the header. -/
def dataLines (contents : List UInt8) : List (List UInt8) :=
  ((TextStream.pieces newline contents).dropWhile isComment).tail

theorem construct_unread (filename : String) (contents : List UInt8) :
    ∃ parser, construct filename (some contents) = .ok parser ∧
      Unread (dataLines contents) parser := by
  refine ⟨_, rfl, ?_, by simp⟩
  rw [remaining_skipHeader]
  rfl

end Lines

/-! ## The columns of a row -/

section Columns

variable {line timestamp kind symbol : List UInt8}

theorem quoteRow_of_columns
    {bidPrice bidQuantity askPrice askQuantity : List UInt8}
    {others : List (List UInt8)}
    (hcolumns : TextStream.pieces comma line =
      timestamp :: kind :: symbol :: bidPrice :: bidQuantity :: askPrice ::
        askQuantity :: others) :
    quoteRow line =
      match parseTimestamp timestamp with
      | none => some .undefined
      | some timestamp =>
          if kind ≠ ['Q'.toUInt8] then none
          else
            match copySymbol symbol with
            | .error exception => some (.throws exception)
            | .ok symbol =>
                some (.returns
                  { timestamp := timestamp
                    symbol := symbol
                    bidPrice := parsePrice bidPrice
                    bidQuantity := parseUInt bidQuantity
                    askPrice := parsePrice askPrice
                    askQuantity := parseUInt askQuantity }) := by
  have hstart : (TextStream.ofText line).remaining comma = _ := hcolumns
  rcases TextStream.getline_of_remaining hstart [] with
    ⟨_, hcall₁, -, hleft₁, -⟩
  rcases TextStream.getline_of_remaining hleft₁ timestamp with
    ⟨_, hcall₂, -, hleft₂, -⟩
  rcases TextStream.getline_of_remaining hleft₂ kind with
    ⟨_, hcall₃, -, hleft₃, -⟩
  rcases TextStream.getline_of_remaining hleft₃ symbol with
    ⟨_, hcall₄, -, hleft₄, -⟩
  rcases TextStream.getline_of_remaining hleft₄ bidPrice with
    ⟨_, hcall₅, -, hleft₅, -⟩
  rcases TextStream.getline_of_remaining hleft₅ bidQuantity with
    ⟨_, hcall₆, -, hleft₆, -⟩
  rcases TextStream.getline_of_remaining hleft₆ askPrice with
    ⟨_, hcall₇, -, -, -⟩
  simp only [quoteRow, hcall₁, hcall₂, hcall₃, hcall₄, hcall₅, hcall₆,
    hcall₇]

theorem tradeRow_of_columns {price quantity : List UInt8}
    {later others : List (List UInt8)}
    (hcolumns : TextStream.pieces comma line =
      timestamp :: kind :: symbol :: later)
    (hlater : later.dropWhile List.isEmpty = price :: quantity :: others) :
    tradeRow line =
      match parseTimestamp timestamp with
      | none => some .undefined
      | some timestamp =>
          if kind ≠ ['T'.toUInt8] then none
          else
            match copySymbol symbol with
            | .error exception => some (.throws exception)
            | .ok symbol =>
                some (.returns
                  { timestamp := timestamp
                    symbol := symbol
                    price := parsePrice price
                    quantity := parseUInt quantity }) := by
  have hstart : (TextStream.ofText line).remaining comma = _ := hcolumns
  rcases TextStream.getline_of_remaining hstart [] with
    ⟨_, hcall₁, -, hleft₁, -⟩
  rcases TextStream.getline_of_remaining hleft₁ timestamp with
    ⟨_, hcall₂, -, hleft₂, -⟩
  obtain ⟨skipped, hcall₃, -, hleft₃, -⟩ :=
    TextStream.getline_of_remaining hleft₂ kind
  have hskipped : (skipped.skip comma).remaining comma =
      price :: quantity :: others := by
    rw [TextStream.remaining_skip, hleft₃, hlater]
  rcases TextStream.getline_of_remaining hskipped symbol with
    ⟨_, hcall₄, -, hleft₄, -⟩
  rcases TextStream.getline_of_remaining hleft₄ price with
    ⟨_, hcall₅, -, -, -⟩
  simp only [tradeRow, hcall₁, hcall₂, hcall₃, hcall₄, hcall₅]

end Columns

end CSVParser

end Slipstream
