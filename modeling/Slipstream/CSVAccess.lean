import Slipstream.CSVColumns

/-!
# Accesses outside a field

Only `parseTimestamp` accesses characters at fixed positions, and it is
applied to the first field of every line that is not blank, whatever the
line is.  A call of a reader reads up to the first line of its kind; if all
lines it reads have twelve characters before the first comma, the call
returns a record or throws one of its exceptions.
-/

namespace Slipstream

namespace Csv

def firstField (line : List UInt8) : List UInt8 :=
  line.takeWhile (· ≠ comma)

/-- The line ends the call of a reader: a field of it is too short, or it is
of the reader's kind. -/
def endsCall (kind : RowKind) (line : List UInt8) : Bool :=
  !line.isEmpty &&
    ((firstField line).length < 12 ||
      (line.splitOn comma)[1]? == some [kind.letter])

/-- The lines that a call reads, and the lines it leaves. -/
def callLines (kind : RowKind) :
    List (List UInt8) → List (List UInt8) × List (List UInt8)
  | [] => ([], [])
  | line :: later =>
      if endsCall kind line then ([line], later)
      else
        (line :: (callLines kind later).1, (callLines kind later).2)

/-- The lines that several calls read. -/
def linesRead : List RowKind → List (List UInt8) → List (List UInt8)
  | [], _ => []
  | kind :: calls, lines =>
      (callLines kind lines).1 ++ linesRead calls (callLines kind lines).2

/-- In the lines that are not blank the first field has the length of a
timestamp. -/
def WideEnough (lines : List (List UInt8)) : Prop :=
  ∀ line ∈ lines, line ≠ [] → 12 ≤ (firstField line).length

/-- A record, the end of the file, or what `copySymbol` throws. -/
def Ending.Documented {β : Type} : Ending β → Prop
  | .returns _ => True
  | .throws exception =>
      exception = CSVParser.endOfFile ∨
        ∃ field, CSVParser.copySymbol field = .error exception
  | .undefined => False

def Ending.map {β γ : Type} (f : β → γ) : Ending β → Ending γ
  | .returns record => .returns (f record)
  | .throws exception => .throws exception
  | .undefined => .undefined

theorem Ending.documented_map {β γ : Type} (f : β → γ)
    (ending : Ending β) :
    (ending.map f).Documented ↔ ending.Documented := by
  cases ending <;> rfl

theorem callLines_append (kind : RowKind) (lines : List (List UInt8)) :
    (callLines kind lines).1 ++ (callLines kind lines).2 = lines := by
  induction lines with
  | nil => rfl
  | cons line later ih =>
      rw [callLines]
      split
      · rfl
      · exact congrArg (line :: ·) ih

theorem callLines_rest_lt (kind : RowKind) {lines : List (List UInt8)}
    (hne : lines ≠ []) :
    (callLines kind lines).2.length < lines.length := by
  cases lines with
  | nil => contradiction
  | cons line later =>
      have hlength := congrArg List.length (callLines_append kind later)
      rw [List.length_append] at hlength
      rw [callLines]
      split <;> simp only [List.length_cons] <;> omega

/-- As many calls as there are lines read them all. -/
theorem linesRead_replicate (kind : RowKind) {calls : ℕ}
    {lines : List (List UInt8)} (hcalls : lines.length ≤ calls) :
    linesRead (List.replicate calls kind) lines = lines := by
  induction calls generalizing lines with
  | zero =>
      rw [Nat.le_zero, List.length_eq_zero_iff] at hcalls
      rw [hcalls]
      rfl
  | succ calls ih =>
      have hrest : (callLines kind lines).2.length ≤ calls := by
        by_cases hne : lines = []
        · simp [hne, callLines]
        · have hlt := callLines_rest_lt kind hne
          omega
      rw [List.replicate_succ, linesRead, ih hrest, callLines_append]

theorem mem_of_mem_linesRead {calls : List RowKind}
    {lines : List (List UInt8)} {line : List UInt8}
    (hread : line ∈ linesRead calls lines) : line ∈ lines := by
  induction calls generalizing lines with
  | nil => exact absurd hread List.not_mem_nil
  | cons kind calls ih =>
      rw [← callLines_append kind lines, List.mem_append]
      exact (List.mem_append.mp hread).imp_right ih

end Csv

namespace CSVParser

open Csv

theorem parseTimestamp_of_lt {field : List UInt8}
    (hshort : field.length < 12) : parseTimestamp field = none := by
  have hlast : digit field 11 = none := by
    simp [digit]
    omega
  simp [parseTimestamp, hlast]

theorem parseTimestamp_of_le {field : List UInt8}
    (hlong : 12 ≤ field.length) :
    ∃ timestamp, parseTimestamp field = some timestamp := by
  have hdigit (i : ℕ) (hi : i < 12) : ∃ d, digit field i = some d := by
    have hinside : i < field.length := by omega
    rw [digit, List.getElem?_eq_getElem hinside]
    exact ⟨_, rfl⟩
  rcases hdigit 0 (by decide) with ⟨_, h₀⟩
  rcases hdigit 1 (by decide) with ⟨_, h₁⟩
  rcases hdigit 3 (by decide) with ⟨_, h₃⟩
  rcases hdigit 4 (by decide) with ⟨_, h₄⟩
  rcases hdigit 6 (by decide) with ⟨_, h₆⟩
  rcases hdigit 7 (by decide) with ⟨_, h₇⟩
  rcases hdigit 9 (by decide) with ⟨_, h₉⟩
  rcases hdigit 10 (by decide) with ⟨_, h₁₀⟩
  rcases hdigit 11 (by decide) with ⟨_, h₁₁⟩
  rw [parseTimestamp, h₀, h₁, h₃, h₄, h₆, h₇, h₉, h₁₀, h₁₁]
  exact ⟨_, rfl⟩

/-! ## One row -/

/-- What a reader does with a line that is not blank. -/
structure Reads {β : Type} (kind : RowKind)
    (row : List UInt8 → Option (Ending β)) : Prop where
  skips : ∀ line, line ≠ [] → endsCall kind line = false →
    row line = none ∧ 12 ≤ (firstField line).length
  ends : ∀ line, line ≠ [] → endsCall kind line = true →
    ∃ ending, row line = some ending ∧
      (ending.Documented ↔ 12 ≤ (firstField line).length)

theorem firstField_splitOn (line : List UInt8) :
    ∃ later, line.splitOn comma = firstField line :: later := by
  by_cases hmem : comma ∈ line
  · obtain ⟨before, after, rfl, hbefore⟩ := List.eq_append_cons_of_mem hmem
    refine ⟨after.splitOn comma, ?_⟩
    rw [List.splitOn_append_cons_self_of_not_mem hbefore, firstField,
      List.takeWhile_append_of_pos (by
        intro c hc
        simpa using ne_of_mem_of_not_mem hc hbefore)]
    simp
  · refine ⟨[], ?_⟩
    have hfirst : firstField line = line := by
      rw [firstField, List.takeWhile_eq_self_iff]
      intro c hc
      simpa using ne_of_mem_of_not_mem hc hmem
    rw [List.splitOn_eq_singleton hmem, hfirst]

section Fields

variable {β : Type} {letter : UInt8} {timestamp kind symbol : List UInt8}
  {record : UInt64 → Symbol → β}

theorem fieldsRow_of_short (hshort : timestamp.length < 12) :
    fieldsRow letter timestamp kind symbol record = some .undefined := by
  rw [fieldsRow, parseTimestamp_of_lt hshort]

theorem fieldsRow_of_other (hlong : 12 ≤ timestamp.length)
    (hkind : kind ≠ [letter]) :
    fieldsRow letter timestamp kind symbol record = none := by
  rcases parseTimestamp_of_le hlong with ⟨_, htimestamp⟩
  rw [fieldsRow, htimestamp]
  exact if_pos hkind

theorem fieldsRow_of_kind (hlong : 12 ≤ timestamp.length)
    (hkind : kind = [letter]) :
    ∃ ending, fieldsRow letter timestamp kind symbol record = some ending ∧
      ending.Documented := by
  rcases parseTimestamp_of_le hlong with ⟨_, htimestamp⟩
  rw [fieldsRow, htimestamp]
  dsimp only
  rw [if_neg (by simp [hkind])]
  cases hsymbol : copySymbol symbol with
  | error exception => exact ⟨_, rfl, .inr ⟨symbol, hsymbol⟩⟩
  | ok symbol => exact ⟨_, rfl, trivial⟩

end Fields

/-- A reader looks at the first field and then at the second one; when there
is none it looks at the first field again. -/
theorem reads_of_fieldsRow {β : Type} {kind : RowKind}
    {row : List UInt8 → Option (Ending β)}
    (hrow : ∀ line first later, line.splitOn comma = first :: later →
      ∃ symbol record, row line =
        fieldsRow kind.letter first (later.headD first) symbol record) :
    Reads kind row := by
  have hends (line : List UInt8) (hline : line ≠ []) :
      endsCall kind line = true ↔
        (firstField line).length < 12 ∨
          (line.splitOn comma)[1]? = some [kind.letter] := by
    simp [endsCall, hline]
  constructor
  · intro line hline hskipped
    obtain ⟨later, hsplit⟩ := firstField_splitOn line
    obtain ⟨symbol, record, hfields⟩ := hrow line _ later hsplit
    have hnot := mt (hends line hline).mpr (by simp [hskipped])
    rw [not_or, not_lt, hsplit] at hnot
    rcases hnot with ⟨hlong, hother⟩
    refine ⟨?_, hlong⟩
    rw [hfields]
    apply fieldsRow_of_other hlong
    cases later with
    | nil =>
        intro heq
        rw [show firstField line = [kind.letter] from heq] at hlong
        simp at hlong
    | cons second rest =>
        intro heq
        exact hother (congrArg some heq)
  · intro line hline hended
    obtain ⟨later, hsplit⟩ := firstField_splitOn line
    obtain ⟨symbol, record, hfields⟩ := hrow line _ later hsplit
    have hcases := (hends line hline).mp hended
    rw [hfields]
    by_cases hshort : (firstField line).length < 12
    · exact ⟨_, fieldsRow_of_short hshort,
        iff_of_false id (not_le.mpr hshort)⟩
    · have hlong := not_lt.mp hshort
      have hsecond := hcases.resolve_left hshort
      rw [hsplit] at hsecond
      have hkind : later.headD (firstField line) = [kind.letter] := by
        cases later with
        | nil => simp at hsecond
        | cons second rest => exact Option.some.inj hsecond
      have hrecord : ∃ ending,
          fieldsRow kind.letter (firstField line)
              (later.headD (firstField line)) symbol record =
            some ending ∧ ending.Documented :=
        fieldsRow_of_kind hlong hkind
      rcases hrecord with ⟨ending, hending, hdocumented⟩
      exact ⟨ending, hending, iff_of_true hdocumented hlong⟩

theorem reads_quotes : Reads .quote quoteRow := by
  apply reads_of_fieldsRow
  intro line first later hsplit
  refine ⟨(quoteCells (first :: later)).symbol.text,
    quoteRecord (quoteCells (first :: later)), ?_⟩
  rw [quoteRow_cells, hsplit]
  cases later <;> rfl

theorem reads_trades : Reads .trade tradeRow := by
  apply reads_of_fieldsRow
  intro line first later hsplit
  refine ⟨(tradeCells (first :: later)).symbol.text,
    tradeRecord (tradeCells (first :: later)), ?_⟩
  rw [tradeRow_cells, hsplit]
  cases later <;> rfl

/-! ## One call -/

def DocumentedEnd {β : Type} : Option (Ending β) → Prop
  | none => True
  | some ending => ending.Documented

section Calls

variable {β : Type} {kind : RowKind}
  {row : List UInt8 → Option (Ending β)}

theorem wideEnough_append (first second : List (List UInt8)) :
    WideEnough (first ++ second) ↔ WideEnough first ∧ WideEnough second :=
  List.forall_mem_append

theorem wideEnough_cons (line : List UInt8) (later : List (List UInt8)) :
    WideEnough (line :: later) ↔
      (line ≠ [] → 12 ≤ (firstField line).length) ∧ WideEnough later :=
  List.forall_mem_cons

theorem Reads.scanLines (hreads : Reads kind row)
    (lines : List (List UInt8)) :
    (scanLines row lines).2 = (callLines kind lines).2 ∧
      (DocumentedEnd (scanLines row lines).1 ↔
        WideEnough (callLines kind lines).1) := by
  induction lines with
  | nil => simp [CSVParser.scanLines, callLines, DocumentedEnd, WideEnough]
  | cons line later ih =>
      rw [CSVParser.scanLines, callLines]
      by_cases hblank : line = []
      · have hgoes : ¬ endsCall kind line = true := by
          simp [endsCall, hblank]
        rw [if_pos hblank, if_neg hgoes, wideEnough_cons]
        refine ⟨ih.1, ih.2.trans ?_⟩
        simp [hblank]
      · rw [if_neg hblank]
        cases hends : endsCall kind line with
        | false =>
            rcases hreads.skips line hblank hends with ⟨hnone, hlong⟩
            rw [hnone, if_neg Bool.false_ne_true]
            dsimp only
            rw [wideEnough_cons]
            refine ⟨ih.1, ih.2.trans ?_⟩
            simp [hlong]
        | true =>
            obtain ⟨ending, hsome, hdocumented⟩ :=
              hreads.ends line hblank hends
            rw [hsome]
            refine ⟨rfl, hdocumented.trans ?_⟩
            simp [WideEnough, hblank]

theorem Reads.readRow (hreads : Reads kind row)
    {lines : List (List UInt8)} {parser : CSVParser}
    (hunread : Unread lines parser) :
    Unread (callLines kind lines).2 (readRow row parser).1 ∧
      ((readRow row parser).2.Documented ↔
        WideEnough (callLines kind lines).1) := by
  have hend : (Ending.throws endOfFile : Ending β).Documented := .inl rfl
  unfold CSVParser.readRow
  by_cases hreached : parser.reachedEnd_ = true
  · rw [if_pos hreached]
    have hnone := hunread.reachedEnd hreached
    subst hnone
    exact ⟨hunread, iff_of_true hend (by simp [callLines, WideEnough])⟩
  · rw [if_neg hreached]
    rcases hreads.scanLines lines with ⟨hleft, hwide⟩
    rcases readLines_eq parser.file with ⟨hfirst, hrest⟩
    rw [hunread.remaining] at hfirst hrest
    cases hcall : readLines row parser.file with
    | mk result file =>
        rw [hcall] at hfirst hrest
        dsimp only at hfirst hrest
        rw [← hfirst] at hwide
        cases result with
        | none =>
            have hempty := scanLines_rest_of_none hfirst.symm
            exact ⟨⟨hrest.trans hleft, fun _ => hleft.symm.trans hempty⟩,
              iff_of_true hend (hwide.mp trivial)⟩
        | some ending =>
            exact ⟨⟨hrest.trans hleft,
              fun htrue => absurd htrue hreached⟩, hwide⟩

end Calls

/-! ## Any calls on any file -/

inductive Record where
  | quote (record : Csv.Quote)
  | trade (record : Csv.Trade)

def call (parser : CSVParser) : RowKind → CSVParser × Ending Record
  | .quote => ((readQuote parser).1, (readQuote parser).2.map .quote)
  | .trade => ((readTrade parser).1, (readTrade parser).2.map .trade)

theorem call_documented_iff {lines : List (List UInt8)}
    {parser : CSVParser} (hunread : Unread lines parser) (kind : RowKind) :
    Unread (callLines kind lines).2 (parser.call kind).1 ∧
      ((parser.call kind).2.Documented ↔
        WideEnough (callLines kind lines).1) := by
  cases kind with
  | quote =>
      rcases reads_quotes.readRow hunread with ⟨hnext, hwide⟩
      exact ⟨hnext, (Ending.documented_map _ _).trans hwide⟩
  | trade =>
      rcases reads_trades.readRow hunread with ⟨hnext, hwide⟩
      exact ⟨hnext, (Ending.documented_map _ _).trans hwide⟩

theorem calls_documented_iff {lines : List (List UInt8)}
    {parser : CSVParser} (hunread : Unread lines parser)
    (calls : List RowKind) :
    (∀ ending ∈ RunHistory.outputs call parser calls,
        ending.Documented) ↔
      WideEnough (linesRead calls lines) := by
  induction calls generalizing parser lines with
  | nil => simp [linesRead, WideEnough]
  | cons kind calls ih =>
      rcases call_documented_iff hunread kind with ⟨hnext, hwide⟩
      rw [RunHistory.outputs_cons, List.forall_mem_cons, ih hnext, hwide,
        linesRead, wideEnough_append]

/-- Calls on a file access no character outside a field, and return a record
or throw one of their exceptions, exactly when the lines they read that are
not blank have twelve characters before the first comma.  This holds for all
calls on the file when it holds for all lines after the header. -/
theorem accesses_in_bounds_iff (filename : String)
    (contents : List UInt8) :
    ∃ parser, construct filename (some contents) = .ok parser ∧
      (∀ calls,
        (∀ ending ∈ RunHistory.outputs call parser calls,
            ending.Documented) ↔
          WideEnough (linesRead calls (dataLines contents))) ∧
      ((∀ calls, ∀ ending ∈ RunHistory.outputs call parser calls,
            ending.Documented) ↔
          WideEnough (dataLines contents)) := by
  obtain ⟨parser, hconstruct, hunread⟩ := construct_unread filename contents
  have hcalls := calls_documented_iff hunread
  refine ⟨parser, hconstruct, hcalls, ?_, ?_⟩
  · intro hdocumented
    have hall := (hcalls _).mp (hdocumented
      (List.replicate (dataLines contents).length .quote))
    rwa [linesRead_replicate .quote le_rfl] at hall
  · intro hwide calls
    rw [hcalls]
    intro line hread
    exact hwide line (mem_of_mem_linesRead hread)

/-- A comment behind the header. -/
theorem late_comment_undefined :
    ∃ parser,
      construct "quotes.csv"
          (some ("time,type\n# note\n".toList.map Char.toUInt8)) =
        .ok parser ∧
      ¬ ∀ ending ∈ RunHistory.outputs call parser [.quote],
          ending.Documented := by
  rcases construct_unread "quotes.csv"
      ("time,type\n# note\n".toList.map Char.toUInt8) with
    ⟨parser, hconstruct, hunread⟩
  refine ⟨parser, hconstruct, ?_⟩
  rw [calls_documented_iff hunread]
  intro hwide
  have hlong := hwide ("# note".toList.map Char.toUInt8)
    (by decide) (by decide)
  exact absurd hlong (by decide)

end CSVParser

end Slipstream
