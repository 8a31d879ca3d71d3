import Mathlib.Tactic

/-!
# Reading a text stream piece by piece

A stream holds the characters that are still to be read and the two flags an
input operation can set.  `getline` reads up to a delimiter, which it removes;
on a stream that is not good it fails and leaves its buffer as it is.

What later calls of `getline` will find is the list of pieces that remain.
A call takes the first of them, and it fails exactly when none remains.  What
a call leaves in its buffer is told by the columns that are unread: the next
of them, or when there is none what the buffer held before.
-/

structure TextStream (α : Type*) where
  rest : List α
  eof : Bool
  fail : Bool

namespace TextStream

variable {α : Type*}

def ofText (text : List α) : TextStream α where
  rest := text
  eof := false
  fail := false

def good (stream : TextStream α) : Bool :=
  !stream.eof && !stream.fail

def setFail (stream : TextStream α) : TextStream α :=
  { stream with fail := true }

def peek (stream : TextStream α) : Option α × TextStream α :=
  if stream.good then
    match stream.rest with
    | [] => (none, { stream with eof := true })
    | first :: _ => (some first, stream)
  else (none, stream.setFail)

def ignore (stream : TextStream α) : TextStream α :=
  if stream.good then
    match stream.rest with
    | [] => { stream with eof := true }
    | _ :: later => { stream with rest := later }
  else stream.setFail

theorem peek_eq_some {stream peeked : TextStream α} {first : α}
    (hpeek : stream.peek = (some first, peeked)) :
    peeked = stream ∧ stream.good = true ∧
      ∃ later, stream.rest = first :: later := by
  unfold peek at hpeek
  split at hpeek
  next hgood =>
    split at hpeek
    next => simp at hpeek
    next _ later hrest =>
      rcases Prod.mk.inj hpeek with ⟨hfirst, hsame⟩
      exact ⟨hsame.symm, hgood, later, by
        rw [hrest, Option.some.inj hfirst]⟩
  next => simp at hpeek

theorem ignore_lt_of_peek {stream peeked : TextStream α} {first : α}
    (hpeek : stream.peek = (some first, peeked)) :
    peeked.ignore.rest.length < stream.rest.length := by
  rcases peek_eq_some hpeek with ⟨rfl, hgood, later, hrest⟩
  simp [ignore, hgood, hrest]

variable [DecidableEq α]

/-- The characters before the first delimiter, and those after it if there
is one. -/
def cut (delimiter : α) : List α → List α × Option (List α)
  | [] => ([], none)
  | first :: later =>
      if first = delimiter then ([], some later)
      else (first :: (cut delimiter later).1, (cut delimiter later).2)

/-- The new contents of the buffer, and the stream. -/
def getline (delimiter : α) (stream : TextStream α) (buffer : List α) :
    List α × TextStream α :=
  if stream.good then
    match cut delimiter stream.rest with
    | (piece, some later) => (piece, { stream with rest := later })
    | (piece, none) =>
        (piece, { rest := [], eof := true, fail := piece.isEmpty })
  else (buffer, stream.setFail)

/-- Ignore characters as long as the next one is the delimiter. -/
def skip (delimiter : α) (stream : TextStream α) : TextStream α :=
  match _ : stream.peek with
  | (some first, peeked) =>
      if first = delimiter then skip delimiter peeked.ignore else peeked
  | (none, peeked) => peeked
termination_by stream.rest.length
decreasing_by exact ignore_lt_of_peek ‹_›

/-! ## The pieces of a text -/

def pieces (delimiter : α) : List α → List (List α)
  | [] => []
  | first :: later =>
      if first = delimiter then [] :: pieces delimiter later
      else
        match pieces delimiter later with
        | [] => [[first]]
        | piece :: others => (first :: piece) :: others

theorem pieces_of_cut_some {delimiter : α} {text piece later : List α}
    (hcut : cut delimiter text = (piece, some later)) :
    pieces delimiter text = piece :: pieces delimiter later ∧
      later.length < text.length := by
  induction text generalizing piece with
  | nil => simp [cut] at hcut
  | cons first rest ih =>
      by_cases hfirst : first = delimiter
      · rw [cut, if_pos hfirst, Prod.mk.injEq, Option.some.injEq] at hcut
        rcases hcut with ⟨rfl, rfl⟩
        rw [pieces, if_pos hfirst]
        exact ⟨rfl, Nat.lt_succ_self _⟩
      · rw [cut, if_neg hfirst, Prod.mk.injEq] at hcut
        rcases hcut with ⟨rfl, hrest⟩
        rcases ih (Prod.ext rfl hrest) with ⟨hpieces, hlength⟩
        rw [pieces, if_neg hfirst, hpieces]
        exact ⟨rfl, Nat.lt_succ_of_lt hlength⟩

theorem pieces_of_cut_none {delimiter : α} {text piece : List α}
    (hcut : cut delimiter text = (piece, none)) :
    piece = text ∧
      pieces delimiter text = if text.isEmpty then [] else [text] := by
  induction text generalizing piece with
  | nil =>
      rw [cut, Prod.mk.injEq] at hcut
      exact ⟨hcut.1.symm, rfl⟩
  | cons first rest ih =>
      by_cases hfirst : first = delimiter
      · simp [cut, hfirst] at hcut
      · rw [cut, if_neg hfirst, Prod.mk.injEq] at hcut
        rcases hcut with ⟨rfl, hrest⟩
        rcases ih (Prod.ext rfl hrest) with ⟨hpiece, hpieces⟩
        refine ⟨congrArg (first :: ·) hpiece, ?_⟩
        rw [pieces, if_neg hfirst, hpieces]
        cases rest <;> simp

theorem cut_append {delimiter : α} {piece : List α}
    (hpiece : delimiter ∉ piece) (later : List α) :
    cut delimiter (piece ++ delimiter :: later) = (piece, some later) := by
  induction piece with
  | nil => simp [cut]
  | cons first rest ih =>
      have hfirst := List.ne_of_not_mem_cons hpiece
      have hrest := List.not_mem_of_not_mem_cons hpiece
      rw [List.cons_append, cut, if_neg (Ne.symm hfirst), ih hrest]

theorem pieces_append {delimiter : α} {piece : List α}
    (hpiece : delimiter ∉ piece) (later : List α) :
    pieces delimiter (piece ++ delimiter :: later) =
      piece :: pieces delimiter later :=
  (pieces_of_cut_some (cut_append hpiece later)).1

theorem pieces_of_not_mem {delimiter : α} {piece : List α}
    (hpiece : delimiter ∉ piece) (hne : piece ≠ []) :
    pieces delimiter piece = [piece] := by
  induction piece with
  | nil => contradiction
  | cons first rest ih =>
      have hfirst := List.ne_of_not_mem_cons hpiece
      have hrest := List.not_mem_of_not_mem_cons hpiece
      rw [pieces, if_neg (Ne.symm hfirst)]
      cases rest with
      | nil => rfl
      | cons second others => rw [ih hrest (List.cons_ne_nil _ _)]

theorem not_mem_intercalate {α : Type*} {c : α} {separator : List α}
    (hseparator : c ∉ separator) {joined : List (List α)}
    (hjoined : ∀ piece ∈ joined, c ∉ piece) :
    c ∉ List.intercalate separator joined := by
  induction joined with
  | nil => simp
  | cons piece others ih =>
      have hpiece := hjoined piece List.mem_cons_self
      cases others with
      | nil =>
          rw [List.intercalate_singleton]
          exact hpiece
      | cons second rest =>
          have hothers := ih fun other hother =>
            hjoined other (List.mem_cons_of_mem piece hother)
          rw [List.intercalate_cons_cons]
          simp [hpiece, hseparator, hothers]

/-- Cutting undoes joining, but an empty piece at the very end is lost. -/
theorem pieces_intercalate {delimiter : α} {joined : List (List α)}
    (hjoined : ∀ piece ∈ joined, delimiter ∉ piece) :
    pieces delimiter (List.intercalate [delimiter] joined) =
      if joined.getLast? = some [] then joined.dropLast else joined := by
  induction joined with
  | nil => simp [pieces]
  | cons piece others ih =>
      have hpiece := hjoined piece List.mem_cons_self
      cases others with
      | nil =>
          rw [List.intercalate_singleton]
          by_cases hempty : piece = []
          · simp [hempty, pieces]
          · simp [pieces_of_not_mem hpiece hempty, hempty]
      | cons second rest =>
          have hothers := ih fun other hother =>
            hjoined other (List.mem_cons_of_mem piece hother)
          rw [List.intercalate_cons_cons, List.append_assoc,
            List.singleton_append, pieces_append hpiece, hothers,
            List.getLast?_cons_cons, List.dropLast_cons_cons]
          split <;> rfl

/-! ## What a stream still holds -/

def remaining (delimiter : α) (stream : TextStream α) : List (List α) :=
  if stream.good then pieces delimiter stream.rest else []

section Reading

variable {delimiter : α} {stream : TextStream α}

theorem getline_of_remaining {piece : List α} {later : List (List α)}
    (hremaining : stream.remaining delimiter = piece :: later)
    (buffer : List α) :
    ∃ next, stream.getline delimiter buffer = (piece, next) ∧
      next.fail = false ∧ next.remaining delimiter = later ∧
      next.rest.length < stream.rest.length := by
  by_cases hgood : stream.good = true
  · rw [remaining, if_pos hgood] at hremaining
    rw [getline, if_pos hgood]
    cases hcut : cut delimiter stream.rest with
    | mk first rest =>
        cases rest with
        | some after =>
            rcases pieces_of_cut_some hcut with ⟨hpieces, hlength⟩
            rcases List.cons.inj (hpieces.symm.trans hremaining) with
              ⟨rfl, rfl⟩
            have hflags : ({ stream with rest := after } :
                TextStream α).good = true := hgood
            refine ⟨_, rfl, ?_, ?_, hlength⟩
            · simp only [good, Bool.and_eq_true, Bool.not_eq_true'] at hgood
              exact hgood.2
            · rw [remaining, if_pos hflags]
        | none =>
            rcases pieces_of_cut_none hcut with ⟨rfl, hpieces⟩
            rw [hremaining] at hpieces
            split at hpieces
            next => contradiction
            next hne =>
              rcases List.cons.inj hpieces with ⟨rfl, rfl⟩
              refine ⟨_, rfl, Bool.eq_false_iff.mpr hne, ?_, ?_⟩
              · simp [remaining, good]
              · exact List.length_pos_iff.mpr
                  (fun hnil => hne (List.isEmpty_iff.mpr hnil))
  · rw [remaining, if_neg hgood] at hremaining
    contradiction

theorem getline_of_exhausted (hremaining : stream.remaining delimiter = [])
    (buffer : List α) :
    (stream.getline delimiter buffer).2.fail = true := by
  by_cases hgood : stream.good = true
  · rw [remaining, if_pos hgood] at hremaining
    rw [getline, if_pos hgood]
    cases hcut : cut delimiter stream.rest with
    | mk first rest =>
        cases rest with
        | some after =>
            rw [(pieces_of_cut_some hcut).1] at hremaining
            contradiction
        | none =>
            rcases pieces_of_cut_none hcut with ⟨rfl, hpieces⟩
            rw [hremaining] at hpieces
            split at hpieces
            next hempty => exact hempty
            next => contradiction
  · rw [getline, if_neg hgood]
    rfl

theorem remaining_of_fail (hfail : stream.fail = true) :
    stream.remaining delimiter = [] := by
  simp [remaining, good, hfail]

/-- A call that does not fail has made the stream shorter. -/
theorem getline_lt {next : TextStream α} {buffer piece : List α}
    (hcall : stream.getline delimiter buffer = (piece, next))
    (hok : ¬ next.fail = true) :
    next.rest.length < stream.rest.length := by
  cases hremaining : stream.remaining delimiter with
  | nil =>
      have hfail := getline_of_exhausted hremaining buffer
      rw [hcall] at hfail
      exact absurd hfail hok
  | cons first later =>
      obtain ⟨reached, hread, _, _, hlength⟩ :=
        getline_of_remaining hremaining buffer
      rcases Prod.mk.inj (hcall.symm.trans hread) with ⟨_, rfl⟩
      exact hlength

/-- Skipping delimiters passes over the empty pieces that come first. -/
theorem remaining_skip (delimiter : α) (stream : TextStream α) :
    (stream.skip delimiter).remaining delimiter =
      (stream.remaining delimiter).dropWhile List.isEmpty := by
  fun_induction skip delimiter stream with
  | case1 stream peeked hpeek ih =>
      rcases peek_eq_some hpeek with ⟨rfl, hgood, later, hrest⟩
      have hignored : peeked.ignore = { peeked with rest := later } := by
        simp [ignore, hgood, hrest]
      have hflags : ({ peeked with rest := later } :
          TextStream α).good = true := hgood
      rw [ih, hignored, remaining, remaining, if_pos hflags, if_pos hgood,
        hrest, pieces, if_pos rfl]
      rfl
  | case2 stream first peeked hpeek hfirst =>
      rcases peek_eq_some hpeek with ⟨rfl, hgood, later, hrest⟩
      rw [remaining, if_pos hgood, hrest, pieces, if_neg hfirst]
      split <;> rfl
  | case3 stream peeked hpeek =>
      unfold peek at hpeek
      split at hpeek
      next hgood =>
        split at hpeek
        next hrest =>
          rcases Prod.mk.inj hpeek with ⟨_, rfl⟩
          simp [remaining, hrest, good, pieces]
        next => simp at hpeek
      next hbad =>
        rcases Prod.mk.inj hpeek with ⟨_, rfl⟩
        rw [remaining, remaining, if_neg hbad]
        simp [setFail, good]

end Reading

/-! ## The columns that are still unread -/

theorem eq_append_of_cut {delimiter : α} {text piece later : List α}
    (hcut : cut delimiter text = (piece, some later)) :
    text = piece ++ delimiter :: later ∧ delimiter ∉ piece := by
  induction text generalizing piece with
  | nil => simp [cut] at hcut
  | cons first rest ih =>
      by_cases hfirst : first = delimiter
      · rw [cut, if_pos hfirst, Prod.mk.injEq, Option.some.injEq] at hcut
        rcases hcut with ⟨rfl, rfl⟩
        simp [hfirst]
      · rw [cut, if_neg hfirst, Prod.mk.injEq] at hcut
        rcases hcut with ⟨rfl, hrest⟩
        rcases ih (Prod.ext rfl hrest) with ⟨htext, hpiece⟩
        refine ⟨congrArg (first :: ·) htext, ?_⟩
        exact List.not_mem_cons_of_ne_of_not_mem (Ne.symm hfirst) hpiece

theorem eq_of_cut_none {delimiter : α} {text piece : List α}
    (hcut : cut delimiter text = (piece, none)) :
    piece = text ∧ delimiter ∉ text := by
  refine ⟨(pieces_of_cut_none hcut).1, fun hmem => ?_⟩
  obtain ⟨before, later, htext, hbefore⟩ := List.eq_append_cons_of_mem hmem
  rw [htext, cut_append hbefore] at hcut
  simp at hcut

/-- Unlike a piece, a column may be empty at the end of the text. -/
def unread (delimiter : α) (stream : TextStream α) : List (List α) :=
  if stream.good then stream.rest.splitOn delimiter else []

section Columns

variable {delimiter : α} {stream : TextStream α}

theorem unread_ofText (delimiter : α) (text : List α) :
    (ofText text).unread delimiter = text.splitOn delimiter :=
  if_pos rfl

/-- A call takes the next column. -/
theorem getline_of_unread_cons {column : List α} {later : List (List α)}
    (hunread : stream.unread delimiter = column :: later)
    (buffer : List α) :
    ∃ next, stream.getline delimiter buffer = (column, next) ∧
      next.unread delimiter = later := by
  by_cases hgood : stream.good = true
  · rw [unread, if_pos hgood] at hunread
    rw [getline, if_pos hgood]
    cases hcut : cut delimiter stream.rest with
    | mk first rest =>
        cases rest with
        | some after =>
            rcases eq_append_of_cut hcut with ⟨hrest, hfirst⟩
            rw [hrest, List.splitOn_append_cons_self_of_not_mem hfirst]
              at hunread
            rcases List.cons.inj hunread with ⟨rfl, rfl⟩
            have hflags : ({ stream with rest := after } :
                TextStream α).good = true := hgood
            exact ⟨_, rfl, if_pos hflags⟩
        | none =>
            rcases eq_of_cut_none hcut with ⟨rfl, hfirst⟩
            rw [List.splitOn_eq_singleton hfirst] at hunread
            rcases List.cons.inj hunread with ⟨rfl, rfl⟩
            exact ⟨_, rfl, by simp [unread, good]⟩
  · rw [unread, if_neg hgood] at hunread
    contradiction

/-- A call that finds no column leaves the buffer as it is. -/
theorem getline_of_unread_nil (hunread : stream.unread delimiter = [])
    (buffer : List α) :
    ∃ next, stream.getline delimiter buffer = (buffer, next) ∧
      next.unread delimiter = [] := by
  by_cases hgood : stream.good = true
  · rw [unread, if_pos hgood] at hunread
    exact absurd hunread (List.splitOn_ne_nil _ _)
  · refine ⟨stream.setFail, if_neg hgood, ?_⟩
    simp [unread, setFail, good]

theorem unread_skip (delimiter : α) (stream : TextStream α) :
    (stream.skip delimiter).unread delimiter =
      (stream.unread delimiter).dropWhile List.isEmpty := by
  fun_induction skip delimiter stream with
  | case1 stream peeked hpeek ih =>
      rcases peek_eq_some hpeek with ⟨rfl, hgood, later, hrest⟩
      have hignored : peeked.ignore = { peeked with rest := later } := by
        simp [ignore, hgood, hrest]
      have hflags : ({ peeked with rest := later } :
          TextStream α).good = true := hgood
      rw [ih, hignored, unread, unread, if_pos hflags, if_pos hgood, hrest,
        List.splitOn_cons_eq_if_modifyHead, if_pos (beq_self_eq_true _)]
      rfl
  | case2 stream first peeked hpeek hfirst =>
      rcases peek_eq_some hpeek with ⟨rfl, hgood, later, hrest⟩
      rw [unread, if_pos hgood, hrest, List.splitOn_cons_eq_if_modifyHead,
        if_neg (by simpa using hfirst)]
      cases hlater : later.splitOn delimiter with
      | nil => exact absurd hlater (List.splitOn_ne_nil _ _)
      | cons column others => rfl
  | case3 stream peeked hpeek =>
      unfold peek at hpeek
      split at hpeek
      next hgood =>
        split at hpeek
        next hrest =>
          rcases Prod.mk.inj hpeek with ⟨_, rfl⟩
          rw [unread, unread, if_pos hgood, hrest, List.splitOn_nil]
          simp [good]
        next => simp at hpeek
      next hbad =>
        rcases Prod.mk.inj hpeek with ⟨_, rfl⟩
        rw [unread, unread, if_neg hbad]
        simp [setFail, good]

end Columns

end TextStream
