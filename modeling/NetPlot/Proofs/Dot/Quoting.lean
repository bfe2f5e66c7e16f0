/-
  Quoted texts are a prefix code.

  1. **Scanning** — `scan?` finds the end of a quoted text without a look at what its escapes stand
     for: a backslash takes the next character with it, and the first quote that is not taken is
     the closing one.  `undo?` puts the characters back that the escapes stand for.

  2. **Characters** — however a character is written, this does not end the text (`scanInside?_escape`),
     is no line end (`not_mem_escape`), and is undone (`undo?_escape`).

  3. **Texts** — so a quoted text ends at its closing quote, whatever follows it, and is the text
     again but for carriage returns (`scan?_quote`, `undo?_flatMap_escape`).
-/
import NetPlot.Proofs.Dot.Lexing

namespace NetPlot.Dot

/-! ## Scanning

The scan does not interpret what it passes.  It can therefore be compared with any reader that skips
the character behind a backslash. -/

/-- Between quotes: all that is written up to the closing quote, and what follows the quote. -/
def scanInside? : List Char → Option (List Char × List Char)
  | [] => none
  | '"' :: rest => some ([], rest)
  | '\\' :: c :: s => (scanInside? s).map fun (raw, rest) => ('\\' :: c :: raw, rest)
  | c :: s => (scanInside? s).map fun (raw, rest) => (c :: raw, rest)

/-- The quoted text at the front, as it is written between its quotes, and what follows it. -/
def scan? : List Char → Option (List Char × List Char)
  | '"' :: s => scanInside? s
  | _ => none

/-- A text with its escapes undone; none if there is one that stands for nothing. -/
def undo? : List Char → Option (List Char)
  | [] => some []
  | ['\\'] => none
  | '\\' :: c :: s => (Lexer.unescape? c).bind fun c => (undo? s).map (c :: ·)
  | c :: s => (undo? s).map (c :: ·)

/-! ## Characters -/

/-- No character is written as a line end. -/
theorem not_mem_escape {c d : Char} (hd : d = '\n' ∨ d = '\r') : d ∉ escape c := by
  -- an escaped line end would have to be undone to something
  rcases escape_cases c with ⟨-, he⟩ | ⟨e, he, hu, -⟩ | ⟨he, -, -, hn, hr⟩
  · rw [he]
    exact List.not_mem_nil
  · have hnone : Lexer.unescape? d = none := by
      rcases hd with rfl | rfl <;> rfl
    rw [he, List.mem_cons, List.mem_singleton]
    rintro (rfl | rfl)
    · exact absurd hd (by decide)
    · cases hnone.symm.trans hu
  · rw [he, List.mem_singleton]
    rintro rfl
    exact hd.elim hn hr

/-- What is written for a character does not end the text. -/
theorem scanInside?_escape (c : Char) (s : List Char) :
    scanInside? (escape c ++ s) =
      (scanInside? s).map fun (raw, rest) => (escape c ++ raw, rest) := by
  rcases escape_cases c with ⟨-, he⟩ | ⟨d, he, -, -⟩ | ⟨he, hq, hb, -, -⟩
  · rw [he]
    exact Option.map_id'.symm
  · rw [he]
    rfl
  · rw [he, List.singleton_append, scanInside?]
    · rfl
    · exact hq
    · exact fun _ _ h => absurd h hb

/-- What is written for a character is undone. -/
theorem undo?_escape (c : Char) (s : List Char) :
    undo? (escape c ++ s) = (undo? s).map (([c].filter (· ≠ '\r')) ++ ·) := by
  have hkeep : c ≠ '\r' → [c].filter (· ≠ '\r') = [c] := fun hr => by simp [hr]
  -- the carriage return is gone, an escape is undone, any other character stands for itself
  rcases escape_cases c with ⟨hr, he⟩ | ⟨d, he, hu, hr⟩ | ⟨he, -, hb, -, hr⟩
  · rw [he, hr]
    exact Option.map_id'.symm
  · rw [he, hkeep hr, List.cons_append, List.singleton_append, undo?, hu]
    rfl
  · rw [he, hkeep hr, List.singleton_append, undo?]
    · rfl
    · exact fun h => absurd h hb
    · exact fun _ _ h => absurd h hb

/-! ## Texts -/

/-- No escape is taken for the closing quote, so the scan goes on to the quote behind the text. -/
theorem scanInside?_flatMap_escape (s rest : List Char) :
    scanInside? (s.flatMap escape ++ '"' :: rest) = some (s.flatMap escape, rest) := by
  induction s with
  | nil => rfl
  | cons c s ih =>
    rw [List.flatMap_cons, List.append_assoc, scanInside?_escape, ih]
    rfl

/-- A quoted text ends at its closing quote, whatever follows. -/
theorem scan?_quote (s x : String) :
    scan? (quote s ++ x).toList = some (s.toList.flatMap escape, x.toList) := by
  rw [String.toList_append, quote, String.toList_ofList, List.append_assoc, List.cons_append]
  exact scanInside?_flatMap_escape s.toList x.toList

/-- Undone one by one, the escapes give the characters again, all but the carriage returns. -/
theorem undo?_flatMap_escape (s : List Char) :
    undo? (s.flatMap escape) = some (s.filter (· ≠ '\r')) := by
  induction s with
  | nil => rfl
  | cons c s ih =>
    rw [List.flatMap_cons, undo?_escape, ih, Option.map_some, ← List.filter_append,
      List.singleton_append]

/-- A text is written as it is without carriage returns. -/
theorem flatMap_escape_filter (s : List Char) :
    (s.filter (· ≠ '\r')).flatMap escape = s.flatMap escape := by
  induction s with
  | nil => rfl
  | cons c s ih =>
    by_cases hr : c = '\r'
    · rw [List.filter_cons_of_neg (by simp [hr]), ih, hr]
      rfl
    · rw [List.filter_cons_of_pos (by simp [hr]), List.flatMap_cons, List.flatMap_cons, ih]

/-- Texts are written alike if they are but for carriage returns. -/
theorem quote_congr {s t : String}
    (h : s.toList.filter (· ≠ '\r') = t.toList.filter (· ≠ '\r')) : quote s = quote t := by
  rw [quote, quote, ← flatMap_escape_filter, h, flatMap_escape_filter]

/-- Quoted texts are a prefix code but for carriage returns: a quoted text ends at its closing quote,
whatever follows it; between its quotes there is no line end, and with its escapes undone it is the
text without carriage returns.  So two quoted texts with something behind them are alike only where
what is behind them is, and the texts are but for carriage returns. -/
theorem quote_prefixCode (s t x y : String) :
    (∃ raw, scan? (quote s ++ x).toList = some (raw, x.toList) ∧
      (quote s).toList = '"' :: raw ++ ['"'] ∧ '\n' ∉ raw ∧ '\r' ∉ raw ∧
        undo? raw = some (s.toList.filter (· ≠ '\r'))) ∧
    (quote s ++ x = quote t ++ y ↔
      x = y ∧ s.toList.filter (· ≠ '\r') = t.toList.filter (· ≠ '\r')) := by
  have hline : ∀ d, d = '\n' ∨ d = '\r' → d ∉ s.toList.flatMap escape := by
    intro d hd hmem
    obtain ⟨c, -, hc⟩ := List.mem_flatMap.1 hmem
    exact not_mem_escape hd hc
  refine ⟨⟨s.toList.flatMap escape, scan?_quote s x, String.toList_ofList, hline _ (.inl rfl),
    hline _ (.inr rfl), undo?_flatMap_escape _⟩, ?_, ?_⟩
  · intro h
    -- both texts are scanned from the front of one and the same
    have hscan := scan?_quote s x
    rw [h, scan?_quote t y] at hscan
    obtain ⟨hraw, hrest⟩ := Prod.mk.inj (Option.some.inj hscan)
    have hundo := undo?_flatMap_escape s.toList
    rw [← hraw, undo?_flatMap_escape t.toList] at hundo
    exact ⟨String.toList_inj.1 hrest.symm, (Option.some.inj hundo).symm⟩
  · rintro ⟨rfl, h⟩
    rw [quote_congr h]

end NetPlot.Dot
