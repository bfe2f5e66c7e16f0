/-
  The tokens of a DOT text.

  1. **Pieces** — characters `Lex` to tokens if they do so in front of any text.  Pieces are put
     together one after the other (`Lexes.append`): blanks, marks, words in front of a mark, and
     quoted texts, whatever is in them (`lexes_quote`).

  2. **Statements** — every statement has its tokens (`Statement.tokens`), and its line lexes to
     them (`lexes_lines`).

  3. **Documents** — so does the document around the statements (`lex_document`).
-/
import NetPlot.Proofs.Dot.Reader
import NetPlot.Proofs.Graph.Statement

namespace NetPlot.Dot

open NetPlot.Graph

/-! ## Pieces

A piece is lexed in front of any text, so pieces can be put together without a look at what is
behind them.  Words are the exception: a word ends only where a character follows that is not its
own, and so it is always taken together with the mark behind it. -/

/-- A text as it is read back: without carriage returns. -/
def legible (s : String) : String := String.ofList (s.toList.filter (· ≠ '\r'))

/-- In front of any text, the characters are read as these tokens. -/
def Lexes (cs : List Char) (ts : List Token) : Prop :=
  ∀ rest, Lexer.between.lex (cs ++ rest) = (Lexer.between.lex rest).map (ts ++ ·)

theorem Lexes.nil : Lexes [] [] := fun rest => by
  rw [List.nil_append]
  exact Option.map_id'.symm

theorem Lexes.append {cs ds : List Char} {ts us : List Token} (h : Lexes cs ts)
    (h' : Lexes ds us) : Lexes (cs ++ ds) (ts ++ us) := fun rest => by
  rw [List.append_assoc, h, h', Option.map_map]
  congr 1
  funext ws
  exact (List.append_assoc ts us ws).symm

theorem Lexer.lex_cons {s s' : Lexer} {c : Char} {ts : List Token} (h : s.step c = some (s', ts))
    (cs : List Char) : s.lex (c :: cs) = (s'.lex cs).map (ts ++ ·) := by
  cases s <;> simp [Lexer.lex, h]

/-- A character that completes no token. -/
theorem Lexer.lex_cons_nil {s s' : Lexer} {c : Char} (h : s.step c = some (s', []))
    (cs : List Char) : s.lex (c :: cs) = s'.lex cs :=
  (Lexer.lex_cons h cs).trans Option.map_id'

/-- A character that is a token by itself, or a blank. -/
theorem lexes_start {c : Char} {ts : List Token} (h : Lexer.start c = some (.between, ts)) :
    Lexes [c] ts := fun rest => Lexer.lex_cons (s := .between) h rest

/-- Indentation has no tokens, however deep it is. -/
theorem lexes_spaces (n : Nat) : Lexes (List.replicate n ' ') [] := by
  induction n with
  | zero => exact .nil
  | succ n ih =>
    rw [List.replicate_succ]
    exact (lexes_start (c := ' ') rfl).append ih

/-! ## Quoted texts

An escape is two characters, and the lexer takes both at once.  So no quote of the text is ever met
as the closing one. -/

/-- A character is not written, or behind a backslash as an escape of its own, or as itself. -/
theorem escape_cases (c : Char) :
    (c = '\r' ∧ escape c = []) ∨
    (∃ d, escape c = ['\\', d] ∧ Lexer.unescape? d = some c ∧ c ≠ '\r') ∨
    (escape c = [c] ∧ c ≠ '"' ∧ c ≠ '\\' ∧ c ≠ '\n' ∧ c ≠ '\r') := by
  by_cases hr : c = '\r'
  · exact .inl ⟨hr, hr ▸ rfl⟩
  by_cases hq : c = '"'
  · subst hq
    exact .inr (.inl ⟨'"', rfl, rfl, hr⟩)
  by_cases hb : c = '\\'
  · subst hb
    exact .inr (.inl ⟨'\\', rfl, rfl, hr⟩)
  by_cases hn : c = '\n'
  · subst hn
    exact .inr (.inl ⟨'n', rfl, rfl, hr⟩)
  -- nothing stands before any other character
  have hself : escape c = [c] := by
    rw [escape] <;> assumption
  exact .inr (.inr ⟨hself, hq, hb, hn, hr⟩)

/-- A character between quotes is read as it was, however it is written; a carriage return is not
written. -/
theorem lex_escape (read : List Char) (c : Char) (cs : List Char) :
    (Lexer.quoted read).lex (escape c ++ cs) =
      (Lexer.quoted (if c = '\r' then read else c :: read)).lex cs := by
  -- nothing is written, two characters that the lexer takes together, or the character itself
  rcases escape_cases c with ⟨hr, he⟩ | ⟨d, he, hd, hr⟩ | ⟨he, hq, hb, -, hr⟩
  · rw [he, if_pos hr]
    rfl
  · have hback : (Lexer.quoted read).step '\\' = some (.escaped read, []) := rfl
    have hstep : (Lexer.escaped read).step d = some (.quoted (c :: read), []) := by
      rw [Lexer.step, hd]
      rfl
    rw [he, if_neg hr]
    exact (Lexer.lex_cons_nil hback _).trans (Lexer.lex_cons_nil hstep cs)
  · have hstep : (Lexer.quoted read).step c = some (.quoted (c :: read), []) := by
      rw [Lexer.step, if_neg hq, if_neg hb]
    rw [he, if_neg hr]
    exact Lexer.lex_cons_nil hstep cs

/-- All that is between quotes, up to the closing one. -/
theorem lex_flatMap_escape (read s rest : List Char) :
    (Lexer.quoted read).lex (s.flatMap escape ++ '"' :: rest) =
      (Lexer.between.lex rest).map
        ([.quoted (String.ofList (read.reverse ++ s.filter (· ≠ '\r')))] ++ ·) := by
  induction s generalizing read with
  | nil =>
    rw [List.filter_nil, List.append_nil]
    exact Lexer.lex_cons rfl rest
  | cons c s ih =>
    rw [List.flatMap_cons, List.append_assoc, lex_escape, ih]
    by_cases hr : c = '\r'
    · simp [hr]
    · simp [hr]

/-- A quoted text is one token, whatever is in it: all that could end it is escaped. -/
theorem lexes_quote (s : String) : Lexes (quote s).toList [.quoted (legible s)] := fun rest => by
  rw [quote, String.toList_ofList, List.append_assoc]
  exact (Lexer.lex_cons_nil (s := .between) rfl _).trans (lex_flatMap_escape [] s.toList rest)

/-! ## Words -/

/-- The rest of a word, up to a character that starts something else. -/
theorem lex_word {c : Char} {ts : List Token} (hc : Lexer.start c = some (.between, ts))
    (hk : isKeyChar c = false) {cs : List Char} (hcs : ∀ c ∈ cs, isKeyChar c = true)
    (read rest : List Char) :
    (Lexer.word read).lex (cs ++ c :: rest) =
      (Lexer.between.lex rest).map (.word (String.ofList (read.reverse ++ cs)) :: ts ++ ·) := by
  induction cs generalizing read with
  | nil =>
    -- the word is complete only now that something else has come
    have hs : (Lexer.word read).step c =
        some (.between, .word (String.ofList read.reverse) :: ts) := by
      rw [Lexer.step, hk, hc]
      rfl
    rw [List.append_nil]
    exact Lexer.lex_cons hs rest
  | cons d cs ih =>
    have hs : (Lexer.word read).step d = some (.word (d :: read), []) := by
      rw [Lexer.step, hcs d List.mem_cons_self]
      rfl
    rw [List.cons_append, Lexer.lex_cons_nil hs, ih fun c hc => hcs c (List.mem_cons_of_mem d hc),
      List.reverse_cons, List.append_assoc, List.singleton_append]

theorem not_isKeyChar_of_mem {c : Char} (h : c ∈ [' ', '\n', '"', '-']) : isKeyChar c = false := by
  simp only [List.mem_cons, List.not_mem_nil, or_false] at h
  rcases h with rfl | rfl | rfl | rfl <;> rfl

/-- A word, and a character behind it that starts something else. -/
theorem lexes_word {c : Char} {ts : List Token} (hc : Lexer.start c = some (.between, ts))
    (hk : isKeyChar c = false) {s : String} (hs : IsWord s) :
    Lexes (s.toList ++ [c]) (.word s :: ts) := fun rest => by
  obtain ⟨hne, hw⟩ := hs
  cases hl : s.toList with
  | nil => exact absurd (String.toList_eq_nil_iff.mp hl) hne
  | cons d cs =>
    rw [hl] at hw
    have hd : isKeyChar d = true := hw d List.mem_cons_self
    -- the first character is in no word if it is a blank or begins some other token
    have hstart : Lexer.start d = some (.word [d], []) := by
      have hn : ∀ x ∈ [' ', '\n', '"', '-'], d ≠ x := fun x hx he => by
        rw [he, not_isKeyChar_of_mem hx] at hd
        cases hd
      rw [Lexer.start, if_neg, if_neg (hn _ (by simp)), if_neg (hn _ (by simp)), if_pos hd]
      exact fun h => h.elim (hn _ (by simp)) (hn _ (by simp))
    have hofList : String.ofList (d :: cs) = s := hl ▸ String.ofList_toList
    rw [List.cons_append, List.cons_append, List.append_assoc,
      Lexer.lex_cons_nil (s := .between) hstart, List.singleton_append,
      lex_word hc hk (fun c hc => hw c (List.mem_cons_of_mem d hc)), List.reverse_singleton,
      List.singleton_append, hofList]

/-! ## Statements

The line of a statement ends with a semicolon or a brace, and blanks come before it.  So its tokens
do not depend on the lines around it. -/

/-- The tokens of an attribute. -/
def pairTokens (e : String × String) : List Token := [.word e.1, .equals, .quoted (legible e.2)]

/-- The tokens of the attributes of a node or an edge. -/
def bracketedTokens (es : Entries) : List Token :=
  if es = [] then []
  else .openBracket :: List.intercalate [.comma] (es.map pairTokens) ++ [.closeBracket]

/-- The sentence that a statement is written as, and the token at its end. -/
def sentence : Statement → List Token × Token
  | .attribute e => (pairTokens e, .semicolon)
  | .node n => (.quoted (legible n.name) :: bracketedTokens n.attributes.entries, .semicolon)
  | .opening name => ([.word "subgraph", .quoted (legible name)], .openBrace)
  | .closing => ([], .closeBrace)
  | .edge e => (.quoted (legible e.tail) :: .arrow :: .quoted (legible e.head) ::
      bracketedTokens e.attributes.entries, .semicolon)

/-- The tokens of a statement. -/
def tokensOf (s : Statement) : List Token := (sentence s).1 ++ [(sentence s).2]

/-- The keys of a statement are words. -/
def Worded : Statement → Prop
  | .attribute e => IsWord e.1
  | .node n => n.attributes.Worded
  | .edge e => e.attributes.Worded
  | .opening _ => True
  | .closing => True

theorem lexes_pair {e : String × String} (h : IsWord e.1) :
    Lexes (pair e).toList (pairTokens e) := by
  rw [pair, String.toList_append, String.toList_append]
  exact (lexes_word (c := '=') rfl rfl h).append (lexes_quote e.2)

/-- Pieces with the same text in between. -/
theorem Lexes.intercalate {α : Type} {f : α → List Char} {g : α → List Token} {cs : List Char}
    {ts : List Token} (hs : Lexes cs ts) {as : List α} (h : ∀ a ∈ as, Lexes (f a) (g a)) :
    Lexes (cs.intercalate (as.map f)) (ts.intercalate (as.map g)) := by
  induction as with
  | nil => exact .nil
  | cons a as ih =>
    have ha := h a List.mem_cons_self
    have ih := ih fun b hb => h b (List.mem_cons_of_mem a hb)
    -- the text in between stands only where another piece follows
    cases as with
    | nil => simpa using ha
    | cons b as =>
      rw [List.map_cons, List.map_cons, List.intercalate_cons_cons, List.map_cons, List.map_cons,
        List.intercalate_cons_cons, ← List.map_cons, ← List.map_cons]
      exact (ha.append hs).append ih

/-- Attributes in brackets with commas between them; without any, there are no brackets either. -/
theorem lexes_bracketed {a : Attributes} (h : a.Worded) :
    Lexes (bracketed a).toList (bracketedTokens a.entries) := by
  rw [bracketed, bracketedTokens]
  by_cases he : a.entries = []
  · rw [if_pos he, if_pos he]
    exact .nil
  · have hp : ∀ e ∈ a.entries, Lexes (pair e).toList (pairTokens e) := fun e hm =>
      lexes_pair (h _ (List.mem_map_of_mem hm))
    -- the blanks that belong to the marks have no tokens
    have hopen : Lexes " [".toList [.openBracket] :=
      (lexes_start (c := ' ') rfl).append (lexes_start (c := '[') rfl)
    have hcomma : Lexes ", ".toList [.comma] :=
      (lexes_start (c := ',') rfl).append (lexes_start (c := ' ') rfl)
    rw [if_neg he, if_neg he, String.toList_append, String.toList_append,
      String.toList_intercalate, List.map_map]
    exact (hopen.append (hcomma.intercalate hp)).append (lexes_start (c := ']') rfl)

theorem lexes_semicolon : Lexes ";".toList [.semicolon] := lexes_start rfl

theorem lexes_nodeText {n : Node} (h : n.attributes.Worded) :
    Lexes (nodeText (n.name, n.attributes)).toList (tokensOf (.node n)) := by
  rw [nodeText, String.toList_append, String.toList_append]
  exact ((lexes_quote n.name).append (lexes_bracketed h)).append lexes_semicolon

/-- The line of an edge, with the two characters of the arrow as one token. -/
theorem lexes_edgeText {e : Edge} (h : e.attributes.Worded) :
    Lexes (edgeText (e.tail, e.head, e.attributes)).toList (tokensOf (.edge e)) := by
  have harrow : Lexes " -> ".toList [.arrow] := fun rest =>
    (Lexer.lex_cons_nil (s := .between) rfl _).trans
      ((Lexer.lex_cons_nil (s := .between) rfl _).trans
        ((Lexer.lex_cons (s := .dash) rfl _).trans
          (congrArg _ (Lexer.lex_cons_nil (s := .between) rfl rest))))
  rw [edgeText, String.toList_append, String.toList_append, String.toList_append,
    String.toList_append]
  exact ((((lexes_quote e.tail).append harrow).append (lexes_quote e.head)).append
    (lexes_bracketed h)).append lexes_semicolon

/-- What stands in front of an opening brace. -/
theorem lexes_opening {text : String} {ts : List Token} (h : Lexes text.toList ts)
    (name : String) :
    Lexes (text ++ quote name ++ " \x7b").toList (ts ++ [.quoted (legible name), .openBrace]) := by
  rw [String.toList_append, String.toList_append, List.append_assoc]
  exact h.append ((lexes_quote name).append
    ((lexes_start (c := ' ') rfl).append (lexes_start (c := '\x7b') rfl)))

theorem lexes_subgraph : Lexes "subgraph ".toList [.word "subgraph"] :=
  lexes_word (c := ' ') (s := "subgraph") rfl rfl (by decide +kernel)

/-- The words in front of the name of a graph, one or two of them. -/
theorem lexes_digraph (strict : Bool) :
    Lexes ((if strict then "strict " else "") ++ "digraph ").toList
      ((if strict then [.word "strict"] else []) ++ [.word "digraph"]) := by
  have hdigraph : Lexes "digraph ".toList [.word "digraph"] :=
    lexes_word (c := ' ') (s := "digraph") rfl rfl (by decide +kernel)
  rw [String.toList_append]
  refine Lexes.append ?_ hdigraph
  cases strict with
  | true => exact lexes_word (c := ' ') (s := "strict") rfl rfl (by decide +kernel)
  | false => exact .nil

theorem lexes_closing : Lexes "\x7d".toList [.closeBrace] := lexes_start rfl

/-- The end of a line is a blank. -/
theorem Lexes.line {text : String} {ts : List Token} (h : Lexes text.toList ts) :
    Lexes (text ++ "\n").toList ts := by
  rw [String.toList_append, ← List.append_nil ts]
  exact h.append (lexes_start (c := '\n') rfl)

/-- The indentation of a line is blank. -/
theorem Lexes.indented {text : String} {ts : List Token} (h : Lexes text.toList ts)
    (level : Nat) : Lexes (indented level text).toList ts := by
  rw [Dot.indented, String.toList_append, String.toList_ofList]
  exact (lexes_spaces (2 * level)).append h

/-- The lines of statements have the tokens of the statements. -/
theorem lexes_lines {ss : List Statement} (h : ∀ s ∈ ss, Worded s) (level : Nat) :
    Lexes ((Statement.lines level ss).flatMap fun line => (line ++ "\n").toList)
      (ss.flatMap tokensOf) := by
  -- along the statements, at every level: a block shifts the lines that follow it
  induction ss generalizing level with
  | nil => exact .nil
  | cons s ss ih =>
    have hs := h s List.mem_cons_self
    have ih := ih fun s hs => h s (List.mem_cons_of_mem _ hs)
    cases s with
    | «attribute» e =>
      have hpair : Lexes (pair e ++ ";").toList (tokensOf (.attribute e)) := by
        rw [String.toList_append]
        exact (lexes_pair hs).append lexes_semicolon
      exact (hpair.indented level).line.append (ih level)
    | node n => exact ((lexes_nodeText hs).indented level).line.append (ih level)
    | opening name =>
      exact ((lexes_opening lexes_subgraph name).indented level).line.append (ih (level + 1))
    | closing => exact (lexes_closing.indented (level - 1)).line.append (ih (level - 1))
    | edge e => exact ((lexes_edgeText hs).indented level).line.append (ih level)

/-! ## Documents -/

/-- The first sentence of a document. -/
def headerTokens (strict : Bool) (name : String) : List Token :=
  (if strict then [.word "strict"] else []) ++ [.word "digraph", .quoted (legible name)]

/-- The tokens of a document. -/
theorem lex_document (strict : Bool) (name : String) {ss : List Statement}
    (h : ∀ s ∈ ss, Worded s) :
    Lexer.between.lex (Statement.document strict name ss).toList =
      some (headerTokens strict name ++ .openBrace :: ss.flatMap tokensOf ++ [.closeBrace]) := by
  have hfirst := (lexes_opening (lexes_digraph strict) name).line
  have hall := (hfirst.append (lexes_lines h 1)).append lexes_closing.line []
  rw [Statement.document, String.toList_join, List.flatMap_map, List.flatMap_append,
    List.flatMap_cons, List.flatMap_cons, List.flatMap_nil, List.append_nil]
  rw [List.append_nil] at hall
  exact hall.trans (by simp [Lexer.lex, headerTokens])

end NetPlot.Dot
