/-
  The sentences of a DOT text, and what they say.

  1. **Sentences** — the tokens of statements are cut into the sentences of the statements
     (`sentences_flatMap`): nothing inside of a sentence ends it, whatever the names and values are.

  2. **Items** — each sentence says what its statement was (`ofSentence?_sentence`), names and
     values without their carriage returns.

  3. **Documents** — so a document is read as the items of its statements (`read?_document`).
-/
import NetPlot.Proofs.Answer
import NetPlot.Proofs.Dot.Lexing

namespace NetPlot.Dot

open NetPlot.Answer NetPlot.Graph

/-! ## Sentences

Names and values are quoted, so no token inside a sentence is a semicolon or a brace, and the cut at
these tokens is the cut between statements. -/

/-- A sentence goes up to the first token that ends one. -/
theorem sentences_append {body : List Token} (hb : ∀ t ∈ body, t.ends = false) {t : Token}
    (ht : t.ends = true) (read rest : List Token) :
    sentences read (body ++ t :: rest) =
      (sentences [] rest).map ((read.reverse ++ body, t) :: ·) := by
  induction body generalizing read with
  | nil => rw [List.nil_append, sentences, if_pos ht, List.append_nil]
  | cons u body ih =>
    have hu : ¬ u.ends = true := by simp [hb u List.mem_cons_self]
    rw [List.cons_append, sentences, if_neg hu, ih fun t ht => hb t (List.mem_cons_of_mem u ht),
      List.reverse_cons, List.append_assoc, List.singleton_append]

theorem ends_of_mem_pairTokens {e : String × String} {t : Token} (h : t ∈ pairTokens e) :
    t.ends = false := by
  simp only [pairTokens, List.mem_cons, List.not_mem_nil, or_false] at h
  rcases h with rfl | rfl | rfl <;> rfl

/-- No token of an attribute list ends a sentence. -/
theorem ends_of_mem_intercalate {es : Entries} {t : Token}
    (h : t ∈ List.intercalate [.comma] (es.map pairTokens)) : t.ends = false := by
  induction es with
  | nil => exact absurd h List.not_mem_nil
  | cons e es ih =>
    cases es with
    | nil =>
      rw [List.map_singleton, List.intercalate_singleton] at h
      exact ends_of_mem_pairTokens h
    | cons f es =>
      rw [List.map_cons, List.map_cons, List.intercalate_cons_cons, ← List.map_cons,
        List.mem_append, List.mem_append, List.mem_singleton] at h
      rcases h with (h | rfl) | h
      · exact ends_of_mem_pairTokens h
      · rfl
      · exact ih h

theorem ends_of_mem_bracketedTokens {es : Entries} {t : Token} (h : t ∈ bracketedTokens es) :
    t.ends = false := by
  rw [bracketedTokens] at h
  split at h
  · exact absurd h List.not_mem_nil
  · rw [List.mem_append, List.mem_cons, List.mem_singleton] at h
    rcases h with (rfl | h) | rfl
    · rfl
    · exact ends_of_mem_intercalate h
    · rfl

/-- A sentence ends where its last token is, and not before. -/
theorem ends_sentence (s : Statement) :
    (∀ t ∈ (sentence s).1, t.ends = false) ∧ (sentence s).2.ends = true := by
  -- quoted texts and marks inside a statement never end it, so one case for each kind is enough
  cases s with
  | «attribute» e => exact ⟨fun t ht => ends_of_mem_pairTokens ht, rfl⟩
  | node n =>
    refine ⟨fun t ht => ?_, rfl⟩
    rcases List.mem_cons.mp ht with rfl | ht
    · rfl
    · exact ends_of_mem_bracketedTokens ht
  | opening name => exact ⟨by simp [sentence, Token.ends], rfl⟩
  | closing => exact ⟨fun t ht => absurd ht List.not_mem_nil, rfl⟩
  | edge e =>
    refine ⟨fun t ht => ?_, rfl⟩
    simp only [sentence, List.mem_cons] at ht
    rcases ht with rfl | rfl | rfl | ht
    · rfl
    · rfl
    · rfl
    · exact ends_of_mem_bracketedTokens ht

/-- The tokens of statements are cut where they were put together. -/
theorem sentences_flatMap (ss : List Statement) :
    sentences [] (ss.flatMap tokensOf) = some (ss.map sentence) := by
  induction ss with
  | nil => rfl
  | cons s ss ih =>
    obtain ⟨hb, ht⟩ := ends_sentence s
    rw [List.flatMap_cons, tokensOf, List.append_assoc, List.singleton_append,
      sentences_append hb ht, ih]
    rfl

/-! ## Items -/

/-- Attributes as they are read back. -/
def legibleEntries (es : Entries) : Entries := es.map fun e => (e.1, legible e.2)

/-- What is read of a statement. -/
def itemOf : Statement → Item
  | .attribute e => .attribute e.1 (legible e.2)
  | .node n => .node (legible n.name) (legibleEntries n.attributes.entries)
  | .opening name => .opening (legible name)
  | .closing => .closing
  | .edge e => .edge (legible e.tail) (legible e.head) (legibleEntries e.attributes.entries)

/-- Attributes between commas are read one by one up to the bracket, by induction from the first. -/
theorem pairs?_intercalate (e : String × String) (es : Entries) :
    pairs? (List.intercalate [.comma] ((e :: es).map pairTokens) ++ [.closeBracket]) =
      some (legibleEntries (e :: es)) := by
  induction es generalizing e with
  | nil => rfl
  | cons f es ih =>
    rw [List.map_cons, List.map_cons, List.intercalate_cons_cons, ← List.map_cons,
      List.append_assoc]
    show (pairs? (List.intercalate [.comma] ((f :: es).map pairTokens) ++ [.closeBracket])).map
      ((e.1, legible e.2) :: ·) = _
    rw [ih]
    rfl

/-- What is in brackets is read as the attributes, and no brackets as none. -/
theorem bracketed?_bracketedTokens (es : Entries) :
    bracketed? (bracketedTokens es) = some (legibleEntries es) := by
  cases es with
  | nil => rfl
  | cons e es => exact pairs?_intercalate e es

/-- A sentence says what its statement was. -/
theorem ofSentence?_sentence (s : Statement) :
    Item.ofSentence? (sentence s) = some (itemOf s) := by
  cases s with
  | «attribute» e => rfl
  | node n =>
    rw [sentence, itemOf]
    cases n.attributes.entries with
    | nil => rfl
    | cons e es =>
      -- a bracket is no arrow, so this is not an edge
      show (bracketed? (bracketedTokens (e :: es))).map _ = _
      rw [bracketed?_bracketedTokens]
      rfl
  | opening name => rfl
  | closing => rfl
  | edge e =>
    show (bracketed? (bracketedTokens e.attributes.entries)).map _ = _
    rw [bracketed?_bracketedTokens]
    rfl

/-! ## Documents -/

/-- The first sentence says whether the graph is strict, and its name. -/
theorem header?_headerTokens (strict : Bool) (name : String) :
    header? (headerTokens strict name, .openBrace) = some (strict, legible name) := by
  cases strict <;> rfl

theorem mapM_ofSentence? (ss : List Statement) :
    (ss.map sentence).mapM Item.ofSentence? = some (ss.map itemOf) := by
  rw [List.mapM_map]
  exact mapM_eq_some fun s _ => ofSentence?_sentence s

/-- A document is read as the items of its statements. -/
theorem read?_document (strict : Bool) (name : String) {ss : List Statement}
    (h : ∀ s ∈ ss, Worded s) :
    read? (Statement.document strict name ss) =
      ((Picture.blank (legible name)).complete? [] (ss.map itemOf ++ [Item.closing])).map
        fun p => (strict, p) := by
  have hheader : ∀ t ∈ headerTokens strict name, t.ends = false := by
    cases strict <;> simp [headerTokens, Token.ends]
  -- the last brace is a closing statement of its own
  have htokens : ss.flatMap tokensOf ++ [.closeBrace] =
      (ss ++ [Statement.closing]).flatMap tokensOf := by
    rw [List.flatMap_append]
    rfl
  have hitems : ss.map itemOf ++ [Item.closing] = (ss ++ [Statement.closing]).map itemOf := by
    rw [List.map_append]
    rfl
  rw [read?, lex_document strict name h, Option.bind_some, List.append_assoc, List.cons_append,
    htokens, sentences_append hheader rfl, sentences_flatMap, hitems]
  show (header? (headerTokens strict name, .openBrace)).bind _ = _
  rw [header?_headerTokens]
  show (((ss ++ [Statement.closing]).map sentence).mapM Item.ofSentence?).bind _ = _
  rw [mapM_ofSentence?]
  rfl

end NetPlot.Dot
