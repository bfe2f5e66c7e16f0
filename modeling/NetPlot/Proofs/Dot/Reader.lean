/-
  A reader of DOT texts.

  1. **Data** — a `Picture` is what a text says about a graph or a subgraph.

  2. **Tokens** — `lex` cuts a text into tokens, one character after the other: words, quoted texts
     with their escapes undone, and marks.  Blanks part tokens and mean nothing else.

  3. **Sentences** — a sentence ends at a semicolon or a brace.  `Item.ofSentence?` reads one: an
     attribute, a node, an edge, or a brace of a subgraph.

  4. **Pictures** — `Picture.complete?` goes through the items with the subgraphs that are open.
     `read?` reads a whole text; a text that is no graph is not read at all.

  The reader knows the form of DOT texts and nothing of the writer.  It is a function of the text,
  so a text that it reads says one thing only.
-/
import NetPlot.Proofs.Graph.Built

namespace NetPlot.Dot

open NetPlot.Graph

/-! ## Data -/

/-- A graph or subgraph as it is read: attributes, nodes, subgraphs, edges. -/
structure Picture where
  name : String
  attributes : Entries
  nodes : List (String × Entries)
  regions : List Picture
  /-- Tail, head and attributes. -/
  edges : List (String × String × Entries)

/-- A graph or subgraph of which nothing but the name is known. -/
def Picture.blank (name : String) : Picture := ⟨name, [], [], [], []⟩

/-! ## Tokens -/

/-- What a text consists of, blanks aside. -/
inductive Token where
  | word (text : String)
  | quoted (text : String)
  | arrow
  | equals
  | comma
  | semicolon
  | openBracket
  | closeBracket
  | openBrace
  | closeBrace
  deriving DecidableEq, Repr

/-- The token of a character that is a token by itself. -/
def mark? : Char → Option Token
  | '=' => some .equals
  | ',' => some .comma
  | ';' => some .semicolon
  | '[' => some .openBracket
  | ']' => some .closeBracket
  | '\x7b' => some .openBrace
  | '\x7d' => some .closeBrace
  | _ => none

/-- Where a text has been read to; what has been read of a token comes last character first. -/
inductive Lexer where
  | between
  | word (read : List Char)
  | quoted (read : List Char)
  /-- Right behind a backslash. -/
  | escaped (read : List Char)
  /-- Inside of an arrow. -/
  | dash
  deriving DecidableEq, Repr

namespace Lexer

/-- The first character of a token, or a blank. -/
def start (c : Char) : Option (Lexer × List Token) :=
  if c = ' ' ∨ c = '\n' then some (between, [])
  else if c = '"' then some (quoted [], [])
  else if c = '-' then some (dash, [])
  else if isKeyChar c then some (word [c], [])
  else (mark? c).map fun t => (between, [t])

/-- The character that an escape stands for. -/
def unescape? : Char → Option Char
  | '"' => some '"'
  | '\\' => some '\\'
  | 'n' => some '\n'
  | _ => none

/-- One more character, and the tokens that it completes. -/
def step : Lexer → Char → Option (Lexer × List Token)
  | between, c => start c
  | word read, c =>
    if isKeyChar c then some (word (c :: read), [])
    else (start c).map fun (s, ts) => (s, .word (String.ofList read.reverse) :: ts)
  | quoted read, c =>
    if c = '"' then some (between, [.quoted (String.ofList read.reverse)])
    else if c = '\\' then some (escaped read, [])
    else some (quoted (c :: read), [])
  | escaped read, c => (unescape? c).map fun c => (quoted (c :: read), [])
  | dash, c => if c = '>' then some (between, [.arrow]) else none

/-- The tokens of the rest of a text; none if it ends inside of one. -/
def lex : Lexer → List Char → Option (List Token)
  | between, [] => some []
  | word read, [] => some [.word (String.ofList read.reverse)]
  | _, [] => none
  | s, c :: cs => (step s c).bind fun (s, ts) => (lex s cs).map (ts ++ ·)

end Lexer

/-! ## Sentences -/

/-- Does a sentence end here? -/
def Token.ends : Token → Bool
  | semicolon | openBrace | closeBrace => true
  | _ => false

/-- The sentences of a text with the tokens that they end in, where `read` is what has been read of
the first one, last token first; none if the last one does not end. -/
def sentences : List Token → List Token → Option (List (List Token × Token))
  | [], [] => some []
  | _ :: _, [] => none
  | read, t :: ts =>
    if t.ends then (sentences [] ts).map ((read.reverse, t) :: ·) else sentences (t :: read) ts

/-- The attributes up to the closing bracket. -/
def pairs? : List Token → Option Entries
  | [.word k, .equals, .quoted v, .closeBracket] => some [(k, v)]
  | .word k :: .equals :: .quoted v :: .comma :: rest => (pairs? rest).map ((k, v) :: ·)
  | _ => none

/-- Attributes in brackets, or nothing. -/
def bracketed? : List Token → Option Entries
  | [] => some []
  | .openBracket :: rest => pairs? rest
  | _ => none

/-- What a sentence says. -/
inductive Item where
  | attribute (key value : String)
  | node (name : String) (attributes : Entries)
  | edge (tail head : String) (attributes : Entries)
  | opening (name : String)
  | closing

/-- What a sentence and the token at its end say. -/
def Item.ofSentence? : List Token × Token → Option Item
  | ([.word k, .equals, .quoted v], .semicolon) => some (.attribute k v)
  | (.quoted tail :: .arrow :: .quoted head :: rest, .semicolon) =>
    (bracketed? rest).map (.edge tail head)
  | (.quoted name :: rest, .semicolon) => (bracketed? rest).map (.node name)
  | ([.word "subgraph", .quoted name], .openBrace) => some (.opening name)
  | ([], .closeBrace) => some .closing
  | _ => none

/-! ## Pictures -/

/-- The picture that is complete once the items are read, where `p` is open and those of `outer`
are open around it, innermost first.  Nothing is read behind the end. -/
def Picture.complete? : Picture → List Picture → List Item → Option Picture
  | _, _, [] => none
  | p, outer, .attribute k v :: rest =>
    complete? { p with attributes := p.attributes ++ [(k, v)] } outer rest
  | p, outer, .node name es :: rest =>
    complete? { p with nodes := p.nodes ++ [(name, es)] } outer rest
  | p, outer, .edge tail head es :: rest =>
    complete? { p with edges := p.edges ++ [(tail, head, es)] } outer rest
  | p, outer, .opening name :: rest => complete? (.blank name) (p :: outer) rest
  | p, q :: outer, .closing :: rest =>
    complete? { q with regions := q.regions ++ [p] } outer rest
  | p, [], [.closing] => some p
  | _, [], .closing :: _ :: _ => none

/-- The flag and the name in the first sentence of a text. -/
def header? : List Token × Token → Option (Bool × String)
  | ([.word "strict", .word "digraph", .quoted name], .openBrace) => some (true, name)
  | ([.word "digraph", .quoted name], .openBrace) => some (false, name)
  | _ => none

/-- A graph from its sentences. -/
def ofSentences? : List (List Token × Token) → Option (Bool × Picture)
  | [] => none
  | first :: rest =>
    (header? first).bind fun (strict, name) =>
      (rest.mapM Item.ofSentence?).bind fun items =>
        (Picture.complete? (.blank name) [] items).map fun p => (strict, p)

/-- What a text says: whether the graph is strict, and what is in it. -/
def read? (text : String) : Option (Bool × Picture) :=
  (Lexer.between.lex text.toList).bind fun tokens => (sentences [] tokens).bind ofSentences?

end NetPlot.Dot
