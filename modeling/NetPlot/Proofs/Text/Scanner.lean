/-
  Scanning a text by byte positions.

  1. **Boundaries** — `OnBoundary text n` says that byte `n` is not behind the end of the text and
     that no character lies across it.  `partAt?` parts a text at a byte, and it can do so exactly
     on the boundaries (`isSome_partAt?`).

  2. **Program** — a `Scanner` stands at a byte position of a text.  A `Scan` moves it on by byte
     counts and takes slices by their byte offsets.  Nothing keeps it from a position that is no
     boundary: a slice that begins or ends there is a `crash`, and so is a difference below zero.
     A `loop` has no bound on its rounds; one that goes on forever has no outcome.

  3. **Record** — a scanner writes down each position it has been at, each slice it was asked for
     and each round of a loop that another round follows.  `Scanner.Sound` is what is wanted of
     the record, and `Scan.Ends` says of a whole run that it ends, with which answer, and with a
     sound record.

  A reader that takes lists of characters apart cannot cut a character in two.  A program that keeps
  a byte position can, and so the question is put to programs of this kind, which follow the readers
  step by step.
-/
import NetPlot.Proofs.Text.Cut

namespace NetPlot.Text

/-! ## Boundaries

A character takes one to four bytes.  To part a text at a byte is to find out whether a character
ends there, so a position can be wrong in two ways: inside of a character, or behind the end. -/

/-- Byte `n` is at most the size of the text, and the bytes in front of it are whole characters. -/
structure OnBoundary (text : List Char) (n : Nat) : Prop where
  le_size : n ≤ utf8Size text
  isValid : String.Pos.Raw.IsValid (String.ofList text) ⟨n⟩

/-- The bytes in front of a boundary are those of some of the characters. -/
theorem onBoundary_iff {text : List Char} {n : Nat} :
    OnBoundary text n ↔ ∃ front rest, text = front ++ rest ∧ n = utf8Size front := by
  constructor
  · rintro ⟨-, hvalid⟩
    obtain ⟨i, hi⟩ := String.Pos.Raw.isValid_ofList.1 hvalid
    exact ⟨text.take i, text.drop i, (List.take_append_drop i text).symm,
      hi.trans (utf8ByteSize_ofList _)⟩
  · rintro ⟨front, rest, rfl, rfl⟩
    refine ⟨by simp, String.Pos.Raw.isValid_ofList.2 ⟨front.length, ?_⟩⟩
    rw [List.take_left, utf8ByteSize_ofList]

/-- What is left of a text begins on a boundary. -/
theorem onBoundary_offset {text rest : List Char} (h : rest <:+ text) :
    OnBoundary text (offset text rest) := by
  obtain ⟨front, rfl⟩ := h
  exact onBoundary_iff.2 ⟨front, rest, rfl, offset_append front rest⟩

/-- The characters in front of byte `n` of `s` and those from it on, if no character lies across
it. -/
def partAt? : List Char → Nat → Option (List Char × List Char)
  | s, 0 => some ([], s)
  | [], _ + 1 => none
  | c :: s, n + 1 =>
    if c.utf8Size ≤ n + 1 then
      (partAt? s (n + 1 - c.utf8Size)).map fun (front, r) => (c :: front, r)
    else none

/-- A text is parted where a front of it ends. -/
theorem partAt?_append (front r : List Char) :
    partAt? (front ++ r) (utf8Size front) = some (front, r) := by
  induction front with
  | nil => cases r <;> rfl
  | cons c front ih =>
    -- a front with a character has a byte, so the recursion takes its third equation
    obtain ⟨n, hn⟩ : ∃ n, utf8Size (c :: front) = n + 1 :=
      Nat.exists_eq_add_one.2 (Nat.add_pos_left c.utf8Size_pos _)
    have hsize : n + 1 = c.utf8Size + utf8Size front := hn.symm
    rw [hn, List.cons_append, partAt?, if_pos (by omega), hsize, Nat.add_sub_cancel_left, ih]
    rfl

/-- The two parts make up the text, and the first one has the bytes that were asked for. -/
theorem eq_append_of_partAt? {s front r : List Char} {n : Nat}
    (h : partAt? s n = some (front, r)) : s = front ++ r ∧ n = utf8Size front := by
  fun_induction partAt? s n generalizing front r with
  | case1 s => cases h; exact ⟨rfl, rfl⟩
  | case2 n => cases h
  | case3 c s n hle ih =>
    obtain ⟨⟨front', r'⟩, hpart, heq⟩ := Option.map_eq_some_iff.1 h
    cases heq
    obtain ⟨rfl, hsize⟩ := ih hpart
    exact ⟨rfl, by rw [utf8Size, ← hsize]; omega⟩
  | case4 => cases h

/-- A text can be parted at a byte exactly if that is a boundary. -/
theorem isSome_partAt? {text : List Char} {n : Nat} :
    (partAt? text n).isSome ↔ OnBoundary text n := by
  rw [onBoundary_iff]
  constructor
  · intro h
    obtain ⟨⟨front, r⟩, hpart⟩ := Option.isSome_iff_exists.1 h
    exact ⟨front, r, eq_append_of_partAt? hpart⟩
  · rintro ⟨front, r, rfl, rfl⟩
    rw [partAt?_append, Option.isSome_some]

example : partAt? "aé".toList 2 = none := by decide

/-! ## Slices

A slice remembers where it begins, so that it can be told whether it lies in the text.  All sizes
are counted in bytes. -/

/-- A part of a text: the byte at which it begins, and its characters. -/
structure Slice where
  start : Nat
  chars : List Char

namespace Slice

/-- The number of its bytes. -/
def size (v : Slice) : Nat := utf8Size v.chars

/-- The byte of the text at which it ends. -/
def stop (v : Slice) : Nat := v.start + v.size

/-- The slice without the blanks at its front. -/
def skipBlanks (v : Slice) : Slice :=
  let r := Text.skipBlanks v.chars
  ⟨v.start + (utf8Size v.chars - utf8Size r), r⟩

/-- What follows the mark when the slice begins with it. -/
def afterMark? (mark : List Char) (v : Slice) : Option Slice :=
  (Text.afterMark? mark v.chars).map (⟨v.start + utf8Size mark, ·⟩)

/-- How many bytes stand in front of the first mark in the slice. -/
def find? (mark : List Char) (v : Slice) : Option Nat :=
  (cutAt mark v.chars).map fun (before, _) => utf8Size before

/-- The first mark is as many bytes down as the text before the cut has. -/
theorem find?_of_cutAt_some {mark before r : List Char} {v : Slice}
    (h : cutAt mark v.chars = some (before, r)) : v.find? mark = some (utf8Size before) := by
  rw [find?, h, Option.map_some]

theorem find?_of_cutAt_none {mark : List Char} {v : Slice} (h : cutAt mark v.chars = none) :
    v.find? mark = none := by
  rw [find?, h, Option.map_none]

/-- It is a part of the text, and begins where it says. -/
def In (text : List Char) (v : Slice) : Prop :=
  ∃ front after, text = front ++ v.chars ++ after ∧ v.start = utf8Size front

end Slice

/-- How many bytes stand in front of the first character with the property. -/
def findWhere? (p : Char → Bool) : List Char → Option Nat
  | [] => none
  | c :: s => if p c then some 0 else (findWhere? p s).map (c.utf8Size + ·)

/-- The bytes of a run are counted up to the first character outside of its class. -/
theorem getD_findWhere? (inClass : Char → Bool) (s : List Char) :
    (findWhere? (!inClass ·) s).getD (utf8Size s) = utf8Size (s.takeWhile inClass) := by
  induction s with
  | nil => rfl
  | cons c s ih =>
    by_cases hc : inClass c = true
    · rw [findWhere?, if_neg (by simp [hc]), List.takeWhile_cons_of_pos hc, utf8Size, utf8Size,
        ← ih]
      cases findWhere? (!inClass ·) s <;> rfl
    · rw [findWhere?, if_pos (by simp [hc]), List.takeWhile_cons_of_neg hc]
      rfl

/-! ## Scanners -/

/-- A text and a byte position, with a record of what has been done. -/
structure Scanner where
  text : List Char
  position : Nat
  /-- The positions before, the latest first. -/
  passed : List Nat
  /-- The slices asked for: where each begins and where it ends. -/
  slices : List (Nat × Nat)
  /-- The rounds of loops that another round has followed: the positions at the beginning and at
  the end of each. -/
  rounds : List (Nat × Nat)

namespace Scanner

/-- A scanner in front of a text. -/
def ofText (text : List Char) : Scanner := ⟨text, 0, [], [], []⟩

def advance (n : Nat) (s : Scanner) : Scanner :=
  { s with position := s.position + n, passed := s.position :: s.passed }

def recordSlice (start stop : Nat) (s : Scanner) : Scanner :=
  { s with slices := (start, stop) :: s.slices }

def recordRound (start : Nat) (s : Scanner) : Scanner :=
  { s with rounds := (start, s.position) :: s.rounds }

/-- All positions are boundaries and none is in front of an earlier one, slices lie between
boundaries, and no round of a loop has stayed where it was. -/
structure Sound (s : Scanner) : Prop where
  boundary : ∀ p ∈ s.position :: s.passed, OnBoundary s.text p
  ordered : (s.position :: s.passed).Pairwise (· ≥ ·)
  slices : ∀ v ∈ s.slices, v.1 ≤ v.2 ∧ OnBoundary s.text v.1 ∧ OnBoundary s.text v.2
  rounds : ∀ v ∈ s.rounds, v.1 < v.2

end Scanner

/-! ## Programs over scanners

The operations do what they are told and write down what they did.  That a program stays on
boundaries is not built in; it is proved for each program, from the record. -/

/-- Why a scan stops early. -/
inductive Stop (ε : Type) where
  /-- The text is refused. -/
  | refusal (error : ε)
  /-- A slice is not between boundaries, or a difference is below zero. -/
  | crash

/-- A program over a scanner.  A run without an outcome (`none`) is one that does not end. -/
abbrev Scan (ε α : Type) := ExceptT (Stop ε) (StateT Scanner Option) α

namespace Scan

variable {ε ε' σ α : Type}

def outcome (m : Scan ε α) (s : Scanner) : Option (Except (Stop ε) α × Scanner) :=
  StateT.run (ExceptT.run m) s

def position : Scan ε Nat := do return (← get).position

/-- The whole text. -/
def source : Scan ε Slice := do return ⟨0, (← get).text⟩

/-- On by `n` bytes, wherever that is. -/
def advance (n : Nat) : Scan ε Unit := modify (Scanner.advance n)

/-- The text is refused with an error that tells the position. -/
def refuse (error : Nat → ε) : Scan ε α := do throw (.refusal (error (← position)))

/-- A difference of byte counts. -/
def minus (a b : Nat) : Scan ε Nat := if b ≤ a then return a - b else throw .crash

/-- The slice from its byte `n` on. -/
def dropBytes (v : Slice) (n : Nat) : Scan ε Slice := do
  modify (Scanner.recordSlice (v.start + n) v.stop)
  match partAt? v.chars n with
  | some (_, r) => return ⟨v.start + n, r⟩
  | none => throw .crash

/-- A slice cannot be taken off the boundaries: the attempt is written down, and is a crash. -/
theorem outcome_dropBytes_of_not_onBoundary {v : Slice} {n : Nat} (h : ¬ OnBoundary v.chars n)
    (s : Scanner) : (dropBytes v n : Scan ε Slice).outcome s
      = some (.error .crash, s.recordSlice (v.start + n) v.stop) := by
  have hpart : partAt? v.chars n = none := by
    rw [← Option.not_isSome_iff_eq_none, isSome_partAt?]
    exact h
  unfold dropBytes
  rw [hpart]
  rfl

example : (dropBytes ⟨0, ['é']⟩ 1 : Scan Empty Slice).outcome (.ofText ['é'])
    = some (.error .crash, ⟨['é'], 0, [], [(1, 2)], []⟩) := by rfl

/-- The slice up to its byte `n`. -/
def takeBytes (v : Slice) (n : Nat) : Scan ε Slice := do
  modify (Scanner.recordSlice v.start (v.start + n))
  match partAt? v.chars n with
  | some (front, _) => return ⟨v.start, front⟩
  | none => throw .crash

/-- What is left of the text. -/
def rest : Scan ε Slice := do dropBytes (← source) (← position)

/-- The next character. -/
def peek : Scan ε (Option Char) := do return (← rest).chars.head?

/-- Past the mark if the text goes on with it; does it? -/
def eat (mark : List Char) : Scan ε Bool := do
  if (afterMark? mark (← rest).chars).isSome then
    advance (utf8Size mark)
    return true
  else return false

/-- On by as many bytes as the slice has blanks at its front. -/
def passBlanks (v : Slice) : Scan ε Unit := do advance (← minus v.size v.skipBlanks.size)

/-- Past the blanks that come next. -/
def skip : Scan ε Unit := do passBlanks (← rest)

/-- Past the next character; which is it, and at which position? -/
def next : Scan ε (Option (Nat × Char)) := do
  let start ← position
  match (← rest).chars with
  | [] => return none
  | c :: _ => do
    advance c.utf8Size
    return some (start, c)

/-- The end of a round that began at `start`. -/
def closeRound (start : Nat) : Scan ε Unit := modify (Scanner.recordRound start)

/-- How a round of a loop ends. -/
inductive Turn (σ α : Type) where
  | again (x : σ)
  | done (a : α)

/-- What comes of a round that began at `start`: its value if it was the last, and else what comes
of the next one. -/
def Turn.complete (body : σ → Scan ε (Turn σ α)) (start : Nat) (turn : Turn σ α) : Scan ε α :=
  match turn with
  | .again x => do
    closeRound start
    let start ← position
    let turn ← body x
    turn |>.complete body start
  | .done a => return a
partial_fixpoint

/-- Round after round until one is the last. -/
def loop (body : σ → Scan ε (Turn σ α)) (x : σ) : Scan ε α := do
  let start ← position
  let turn ← body x
  turn.complete body start

/-- What comes of a round that another one follows is what comes of the loop from there. -/
theorem complete_again (body : σ → Scan ε (Turn σ α)) (start : Nat) (x : σ) :
    (Turn.again x).complete body start = (do closeRound start; loop body x) := by
  rw [Turn.complete]
  rfl

/-- Past `n` characters, one each round. -/
def nextTimes : Nat → Scan ε Unit
  | 0 => return ()
  | n + 1 => do
    let start ← position
    let _ ← next
    closeRound start
    nextTimes n

/-- The answer of another program on a text of its own.  It crashes where that one does, and
does not end where that one does not. -/
def within (text : List Char) (m : Scan ε' α) : Scan ε (Except ε' α) := fun s =>
  match m.outcome (.ofText text) with
  | some (.ok a, _) => some (.ok (.ok a), s)
  | some (.error (.refusal e), _) => some (.ok (.error e), s)
  | some (.error .crash, _) => some (.error .crash, s)
  | none => none

/-- On the text the program ends with the answer and does not crash, and all that it has done
is sound. -/
def Ends (m : Scan ε α) (text : List Char) (answer : Except ε α) : Prop :=
  ∃ s, m.outcome (.ofText text) = some (answer.mapError .refusal, s) ∧ s.text = text ∧ s.Sound

end Scan

end NetPlot.Text
