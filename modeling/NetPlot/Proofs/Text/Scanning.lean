/-
  Rules for scans that keep to boundaries.

  1. **Places** — a scanner is `At text rest` when its record is sound and its position is where
     the suffix `rest` of the text begins.  Each way to change a scanner has a step lemma that
     says when it goes from one such place to another.

  2. **Triples** — `Reads text Refused m rest answer` compares a scan with a reader that only
     looks at what is left: from `rest` the run of `m` ends without a crash, with the value of
     `answer` at the place that `answer` leaves, or with a refusal if `answer` is one.

  3. **Composition** — `Reads.bind` follows the sequence of a program, `reads_ifEat` its choices,
     and `reads_loop` its loops: if each round that is not the last leaves less than it got, the
     loop ends, by induction on what is left.  `ends_of_reads` and `exists_refused` say what this
     means for the scan of a whole text.
-/
import NetPlot.Proofs.Text.Scanner

namespace NetPlot.Text

/-! ## Places

A place is given by what is left of the text, not by a number.  A scanner that is moved on by the
bytes of a front of the rest is at the place behind that front. -/

/-- A shorter suffix begins at a later byte. -/
theorem offset_lt_offset {text rest r : List Char} (hrest : rest <:+ text) (hr : r <:+ text)
    (hlt : r.length < rest.length) : offset text rest < offset text r := by
  obtain ⟨front, rfl⟩ := List.suffix_of_suffix_length_le hr hrest (Nat.le_of_lt hlt)
  obtain ⟨before, rfl⟩ := hrest
  cases front with
  | nil => simp at hlt
  | cons c front =>
    have := c.utf8Size_pos
    simp only [offset, utf8Size_append, List.cons_append, utf8Size]
    omega

/-- A part of what is left takes its bytes. -/
theorem offset_append_right {text front r : List Char} (h : front ++ r <:+ text) :
    offset text r = offset text (front ++ r) + utf8Size front := by
  obtain ⟨before, rfl⟩ := h
  rw [offset_append, ← List.append_assoc, offset_append, utf8Size_append]

/-- The end of a text is where nothing is left of it. -/
theorem offset_lt_size_iff {text rest : List Char} (h : rest <:+ text) :
    offset text rest < utf8Size text ↔ rest ≠ [] := by
  obtain ⟨front, rfl⟩ := h
  rw [offset_append, utf8Size_append]
  cases rest with
  | nil => simp [utf8Size]
  | cons c rest =>
    have := c.utf8Size_pos
    simp only [utf8Size, ne_eq, reduceCtorEq, not_false_eq_true, iff_true]
    omega

namespace Scanner

/-- In a sound state, where the suffix `rest` of the text begins. -/
structure At (text rest : List Char) (s : Scanner) : Prop where
  text_eq : s.text = text
  suffix : rest <:+ text
  position_eq : s.position = offset text rest
  sound : s.Sound

variable {text rest r : List Char} {s : Scanner}

/-- A scanner in front of a text is at the text, with nothing in its record but the beginning. -/
theorem at_ofText (text : List Char) : (ofText text).At text text where
  text_eq := rfl
  suffix := List.suffix_rfl
  position_eq := (Nat.sub_self _).symm
  sound :=
    { boundary := by
        rintro p hp
        obtain rfl := List.mem_singleton.1 hp
        exact onBoundary_iff.2 ⟨[], text, rfl, rfl⟩
      ordered := List.pairwise_singleton _ _
      slices := fun _ h => absurd h List.not_mem_nil
      rounds := fun _ h => absurd h List.not_mem_nil }

/-- Past a part of what is left. -/
theorem At.advance {front : List Char} (h : s.At text (front ++ r)) :
    (s.advance (utf8Size front)).At text r where
  text_eq := h.text_eq
  suffix := (List.suffix_append front r).trans h.suffix
  position_eq := by
    rw [offset_append_right h.suffix, ← h.position_eq]
    rfl
  sound :=
    { boundary := by
        have hnew : OnBoundary text (s.position + utf8Size front) := by
          rw [h.position_eq, ← offset_append_right h.suffix]
          exact onBoundary_offset ((List.suffix_append front r).trans h.suffix)
        exact List.forall_mem_cons.2 ⟨h.text_eq ▸ hnew, h.sound.boundary⟩
      ordered := by
        -- the new position is not in front of the last one, which is not in front of the others
        refine List.pairwise_cons.2 ⟨List.forall_mem_cons.2 ⟨Nat.le_add_right _ _, ?_⟩,
          h.sound.ordered⟩
        intro p hp
        exact Nat.le_trans ((List.pairwise_cons.1 h.sound.ordered).1 p hp) (Nat.le_add_right _ _)
      slices := h.sound.slices
      rounds := h.sound.rounds }

/-- A slice between boundaries. -/
theorem At.recordSlice {start stop : Nat} (h : s.At text rest) (hle : start ≤ stop)
    (hstart : OnBoundary text start) (hstop : OnBoundary text stop) :
    (s.recordSlice start stop).At text rest where
  text_eq := h.text_eq
  suffix := h.suffix
  position_eq := h.position_eq
  sound :=
    { h.sound with
      slices := List.forall_mem_cons.2
        ⟨⟨hle, h.text_eq ▸ hstart, h.text_eq ▸ hstop⟩, h.sound.slices⟩ }

/-- A round that has come on. -/
theorem At.recordRound {start : Nat} (h : s.At text rest) (hlt : start < s.position) :
    (s.recordRound start).At text rest where
  text_eq := h.text_eq
  suffix := h.suffix
  position_eq := h.position_eq
  sound := { h.sound with rounds := List.forall_mem_cons.2 ⟨hlt, h.sound.rounds⟩ }

end Scanner

/-! ## Slices of the text

The bounds of a slice are boundaries if the slice is made of whole characters, which all slices are
that begin at a place and end at a place. -/

theorem Slice.in_source (text : List Char) : Slice.In text ⟨0, text⟩ :=
  ⟨[], [], (List.append_nil text).symm, rfl⟩

/-- What is left of the text is a slice that ends with it. -/
theorem Slice.in_rest {text rest : List Char} (h : rest <:+ text) :
    Slice.In text ⟨offset text rest, rest⟩ := by
  obtain ⟨front, rfl⟩ := h
  exact ⟨front, [], (List.append_nil _).symm, offset_append front rest⟩

namespace Slice.In

variable {text front r : List Char} {v : Slice}

/-- What follows a part of a slice. -/
theorem right (h : v.In text) (hv : front ++ r = v.chars) :
    Slice.In text ⟨v.start + utf8Size front, r⟩ := by
  obtain ⟨before, after, htext, hstart⟩ := h
  exact ⟨before ++ front, after, by simp [htext, ← hv], by rw [hstart, utf8Size_append]⟩

/-- A slice stays one without the blanks at its front: its beginning moves on by their bytes. -/
theorem skipBlanks (h : v.In text) : v.skipBlanks.In text := by
  obtain ⟨blanks, hblanks⟩ := skipBlanks_suffix v.chars
  -- the program counts the bytes of the blanks as a difference of sizes
  have hsize : utf8Size v.chars - utf8Size (Text.skipBlanks v.chars) = utf8Size blanks := by
    have h := utf8Size_append blanks (Text.skipBlanks v.chars)
    rw [hblanks] at h
    omega
  rw [Slice.skipBlanks, hsize]
  exact h.right hblanks

/-- A slice of the text begins on a boundary. -/
theorem onBoundary_start (h : v.In text) : OnBoundary text v.start := by
  obtain ⟨before, after, rfl, hstart⟩ := h
  exact onBoundary_iff.2 ⟨before, v.chars ++ after, List.append_assoc .., hstart⟩

/-- A slice of the text ends on a boundary. -/
theorem onBoundary_stop (h : v.In text) : OnBoundary text v.stop := by
  obtain ⟨before, after, rfl, hstart⟩ := h
  exact onBoundary_iff.2 ⟨before ++ v.chars, after, rfl, by
    rw [Slice.stop, hstart, utf8Size_append]; rfl⟩

end Slice.In

/-! ## Triples

A reader gets what is left of a text and gives a value and what is left behind it, or a fault.  A
scan gets a scanner and gives a value and a scanner, or an error.  `Reads` says that the one follows
the other: if the scanner stands where `rest` begins, the run ends there where the reader leaves
off.  Crashes and runs without an end are excluded by the form of the statement, since the outcome
is `some` and its error is a refusal. -/

variable {φ ε ε' σ α β : Type} {text rest r : List Char} {Refused : φ → ε → Scanner → Prop}

/-- The value and the place are those of the answer, or the refusal matches it. -/
inductive Agrees (text : List Char) (Refused : φ → ε → Scanner → Prop) :
    Except φ (α × List Char) → Except ε α → Scanner → Prop
  | ok {a : α} {r : List Char} {s : Scanner} (h : s.At text r) :
    Agrees text Refused (.ok (a, r)) (.ok a) s
  | error {f : φ} {e : ε} {s : Scanner} (h : Refused f e s) :
    Agrees text Refused (.error f) (.error e) s

/-- From the place where `rest` begins the run ends without a crash and agrees with the answer. -/
def Reads (text : List Char) (Refused : φ → ε → Scanner → Prop) (m : Scan ε α) (rest : List Char)
    (answer : Except φ (α × List Char)) : Prop :=
  ∀ s : Scanner, s.At text rest → ∃ got s',
    m.outcome s = some (got.mapError .refusal, s') ∧ Agrees text Refused answer got s'

namespace Scan

/-- A program whose first part gives a value goes on with the second part. -/
theorem outcome_bind_ok {m : Scan ε α} {k : α → Scan ε β} {s s' : Scanner} {a : α}
    (h : m.outcome s = some (.ok a, s')) : (m >>= k).outcome s = (k a).outcome s' := by
  change (do let (x, s₁) ← m.outcome s; _) = _
  rw [h]
  rfl

/-- A program whose first part stops early stops there. -/
theorem outcome_bind_error {m : Scan ε α} {k : α → Scan ε β} {s s' : Scanner} {e : Stop ε}
    (h : m.outcome s = some (.error e, s')) :
    (m >>= k).outcome s = some (.error e, s') := by
  change (do let (x, s₁) ← m.outcome s; _) = _
  rw [h]
  rfl

end Scan

/-- A value, without a step. -/
theorem reads_pure (a : α) : Reads text Refused (pure a) rest (.ok (a, rest)) :=
  fun s hs => ⟨.ok a, s, rfl, .ok hs⟩

/-- What is left of the text is a suffix of it. -/
theorem Reads.of_suffix {m : Scan ε α} {answer : Except φ (α × List Char)}
    (h : rest <:+ text → Reads text Refused m rest answer) : Reads text Refused m rest answer :=
  fun s hs => h hs.suffix s hs

/-- One program after the other. -/
theorem Reads.bind {m : Scan ε α} {k : α → Scan ε β} {answer : Except φ (α × List Char)}
    {g : α × List Char → Except φ (β × List Char)} (hm : Reads text Refused m rest answer)
    (hk : ∀ a r, answer = .ok (a, r) → Reads text Refused (k a) r (g (a, r))) :
    Reads text Refused (m >>= k) rest (answer >>= g) := by
  intro s hs
  obtain ⟨got, s₁, hrun, hagrees⟩ := hm s hs
  cases hagrees with
  | ok h₁ =>
    rw [Scan.outcome_bind_ok hrun]
    exact hk _ _ rfl s₁ h₁
  | error h₁ => exact ⟨.error _, s₁, Scan.outcome_bind_error hrun, .error h₁⟩

/-- A program after one that does not refuse. -/
theorem Reads.then {m : Scan ε α} {k : α → Scan ε β} {a : α}
    {answer : Except φ (β × List Char)} (hm : Reads text Refused m rest (.ok (a, r)))
    (hk : Reads text Refused (k a) r answer) : Reads text Refused (m >>= k) rest answer :=
  Reads.bind (g := fun _ => answer) hm fun _ _ h => by cases h; exact hk

/-- A refusal ends the whole program. -/
theorem Reads.stop {m : Scan ε α} {k : α → Scan ε β} {f : φ}
    (hm : Reads text Refused m rest (.error f)) :
    Reads text Refused (m >>= k) rest (.error f) :=
  Reads.bind (g := fun _ => .error f) hm fun _ _ h => by cases h

/-- A program after one that stays where it is. -/
theorem Reads.still {m : Scan ε α} {k : α → Scan ε β} {x : Except φ α}
    {g : α → Except φ (β × List Char)}
    (hm : Reads text Refused m rest (x >>= fun a => .ok (a, rest)))
    (hk : ∀ a, x = .ok a → Reads text Refused (k a) rest (g a)) :
    Reads text Refused (m >>= k) rest (x >>= g) := by
  cases x with
  | ok a => exact Reads.then hm (hk a rfl)
  | error f => exact Reads.stop hm

/-- A value made of what was read. -/
theorem Reads.map {m : Scan ε α} {answer : Except φ (α × List Char)} (f : α → β)
    (hm : Reads text Refused m rest answer) :
    Reads text Refused (m >>= fun a => pure (f a)) rest
      (answer >>= fun (a, r) => .ok (f a, r)) :=
  hm.bind fun a _ _ => reads_pure (f a)

namespace Scan

/-! ## Steps

One rule for each operation of the program: where it leads from a place, and under which condition
on the text it is sound. -/

theorem reads_position : Reads text Refused position rest (.ok (offset text rest, rest)) :=
  fun s hs => ⟨.ok (offset text rest), s, by rw [← hs.position_eq]; rfl, .ok hs⟩

theorem reads_source : Reads text Refused source rest (.ok (⟨0, text⟩, rest)) :=
  fun s hs => ⟨.ok ⟨0, text⟩, s, by rw [← hs.text_eq]; rfl, .ok hs⟩

/-- Moving on by as many bytes as a front of the rest has leads behind that front. -/
theorem reads_advance {front : List Char} {n : Nat} (h : front ++ r = rest)
    (hn : utf8Size front = n) : Reads text Refused (advance n) rest (.ok ((), r)) :=
  fun _ hs => ⟨.ok (), _, rfl, .ok (hn ▸ Scanner.At.advance (h ▸ hs))⟩

/-- A refusal is told at the place where it is met. -/
theorem reads_refuse {error : Nat → ε} {f : φ}
    (h : ∀ s : Scanner, s.At text rest → Refused f (error s.position) s) :
    Reads text Refused (refuse error : Scan ε α) rest (.error f) :=
  fun s hs => ⟨.error _, s, rfl, .error (h s hs)⟩

/-- A difference that is not below zero is no crash. -/
theorem reads_minus {a b : Nat} (h : b ≤ a) :
    Reads text Refused (minus a b) rest (.ok (a - b, rest)) := by
  rw [minus, if_pos h]
  exact reads_pure _

/-- A slice from behind a part of it. -/
theorem reads_dropBytes {v : Slice} {front after : List Char} {n : Nat} (hv : v.In text)
    (hfront : front ++ after = v.chars) (hn : utf8Size front = n) :
    Reads text Refused (dropBytes v n) rest (.ok (⟨v.start + n, after⟩, rest)) := by
  intro s hs
  subst hn
  -- the slice asked for is from behind `front` to where `v` ends
  have hle : v.start + utf8Size front ≤ v.stop := by
    rw [Slice.stop, Slice.size, ← hfront, utf8Size_append]
    omega
  refine ⟨.ok _, _, ?_,
    .ok (hs.recordSlice hle (hv.right hfront).onBoundary_start hv.onBoundary_stop)⟩
  refine (outcome_bind_ok rfl).trans ?_
  rw [← hfront, partAt?_append]
  rfl

/-- The part of a slice in front of the rest of it. -/
theorem reads_takeBytes {v : Slice} {front after : List Char} {n : Nat} (hv : v.In text)
    (hfront : front ++ after = v.chars) (hn : utf8Size front = n) :
    Reads text Refused (takeBytes v n) rest (.ok (⟨v.start, front⟩, rest)) := by
  intro s hs
  subst hn
  refine ⟨.ok _, _, ?_, .ok (hs.recordSlice (Nat.le_add_right _ _) hv.onBoundary_start
    (hv.right hfront).onBoundary_start)⟩
  refine (outcome_bind_ok rfl).trans ?_
  rw [← hfront, partAt?_append]
  rfl

/-- What is left is a slice of the whole text that begins at the position. -/
theorem reads_rest :
    Reads text Refused Scan.rest rest (.ok (⟨offset text rest, rest⟩, rest)) := by
  refine Reads.of_suffix fun ⟨front, htext⟩ => reads_source.then (reads_position.then ?_)
  have hsize : utf8Size front = offset text rest := by rw [← htext, offset_append]
  have hdrop : Reads text Refused (dropBytes ⟨0, text⟩ (offset text rest)) rest
      (.ok (⟨0 + offset text rest, rest⟩, rest)) :=
    reads_dropBytes (Slice.in_source text) htext hsize
  rwa [Nat.zero_add] at hdrop

/-- Looking at the next character moves nothing. -/
theorem reads_peek : Reads text Refused peek rest (.ok (rest.head?, rest)) :=
  reads_rest.then (reads_pure _)

/-- A mark that comes next. -/
theorem reads_eat_some {mark : List Char} (h : afterMark? mark rest = some r) :
    Reads text Refused (eat mark) rest (.ok (true, r)) := by
  refine reads_rest.then ?_
  rw [if_pos (by rw [h]; rfl)]
  exact (reads_advance (afterMark?_eq_some.1 h).symm rfl).then (reads_pure true)

/-- A mark that does not come next. -/
theorem reads_eat_none {mark : List Char} (h : afterMark? mark rest = none) :
    Reads text Refused (eat mark) rest (.ok (false, rest)) := by
  refine reads_rest.then ?_
  rw [if_neg (by rw [h]; exact Bool.false_ne_true)]
  exact reads_pure false

/-- A choice by whether a mark comes next. -/
theorem reads_ifEat {mark : List Char} {yes no : Scan ε α} {answer : Except φ (α × List Char)}
    (hyes : ∀ r, afterMark? mark rest = some r → Reads text Refused yes r answer)
    (hno : afterMark? mark rest = none → Reads text Refused no rest answer) :
    Reads text Refused (do if ← eat mark then yes else no) rest answer := by
  cases h : afterMark? mark rest with
  | some r => exact (reads_eat_some h).then (hyes r h)
  | none => exact (reads_eat_none h).then (hno h)

/-- The blanks at the front are passed by a difference of two sizes, which is their own. -/
theorem reads_passBlanks {start : Nat} :
    Reads text Refused (passBlanks ⟨start, rest⟩) rest (.ok ((), skipBlanks rest)) := by
  obtain ⟨blanks, hblanks⟩ := skipBlanks_suffix rest
  have hsize : utf8Size rest = utf8Size blanks + utf8Size (skipBlanks rest) := by
    rw [← utf8Size_append, hblanks]
  have hle : utf8Size (skipBlanks rest) ≤ utf8Size rest := by omega
  have hfront : utf8Size rest - utf8Size (skipBlanks rest) = utf8Size blanks := by omega
  exact (reads_minus hle).then (reads_advance hblanks hfront.symm)

/-- The blanks that come next are passed. -/
theorem reads_skip : Reads text Refused skip rest (.ok ((), skipBlanks rest)) :=
  reads_rest.then reads_passBlanks

/-- At the end of the text there is no next character. -/
theorem reads_next_nil : Reads text Refused next [] (.ok (none, [])) :=
  reads_position.then (reads_rest.then (reads_pure none))

/-- The next character is passed, and told with the position where it begins. -/
theorem reads_next_cons (c : Char) :
    Reads text Refused next (c :: r) (.ok (some (offset text (c :: r), c), r)) :=
  have hc : [c] ++ r = c :: r := rfl
  reads_position.then (reads_rest.then ((reads_advance hc rfl).then (reads_pure _)))

/-- A round that has left less than it got. -/
theorem reads_closeRound (hrest : rest <:+ text) (hlt : r.length < rest.length) :
    Reads text Refused (closeRound (offset text rest)) r (.ok ((), r)) :=
  fun _ hs => ⟨.ok (), _, rfl,
    .ok (hs.recordRound (hs.position_eq ▸ offset_lt_offset hrest hs.suffix hlt))⟩

/-- As many characters are passed as are counted, and every round passes one. -/
theorem reads_nextTimes {front : List Char} {n : Nat} (h : front ++ r = rest)
    (hn : front.length = n) : Reads text Refused (nextTimes n) rest (.ok ((), r)) := by
  subst h hn
  induction front with
  | nil => exact reads_pure ()
  | cons c front ih =>
    -- the round is closed with one character less to go: `reads_closeRound`
    refine Reads.of_suffix fun hsuffix => ?_
    refine reads_position.then ((reads_next_cons c).then ?_)
    exact (reads_closeRound hsuffix (Nat.lt_succ_self _)).then ih

/-- Another program on a text of its own. -/
theorem reads_within {m : Scan ε' α} {inner : List Char} {answer : Except ε' α}
    (h : Ends m inner answer) :
    Reads text Refused (within inner m) rest (.ok (answer, rest)) := by
  obtain ⟨s', hrun, -⟩ := h
  intro s hs
  refine ⟨.ok answer, s, ?_, .ok hs⟩
  change within inner m s = _
  rw [within, hrun]
  cases answer <;> rfl

/-! ## Loops

A loop need not end.  It does if every round that another one follows leaves less of the text, and
then it gives what all rounds together lead to. -/

/-- How one round brings the answer on: a last round gives it or is refused like it, any other
leaves less than it got and the same answer. -/
def Leads (target : σ → List Char → Except φ (α × List Char)) (x : σ) (rest : List Char) :
    Except φ (Turn σ α × List Char) → Prop
  | .ok (.again y, r) => r.length < rest.length ∧ target x rest = target y r
  | .ok (.done a, r) => target x rest = .ok (a, r)
  | .error f => target x rest = .error f

/-- A loop ends with the answer that each of its rounds leads to. -/
theorem reads_loop {body : σ → Scan ε (Turn σ α)}
    (target : σ → List Char → Except φ (α × List Char))
    (hbody : ∀ x rest, ∃ turn, Reads text Refused (body x) rest turn ∧ Leads target x rest turn)
    (x : σ) (rest : List Char) : Reads text Refused (loop body x) rest (target x rest) := by
  induction hn : rest.length using Nat.strongRecOn generalizing x rest with
  | ind n ih =>
    -- strong induction on what is left: the rounds behind this one begin with less
    refine Reads.of_suffix fun hsuffix => ?_
    rw [loop]
    refine reads_position.then ?_
    obtain ⟨turn, hround, hlead⟩ := hbody x rest
    match turn with
    | .ok (.again y, r) =>
      obtain ⟨hlt, htarget⟩ := hlead
      refine hround.then ?_
      rw [complete_again, htarget]
      exact (reads_closeRound hsuffix hlt).then (ih r.length (hn ▸ hlt) y r rfl)
    | .ok (.done a, r) =>
      rw [show target x rest = .ok (a, r) from hlead]
      refine hround.then ?_
      rw [Turn.complete]
      exact reads_pure a
    | .error f =>
      rw [show target x rest = .error f from hlead]
      exact hround.stop

/-! ## Whole runs -/

/-- A scan of a whole text ends with the value that is read or with the error of a fault, if each
refusal is that with a sound record. -/
theorem ends_of_reads {m : Scan ε α} {answer : Except ε α} (x : Except φ α) (error : φ → ε)
    (hm : Reads text Refused m text (x >>= fun a => .ok (a, r)))
    (hanswer : answer = x.mapError error)
    (hrefused : ∀ f e s, Refused f e s → e = error f ∧ s.text = text ∧ s.Sound) :
    Ends m text answer := by
  subst hanswer
  obtain ⟨got, s, hrun, hagrees⟩ := hm _ (Scanner.at_ofText text)
  -- a value is told as it is, and a refusal by the error that belongs to its fault
  cases x with
  | ok a =>
    cases hagrees with
    | ok hs => exact ⟨s, hrun, hs.text_eq, hs.sound⟩
  | error f =>
    cases hagrees with
    | error h =>
      obtain ⟨rfl, htext, hsound⟩ := hrefused _ _ _ h
      exact ⟨s, hrun, htext, hsound⟩

/-- A fault in a whole text is a refusal of the scan. -/
theorem exists_refused {m : Scan ε α} {f : φ} (hm : Reads text Refused m text (.error f)) :
    ∃ e s, Refused f e s := by
  obtain ⟨got, s, -, hagrees⟩ := hm _ (Scanner.at_ofText text)
  cases hagrees with
  | error h => exact ⟨_, s, h⟩

end Scan

end NetPlot.Text
