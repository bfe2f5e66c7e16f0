/-
  Tools that look at single octets.

  `od` shows octets as numbers or letters, `base64` writes them with 64 letters, and `dd` copies
  blocks of them.
-/
import NetPlot.Emulation.Tool.Tree

namespace NetPlot.Emulation.Tool

open NetPlot.Text

/-! ## Showing -/

/-- How octets are shown: how many belong together, how wide they are, and as what. -/
structure Display where
  size : Nat
  width : Nat
  text : Nat → String

/-- A number in a base with at least so many digits. -/
def inBase (base width n : Nat) : String :=
  let ds := Nat.toDigits base n
  String.ofList (List.replicate (width - ds.length) '0' ++ ds)

/-- An octet as a letter. -/
def letterOf (n : Nat) : String :=
  match n with
  | 0 => "\\0"
  | 7 => "\\a"
  | 8 => "\\b"
  | 9 => "\\t"
  | 10 => "\\n"
  | 11 => "\\v"
  | 12 => "\\f"
  | 13 => "\\r"
  | n => if 32 ≤ n ∧ n < 127 then String.singleton (Char.ofNat n) else inBase 8 3 n

/-- The display that a letter and a size stand for. -/
def display? (letter : Char) (size : Nat) : Option Display :=
  match letter with
  | 'c' => some ⟨1, 4, letterOf⟩
  | 'x' => some ⟨size, 2 * size + 1, inBase 16 (2 * size)⟩
  | 'o' => some ⟨size, (8 * size + 2) / 3 + 1, inBase 8 ((8 * size + 2) / 3)⟩
  | 'u' => some ⟨size, (if size = 1 then 4 else if size = 2 then 6 else if size = 4 then 11 else 21),
      Nat.repr⟩
  | 'd' => some ⟨size, (if size = 1 then 5 else if size = 2 then 7 else if size = 4 then 12 else 21),
      fun n =>
        let limit := Nat.pow 2 (8 * size)
        if 2 * n < limit then n.repr else "-" ++ (limit - n).repr⟩
  | _ => none

/-- The number that octets are, the first one weighing least. -/
def littleEndian (s : List Char) : Nat := s.foldr (fun c n => c.toNat + 256 * n) 0

/-- Rows of so many elements. -/
def octetRows {α : Type} (n : Nat) : Nat → List α → List (List α)
  | 0, _ => []
  | _, [] => []
  | fuel + 1, xs => xs.take n :: octetRows n fuel (xs.drop n)

/-- A row of octets as a display shows it. -/
def Display.row (d : Display) (s : List Char) : String :=
  String.join ((octetRows d.size (s.length + 1) s).map fun g => padLeft d.width (d.text (littleEndian g)))

/-- The display that the value of an option stands for. -/
def displayOf? (s : String) : Option Display :=
  match s.toList with
  | l :: r =>
    let ds := r.takeWhile Char.isDigit
    let size := if ds = [] then (if l = 'c' then 1 else 4) else numeral 10 ds
    display? l size
  | [] => none

/-- `od`: octets as numbers or letters. -/
def od : Tool Unit := do
  let g ← given "A:t:N:j:vcbxdowX" [("address-radix", 'A'), ("format", 't'), ("read-bytes", 'N'),
    ("skip-bytes", 'j')] 1
  let displays := g.options.filterMap fun (c, v) =>
    match c with
    | 't' => displayOf? v
    | 'c' => display? 'c' 1
    | 'b' => display? 'o' 1
    | 'x' => display? 'x' 2
    | 'd' => display? 'u' 2
    | 'o' => display? 'o' 2
    | _ => none
  let displays := if displays.isEmpty then (display? 'o' 2).toList else displays
  let number (c : Char) : Option Nat := (g.value? c).bind digits?
  let mut given : List Char := []
  for n in (if g.operands.isEmpty then ["-"] else g.operands) do
    match ← contentOf n with
    | .ok s => given := given ++ s.toList
    | .error e => fault (n ++ ": " ++ e.reason)
  let skip := (number 'j').getD 0
  let text := given.drop skip
  let text := match number 'N' with
    | some n => text.take n
    | none => text
  let address (n : Nat) : String :=
    match g.value? 'A' with
    | some "n" => ""
    | some "d" => inBase 10 7 n
    | some "x" => inBase 16 6 n
    | _ => inBase 8 7 n
  let rows := octetRows 16 (text.length + 1) text
  let mut last : Option (List Char) := none
  let mut starred := false
  for (row, i) in rows.zipIdx do
    if last = some row ∧ row.length = 16 ∧ !g.has 'v' then
      if !starred then say "*\n"
      starred := true
    else
      starred := false
      for (d, k) in displays.zipIdx do
        let front := address (skip + 16 * i)
        let front := if k = 0 then front else padLeft front.length ""
        say (front ++ d.row row ++ "\n")
    last := some row
  if g.value? 'A' ≠ some "n" then say (address (skip + text.length) ++ "\n")

/-! ## Letters -/

/-- The 64 letters. -/
def sixtyFour : List Char :=
  "ABCDEFGHIJKLMNOPQRSTUVWXYZabcdefghijklmnopqrstuvwxyz0123456789+/".toList

/-- Octets in letters, four for each three of them. -/
def encode64 : List Char → List Char
  | a :: b :: c :: r =>
    let n := (a.toNat * 256 + b.toNat) * 256 + c.toNat
    letters n 4 ++ encode64 r
  | [a, b] => letters ((a.toNat * 256 + b.toNat) * 256) 3 ++ ['=']
  | [a] => letters (a.toNat * 65536) 2 ++ ['=', '=']
  | [] => []
where
  /-- The first letters of a number with four of them. -/
  letters (n count : Nat) : List Char :=
    ([n / 262144 % 64, n / 4096 % 64, n / 64 % 64, n % 64].take count).map fun i =>
      sixtyFour.getD i 'A'

/-- The octets that letters stand for. -/
def decode64 (s : List Char) : List Char :=
  let values := s.filterMap fun c => sixtyFour.idxOf? c
  (octetRows 4 (values.length + 1) values).flatMap fun g =>
    let n := (g ++ List.replicate (4 - g.length) 0).foldl (fun n v => n * 64 + v) 0
    ([n / 65536 % 256, n / 256 % 256, n % 256].take (g.length - 1)).map Char.ofNat

/-- `base64`: octets in letters and back. -/
def base64 : Tool Unit := do
  let g ← given "diw:" [("decode", 'd'), ("ignore-garbage", 'i'), ("wrap", 'w')] 1
  let width := ((g.value? 'w').bind digits?).getD 76
  match ← contentOf (g.operands.headD "-") with
  | .error e => refuse (g.operands.headD "-" ++ ": " ++ e.reason) 1
  | .ok s =>
    if g.has 'd' then say (String.ofList (decode64 s.toList))
    else
      let t := encode64 s.toList
      if width = 0 then say (String.ofList t)
      else
        say (String.join ((octetRows width (t.length + 1) t).map fun r => String.ofList r ++ "\n"))

/-! ## Copying -/

/-- A number with a unit. -/
def blockNumber? (s : String) : Option Nat :=
  let (ds, unit) := splitRun Char.isDigit s.toList
  if ds = [] then none
  else
    match String.ofList unit with
    | "" => some (numeral 10 ds)
    | "c" => some (numeral 10 ds)
    | "b" => some (numeral 10 ds * 512)
    | "k" => some (numeral 10 ds * 1024)
    | "K" => some (numeral 10 ds * 1024)
    | "M" => some (numeral 10 ds * 1048576)
    | _ => none

/-- `dd`: copies blocks. -/
def dd : Tool Unit := do
  let g ← given "" [] 1
  let operands := g.operands.map fun a =>
    let (name, value) := splitRun (· ≠ '=') a.toList
    (String.ofList name, String.ofList (value.drop 1), a)
  let known := ["if", "of", "bs", "ibs", "obs", "count", "skip", "seek", "conv", "status"]
  for (name, _, a) in operands do
    if !known.contains name then misuse ("unrecognized operand " ++ quote a) 1
  let value (name : String) : Option String :=
    (operands.reverse.find? fun o => o.1 == name).map fun o => o.2.1
  let number (name : String) (absent : Nat) : Tool Nat := do
    match value name with
    | none => return absent
    | some v =>
      match blockNumber? v with
      | some n => return n
      | none => refuse ("invalid number: " ++ quote v) 1
  let size ← number "bs" 512
  let source := (value "if").getD "-"
  match ← contentOf source with
  | .error e => refuse ("failed to open " ++ quote source ++ ": " ++ e.reason) 1
  | .ok s =>
    let skip ← number "skip" 0
    let text := s.toList.drop (skip * size)
    let count ← number "count" (text.length / size + 1)
    let text := text.take (count * size)
    let changed := match value "conv" with
      | some "ucase" => text.map Char.toUpper
      | some "lcase" => text.map Char.toLower
      | _ => text
    let out := String.ofList changed
    match value "of" with
    | none => say out
    | some name =>
      match ← writeFile name out with
      | .ok () => pure ()
      | .error e => refuse ("failed to open " ++ quote name ++ ": " ++ e.reason) 1
    if value "status" ≠ some "none" then
      let full := text.length / size
      let rest := if text.length % size = 0 then 0 else 1
      let records := full.repr ++ "+" ++ rest.repr ++ " records "
      write 2 (records ++ "in\n" ++ records ++ "out\n")
      if value "status" ≠ some "noxfer" then
        write 2 (text.length.repr ++ (if text.length = 1 then " byte" else " bytes")
          ++ " copied, 0 s, 0 B/s\n")

end NetPlot.Emulation.Tool
