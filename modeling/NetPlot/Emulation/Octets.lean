/-
  Octets: texts as files and streams hold them.

  1. **Data** — a row of octets is a string whose characters have numbers below 256.  `toOctets`
     gives the UTF-8 octets of a text, `octetsOf` and `bytesOf` go between octets and bytes.

  2. **Reading back** — `lossyText` gives the text of any octets: what is no UTF-8 becomes
     replacement characters, one for each longest beginning of a sequence.
-/
namespace NetPlot.Text

/-- The octets of bytes. -/
def octetsOf (bytes : ByteArray) : String :=
  String.ofList (bytes.data.toList.map fun b => Char.ofNat b.toNat)

/-- The bytes of octets. -/
def bytesOf (octets : String) : ByteArray :=
  ⟨(octets.toList.map fun c => c.toNat.toUInt8).toArray⟩

/-- The UTF-8 octets of a text. -/
def toOctets (s : String) : String := octetsOf s.toUTF8

/-- What the first octet of a sequence says: how many octets follow it, and between which bounds
the first of them has to be. -/
def sequenceRule (n : Nat) : Option (Nat × Nat × Nat) :=
  if 0xC2 ≤ n ∧ n ≤ 0xDF then some (1, 0x80, 0xBF)
  else if n = 0xE0 then some (2, 0xA0, 0xBF)
  else if n = 0xED then some (2, 0x80, 0x9F)
  else if 0xE1 ≤ n ∧ n ≤ 0xEF then some (2, 0x80, 0xBF)
  else if n = 0xF0 then some (3, 0x90, 0xBF)
  else if 0xF1 ≤ n ∧ n ≤ 0xF3 then some (3, 0x80, 0xBF)
  else if n = 0xF4 then some (3, 0x80, 0x8F)
  else none

/-- The octets at the front that may follow in a sequence, at most `count` of them. -/
def following : Nat → Nat → Nat → List Char → List Char
  | 0, _, _, _ => []
  | _, _, _, [] => []
  | count + 1, low, high, c :: s =>
    if low ≤ c.toNat ∧ c.toNat ≤ high then c :: following count 0x80 0xBF s else []

/-- The number that a sequence stands for. -/
def sequenceValue (count first : Nat) (rest : List Char) : Nat :=
  let lead := if count = 1 then first - 0xC0 else if count = 2 then first - 0xE0 else first - 0xF0
  rest.foldl (fun n c => n * 64 + (c.toNat - 0x80)) lead

/-- The character at the front of octets, and how many octets after the first belong to it. -/
def firstChar (c : Char) (s : List Char) : Char × Nat :=
  if c.toNat < 0x80 then (c, 0)
  else
    match sequenceRule c.toNat with
    | none => ('\ufffd', 0)
    | some (count, low, high) =>
      let rest := following count low high s
      if rest.length = count then (Char.ofNat (sequenceValue count c.toNat rest), count)
      else ('\ufffd', rest.length)

/-- The characters of octets. -/
def lossyChars : List Char → List Char
  | [] => []
  | c :: s => (firstChar c s).1 :: lossyChars (s.drop (firstChar c s).2)
termination_by s => s.length
decreasing_by simp only [List.length_drop, List.length_cons]; omega

/-- The text of octets. -/
def lossyText (octets : String) : String := String.ofList (lossyChars octets.toList)

example : lossyText (toOctets "aé€😀") = "aé€😀" := by decide +kernel
example : lossyText "\xe2\x82x\xff" = "\ufffdx\ufffd" := by decide +kernel

end NetPlot.Text
