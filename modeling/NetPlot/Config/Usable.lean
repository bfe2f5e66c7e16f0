/-
  Which values of a configuration can be used, and what they stand for.

  Each reader below gives what a value stands for, or nothing if it cannot be used.  They serve
  the configuration text and the command line alike, so both take the same values.
-/
import NetPlot.Config.Basic
import NetPlot.Toml.Value

namespace NetPlot.Config

open NetPlot.Text NetPlot.Toml

/-- The output formats that layout programs know. -/
def formats : List String :=
  ["canon", "cmap", "cmapx", "cmapx_np", "dia", "dot", "fig", "gd", "gd2", "gif", "hpgl",
   "imap", "imap_np", "ismap", "jpe", "jpeg", "jpg", "mif", "mp", "pcl", "pdf", "pic", "plain",
   "plain-ext", "png", "ps", "ps2", "svg", "svgz", "vml", "vmlz", "vrml", "vtx", "wbmp", "xdot",
   "xlib"]

/-- The layout programs. -/
def programs : List String := ["neato", "dot", "twopi", "circo", "fdp", "nop"]

/-- A level is at least 1 and fits in 32 bits. -/
def level? (i : Int) : Option Nat := if 1 ≤ i ∧ i < 0x100000000 then some i.toNat else none

/-- The format that a text names; blanks around it do not matter. -/
def format? (s : String) : Option String := if trim s ∈ formats then some (trim s) else none

/-- The layout program that a text names; blanks around it do not matter. -/
def program? (s : String) : Option String := if trim s ∈ programs then some (trim s) else none

/-- The colour that a text names, without blanks around it. -/
def color? (s : String) : Option String := if Color.isColor s then some (trim s) else none

/-- A boolean, or a word for one in any case. -/
def flag? : Value → Option Bool
  | .boolean b => some b
  | .string s =>
    match String.ofList ((trimChars s.toList).map Char.toLower) with
    | "yes" => some true
    | "true" => some true
    | "no" => some false
    | "false" => some false
    | _ => none
  | _ => none

/-- A channel's loss per level. -/
def coefficient? : Value → Option UInt8
  | .integer i => if 0 ≤ i ∧ i < 256 then some i.toNat.toUInt8 else none
  | _ => none

/-- A list of three coefficients. -/
def gradient? : Value → Option Color.Gradient
  | .array [r, g, b] => do some ⟨← coefficient? r, ← coefficient? g, ← coefficient? b⟩
  | _ => none

/-- A value as a text: a string is its content. -/
def plainText : Value → String
  | .string s => s
  | v => v.display

theorem level?_eq_some {i : Int} {l : Nat} : level? i = some l ↔ 1 ≤ l ∧ l < 0x100000000 ∧ i = l := by
  unfold level?
  split
  next h => simp only [Option.some.injEq]; omega
  next h => simp only [reduceCtorEq, false_iff]; omega

theorem format?_mem {s f : String} (h : format? s = some f) : f ∈ formats := by
  unfold format? at h; split at h <;> simp_all

theorem program?_mem {s p : String} (h : program? s = some p) : p ∈ programs := by
  unfold program? at h; split at h <;> simp_all

end NetPlot.Config
