/-
  The text of the default configuration.

  It is written where a configuration is missing, and says what holds anyway: reading it gives
  `Config.default` without a warning.
-/
import NetPlot.Config.Entries

namespace NetPlot.Config

/-- The lines of the default configuration. -/
def defaultLines : List String :=
  ["# f2dot configuration",
   "#",
   "# Label grammar:  << var && var >> \x7b column && column \x7d \x7b column \x7d ...",
   "# Columns are path queries (@attr, child, a/b, //x, text(), [n], [@a='v'])",
   "# or quoted literals; $1, $2, ... refer to the values bound in << >>.",
   "",
   "direction = \"LR\"      # LR | TB",
   "detail_level = 99     # composites at or below this depth are drawn as boxes",
   "format = \"dot\"        # any Graphviz output format",
   "prog = \"dot\"          # neato | dot | twopi | circo | fdp | nop",
   "",
   "[labels]",
   "leaf = \"\x7b @name \x7d\"",
   "composite = \"\x7b @name \x7d\"",
   "leaf_port = \"\x7b @name \x7d\"",
   "composite_port = \"\x7b @name \x7d\"",
   "signal = \"\"",
   "",
   "[clusters]",
   "input_ports = true",
   "output_ports = true",
   "sources = false",
   "sinks = false",
   "others = false",
   "",
   "[colors]",
   "leaf = \"#FCD975\"",
   "composite_box = \"#79AB78\"",
   "composite_gradient = [11, 16, 21]"]

/-- The text of the default configuration. -/
def defaultText : String := String.join (defaultLines.map (· ++ "\n"))

/-- The name of configuration files. -/
def fileName : String := "f2dot.toml"

end NetPlot.Config
