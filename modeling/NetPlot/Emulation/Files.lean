/-
  What emulated programs do to files beyond reading and writing them: they list a directory, and
  take away, move and copy what is at a location with all that is below it.
-/
import NetPlot.Host.Files

namespace NetPlot.Files

/-- The names of what is directly inside of a directory. -/
def children (fs : Files) (l : Location) : List String :=
  fs.entries.filterMap fun (k, _) => if k ≠ [] ∧ k.dropLast = l then k.getLast? else none

/-- Takes away what is at a location and below it. -/
def erase (fs : Files) (l : Location) : Files :=
  { fs with entries := fs.entries.filter fun x => !(l.isPrefixOf x.1) }

/-- Moves what is at a location and below it to another place. -/
def relocate (fs : Files) (source target : Location) : Files :=
  let moved := fs.entries.filterMap fun (k, e) =>
    if source.isPrefixOf k then some (target ++ k.drop source.length, e) else none
  let others := (fs.erase source).erase target
  { others with entries := moved ++ others.entries }

/-- Adds what is at a location and below it at another place. -/
def duplicate (fs : Files) (source target : Location) : Files :=
  (fs.entries.filter fun x => source.isPrefixOf x.1).foldl
    (fun fs (k, e) => fs.put (target ++ k.drop source.length) e) fs

end NetPlot.Files
