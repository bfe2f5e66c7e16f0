/-
  Expansion: which composite processes of a model are opened, and to what.

  1. **Data** — an `Expansion` says of each composite process of a network, in order, whether it
     is drawn as a box or replaced by the network of its own document, which is expanded in turn.
     A `Model` is a network with its expansion.

  2. **Program** — `expand` goes through the composites depth first.  At the detail level and
     beyond they become boxes; above it their documents are opened.  It ends because the level
     grows with every document inside a document, also where documents refer to each other in a
     circle.

  3. **Failure** — the first document that cannot be used ends the expansion.  A `Reading` keeps
     what was opened up to then, and a `Failure` the composites around the place.
-/
import NetPlot.Config.Basic
import NetPlot.Network.Binding
import NetPlot.Network.Document

namespace NetPlot.Network

open NetPlot.Xml

/-! ## Expanded models -/

/-- What becomes of the composite processes of a network, one after the other. -/
inductive Expansion where
  | done
  /-- It is drawn as a box. -/
  | box (site : Cursor) (rest : Expansion)
  /-- It is replaced by a network, the composites of which become `inner`. -/
  | expand (site : Cursor) (network : Cursor) (inner rest : Expansion)

/-- A network with what becomes of its composites. -/
structure Model where
  network : Cursor
  composites : Expansion

namespace Expansion

/-- The composites of this network that are drawn as boxes. -/
def boxes : Expansion → List Cursor
  | done => []
  | box site rest => site :: rest.boxes
  | expand _ _ _ rest => rest.boxes

end Expansion

/-! ## Reading documents -/

/-- Which documents were opened, in order, and what came of it. -/
structure Reading (ε α : Type) where
  opened : List Path
  outcome : Except ε α

namespace Reading

variable {ε ε' α β : Type}

/-- A value that needs no document. -/
def pure (a : α) : Reading ε α := ⟨[], .ok a⟩

/-- One reading after another; the second one is not done if the first one failed. -/
def bind (x : Reading ε α) (f : α → Reading ε β) : Reading ε β :=
  match x.outcome with
  | .ok a => ⟨x.opened ++ (f a).opened, (f a).outcome⟩
  | .error e => ⟨x.opened, .error e⟩

/-- The same reading with what it gives changed. -/
def map (f : α → β) (x : Reading ε α) : Reading ε β := ⟨x.opened, x.outcome.map f⟩

/-- The same reading with its failure changed. -/
def mapError (f : ε → ε') (x : Reading ε α) : Reading ε' α := ⟨x.opened, x.outcome.mapError f⟩

/-- Opens one document. -/
def open? (source : Source) (name : String) (path : Path) : Reading Fault Cursor :=
  ⟨[path], openDocument source name path⟩

end Reading

/-- A fault with the processes around it. -/
structure Failure where
  /-- The composites that were being expanded, outermost first. -/
  within : List Identity
  /-- The process whose document it is. -/
  owner : Identity
  fault : Fault
  deriving DecidableEq, Repr

namespace Failure

/-- The failure seen from inside the expansion of one more composite. -/
def inside (id : Identity) (f : Failure) : Failure := { f with within := id :: f.within }

/-- The failure in words, outermost first. -/
def messages (f : Failure) : List String :=
  f.within.map (fun id => "Failed to expand composite process <" ++ id.text ++ ">")
    ++ match f.fault with
      | .unreadable _ => ("Failed to load the model of <" ++ f.owner.text ++ ">") :: f.fault.messages
      | _ => f.fault.messages

end Failure

/-! ## Expanding -/

/-- The file that defines a component, as seen from a directory. -/
def componentFile (dir : Path) (component : String) : Path := dir.join (component ++ ".xml")

/-- The identity of the process that an element describes. -/
def identityAt (parent : Identity) (site : Cursor) : Identity :=
  parent.child (site.element.attr "name")

/-- The network of a process, from the document at a path. -/
def openNetwork (source : Source) (id : Identity) (path : Path) : Reading Failure Cursor :=
  (Reading.open? source "process_network" path).mapError fun fault => ⟨[], id, fault⟩

/-- The composite processes of a network. -/
def compositesOf (network : Cursor) : List Cursor := network.childrenNamed "composite_process"

/-- Decides on composites of a network at a level, and opens the documents that this takes. -/
def expand (source : Source) (dir : Path) (maxLevel level : Nat) (parent : Identity)
    (sites : List Cursor) : Reading Failure Expansion :=
  match sites with
  | [] => .pure .done
  | site :: rest =>
    if maxLevel ≤ level then
      (expand source dir maxLevel level parent rest).map (.box site)
    else
      let id := identityAt parent site
      let inner := (openNetwork source id (componentFile dir (site.element.attr "component_name"))).bind
        fun network =>
          (expand source dir maxLevel (level + 1) id (compositesOf network)).map fun e => (network, e)
      (inner.mapError (Failure.inside id)).bind fun (network, e) =>
        (expand source dir maxLevel level parent rest).map (.expand site network e)
termination_by (maxLevel - level, sites.length)

/-- The level of the networks right inside the root frame. -/
def firstLevel : Nat := 2

/-- The model at a path, expanded. -/
def Model.load (source : Source) (s : Settings) : Reading Failure Model :=
  let root : Identity := ⟨s.rootName⟩
  (openNetwork source root s.input).bind fun network =>
    (expand source s.inDir s.config.maxLevel firstLevel root (compositesOf network)).map
      fun e => ⟨network, e⟩

end NetPlot.Network
