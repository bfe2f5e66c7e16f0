/-
  The two kinds of models: process networks over many documents, and application graphs in one.

  `compileAs` compiles a model of either kind.  `Trouble` is what can go wrong, with the fault
  itself (`Trouble.fault`) and the way to it (`Trouble.messages`).
-/
import NetPlot.Network.Application

namespace NetPlot.Network

/-- The kinds of models. -/
inductive Mode where
  | network
  | application
  deriving DecidableEq, Repr

/-- Why a model cannot be compiled. -/
inductive Trouble where
  | network (failure : Failure)
  | application (fault : Fault)
  deriving DecidableEq, Repr

namespace Trouble

/-- What is wrong with the document. -/
def fault : Trouble → Fault
  | network f => f.fault
  | application f => f

/-- The trouble in words, outermost first. -/
def messages : Trouble → List String
  | network f => f.messages
  | application f => f.messages

end Trouble

/-- The graph of the model that the settings name. -/
def compileAs (mode : Mode) (source : Source) (s : Settings) : Reading Trouble Graph :=
  match mode with
  | .network => (compile source s).mapError .network
  | .application => (compileApplication source s).mapError .application

end NetPlot.Network
