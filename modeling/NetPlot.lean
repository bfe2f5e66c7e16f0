import NetPlot.CommandLine.Run
import NetPlot.Graph.Dot
import NetPlot.Graph.Dump
import NetPlot.Host.Programs
import NetPlot.Main
import NetPlot.Network.Mode
import NetPlot.Proofs.Color
import NetPlot.Proofs.Config.Changes
import NetPlot.Proofs.Config.Sequence
import NetPlot.Proofs.Dot.Faithful
import NetPlot.Proofs.Dot.Quoting
import NetPlot.Proofs.Graph.Calls
import NetPlot.Proofs.Label.Bytewise
import NetPlot.Proofs.Label.Grammar
import NetPlot.Proofs.Label.Lines
import NetPlot.Proofs.Label.Pairing
import NetPlot.Proofs.Label.Pieces
import NetPlot.Proofs.Label.Substitution
import NetPlot.Proofs.Label.Unbound
import NetPlot.Proofs.Network.Decoding
import NetPlot.Proofs.Network.Depth
import NetPlot.Proofs.Network.Detail
import NetPlot.Proofs.Network.Edges
import NetPlot.Proofs.Network.Enclosure
import NetPlot.Proofs.Network.Flat
import NetPlot.Proofs.Network.Parallel
import NetPlot.Proofs.Network.Interleaving
import NetPlot.Proofs.Network.RegionLabels
import NetPlot.Proofs.Network.Rerooting
import NetPlot.Proofs.Network.Uniqueness
import NetPlot.Proofs.Query.AllAttributes
import NetPlot.Proofs.Query.Stages
import NetPlot.Proofs.Run.Loading
