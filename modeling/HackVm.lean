import HackVm.Main
import HackVm.Hack.Machine
import HackVm.Vm.Cursor
import HackVm.Proofs.Text.Lines
import HackVm.Proofs.Text.Numerals
import HackVm.Proofs.Text.Notations
import HackVm.Proofs.Text.Tokens
import HackVm.Proofs.Reading.Grammar
import HackVm.Proofs.Reading.Rendering
import HackVm.Proofs.Reading.Deliveries
import HackVm.Proofs.Assembly.Reading
import HackVm.Proofs.Assembly.Layout
import HackVm.Proofs.Emission.Listing
import HackVm.Proofs.Emission.Words
import HackVm.Proofs.Emission.Loaded
import HackVm.Proofs.Emission.Freshness
import HackVm.Proofs.Emission.Writers
import HackVm.Proofs.Emission.History
import HackVm.Proofs.Assembly.Variables
import HackVm.Proofs.Emission.Meaning
import HackVm.Proofs.Emission.Statics
import HackVm.Proofs.Reference.Machine
import HackVm.Proofs.Simulation.Straight
import HackVm.Proofs.Simulation.Blocks
import HackVm.Proofs.Simulation.Comparison
import HackVm.Proofs.Simulation.Commands
import HackVm.Proofs.Simulation.Run
import HackVm.Proofs.Reference.Frames
import HackVm.Proofs.Reference.Calls
import HackVm.Proofs.Simulation.Returns
import HackVm.Proofs.Compilation.FirstFault
import HackVm.Proofs.Compilation.Annotation
import HackVm.Proofs.Assembly.Resolution
import HackVm.Proofs.Compilation.Flattening
import HackVm.Proofs.Machine.WellFormed
import HackVm.Proofs.Machine.Pieces
import HackVm.Proofs.Compilation.Loading
import HackVm.Proofs.Compilation.Names
import HackVm.Proofs.Files.Discovery
import HackVm.Proofs.Files.Writing
import HackVm.Proofs.Logging.Delivery
import HackVm.Proofs.Building.Files
import HackVm.Proofs.Building.Requests
import HackVm.Proofs.CommandLine.ExitCodes
import HackVm.Proofs.CommandLine.Preview
import HackVm.Proofs.Simulation.StackBase
import HackVm.Proofs.Simulation.Operators
import HackVm.Proofs.Logging.SetUp
import HackVm.Proofs.CommandLine.LogRefusal
import HackVm.Proofs.Logging.Sinks
import HackVm.Proofs.Building.Journals
import HackVm.Proofs.CommandLine.LogFiles
import HackVm.Emit.Writer
import HackVm.Proofs.Emission.Refusals
import HackVm.Proofs.Simulation.RoundTrip
import HackVm.Proofs.Text.Decoding
import HackVm.Proofs.Files.Overwriting
import HackVm.Proofs.Files.Outputs
import HackVm.Proofs.Logging.InPlace
import HackVm.Proofs.Building.LogsApart
import HackVm.Proofs.Building.Again
import HackVm.Proofs.Building.Texts
