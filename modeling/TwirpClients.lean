import TwirpClients.Main
import TwirpClients.Storage.FileTree
import TwirpClients.Proofs.Batch
import TwirpClients.Proofs.ClientText.Faithfulness
import TwirpClients.Proofs.Command.Agreement
import TwirpClients.Proofs.Command.Delivery
import TwirpClients.Proofs.Options
import TwirpClients.Proofs.OutputDirectory
import TwirpClients.Proofs.Wire.Reading
import TwirpClients.Proofs.Wire.Spelling
import TwirpClients.Proofs.Wire.Descriptor
import TwirpClients.Proofs.Batch.Errors
import TwirpClients.Proofs.Command.Plugin
import TwirpClients.Proofs.OutputDirectory.Confinement
import TwirpClients.Proofs.Batch.Lookup
import TwirpClients.Proofs.Api.Routes
import TwirpClients.Proofs.Command.Discovery
import TwirpClients.Proofs.Json.Printer
import TwirpClients.Proofs.Api.Json
import TwirpClients.Proofs.Command.Inspection
import TwirpClients.Proofs.Options.Grammar
import TwirpClients.Proofs.ClientText.Literals
import TwirpClients.Proofs.ClientText.SourceLines
import TwirpClients.Proofs.OutputDirectory.InOrder
import TwirpClients.Proofs.Storage.Changes
import TwirpClients.Proofs.Storage.Ways
import TwirpClients.Proofs.Storage.MakingDirectories
import TwirpClients.Proofs.OutputDirectory.Footprint
import TwirpClients.Proofs.GeneratedFile
import TwirpClients.Proofs.OutputDirectory.GeneratedNames
import TwirpClients.Proofs.Wire.Steady
import TwirpClients.Proofs.Wire.Concatenation
import TwirpClients.Proofs.Api.Namespaces
import TwirpClients.Proofs.Batch.SingleFiles
import TwirpClients.Proofs.ClientText.ServerPath
