import Sandbox.Main
import Sandbox.Proofs.Script.Run
import Sandbox.Proofs.Script.Chain
import Sandbox.Proofs.Script.Lookup
import Sandbox.Proofs.Script.Growth
import Sandbox.Proofs.Module.Cache
import Sandbox.Proofs.Module.Resolution
import Sandbox.Proofs.Exchange.Image
import Sandbox.Proofs.Exchange.RoundTrip
import Sandbox.Proofs.Store.Key
import Sandbox.Proofs.Store.Memory
import Sandbox.Proofs.Store.Access
import Sandbox.Proofs.Store.History
import Sandbox.Proofs.Store.Simulation
import Sandbox.Proofs.Store.Writers
import Sandbox.Proofs.Store.Walk
import Sandbox.Proofs.Store.Listing
import Sandbox.Proofs.Store.Tree
import Sandbox.Proofs.Store.Place
import Sandbox.Proofs.Store.Confinement
import Sandbox.Proofs.Store.Clean
import Sandbox.Proofs.Store.Unpacked
import Sandbox.Proofs.Store.Names
import Sandbox.Proofs.Store.Locator
import Sandbox.Proofs.Within.Basic
import Sandbox.Proofs.Within.Operation
import Sandbox.Proofs.Within.Evaluation
import Sandbox.Proofs.Within.Library
import Sandbox.Proofs.Within.Service
import Sandbox.Proofs.Within.Session
import Sandbox.Proofs.Module.Order
import Sandbox.Proofs.Script.Call
import Sandbox.Proofs.Module.Graph
import Sandbox.Proofs.Module.Shelf
import Sandbox.Proofs.Module.Once
import Sandbox.Proofs.Module.LoadedOnce
import Sandbox.Proofs.Store.Route
import Sandbox.Proofs.Store.Isolation
import Sandbox.Proofs.Store.Spelling
import Sandbox.Proofs.Script.Border
import Sandbox.Proofs.Datum.Settled
import Sandbox.Proofs.Exchange.Measure
import Sandbox.Proofs.Exchange.Stable
import Sandbox.Proofs.Exchange.Extent
import Sandbox.Proofs.Exchange.Reread
import Sandbox.Proofs.Json.RoundTrip
import Sandbox.Proofs.Json.Shape
import Sandbox.Proofs.Service.Parameters
import Sandbox.Proofs.Service.Json
import Sandbox.Proofs.Chunk.Refusal
import Sandbox.Proofs.Chunk.Door
import Sandbox.Proofs.Custody.Clear
import Sandbox.Proofs.Custody.Basic
import Sandbox.Proofs.Custody.Operation
import Sandbox.Proofs.Custody.Evaluation
import Sandbox.Proofs.Custody.Engine
import Sandbox.Proofs.Custody.Library
import Sandbox.Proofs.Custody.Service
import Sandbox.Proofs.Custody.Session
import Sandbox.Proofs.Custody.Start
import Sandbox.Proofs.Custody.Door
import Sandbox.Proofs.Custody.TextOnly
import Sandbox.Proofs.Module.Transition
import Sandbox.Proofs.Exchange.Ending
import Sandbox.Proofs.Exchange.Nesting
import Sandbox.Proofs.Script.Keys
import Sandbox.Proofs.Exchange.Extraction
import Sandbox.Proofs.Number.Interval
import Sandbox.Proofs.Number.Shortest
import Sandbox.Proofs.Number.Text
import Sandbox.Proofs.Yaml.Keys
import Sandbox.Proofs.Exchange.Naming
import Sandbox.Proofs.Module.Runs
import Sandbox.Proofs.Module.Candidates
import Sandbox.Proofs.Module.Below
import Sandbox.Proofs.Chunk.Outcome
import Sandbox.Proofs.Chunk.Lines
import Sandbox.Proofs.Session.Files
import Sandbox.Proofs.Session.PreInit
import Sandbox.Proofs.Session.Print
import Sandbox.Proofs.Session.Sources
import Sandbox.Proofs.Script.Limit
import Sandbox.Proofs.Module.Ring
import Sandbox.Proofs.Module.NeverLoaded
import Sandbox.Proofs.Config.Root
import Sandbox.Proofs.Local.Naming
import Sandbox.Proofs.Local.Walk
import Sandbox.Proofs.Local.Library
