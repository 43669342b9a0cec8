import TableGateway.Main
import TableGateway.Proofs.Compile.Batches
import TableGateway.Proofs.Compile.Loaded
import TableGateway.Proofs.Compile.Narration
import TableGateway.Proofs.Compile.Order
import TableGateway.Proofs.Compile.Replay
import TableGateway.Proofs.Compile.Recompile
import TableGateway.Proofs.Compile.Strict
import TableGateway.Proofs.Compile.Warnings
import TableGateway.Proofs.Stack
import TableGateway.Proofs.Stack.Union
import TableGateway.Proofs.Account.Lookup
import TableGateway.Proofs.Stack.Imported
import TableGateway.Proofs.Account.Session
import TableGateway.Proofs.Route.Chain
import TableGateway.Proofs.Json.Plain
import TableGateway.Proofs.Mapping.BodyLoop
import TableGateway.Proofs.Mapping.Clauses
import TableGateway.Proofs.Mapping.Rendering
import TableGateway.Proofs.Mapping.Requests
import TableGateway.Proofs.Mapping.Storing
import TableGateway.Proofs.Event.Origins
import TableGateway.Proofs.Method.Headers
import TableGateway.Proofs.Event.Malformed
import TableGateway.Proofs.Settings.EnvFile
import TableGateway.Proofs.Account.Regions
import TableGateway.Proofs.Account.Pages
import TableGateway.Proofs.Route.Trimming
import TableGateway.Proofs.Log.Line
import TableGateway.Proofs.Route.Naming
import TableGateway.Proofs.Route.MethodId
import TableGateway.Proofs.Compile.Identifiers
