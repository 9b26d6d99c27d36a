import DocumentServer.Files.Directory
import DocumentServer.Gateway.Relay
import DocumentServer.Gateway.Service
import DocumentServer.Main
import DocumentServer.Proofs.Config.RoundTrip
import DocumentServer.Proofs.Database.Reopening
import DocumentServer.Proofs.Database.Sharing
import DocumentServer.Proofs.Gateway.Addressing
import DocumentServer.Proofs.Gateway.Catalog
import DocumentServer.Proofs.Gateway.CutListing
import DocumentServer.Proofs.Gateway.Cutoff
import DocumentServer.Proofs.Gateway.Delivery
import DocumentServer.Proofs.Gateway.Interleaving
import DocumentServer.Proofs.Gateway.ItemLines
import DocumentServer.Proofs.Http.Collecting
import DocumentServer.Proofs.Reply.Emission
import DocumentServer.Proofs.Response.Allowing
import DocumentServer.Proofs.Response.Deriving
import DocumentServer.Proofs.Store.Containment
import DocumentServer.Proofs.Store.Looping
import DocumentServer.Proofs.Store.Walking
import DocumentServer.Proofs.Stream.Accounting
import DocumentServer.Proofs.Stream.Audible
import DocumentServer.Proofs.Stream.Retrying
import DocumentServer.Proofs.Stream.Sealing
import DocumentServer.Proofs.Stream.Starting
import DocumentServer.Proofs.Stream.Untouched
import DocumentServer.Proofs.Utility.Intervals
import DocumentServer.Proofs.Utility.Startup
