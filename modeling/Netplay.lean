import Netplay.Session.Client
import Netplay.Session.Server
import Netplay.Transport.Scripted
import Netplay.Proofs.Maps
import Netplay.Proofs.Worlds
import Netplay.Proofs.Lifetimes
import Netplay.Proofs.Numbers
import Netplay.Proofs.Wire
import Netplay.Proofs.Runs
import Netplay.Proofs.Mirror
import Netplay.Proofs.Rings
import Netplay.Proofs.Restoring
import Netplay.Proofs.Rewinding
import Netplay.Proofs.Serving
import Netplay.Proofs.Agreement
import Netplay.Proofs.Seating
import Netplay.Proofs.Service
import Netplay.Proofs.Frames
import Netplay.Proofs.Corruption
import Netplay.Proofs.Texts
import Netplay.Proofs.Delivery
import Netplay.Proofs.Chronicle
import Netplay.Proofs.Tandem
import Netplay.Proofs.Acknowledgement
import Netplay.Proofs.Authority
import Netplay.Proofs.Arrivals
import Netplay.Proofs.Recovery
import Netplay.Proofs.Dumps
import Netplay.Proofs.Reports
import Netplay.Proofs.Possession
import Netplay.Proofs.Replaying
import Netplay.Proofs.Unapplied
import Netplay.Proofs.Sizes
import Netplay.Proofs.Layouts
import Netplay.Proofs.Parity
import Netplay.Proofs.Reverting
import Netplay.Proofs.Retention
import Netplay.Proofs.Searching
import Netplay.Proofs.Integrity
import Netplay.Proofs.Sensitivity
import Netplay.Proofs.Archives
import Netplay.Proofs.Clockwork
import Netplay.Proofs.Interleaving
import Netplay.Proofs.Outbox
import Netplay.Proofs.Sending
import Netplay.Proofs.Outage
import Netplay.Proofs.Finishing
import Netplay.Proofs.Backlog
import Netplay.Proofs.Reception
import Netplay.Proofs.Fields
import Netplay.Proofs.Echoes
