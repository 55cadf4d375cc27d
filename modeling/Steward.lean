import Steward.Event.Line
import Steward.Link.Session
import Steward.Proofs.Bridge.Failure
import Steward.Proofs.Bridge.Silence
import Steward.Proofs.Service.Arguments
import Steward.Proofs.Service.Course
import Steward.Service.Simulated
import Steward.Proofs.Bridge.Chronicle
import Steward.Service.Vigil
import Steward.Proofs.Service.Vigil
import Steward.Proofs.Bridge.Resolution
import Steward.Proofs.Bridge.Release
import Steward.Proofs.Service.Secrecy
import Steward.Proofs.Link.Rendezvous
import Steward.Proofs.Bridge.Acknowledgment
import Steward.Proofs.Bridge.Unblocked
import Steward.Proofs.Subscriber.Accounting
import Steward.Proofs.Subscriber.Panic
import Steward.Proofs.Service.Echo
import Steward.Proofs.Service.Feed
import Steward.Proofs.Registry
import Steward.Handshake.Meeting
import Steward.Proofs.Handshake
import Steward.Proofs.Subscriber.Isolation
import Steward.Proofs.Host.Record
import Steward.Proofs.Event.Receiver
import Steward.Proofs.Bridge.Precedence
import Steward.Proofs.Bridge.Quiescence
import Steward.Proofs.Text.Repair
import Steward.Proofs.Event.Line
import Steward.Proofs.Host.Dispatch
import Steward.Proofs.Host.Attempts
import Steward.Proofs.Service.Payload
