import DatagramStreams.Packet.Selector
import DatagramStreams.Packet.Text
import DatagramStreams.Simulation.Command
import DatagramStreams.Proofs.Packet.WireForm
import DatagramStreams.Proofs.Stream.Recovery
import DatagramStreams.Proofs.Stream.Owing
import DatagramStreams.Proofs.Stream.Outstanding
import DatagramStreams.Proofs.Stream.AckOrder
import DatagramStreams.Proofs.Stream.Silence
import DatagramStreams.Proofs.Stream.Transmission
import DatagramStreams.Proofs.Stream.Trigger
import DatagramStreams.Proofs.Session.Conservation
import DatagramStreams.Proofs.Session.Delivery
import DatagramStreams.Proofs.Session.Callbacks
import DatagramStreams.Proofs.Session.Keeping
import DatagramStreams.Proofs.Session.Release
import DatagramStreams.Proofs.Session.Closing
import DatagramStreams.Proofs.Session.Acks
import DatagramStreams.Proofs.Handshake.Agreement
import DatagramStreams.Proofs.Server.Isolation
import DatagramStreams.Proofs.Server.Lifecycle
import DatagramStreams.Proofs.Simulation.References
import DatagramStreams.Proofs.Simulation.Orderly
import DatagramStreams.Proofs.Simulation.Commands
import DatagramStreams.Proofs.Simulation.Turns
import DatagramStreams.Proofs.Simulation.Moves
import DatagramStreams.Proofs.Simulation.Leaving
import DatagramStreams.Proofs.Simulation.Ownership
import DatagramStreams.Proofs.Handshake.Standing
import DatagramStreams.Proofs.Stream.Latest
import DatagramStreams.Proofs.Transport.Deferral
import DatagramStreams.Proofs.Handshake.Attempts
import DatagramStreams.Proofs.Network.Ports
import DatagramStreams.Proofs.Network.History
import DatagramStreams.Proofs.Transport.Reading
import DatagramStreams.Proofs.Simulation.Openings
import DatagramStreams.Proofs.Time.Estimate
import DatagramStreams.Proofs.Simulation.Accounts
import DatagramStreams.Proofs.Simulation.Logged
