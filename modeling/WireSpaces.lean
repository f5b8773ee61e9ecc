import WireSpaces.CodecLaws
import WireSpaces.Packet
import WireSpaces.EndpointQueue
import WireSpaces.Geometry
import WireSpaces.TransmitterRejected
import WireSpaces.HdlcRoundTrip
import WireSpaces.HdlcErrors
import WireSpaces.HostAgreement
import WireSpaces.Transmitter
import WireSpaces.TransmitterMalformed
import WireSpaces.TransmitterRetries
import WireSpaces.SingleAdmission
import WireSpaces.ReceiverNarrow
import WireSpaces.ReceiverLease
import WireSpaces.ReceiverCongestion
import WireSpaces.ReceiverBacking
import WireSpaces.WiringOrder
import WireSpaces.WiringViewer
import WireSpaces.PacketReuse
import WireSpaces.Containers
import WireSpaces.Network
import WireSpaces.LossyUpload
import WireSpaces.RamTransfer
import WireSpaces.RoundTrip
import WireSpaces.UartLink
import WireSpaces.LedRamp
import WireSpaces.BootProfile
import WireSpaces.CanConsole
import WireSpaces.Simulator
