import Ioscpp.Support.Bytes
import Ioscpp.Support.Checked
import Ioscpp.Support.Cursor
import Ioscpp.Support.Action
import Ioscpp.Support.ActionTriple
import Ioscpp.Support.ActionLog
import Ioscpp.Support.GraphDecode
import Ioscpp.Support.SortedMap
import Ioscpp.Support.Binary64
import Ioscpp.Support.Binary64Integers
import Ioscpp.Support.Text
import Ioscpp.Support.RealText
import Ioscpp.Support.Truncation
import Ioscpp.Support.Settled
import Ioscpp.Support.Extension
import Ioscpp.Error
import Ioscpp.ByteStream
import Ioscpp.Protocol.Plist
import Ioscpp.Protocol.PlistText
import Ioscpp.Protocol.BinaryPlist
import Ioscpp.Protocol.BinaryPlistDecode
import Ioscpp.Protocol.BinaryPlistUnfold
import Ioscpp.Protocol.BinaryPlistFlatten
import Ioscpp.Protocol.BinaryPlistLayout
import Ioscpp.Protocol.BinaryPlistGraph
import Ioscpp.Protocol.BinaryPlistRoundTrip
import Ioscpp.Protocol.BinaryPlistStandard
import Ioscpp.Protocol.BinaryPlistPlaces
import Ioscpp.Protocol.BinaryPlistReals
import Ioscpp.Protocol.PlistXml
import Ioscpp.Protocol.PlistXmlRoundTrip
import Ioscpp.Protocol.PlistXmlGrammar
import Ioscpp.Protocol.PlistXmlDocument
import Ioscpp.Protocol.PlistXmlInteger
import Ioscpp.Protocol.PlistXmlEmpty
import Ioscpp.Protocol.PlistXmlCut
import Ioscpp.Protocol.KeyedArchive
import Ioscpp.Protocol.KeyedArchiveRoundTrip
import Ioscpp.Support.SortedMapFind
import Ioscpp.Protocol.KeyedArchiveNil
import Ioscpp.Protocol.Dtx
import Ioscpp.Protocol.DtxRoundTrip
import Ioscpp.Protocol.DtxFrame
import Ioscpp.DtxConnection
import Ioscpp.DtxConnectionHeader
import Ioscpp.DtxConnectionAwait
import Ioscpp.DtxSizes
import Ioscpp.Protocol.RemoteXpc
import Ioscpp.Protocol.RemoteXpcRoundTrip
import Ioscpp.Protocol.RemoteXpcWrapper
import Ioscpp.Protocol.RemoteXpcFraming
import Ioscpp.Transport
import Ioscpp.TransportReading
import Ioscpp.TransportCalls
import Ioscpp.Protocol.Http2
import Ioscpp.Protocol.Http2Invariant
import Ioscpp.Protocol.Http2Flow
import Ioscpp.Protocol.Http2FlowControl
import Ioscpp.Protocol.Http2Frames
import Ioscpp.Protocol.Http2Delivery
import Ioscpp.Protocol.Http2Receive
import Ioscpp.Protocol.Http2Write
import Ioscpp.Protocol.Http2Steps
import Ioscpp.Protocol.Http2Bounds
import Ioscpp.Protocol.Http2Client
import Ioscpp.Protocol.Http2Windows
import Ioscpp.Protocol.Http2Ended
import Ioscpp.Protocol.Http2Answers
import Ioscpp.Rsd
import Ioscpp.RsdHandshake
import Ioscpp.RsdFraming
import Ioscpp.Protocol.Json
import Ioscpp.Support.Hex
import Ioscpp.Protocol.JsonStrings
import Ioscpp.Protocol.JsonText
import Ioscpp.Protocol.JsonRoundTrip
import Ioscpp.Protocol.Cdtunnel
import Ioscpp.Protocol.Ipv6
import Ioscpp.Protocol.Ipv6Framing
import Ioscpp.Tunnel
import Ioscpp.Protocol.Usbmux
import Ioscpp.Session
import Ioscpp.SessionLossless
import Ioscpp.Usb.UsbTransport
import Ioscpp.Usb.UsbTransportWrite
import Ioscpp.Usb.UsbDevices
import Ioscpp.Usb.UsbSelection
import Ioscpp.Support.Ledger
import Ioscpp.Usb.UsbHeld
import Ioscpp.Usb.UsbResources
import Ioscpp.Connection
import Ioscpp.Stream
import Ioscpp.StreamPeer
import Ioscpp.StreamDelivery
import Ioscpp.StreamCalls
import Ioscpp.StreamProgram
import Ioscpp.StreamTeardown
import Ioscpp.StreamPorts
import Ioscpp.StreamFinished
import Ioscpp.TcpLink
import Ioscpp.TcpLinkPeer
import Ioscpp.TcpLinkRead
import Ioscpp.TcpLinkConnect
import Ioscpp.TcpLinkDelivery
import Ioscpp.TcpLinkSequence
import Ioscpp.TcpLinkEvents
import Ioscpp.TcpLinkSilent
import Ioscpp.TcpLinkCareful
import Ioscpp.TcpLinkKeeps
import Ioscpp.TcpLinkSharing
import Ioscpp.PlistService
import Ioscpp.Crypto.TlsSession
import Ioscpp.Crypto.Pairing
import Ioscpp.Afc
import Ioscpp.AfcLink
import Ioscpp.AfcLockStep
import Ioscpp.AfcTransfer
import Ioscpp.AfcComplete
import Ioscpp.AfcListing
import Ioscpp.AfcHandles
import Ioscpp.ConnectWithRetry
import Ioscpp.Usbmuxd
import Ioscpp.Lockdown
import Ioscpp.Crypto.Pair
import Ioscpp.Crypto.PairAnswers
import Ioscpp.Device
import Ioscpp.Ports
import Ioscpp.Protocol.PlistBase64
import Ioscpp.Support.SignedWords
import Ioscpp.Support.Calendar
import Ioscpp.Support.DecimalDigits
import Ioscpp.Protocol.PlistDates
import Ioscpp.Protocol.PlistDateRoundTrip
import Ioscpp.Support.OnesComplement
import Ioscpp.TcpLinkAddress
import Ioscpp.TcpLinkChecksum
import Ioscpp.TcpLinkWrite
import Ioscpp.StreamWrite
import Ioscpp.ConnectionNegotiation
import Ioscpp.Support.Pieces
import Ioscpp.Protocol.ParsersSettle
import Ioscpp.Replies
import Ioscpp.DtxChannel
import Ioscpp.ProcessControl
import Ioscpp.Support.Simulation
import Ioscpp.DtxConversations
import Ioscpp.ProcessControlRuns
import Ioscpp.Protocol.KeyedArchiveReaders
import Ioscpp.ProcessControlService
import Ioscpp.ByteStreamSimulation
import Ioscpp.ByteStreamTrace
import Ioscpp.StreamCarries
import Ioscpp.TcpLinkCarries
import Ioscpp.ProcessControlOverTunnel
import Ioscpp.AfcDevice
import Ioscpp.AfcFileStore
import Ioscpp.AfcFileRequests
import Ioscpp.AfcFileTransfers
import Ioscpp.AfcFileRuns
import Ioscpp.App
import Ioscpp.AppDevice
import Ioscpp.Support.Agreement
import Ioscpp.AfcAgreement
import Ioscpp.HouseArrest
import Ioscpp.RsdServices
import Ioscpp.SecureLink
import Ioscpp.LockdownSession
import Ioscpp.TunnelHandshake
import Ioscpp.UsbmuxdStream
