import NetworkLabs.Lib.Transition
import NetworkLabs.Lib.PartialMap
import NetworkLabs.Lib.SequenceSpace
import NetworkLabs.Lib.WindowMap
import NetworkLabs.Lib.Chunks
import NetworkLabs.Lib.Endian
import NetworkLabs.Lib.Crc
import NetworkLabs.Lib.CrcPeriod
import NetworkLabs.Lib.Loop
import NetworkLabs.Lib.SlidingWindow
import NetworkLabs.Lib.Gathering
import NetworkLabs.Lib.Exchange
import NetworkLabs.Lib.Recovery
import NetworkLabs.Lib.Process
import NetworkLabs.Lib.Outcomes
import NetworkLabs.Lib.Continuations
import NetworkLabs.Lib.Duplex
import NetworkLabs.Lib.Session
import NetworkLabs.Rtp.Util
import NetworkLabs.Rtp.Packet
import NetworkLabs.Rtp.Sender
import NetworkLabs.Rtp.Receiver
import NetworkLabs.Rtp.System
import NetworkLabs.RtpProofs.Numbers
import NetworkLabs.RtpProofs.ReceiverWindow
import NetworkLabs.RtpProofs.SenderWindow
import NetworkLabs.RtpProofs.SenderSteps
import NetworkLabs.RtpProofs.Delivery
import NetworkLabs.RtpProofs.SenderRefinement
import NetworkLabs.RtpProofs.ReceiverRefinement
import NetworkLabs.RtpProofs.Refinement
import NetworkLabs.RtpProofs.Safety
import NetworkLabs.RtpProofs.Handshake
import NetworkLabs.RtpProofs.SenderPhases
import NetworkLabs.RtpProofs.ReceiverPhases
import NetworkLabs.RtpProofs.StaleAck
import NetworkLabs.RtpProofs.TearDown
import NetworkLabs.RtpProofs.Report
import NetworkLabs.RtpProofs.WindowFit
import NetworkLabs.RtpProofs.ExchangeRefinement
import NetworkLabs.RtpProofs.Recovery
import NetworkLabs.RtpProofs.SenderLog
import NetworkLabs.RtpProofs.SenderAcks
import NetworkLabs.RtpProofs.SenderRuns
import NetworkLabs.RtpProofs.WindowDiscipline
import NetworkLabs.RtpProofs.CumulativeAck
import NetworkLabs.RtpProofs.WholeFile
import NetworkLabs.RtpProofs.Retransmission
import NetworkLabs.RtpProofs.AckOrder
import NetworkLabs.RtpProofs.ReceiverRuns
import NetworkLabs.RtpProofs.Reassembly
import NetworkLabs.RtpProofs.DeliveryOrder
import NetworkLabs.RtpProofs.Checksum
import NetworkLabs.RtpProofs.TwoBitErrors
import NetworkLabs.RtpProofs.Encoding
import NetworkLabs.RtpProofs.FileHandles
import NetworkLabs.RtpProofs.ShortDatagrams
import NetworkLabs.RtpProofs.Destination
import NetworkLabs.RtpProofs.WaitingForSyn
import NetworkLabs.RtpProofs.SetUpBound
import NetworkLabs.RtpProofs.TearDownBound
import NetworkLabs.Ftp.Head
import NetworkLabs.Ftp.Files
import NetworkLabs.Ftp.Client
import NetworkLabs.Ftp.Server
import NetworkLabs.Ftp.System
import NetworkLabs.FtpProofs.Loops
import NetworkLabs.FtpProofs.Steady
import NetworkLabs.FtpProofs.Messages
import NetworkLabs.FtpProofs.Serving
import NetworkLabs.FtpProofs.Requesting
import NetworkLabs.FtpProofs.View
import NetworkLabs.FtpProofs.Framing
import NetworkLabs.FtpProofs.Segmentation
import NetworkLabs.FtpProofs.Connection
import NetworkLabs.FtpProofs.FailedUpload
import NetworkLabs.FtpProofs.Listing
import NetworkLabs.FtpProofs.BrokenSession
import NetworkLabs.FtpProofs.ServerBounds
import NetworkLabs.FtpProofs.ClientBounds
import NetworkLabs.FtpProofs.LengthField
import NetworkLabs.RtpProofs.Completion
import NetworkLabs.RtpProofs.BitFlips
import NetworkLabs.FtpProofs.CommandLine
import NetworkLabs.FtpProofs.Asking
import NetworkLabs.FtpProofs.Frame
import NetworkLabs.Lib.Speech
import NetworkLabs.FtpProofs.WireFormat
import NetworkLabs.FtpProofs.ServerSpeech
import NetworkLabs.FtpProofs.ClientSpeech
import NetworkLabs.FtpProofs.Storing
