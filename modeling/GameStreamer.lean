import GameStreamer.Algebra.Cauchy
import GameStreamer.Algebra.GaussJordan
import GameStreamer.Capture.FrameChannel
import GameStreamer.Capture.Handover
import GameStreamer.Capture.HeldTextures
import GameStreamer.Capture.Resampler
import GameStreamer.Capture.TestPattern
import GameStreamer.Capture.TextureRing
import GameStreamer.Capture.Wakeups
import GameStreamer.Client.Accounting
import GameStreamer.Client.ArrivalLog
import GameStreamer.Client.Arrivals
import GameStreamer.Client.Assembly
import GameStreamer.Client.AudioReceive
import GameStreamer.Client.CheckedPush
import GameStreamer.Client.ClockError
import GameStreamer.Client.ClockSync
import GameStreamer.Client.Coverage
import GameStreamer.Client.Dejitter
import GameStreamer.Client.Episodes
import GameStreamer.Client.EpochDiscipline
import GameStreamer.Client.Eviction
import GameStreamer.Client.FecRoundTrip
import GameStreamer.Client.Gate
import GameStreamer.Client.HeldIdr
import GameStreamer.Client.HeldQueue
import GameStreamer.Client.InputCapture
import GameStreamer.Client.Pair
import GameStreamer.Client.PresentStats
import GameStreamer.Client.Reassembly
import GameStreamer.Client.ReassemblyRun
import GameStreamer.Client.Reconstruction
import GameStreamer.Client.RecoveryRequest
import GameStreamer.Client.ReferenceChain
import GameStreamer.Client.ReleaseOrder
import GameStreamer.Client.Robustness
import GameStreamer.Client.Run
import GameStreamer.Client.SessionLoop
import GameStreamer.Core.Bytes
import GameStreamer.Core.Checked
import GameStreamer.Core.Clusters
import GameStreamer.Core.Consecutive
import GameStreamer.Core.ConsecutiveIds
import GameStreamer.Core.EventRun
import GameStreamer.Core.JsonText
import GameStreamer.Core.Loans
import GameStreamer.Core.Media
import GameStreamer.Core.Pieces
import GameStreamer.Core.Raster
import GameStreamer.Core.Registers
import GameStreamer.Core.Requests
import GameStreamer.Core.SerialNumber
import GameStreamer.Core.SerialOrder
import GameStreamer.Core.SortedWindow
import GameStreamer.Core.Tiling
import GameStreamer.Core.Varint
import GameStreamer.Encode.Api
import GameStreamer.Encode.AppliedBitrate
import GameStreamer.Encode.Convert
import GameStreamer.Encode.EncodeThread
import GameStreamer.Encode.FrameIds
import GameStreamer.Encode.KeyframeRequests
import GameStreamer.Encode.MarkedPicture
import GameStreamer.Encode.Nvenc
import GameStreamer.Encode.Sw
import GameStreamer.Encode.VideoToolbox
import GameStreamer.Fec.CheckedRecovery
import GameStreamer.Fec.Erasures
import GameStreamer.Fec.Field256
import GameStreamer.Fec.GroupLayout
import GameStreamer.Fec.InPlaceInversion
import GameStreamer.Fec.Inversion
import GameStreamer.Fec.ReedSolomon
import GameStreamer.Input.Gamepad
import GameStreamer.Input.InputPath
import GameStreamer.Input.Keymap
import GameStreamer.Input.Macos
import GameStreamer.Input.Windows
import GameStreamer.Protocol.ChunkedFrame
import GameStreamer.Protocol.Chunking
import GameStreamer.Protocol.Control
import GameStreamer.Protocol.Datagram
import GameStreamer.Protocol.Input
import GameStreamer.Protocol.Pairing
import GameStreamer.Protocol.SentFrame
import GameStreamer.Protocol.WireFormat
import GameStreamer.Session.Access
import GameStreamer.Session.ArrivalGroups
import GameStreamer.Session.AudioPipeline
import GameStreamer.Session.BacklogDrop
import GameStreamer.Session.BitrateControl
import GameStreamer.Session.BweDriver
import GameStreamer.Session.DelayDetector
import GameStreamer.Session.DelayTime
import GameStreamer.Session.EncodeLoop
import GameStreamer.Session.Estimate
import GameStreamer.Session.Feedback
import GameStreamer.Session.HistoryDrain
import GameStreamer.Session.HostCap
import GameStreamer.Session.PairedPeers
import GameStreamer.Session.PairingAgreement
import GameStreamer.Session.PairingExchange
import GameStreamer.Session.PairingGuesses
import GameStreamer.Session.PairingNet
import GameStreamer.Session.PairingWindow
import GameStreamer.Session.ProbeControl
import GameStreamer.Session.ProbeDriver
import GameStreamer.Session.ProbeDue
import GameStreamer.Session.ProbeEstimator
import GameStreamer.Session.ProbeHeard
import GameStreamer.Session.ProbeLedger
import GameStreamer.Session.ProbeLifecycle
import GameStreamer.Session.RateControl
import GameStreamer.Session.Rates
import GameStreamer.Session.Registry
import GameStreamer.Session.Retransmission
import GameStreamer.Session.Revocation
import GameStreamer.Session.SendHistory
import GameStreamer.Session.SenderTask
import GameStreamer.Session.Service
import GameStreamer.Session.ServiceTurn
import GameStreamer.Session.SessionIsolation
import GameStreamer.Session.StoredPeers
import GameStreamer.Session.Trendline
import GameStreamer.Transport.ControlStream
import GameStreamer.Transport.IdealPrimitives
import GameStreamer.Transport.Identity
import GameStreamer.Transport.Pairing
import GameStreamer.Transport.PeerDurability
import GameStreamer.Transport.PeerStore
import GameStreamer.Video.AnnexB
import GameStreamer.Video.LengthPrefix
import GameStreamer.Video.Pattern
