import Playspace.Lib.LongestMatch
import Playspace.Citbrains.Cpp
import Playspace.Citbrains.Dictionary
import Playspace.Citbrains.Message
import Playspace.Citbrains.Robot
import Playspace.Citbrains.Class
import Playspace.Lib.Wire
import Playspace.Citbrains.WireFormat
import Playspace.Python.ParseHtn
import Playspace.Proofs.Encoder
import Playspace.Proofs.RoundTrip
import Playspace.Proofs.Handler
import Playspace.Lib.LastWrite
import Playspace.Lib.Machine
import Playspace.Proofs.ReceiverRuns
import Playspace.Proofs.EndToEnd
import Playspace.Proofs.Confidence
import Playspace.Proofs.Lifecycle
import Playspace.Proofs.Network
import Playspace.Proofs.Agreement
import Playspace.Proofs.Extraction
import Playspace.Proofs.Codec
import Playspace.Proofs.EncoderTermination
import Playspace.Proofs.DictionaryLife
import Playspace.Citbrains.UdpSocket
import Playspace.Proofs.ReceiveLoop
import Playspace.Citbrains.AsyncSocket
import Playspace.Proofs.StreamLoop
import Playspace.Lib.Grid
import Playspace.Citbrains.WhiteLineMap
import Playspace.Proofs.WhiteLineMap
import Playspace.Visibility.Graph
import Playspace.Proofs.Obstacles
import Playspace.Proofs.AngularSort
import Playspace.Lib.Plane
import Playspace.Proofs.Rectangle
import Playspace.Lib.Warping
import Playspace.Ninshiki.FileInput
import Playspace.Proofs.VoiceMatching
import Playspace.Proofs.VoiceLoading
import Playspace.Proofs.VoiceData
import Playspace.Proofs.MessageSize
import Playspace.Proofs.PythonReceiver
import Playspace.Citbrains.ControlMessage
import Playspace.Citbrains.ControlWire
import Playspace.Citbrains.WalkCommunication
import Playspace.Proofs.WalkClient
import Playspace.Kyopro.Template
import Playspace.Lib.SquareMultiply
import Playspace.Proofs.PowerMod
import Playspace.Kyopro.PracticalComputing
import Playspace.Lib.Pascal
import Playspace.Proofs.PascalTriangle
import Playspace.Proofs.TeamView
import Playspace.Proofs.TeamAgreement
import Playspace.Lib.StreamSocket
import Playspace.Lib.Progress
import Playspace.Device.UnixDomainSocket
import Playspace.Proofs.UppercaseFilter
import Playspace.Proofs.FilterProgress
import Playspace.Lib.Angle
import Playspace.Proofs.DeclinationSort
import Playspace.Lib.Motion
import Playspace.Citbrains.Frames
import Playspace.Proofs.Frames
import Playspace.Lib.Channel
import Playspace.Citbrains.WalkLink
import Playspace.Proofs.WalkLink
import Playspace.Lib.OrderedDict
import Playspace.Python.CountVertices
import Playspace.Proofs.CountVertices
import Playspace.Lib.HeldPaths
import Playspace.Proofs.VoiceEquality
import Playspace.Lib.Orbit
import Playspace.Kyopro.Contest
import Playspace.Proofs.Contest
import Playspace.Webotsvision.CameraLink
import Playspace.Proofs.CameraLink
