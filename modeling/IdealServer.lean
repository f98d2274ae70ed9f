import IdealServer.Basics
import IdealServer.ByteOrder
import IdealServer.FuA
import IdealServer.Rtp
import IdealServer.Runs
import IdealServer.H264Source
import IdealServer.Ledger
import IdealServer.RtpConnection
import IdealServer.SequenceNumbers
import IdealServer.Descriptors
import IdealServer.Lines
import IdealServer.Numeral
import IdealServer.Scanf
import IdealServer.Search
import IdealServer.Buffer
import IdealServer.RtspMessage
import IdealServer.RtspText
import IdealServer.RtspDispatch
import IdealServer.Pipelining
import IdealServer.Isolation
import IdealServer.MediaSession
import IdealServer.RtspServer
import IdealServer.ServerSteps
import IdealServer.RtpConnPtr
import IdealServer.UdpAddressing
import IdealServer.Membership
import IdealServer.Transports
import IdealServer.Threads
import IdealServer.Teardown
import IdealServer.OutgoingStream
import IdealServer.Shutdown
import IdealServer.SendBinding
import IdealServer.ChannelDiscipline
import IdealServer.Gate
import IdealServer.Cells
import IdealServer.FanOut
import IdealServer.Lifecycle
import IdealServer.Framing
import IdealServer.ResponseText
import IdealServer.Interleaved
import IdealServer.ByteQueue
import IdealServer.EpollPoller
import IdealServer.EventLoop
import IdealServer.OrderedSet
import IdealServer.TimerQueue
import IdealServer.TimerMoves
import IdealServer.TimerRuns
import IdealServer.TimerDue
import IdealServer.Mailboxes
import IdealServer.ServerConnections
import IdealServer.PollerInterest
import IdealServer.Connector
import IdealServer.ConnectorSockets
import IdealServer.TcpClient
import IdealServer.TcpClientLifetime
import IdealServer.SecondaryIndex
import IdealServer.SessionRegistry
import IdealServer.Monitor
import IdealServer.ThreadPool
import IdealServer.ThreadPoolStop
import IdealServer.BoundedBlockingQueue
import IdealServer.RequestLine
import IdealServer.RtcpConsumption
import IdealServer.BufferInts
import IdealServer.BufferCodec
import IdealServer.Checked
import IdealServer.Gregorian
import IdealServer.Date
import IdealServer.UtcTime
import IdealServer.LowerBound
import IdealServer.LocalTime
import IdealServer.LocalRoundTrip
import IdealServer.ZoneFile
import IdealServer.Lexicographic
import IdealServer.StringPiece
import IdealServer.Radix
import IdealServer.CharArray
import IdealServer.Convert
import IdealServer.BoundedText
import IdealServer.LogStream
import IdealServer.LogTokens
import IdealServer.ClockText
import IdealServer.FormattedTime
import IdealServer.LogTime
import IdealServer.LogCache
import IdealServer.Logger
import IdealServer.LogLines
import IdealServer.ReadFd
import IdealServer.FrameBounds
import IdealServer.FailedSetup
import IdealServer.TrackAddressing
import IdealServer.RtspUrl
import IdealServer.RtspResponse
import IdealServer.CSeqEcho
import IdealServer.Sdp
import IdealServer.DescribeFraming
import IdealServer.SdpCache
import IdealServer.Reading
import IdealServer.H264File
import IdealServer.H264Scan
import IdealServer.H264Cover
import IdealServer.SortedMap
import IdealServer.HttpRequest
import IdealServer.HttpContext
import IdealServer.HttpLines
import IdealServer.HttpSegments
import IdealServer.HttpServer
import IdealServer.Circular
import IdealServer.ExactCover
import IdealServer.SudokuSolver
import IdealServer.DancingLinks
import IdealServer.SudokuMatrix
import IdealServer.SudokuNodes
import IdealServer.SudokuPuzzle
import IdealServer.Sudoku
import IdealServer.HttpPipelining
import IdealServer.SudokuServer
import IdealServer.FileServer
import IdealServer.LogFile
import IdealServer.LogVolumes
import IdealServer.LogFlushing
import IdealServer.Slots
import IdealServer.Acceptor
import IdealServer.AcceptorReserve
import IdealServer.SudokuClient
import IdealServer.LoadTest
import IdealServer.BlockingQueue
import IdealServer.Percentile
import IdealServer.PingPong
import IdealServer.QueueTest
