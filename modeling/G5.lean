import G5.Base.AsyncLogging
import G5.Base.BlockingQueue
import G5.Base.Condition
import G5.Base.Convert
import G5.Base.CountDownLatch
import G5.Base.Date
import G5.Base.Decimal
import G5.Base.FileUtil
import G5.Base.FixedBuffer
import G5.Base.LocalTime
import G5.Base.LogFile
import G5.Base.LogStream
import G5.Base.LoggerBuffers
import G5.Base.LoggerFile
import G5.Base.LoggerStart
import G5.Base.LoggerStop
import G5.Base.LoggerStream
import G5.Base.Logging
import G5.Base.Mutex
import G5.Base.TextLength
import G5.Base.Thread
import G5.Base.ThreadPool
import G5.Base.ThreadPoolMutex
import G5.Base.ThreadPoolProgress
import G5.Base.ThreadPoolTasks
import G5.Base.ThreadPoolWakeups
import G5.Base.TimeZone
import G5.Base.TimeZoneFile
import G5.Base.Timestamp
import G5.Base.TransitionLookup
import G5.Base.UtcTime
import G5.Base.ZoneEncoding
import G5.Base.ZoneTruncation
import G5.Base.ZoneValidity
import G5.Basic
import G5.Lib.Backlog
import G5.Lib.BigEndian
import G5.Lib.BinarySearch
import G5.Lib.ConditionVariable
import G5.Lib.Exclusion
import G5.Lib.FixedWidth
import G5.Lib.Gregorian
import G5.Lib.LittleEndian
import G5.Lib.Mask
import G5.Lib.Progress
import G5.Lib.Record
import G5.Lib.Region
import G5.Lib.RoundRobin
import G5.Lib.Runs
import G5.Lib.Search
import G5.Lib.SortedMap
import G5.Lib.SortedSet
import G5.Net.Buffer
import G5.Net.BufferGrowth
import G5.Net.BufferGrowthRuns
import G5.Net.BufferQueue
import G5.Net.CallbackOrder
import G5.Net.Channel
import G5.Net.ChannelLifetime
import G5.Net.ConnectionRun
import G5.Net.EchoServer
import G5.Net.EventLoop
import G5.Net.EventLoopThread
import G5.Net.EventLoopThreadPool
import G5.Net.Http.Exchange
import G5.Net.Http.HeaderMap
import G5.Net.Http.HeaderSection
import G5.Net.Http.HttpContext
import G5.Net.Http.HttpRequest
import G5.Net.Http.HttpResponse
import G5.Net.Http.HttpServer
import G5.Net.Http.Incremental
import G5.Net.Http.ParserRuns
import G5.Net.Http.Pipelining
import G5.Net.Http.RejectedLine
import G5.Net.Http.RequestGrammar
import G5.Net.Http.RequestLine
import G5.Net.Http.RequestText
import G5.Net.Http.ResponseStream
import G5.Net.Http.ServerRuns
import G5.Net.ServerLoop
import G5.Net.TcpConnection
import G5.Net.TcpServer
import G5.Net.TimerArmed
import G5.Net.TimerCalls
import G5.Net.TimerInterval
import G5.Net.TimerLoop
import G5.Net.TimerQueue
import G5.Net.Unwrite
import G5.Net.WriteComplete
import G5.Net.WriteInterest
