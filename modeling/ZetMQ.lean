import ZetMQ.KeyedTable
import ZetMQ.AdjacentRuns
import ZetMQ.Utf8Text
import ZetMQ.ByteBuffer
import ZetMQ.SubjectGrammar
import ZetMQ.WildcardTrie
import ZetMQ.Routing
import ZetMQ.RoutingTable
import ZetMQ.Delivery
import ZetMQ.Registry
import ZetMQ.Broker
import ZetMQ.SubscriptionLedger
import ZetMQ.RegistryRefinement
import ZetMQ.DeliveryFrame
import ZetMQ.BrokerRefinement
import ZetMQ.RunRefinement
import ZetMQ.DeliveryPlan
import ZetMQ.LedgerDelivery
import ZetMQ.QueueGroups
import ZetMQ.BatchPlan
import ZetMQ.BatchDelivery
import ZetMQ.CallTargets
import ZetMQ.FanoutRuns
import ZetMQ.BatchGroups
import ZetMQ.Channels
import ZetMQ.BatchRefinement
import ZetMQ.ConnectionView
import ZetMQ.QuietRemovals
import ZetMQ.GroupUpdates
import ZetMQ.UnsubIsolation
import ZetMQ.Frames
import ZetMQ.Commands
import ZetMQ.Permissions
import ZetMQ.PubFastPath
import ZetMQ.SessionLoop
import ZetMQ.SessionSteps
import ZetMQ.AccessControl
import ZetMQ.AuthGate
import ZetMQ.PubFrames
import ZetMQ.FullDelivery
import ZetMQ.FrameCodec
import ZetMQ.FrameReceiver
import ZetMQ.PubDecoders
import ZetMQ.PubSections
import ZetMQ.PubVerdicts
import ZetMQ.PubBatches
import ZetMQ.PubDispatch
import ZetMQ.SessionTurns
import ZetMQ.StreamChunking
import ZetMQ.PubReports
import ZetMQ.DrainAgreement
import ZetMQ.BatchLoss
import ZetMQ.Utf8Codec
import ZetMQ.HeaderCodec
import ZetMQ.MsgFrames
import ZetMQ.RelaySizes
import ZetMQ.BoundedLog
import ZetMQ.MachineArith
import ZetMQ.Streams
import ZetMQ.StreamIndex
import ZetMQ.AgeLimit
import ZetMQ.StreamStore
import ZetMQ.ConsumerAccounts
import ZetMQ.ConsumerRuns
import ZetMQ.ConsumerProgress
import ZetMQ.ConnectionCount
import ZetMQ.ServerSessions
import ZetMQ.Interleaving
import ZetMQ.WildcardFlag
import ZetMQ.FileCursor
import ZetMQ.Segments
import ZetMQ.SegmentLayout
import ZetMQ.SegmentRuns
import ZetMQ.TornSegments
import ZetMQ.ConcurrentBroker
import ZetMQ.GroupMarks
import ZetMQ.GroupStages
import ZetMQ.GroupSteps
import ZetMQ.GroupMembership
import ZetMQ.ClientConnection
import ZetMQ.ClientSubscriptions
import ZetMQ.Utf8Cut
import ZetMQ.CommandCodec
import ZetMQ.StreamReplies
import ZetMQ.SubFrames
import ZetMQ.PubRoundTrip
import ZetMQ.HeaderRelay
import ZetMQ.PatternInclusion
import ZetMQ.StringPublish
import ZetMQ.TableRows
import ZetMQ.Residue
import ZetMQ.ConcurrentPublish
import ZetMQ.RegisteredIds
import ZetMQ.PublishScene
import ZetMQ.SteadyGroups
import ZetMQ.CheckedReads
import ZetMQ.CheckedDecoders
import ZetMQ.DecoderBounds
import ZetMQ.FastPathBounds
import ZetMQ.MsgBounds
import ZetMQ.AuthClosure
import ZetMQ.Noninterference
import ZetMQ.StoreCalls
import ZetMQ.ConsumerKeys
import ZetMQ.ConsumerLifetimes
import ZetMQ.ConsumerPolicies
import ZetMQ.PolicyGaps
import ZetMQ.CyclicTurns
import ZetMQ.RoundRobin
import ZetMQ.SubscriptionReplies
import ZetMQ.ClientHandshake
import ZetMQ.HandshakeLoss
import ZetMQ.ClientRequests
import ZetMQ.RequestRuns
import ZetMQ.RequestServer
import ZetMQ.ParserAgreement
import ZetMQ.PatternRules
import ZetMQ.TrieCount
import ZetMQ.FrameLoopEnds
import ZetMQ.IndexScan
import ZetMQ.JsonNumbers
import ZetMQ.JsonStrings
import ZetMQ.JsonTexts
import ZetMQ.JsonCompleteness
import ZetMQ.AdminJson
import ZetMQ.AdminStats
import ZetMQ.BatchWriter
import ZetMQ.WriterBounds
import ZetMQ.OutboundLink
import ZetMQ.TurnEffects
import ZetMQ.ServerHoldings
import ZetMQ.Listener
import ZetMQ.ListenerRuns
import ZetMQ.TaskPool
import ZetMQ.StoreTasks
import ZetMQ.LockedTasks
import ZetMQ.ClientTasks
import ZetMQ.ClientNumbers
import ZetMQ.ClientStalls
import ZetMQ.ClientLink
import ZetMQ.SubscribeRecord
import ZetMQ.SubscribeRuns
import ZetMQ.SubscribeSchedules
import ZetMQ.FlushAnswers
import ZetMQ.FlushTracking
import ZetMQ.FlushSchedules
import ZetMQ.ClientHandles
import ZetMQ.SubscribedOnce
import ZetMQ.ClientBooks
import ZetMQ.BookSteps
import ZetMQ.ClientReplays
import ZetMQ.ClientBookkeeping
