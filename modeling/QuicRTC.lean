import QuicRTC.Pubsub.ReplayRing
import QuicRTC.Pubsub.Intercepted
import QuicRTC.Feed.Recovery
import QuicRTC.Resume.Continuation
import QuicRTC.Feed.Outcomes
import QuicRTC.Feed.Pacing
import QuicRTC.Session.Demux
import QuicRTC.Session.PumpStart
import QuicRTC.Session.Rejection
import QuicRTC.Session.Watchdog
import QuicRTC.Session.Authorization
import QuicRTC.Session.Unannounce
import QuicRTC.Server.Isolation
import QuicRTC.Server.LateFailure
import QuicRTC.Server.PublishWall
import QuicRTC.Server.Admission
import QuicRTC.Server.FirstFrame
import QuicRTC.Server.HandshakeGate
import QuicRTC.Client.PublishBack
import QuicRTC.Client.Unannounce
import QuicRTC.Relay.TrackKinds
import QuicRTC.Server.Convergence
import QuicRTC.Server.Detach
import QuicRTC.Server.NonVideo
import QuicRTC.Client.Acknowledgement
import QuicRTC.Relay.Cursor
import QuicRTC.Relay.Reconnect
import QuicRTC.Sdk.ResumeCursor
import QuicRTC.Sdk.SendPump
import QuicRTC.Sdk.Lifecycle
import QuicRTC.Sdk.Subscriptions
import QuicRTC.Client.KindStats
import QuicRTC.Session.RateLimit
import QuicRTC.Session.DataChannel
import QuicRTC.Feed.BidiResponse
import QuicRTC.Record.Salvage
import QuicRTC.Record.Timeline
import QuicRTC.Sdk.ReceiverRun
import QuicRTC.Transport.SendRateMeter
