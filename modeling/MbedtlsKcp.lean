import MbedtlsKcp.TransitionRuns
import MbedtlsKcp.BleReceiver
import MbedtlsKcp.BleReassembly
import MbedtlsKcp.MediaSliceRoundTrip
import MbedtlsKcp.RingBufReader
import MbedtlsKcp.CRingBufAttachment
import MbedtlsKcp.CRingBufBlackholeJump
import MbedtlsKcp.AesRoundTrip
import MbedtlsKcp.RepeaterRegistry
import MbedtlsKcp.TcpClientContract
import MbedtlsKcp.KcpDelivery
import MbedtlsKcp.CJson
import MbedtlsKcp.JsonApiStore
import MbedtlsKcp.HubModelRoundTrip
import MbedtlsKcp.AppsetConfRoundTrip
import MbedtlsKcp.DevParamCrash
import MbedtlsKcp.DevParamCoherence
import MbedtlsKcp.MessageQueueFifo
import MbedtlsKcp.CharBufferQueue
import MbedtlsKcp.CRingBufBlackholeGap
import MbedtlsKcp.CRingBufOldestExact
import MbedtlsKcp.CRingBufContinuousRead
import MbedtlsKcp.MediaServiceRb
import MbedtlsKcp.CRingBufPositioning
import MbedtlsKcp.CRingBufWriteProgress
import MbedtlsKcp.CRingBufHeldFrames
import MbedtlsKcp.RingBufSearchBounds
import MbedtlsKcp.MediaSliceBounds
import MbedtlsKcp.AesPaddingCheck
import MbedtlsKcp.RepeaterCalls
import MbedtlsKcp.TcpFrameResidue
import MbedtlsKcp.SocketTransfers
import MbedtlsKcp.DirsizeQuota
import MbedtlsKcp.AppsetConfSafety
import MbedtlsKcp.DevParamFailure
import MbedtlsKcp.JsonApiFailure
import MbedtlsKcp.SubDeviceMacs
import MbedtlsKcp.ElementQueue
import MbedtlsKcp.MsgQueue
import MbedtlsKcp.TopicLookup
import MbedtlsKcp.Mp4ListRoundTrip
import MbedtlsKcp.DirsizeAtomicity
import MbedtlsKcp.CommApiCrc16
import MbedtlsKcp.KcpClient
import MbedtlsKcp.CommQueueApi
import MbedtlsKcp.CommApiRead
import MbedtlsKcp.CommApiUnescape
import MbedtlsKcp.IkcpTraffic
import MbedtlsKcp.CommonIkcpReliability
import MbedtlsKcp.CommonIkcpReceiveWindow
import MbedtlsKcp.CommonIkcpDatagrams
import MbedtlsKcp.CommonIkcpTimers
import MbedtlsKcp.Base64
import MbedtlsKcp.CommonMd5
import MbedtlsKcp.StateMachine
import MbedtlsKcp.ElogAsync
import MbedtlsKcp.CommQueue
import MbedtlsKcp.MediaAudioG711
import MbedtlsKcp.Ntpc
import MbedtlsKcp.ReplaceLineExact
