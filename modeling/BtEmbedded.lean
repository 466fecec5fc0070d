import BtEmbedded.Lib.Bytes
import BtEmbedded.Lib.Pipeline
import BtEmbedded.Lib.Run
import BtEmbedded.Lib.History
import BtEmbedded.Lib.Tlv
import BtEmbedded.Lib.Fill
import BtEmbedded.DataMatcher
import BtEmbedded.HciDev
import BtEmbedded.HciCommands
import BtEmbedded.HciApi
import BtEmbedded.HciLifecycle
import BtEmbedded.PendingTable
import BtEmbedded.HciPaths
import BtEmbedded.PendingUnique
import BtEmbedded.PendingCount
import BtEmbedded.ReplyRouting
import BtEmbedded.AsyncData
import BtEmbedded.AsyncCompletion
import BtEmbedded.Buffer
import BtEmbedded.AclMessage
import BtEmbedded.AclReceive
import BtEmbedded.AclStream
import BtEmbedded.AclQueue
import BtEmbedded.AclCredit
import BtEmbedded.AclSent
import BtEmbedded.SdpElement
import BtEmbedded.SdpWrite
import BtEmbedded.SdpReader
import BtEmbedded.SdpWalk
import BtEmbedded.ObexDiscovery
import BtEmbedded.SdpClient
import BtEmbedded.SdpPdu
import BtEmbedded.SdpAttr
import BtEmbedded.SdpSearch
import BtEmbedded.SdpProgress
import BtEmbedded.L2capConfig
import BtEmbedded.L2capOptions
import BtEmbedded.L2capMask
import BtEmbedded.L2capWrite
import BtEmbedded.L2cap
import BtEmbedded.L2capSignalling
import BtEmbedded.L2capPayload
import BtEmbedded.L2capHandshake
import BtEmbedded.L2capSending
import BtEmbedded.L2capDemux
import BtEmbedded.L2capWatch
import BtEmbedded.L2capConnected
import BtEmbedded.L2capLost
import BtEmbedded.L2capReject
import BtEmbedded.L2capProcess
import BtEmbedded.L2capFootprint
import BtEmbedded.L2capFinal
import BtEmbedded.L2capSplit
import BtEmbedded.L2capAnswer
import BtEmbedded.L2capUnknown
import BtEmbedded.L2capAtomic
import BtEmbedded.L2capOwn
import BtEmbedded.L2capAnswered
import BtEmbedded.L2capMoves
import BtEmbedded.L2capRuns
import BtEmbedded.L2capReceived
import BtEmbedded.L2capAccept
import BtEmbedded.L2capRefused
import BtEmbedded.L2capInvariant
import BtEmbedded.L2capParts
import BtEmbedded.L2capResponder
import BtEmbedded.L2capFetched
import BtEmbedded.L2capClosing
import BtEmbedded.L2capDelivery
import BtEmbedded.L2capIds
import BtEmbedded.L2capReplies
import BtEmbedded.L2capCount
import BtEmbedded.AclConnect
import BtEmbedded.AclMoves
import BtEmbedded.AclEvents
import BtEmbedded.AclGate
import BtEmbedded.AclAsked
import BtEmbedded.AclRefused
import BtEmbedded.SdpArray
import BtEmbedded.AclLength
import BtEmbedded.TruncatedInput
import BtEmbedded.SdpRepeat
import BtEmbedded.SdpBounds
import BtEmbedded.MatcherRules
import BtEmbedded.ReaderChunks
import BtEmbedded.ResponseArrays
import BtEmbedded.InquiryResults
import BtEmbedded.SdpUuidSearch
import BtEmbedded.HciCommandSizes
import BtEmbedded.EventHandlers
import BtEmbedded.BufferTotals
import BtEmbedded.AclCreate
import BtEmbedded.Lib.Marked
import BtEmbedded.AclPath
import BtEmbedded.SlotOwners
import BtEmbedded.DriverInit
import BtEmbedded.Lib.Codec
import BtEmbedded.Lib.Stores
import BtEmbedded.HciCommandFormat
import BtEmbedded.HciReplies
import BtEmbedded.CommandExchange
import BtEmbedded.WiiBackend
import BtEmbedded.WiiCustody
import BtEmbedded.WiiEvents
import BtEmbedded.L2capServer
import BtEmbedded.ServerCustody
import BtEmbedded.PeerRequests
import BtEmbedded.ScanModes
import BtEmbedded.ClientModels
import BtEmbedded.NetLinks
