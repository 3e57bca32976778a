import OpenELB.GoText
import OpenELB.GoMap
import OpenELB.GoNet
import OpenELB.GoNetText
import OpenELB.Prog
import OpenELB.Threads
import OpenELB.EipTypes
import OpenELB.VersionedStore
import OpenELB.IpRange
import OpenELB.ApiServer
import OpenELB.Allocation
import OpenELB.EipController
import OpenELB.PoolInvariant
import OpenELB.Manager
import OpenELB.NodeProxy
import OpenELB.ServiceReconciler
import OpenELB.Records
import OpenELB.OptimisticWrites
import OpenELB.Evaluation
import OpenELB.Requests
import OpenELB.ServiceSteps
import OpenELB.SingleAllocation
import OpenELB.ReconcileRuns
import OpenELB.Deprovision
import OpenELB.StatusAgreement
import OpenELB.PoolChoice
import OpenELB.Stability
import OpenELB.LeakFreedom
import OpenELB.GoCidr
import OpenELB.Admission
import OpenELB.GoSha256
import OpenELB.IdAlloc
import OpenELB.SpeakerConfig
import OpenELB.KeepAlived
import OpenELB.VipInvariant
import OpenELB.VipAssignments
import OpenELB.RouterIds
import OpenELB.GoAddrText
import OpenELB.ParserAgreement
import OpenELB.Layer2
import OpenELB.SingleAnnouncer
import OpenELB.ProgLogic
import OpenELB.SpeakerManager
import OpenELB.SpeakerSteps
import OpenELB.IncrementalAnnouncement
import OpenELB.StrayAnnouncements
import OpenELB.EipDeletion
import OpenELB.BgpPaths
import OpenELB.RouteSets
import OpenELB.BgpConf
import OpenELB.BgpDaemon
import OpenELB.RecordedRoutes
import OpenELB.RouteLoss
import OpenELB.AllocatorRuns
import OpenELB.VipIndex
import OpenELB.PoolPositions
import OpenELB.LowestFree
import OpenELB.RequestedAddress
import OpenELB.SharingLists
import OpenELB.ProxyNames
import OpenELB.ProxyCleanup
import OpenELB.ElectionStability
import OpenELB.NextHopReports
import OpenELB.ServiceNodes
import OpenELB.DeletingEips
import OpenELB.ServiceEvents
import OpenELB.AnnouncementSends
import OpenELB.Layer2Ranges
import OpenELB.ExplicitRequests
import OpenELB.OptimalChoice
import OpenELB.FamilyChoice
import OpenELB.DefaultPool
import OpenELB.EipSync
import OpenELB.HashSearch
import OpenELB.PeerStatus
import OpenELB.ProxyRuns
import OpenELB.RackChanges
import OpenELB.ProxyAddresses
import OpenELB.RangeSizes
import OpenELB.Responder
import OpenELB.ConfStatus
import OpenELB.ResponderRuns
import OpenELB.ConfSessions
import OpenELB.Lifecycle
import OpenELB.SessionRuns
import OpenELB.VipFile
import OpenELB.VipProcess
import OpenELB.GoNumber
import OpenELB.PolicyFile
import OpenELB.PolicyMeaning
import OpenELB.PolicyUpdate
