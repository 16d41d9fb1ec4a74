import DriveServe.Delegation
import DriveServe.ShareAttenuation
import DriveServe.ShareRevocation
import DriveServe.Durability
import DriveServe.FeedComplete
import DriveServe.InboundGate
import DriveServe.OpenRace
import DriveServe.Subtree
import DriveServe.FeedRestart
import DriveServe.WriteGuard
import DriveServe.ReadRange
import DriveServe.ListPages
import DriveServe.Isolation
import DriveServe.CrossDrive
import DriveServe.Crawl
import DriveServe.SdkRequests
import DriveServe.JsReplies
import DriveServe.PathGuards
import DriveServe.WalkTree
import DriveServe.ItemMerge
import DriveServe.ItemsPaging
import DriveServe.ListStat
import DriveServe.ShareNonce
import DriveServe.Redelivery
import DriveServe.HandlerPaths
import DriveServe.PathLaws
import DriveServe.PeerDiscovery
import DriveServe.Iam
import DriveServe.Outcome
import DriveServe.Runs
import DriveServe.Announcements
import DriveServe.SdkWalk
import DriveServe.Uploads
import DriveServe.WriteRead
import DriveServe.Boot
