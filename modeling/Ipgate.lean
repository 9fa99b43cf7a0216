import Ipgate.Lib.Act
import Ipgate.Lib.Base64
import Ipgate.Lib.Blocks
import Ipgate.Lib.Bytes
import Ipgate.Lib.FixedWindow
import Ipgate.Lib.GoNet
import Ipgate.Lib.Grouped
import Ipgate.Lib.Ip
import Ipgate.Lib.IpText
import Ipgate.Lib.GoIpText
import Ipgate.Lib.Json
import Ipgate.Lib.Keyed
import Ipgate.Lib.Lts
import Ipgate.Lib.Nft
import Ipgate.Lib.NftNat
import Ipgate.Lib.NftSets
import Ipgate.Lib.Pool
import Ipgate.Lib.Radix
import Ipgate.Lib.Replace
import Ipgate.Lib.Slots
import Ipgate.Lib.Spans
import Ipgate.Lib.Text
import Ipgate.Lib.TimedSets
import Ipgate.Lib.Utf8
import Ipgate.Lib.Wire
import Ipgate.Proto.Basic
import Ipgate.Proto.Ruleset
import Ipgate.Proto.Forward
import Ipgate.Agent.Store
import Ipgate.Agent.Store.Revision
import Ipgate.Agent.Config
import Ipgate.Agent.Auth.Pairing
import Ipgate.Agent.Nft.Ruleset
import Ipgate.Agent.Nft.Policy
import Ipgate.Agent.Nft.Increment
import Ipgate.Agent.Nft.Clock
import Ipgate.Agent.Nft.Expiry
import Ipgate.Agent.Nft.Loadable
import Ipgate.Agent.Nft.PublicPorts
import Ipgate.Agent.Nft.Backend
import Ipgate.Agent.Nft.Ladder
import Ipgate.Agent.Reconcile
import Ipgate.Agent.Forward
import Ipgate.Agent.Nft.Nat
import Ipgate.Agent.Nft.Path
import Ipgate.Agent.Nft.Parse
import Ipgate.Agent.Nft.ParseText
import Ipgate.Agent.Nft.Template
import Ipgate.Agent.Netinfo
import Ipgate.Agent.Dnat.Conf
import Ipgate.Agent.Dnat.Adapter
import Ipgate.Agent.Dnat.Key
import Ipgate.Agent.Dnat.Lock
import Ipgate.Agent.Openssh
import Ipgate.Agent.Sshd
import Ipgate.Agent.Sshd.Switch
import Ipgate.Agent.Sshpeer
import Ipgate.Agent.Cli.SshExpose
import Ipgate.Agent.Cli.ForwardAdd
import Ipgate.Agent.Startup
import Ipgate.Agent.Noise
import Ipgate.Agent.Noise.Recv
import Ipgate.Agent.Api.Handlers
import Ipgate.Agent.Api.Forwards
import Ipgate.Agent.Api.Table
import Ipgate.Agent.Api.Settings
import Ipgate.Agent.Api.Authorize
import Ipgate.Agent.Api.ConnGuard
import Ipgate.Agent.Api.Limit
import Ipgate.Agent.Api.Serve
import Ipgate.Agent.Api.Frames
import Ipgate.Agent.Api.Offers
import Ipgate.Agent.Api.Lockout
import Ipgate.Agent.Api.Disk
import Ipgate.Agent.Store.Save
import Ipgate.Agent.Api.Saves
import Ipgate.Agent.Api.Collections
import Ipgate.Agent.Api.Migration
import Ipgate.Agent.Api.Keys
import Ipgate.Agent.Api.Authority
import Ipgate.Agent.Api.Active
import Ipgate.Agent.Api.RootPassword
import Ipgate.Agent.Api.Dispatch
import Ipgate.Agent.Cli.Console
import Ipgate.Agent.Cli.Session
import Ipgate.Agent.Race.Pairing
import Ipgate.Agent.Race.Allowlist
import Ipgate.Agent.Race.Forward
import Ipgate.Agent.Race.ForwardRemoval
import Ipgate.Agent.Race.ForwardCache
import Ipgate.Agent.Race.Fallback
import Ipgate.Agent.Race.Sessions
import Ipgate.Ipecho.ClientIp
