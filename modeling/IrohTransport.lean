import IrohTransport.Lib.Runs
import IrohTransport.Lib.Base64
import IrohTransport.Lib.Codec
import IrohTransport.Lib.Merge
import IrohTransport.Lib.Select
import IrohTransport.Lib.Channel
import IrohTransport.Lib.Broadcast
import IrohTransport.Lib.Unordered
import IrohTransport.Lib.Interval
import IrohTransport.Pool.Handles
import IrohTransport.Pool.PoolActor
import IrohTransport.Pool.ConnectionActor
import IrohTransport.Pool.Protocol
import IrohTransport.Pool.Steps
import IrohTransport.Pool.Leases
import IrohTransport.Pool.Replies
import IrohTransport.Pool.Requests
import IrohTransport.Pool.Delivery
import IrohTransport.Pool.Slots
import IrohTransport.Pool.Bookkeeping
import IrohTransport.Pool.Limit
import IrohTransport.Pool.Reuse
import IrohTransport.Pool.Eviction
import IrohTransport.Pool.Leaks
import IrohTransport.Pool.Wakeups
import IrohTransport.Pool.Retry
import IrohTransport.Pool.Progress
import IrohTransport.Pool.Startup
import IrohTransport.Client.Channel
import IrohTransport.Client.Duplex
import IrohTransport.Client.Upload
import IrohTransport.Client.ResponseBody
import IrohTransport.Transport.UserData
import IrohTransport.Transport.Accept
import IrohTransport.Swarm.Record
import IrohTransport.Swarm.Bucket
import IrohTransport.Swarm.Merging
import IrohTransport.Swarm.Trimming
import IrohTransport.Swarm.Dht
import IrohTransport.Swarm.Sharding
import IrohTransport.Swarm.Publisher
import IrohTransport.Swarm.Contention
import IrohTransport.Swarm.Feed
import IrohTransport.Swarm.Discovery
import IrohTransport.Swarm.Engine
import IrohTransport.Swarm.Exchange
import IrohTransport.Swarm.Locator
import IrohTransport.Swarm.Race
import IrohTransport.Swarm.Hostile
import IrohTransport.Swarm.Overtaking
import IrohTransport.Swarm.Queries
import IrohTransport.Swarm.Rounds
import IrohTransport.Swarm.Registry
import IrohTransport.Swarm.Search
import IrohTransport.Transport.Spawn
import IrohTransport.Transport.Shutdown
import IrohTransport.Transport.Deployment
