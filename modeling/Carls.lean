import Carls.Service.Proto
import Carls.Service.Registry
import Carls.Service.Sections
import Carls.Service.Handlers
import Carls.Store.MapStore
import Carls.Theory.Construction
import Carls.Theory.Idempotence
import Carls.Theory.Isolation
import Carls.Theory.Failure
import Carls.Theory.Lookup
import Carls.Theory.Gradient
import Carls.Concurrent.Threads
import Carls.Concurrent.Safety
import Carls.Concurrent.Commute
import Carls.Theory.Sessions
import Carls.Theory.Compose
import Carls.Concurrent.Serializable
import Carls.Concurrent.Progress
import Carls.Abstract.Service
import Carls.Abstract.Reads
import Carls.Abstract.Refinement
import Carls.Abstract.Interleaved
import Carls.Abstract.Atomic
import Carls.Abstract.Sizes
import Carls.Abstract.Linearizable
import Carls.Abstract.History
import Carls.Abstract.Split
