import Gem5.Mem.Ruby.Htm.CommitToken
import Gem5.Mem.Ruby.Htm.MagicArbitration
import Gem5.Mem.Ruby.Htm.ConsumerCommit
import Gem5.Mem.Ruby.Htm.PriorityOverflow
import Gem5.Mem.Ruby.Htm.LazyCommit
import Gem5.Mem.Ruby.Htm.DeadlockAvoidance
import Gem5.Mem.Ruby.Htm.ChainDepth
import Gem5.Mem.Ruby.Htm.ValidationPending
import Gem5.Benchmarks.Htmrt.FallbackLock
import Gem5.Benchmarks.Htmrt.RetryAccounting
import Gem5.Mem.Ruby.Htm.XactValueChecker
import Gem5.Mem.Ruby.Htm.XactIsolationChecker
import Gem5.Mem.Ruby.Protocol.ConflictAnswer
import Gem5.Mem.Ruby.Protocol.L1Replacement
import Gem5.Mem.Ruby.Network.BufferRuns
import Gem5.Mem.StackDistRuns
import Gem5.Mem.Cache.Compressors.Huffman
import Gem5.Mem.Ruby.Htm.AbortCauses
import Gem5.Base.AddrRangeSubset
import Gem5.Mem.Cache.ReplacementPolicies.TreePlru
import Gem5.Mem.Cache.Compressors.BaseDelta
import Gem5.Mem.Ruby.Htm.LogTranslation
import Gem5.Base.CircleBuf
import Gem5.Mem.Ruby.Structures.CacheProbe
