import Oceanliner.AdaptiveTimeout
import Oceanliner.AdaptiveTimeout.Estimator
import Oceanliner.AdaptiveTimeout.Runs
import Oceanliner.AdaptiveTimeout.Statistics
import Oceanliner.BatcherThreads
import Oceanliner.KvStateMachine
import Oceanliner.KvsCommand
import Oceanliner.Lib.Linearizability
import Oceanliner.Lib.Scan
import Oceanliner.LogFile.Converter
import Oceanliner.LogFile.HeaderChecksum
import Oceanliner.LogFile.Parse
import Oceanliner.LogFile.Torn
import Oceanliner.Main.Acks
import Oceanliner.Main.Agreement
import Oceanliner.Main.BatchSize
import Oceanliner.Main.CalmRuns
import Oceanliner.Main.ClusterFile
import Oceanliner.Main.CommitTerms
import Oceanliner.Main.Framing
import Oceanliner.Main.HeapLeaks
import Oceanliner.Main.Linearizable
import Oceanliner.Main.LogHeaders
import Oceanliner.Main.LogIndices
import Oceanliner.Main.Once
import Oceanliner.Main.Quorum
import Oceanliner.Main.Reads
import Oceanliner.Main.ReplyTerms
import Oceanliner.Main.Settling
import Oceanliner.Main.StableLeader
import Oceanliner.Main.StartupPairs
import Oceanliner.Main.Uring
import Oceanliner.Main.VoteHandlers
import Oceanliner.Main.VoteReplies
import Oceanliner.Main.WalkEnds
import Oceanliner.Main.Work
import Oceanliner.Main.WriteAhead
import Oceanliner.RaftCore.Apply
import Oceanliner.RaftCore.ClientBytes
import Oceanliner.RaftCore.CommandEntry
import Oceanliner.RaftCore.ElectionSafety
import Oceanliner.RaftCore.ElectionTimeout
import Oceanliner.RaftCore.EntryData
import Oceanliner.RaftCore.LeaderId
import Oceanliner.RaftCore.LeaderLogs
import Oceanliner.RaftCore.LogShape
import Oceanliner.RaftCore.NextIndex
import Oceanliner.RaftCore.Senders
import Oceanliner.RaftCore.Shutdown
import Oceanliner.RaftCore.StepDown
import Oceanliner.RaftCore.StoredEntries
import Oceanliner.RaftCore.Terms
import Oceanliner.Spsc
