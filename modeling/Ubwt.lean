import Ubwt.Lib.Endian
import Ubwt.Base
import Ubwt.Net.Transfer
import Ubwt.Talk.Payload
import Ubwt.Talk.Wire
import Ubwt.Report
import Ubwt.Config.Basic
import Ubwt.Lib.Posix
import Ubwt.Config.Init
import Ubwt.Config.Assertions
import Ubwt.Config.Options
import Ubwt.Conn
import Ubwt.Lib.Tally
import Ubwt.Worker.Barrier
import Ubwt.Lib.Mutex
import Ubwt.Worker.BarrierInv
import Ubwt.Worker.BarrierRuns
import Ubwt.Runtime.Pairing
import Ubwt.Lib.Choreography
import Ubwt.Talk.Step
import Ubwt.Talk.Pair
import Ubwt.Talk.LockStep
import Ubwt.Talk.Abort
import Ubwt.Lib.Rendezvous
import Ubwt.Talk.Workers
import Ubwt.Talk.Verdict
import Ubwt.Talk.Place
import Ubwt.Talk.Shape
import Ubwt.Net.Arrival
import Ubwt.Talk.Recv
import Ubwt.Talk.Count
import Ubwt.Talk.Hear
import Ubwt.Lib.Layout
import Ubwt.Packing
import Ubwt.Export
import Ubwt.Lib.Json
import Ubwt.Config.Order
import Ubwt.Runtime.Flags
import Ubwt.Worker.Waits
import Ubwt.Talk.Crew
import Ubwt.Talk.CrewStep
import Ubwt.Talk.Agreement
import Ubwt.Talk.Schedule
import Ubwt.Talk.Duration
import Ubwt.Lib.Wrap
import Ubwt.Report.Totals
import Ubwt.Report.Results
import Ubwt.Talk.Latency
import Ubwt.PayloadSize
import Ubwt.Talk.Recount
import Ubwt.Lib.Elected
import Ubwt.Lib.Growth
import Ubwt.Talk.Rounds
import Ubwt.Talk.Counting
import Ubwt.Talk.Restart
import Ubwt.Lib.RoundRobin
import Ubwt.Net.BufFill
import Ubwt.Runtime.Clock
import Ubwt.Lib.Memory
import Ubwt.Talk.Bounds
import Ubwt.Lib.LinkedList
import Ubwt.Report.Headers
import Ubwt.Runtime.Current
import Ubwt.Runtime.Lookup
import Ubwt.Net.Connect
import Ubwt.Net.Socket
import Ubwt.Talk.Accounting
import Ubwt.Worker.HandOff
import Ubwt.Lib.Clocks
import Ubwt.Talk.ReverseDelay
import Ubwt.Lib.Progress
import Ubwt.Talk.Rank
import Ubwt.Talk.Progress
import Ubwt.Talk.Ending
import Ubwt.Talk.Records
import Ubwt.Lib.Prophecy
import Ubwt.Talk.Failures
import Ubwt.Talk.Results
import Ubwt.Talk.Races
import Ubwt.Lib.Refinement
import Ubwt.Worker.BarrierCalls
import Ubwt.Talk.Barriers
import Ubwt.Worker.BarrierEnds
import Ubwt.Talk.Stages
import Ubwt.Lib.JsonRead
import Ubwt.Report.ReadBack
import Ubwt.Talk.Exports
import Ubwt.Lib.Handles
import Ubwt.Net.Descriptors
import Ubwt.Runtime.Threads
import Ubwt.Runtime.Joins
import Ubwt.Config.Repeats
