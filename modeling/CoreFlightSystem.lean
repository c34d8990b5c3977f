import CoreFlightSystem.Applications.SchLab
import CoreFlightSystem.CriticalDataStore.Naming
import CoreFlightSystem.CriticalDataStore.Recovery
import CoreFlightSystem.CriticalDataStore.Registration
import CoreFlightSystem.EventServices.FilterTable
import CoreFlightSystem.EventServices.LogFile
import CoreFlightSystem.ExecutiveServices.CleanUp
import CoreFlightSystem.ExecutiveServices.Control
import CoreFlightSystem.ExecutiveServices.CrcPolynomial
import CoreFlightSystem.ExecutiveServices.CrcTool
import CoreFlightSystem.ExecutiveServices.GenCounters
import CoreFlightSystem.ExecutiveServices.PerfDump
import CoreFlightSystem.ExecutiveServices.ProcessorResets
import CoreFlightSystem.ExecutiveServices.Recurrence
import CoreFlightSystem.ExecutiveServices.ResetLog
import CoreFlightSystem.ExecutiveServices.StartupScript
import CoreFlightSystem.ExecutiveServices.SystemLog
import CoreFlightSystem.ExecutiveServices.TaskResources
import CoreFlightSystem.FileServices.FileNameLeftover
import CoreFlightSystem.FileServices.Progress
import CoreFlightSystem.FileServices.Timestamp
import CoreFlightSystem.Message.Checksum
import CoreFlightSystem.Message.MsgId
import CoreFlightSystem.Message.UserData
import CoreFlightSystem.Osal.BinarySemaphore
import CoreFlightSystem.Osal.Console
import CoreFlightSystem.Osal.DeleteAll
import CoreFlightSystem.Osal.FileCopy
import CoreFlightSystem.Osal.SelectSets
import CoreFlightSystem.Osal.SelectTimeout
import CoreFlightSystem.Osal.Signals
import CoreFlightSystem.Osal.TimerExpiry
import CoreFlightSystem.Osal.Unmount
import CoreFlightSystem.Pool.Buckets
import CoreFlightSystem.Pool.Reconstruct
import CoreFlightSystem.Psp.ExceptionStorage
import CoreFlightSystem.Psp.MemoryRange
import CoreFlightSystem.ResourceId.Search
import CoreFlightSystem.SoftwareBus.AppCleanUp
import CoreFlightSystem.SoftwareBus.DeliveryEvents
import CoreFlightSystem.SoftwareBus.Failures
import CoreFlightSystem.SoftwareBus.Limits
import CoreFlightSystem.SoftwareBus.Memory
import CoreFlightSystem.SoftwareBus.MessageMap
import CoreFlightSystem.SoftwareBus.MessageString
import CoreFlightSystem.SoftwareBus.PipeLookup
import CoreFlightSystem.SoftwareBus.PrevSubs
import CoreFlightSystem.SoftwareBus.RouteFiles
import CoreFlightSystem.SoftwareBus.Sequence
import CoreFlightSystem.TableServices.FailedLoad
import CoreFlightSystem.Time.ExternalTime
import CoreFlightSystem.Time.Pairing
import CoreFlightSystem.Time.Print
import CoreFlightSystem.Time.Relatch
import CoreFlightSystem.Time.ResetArea
import CoreFlightSystem.Time.Rollover
import CoreFlightSystem.Time.Snapshot
