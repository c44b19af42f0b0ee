import HttpMonitoring.TopTableWorkers
import HttpMonitoring.AccountingWorkers
import HttpMonitoring.RateLimit
import HttpMonitoring.CollectorLock
import HttpMonitoring.HistoryRing
import HttpMonitoring.WorkerRows
import HttpMonitoring.JsonAnswers
import HttpMonitoring.JsonRoom
import HttpMonitoring.Mediation
import HttpMonitoring.AccessRules
import HttpMonitoring.Credentials
import HttpMonitoring.JsonStrings
import HttpMonitoring.LiveStreamEvents
import HttpMonitoring.LiveStreamGauge
import HttpMonitoring.TopUrls
import HttpMonitoring.TopTableDominance
import HttpMonitoring.TableLockstep
import HttpMonitoring.ErrorCounters
import HttpMonitoring.Percentiles
import HttpMonitoring.CollectorStages
import HttpMonitoring.DashboardToken
import HttpMonitoring.Rates
import HttpMonitoring.Collectors
import HttpMonitoring.Throughput
import HttpMonitoring.CpuUsage
import HttpMonitoring.SystemFigures
import HttpMonitoring.MountLines
import HttpMonitoring.KernelTexts
import HttpMonitoring.Library.InsertionSort
import HttpMonitoring.TopList
import HttpMonitoring.Library.Smoothing
import HttpMonitoring.MovingAverages
import HttpMonitoring.PercentileOrder
import HttpMonitoring.Library.ByteMemory
import HttpMonitoring.WriterMemory
import HttpMonitoring.WholeAnswers
import HttpMonitoring.Library.HtmlText
import HttpMonitoring.DashboardTables
import HttpMonitoring.Library.JsonParser
import HttpMonitoring.ReadAnswers
import HttpMonitoring.LiveDocument
import HttpMonitoring.Library.EventStream
import HttpMonitoring.LiveWire
import HttpMonitoring.Library.DeepMerge
import HttpMonitoring.DocumentTrees
import HttpMonitoring.PageData
import HttpMonitoring.Library.ScanConversions
import HttpMonitoring.Library.Doubles
import HttpMonitoring.Library.LabelledLines
import HttpMonitoring.SystemCollectors
import HttpMonitoring.SystemTexts
import HttpMonitoring.Library.DisjointParts
import HttpMonitoring.ZoneRegions
import HttpMonitoring.CollectorHandler
import HttpMonitoring.KernelSnapshot
import HttpMonitoring.NameArrays
import HttpMonitoring.ServiceRuns
import HttpMonitoring.KernelAnswers
import HttpMonitoring.Library.Exposition
import HttpMonitoring.PrometheusText
import HttpMonitoring.PageRender
import HttpMonitoring.ChartLines
import HttpMonitoring.HeadRequests
