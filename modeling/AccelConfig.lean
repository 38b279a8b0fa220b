import AccelConfig.CNumeral
import AccelConfig.StopAtFailure
import AccelConfig.JsonWalk
import AccelConfig.WalkPlan
import AccelConfig.WalkComplete
import AccelConfig.Sysfs
import AccelConfig.Setters
import AccelConfig.SetterTruth
import AccelConfig.AddObject
import AccelConfig.StoreKernel
import AccelConfig.Reread
import AccelConfig.JsonSetVal
import AccelConfig.Load
import AccelConfig.LoadTrace
import AccelConfig.LoadAttribution
import AccelConfig.LoadActive
import AccelConfig.LoadOrder
import AccelConfig.Enumerate
import AccelConfig.EnumerateInv
import AccelConfig.GroupLink
import AccelConfig.EnumerateOnce
import AccelConfig.Control
import AccelConfig.DisableGuard
import AccelConfig.CmdStatus
import AccelConfig.ConfigAttr
import AccelConfig.FailOpen
import AccelConfig.DefaultDisable
import AccelConfig.Activate
import AccelConfig.DefaultSetup
import AccelConfig.CLoop
import AccelConfig.ZCompress
import AccelConfig.ZRoundTrip
import AccelConfig.Crc
import AccelConfig.Crc64
import AccelConfig.Crc64Bitwise
import AccelConfig.Crc32c
import AccelConfig.Crc32cBitwise
import AccelConfig.Accelerator
import AccelConfig.DsaResume
import AccelConfig.Listing
import AccelConfig.ListingPartition
import AccelConfig.BatchPrep
import AccelConfig.DsaVerify
import AccelConfig.VerifySound
import AccelConfig.ConfigSteps
import AccelConfig.FixedBuffers
import AccelConfig.ReadConfig
import AccelConfig.ConfigCmd
import AccelConfig.ConfigOptions
import AccelConfig.NumericArgs
import AccelConfig.ValidateFirst
import AccelConfig.CmdStatusStr
import AccelConfig.HexWords
import AccelConfig.OpConfigText
import AccelConfig.RunningTotal
import AccelConfig.WqSizes
import AccelConfig.HandOver
import AccelConfig.DsaWait
import AccelConfig.DsaLayout
import AccelConfig.BatchResume
import AccelConfig.MultiTask
import AccelConfig.BoundedBuffer
import AccelConfig.DifInit
import AccelConfig.PackedBits
import AccelConfig.IaaFilter
import AccelConfig.PackedElement
import AccelConfig.Compaction
import AccelConfig.FilterBits
import AccelConfig.SelectExpand
import AccelConfig.Turns
import AccelConfig.Extract
import AccelConfig.RleBurst
import AccelConfig.T10Guard
import AccelConfig.ZBuffers
import AccelConfig.DescTimeout
import AccelConfig.ZTest
import AccelConfig.DisplaySize
import AccelConfig.CLiteral
import AccelConfig.ParseSize
import AccelConfig.PatternFill
import AccelConfig.Bitmap
import AccelConfig.BitmapSearch
import AccelConfig.LinkedRing
import AccelConfig.CcanList
import AccelConfig.ParseOptions
import AccelConfig.OptionTables
import AccelConfig.OptionArgs
import AccelConfig.OptionNames
import AccelConfig.OptionRoundTrip
import AccelConfig.ConfigLine
import AccelConfig.Passes
import AccelConfig.SettingRun
import AccelConfig.SaveConfig
import AccelConfig.SavedComps
import AccelConfig.LoadEntries
import AccelConfig.SavedSettings
import AccelConfig.SaveLoad
import AccelConfig.SaveAgain
import AccelConfig.LifetimeRules
import AccelConfig.LifetimeRuns
import AccelConfig.TextBuffer
