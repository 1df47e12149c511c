import LinuxDriver.GlobalFifo.Stream
import LinuxDriver.GlobalFifo.Sleep
import LinuxDriver.GlobalFifo.Accounting
import LinuxDriver.Fifo.Compaction
import LinuxDriver.LkmMemory.Fasync
import LinuxDriver.LkmMemory.Position
import LinuxDriver.LkmMemory.Readiness
import LinuxDriver.LkmMemory.Poll
import LinuxDriver.LkmMemory.Async
import LinuxDriver.LkmMemory.Lifecycle
import LinuxDriver.SecondTimer
import LinuxDriver.AdcIoctl
import LinuxDriver.VmemDisk.Request
import LinuxDriver.VmemDisk.Setup
import LinuxDriver.VmemDisk.RangeCheck
import LinuxDriver.Mmc.ReadSingle
import LinuxDriver.Mmc.SecureDiscard
import LinuxDriver.Mmc.Recovery
import LinuxDriver.Mmc.Claim
import LinuxDriver.Mmc.InFlight
import LinuxDriver.Mmc.Handoff
import LinuxDriver.Mmc.RequestLevels
import LinuxDriver.Mmc.MrqPrep
import LinuxDriver.Sdio.BlockSize
import LinuxDriver.Sdio.Irq
import LinuxDriver.Sdio.Lifecycle
import LinuxDriver.Mmc.ErrorReports
import LinuxDriver.Mmc.ReliableWrite
import LinuxDriver.Mmc.MaxDiscard
import LinuxDriver.Mmc.Capacity
import LinuxDriver.Mmc.DataTimeout
import LinuxDriver.Mmc.PhysicalPartitions
import LinuxDriver.Sdio.AlignSize
import LinuxDriver.Sdhci.Pio
import LinuxDriver.DwMmc.Pull
import LinuxDriver.DwMmc.Push
import LinuxDriver.Sdhci.Adma
import LinuxDriver.Cqhci.Idle
import LinuxDriver.Cqhci.Recovery
import LinuxDriver.Cqhci.Descriptors
import LinuxDriver.Sdhci.Watchdog
import LinuxDriver.DwMmc.DataErrors
