import LanternOS.Lib.Checked
import LanternOS.Lib.Align
import LanternOS.Lib.Transition
import LanternOS.Memory.MemoryMap
import LanternOS.Memory.MemoryMapInvariant
import LanternOS.Lib.Layout
import LanternOS.Memory.MemoryMapView
import LanternOS.Lib.HeapList
import LanternOS.Memory.PageFrameAllocator
import LanternOS.Boot.Seeding
import LanternOS.Boot.FrameAlloc
import LanternOS.Concurrency.Spinlock
import LanternOS.Concurrency.Barrier
import LanternOS.Lib.LittleEndian
import LanternOS.Elf.Parse
import LanternOS.Lib.Bitfield
import LanternOS.Paging.PageTable
import LanternOS.Paging.Translation
import LanternOS.Boot.LoadElf
import LanternOS.Paging.Drop
import LanternOS.Memory.MemoryMapFull
import LanternOS.Boot.Reserve
import LanternOS.Fs.Fat32
import LanternOS.Boot.VirtualLayout
import LanternOS.Emmc.Command
import LanternOS.Emmc.Init
import LanternOS.Emmc.Card
import LanternOS.Emmc.Transfer
import LanternOS.Peripherals.Registers
