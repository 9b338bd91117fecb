import AgentOs.BlkVirt.ReadOnly
import AgentOs.BlkVirt.Completion
import AgentOs.BlkVirt.Wakeup
import AgentOs.BlkVirt.HostRefinement
import AgentOs.NetVirt.Isolation
import AgentOs.NetVirt.Conservation
import AgentOs.Lending.LockStep
import AgentOs.RootTask.DeviceSkip
import AgentOs.Boot.Gate
import AgentOs.Boot.LoaderBounds
import AgentOs.Spawn.AllOrNothing
import AgentOs.Serial.Fidelity
import AgentOs.Serial.Latches
import AgentOs.Lending.LeaseIds
import AgentOs.GuestVmm.Transaction
import AgentOs.VmManager.Agreement
import AgentOs.Console.LogStreams
import AgentOs.Console.Disconnect
import AgentOs.VirtioBlk.OwnCompletion
import AgentOs.VirtioBlk.PciCaps
import AgentOs.VmManager.Requests
import AgentOs.X86.RunnerProtocol
import AgentOs.X86.Nesting
import AgentOs.X86.Mmio
import AgentOs.Framebuffer.WholeGenerations
import AgentOs.Display.Shown
import AgentOs.NetVirt.RingSlots
