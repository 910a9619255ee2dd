import LinuxKerDev.Dma.Launch
import LinuxKerDev.Dma.Waits
import LinuxKerDev.Dma.Session
import LinuxKerDev.Signals.Deployed
import LinuxKerDev.Signals.Reap
import LinuxKerDev.Dma.Rebind
import LinuxKerDev.Dma.Reboot
import LinuxKerDev.Dma.Access
import LinuxKerDev.Cards.Card
import LinuxKerDev.Cards.DrawLine
import LinuxKerDev.Cards.Contact
import LinuxKerDev.Dma.Linear
import LinuxKerDev.Dma.Snooze
import LinuxKerDev.Dma.Acknowledge
import LinuxKerDev.Dma.Mmap
import LinuxKerDev.DriverC.Session
import LinuxKerDev.DriverC.Owned
import LinuxKerDev.DriverC.Balance
import LinuxKerDev.DriverC.Safe
import LinuxKerDev.DriverC.Off
import LinuxKerDev.DriverC.Bind
import LinuxKerDev.Signals.Send
import LinuxKerDev.Signals.Generate
import LinuxKerDev.Signals.DeepSleep
import LinuxKerDev.Signals.Counters
import LinuxKerDev.Signals.Bounds
import LinuxKerDev.Signals.Exit
import LinuxKerDev.Signals.StopCont
import LinuxKerDev.Signals.Dequeue
import LinuxKerDev.Dma.Module
import LinuxKerDev.Signals.ExitOnce
import LinuxKerDev.Lib.Roster
