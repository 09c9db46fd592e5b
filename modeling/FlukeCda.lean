import FlukeCda.Gpib.AccelWrite
import FlukeCda.FastUart.Order
import FlukeCda.Rescue.Backups
import FlukeCda.Rescue.Success
import FlukeCda.Rescue.Consent
import FlukeCda.Gpio.Queue
import FlukeCda.Gpio.Exclusion
import FlukeCda.Inttimer.Semaphore
import FlukeCda.Keypad.Lifetime
import FlukeCda.Port.Lifetime
import FlukeCda.Interaction.Pool
import FlukeCda.FastUart.Registers
import FlukeCda.FastUart.Level
import FlukeCda.Keypad.Decoding
import FlukeCda.Rescue.Keypress
import FlukeCda.Rescue.Mounts
import FlukeCda.FastUart.Gate
import FlukeCda.FastUart.Transfer
import FlukeCda.Gpio.Delivery
import FlukeCda.Gpib.EndByte
import FlukeCda.Gpib.Read.Framing
import FlukeCda.FastUart.Watermark
import FlukeCda.Keypad.Latches
import FlukeCda.Rescue.LineBuffers
import FlukeCda.Gpib.Attach
import FlukeCda.Gpio.Direction
import FlukeCda.Gpib.Masking
import FlukeCda.Gpib.CleanUp
import FlukeCda.Gpib.Read.CleanUp
import FlukeCda.Gpib.Read.Completion
import FlukeCda.Data.Mailbox
import FlukeCda.Data.References
import FlukeCda.Gpib.Core.Queues
import FlukeCda.Gpib.Core.Devices
import FlukeCda.Gpib.Core.DeviceCounts
import FlukeCda.Gpib.Core.DeviceRuns
import FlukeCda.Interaction.Embedding
import FlukeCda.Gpib.Core.Io
import FlukeCda.Gpib.Core.WriteIoctl
import FlukeCda.Gpib.Core.ReadIoctl
import FlukeCda.Gpib.Core.WriteStream
import FlukeCda.Gpib.Core.ReadStream
import FlukeCda.Interaction.Crowd
import FlukeCda.Gpib.Core.Ioctl
import FlukeCda.Gpib.Core.IoctlLocks
import FlukeCda.Gpib.Core.LockOrder
import FlukeCda.Gpib.Core.Autospoll
import FlukeCda.Gpib.Command.Sending
import FlukeCda.Gpib.Core.CommandIoctl
import FlukeCda.Gpib.Core.CommandOnce
import FlukeCda.Gpib.Core.BoardLock
