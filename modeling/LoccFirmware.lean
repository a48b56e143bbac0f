import LoccFirmware.Automata.Mealy
import LoccFirmware.Automata.Debouncer
import LoccFirmware.Automata.Contacts
import LoccFirmware.Automata.EventCounts
import LoccFirmware.Automata.Sequencer
import LoccFirmware.Automata.SequencerTiming
import LoccFirmware.Coding.Digits
import LoccFirmware.Coding.Biphase
import LoccFirmware.Coding.Masks
import LoccFirmware.Coding.SelfClocking
import LoccFirmware.Protocol.Parser
import LoccFirmware.Protocol.LineDiscipline
import LoccFirmware.Protocol.CommandCodec
import LoccFirmware.Cylinder.Port
import LoccFirmware.Cylinder.Telegram
import LoccFirmware.Cylinder.Waveform
import LoccFirmware.Input.Dial
import LoccFirmware.Input.HookSwitch
import LoccFirmware.Input.DialEvents
import LoccFirmware.Input.Dialling
import LoccFirmware.Input.ImpulseCount
import LoccFirmware.Input.Keypad
import LoccFirmware.Input.KeypadDebounce
import LoccFirmware.Input.KeyReports
import LoccFirmware.Input.KeyPresses
import LoccFirmware.Lock.Driver
import LoccFirmware.Lock.Polled
import LoccFirmware.Lock.PolledCycle
import LoccFirmware.System.Loop
import LoccFirmware.System.CycleRefinement
import LoccFirmware.System.CycleOrder
import LoccFirmware.System.CycleTiming
import LoccFirmware.System.PortPhase
import LoccFirmware.System.Peripherals
import LoccFirmware.System.RowDrive
import LoccFirmware.System.HostLink
import LoccFirmware.System.Charging
import LoccFirmware.System.ByteAccess
import LoccFirmware.System.BytewiseLoop
import LoccFirmware.System.BytewiseTiming
import LoccFirmware.System.ByteStores
import LoccFirmware.System.CylinderLine
import LoccFirmware.Automata.Conservation
import LoccFirmware.Usb.Endpoint
import LoccFirmware.Usb.Cdc
import LoccFirmware.Usb.Transport
import LoccFirmware.System.Device
import LoccFirmware.System.Reports
import LoccFirmware.System.HostStream
import LoccFirmware.System.KeyMatrix
import LoccFirmware.System.Session
import LoccFirmware.System.Telephone
import LoccFirmware.Automata.Promptness
import LoccFirmware.System.OpeningDuration
import LoccFirmware.System.PolledLine
import LoccFirmware.System.PolledDuration
import LoccFirmware.Automata.Fairness
import LoccFirmware.Memory.Packing
import LoccFirmware.Usb.ControlWrite
import LoccFirmware.Usb.ControlTransfer
import LoccFirmware.Usb.Descriptors
import LoccFirmware.Usb.EndpointMemory
import LoccFirmware.Usb.EndpointLayout
import LoccFirmware.Automata.Register
import LoccFirmware.Usb.ControlRequest
import LoccFirmware.Usb.RequestOutcome
import LoccFirmware.Usb.ControlHistory
import LoccFirmware.Usb.ControlSafety
import LoccFirmware.Usb.ControlledLink
