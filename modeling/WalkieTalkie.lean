import WalkieTalkie.PartialRuns
import WalkieTalkie.SharedState
import WalkieTalkie.LoraRadio
import WalkieTalkie.Microphone
import WalkieTalkie.Speaker
import WalkieTalkie.MainLoop
import WalkieTalkie.Firmware
import WalkieTalkie.RadioSide
import WalkieTalkie.ReceiveArming
import WalkieTalkie.TransmitHandshake
import WalkieTalkie.ButtonLatch
import WalkieTalkie.DebounceClock
import WalkieTalkie.RingWindow
import WalkieTalkie.LappedRing
import WalkieTalkie.SerialBlocks
import WalkieTalkie.CaptureSide
import WalkieTalkie.CaptureSession
import WalkieTalkie.CaptureIntegrity
import WalkieTalkie.CaptureOrder
import WalkieTalkie.PlaySide
import WalkieTalkie.PwmLevel
import WalkieTalkie.Playback
import WalkieTalkie.ReceiveLog
import WalkieTalkie.ReceiveFifo
import WalkieTalkie.PacketResidue
import WalkieTalkie.PlaybackResync
import WalkieTalkie.PayloadStaging
import WalkieTalkie.Loopback
import WalkieTalkie.LoopbackFifo
import WalkieTalkie.PlaybackResume
import WalkieTalkie.DeviceLog
import WalkieTalkie.AiredChunks
import WalkieTalkie.Link
import WalkieTalkie.VoicePath
import WalkieTalkie.Carrier
import WalkieTalkie.CaptureBounds
import WalkieTalkie.BitField
import WalkieTalkie.StateTriples
import WalkieTalkie.SpiModule
import WalkieTalkie.Sx127x
import WalkieTalkie.Sx127xCalls
import WalkieTalkie.PacketRoundTrip
import WalkieTalkie.BeginFsk
import WalkieTalkie.BeginFskCalls
import WalkieTalkie.DriverDevice
import WalkieTalkie.DriverRefinement
import WalkieTalkie.DriverRuns
import WalkieTalkie.DriverLink
import WalkieTalkie.PixelWindow
import WalkieTalkie.Display
