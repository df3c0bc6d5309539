import WchIotSdk.EventRuns
import WchIotSdk.CyclicClock
import WchIotSdk.WakeupSources
import WchIotSdk.PowerPolicy
import WchIotSdk.PowerDepth
import WchIotSdk.RtcTimer
import WchIotSdk.RtcTimestamp
import WchIotSdk.RtcReads
import WchIotSdk.BusyWait
import WchIotSdk.SysDelay
import WchIotSdk.PowerSuspend
import WchIotSdk.SuspendPairing
import WchIotSdk.SuspendOutcome
import WchIotSdk.SuspendAlarm
import WchIotSdk.ByteDigits
import WchIotSdk.ByteMemory
import WchIotSdk.ByteOrder
import WchIotSdk.WindowDeque
import WchIotSdk.Buf
import WchIotSdk.BufDeque
import WchIotSdk.BufCodec
import WchIotSdk.FirstMatch
import WchIotSdk.PmpCsr
import WchIotSdk.PmpRegions
import WchIotSdk.PmpMatching
import WchIotSdk.PmpLoading
import WchIotSdk.PmpValidate
import WchIotSdk.PmpSoundness
import WchIotSdk.PmpExactness
import WchIotSdk.PmpAreas
import WchIotSdk.PmpRefinement
import WchIotSdk.PmpDynamic
import WchIotSdk.PmpEncoding
import WchIotSdk.PmpStatic
import WchIotSdk.OwnershipLedger
import WchIotSdk.Notifications
import WchIotSdk.RegisterFields
import WchIotSdk.UartConfigure
import WchIotSdk.UartRoundTrip
import WchIotSdk.RoundedDivision
import WchIotSdk.BaudDivisor
import WchIotSdk.UartAtomic
import WchIotSdk.UartFifo
import WchIotSdk.GpioPort
import WchIotSdk.GpioConfigure
import WchIotSdk.GpioInterrupts
import WchIotSdk.PointerChain
import WchIotSdk.SysSlist
import WchIotSdk.GpioCallbacks
import WchIotSdk.PmNotifiers
import WchIotSdk.Pinctrl
import WchIotSdk.LastWrite
import WchIotSdk.SlotSequence
import WchIotSdk.HalfWordArray
import WchIotSdk.AdcSampling
import WchIotSdk.AdcSequence
import WchIotSdk.AdcPolling
import WchIotSdk.AdcAcceptance
import WchIotSdk.AdcChannels
import WchIotSdk.AdcTemperature
import WchIotSdk.AdcHistories
import WchIotSdk.TypeLengthValue
import WchIotSdk.Advertising
import WchIotSdk.AdvertisingPayload
import WchIotSdk.SimpleProfile
import WchIotSdk.SimpleProfileStore
import WchIotSdk.ChunkedReads
import WchIotSdk.DeviceInformation
import WchIotSdk.FlashRead
import WchIotSdk.LsiCalibration
import WchIotSdk.DeviceInit
import WchIotSdk.EqualSteps
import WchIotSdk.RandTimer
import WchIotSdk.ClockTree
import WchIotSdk.PowerStates
import WchIotSdk.SuspendOnChip
import WchIotSdk.DlistRuns
import WchIotSdk.UartTransmit
import WchIotSdk.PeripheralRuns
import WchIotSdk.TimeConversion
import WchIotSdk.GpioInterruptSetup
