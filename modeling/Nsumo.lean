import Nsumo.App.HandlerLaws
import Nsumo.App.InputHistoryLaws
import Nsumo.App.ManualLaws
import Nsumo.App.MirrorLaws
import Nsumo.App.RetreatLaws
import Nsumo.App.Sensing
import Nsumo.App.TransitionLaws
import Nsumo.Common.RingBufferLaws
import Nsumo.Drivers.I2cDevice
import Nsumo.Drivers.I2cDeviceLaws
import Nsumo.Drivers.I2cTraceLaws
import Nsumo.Drivers.IoLaws
import Nsumo.Drivers.IrChainLaws
import Nsumo.Drivers.IrRemoteLaws
import Nsumo.Drivers.PinInterruptsLaws
import Nsumo.Drivers.UartLaws
import Nsumo.Drivers.Vl53l0xCallLaws
import Nsumo.Drivers.Vl53l0xObserved
import Nsumo.Drivers.Vl53l0xObservedLaws
import Nsumo.Drivers.Vl53l0xObserverLaws
import Nsumo.Drivers.Vl53l0xRangingLaws
import Nsumo.Drivers.Vl53l0xSanityLaws
import Nsumo.Drivers.Vl53l0xSnapshotLaws
import Nsumo.Drivers.Vl53l0xSpad
import Nsumo.Drivers.Vl53l0xSpadLaws
import Nsumo.Drivers.Vl53l0xStartLaws
import Nsumo.Lib.Firsts
import Nsumo.Lib.Recent
import Nsumo.App.CommandLaws
import Nsumo.App.LineLaws
import Nsumo.App.PlaybackLaws
import Nsumo.Drivers.Vl53l0xLogged
import Nsumo.Drivers.Vl53l0xLoggedLaws
import Nsumo.Drivers.Vl53l0xSelectLaws
import Nsumo.App.Drive
import Nsumo.App.DriveLaws
import Nsumo.Drivers.Vl53l0xInit
import Nsumo.Drivers.Vl53l0xInitLaws
import Nsumo.Drivers.Vl53l0xBlockLaws
import Nsumo.Drivers.I2cStopLaws
import Nsumo.Drivers.IoCallLaws
import Nsumo.Common.AssertHandler
import Nsumo.Common.AssertHandlerLaws
import Nsumo.Drivers.PortInterrupts
import Nsumo.Drivers.PortInterruptsLaws
import Nsumo.App.EnemyLaws
import Nsumo.Drivers.Adc
import Nsumo.Drivers.AdcLaws
import Nsumo.Drivers.Vl53l0xInitRules
import Nsumo.Drivers.Vl53l0xWired
import Nsumo.Drivers.Vl53l0xWiredLaws
import Nsumo.Drivers.Vl53l0xCalibrationLaws
import Nsumo.App.Robot
import Nsumo.Drivers.IrMessageLaws
import Nsumo.Lib.Total
import Nsumo.App.RobotLaws
import Nsumo.App.RemoteLaws
import Nsumo.App.MillisLaws
import Nsumo.Drivers.AdcInterrupts
import Nsumo.Drivers.AdcInterruptsLaws
import Nsumo.App.DriveWriteLaws
import Nsumo.App.EvadeLaws
import Nsumo.Lib.Product
import Nsumo.Drivers.IoInterruptLaws
import Nsumo.App.Mission
import Nsumo.App.MissionLaws
import Nsumo.App.SearchLaws
import Nsumo.Drivers.Vl53l0xMastered
import Nsumo.Drivers.Vl53l0xMasteredLaws
import Nsumo.Drivers.Vl53l0xSingleLaws
import Nsumo.Drivers.UartDrainLaws
import Nsumo.App.SampledRobot
import Nsumo.App.SampledRobotLaws
import Nsumo.Drivers.IrQueueLaws
import Nsumo.Drivers.Vl53l0xInitialLaws
