import TurretMaster.Runs
import TurretMaster.TargetSelection
import TurretMaster.System
import TurretMaster.TargetingInvariant
import TurretMaster.ShootingAlley
import TurretMaster.SelectionAim
import TurretMaster.DestructionNotice
import TurretMaster.TickState
import TurretMaster.TargetLock
import TurretMaster.FireCount
import TurretMaster.OverlapComponents
import TurretMaster.ClampedDecay
import TurretMaster.RotationAgreement
import TurretMaster.RotationBound
import TurretMaster.RotationDelay
import TurretMaster.EventOrder
import TurretMaster.Pursuit
import TurretMaster.EarliestIntercept
import TurretMaster.SelectionResult
import TurretMaster.ShortWay
import TurretMaster.ZeroAim
import TurretMaster.StuckRotation
import TurretMaster.PredictionCheck
import TurretMaster.FirstCome
import TurretMaster.QueueOrder
import TurretMaster.TargetLedger
import TurretMaster.AimProvenance
import TurretMaster.Poses
import TurretMaster.Engagement
import TurretMaster.IdleReturn
import TurretMaster.ServiceBound
import TurretMaster.Faults
import TurretMaster.Locality
import TurretMaster.Schedule
import TurretMaster.FrameOrder
import TurretMaster.NonInterference
import TurretMaster.FrameRate
import TurretMaster.History
import TurretMaster.TagOrder
import TurretMaster.Directions
import TurretMaster.ShotAccuracy
import TurretMaster.PredictedPoint
import TurretMaster.DelayedTurn
import TurretMaster.MissDistance
import TurretMaster.TargetLauncher
