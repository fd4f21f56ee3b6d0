import VehicleStack.Common.Run
import VehicleStack.Common.History
import VehicleStack.Common.Callback
import VehicleStack.Common.Lockstep
import VehicleStack.Common.Dict
import VehicleStack.Common.Text
import VehicleStack.Common.Numeral
import VehicleStack.Common.Hex
import VehicleStack.Common.LittleEndian
import VehicleStack.Common.Decimal
import VehicleStack.Common.Truncated
import VehicleStack.Common.IntegerLine
import VehicleStack.Common.Turns
import VehicleStack.Common.Outline
import VehicleStack.Common.Lines
import VehicleStack.Common.Framing
import VehicleStack.Common.Pointer
import VehicleStack.Common.Linkage
import VehicleStack.SecOC.Model
import VehicleStack.SecOC.Freshness
import VehicleStack.SecOC.Window
import VehicleStack.SecOC.Channel
import VehicleStack.SecOC.Key
import VehicleStack.SecOC.Files
import VehicleStack.EmergencyStop.Model
import VehicleStack.EmergencyStop.Restore
import VehicleStack.EmergencyStop.Echo
import VehicleStack.EmergencyStop.Delay
import VehicleStack.Ackermann.Frames
import VehicleStack.Ackermann.Model
import VehicleStack.Ackermann.Generated
import VehicleStack.Ackermann.Packing
import VehicleStack.Ackermann.Reads
import VehicleStack.Ackermann.Writes
import VehicleStack.Ackermann.Odometry
import VehicleStack.Ackermann.Sources
import VehicleStack.Ackermann.Session
import VehicleStack.Ackermann.Ticks
import VehicleStack.Ackermann.Short
import VehicleStack.Ackermann.Calibration
import VehicleStack.Ackermann.CarriedOver
import VehicleStack.Ackermann.LastGood
import VehicleStack.Ackermann.Geometry
import VehicleStack.Ackermann.Batching
import VehicleStack.Serial.Model
import VehicleStack.Serial.Stream
import VehicleStack.YawRate.Model
import VehicleStack.YawRate.Startup
import VehicleStack.Coordinator.Model
import VehicleStack.Coordinator.Handlers
import VehicleStack.Coordinator.Specs
import VehicleStack.Coordinator.Steps
import VehicleStack.Coordinator.Book
import VehicleStack.Coordinator.Sent
import VehicleStack.Coordinator.Verdicts
import VehicleStack.Coordinator.Active
import VehicleStack.Coordinator.Authentic
import VehicleStack.Coordinator.Faults
import VehicleStack.Coordinator.Locking
import VehicleStack.Coordinator.Reliable
import VehicleStack.Coordinator.InStep
import VehicleStack.Coordinator.Independence
import VehicleStack.Coordinator.Offers
import VehicleStack.Coordinator.Spool
import VehicleStack.Coordinator.Clocks
import VehicleStack.Coordinator.Answers
import VehicleStack.Coordinator.Counters
import VehicleStack.Coordinator.Polls
import VehicleStack.Coordinator.Notices
import VehicleStack.Coordinator.Foretold
import VehicleStack.Coordinator.Retries
import VehicleStack.Coordinator.Receive
import VehicleStack.Coordinator.Wire
import VehicleStack.Lock.Joint
import VehicleStack.Lock.Agreement
import VehicleStack.Lock.Restart
import VehicleStack.Override.Model
import VehicleStack.Override.Ticks
import VehicleStack.Override.Interlock
import VehicleStack.Override.Slot
import VehicleStack.Override.Pads
import VehicleStack.Override.Evdev
import VehicleStack.Camera.Model
import VehicleStack.Camera.Sessions
import VehicleStack.Activation.Model
import VehicleStack.Activation.Requests
import VehicleStack.Activation.Lifecycle
import VehicleStack.RoadClassification.Node
import VehicleStack.SignDetection.YoloClass
import VehicleStack.Simulation.CleanMap
import VehicleStack.Simulation.Beams
import VehicleStack.Simulation.BeamLine
import VehicleStack.Simulation.Cleaned
import VehicleStack.Simulation.Arena
import VehicleStack.Simulation.ClosedMap
import VehicleStack.Simulation.NavProbe
import VehicleStack.Simulation.Cusps
import VehicleStack.Simulation.PlanReversed
import VehicleStack.Simulation.CrossTrack
import VehicleStack.Simulation.Radius
import VehicleStack.Simulation.Pairs
import VehicleStack.Simulation.MkParams
import VehicleStack.Simulation.ParamFile
import VehicleStack.Simulation.MkRpp
import VehicleStack.Simulation.Overrides
import VehicleStack.Simulation.TidyFile
