import LowPower.Arbiter.Operation
import LowPower.Call.Service
import LowPower.Call.Text
import LowPower.Notice.Text
import LowPower.Platform.Mt8192
import LowPower.Proofs.Bus.Emission
import LowPower.Proofs.Word
import LowPower.Proofs.Wake.Precedence
import LowPower.Proofs.Register.Name
import LowPower.Proofs.Bus.Attempt
import LowPower.Proofs.Constraint.Passage
import LowPower.Proofs.Clock.Observation
import LowPower.Proofs.Clock.Report
import LowPower.Proofs.Arbiter.Coherence
import LowPower.Proofs.Arbiter.Entry
import LowPower.Proofs.Votes
import LowPower.Proofs.Ladder.Selection
import LowPower.Proofs.Arbiter.Course
import LowPower.Proofs.Arbiter.Run
import LowPower.Proofs.Sequencer.Report
import LowPower.Proofs.Arbiter.Sessions
import LowPower.Proofs.Arbiter.Selection
import LowPower.Proofs.Hardware.View
import LowPower.Proofs.Hardware.Program
import LowPower.Proofs.Hardware.Ownership
import LowPower.Proofs.Hardware.Passages
import LowPower.Proofs.Bus.Script
import LowPower.Proofs.Sequencer.Script
import LowPower.Proofs.Constraint.Script
import LowPower.Proofs.Arbiter.Script
import LowPower.Proofs.Constraint.Request
import LowPower.Proofs.Arbiter.Request
import LowPower.Proofs.Bus.Habit
import LowPower.Proofs.Sequencer.Manner
import LowPower.Proofs.Arbiter.Manner
import LowPower.Proofs.Arbiter.Reentry
import LowPower.Proofs.Ladder.Repetition
import LowPower.Proofs.Sequencer.Discipline
import LowPower.Proofs.Arbiter.Discipline
import LowPower.Proofs.Constraint.Signal
import LowPower.Proofs.Arbiter.Transitions
import LowPower.Proofs.Arbiter.Announcing
import LowPower.Proofs.Ladder.Observation
import LowPower.Proofs.Ladder.Accounts
import LowPower.Proofs.Arbiter.Accounting
import LowPower.Proofs.Call.Codec
import LowPower.Proofs.Ladder.Completion
import LowPower.Proofs.Call.Service
import LowPower.Proofs.Call.Outcome
import LowPower.Proofs.Call.Confinement
import LowPower.Proofs.Call.Safety
import LowPower.Proofs.Arbiter.Footprint
import LowPower.Proofs.Call.Identifier
import LowPower.Proofs.Call.Routing
import LowPower.Proofs.Hardware.Watchdog
import LowPower.Proofs.Clock.Steady
import LowPower.Proofs.Ladder.Firmware
import LowPower.Proofs.Arbiter.Toggle
import LowPower.Proofs.Clock.Contents
import LowPower.Proofs.Ladder.Monotone
import LowPower.Proofs.Ladder.Nesting
import LowPower.Proofs.Arbiter.Setup
import LowPower.Proofs.Platform.Mt8192
import LowPower.Proofs.Arbiter.Blocking
import LowPower.Proofs.Wake.Ring
import LowPower.Proofs.Wake.Window
import LowPower.Proofs.Arbiter.Tracing
import LowPower.Proofs.Constraint.Redelivery
import LowPower.Proofs.Arbiter.Redelivery
import LowPower.Proofs.Ladder.Update
import LowPower.Proofs.Ladder.Reading
import LowPower.Proofs.Hardware.Controls
import LowPower.Proofs.Arbiter.Settings
import LowPower.Proofs.Clock.Edit
import LowPower.Proofs.Ladder.Reaction
import LowPower.Proofs.Arbiter.Reaction
import LowPower.Proofs.Arbiter.Editing
