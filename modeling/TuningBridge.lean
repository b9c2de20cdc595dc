import TuningBridge.Main
import TuningBridge.Server
import TuningBridge.Service
import TuningBridge.Proofs.Numeral
import TuningBridge.Proofs.Layout
import TuningBridge.Proofs.Arrangement
import TuningBridge.Proofs.Coverage
import TuningBridge.Proofs.WellFormed
import TuningBridge.Proofs.Assignment
import TuningBridge.Proofs.Delivery
import TuningBridge.Proofs.Reception
import TuningBridge.Proofs.Reply
import TuningBridge.Proofs.Growth
import TuningBridge.Proofs.Access
import TuningBridge.Proofs.Exchange
import TuningBridge.Proofs.Staging
import TuningBridge.Proofs.Conversation
import TuningBridge.Dispatch
import TuningBridge.Proofs.Turn
import TuningBridge.Proofs.Clients
import TuningBridge.Proofs.Schedule
import TuningBridge.Proofs.Alone
import TuningBridge.Proofs.Chunks
import TuningBridge.Proofs.Frames
import TuningBridge.Proofs.Words
import TuningBridge.Proofs.SlotFrames
import TuningBridge.Proofs.CommitOrder
import TuningBridge.Proofs.Device
import TuningBridge.Proofs.Takeover
import TuningBridge.Proofs.Edits
import TuningBridge.Proofs.Replay
import TuningBridge.Proofs.ReadOnly
import TuningBridge.Proofs.Gate
import TuningBridge.Proofs.Encoding
import TuningBridge.Proofs.Gain
import TuningBridge.Proofs.Interruption
import TuningBridge.Proofs.Recall
import TuningBridge.Proofs.Rational
import TuningBridge.Proofs.Truncation
import TuningBridge.Proofs.Parameters
import TuningBridge.Proofs.Drift
import TuningBridge.Proofs.Template
import TuningBridge.Proofs.Permutation
import TuningBridge.Proofs.Payload
import TuningBridge.Proofs.Repetition
import TuningBridge.Proofs.ShortWord
import TuningBridge.Proofs.WordNumeral
import TuningBridge.Proofs.Lines
