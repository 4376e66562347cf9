import SelectiveRepeat.Packet.Canonical
import SelectiveRepeat.Packet.Contracts
import SelectiveRepeat.Packet.Damage
import SelectiveRepeat.Library.Transition
import SelectiveRepeat.Receiver.Acknowledgements
import SelectiveRepeat.Receiver.ArrivalOrder
import SelectiveRepeat.Receiver.ForeignPackets
import SelectiveRepeat.Receiver.HeapRefinement
import SelectiveRepeat.Receiver.UnsafeBranches
import SelectiveRepeat.Library.Reassembly
import SelectiveRepeat.Sender.ForeignAnswers
import SelectiveRepeat.Sender.InputReads
import SelectiveRepeat.Sender.Timers
import SelectiveRepeat.Link.Recovery
import SelectiveRepeat.Link.FlowControl
import SelectiveRepeat.LinkSim.Endings
import SelectiveRepeat.LinkSim.Overtaking
import SelectiveRepeat.Deployment.EndToEnd
