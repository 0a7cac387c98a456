import PofSwitch.ByteBits
import PofSwitch.FieldNumbers
import PofSwitch.BaseFunc
import PofSwitch.Chain
import PofSwitch.Pairing
import PofSwitch.Machine
import PofSwitch.Hmap
import PofSwitch.HmapHeap
import PofSwitch.Trie
import PofSwitch.TrieNodes
import PofSwitch.Tree
import PofSwitch.TreeShape
import PofSwitch.Global
import PofSwitch.BitFields
import PofSwitch.LocalResource
import PofSwitch.Ports
import PofSwitch.PortNames
import PofSwitch.Config
import PofSwitch.DeviceId
import PofSwitch.FlowTable
import PofSwitch.LrRequest
import PofSwitch.LrRun
import PofSwitch.LrAtomic
import PofSwitch.LrStore
import PofSwitch.LrFrame
import PofSwitch.Listing
import PofSwitch.EntryIndices
import PofSwitch.FlowTableLpm
import PofSwitch.FlowTableEm
import PofSwitch.FlowTableMm
import PofSwitch.EmLookup
import PofSwitch.LpmShared
import PofSwitch.WellFormed
import PofSwitch.CounterOwners
import PofSwitch.LittleEndian
import PofSwitch.Layout
import PofSwitch.ByteSwap
import PofSwitch.ByteTransfer
import PofSwitch.Message
import PofSwitch.Channel
import PofSwitch.Handshake
import PofSwitch.Framing
import PofSwitch.Prog
import PofSwitch.Checked
import PofSwitch.Packet
import PofSwitch.EntryBytes
import PofSwitch.Wire
import PofSwitch.Action
import PofSwitch.Instruction
import PofSwitch.EntryLookup
import PofSwitch.DatapathFrame
import PofSwitch.FieldValues
import PofSwitch.SetField
import PofSwitch.Checksum
import PofSwitch.InstructionCursor
import PofSwitch.PacketFate
import PofSwitch.DatapathRun
import PofSwitch.PacketWindow
import PofSwitch.PacketLength
import PofSwitch.MovePacketOffset
import PofSwitch.Arithmetic
import PofSwitch.TagFields
import PofSwitch.ActionList
import PofSwitch.GroupChain
import PofSwitch.CounterTotals
import PofSwitch.Pipeline
import PofSwitch.Codable
import PofSwitch.GroupDelete
import PofSwitch.Restorable
import PofSwitch.TableIds
import PofSwitch.SendQueue
import PofSwitch.EntryReply
import PofSwitch.ErrorReport
import PofSwitch.Replies
import PofSwitch.QueryAll
import PofSwitch.RunCase
import PofSwitch.Replicas
import PofSwitch.Restore
import PofSwitch.PacketOut
import PofSwitch.OutputPorts
import PofSwitch.Parse
import PofSwitch.Answers
import PofSwitch.Dialogue
import PofSwitch.Bounds
import PofSwitch.Finding
import PofSwitch.Picture
import PofSwitch.Pictured
import PofSwitch.Foretold
