import GoEvm.Word
import GoEvm.Types
import GoEvm.Txn
import GoEvm.Txn.Frame
import GoEvm.Txn.Reference
import GoEvm.Txn.Refinement
import GoEvm.Evm.State
import GoEvm.Evm.Frame
import GoEvm.Evm.Instructions
import GoEvm.Evm.System
import GoEvm.Evm.Run
import GoEvm.Evm.DispatchTable
import GoEvm.Evm.Bounds
import GoEvm.Evm.Effect
import GoEvm.Evm.Local
import GoEvm.Evm.Dispatch
import GoEvm.Evm.Fuel
import GoEvm.Evm.Arith
import GoEvm.Evm.Memory
import GoEvm.Evm.Call
import GoEvm.Evm.Spend
import GoEvm.Evm.Flow
import GoEvm.Evm.Expansion
import GoEvm.Evm.Panic
import GoEvm.Evm.Halt
import GoEvm.Transition
import GoEvm.Transition.PreCheck
import GoEvm.Transition.Gas
import GoEvm.Transition.Refund
import GoEvm.Transition.Create
import GoEvm.Transition.Frames
import GoEvm.Transition.Static
import GoEvm.Transition.Fuel
import GoEvm.Transition.Depth
import GoEvm.Transition.Nonce
import GoEvm.Transition.Intrinsic
import GoEvm.Transition.Spend
import GoEvm.Precompiled
import GoEvm.Precompiled.Registry
import GoEvm.Itrie.Trie
import GoEvm.Itrie.Contents
import GoEvm.Itrie.Shape
import GoEvm.Itrie.Insert
import GoEvm.Itrie.Delete
import GoEvm.Itrie.Order
import GoEvm.Itrie.Hash
