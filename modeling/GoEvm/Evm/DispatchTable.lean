import GoEvm.Evm.Run

/-! A dispatch table for running programs. `evm/dispatch_table.go` is not under src/;
the results about the loop hold for every table, and this one is used where a concrete
program is run. -/
namespace GoEvm.Evm

/-- `registerRange`: consecutive opcodes for the factory's parameters `1, 2, …`, each with
no stack minimum of its own, as the handlers check their depth themselves. -/
def registerRange (start count : Nat) (factory : Nat → Instr) (gas : Uint64) :
    List (OpCode × Handler) :=
  (List.range count).map fun i => ((start + i).toUInt8, ⟨factory (i + 1), 0, gas⟩)

/-- Modelled from the spec: the dispatch table of `evm/dispatch_table.go` is not under
src/. Following §4.G, each opcode maps to its handler, the number of stack items the
handler reads, and its base gas (the reference schedule's constant part; the handlers that
price by revision or by status charge themselves and have base 0). The entries are grouped
as the opcode space is. -/
def arithmeticEntries : List (OpCode × Handler) :=
  [(0x00, ⟨.stop, 0, 0⟩), (0x01, ⟨.add, 2, 3⟩), (0x02, ⟨.mul, 2, 5⟩), (0x03, ⟨.sub, 2, 3⟩),
   (0x04, ⟨.div, 2, 5⟩), (0x05, ⟨.sdiv, 2, 5⟩), (0x06, ⟨.mod, 2, 5⟩), (0x07, ⟨.smod, 2, 5⟩),
   (0x08, ⟨.addmod, 3, 8⟩), (0x09, ⟨.mulmod, 3, 8⟩), (0x0a, ⟨.exp, 2, 10⟩),
   (0x0b, ⟨.signextend, 2, 5⟩)]

def bitwiseEntries : List (OpCode × Handler) :=
  [(0x10, ⟨.lt, 2, 3⟩), (0x11, ⟨.gt, 2, 3⟩), (0x12, ⟨.slt, 2, 3⟩), (0x13, ⟨.sgt, 2, 3⟩),
   (0x14, ⟨.eq, 2, 3⟩), (0x15, ⟨.iszero, 1, 3⟩), (0x16, ⟨.and, 2, 3⟩), (0x17, ⟨.or, 2, 3⟩),
   (0x18, ⟨.xor, 2, 3⟩), (0x19, ⟨.not, 1, 3⟩), (0x1a, ⟨.byte, 2, 3⟩), (0x1b, ⟨.shl, 2, 3⟩),
   (0x1c, ⟨.shr, 2, 3⟩), (0x1d, ⟨.sar, 2, 3⟩), (0x20, ⟨.sha3, 2, 30⟩)]

def contextEntries : List (OpCode × Handler) :=
  [(0x30, ⟨.address, 0, 2⟩), (0x31, ⟨.balance, 1, 0⟩), (0x32, ⟨.origin, 0, 2⟩),
   (0x33, ⟨.caller, 0, 2⟩), (0x34, ⟨.callvalue, 0, 2⟩), (0x35, ⟨.calldataload, 1, 3⟩),
   (0x36, ⟨.calldatasize, 0, 2⟩), (0x37, ⟨.calldatacopy, 3, 3⟩), (0x38, ⟨.codesize, 0, 2⟩),
   (0x39, ⟨.codecopy, 3, 3⟩), (0x3a, ⟨.gasprice, 0, 2⟩), (0x3b, ⟨.extcodesize, 1, 0⟩),
   (0x3c, ⟨.extcodecopy, 4, 0⟩), (0x3d, ⟨.returndatasize, 0, 2⟩),
   (0x3e, ⟨.returndatacopy, 3, 3⟩), (0x3f, ⟨.extcodehash, 1, 0⟩)]

def blockEntries : List (OpCode × Handler) :=
  [(0x40, ⟨.blockhash, 1, 20⟩), (0x41, ⟨.coinbase, 0, 2⟩), (0x42, ⟨.timestamp, 0, 2⟩),
   (0x43, ⟨.number, 0, 2⟩), (0x44, ⟨.difficulty, 0, 2⟩), (0x45, ⟨.gaslimit, 0, 2⟩),
   (0x46, ⟨.chainid, 0, 2⟩), (0x47, ⟨.selfbalance, 0, 5⟩)]

def flowEntries : List (OpCode × Handler) :=
  [(0x50, ⟨.pop, 1, 2⟩), (0x51, ⟨.mload, 1, 3⟩), (0x52, ⟨.mstore, 2, 3⟩),
   (0x53, ⟨.mstore8, 2, 3⟩), (0x54, ⟨.sload, 1, 0⟩), (0x55, ⟨.sstore, 2, 0⟩),
   (0x56, ⟨.jump, 1, 8⟩), (0x57, ⟨.jumpi, 2, 10⟩), (0x58, ⟨.pc, 0, 2⟩), (0x59, ⟨.msize, 0, 2⟩),
   (0x5a, ⟨.gas, 0, 2⟩), (0x5b, ⟨.jumpdest, 0, 1⟩)]

def systemEntries : List (OpCode × Handler) :=
  [(0xf0, ⟨.create OpCode.CREATE, 3, 32000⟩), (0xf1, ⟨.call OpCode.CALL, 7, 0⟩),
   (0xf2, ⟨.call OpCode.CALLCODE, 7, 0⟩), (0xf3, ⟨.halt OpCode.RETURN, 2, 0⟩),
   (0xf4, ⟨.call OpCode.DELEGATECALL, 6, 0⟩), (0xf5, ⟨.create OpCode.CREATE2, 4, 32000⟩),
   (0xfa, ⟨.call OpCode.STATICCALL, 6, 0⟩), (0xfd, ⟨.halt OpCode.REVERT, 2, 0⟩),
   (0xff, ⟨.selfdestruct, 1, 0⟩)]

def dispatchEntries : List (OpCode × Handler) :=
  arithmeticEntries ++ bitwiseEntries ++ contextEntries ++ blockEntries ++ flowEntries ++
  registerRange 0x60 32 .push 3 ++ registerRange 0x80 16 .dup 3 ++
  registerRange 0x90 16 .swap 3 ++ registerRange 0xa0 5 .log 375 ++ systemEntries

def dispatchTable (op : OpCode) : Option Handler := dispatchEntries.lookup op

end GoEvm.Evm
