import UniProton.Framework.Memory
import UniProton.Framework.PrioMap

namespace UniProton

open Framework

/-- A build of the heap: `sizeof(uintptr_t)`, and where `g_fscMemNodeList` stands. -/
structure FscCfg where
  word : Nat
  nodeList : Nat
  word_ok : word=4 ∨ word=8
  aligned : nodeList%word=0
  fits : nodeList+31*(4*word)≤256^word

/-- The globals of the FSC heap and the memory they stand in. -/
structure Fsc where
  mem : Memory
  fscMemBitMap : BitVec 32 := 1
  memTotalSize : Nat := 0
  memUsage : Nat := 0
  memPeakUsage : Nat := 0
  memStartAddr : Nat := 0

/-- What the memory functions return. -/
inductive MemErrno where
  | osOk | initaddrIsinvalid | initaddrInvalid | initsizeInvalid | ptcreateSizeIstoosmall
  | ptcreateSizeIstoobig | freeAddrInvalid | freeShDamaged | overwrite
  deriving DecidableEq

def osFscMemMagicUsed : Nat := 0x5a5aa5a5

def osFscMemTailMagic : Nat := 0xABCDDCBA

def osFscMemLastIdx : Nat := 31

def osGetLmb1 (value : BitVec 32) : Nat := leadingOne value

def osFscMemSz2idx (size : Nat) : Nat := 31-osGetLmb1 (BitVec.ofNat 32 size)

def osFscMemIdx2bit (idx : Nat) : BitVec 32 := msbBit 32 idx

/-- `ALIGN`: the boundary is a power of two, so clearing its low bits drops the remainder. -/
def alignUp (addr boundary : Nat) : Nat := addr+boundary-1-(addr+boundary-1)%boundary

/-- The members of `struct TagFscMemCtrl`. -/
inductive FscField where
  | next | size | prevSize | prev deriving DecidableEq

def FscField.pos : FscField → Nat
  | .next => 0
  | .size => 1
  | .prevSize => 2
  | .prev => 3

namespace FscCfg

variable (c : FscCfg) (m : Memory)

def usedHeadSize : Nat := 4*c.word

def tailSize : Nat := c.word

def sizeAlign : Nat := c.word

def minSize : Nat := c.usedHeadSize+c.sizeAlign

def maxval : Nat := 2^osFscMemLastIdx-c.sizeAlign

def head (idx : Nat) : Nat := c.nodeList+idx*c.usedHeadSize

def get (f : FscField) (blk : Nat) : Nat := m.read (blk+f.pos*c.word) c.word

def set (f : FscField) (blk v : Nat) : Memory := m.write (blk+f.pos*c.word) c.word v

def tailAddr (blk : Nat) : Nat := blk+c.get m .size blk-c.tailSize

def osFscMemDelete (currBlk : Nat) : Memory :=
  let m := c.set m .prev (c.get m .next currBlk) (c.get m .prev currBlk)
  c.set m .next (c.get m .prev currBlk) (c.get m .next currBlk)

def osMemSetHeadAddr (usrAddr ctrlAddr : Nat) : Memory := m.write (usrAddr-2) 2 (usrAddr-ctrlAddr)

/-- The difference is that of two `uintptr_t`. -/
def osMemGetHeadAddr (usrAddr : Nat) : Nat :=
  (usrAddr+256^c.word-(m.read (usrAddr-2) 2+c.usedHeadSize))%256^c.word

def linkFirst (currBlk headBlk : Nat) : Memory :=
  let m := c.set m .prev currBlk headBlk
  let m := c.set m .next currBlk (c.get m .next headBlk)
  let m := c.set m .prev (c.get m .next headBlk) currBlk
  c.set m .next headBlk currBlk

variable (s : Fsc)

def osFscMemInsert (currBlk : Nat) : Fsc :=
  let idx := osFscMemSz2idx (c.get s.mem .size currBlk)
  {s with
    fscMemBitMap := s.fscMemBitMap ||| osFscMemIdx2bit idx
    mem := c.linkFirst s.mem currBlk (c.head idx)}

/-- The inner loop of `OsFscMemSearch`; without fuel there is no answer, and 0 is `NULL`. -/
def searchList (size headBlk : Nat) : Nat → Nat → Option Nat
  | 0, _ => none
  | fuel+1, currBlk =>
    if currBlk=headBlk then some 0
    else if size≤c.get m .size currBlk % 2^32 then some currBlk
    else searchList size headBlk fuel (c.get m .next currBlk)

/-- What `OsFscMemSearch` hands back, with the elements of `g_fscMemNodeList` it looked at. -/
structure Found where
  heap : Fsc
  blk : Nat
  idx : Nat
  indexed : List Nat

def searchFrom (size staIdx : Nat) : Nat → Fsc → Nat → List Nat → Option Found
  | 0, _, _, _ => none
  | fuel+1, s, idx, seen =>
    let idx := osGetLmb1 (s.fscMemBitMap <<< idx >>> idx)
    if osFscMemLastIdx ≤ idx then
      let headBlk := c.head staIdx
      (c.searchList s.mem size headBlk fuel (c.get s.mem .next headBlk)).map fun blk =>
        {heap:=s, blk:=blk, idx:=staIdx, indexed:=staIdx::seen}
    else
      let headBlk := c.head idx
      if c.get s.mem .next headBlk=headBlk then
        searchFrom size staIdx fuel
          {s with fscMemBitMap:=s.fscMemBitMap &&& ~~~ osFscMemIdx2bit idx} idx (idx::seen)
      else
        some {heap:=s, blk:=c.get s.mem .next headBlk, idx:=idx, indexed:=idx::seen}

def osFscMemSearch (fuel size : Nat) : Option Found :=
  let staIdx := osFscMemSz2idx size
  c.searchFrom size staIdx fuel s (staIdx+1) []

/-- `OsFscMemAllocInner` moves a shrunken block to the list of its class. -/
def reclass (currBlk idx : Nat) : Fsc :=
  if idx≠osFscMemSz2idx (c.get s.mem .size currBlk) then
    c.osFscMemInsert {s with mem:=c.osFscMemDelete s.mem currBlk} currBlk
  else s

/-- `OsFscMemAllocInner` splits: the request is cut off the end of the free block. -/
def splitTail (currBlk idx allocSize : Nat) : Fsc×Nat :=
  let m := c.set s.mem .size currBlk (c.get s.mem .size currBlk-allocSize)
  let s := c.reclass {s with mem:=m} currBlk idx
  let plotBlk := currBlk+c.get s.mem .size currBlk
  let m := c.set s.mem .prevSize plotBlk (c.get s.mem .size currBlk)
  ({s with mem:=c.set m .size plotBlk allocSize},plotBlk)

def markUsed (currBlk : Nat) : Memory :=
  let m := c.set m .prevSize (currBlk+c.get m .size currBlk) 0
  let m := c.set m .next currBlk osFscMemMagicUsed
  let m := m.write (c.tailAddr m currBlk) 4 osFscMemTailMagic
  c.set m .prev currBlk 0

def allocFrom (currBlk idx allocSize align : Nat) : Fsc×Nat :=
  let (s,currBlk) :=
    if allocSize+c.minSize≤c.get s.mem .size currBlk % 2^32 then
      c.splitTail s currBlk idx allocSize
    else ({s with mem:=c.osFscMemDelete s.mem currBlk},currBlk)
  let m := c.markUsed s.mem currBlk
  let usrAddr := alignUp (currBlk+c.usedHeadSize) align
  let m := osMemSetHeadAddr m usrAddr (currBlk+c.usedHeadSize)
  let usage := s.memUsage+c.get m .size currBlk
  ({s with
      mem := m
      memUsage := usage
      memPeakUsage := if s.memPeakUsage<usage then usage else s.memPeakUsage},usrAddr)

/-- The sum that `OsFscMemAllocInner` forms before it is cut to 32 bits. -/
def allocSum (size align : Nat) : Nat :=
  alignUp size c.sizeAlign+(align-c.sizeAlign)+c.usedHeadSize+c.tailSize

/-- An alignment below the size of a pointer is raised to it. -/
def raiseAlign (align : Nat) : Nat := if align<c.word then c.word else align

def osFscMemAllocInner (fuel : Nat) (size : UInt32) (align : Nat) : Option (Fsc×Nat) :=
  if size=0 then some (s,0)
  else
    let align := c.raiseAlign align
    let allocSize := c.allocSum size.toNat align % 2^32
    if allocSize<size.toNat ∨ c.maxval-c.usedHeadSize-c.tailSize≤allocSize then some (s,0)
    else
      (c.osFscMemSearch s fuel allocSize).map fun r =>
        if r.blk=0 then (r.heap,0) else c.allocFrom r.heap r.blk r.idx allocSize align

def osMemAlloc (fuel : Nat) (size : UInt32) : Option (Fsc×Nat) :=
  c.osFscMemAllocInner s fuel size c.sizeAlign

/-- `enum MemAlign` runs from `MEM_ADDR_ALIGN_004` = 2 to `MEM_ADDR_ALIGN_16K` = 14. -/
def osMemAllocAlign (fuel : Nat) (size : UInt32) (alignPow : Nat) : Option (Fsc×Nat) :=
  if 15≤alignPow ∨ alignPow<2 then some (s,0)
  else c.osFscMemAllocInner s fuel size (2^alignPow)

/-- `OsFscMemFree`: a free block behind the current one is taken in. -/
def mergeNext (currBlk nextBlk : Nat) : Memory :=
  if c.get m .next nextBlk≠osFscMemMagicUsed then
    let m := c.osFscMemDelete m nextBlk
    let m := c.set m .size currBlk (c.get m .size currBlk+c.get m .size nextBlk)
    m.fill nextBlk c.usedHeadSize 0
  else m

/-- `OsFscMemFree`: a free block in front takes in the current one. -/
def mergePrev (currBlk : Nat) : Memory×Nat :=
  if c.get m .prevSize currBlk≠0 then
    let prevBlk := currBlk-c.get m .prevSize currBlk
    let m := c.set m .size prevBlk (c.get m .size prevBlk+c.get m .size currBlk)
    let m := c.osFscMemDelete m prevBlk
    (m.fill currBlk c.usedHeadSize 0,prevBlk)
  else (m,currBlk)

def osFscMemFree (addr : Nat) : Fsc×MemErrno :=
  if addr=0 then (s,.freeAddrInvalid)
  else
    let currBlk := c.osMemGetHeadAddr s.mem addr
    let blkSize := c.get s.mem .size currBlk
    if c.get s.mem .next currBlk≠osFscMemMagicUsed ∨ blkSize=0 then (s,.freeShDamaged)
    else if s.mem.read (c.tailAddr s.mem currBlk) 4≠osFscMemTailMagic then (s,.overwrite)
    else
      let (m,currBlk) := c.mergePrev (c.mergeNext s.mem currBlk (currBlk+blkSize)) currBlk
      let s := c.osFscMemInsert {s with mem:=m} currBlk
      ({s with
          mem := c.set s.mem .prevSize (currBlk+c.get s.mem .size currBlk) (c.get s.mem .size currBlk)
          memUsage := s.memUsage-blkSize},.osOk)

def initLists : Nat → Memory
  | 0 => m
  | n+1 =>
    let m := c.set (initLists n) .prev (c.head n) (c.head n)
    c.set m .next (c.head n) (c.head n)

/-- The writes of `OsFscMemInit` into the block and the end sentinel. -/
def initBlock (addr size : Nat) : Memory :=
  let headBlk := c.head (osFscMemSz2idx size)
  let m := c.set m .next addr headBlk
  let m := c.set m .prevSize addr 0
  let m := c.set m .size addr size
  let m := c.set m .prev addr headBlk
  let m := c.set m .next headBlk addr
  let m := c.set m .prev headBlk addr
  let nextBlk := addr+c.get m .size addr
  let m := c.set m .next nextBlk osFscMemMagicUsed
  c.set m .size nextBlk 0

def osFscMemInit (addr : Nat) (size : UInt32) : Fsc×MemErrno :=
  if addr=0 then (s,.initaddrIsinvalid)
  else if addr%c.word≠0 then (s,.initaddrInvalid)
  else if size.toNat%c.word≠0 then (s,.initsizeInvalid)
  else if size.toNat<c.usedHeadSize then (s,.ptcreateSizeIstoosmall)
  else if c.maxval<size.toNat then (s,.ptcreateSizeIstoobig)
  else
    let m := c.initLists (s.mem.fill addr size.toNat 0) osFscMemLastIdx
    let rest := size.toNat-c.usedHeadSize
    ({s with
        fscMemBitMap := s.fscMemBitMap ||| osFscMemIdx2bit osFscMemLastIdx |||
          osFscMemIdx2bit (osFscMemSz2idx rest)
        mem := c.initBlock m addr rest
        memTotalSize := rest
        memStartAddr := addr},.osOk)

end FscCfg

end UniProton
