import UniProton.Framework.Dlist
import UniProton.Framework.Run

namespace UniProton.Irq

open Framework Function

/-- What an interrupt calls: `OsHwiDefaultHandler`, `OsHwiCombineDispatchHandler`, or a handler of
the application. -/
inductive HwiFunc where
  | default | combineDispatch
  | user (handler : Nat)
  deriving DecidableEq

inductive HwiMode where
  | unset | engross | combine deriving DecidableEq

/-- What the interrupt functions return. -/
inductive HwiRet where
  | ok | numInvalid | procFuncNull | modeUnset | priError | modeError | attrConflicted
  | alreadyCreated | memoryAllocFailed | combinehookAlreadyCreated | deleted
  deriving DecidableEq

structure HwiForm where
  hook : HwiFunc
  param : Nat
  deriving DecidableEq

def osHwiMaxCombineNode : Nat := 8

/-- The interrupt tables and the combine nodes by their addresses, 0 being the null pointer.
History: all `nodes` there are, and the handlers registered for each interrupt since its deletion.
-/
structure Hwi where
  form : Nat → HwiForm
  mode : Nat → HwiMode
  cmbHook : Nat → HwiFunc
  cmbParam : Nat → Nat
  next : Nat → Nat
  freeHead : Nat
  nodes : List Nat
  regs : Nat → List (Nat×Nat)

namespace Hwi

variable (k : Hwi)

def setForm (irqNum : Nat) (hook : HwiFunc) (param : Nat) : Hwi :=
  {k with form:=update k.form irqNum ⟨hook,param⟩}

/-- The loop that makes a list of free nodes out of an array: `OsHwiCombineNodeInit`, and the
extension in `OsHwiCombineAlloc`. -/
def arrayInit (array : Nat) : Nat → Hwi → Hwi
  | 0, k => k
  | n+1, k =>
    let k := arrayInit array n k
    {k with
      next := update k.next (array+n) (array+n+1)
      cmbHook := update k.cmbHook (array+n) .default}

def extend (array : Nat) : Hwi :=
  let last := array+(osHwiMaxCombineNode-1)
  let k := arrayInit array (osHwiMaxCombineNode-1) k
  {k with
    cmbHook := update k.cmbHook last .default
    next := update k.next last 0
    freeHead := array
    nodes := k.nodes++List.range' array osHwiMaxCombineNode}

/-- The calls that `OsHwiCombineDispatchHandler` makes; `none` if it does not return. -/
def dispatchScan : Nat → Nat → Option (List (HwiFunc×Nat))
  | 0, hook => if hook=0 then some [] else none
  | fuel+1, hook =>
    if hook=0 then some []
    else (dispatchScan fuel (k.next hook)).map ((k.cmbHook hook,k.cmbParam hook) :: ·)

def dispatch (irqNum : Nat) : Option (List (HwiFunc×Nat)) :=
  let f := k.form irqNum
  if f.hook=.combineDispatch then k.dispatchScan k.nodes.length f.param
  else some [(f.hook,f.param)]

/-- How the walk along a chain ends. -/
inductive Scan where
  | duplicate
  | last (prev : Nat)
  | empty

/-- The loop of `OsHwiCombineAlloc` over the chain of the interrupt. -/
def allocScan (handler : HwiFunc) : Nat → Nat → Option Scan
  | 0, prev => if prev=0 then some .empty else none
  | fuel+1, prev =>
    if prev=0 then some .empty
    else if handler=k.cmbHook prev then some .duplicate
    else if k.next prev=0 then some (.last prev)
    else allocScan handler fuel (k.next prev)

def fill (newHook handler arg : Nat) : Hwi :=
  {k with
    next := update k.next newHook 0
    cmbHook := update k.cmbHook newHook (.user handler)
    cmbParam := update k.cmbParam newHook arg}

def register (irqNum handler arg : Nat) : Hwi :=
  {k with regs:=update k.regs irqNum (k.regs irqNum ++ [(handler,arg)])}

/-- `OsHwiCombineAlloc` from where there is a free node. -/
def combineTake (irqNum handler arg : Nat) : Option (Hwi×HwiRet) :=
  let newHook := k.freeHead
  let k := {k with freeHead:=k.next newHook}
  if (k.form irqNum).hook=.default then
    some (((k.setForm irqNum .combineDispatch newHook).fill newHook handler arg).register
      irqNum handler arg,.ok)
  else if (k.form irqNum).hook=.combineDispatch then
    match k.allocScan (.user handler) k.nodes.length (k.form irqNum).param with
    | none => none
    | some .duplicate => some ({k with freeHead:=newHook},.combinehookAlreadyCreated)
    | some (.last prev) =>
      some ((({k with next:=update k.next prev newHook}).fill newHook handler
        arg).register irqNum handler arg,.ok)
    | some .empty => some ((k.fill newHook handler arg).register irqNum handler arg,.ok)
  else some ((k.fill newHook handler arg).register irqNum handler arg,.ok)

/-- `array` is the answer of `OsMemAlloc`, should it be asked. -/
def osHwiCombineAlloc (irqNum handler arg array : Nat) : Option (Hwi×HwiRet) :=
  if k.freeHead=0 then
    if array=0 then some (k,.memoryAllocFailed)
    else (k.extend array).combineTake irqNum handler arg
  else k.combineTake irqNum handler arg

def osHwiConnectHandle (irqNum handler arg array : Nat) : Option (Hwi×HwiRet) :=
  if k.mode irqNum=.combine then k.osHwiCombineAlloc irqNum handler arg array
  else if (k.form irqNum).hook≠.default then some (k,.alreadyCreated)
  else some (k.setForm irqNum (.user handler) arg,.ok)

def freeLast : Nat → Nat → Option Nat
  | 0, hook => if k.next hook=0 then some hook else none
  | fuel+1, hook => if k.next hook=0 then some hook else freeLast fuel (k.next hook)

def osHwiCombineDelete (irqNum : Nat) : Option Hwi :=
  let newHook := (k.form irqNum).param
  let k? := if k.freeHead=0 then some {k with freeHead:=newHook}
    else (k.freeLast k.nodes.length k.freeHead).map fun hook =>
      {k with next:=update k.next hook newHook}
  k?.map fun k => {k.setForm irqNum .default 0 with regs:=update k.regs irqNum []}

def osHwiDeleteFormResume (irqNum : Nat) : Option (Hwi×HwiRet) :=
  if k.mode irqNum=.unset then some (k,.deleted)
  else
    let k := {k with mode:=update k.mode irqNum .unset}
    if (k.form irqNum).hook=.combineDispatch then
      (k.osHwiCombineDelete irqNum).map fun k => (k,.ok)
    else some (k.setForm irqNum .default irqNum,.ok)

variable (maxNum : Nat)

/-- `prioErr` and `conflict` are the answers of `OsHwiPrioCheck` and `OsHwiPrioConflictCheck`. -/
def prtHwiSetAttr (hwiNum : Nat) (mode : HwiMode) (prioErr conflict : Bool) : Hwi×HwiRet :=
  if maxNum≤hwiNum then (k,.numInvalid)
  else if prioErr=true then (k,.priError)
  else if mode=.unset then (k,.modeError)
  else if k.mode hwiNum≠.unset ∧ (mode≠k.mode hwiNum ∨ conflict=true) then
    (k,.attrConflicted)
  else ({k with mode:=update k.mode hwiNum mode},.ok)

def prtHwiCreate (hwiNum handler arg array : Nat) : Option (Hwi×HwiRet) :=
  if maxNum≤hwiNum then some (k,.numInvalid)
  else if handler=0 then some (k,.procFuncNull)
  else if k.mode hwiNum=.unset then some (k,.modeUnset)
  else k.osHwiConnectHandle hwiNum handler arg array

def prtHwiDelete (hwiNum : Nat) : Option (Hwi×HwiRet) :=
  if maxNum≤hwiNum then some (k,.numInvalid) else k.osHwiDeleteFormResume hwiNum

end Hwi

/-- The state behind `OsHwiConfigInit`, with the array `g_hwiCombineNode`. -/
def Hwi.init (array : Nat) : Hwi :=
  Hwi.extend
    { form := fun irqNum => ⟨.default,irqNum⟩
      mode := fun _ => .unset
      cmbHook := fun _ => .default
      cmbParam := fun _ => 0
      next := fun _ => 0
      freeHead := 0
      nodes := []
      regs := fun _ => [] } array

inductive HwiCall where
  | setAttr (hwiNum : Nat) (mode : HwiMode) (prioErr conflict : Bool)
  | create (hwiNum handler arg array : Nat)
  | delete (hwiNum : Nat)
  deriving DecidableEq

def Hwi.exec (maxNum : Nat) (k : Hwi) : HwiCall → Option (Hwi×HwiRet)
  | .setAttr hwiNum mode prioErr conflict =>
    some (k.prtHwiSetAttr maxNum hwiNum mode prioErr conflict)
  | .create hwiNum handler arg array => k.prtHwiCreate maxNum hwiNum handler arg array
  | .delete hwiNum => k.prtHwiDelete maxNum hwiNum

end UniProton.Irq
