import SeiChain.Common.Bytes

namespace SeiChain.Evm.State

-- go-ethereum's `types.Log` with the fields `DBImpl` reads or writes. The receipt fields
-- (block and transaction coordinates) are filled in after execution.
structure Log where
  address : Address
  topics : List Hash
  data : Bytes
  index : Nat

-- `accessList`: an address maps to -1 when it has no slots, else to its entry in `slots`.
structure AccessList where
  addresses : Address → Option Int
  slots : List (Hash → Bool)

def AccessList.empty : AccessList := ⟨fun _ => none, []⟩

-- The refund counter is kept as the `uint64` its eight bytes encode, and the Go map
-- `transientAccounts` as its entries, in the order a range happens to visit them.
structure TemporaryState where
  logs : List Log
  transientStates : Address → Hash → Option Hash
  transientAccounts : List (Address × Bytes)
  transientModuleStates : Bytes → Option UInt64
  transientAccessLists : AccessList
  surplus : Int

def newTemporaryState : TemporaryState where
  logs := []
  transientStates := fun _ _ => none
  transientAccounts := []
  transientModuleStates := fun _ => none
  transientAccessLists := AccessList.empty
  surplus := 0

def gasRefundKey : Bytes := [0x01]
def accountCreated : Bytes := [0x01]
def accountDeleted : Bytes := [0x02]

-- The layers in the order the `getTransient*` loops search them: the current one, then
-- the history from the newest down.
def topDown (current : TemporaryState) (hist : List TemporaryState) : List TemporaryState :=
  current :: hist.reverse

def AccessList.slotIn (al : AccessList) (addr : Address) (slot : Hash) : Bool :=
  match al.addresses addr with
  | some idx => idx != -1 && ((al.slots[idx.toNat]?).map (· slot)).getD false
  | none => false

def AccessList.addressIn (al : AccessList) (addr : Address) : Bool :=
  (al.addresses addr).isSome

def AccessList.addAddress (al : AccessList) (addr : Address) : AccessList :=
  match al.addresses addr with
  | some _ => al
  | none => { al with addresses := Function.update al.addresses addr (some (-1)) }

def AccessList.addSlot (al : AccessList) (addr : Address) (slot : Hash) : AccessList :=
  match al.addresses addr with
  | some idx =>
    if idx = -1 then
      { addresses := Function.update al.addresses addr (some al.slots.length)
        slots := al.slots ++ [fun h => decide (h = slot)] }
    else
      { al with slots := al.slots.modify idx.toNat fun m h => m h || decide (h = slot) }
  | none =>
    { addresses := Function.update al.addresses addr (some al.slots.length)
      slots := al.slots ++ [fun h => decide (h = slot)] }

end SeiChain.Evm.State
