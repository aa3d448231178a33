import SeiChain.Common.Bytes

namespace SeiChain.Evm.Pointer

abbrev EvmStore := List (Bytes × Bytes)

def storeSet (s : EvmStore) (k v : Bytes) : EvmStore := (k, v) :: s.filter (·.1 != k)

def storeDelete (s : EvmStore) (k : Bytes) : EvmStore := s.filter (·.1 != k)

def under (s : EvmStore) (pref : Bytes) : List (Bytes × Bytes) :=
  (s.filter fun e => pref.isPrefixOf e.1).map fun e => (e.1.drop pref.length, e.2)

-- The first entry of `ReverseIterator(nil, nil)`: the greatest key, in byte order.
def lastEntry : List (Bytes × Bytes) → Option (Bytes × Bytes)
  | [] => none
  | e :: rest =>
    match lastEntry rest with
    | none => some e
    | some last => if last.1 < e.1 then some e else some last

def putUint16 (v : UInt16) : Bytes := [(v >>> 8).toUInt8, v.toUInt8]

-- `binary.BigEndian.Uint16`, which panics on fewer than two bytes.
def getUint16 : Bytes → Except String UInt16
  | b₀ :: b₁ :: _ => .ok ((b₀.toUInt16 <<< 8) ||| b₁.toUInt16)
  | _ => .error "index out of range"

-- `GetPointerInfo`: the value and the version of the last key under `pref`, if any.
def getPointerInfo (s : EvmStore) (pref : Bytes) : Except String (Option (Bytes × UInt16)) :=
  match lastEntry (under s pref) with
  | none => .ok none
  | some (key, addr) => do
    let version ← getUint16 key
    pure (some (addr, version))

def setPointerInfo (s : EvmStore) (pref addr : Bytes) (version : UInt16) : EvmStore :=
  storeSet s (pref ++ putUint16 version) addr

def deletePointerInfo (s : EvmStore) (pref : Bytes) (version : UInt16) : EvmStore :=
  storeDelete s (pref ++ putUint16 version)

def pointerRegistryPrefix : Bytes := [0x15]

def pointerReverseRegistryPrefix : Bytes := [0x17]

-- The pointee kinds whose identifier is a string (a denom or a CosmWasm address).
inductive CwKind
  | erc20Native
  | erc20CW20
  | erc721CW721
  | erc1155CW1155
  deriving DecidableEq

-- The pointee kinds whose identifier is an EVM address.
inductive EvmKind
  | cw20ERC20
  | cw721ERC721
  | cw1155ERC1155
  deriving DecidableEq

def CwKind.kindByte : CwKind → UInt8
  | erc20Native => 0x0
  | erc20CW20 => 0x1
  | erc721CW721 => 0x2
  | erc1155CW1155 => 0x5

def EvmKind.kindByte : EvmKind → UInt8
  | cw20ERC20 => 0x3
  | cw721ERC721 => 0x4
  | cw1155ERC1155 => 0x6

-- `append(append(PointerRegistryPrefix, kind...), identifier...)`.
def pointerKey (kindByte : UInt8) (identifier : Bytes) : Bytes :=
  pointerRegistryPrefix ++ [kindByte] ++ identifier

def pointerERC20NativeKey (token : Bytes) : Bytes := pointerKey CwKind.erc20Native.kindByte token

def pointerERC20CW20Key (cw20Address : Bytes) : Bytes :=
  pointerKey CwKind.erc20CW20.kindByte cw20Address

def pointerERC721CW721Key (cw721Address : Bytes) : Bytes :=
  pointerKey CwKind.erc721CW721.kindByte cw721Address

def pointerERC1155CW1155Key (cw1155Address : Bytes) : Bytes :=
  pointerKey CwKind.erc1155CW1155.kindByte cw1155Address

def pointerCW20ERC20Key (erc20Addr : Address) : Bytes :=
  pointerKey EvmKind.cw20ERC20.kindByte erc20Addr.bytes

def pointerCW721ERC721Key (erc721Addr : Address) : Bytes :=
  pointerKey EvmKind.cw721ERC721.kindByte erc721Addr.bytes

def pointerCW1155ERC1155Key (erc1155Addr : Address) : Bytes :=
  pointerKey EvmKind.cw1155ERC1155.kindByte erc1155Addr.bytes

def pointerReverseRegistryKey (addr : Address) : Bytes := pointerReverseRegistryPrefix ++ addr.bytes

def evmAddressIsPointer (s : EvmStore) (addr : Address) : Except String Bool := do
  return (← getPointerInfo s (pointerReverseRegistryKey addr)).isSome

def cwAddressIsPointer (s : EvmStore) (addr : Bytes) : Except String Bool := do
  return (← getPointerInfo s (pointerReverseRegistryKey (bytesToAddress addr))).isSome

def errorPointerToPointerNotAllowed : String := "cannot create a pointer to a pointer: invalid request"

-- Every `Set*PointerWithVersion`: refused when the pointee is itself a pointer, otherwise the
-- entry under `key` and the reverse entry under `reverseKey`, both at `version`.
def setPointerWithVersion (isPointer : Except String Bool) (key value reverseKey reverseValue : Bytes)
    (version : UInt16) (s : EvmStore) : Except String EvmStore := do
  if ← isPointer then throw errorPointerToPointerNotAllowed
  pure (setPointerInfo (setPointerInfo s key value version) reverseKey reverseValue version)

def setERC20NativePointerWithVersion (s : EvmStore) (token : Bytes) (addr : Address)
    (version : UInt16) : Except String EvmStore :=
  setPointerWithVersion (cwAddressIsPointer s token) (pointerERC20NativeKey token) addr.bytes
    (pointerReverseRegistryKey addr) token version s

def setERC20CW20PointerWithVersion (s : EvmStore) (cw20Address : Bytes) (addr : Address)
    (version : UInt16) : Except String EvmStore :=
  setPointerWithVersion (cwAddressIsPointer s cw20Address) (pointerERC20CW20Key cw20Address)
    addr.bytes (pointerReverseRegistryKey addr) cw20Address version s

def setERC721CW721PointerWithVersion (s : EvmStore) (cw721Address : Bytes) (addr : Address)
    (version : UInt16) : Except String EvmStore :=
  setPointerWithVersion (cwAddressIsPointer s cw721Address) (pointerERC721CW721Key cw721Address)
    addr.bytes (pointerReverseRegistryKey addr) cw721Address version s

def setERC1155CW1155PointerWithVersion (s : EvmStore) (cw1155Address : Bytes) (addr : Address)
    (version : UInt16) : Except String EvmStore :=
  setPointerWithVersion (cwAddressIsPointer s cw1155Address)
    (pointerERC1155CW1155Key cw1155Address) addr.bytes (pointerReverseRegistryKey addr)
    cw1155Address version s

def setCW20ERC20PointerWithVersion (s : EvmStore) (erc20Address : Address) (addr : Bytes)
    (version : UInt16) : Except String EvmStore :=
  setPointerWithVersion (evmAddressIsPointer s erc20Address) (pointerCW20ERC20Key erc20Address)
    addr (pointerReverseRegistryKey (bytesToAddress addr)) erc20Address.bytes version s

def setCW721ERC721PointerWithVersion (s : EvmStore) (erc721Address : Address) (addr : Bytes)
    (version : UInt16) : Except String EvmStore :=
  setPointerWithVersion (evmAddressIsPointer s erc721Address) (pointerCW721ERC721Key erc721Address)
    addr (pointerReverseRegistryKey (bytesToAddress addr)) erc721Address.bytes version s

def setCW1155ERC1155PointerWithVersion (s : EvmStore) (erc1155Address : Address) (addr : Bytes)
    (version : UInt16) : Except String EvmStore :=
  setPointerWithVersion (evmAddressIsPointer s erc1155Address)
    (pointerCW1155ERC1155Key erc1155Address) addr (pointerReverseRegistryKey (bytesToAddress addr))
    erc1155Address.bytes version s

-- The getters of the pointers to EVM contracts read the stored bytes as an address.
def getEvmPointer (s : EvmStore) (key : Bytes) : Except String (Option (Address × UInt16)) := do
  return (← getPointerInfo s key).map fun (addrBz, version) => (bytesToAddress addrBz, version)

def getERC20NativePointer (s : EvmStore) (token : Bytes) : Except String (Option (Address × UInt16)) :=
  getEvmPointer s (pointerERC20NativeKey token)

def getERC20CW20Pointer (s : EvmStore) (cw20Address : Bytes) :
    Except String (Option (Address × UInt16)) :=
  getEvmPointer s (pointerERC20CW20Key cw20Address)

def getERC721CW721Pointer (s : EvmStore) (cw721Address : Bytes) :
    Except String (Option (Address × UInt16)) :=
  getEvmPointer s (pointerERC721CW721Key cw721Address)

def getERC1155CW1155Pointer (s : EvmStore) (cw1155Address : Bytes) :
    Except String (Option (Address × UInt16)) :=
  getEvmPointer s (pointerERC1155CW1155Key cw1155Address)

-- The getters of the pointers to CosmWasm contracts return the stored address string as it is;
-- `MustAccAddressFromBech32` only parses it.
def getCW20ERC20Pointer (s : EvmStore) (erc20Address : Address) :
    Except String (Option (Bytes × UInt16)) :=
  getPointerInfo s (pointerCW20ERC20Key erc20Address)

def getCW721ERC721Pointer (s : EvmStore) (erc721Address : Address) :
    Except String (Option (Bytes × UInt16)) :=
  getPointerInfo s (pointerCW721ERC721Key erc721Address)

def getCW1155ERC1155Pointer (s : EvmStore) (erc1155Address : Address) :
    Except String (Option (Bytes × UInt16)) :=
  getPointerInfo s (pointerCW1155ERC1155Key erc1155Address)

def deletePointer {α : Type} (get : Except String (Option (α × UInt16))) (key : Bytes)
    (reverseKey : α → Bytes) (version : UInt16) (s : EvmStore) : Except String EvmStore := do
  match ← get with
  | some (addr, _) => pure (deletePointerInfo (deletePointerInfo s key version) (reverseKey addr) version)
  | none => pure s

def deleteERC20NativePointer (s : EvmStore) (token : Bytes) (version : UInt16) :
    Except String EvmStore :=
  deletePointer (getERC20NativePointer s token) (pointerERC20NativeKey token)
    pointerReverseRegistryKey version s

def deleteERC20CW20Pointer (s : EvmStore) (cw20Address : Bytes) (version : UInt16) :
    Except String EvmStore :=
  deletePointer (getERC20CW20Pointer s cw20Address) (pointerERC20CW20Key cw20Address)
    pointerReverseRegistryKey version s

def deleteERC721CW721Pointer (s : EvmStore) (cw721Address : Bytes) (version : UInt16) :
    Except String EvmStore :=
  deletePointer (getERC721CW721Pointer s cw721Address) (pointerERC721CW721Key cw721Address)
    pointerReverseRegistryKey version s

def deleteERC1155CW1155Pointer (s : EvmStore) (cw1155Address : Bytes) (version : UInt16) :
    Except String EvmStore :=
  deletePointer (getERC1155CW1155Pointer s cw1155Address) (pointerERC1155CW1155Key cw1155Address)
    pointerReverseRegistryKey version s

-- `BytesToAddress([]byte(addr.String()))` of the parsed address is that of the stored string.
def deleteCW20ERC20Pointer (s : EvmStore) (erc20Address : Address) (version : UInt16) :
    Except String EvmStore :=
  deletePointer (getCW20ERC20Pointer s erc20Address) (pointerCW20ERC20Key erc20Address)
    (fun addr => pointerReverseRegistryKey (bytesToAddress addr)) version s

def deleteCW721ERC721Pointer (s : EvmStore) (erc721Address : Address) (version : UInt16) :
    Except String EvmStore :=
  deletePointer (getCW721ERC721Pointer s erc721Address) (pointerCW721ERC721Key erc721Address)
    (fun addr => pointerReverseRegistryKey (bytesToAddress addr)) version s

def deleteCW1155ERC1155Pointer (s : EvmStore) (erc1155Address : Address) (version : UInt16) :
    Except String EvmStore :=
  deletePointer (getCW1155ERC1155Pointer s erc1155Address) (pointerCW1155ERC1155Key erc1155Address)
    (fun addr => pointerReverseRegistryKey (bytesToAddress addr)) version s

-- `%s` of a Go string held as its bytes: one character a byte, which is its text for the ASCII
-- of a denom.
def bytesText (b : Bytes) : String := String.ofList (b.map fun c => Char.ofNat c.toNat)

-- The bank precompile's `send` lets only the denom's pointer move it. `hex` is `Address.Hex`, the
-- EIP-55 text of an address; without a pointer `GetERC20NativePointer` gives the zero address.
def sendPointerCheck (hex : Address → String) (s : EvmStore) (denom : Bytes) (caller : Address) :
    Except String Unit := do
  if denom = [] then throw "invalid denom"
  let found ← getERC20NativePointer s denom
  let pointer := (found.map Prod.fst).getD (bytesToAddress [])
  if found.isNone ∨ pointer ≠ caller then
    throw ("only pointer " ++ hex pointer ++ " can send " ++ bytesText denom ++ " but got " ++ hex caller)

inductive Op
  | setCwPointer (kind : CwKind) (identifier : Bytes) (addr : Address) (version : UInt16)
  | setEvmPointer (kind : EvmKind) (identifier : Address) (addr : Bytes) (version : UInt16)
  | deleteCwPointer (kind : CwKind) (identifier : Bytes) (version : UInt16)
  | deleteEvmPointer (kind : EvmKind) (identifier : Address) (version : UInt16)

def step (s : EvmStore) : Op → Except String EvmStore
  | .setCwPointer .erc20Native token addr version => setERC20NativePointerWithVersion s token addr version
  | .setCwPointer .erc20CW20 cw20Address addr version =>
    setERC20CW20PointerWithVersion s cw20Address addr version
  | .setCwPointer .erc721CW721 cw721Address addr version =>
    setERC721CW721PointerWithVersion s cw721Address addr version
  | .setCwPointer .erc1155CW1155 cw1155Address addr version =>
    setERC1155CW1155PointerWithVersion s cw1155Address addr version
  | .setEvmPointer .cw20ERC20 erc20Address addr version =>
    setCW20ERC20PointerWithVersion s erc20Address addr version
  | .setEvmPointer .cw721ERC721 erc721Address addr version =>
    setCW721ERC721PointerWithVersion s erc721Address addr version
  | .setEvmPointer .cw1155ERC1155 erc1155Address addr version =>
    setCW1155ERC1155PointerWithVersion s erc1155Address addr version
  | .deleteCwPointer .erc20Native token version => deleteERC20NativePointer s token version
  | .deleteCwPointer .erc20CW20 cw20Address version => deleteERC20CW20Pointer s cw20Address version
  | .deleteCwPointer .erc721CW721 cw721Address version => deleteERC721CW721Pointer s cw721Address version
  | .deleteCwPointer .erc1155CW1155 cw1155Address version =>
    deleteERC1155CW1155Pointer s cw1155Address version
  | .deleteEvmPointer .cw20ERC20 erc20Address version => deleteCW20ERC20Pointer s erc20Address version
  | .deleteEvmPointer .cw721ERC721 erc721Address version =>
    deleteCW721ERC721Pointer s erc721Address version
  | .deleteEvmPointer .cw1155ERC1155 erc1155Address version =>
    deleteCW1155ERC1155Pointer s erc1155Address version

def run (s : EvmStore) (ops : List Op) : Except String EvmStore := ops.foldlM step s

def Op.pointeeKey : Op → Bytes
  | .setCwPointer kind identifier _ _ => pointerKey kind.kindByte identifier
  | .setEvmPointer kind identifier _ _ => pointerKey kind.kindByte identifier.bytes
  | .deleteCwPointer kind identifier _ => pointerKey kind.kindByte identifier
  | .deleteEvmPointer kind identifier _ => pointerKey kind.kindByte identifier.bytes

def Op.version : Op → UInt16
  | .setCwPointer _ _ _ version => version
  | .setEvmPointer _ _ _ version => version
  | .deleteCwPointer _ _ version => version
  | .deleteEvmPointer _ _ version => version

end SeiChain.Evm.Pointer
