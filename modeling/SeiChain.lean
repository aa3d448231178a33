import SeiChain.Store.CacheKV
import SeiChain.Common.Bytes
import SeiChain.Evm.State.Temporary
import SeiChain.Evm.State.DB
import SeiChain.Evm.State.Step
import SeiChain.Evm.State.Journal
import SeiChain.Evm.State.Revert
import SeiChain.Evm.State.Finalize
import SeiChain.Evm.State.Balance
import SeiChain.Evm.State.Conservation
import SeiChain.Math.Dec
import SeiChain.Math.DecOrder
import SeiChain.Lib.GoInt
import SeiChain.Lib.BigInt
import SeiChain.Evm.Ethtypes
import SeiChain.Evm.EthTx
import SeiChain.Evm.Fee
import SeiChain.App.BlockGas
import SeiChain.Lib.GoSearch
import SeiChain.Evm.Nonce
import SeiChain.Oracle.Ballot
import SeiChain.Oracle.Median
import SeiChain.Lib.Fold
import SeiChain.Oracle.Tally
import SeiChain.Oracle.Counting
import SeiChain.Evm.Pointer
import SeiChain.Evm.PointerMap
import SeiChain.Oracle.Twap
import SeiChain.Lib.List
import SeiChain.Oracle.Pruning
import SeiChain.Oracle.TwapIntegral
import SeiChain.Lib.PEquiv
import SeiChain.Evm.Association
import SeiChain.Evm.AssociationMap
import SeiChain.Mint.Minter
import SeiChain.Mint.Release
import SeiChain.Mint.Epochs
import SeiChain.Mint.Schedule
import SeiChain.Mint.Shares
import SeiChain.Evm.Bloom
import SeiChain.Evm.Receipt
import SeiChain.Rpc.Block
import SeiChain.Rpc.Indices
import SeiChain.Rpc.Bloom
import SeiChain.Lib.GoSort
import SeiChain.Rpc.Filter
import SeiChain.Oracle.Reference
import SeiChain.Tokenfactory.Denoms
import SeiChain.Store.Sorted
import SeiChain.Tokenfactory.Keeper
import SeiChain.Tokenfactory.Invariant
import SeiChain.Tokenfactory.Custody
import SeiChain.Tokenfactory.Genesis
import SeiChain.Epoch.Module
import SeiChain.Mint.Hooks
import SeiChain.Oracle.Slash
import SeiChain.Oracle.Vote
import SeiChain.Oracle.Whitelist
import SeiChain.Oracle.Genesis
